import Prompter.Framer
import Prompter.Session.Error

namespace Prompter

/-- Whether the output of a turn is made public. -/
inductive Echo where
  | publish
  | silent
  deriving DecidableEq, Repr, Inhabited

abbrev CallId := Nat

/-- A command on its way, to which a frame is due. -/
structure Request where
  call : CallId
  command : Text
  deriving DecidableEq, Repr

inductive Stage where
  | queued
  /-- Has registered its request; its line is being written. -/
  | writing
  | waiting
  deriving DecidableEq, Repr

structure Call where
  id : CallId
  command : Text
  echo : Echo
  stage : Stage
  /-- What the call will return when it is resumed. -/
  answer : Option (Except SessionError Frame) := none

/-- Who waits for the turn: a call, or a shutdown that is to close the line to the interpreter. -/
inductive Waiter where
  | call (id : CallId)
  | shutdown
  deriving DecidableEq, Repr

inductive Closing where
  | stopped
  | outputEnded
  | readFailed (message : Text)
  deriving DecidableEq, Repr

namespace Closing

def reason : Closing → Text
  | stopped => "session stopped"
  | outputEnded => "interpreter closed its output"
  | readFailed message => "read failed: " ++ message

/-- How a command fails that is unanswered at the closing. -/
def rejection (c : Closing) (command : Text) : SessionError :=
  match c with
  | stopped => .stopped command
  | c => .transport c.reason

end Closing

/-- Lets any number of callers talk to one interpreter, one event after another. A call waits for
the turn, registers a request and writes its line, and then waits for an answer, keeping the turn.
Each frame answers the oldest request. A caller that gives up releases the turn but leaves its
request, which then absorbs the late reply. An event that does not apply changes nothing. -/
structure Dispatcher where
  framer : Framer
  /-- The requests without a frame, oldest first. -/
  pending : List Request
  /-- The reason of the first closing. -/
  closed : Option Text := none
  /-- Whether there still is a line to the interpreter. -/
  writable : Bool := true
  holder : Option CallId := none
  /-- Those that wait for the turn, in the order of arrival. -/
  queue : List Waiter := []
  calls : List Call
  nextId : CallId

namespace Dispatcher

inductive Event where
  | submit (command : Text) (echo : Echo)
  | shutdown
  | takeTurn
  | written (id : CallId)
  | writeFailed (id : CallId) (message : Text)
  | deliver (chunk : Text)
  | close (c : Closing)
  | resume (id : CallId)
  | expire (id : CallId) (elapsed : Duration)
  | cancel (id : CallId)
  deriving DecidableEq, Repr

/-- What an event brings about outside the dispatcher's own state. -/
inductive Notice where
  | registered (r : Request)
  | wrote (text : Text)
  | answered (r : Request) (f : Frame)
  /-- A frame without a request is dropped. -/
  | unclaimed (f : Frame)
  | rejected (r : Request)
  | withdrawn (r : Request)
  | published (text : Text)
  | returned (c : Call) (result : Except SessionError Frame)
  | cancelled (c : Call)
  /-- The line to the interpreter has been given up. -/
  | shutDown

def greeting : Text := "<greeting>"

/-- The interpreter has just been started. It greets with a prompt, for which call 0 waits. -/
def start (prompt : Text) : Dispatcher where
  framer := .ofPrompt prompt
  pending := [⟨0, greeting⟩]
  calls := [{ id := 0, command := greeting, echo := .silent, stage := .waiting }]
  nextId := 1

def find? (d : Dispatcher) (id : CallId) : Option Call := d.calls.find? (·.id = id)

def updateCall (d : Dispatcher) (id : CallId) (f : Call → Call) : Dispatcher :=
  { d with calls := d.calls.map fun c ↦ if c.id = id then f c else c }

def remove (d : Dispatcher) (id : CallId) : Dispatcher :=
  { d with
    calls := d.calls.filter (·.id ≠ id)
    queue := d.queue.filter (· ≠ .call id)
    holder := if d.holder = some id then none else d.holder }

abbrev Step := Dispatcher × List Notice

/-- The call returns; its turn is public if it succeeds and was meant to be. -/
def finish (d : Dispatcher) (c : Call) (result : Except SessionError Frame) : Step :=
  let published := match result, c.echo with
    | .ok frame, .publish => [.published frame.raw]
    | _, _ => []
  (d.remove c.id, published ++ [.returned c result])

def submit (d : Dispatcher) (command : Text) (echo : Echo) : Step :=
  let c : Call := { id := d.nextId, command := command.trim, echo, stage := .queued }
  ({ d with calls := d.calls ++ [c], queue := d.queue ++ [.call c.id], nextId := d.nextId + 1 }, [])

def register (d : Dispatcher) (c : Call) : Step :=
  let r : Request := ⟨c.id, c.command⟩
  ({ d with
      pending := d.pending ++ [r]
      framer := d.framer.beginTurn
      holder := some c.id }.updateCall c.id fun c ↦ { c with stage := .writing },
    [.registered r])

def takeTurn (d : Dispatcher) : Step :=
  match d.holder, d.queue with
  | none, .shutdown :: rest => ({ d with queue := rest, writable := false }, [.shutDown])
  | none, .call id :: rest =>
    let d := { d with queue := rest }
    match d.find? id with
    | none => (d, [])
    | some c =>
      if !d.writable then
        d.finish c (.error (.transport "no active interpreter (session stopped)"))
      else
        match d.closed with
        | some reason => d.finish c (.error (.transport ("interpreter is gone: " ++ reason)))
        | none => d.register c
  | _, _ => (d, [])

def written (d : Dispatcher) (c : Call) : Step :=
  (d.updateCall c.id fun c ↦ { c with stage := .waiting }, [.wrote (c.command ++ ['\n'])])

/-- The newest request, which is that of the failed call if it is still there, will get no frame. -/
def writeFailed (d : Dispatcher) (c : Call) (message : Text) : Step :=
  let withdrawn := d.pending.getLast?.toList.map .withdrawn
  let (d, notices) := { d with pending := d.pending.dropLast }.finish c
    (.error (.transport ("failed to write `" ++ c.command ++ "`: " ++ message)))
  (d, withdrawn ++ notices)

def handOver (d : Dispatcher) (frame : Frame) : Step :=
  match d.pending with
  | [] => (d, [.unclaimed frame])
  | r :: rest =>
    ({ d with pending := rest }.updateCall r.call fun c ↦
        { c with answer := some (.ok (frame.echoed r.command)) },
      [.answered r frame])

def handOverAll (d : Dispatcher) : List Frame → Step
  | [] => (d, [])
  | frame :: rest =>
    let (d, notices) := d.handOver frame
    let (d, more) := d.handOverAll rest
    (d, notices ++ more)

def deliver (d : Dispatcher) (chunk : Text) : Step :=
  let (framer, frames) := d.framer.feed chunk
  { d with framer }.handOverAll frames

/-- Rejects all requests. Only the first closing leaves its reason. -/
def close (d : Dispatcher) (c : Closing) : Step :=
  (d.pending.foldl
      (fun d r ↦ d.updateCall r.call fun call ↦
        { call with answer := some (.error (c.rejection r.command)) })
      { d with pending := [], closed := d.closed <|> some c.reason },
    d.pending.map .rejected)

def onCall (d : Dispatcher) (id : CallId) (stage : Stage) (f : Call → Step) : Step :=
  match d.find? id with
  | some c => if c.stage = stage then f c else (d, [])
  | none => (d, [])

def step (d : Dispatcher) : Event → Step
  | .submit command echo => d.submit command echo
  | .shutdown =>
    let (d, notices) := d.close .stopped
    ({ d with queue := d.queue ++ [.shutdown] }, notices)
  | .takeTurn => d.takeTurn
  | .written id => d.onCall id .writing d.written
  | .writeFailed id message => d.onCall id .writing (d.writeFailed · message)
  | .deliver chunk => d.deliver chunk
  | .close c => d.close c
  | .resume id => d.onCall id .waiting fun c ↦
    match c.answer with
    | some result => d.finish c result
    | none => (d, [])
  | .expire id elapsed => d.onCall id .waiting fun c ↦
    match c.answer with
    | some _ => (d, [])
    | none => d.finish c (.error (.timeout c.command elapsed))
  | .cancel id =>
    match d.find? id with
    | some c => (d.remove id, [.cancelled c])
    | none => (d, [])

def run (d : Dispatcher) : List Event → Step
  | [] => (d, [])
  | e :: rest =>
    let (d, notices) := d.step e
    let (d, more) := d.run rest
    (d, notices ++ more)

theorem run_append (d : Dispatcher) (a b : List Event) :
    d.run (a ++ b) = (((d.run a).1.run b).1, (d.run a).2 ++ ((d.run a).1.run b).2) := by
  induction a generalizing d with
  | nil => simp [run]
  | cons e rest ih => simp [run, ih]

def isClosed (d : Dispatcher) : Bool := d.closed.isSome

end Dispatcher

end Prompter
