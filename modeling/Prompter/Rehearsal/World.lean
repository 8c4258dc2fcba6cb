import Prompter.Connection
import Prompter.Session.State
import Prompter.Subscriber
import Prompter.Text.Lines

namespace Prompter.Rehearsal

structure Output where
  delay : Nat := 0
  reads : List Read := []
  deriving DecidableEq, Repr

/-- What the script has the interpreter do: answer a line, or refuse to be written to. -/
inductive Response where
  | output (o : Output)
  | refusal (message : Text)
  deriving DecidableEq, Repr

/-- A read gives at most so many bytes. -/
def readSize : Nat := 4096

def readsOf (chunk : Utf8.Bytes) : List Read :=
  if chunk.length = 0 then []
  else .bytes (chunk.take readSize) :: readsOf (chunk.drop readSize)
termination_by chunk.length
decreasing_by simp only [List.length_drop, readSize]; omega

/-- A session with an interpreter that follows a script, under a clock that moves only when nothing
else can happen, and then straight to the next point of time at which something is due. -/
structure World where
  connection : Connection
  inbound : List Read := []
  clock : Nat := 0
  /-- Output that is yet to arrive, with the time of arrival. -/
  arrivals : List (Nat × List Read) := []
  timeLimit : Option Nat
  deadlines : List (CallId × Nat) := []
  /-- The time at which the current action counts as hanging. -/
  horizon : Nat := 0
  script : List Response
  /-- The answer to a line when the script has ended. -/
  fallback : Output
  state : Session.State := {}
  /-- The lines that the interpreter has received, newest first. -/
  received : List Text := []
  /-- It reads when an action is over. -/
  subscriber : Subscriber := {}
  returned : List (CallId × Except SessionError Frame) := []
  named : List (Text × CallId) := []

namespace World

def dispatcher (w : World) : Dispatcher := w.connection.dispatcher

def emit (w : World) (o : Output) : World :=
  if o.delay = 0 then { w with inbound := w.inbound ++ o.reads }
  else { w with arrivals := w.arrivals ++ [(w.clock + o.delay, o.reads)] }

def receive (w : World) (line : Text) : World :=
  let w := { w with received := line :: w.received }
  match w.script with
  | .output o :: rest => { w with script := rest }.emit o
  | .refusal _ :: rest => { w with script := rest }
  | [] => w.emit w.fallback

def observe (w : World) : Dispatcher.Notice → World
  | .wrote text => (Text.splitLines text).dropLast.foldl receive w
  | .published text => { w with subscriber := w.subscriber.offer text }
  | .returned c result =>
    { w with
      returned := (c.id, result) :: w.returned
      deadlines := w.deadlines.filter (·.1 ≠ c.id) }
  | .cancelled c => { w with deadlines := w.deadlines.filter (·.1 ≠ c.id) }
  | _ => w

def apply (w : World) (e : Connection.Event) : World :=
  let (connection, notices) := w.connection.take e
  notices.foldl observe { w with connection }

def dispatch (w : World) (e : Dispatcher.Event) : World := w.apply (.dispatch e)

def readAll (w : World) : World :=
  w.inbound.foldl (fun w r ↦ w.apply (.read r)) { w with inbound := [] }

def write (w : World) (id : CallId) : World :=
  match w.script with
  | .refusal message :: rest => { w with script := rest }.dispatch (.writeFailed id message)
  | _ =>
    let w := w.dispatch (.written id)
    match w.timeLimit with
    | some limit => { w with deadlines := (id, w.clock + limit) :: w.deadlines }
    | none => w

/-- A call that can go on does: one that has its answer, or else the first that waits for a turn
that is free. -/
def goOn? (w : World) : Option World :=
  match w.dispatcher.calls.find? fun c ↦ c.stage = .waiting && c.answer.isSome with
  | some c => some (w.dispatch (.resume c.id))
  | none =>
    if w.dispatcher.holder.isSome || w.dispatcher.queue.isEmpty then none
    else
      let w := w.dispatch .takeTurn
      some <| match w.dispatcher.holder with
        | some id => w.write id
        | none => w

/-- All that can happen while the clock stands: output is read before any call goes on. -/
def settle (w : World) : World :=
  go (w.dispatcher.queue.length + w.dispatcher.calls.length) w
where
  /-- A call goes on at most twice, once with the turn and once with its answer. -/
  go : Nat → World → World
    | 0, w => w.readAll
    | n + 1, w =>
      let w := w.readAll
      match w.goOn? with
      | some w => go n w
      | none => w

def nextDue? (w : World) : Option Nat := (w.arrivals.map (·.1) ++ w.deadlines.map (·.2)).min?

def moveTo (w : World) (time : Nat) : World :=
  let (due, later) := w.arrivals.partition (·.1 ≤ time)
  let expired := w.deadlines.filter (·.2 ≤ time)
  let elapsed := Duration.ofMilliseconds (w.timeLimit.getD 0)
  let w := { w with
    clock := time
    arrivals := later
    inbound := w.inbound ++ due.flatMap (·.2) }
  settle <| expired.foldl (fun (w : World) d ↦ w.dispatch (.expire d.1 elapsed)) w

/-- At most so many points of time can become due: each call to come sets one time limit and has
at most one arrival for each of its lines. -/
def dueBound (w : World) : Nat :=
  w.arrivals.length + w.deadlines.length +
    w.dispatcher.calls.foldr (fun c n ↦ c.command.length + 2 + n) 0

def passUntil (w : World) (time : Nat) (stop : World → Bool) : World :=
  go w.dueBound w
where
  go : Nat → World → World
    | 0, w => w
    | n + 1, w =>
      if stop w then w
      else
        match w.nextDue? with
        | some due => if due ≤ time then go n (w.moveTo due) else w
        | none => w

def result? (w : World) (id : CallId) : Option (Except SessionError Frame) :=
  (w.returned.find? (·.1 = id)).map (·.2)

def await (w : World) (ids : List CallId) : Option (List (Except SessionError Frame)) × World :=
  let w := w.settle.passUntil w.horizon fun w ↦ ids.all (w.result? · |>.isSome)
  match ids.mapM w.result? with
  | some results => (some results, w)
  | none => (none, { w with clock := w.horizon })

def cancel (w : World) (ids : List CallId) : World :=
  settle <| ids.foldl (fun (w : World) id ↦ w.dispatch (.cancel id)) w

end World

end Prompter.Rehearsal
