import Prompter.Console.Loop
import Prompter.Rehearsal.World
import Prompter.Session.Action

namespace Prompter.Rehearsal

/-- An action is given up when it has taken so many milliseconds. -/
def patience : Nat := 86400000

inductive Action where
  | session (a : Session.Action)
  | console (format : Console.Format) (input : Utf8.Bytes)
  /-- Waits for the greeting, which has come already. -/
  | ready
  | emit (o : Output)
  | wait (milliseconds : Nat)
  | spawn (name command : Text) (echo : Echo)
  | join (name : Text)
  | concurrent (commands : List Text) (echo : Echo)

inductive Value where
  | session (v : Session.Value)
  | transcript (t : Console.Transcript)
  | replies (rs : List (Except SessionError Frame))

inductive Failure where
  | error (e : SessionError)
  | hang

structure Report where
  result : Except Failure Value
  sent : List Text
  /-- How many public turns have been lost, and those that have not. -/
  lagged : Nat
  published : List Text
  state : Session.State
  pending : Nat
  closed : Bool

structure Scenario where
  prompt : Text
  timeLimit : Option Nat
  echo : Echo
  greeting : Output
  script : List Response
  fallback : Output

/-- What is done in a world. It may hang, and then too leaves the world in some state. -/
abbrev Play := ExceptT Failure (StateM World)

def Play.ofExcept {α : Type} : Except SessionError α → Play α
  | .ok a => return a
  | .error e => throw (.error e)

def submit (commands : List Text) (echo : Echo) : Play (List CallId) := do
  let w ← get
  set (commands.foldl (fun w command ↦ w.dispatch (.submit command echo)) w).settle
  return List.range' w.dispatcher.nextId commands.length

def await (ids : List CallId) : Play (List (Except SessionError Frame)) := do
  let (results, w) := (← get).await ids
  set w
  match results with
  | some results => return results
  | none => throw .hang

def awaitOne (ids : List CallId) : Play (Except SessionError Frame) := do
  match ← await ids with
  | result :: _ => return result
  | [] => throw .hang

/-- Makes a call and waits for its return. If that takes too long the call is cancelled, while
those that were started by name or together go on. -/
def call (command : Text) (echo : Echo) : Play (Except SessionError Frame) := do
  let ids ← submit [command] echo
  try awaitOne ids
  catch e =>
    modify (·.cancel ids)
    throw e

def host : Dialogue.Host Play where
  ask := call
  look := return (← get).state
  become s := modify ({ · with state := s })
  hangUp := do
    modify (·.dispatch .shutdown |>.settle)
    return .ok ()

def perform (echo : Echo) : Action → Play Value
  | .session a => do
    return .session (← Play.ofExcept (← (Session.perform echo a).run.hold host))
  | .console format input => do
    return .transcript (← (Console.run echo format (Console.inputs input)).hold host)
  | .ready => return .session (.frame {})
  | .emit o => do
    modify (·.emit o |>.settle)
    return .session .nothing
  | .wait n => do
    let w ← get
    let time := min (w.clock + n) w.horizon
    set { w.passUntil time (fun _ ↦ false) with clock := time }
    if time < w.clock + n then throw .hang
    return .session .nothing
  | .spawn name command mode => do
    let ids ← submit [command] mode
    modify fun w ↦ { w with named := ids.map (name, ·) ++ w.named }
    return .session .nothing
  | .join name => do
    let call := (← get).named.find? (·.1 = name)
    return .session (.frame (← Play.ofExcept (← awaitOne (call.map (·.2)).toList)))
  | .concurrent commands mode => do
    return .replies (← await (← submit commands mode))

def report (result : Except Failure Value) (w : World) : Report where
  result := result
  sent := w.received.reverse
  lagged := w.subscriber.missed
  published := w.subscriber.unread
  state := w.state
  pending := w.dispatcher.pending.length
  closed := w.dispatcher.isClosed

/-- Takes one action, and lets happen what still can before the report. -/
def act (echo : Echo) (w : World) (a : Action) : World × Report :=
  let w := { w with horizon := w.clock + patience, received := [], subscriber := {} }
  let (result, w) := (perform echo a).run w
  let w := w.settle
  (w, report result w)

namespace Scenario

def world (s : Scenario) : World :=
  World.emit
    { connection := { dispatcher := .start s.prompt }
      timeLimit := s.timeLimit
      deadlines := s.timeLimit.toList.map fun limit ↦ (0, limit)
      horizon := patience
      script := s.script
      fallback := s.fallback } s.greeting

/-- Waits for the greeting, which answers call 0. -/
def attach : Play Unit := do
  let _ ← Play.ofExcept (← awaitOne [0])
  modify World.settle

def runFrom (s : Scenario) (w : World) : List Action → List Report
  | [] => []
  | a :: rest =>
    let (w, r) := act s.echo w a
    r :: s.runFrom w rest

/-- Attaches the session and takes the actions; or says why it cannot be attached. -/
def run (s : Scenario) (actions : List Action) : Except Failure (List Report) :=
  match attach.run s.world with
  | (.error e, _) => .error e
  | (.ok _, w) => .ok (s.runFrom w actions)

end Scenario

end Prompter.Rehearsal
