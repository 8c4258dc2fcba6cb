import Prompter.Config
import Prompter.Session.Dialogue
import Prompter.Session.Reply

namespace Prompter.Session

abbrev Operation := ExceptT SessionError Dialogue

namespace Operation

variable {α : Type}

def ask (command : Text) (echo : Echo) : Operation Frame := ExceptT.mk (.ask command echo .done)

def look : Operation State := ExceptT.lift (.look .done)

def hangUp : Operation Unit := ExceptT.mk (.hangUp .done)

def modify (f : State → State) : Operation Unit :=
  ExceptT.lift (.look fun s ↦ .become (f s) (.done ()))

def decoded (r : Except SessionError α) : Operation α := ExceptT.mk (.done r)

/-- Does what it can; whether it succeeds makes no difference. -/
def attempt (x : Operation α) : Operation Unit := ExceptT.lift (x.run.bind fun _ ↦ .done ())

def usage (message : Text) : Operation α := decoded (.error (.usage message))

end Operation

open Operation

-- Whether turns are public unless the caller says otherwise.
variable (echo : Echo)

def execute (command : Text) (echo : Echo) : Operation Frame := ask command echo

def store : Operation Bindings := do
  let frame ← ask ":store" echo
  let bindings ← decoded (Reply.decodeStore ":store" frame)
  modify (·.withBindings bindings)
  return bindings

def listBreakpoints : Operation Listing := do
  let frame ← ask ":break" echo
  let listing ← decoded (Reply.decodeBreakpoints ":break" frame)
  modify (·.withBreakpoints (listing.map LineSet.ofList))
  return listing

def load (program input : Text) : Operation State := do
  let command := ":load " ++ program ++ " " ++ Text.trim input
  let frame ← ask command echo
  let name ← decoded (Reply.decodeLoad command frame)
  modify (·.loaded name)
  attempt (listBreakpoints echo)
  attempt (store echo)
  look

/-- A program can be set going unless there is none or it has ended. -/
def requireRunnable : Operation Unit := do
  let s ← look
  match s.phase with
  | .idle => usage "no program to run"
  | .completed =>
    usage ("program '" ++ s.program.getD [] ++ "' has already completed; load it again")
  | .loaded => return
  | .paused => return

def outcome (cause : Cause) : Operation Outcome := do
  attempt (store echo)
  return ⟨cause, ← look⟩

def run : Operation Outcome := do
  requireRunnable
  let frame ← ask ":run" echo
  match ← decoded (Reply.decodeRun ":run" frame) with
  | .wrote name value =>
    modify State.completed
    outcome echo (.done name value)
  | .breakpoint program line =>
    modify (·.pausedAt program line)
    outcome echo (.breakpoint line none)

def step : Operation Outcome := do
  requireRunnable
  let frame ← ask ":step" echo
  match ← decoded (Reply.decodeStep ":step" frame) with
  | .read name value => outcome echo (.start name value)
  | .wrote name value =>
    modify State.completed
    outcome echo (.done name value)
  | .atLine program line note =>
    modify (·.pausedAt program line)
    outcome echo (.breakpoint line (some note))
  | .loopExit => outcome echo .loopExit

def breakpointTarget (program : Option Text) : Operation Text := do
  let s ← look
  match program <|> s.program with
  | some p => return p
  | none => usage "no program loaded; name the program for the breakpoint"

def editBreakpoint (added : Bool) (line : Nat) (program : Option Text) : Operation State := do
  let target ← breakpointTarget program
  let verb : Text := if added then ":break " else ":delbreak "
  let command := verb ++ Text.decimal line ++ " " ++ target
  let frame ← ask command echo
  let (p, n) ← decoded (Reply.decodeEdit command added frame)
  modify (·.withBreakpoint p n added)
  look

def addBreakpoint (line : Nat) (program : Option Text) : Operation State :=
  editBreakpoint echo true line program

def deleteBreakpoint (line : Nat) (program : Option Text) : Operation State :=
  editBreakpoint echo false line program

def replyTo (command : Text) : Operation (List Text) := do
  let frame ← ask command echo
  return frame.replyLines

def help : Operation (List Text) := replyTo echo ":help"

def changeDirectory (directory : Text) : Operation (List Text) :=
  replyTo echo (":cd " ++ directory)

def evaluate (expression : Text) : Operation (List Text) := replyTo echo expression

/-- Ends the session. Nothing is left of the snapshot, unless the interpreter cannot be ended. -/
def stop : Operation Unit := do
  hangUp
  modify fun _ ↦ {}

def checkConfig (config : Config) : Except SessionError Unit :=
  if (Text.trim config.prompt).isEmpty then .error (.usage "prompt must not be blank") else .ok ()

def failedToStart (config : Config) (reason : Text) : SessionError :=
  .transport ("failed to start " ++ config.interpreter ++ ": " ++ reason)

end Prompter.Session
