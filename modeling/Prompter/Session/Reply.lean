import Prompter.Frame
import Prompter.Session.Error
import Prompter.Session.Reply.Line
import Prompter.Session.State
import Prompter.Tree.Parser

namespace Prompter

inductive RunReply where
  | wrote (name : Text) (value : Tree)
  | breakpoint (program : Text) (line : Nat)
  deriving DecidableEq, Repr

inductive StepReply where
  | read (name : Text) (value : Tree)
  | wrote (name : Text) (value : Tree)
  | atLine (program : Text) (line : Nat) (note : Text)
  | loopExit
  deriving DecidableEq, Repr

abbrev Listing := Table (List Nat)

namespace Reply

variable (command : Text)

/-- The form was found, or `line` is not what `command` calls for. -/
def fits {α : Type} (line : Text) (form : Option α) : Except SessionError α :=
  match form with
  | some a => .ok a
  | none => .error (.unexpectedReply command line)

def lineAt (n : Nat) (frame : Frame) : Except SessionError Text :=
  fits command frame.raw frame.replyLines[n]?

def tree (text : Text) : Except SessionError Tree :=
  (Tree.parse text).mapError .malformedTree

def decodeLoad (frame : Frame) : Except SessionError Text := do
  let line ← lineAt command 0 frame
  fits command line (loaded? line)

def decodeRun (frame : Frame) : Except SessionError RunReply := do
  let line ← lineAt command 0 frame
  match assignment? "wrote" line with
  | some (name, value) => return .wrote name (← tree value)
  | none =>
    if line = hitBreakpoint then
      let next ← lineAt command 1 frame
      let (program, n, _) ← fits command next (position? next)
      return .breakpoint program n
    else .error (.unexpectedReply command line)

def decodeStep (frame : Frame) : Except SessionError StepReply := do
  let line ← lineAt command 0 frame
  match assignment? "read" line with
  | some (name, value) => return .read name (← tree value)
  | none =>
    match assignment? "wrote" line with
    | some (name, value) => return .wrote name (← tree value)
    | none =>
      match position? line with
      | some (program, n, note) => return .atLine program n note
      | none => if line = loopExit then return .loopExit else .error (.unexpectedReply command line)

def insertBinding (b : Bindings) (program name : Text) (value : Tree) : Bindings :=
  b.insert program (((b.get? program).getD ∅).insert name value)

/-- Of several entries for one variable the last counts. -/
def decodeStore (frame : Frame) : Except SessionError Bindings :=
  frame.replyLines.foldlM (fun b line ↦ do
    let (program, name, value) ← fits command line (binding? line)
    return insertBinding b program name (← tree value)) ∅

/-- A line listed again keeps its first place. -/
def insertListed (l : Listing) (program : Text) (n : Nat) : Listing :=
  let lines := (l.get? program).getD []
  l.insert program (if lines.contains n then lines else lines ++ [n])

def decodeBreakpoints (frame : Frame) : Except SessionError Listing :=
  frame.replyLines.foldlM (fun l line ↦ do
    let (program, n) ← fits command line (breakpoint? line)
    return insertListed l program n) ∅

def decodeEdit (added : Bool) (frame : Frame) : Except SessionError (Text × Nat) := do
  let line ← lineAt command 0 frame
  fits command line (edit? added line)

end Reply

end Prompter
