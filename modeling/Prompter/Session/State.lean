import Prompter.Table
import Prompter.Tree.Basic

namespace Prompter

abbrev Bindings := Table (Table Tree)

abbrev Breakpoints := Table LineSet

inductive Phase where
  | idle
  | loaded
  | paused
  | completed
  deriving DecidableEq, Repr

namespace Session

structure State where
  program : Option Text := none
  /-- The line at which the program stands: 0 before the first one, none when it has ended. -/
  line : Option Nat := none
  done : Bool := false
  bindings : Bindings := ∅
  breakpoints : Breakpoints := ∅
  deriving DecidableEq, Inhabited

namespace State

def phase (s : State) : Phase :=
  match s.program with
  | none => .idle
  | some _ => if s.done then .completed else if s.line = some 0 then .loaded else .paused

/-- A program has just been loaded; what its variables held before is gone. -/
def loaded (s : State) (program : Text) : State :=
  { s with
    program := some program, line := some 0, done := false, bindings := s.bindings.erase program }

def pausedAt (s : State) (program : Text) (line : Nat) : State :=
  { s with program := some program, line := some line }

def completed (s : State) : State := { s with line := none, done := true }

def withBindings (s : State) (bindings : Bindings) : State := { s with bindings }

def withBreakpoints (s : State) (breakpoints : Breakpoints) : State := { s with breakpoints }

def addBreakpoint (s : State) (program : Text) (line : Nat) : State :=
  s.withBreakpoints (s.breakpoints.insert program
    (((s.breakpoints.get? program).getD ∅).insert line))

/-- A program without breakpoints does not stay in the table. -/
def deleteBreakpoint (s : State) (program : Text) (line : Nat) : State :=
  match s.breakpoints.get? program with
  | none => s
  | some lines =>
    s.withBreakpoints <|
      if (lines.erase line).isEmpty then s.breakpoints.erase program
      else s.breakpoints.insert program (lines.erase line)

def withBreakpoint (s : State) (program : Text) (line : Nat) (on : Bool) : State :=
  if on then s.addBreakpoint program line else s.deleteBreakpoint program line

def currentBindings (s : State) : Option (Table Tree) := s.program.bind s.bindings.get?

end State

/-- Why a program that was set going stands still again. -/
inductive Cause where
  | done (name : Text) (value : Tree)
  | breakpoint (line : Nat) (note : Option Text)
  | start (name : Text) (value : Tree)
  | loopExit
  deriving DecidableEq, Repr

structure Outcome where
  cause : Cause
  state : State
  deriving DecidableEq

end Session

end Prompter
