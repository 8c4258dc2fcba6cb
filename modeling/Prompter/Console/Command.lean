import Prompter.Text.Decimal

namespace Prompter.Console

inductive Command where
  | help
  | quit
  | load (program input : Text)
  | run
  | step
  | store
  | breakpoints
  | addBreakpoint (line : Nat) (program : Option Text)
  | deleteBreakpoint (line : Nat) (program : Option Text)
  | state
  | changeDirectory (directory : Text)
  | raw (text : Text)
  | invalid (text : Text)
  deriving DecidableEq, Repr

namespace Command

/-- Reads `N` or `N PROGRAM`. -/
def lineAndProgram? (arguments : Text) : Option (Nat × Option Text) :=
  match Text.words arguments with
  | [line] => (Text.lineNumber? line).map (·, none)
  | [line, program] => (Text.lineNumber? line).map (·, some program)
  | _ => none

/-- Reads `PROGRAM INPUT`, where the input goes on to the end. -/
def programAndInput? (arguments : Text) : Option (Text × Text) := do
  let (program, input) ← Text.splitAtBlank (Text.trim arguments)
  guard !(Text.trim input).isEmpty
  return (program, Text.trim input)

def bare? (line : Text) : Option Command :=
  if line = ":help" ∨ line = ":h" then some help
  else if line = ":quit" ∨ line = ":q" then some quit
  else if line = ":run" then some run
  else if line = ":step" then some step
  else if line = ":store" then some store
  else if line = ":break" then some breakpoints
  else if line = ":state" then some state
  else if line = ":" then some (invalid ":")
  else none

/-- The commands with arguments, which a space sets off. -/
def withArguments? (line : Text) : Option Command :=
  if let some arguments := Text.after? ":load " line then
    match programAndInput? arguments with
    | some (program, input) => some (load program input)
    | none => some (invalid line)
  else if let some arguments := Text.after? ":break " line then
    match lineAndProgram? arguments with
    | some (n, program) => some (addBreakpoint n program)
    | none => some (invalid line)
  else if let some arguments := Text.after? ":delbreak " line then
    match lineAndProgram? arguments with
    | some (n, program) => some (deleteBreakpoint n program)
    | none => some (invalid line)
  else if let some arguments := Text.after? ":cd " line then
    if (Text.trim arguments).isEmpty then some (invalid line)
    else some (changeDirectory (Text.trim arguments))
  else none

def parse (input : Text) : Command :=
  let line := Text.trim input
  match bare? line with
  | some command => command
  | none => (withArguments? line).getD (raw line)

def arguments (line : Nat) (program : Option Text) : Text :=
  match program with
  | none => Text.decimal line
  | some program => Text.decimal line ++ " " ++ program

def text : Command → Text
  | help => ":help"
  | quit => ":quit"
  | load program input => ":load " ++ program ++ " " ++ input
  | run => ":run"
  | step => ":step"
  | store => ":store"
  | breakpoints => ":break"
  | addBreakpoint line program => ":break " ++ arguments line program
  | deleteBreakpoint line program => ":delbreak " ++ arguments line program
  | state => ":state"
  | changeDirectory directory => ":cd " ++ directory
  | raw text => text
  | invalid text => text

end Command

end Prompter.Console
