import Prompter.Text.Decimal
import Prompter.Tree.Basic

namespace Prompter.Reply

def isWord (t : Text) : Bool := !t.isEmpty && t.all (!Text.isBlank ·)

/-- The text up to its last word, and that word, which is empty after a blank. -/
def splitLastWord (t : Text) : Text × Text :=
  ((t.reverse.dropWhile (!Text.isBlank ·)).reverse,
    (t.reverse.takeWhile (!Text.isBlank ·)).reverse)

def splitFirstWord (t : Text) : Text × Text :=
  (t.takeWhile (!Text.isBlank ·), t.dropWhile (!Text.isBlank ·))

/-- The name between the quote that has been read and the next one, and the rest from there. -/
def splitQuoted (t : Text) : Text × Text :=
  (t.takeWhile (· ≠ '\''), t.dropWhile (· ≠ '\''))

/-- Digits that fit the 32 bits of a line number. -/
def lineNumber? (t : Text) : Option Nat := (Text.digits? t).filter (· < UInt32.size)

def hitBreakpoint : Text := "Hit breakpoint."

def loopExit : Text := "Skipped or exited while-loop."

def assignment (verb program name value : Text) : Text :=
  program ++ " " ++ verb ++ " " ++ name ++ " = " ++ value

/-- The variable and its value at the end of a line, if `verb` stands before them as a word. -/
def assignment? (verb line : Text) : Option (Text × Text) := do
  let (front, value) := splitLastWord line
  let front ← Text.before? " = " front
  let (front, name) := splitLastWord front
  let front ← Text.before? (verb ++ " ") front
  guard (isWord value && isWord name && front.getLast?.all Text.isBlank)
  return (name, value)

def position (program : Text) (line : Nat) (note : Text) : Text :=
  program ++ ", line " ++ Text.decimal line ++ ": " ++ note

def position? (line : Text) : Option (Text × Nat × Text) := do
  let (word, rest) := splitFirstWord line
  let program ← Text.before? "," word
  let rest ← Text.after? " line " rest
  let n ← lineNumber? (rest.takeWhile Char.isDigit)
  let note ← Text.after? ":" (rest.dropWhile Char.isDigit)
  guard !program.isEmpty
  return (program, n, Text.trimStart note)

def loaded (program : Text) : Text := "Program '" ++ program ++ "' loaded"

def loaded? (line : Text) : Option Text := do
  let (program, rest) := splitQuoted (← Text.after? "Program '" line)
  let _ ← Text.after? "' loaded" rest
  guard !program.isEmpty
  return program

def binding (program name value : Text) : Text :=
  "(" ++ program ++ ") " ++ name ++ " = " ++ value

def binding? (line : Text) : Option (Text × Text × Text) := do
  let (front, value) := splitLastWord line
  let front ← Text.before? " = " front
  let (front, name) := splitLastWord front
  let front ← Text.before? ") " front
  let program ← Text.after? "(" front
  guard (isWord value && isWord name && isWord program)
  return (program, name, value)

def breakpoint (program : Text) (line : Nat) : Text :=
  "Program '" ++ program ++ "', line " ++ Text.decimal line ++ "."

def breakpoint? (line : Text) : Option (Text × Nat) := do
  let (program, rest) := splitQuoted (← Text.after? "Program '" line)
  let rest ← Text.after? "', line " rest
  let n ← lineNumber? (← Text.before? "." rest)
  guard !program.isEmpty
  return (program, n)

def editOpening (added : Bool) : Text :=
  if added then "Breakpoint set in program " else "Breakpoint removed from program "

def edit (added : Bool) (program : Text) (line : Nat) : Text :=
  editOpening added ++ program ++ " at line " ++ Text.decimal line ++ "."

def edit? (added : Bool) (line : Text) : Option (Text × Nat) := do
  let (program, rest) := splitFirstWord (← Text.after? (editOpening added) line)
  let rest ← Text.after? " at line " rest
  let n ← lineNumber? (← Text.before? "." rest)
  guard !program.isEmpty
  return (program, n)

end Prompter.Reply
