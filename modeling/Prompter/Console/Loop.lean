import Prompter.Console.Command
import Prompter.Console.Printer
import Prompter.Session.Operation
import Prompter.Text.Utf8

namespace Prompter.Console

/-- What the console has written, and why it could not read on, if so. -/
structure Transcript where
  out : Text := []
  err : Text := []
  fault : Option Text := none
  deriving DecidableEq, Repr

namespace Transcript

instance : Append Transcript := ⟨fun s t ↦ ⟨s.out ++ t.out, s.err ++ t.err, s.fault <|> t.fault⟩⟩

theorem append_def (s t : Transcript) :
    s ++ t = ⟨s.out ++ t.out, s.err ++ t.err, s.fault <|> t.fault⟩ :=
  rfl

theorem empty_append (t : Transcript) : {} ++ t = t := by simp [append_def]

theorem append_assoc (s t u : Transcript) : s ++ t ++ u = s ++ (t ++ u) := by
  cases h : s.fault <;> simp [append_def, h]

/-- Writes the parts, of which the newest comes first, in front of what is later than all. -/
def gather (later : Transcript) : List Transcript → Transcript
  | [] => later
  | t :: older => gather (t ++ later) older

end Transcript

abbrev Input := Except Text Text

/-- The lines of the input without their ends, which are line feeds and carriage returns before
them. -/
def byteLines (bytes : Utf8.Bytes) : List Utf8.Bytes :=
  go [] [] bytes
where
  go (done : List Utf8.Bytes) (current : Utf8.Bytes) : Utf8.Bytes → List Utf8.Bytes
    | [] => (if current.isEmpty then done else current.reverse :: done).reverse
    | b :: rest =>
      if b = 0x0a then go ((withoutReturn current).reverse :: done) [] rest
      else go done (b :: current) rest
  withoutReturn (current : Utf8.Bytes) : Utf8.Bytes :=
    if current.head? = some 0x0d then current.tail else current

def input (line : Utf8.Bytes) : Input :=
  match Utf8.strict line with
  | .complete t => .ok t
  | .cut t _ => .error ("incomplete utf-8 byte sequence from index " ++ Text.decimal t.byteLength)
  | .fault t n => .error ("invalid utf-8 sequence of " ++ Text.decimal n ++ " bytes from index "
      ++ Text.decimal t.byteLength)

def inputs (bytes : Utf8.Bytes) : List Input := (byteLines bytes).map input

variable (echo : Echo) (format : Format)

def shown {α : Type} (x : Session.Operation α) (f : α → Message) : Dialogue Transcript :=
  x.run.bind fun
    | .ok a => .done { out := (f a).show format }
    | .error e => .done { err := failureText e.message }

def perform : Command → Dialogue Transcript
  | .help => (shown format (Session.help echo) .lines).bind fun t ↦ .done ({ out := helpText } ++ t)
  | .quit => .done {}
  | .load program input => shown format (Session.load echo program input) .state
  | .run => shown format (Session.run echo) .outcome
  | .step => shown format (Session.step echo) .outcome
  | .store => shown format (Session.store echo) .bindings
  | .breakpoints => shown format (Session.listBreakpoints echo) .listing
  | .addBreakpoint n program => shown format (Session.addBreakpoint echo n program) .state
  | .deleteBreakpoint n program => shown format (Session.deleteBreakpoint echo n program) .state
  | .state => shown format Session.Operation.look .state
  | .changeDirectory directory => shown format (Session.changeDirectory echo directory) .lines
  | .raw text => shown format (Session.execute text .silent) fun frame ↦ .lines frame.replyLines
  | .invalid text => .done { err := invalidText text }

open Transcript (gather)

/-- Performs the commands of the lines, after parts that have been written. Blank lines are no
commands. -/
def runFrom (written : List Transcript) : List Input → Dialogue Transcript
  | [] => .done (gather {} written)
  | .error fault :: _ => .done (gather { fault := some fault } written)
  | .ok line :: rest =>
    if (Text.trim line).isEmpty then runFrom written rest
    else
      match Command.parse line with
      | .quit => .done (gather {} written)
      | command => (perform echo format command).bind fun t ↦ runFrom (t :: written) rest

def run (lines : List Input) : Dialogue Transcript := runFrom echo format [] lines

theorem runFrom_eq (written : List Transcript) (lines : List Input) :
    runFrom echo format written lines =
      (run echo format lines).bind fun t ↦ .done (gather t written) := by
  induction lines generalizing written with
  | nil => rfl
  | cons line rest ih =>
    cases line with
    | error fault => rfl
    | ok line =>
      simp only [run, runFrom]
      split
      · exact ih written
      · split
        · rfl
        · rw [Dialogue.bind_assoc]
          congr 1
          funext t
          rw [ih, ih [t], Dialogue.bind_assoc]
          rfl

end Prompter.Console
