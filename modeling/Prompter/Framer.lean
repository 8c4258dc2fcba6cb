import Prompter.Frame
import Prompter.Text.Lines

namespace Prompter

/-- Cuts output, however it is divided into pieces, into frames at the prompts. A prompt counts
where it begins a line and is not part of a longer word. -/
structure Framer where
  /-- The prompt without the blanks at its end. -/
  marker : Text
  /-- The complete lines of the current turn, newest first. -/
  held : List Text := []
  /-- The line that is still incomplete. -/
  fragment : Option Text := none
  /-- The text received since the last frame. -/
  raw : Text := []
  deriving DecidableEq, Repr

namespace Framer

def ofPrompt (prompt : Text) : Framer := { marker := prompt.trimEnd }

/-- A command is about to be sent: what stands on the current line becomes a line of its own. -/
def beginTurn (f : Framer) : Framer :=
  { f with held := f.fragment.toList ++ f.held, fragment := none }

/-- The rest of a line that begins with the marker, where the marker ends a word. -/
def afterMarker? (f : Framer) (line : Text) : Option Text :=
  match Text.after? f.marker line with
  | none => none
  | some [] => some []
  | some (c :: rest) => if Text.isBlank c then some (Text.trimStart rest) else none

def push (f : Framer) (line : Text) : Framer := { f with held := line :: f.held }

def hold (f : Framer) (line : Text) : Framer :=
  { f with fragment := if line.isEmpty then none else some line }

def flush (f : Framer) : Framer × Frame :=
  ({ f with held := [], raw := [] }, ⟨f.held.reverse.filter (!·.isEmpty), f.raw⟩)

def takeLine (f : Framer) (line : Text) : Framer × Option Frame :=
  let line := line.trim
  match f.afterMarker? line with
  | some rest => (f.flush.1.push rest, some f.flush.2)
  | none => (f.push line, none)

def takeFragment (f : Framer) (line : Text) : Framer × Option Frame :=
  let line := line.trimStart
  match f.afterMarker? line with
  | some rest => (f.flush.1.hold rest, some f.flush.2)
  | none => (f.hold line, none)

def takeLines (f : Framer) (lines : List Text) : Framer × List Frame :=
  lines.foldl (fun (f, frames) line ↦
    let (f, frame) := f.takeLine line
    (f, frames ++ frame.toList)) (f, [])

/-- Takes in one piece of output and gives the turns that it ends, oldest first. -/
def feed (f : Framer) (chunk : Text) : Framer × List Frame :=
  let pieces := Text.splitBreaks chunk
  let lines := (f.fragment.getD [] ++ pieces.headD []) :: pieces.tail
  let (g, frames) := takeLines { f with raw := f.raw ++ chunk, fragment := none } lines.dropLast
  let (g, frame) := g.takeFragment (lines.getLastD [])
  (g, frames ++ frame.toList)

def hasFragment (f : Framer) : Bool := f.fragment.isSome

inductive Input where
  | chunk (t : Text)
  | turn
  deriving DecidableEq, Repr

def take (f : Framer) : Input → Framer × List Frame
  | .chunk t => f.feed t
  | .turn => (f.beginTurn, [])

def run (f : Framer) : List Input → Framer × List Frame
  | [] => (f, [])
  | i :: rest =>
    let (f, frames) := f.take i
    let (f, more) := f.run rest
    (f, frames ++ more)

theorem run_append (f : Framer) (a b : List Input) :
    f.run (a ++ b) = (((f.run a).1.run b).1, (f.run a).2 ++ ((f.run a).1.run b).2) := by
  induction a generalizing f with
  | nil => simp [run]
  | cons i rest ih => simp [run, ih]

end Framer

end Prompter
