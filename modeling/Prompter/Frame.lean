import Prompter.Text.Basic

namespace Prompter

/-- The lines of a turn that are not empty, and the text that arrived during it. Where several
turns end in one piece of output, the first of them has the text of the whole piece. -/
structure Frame where
  lines : List Text := []
  raw : Text := []
  deriving DecidableEq, Repr, Inhabited

namespace Frame

/-- Puts the command in front, as the line that the frame answers. -/
def echoed (f : Frame) (command : Text) : Frame :=
  ⟨command :: f.lines, command ++ '\n' :: f.raw⟩

def replyLines (f : Frame) : List Text := f.lines.tail

end Frame

end Prompter
