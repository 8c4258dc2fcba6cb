import Prompter.Text.Basic

namespace Prompter.Text

def splitLines (t : Text) : List Text :=
  go [] [] t
where
  go (done : List Text) (line : Text) : Text → List Text
    | [] => (line.reverse :: done).reverse
    | '\n' :: r => go (line.reverse :: done) [] r
    | c :: r => go done (c :: line) r

theorem length_trimStart_le (t : Text) : (trimStart t).length ≤ t.length :=
  (List.dropWhile_sublist _).length_le

/-- A line break takes in a carriage return before the line feed and all blanks after it. -/
def splitBreaks (t : Text) : List Text :=
  go [] [] t
where
  go (done : List Text) (line : Text) : Text → List Text
    | [] => (line.reverse :: done).reverse
    | '\r' :: '\n' :: r => go (line.reverse :: done) [] (trimStart r)
    | '\n' :: r => go (line.reverse :: done) [] (trimStart r)
    | c :: r => go done (c :: line) r
  termination_by t => t.length
  decreasing_by
    all_goals
      have := length_trimStart_le r
      simp only [List.length_cons]; omega

end Prompter.Text
