import Prompter.Text.Decimal

namespace Prompter

structure Diagnostic where
  code : Text
  message : Text
  position : Option Nat := none
  source : Option Text := none
  deriving DecidableEq, Repr

namespace Diagnostic

/-- The number of characters before byte offset `n` of `source`, or 0 where there is none. -/
def column (source : Text) (n : Nat) : Nat :=
  match source.uptoByte? n with
  | some before => before.length
  | none => 0

def text (d : Diagnostic) : Text :=
  let head := "[" ++ d.code ++ "] " ++ d.message
  match d.position, d.source with
  | none, _ => head
  | some n, none => head ++ " @pos=" ++ Text.decimal n
  | some n, some s =>
    head ++ " @pos=" ++ Text.decimal n ++ "\n" ++ s ++ "\n" ++
      List.replicate (column s n) ' ' ++ "^"

end Diagnostic

end Prompter
