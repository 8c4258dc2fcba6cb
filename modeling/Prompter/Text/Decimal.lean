import Prompter.Text.Basic

namespace Prompter.Text

def decimal (n : Nat) : Text := Nat.toDigits 10 n

def signedDecimal : Int → Text
  | .ofNat n => decimal n
  | .negSucc n => '-' :: decimal (n + 1)

def digits? (t : Text) : Option Nat :=
  if !t.isEmpty && t.all Char.isDigit then some (Nat.ofDigitChars 10 t 0) else none

/-- Reads digits, after at most one plus sign, whose value stays below `bound`. -/
def number? (bound : Nat) (t : Text) : Option Nat :=
  (digits? (if t.head? = some '+' then t.tail else t)).filter (· < bound)

def lineNumber? (t : Text) : Option Nat := number? UInt32.size t

theorem digits?_decimal (n : Nat) : digits? (decimal n) = some n := by
  have hd : (decimal n).all Char.isDigit = true :=
    List.all_eq_true.2 fun c hc ↦ Nat.isDigit_of_mem_toDigits (by omega) (by omega) hc
  have he : (decimal n).isEmpty = false := by simp [decimal]
  simp [digits?, hd, he]
  exact Nat.ofDigitChars_toDigits (by omega) (by omega)

theorem number?_decimal {bound n : Nat} (h : n < bound) : number? bound (decimal n) = some n := by
  have hp : (decimal n).head? ≠ some '+' := by
    intro hp
    have := Nat.isDigit_of_mem_toDigits (n := n) (by omega) (by omega) (List.mem_of_mem_head? hp)
    simp at this
  simp [number?, hp, digits?_decimal, h]

end Prompter.Text
