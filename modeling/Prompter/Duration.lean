import Prompter.Text.Decimal

namespace Prompter

structure Duration where
  nanoseconds : Nat
  deriving DecidableEq, Repr

namespace Duration

def ofMilliseconds (n : Nat) : Duration := ⟨n * 1000000⟩

/-- The fraction `n / 10 ^ places` after its point, without trailing zeros. -/
def fraction (places n : Nat) : Text :=
  let ds := Text.decimal n
  let padded := List.replicate (places - ds.length) '0' ++ ds
  let kept := (padded.reverse.dropWhile (· = '0')).reverse
  if kept.isEmpty then [] else '.' :: kept

def amount (places n : Nat) (name : Text) : Text :=
  Text.decimal (n / Nat.pow 10 places) ++ fraction places (n % Nat.pow 10 places) ++ name

def text (d : Duration) : Text :=
  if 1000000000 ≤ d.nanoseconds then amount 9 d.nanoseconds "s"
  else if 1000000 ≤ d.nanoseconds then amount 6 d.nanoseconds "ms"
  else if 1000 ≤ d.nanoseconds then amount 3 d.nanoseconds "µs"
  else amount 0 d.nanoseconds "ns"

end Duration

end Prompter
