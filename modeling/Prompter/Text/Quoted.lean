import Prompter.Text.Basic
import Prompter.Text.Printable

namespace Prompter.Text

def hexadecimal (n : Nat) : Text := Nat.toDigits 16 n

def escape (c : Char) : Text :=
  match c with
  | '"' => ['\\', '"']
  | '\\' => ['\\', '\\']
  | '\n' => ['\\', 'n']
  | '\r' => ['\\', 'r']
  | '\t' => ['\\', 't']
  | '\x00' => ['\\', '0']
  | c => if isPrintable c then [c] else ['\\', 'u', '\x7b'] ++ hexadecimal c.toNat ++ ['\x7d']

def quoted (t : Text) : Text := '"' :: t.flatMap escape ++ ['"']

end Prompter.Text
