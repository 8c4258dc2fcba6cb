import Prompter.Text.Quoted
import Prompter.Text.Decimal

namespace Prompter

inductive Json where
  | null
  | bool (b : Bool)
  | number (n : Nat)
  | string (t : Text)
  | array (items : List Json)
  | object (members : List (Text × Json))

namespace Json

def escape (c : Char) : Text :=
  match c with
  | '"' => ['\\', '"']
  | '\\' => ['\\', '\\']
  | '\n' => ['\\', 'n']
  | '\r' => ['\\', 'r']
  | '\t' => ['\\', 't']
  | '\x08' => ['\\', 'b']
  | '\x0c' => ['\\', 'f']
  | c =>
    if c.toNat < 0x10 then ['\\', 'u', '0', '0', '0'] ++ Text.hexadecimal c.toNat
    else if c.toNat < 0x20 then ['\\', 'u', '0', '0'] ++ Text.hexadecimal c.toNat
    else [c]

def renderString (t : Text) : Text := '"' :: t.flatMap escape ++ ['"']

def separated : List Text → Text := List.flatten ∘ List.intersperse [',']

def render : Json → Text
  | null => "null"
  | bool true => "true"
  | bool false => "false"
  | number n => Text.decimal n
  | string t => renderString t
  | array items => '[' :: separated (items.map render) ++ [']']
  | object members =>
    '\x7b' :: separated (members.map fun m ↦ renderString m.1 ++ ':' :: m.2.render) ++ ['\x7d']
decreasing_by
  · have := List.sizeOf_lt_of_mem ‹_›
    simp only [array.sizeOf_spec]; omega
  · have := List.sizeOf_lt_of_mem ‹m ∈ members›
    obtain ⟨k, v⟩ := m
    simp only [object.sizeOf_spec, Prod.mk.sizeOf_spec] at this ⊢; omega

end Json

end Prompter
