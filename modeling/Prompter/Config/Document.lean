import Prompter.Text.Basic

namespace Prompter.Document

inductive Value where
  | string (t : Text)
  | number (n : Nat)
  | boolean (b : Bool)
  | strings (ts : List Text)
  deriving DecidableEq, Repr

/-- Strings stand between marks. A string that spans lines has three marks at each end and may
end with up to two more that belong to it. -/
structure Quoting where
  mark : Char
  multiline : Bool
  escapes : Bool

/-- What the characters of a string that have been read call for: `marks` of them have just stood
in a row, an escape has begun, digits of a code point are owed, or blanks are skipped after the
backslash at the end of a line. -/
inductive Mode where
  | plain (marks : Nat)
  | escape
  | code (owed value : Nat)
  | gap (lineEnded : Bool)

def isControl (c : Char) : Bool := (c.toNat < 0x20 && c != '\t') || c.toNat == 0x7f

def hexDigit? (c : Char) : Option Nat :=
  if c.isDigit then some (c.toNat - '0'.toNat)
  else if 'a' ≤ c ∧ c ≤ 'f' then some (c.toNat - 'a'.toNat + 10)
  else if 'A' ≤ c ∧ c ≤ 'F' then some (c.toNat - 'A'.toNat + 10)
  else none

def codePoint? (n : Nat) : Option Char := if n.isValidChar then some (Char.ofNat n) else none

def escaped? : Char → Option Char
  | 'b' => some '\x08'
  | 't' => some '\t'
  | 'n' => some '\n'
  | 'f' => some '\x0c'
  | 'r' => some '\r'
  | '"' => some '"'
  | '\\' => some '\\'
  | _ => none

/-- Reads on in a string; `seen` holds its characters so far in reverse. Answers with the string
and what follows its end. -/
def readString (q : Quoting) (seen : Text) : Mode → Text → Option (Text × Text)
  | .plain n, [] => if q.multiline ∧ 3 ≤ n then some (closed n, []) else none
  | _, [] => none
  | .escape, c :: rest =>
    if c = 'u' then readString q seen (.code 4 0) rest
    else if c = 'U' then readString q seen (.code 8 0) rest
    else if q.multiline ∧ (c = ' ' ∨ c = '\t') then readString q seen (.gap false) rest
    else if q.multiline ∧ c = '\n' then readString q seen (.gap true) rest
    else if q.multiline ∧ c = '\r' ∧ rest.head? = some '\n' then
      readString q seen (.gap false) rest
    else
      match escaped? c with
      | some d => readString q (d :: seen) (.plain 0) rest
      | none => none
  | .code owed value, c :: rest =>
    match hexDigit? c with
    | none => none
    | some d =>
      if owed ≤ 1 then
        match codePoint? (16 * value + d) with
        | some e => readString q (e :: seen) (.plain 0) rest
        | none => none
      else readString q seen (.code (owed - 1) (16 * value + d)) rest
  | .gap ended, c :: rest =>
    if c = ' ' ∨ c = '\t' then readString q seen (.gap ended) rest
    else if c = '\n' then readString q seen (.gap true) rest
    else if c = '\r' ∧ rest.head? = some '\n' then readString q seen (.gap ended) rest
    else if !ended then none
    else if c = q.mark then readString q seen (.plain 1) rest
    else if c = '\\' then readString q seen .escape rest
    else if isControl c then none
    else readString q (c :: seen) (.plain 0) rest
  | .plain n, c :: rest =>
    if c = q.mark then
      if !q.multiline then some (seen.reverse, rest)
      else if n = 5 then none
      else readString q seen (.plain (n + 1)) rest
    else if 3 ≤ n then some (closed n, c :: rest)
    else
      let seen := List.replicate n q.mark ++ seen
      if q.escapes ∧ c = '\\' then readString q seen .escape rest
      else if q.multiline ∧ c = '\n' then readString q ('\n' :: seen) (.plain 0) rest
      else if q.multiline ∧ c = '\r' ∧ rest.head? = some '\n' then
        readString q seen (.plain 0) rest
      else if isControl c then none
      else readString q (c :: seen) (.plain 0) rest
where
  closed (n : Nat) : Text := (List.replicate (n - 3) q.mark ++ seen).reverse

theorem length_readString_le {q : Quoting} {seen : Text} {mode : Mode} {t s rest : Text}
    (h : readString q seen mode t = some (s, rest)) : rest.length ≤ t.length := by
  fun_induction readString q seen mode t <;> grind

/-- Opens a string at its first mark: three marks in a row open one that spans lines, and a line
feed right after them is dropped. -/
def openString (mark : Char) (escapes : Bool) (rest : Text) : Option (Bool × Text × Text) :=
  if [mark, mark].isPrefixOf rest then
    let body := rest.drop 2
    let body := if ['\r', '\n'].isPrefixOf body then body.drop 2
      else if ['\n'].isPrefixOf body then body.drop 1 else body
    (readString ⟨mark, true, escapes⟩ [] (.plain 0) body).map fun (s, r) ↦ (true, s, r)
  else (readString ⟨mark, false, escapes⟩ [] (.plain 0) rest).map fun (s, r) ↦ (false, s, r)

theorem length_openString_le {mark : Char} {escapes multiline : Bool} {rest s r : Text}
    (h : openString mark escapes rest = some (multiline, s, r)) : r.length ≤ rest.length := by
  unfold openString at h
  split at h
  · obtain ⟨⟨s', r'⟩, hr, he⟩ := Option.map_eq_some_iff.1 h
    have hle := length_readString_le hr
    cases he
    refine Nat.le_trans hle ?_
    split
    · simp only [List.drop_drop, List.length_drop]; omega
    · split <;> simp only [List.drop_drop, List.length_drop] <;> omega
  · obtain ⟨⟨s', r'⟩, hr, he⟩ := Option.map_eq_some_iff.1 h
    cases he
    exact length_readString_le hr

inductive Token where
  /-- A key, number or truth value, without quotes. -/
  | word (t : Text)
  | string (multiline : Bool) (t : Text)
  | equals
  | opening
  | closing
  | comma
  | lineEnd
  deriving DecidableEq, Repr

def isWordChar (c : Char) : Bool := c.isAlphanum || "_-+.:".toList.contains c

def tokens : Text → Option (List Token)
  | [] => some []
  | c :: rest =>
    if c = ' ' ∨ c = '\t' then tokens rest
    else if c = '\n' then (tokens rest).map (.lineEnd :: ·)
    else if c = '\r' then if rest.head? = some '\n' then tokens rest else none
    else if c = '#' then tokens (rest.dropWhile (!isControl ·))
    else if c = '=' then (tokens rest).map (.equals :: ·)
    else if c = '[' then (tokens rest).map (.opening :: ·)
    else if c = ']' then (tokens rest).map (.closing :: ·)
    else if c = ',' then (tokens rest).map (.comma :: ·)
    else if c = '"' ∨ c = '\'' then
      match _ : openString c (c = '"') rest with
      | none => none
      | some (multiline, s, r) => (tokens r).map (.string multiline s :: ·)
    else if isWordChar c then
      (tokens (rest.dropWhile isWordChar)).map (.word (c :: rest.takeWhile isWordChar) :: ·)
    else none
termination_by t => t.length
decreasing_by
  all_goals simp only [List.length_cons]
  all_goals try omega
  · have := (List.dropWhile_sublist (!isControl ·) (l := rest)).length_le
    omega
  · have := length_openString_le ‹_›
    omega
  · have := (List.dropWhile_sublist isWordChar (l := rest)).length_le
    omega

def digits? (digit? : Char → Option Nat) (radix : Nat) (t : Text) : Option Nat :=
  go none t
where
  /-- The value so far is absent where a digit must come next. -/
  go (value : Option Nat) : Text → Option Nat
    | [] => value
    | '_' :: d :: rest =>
      match value, digit? d with
      | some v, some n => go (some (radix * v + n)) rest
      | _, _ => none
    | d :: rest => (digit? d).bind fun n ↦ go (some (radix * value.getD 0 + n)) rest

def digitBelow? (radix : Nat) (c : Char) : Option Nat := (hexDigit? c).filter (· < radix)

/-- A decimal number has no zero in front; other radices are named and have no sign. -/
def number? (t : Text) : Option Nat :=
  match t with
  | '0' :: 'x' :: rest => digits? (digitBelow? 16) 16 rest
  | '0' :: 'o' :: rest => digits? (digitBelow? 8) 8 rest
  | '0' :: 'b' :: rest => digits? (digitBelow? 2) 2 rest
  | '+' :: rest => decimal? rest
  | '-' :: rest => (decimal? rest).filter (· = 0)
  | rest => decimal? rest
where
  decimal? (t : Text) : Option Nat :=
    if t.head? = some '0' ∧ t ≠ ['0'] then none else digits? (digitBelow? 10) 10 t

/-- Numbers are those that fit 64 bits with a sign and are not negative. -/
def Value.ofWord? (t : Text) : Option Value :=
  if t = "true" then some (.boolean true)
  else if t = "false" then some (.boolean false)
  else ((number? t).filter (· < 9223372036854775808)).map .number

def isKey (t : Text) : Bool := t.all fun c ↦ c.isAlphanum || c == '_' || c == '-'

/-- Where an entry stands. In an array, `strings` are its items in reverse, and an item or a comma
comes next. -/
inductive Place where
  | start
  | key (name : Text)
  | value (name : Text)
  | item (name : Text) (strings : List Text)
  | separator (name : Text) (strings : List Text)
  | finished

abbrev Entries := List (Text × Value)

def readEntries (seen : Entries) : Place → List Token → Option Entries
  | .start, [] => some seen.reverse
  | .finished, [] => some seen.reverse
  | _, [] => none
  | .start, token :: rest =>
    match token with
    | .lineEnd => readEntries seen .start rest
    | .word t => if isKey t then readEntries seen (.key t) rest else none
    | .string false t => readEntries seen (.key t) rest
    | _ => none
  | .key name, token :: rest =>
    if token = .equals then readEntries seen (.value name) rest else none
  | .value name, token :: rest =>
    match token with
    | .word t => (Value.ofWord? t).bind fun v ↦ readEntries ((name, v) :: seen) .finished rest
    | .string _ t => readEntries ((name, .string t) :: seen) .finished rest
    | .opening => readEntries seen (.item name []) rest
    | _ => none
  | .item name strings, token :: rest =>
    match token with
    | .lineEnd => readEntries seen (.item name strings) rest
    | .string _ t => readEntries seen (.separator name (t :: strings)) rest
    | .closing => readEntries ((name, .strings strings.reverse) :: seen) .finished rest
    | _ => none
  | .separator name strings, token :: rest =>
    match token with
    | .lineEnd => readEntries seen (.separator name strings) rest
    | .comma => readEntries seen (.item name strings) rest
    | .closing => readEntries ((name, .strings strings.reverse) :: seen) .finished rest
    | _ => none
  | .finished, token :: rest =>
    if token = .lineEnd then readEntries seen .start rest else none

def entries? (t : Text) : Option Entries :=
  (tokens (if t.head? = some '\ufeff' then t.tail else t)).bind (readEntries [] .start)

end Prompter.Document
