import Prompter.Text.Basic

namespace Prompter.Utf8

abbrev Bytes := List UInt8

def encode (t : Text) : Bytes := t.flatMap String.utf8EncodeChar

/-- What the start of a sequence holds: a character, bytes that begin none, or a character of
which the end is missing. -/
inductive Piece where
  | char (c : Char)
  | invalid
  | incomplete
  deriving DecidableEq, Repr

/-- Reads the `owed` continuation bytes of a character, the next of which lies between `low` and
`high`; `seen` holds the bits before it. -/
def continueWith (seen : Nat) (low high : UInt8) : (owed : Nat) → Bytes → Piece × Bytes
  | 0, bytes => (.char (Char.ofNat seen), bytes)
  | _ + 1, [] => (.incomplete, [])
  | owed + 1, b :: rest =>
    if low ≤ b ∧ b ≤ high then continueWith (64 * seen + b.toNat % 64) 0x80 0xBF owed rest
    else (.invalid, b :: rest)

/-- Reads on after the lead byte `b`, which fixes the number of continuation bytes and the range
of the first. -/
def continueAfter (b : UInt8) (rest : Bytes) : Piece × Bytes :=
  if b < 0x80 then (.char (Char.ofNat b.toNat), rest)
  else if b < 0xC2 then (.invalid, rest)
  else if b < 0xE0 then continueWith (b.toNat % 32) 0x80 0xBF 1 rest
  else if b = 0xE0 then continueWith 0 0xA0 0xBF 2 rest
  else if b = 0xED then continueWith 13 0x80 0x9F 2 rest
  else if b < 0xF0 then continueWith (b.toNat % 16) 0x80 0xBF 2 rest
  else if b = 0xF0 then continueWith 0 0x90 0xBF 3 rest
  else if b < 0xF4 then continueWith (b.toNat % 8) 0x80 0xBF 3 rest
  else if b = 0xF4 then continueWith 4 0x80 0x8F 3 rest
  else (.invalid, rest)

theorem length_continueWith_le (seen : Nat) (low high : UInt8) (owed : Nat) (bytes : Bytes) :
    (continueWith seen low high owed bytes).2.length ≤ bytes.length := by
  fun_induction continueWith seen low high owed bytes with
  | case1 => simp
  | case2 => simp
  | case3 => simp only [List.length_cons]; omega
  | case4 => simp

theorem length_continueAfter_le (b : UInt8) (rest : Bytes) :
    (continueAfter b rest).2.length ≤ rest.length := by
  unfold continueAfter
  repeat' split
  all_goals first | exact Nat.le_refl _ | exact length_continueWith_le ..

def pieces : Bytes → List Piece
  | [] => []
  | b :: rest => (continueAfter b rest).1 :: pieces (continueAfter b rest).2
termination_by bytes => bytes.length
decreasing_by
  have := length_continueAfter_le b rest
  simp only [List.length_cons]; omega

def Piece.lossy : Piece → Char
  | .char c => c
  | .invalid => '\ufffd'
  | .incomplete => '\ufffd'

def lossy (bytes : Bytes) : Text := (pieces bytes).map Piece.lossy

/-- Where strict decoding stopped: the characters before, and what was found there. -/
inductive Scan where
  | complete (t : Text)
  | cut (t : Text) (rest : Bytes)
  | fault (t : Text) (length : Nat)

def strict (bytes : Bytes) : Scan :=
  go [] bytes
where
  go (seen : Text) : Bytes → Scan
    | [] => .complete seen.reverse
    | b :: rest =>
      match h : continueAfter b rest with
      | (.char c, rest') => go (c :: seen) rest'
      | (.incomplete, _) => .cut seen.reverse (b :: rest)
      | (.invalid, rest') => .fault seen.reverse (rest.length + 1 - rest'.length)
  termination_by bytes => bytes.length
  decreasing_by
    have := length_continueAfter_le b rest
    simp only [h] at this
    simp only [List.length_cons]; omega

/-- The bytes of a character of which the end has not been read yet. -/
structure Decoder where
  carry : Bytes := []
  deriving DecidableEq, Repr

/-- Decodes one more read. An invalid part settles the carried bytes as well: the read is then
decoded to its very end. -/
def Decoder.decode (d : Decoder) (bytes : Bytes) : Text × Decoder :=
  match strict (d.carry ++ bytes) with
  | .complete t => (t, ⟨[]⟩)
  | .cut t rest => (t, ⟨rest⟩)
  | .fault _ _ => (lossy (d.carry ++ bytes), ⟨[]⟩)

def Decoder.run (d : Decoder) : List Bytes → List Text × Decoder
  | [] => ([], d)
  | bytes :: rest =>
    let (t, d) := d.decode bytes
    let (ts, d) := d.run rest
    (t :: ts, d)

end Prompter.Utf8
