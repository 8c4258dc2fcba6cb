namespace Prompter

abbrev Text := List Char

instance : Coe String Text := ⟨String.toList⟩

namespace Text

/-- The characters with the property White_Space. -/
def blanks : List Char :=
  ['\x09', '\x0a', '\x0b', '\x0c', '\x0d', ' ', '\u0085', '\u00a0', '\u1680',
    '\u2000', '\u2001', '\u2002', '\u2003', '\u2004', '\u2005', '\u2006', '\u2007', '\u2008',
    '\u2009', '\u200a', '\u2028', '\u2029', '\u202f', '\u205f', '\u3000']

def isBlank (c : Char) : Bool := blanks.contains c

def trimStart (t : Text) : Text := t.dropWhile isBlank

def trimEnd (t : Text) : Text := (t.reverse.dropWhile isBlank).reverse

def trim (t : Text) : Text := trimEnd (trimStart t)

/-- The maximal runs of characters that are not blank, in order. -/
def words (t : Text) : List Text :=
  go [] [] t
where
  go (done : List Text) (word : Text) : Text → List Text
    | [] => (close done word).reverse
    | c :: r => if isBlank c then go (close done word) [] r else go done (c :: word) r
  close (done : List Text) (word : Text) : List Text :=
    if word.isEmpty then done else word.reverse :: done

def splitAtBlank (t : Text) : Option (Text × Text) :=
  match t.dropWhile (!isBlank ·) with
  | [] => none
  | _ :: rest => some (t.takeWhile (!isBlank ·), rest)

def after? (start t : Text) : Option Text :=
  if start.isPrefixOf t then some (t.drop start.length) else none

def before? (ending t : Text) : Option Text :=
  if ending.isSuffixOf t then some (t.take (t.length - ending.length)) else none

/-- Offsets into a text count the bytes of its UTF-8 form. -/
def byteLength (t : Text) : Nat := t.foldr (fun c n ↦ c.utf8Size + n) 0

/-- The part of `t` before byte offset `n`, if that is a character boundary within `t`. -/
def uptoByte? (t : Text) (n : Nat) : Option Text :=
  go [] n t
where
  go (seen : Text) : Nat → Text → Option Text
    | 0, _ => some seen.reverse
    | _ + 1, [] => none
    | n + 1, c :: r => if c.utf8Size ≤ n + 1 then go (c :: seen) (n + 1 - c.utf8Size) r else none

theorem after?_append (start t : Text) : after? start (start ++ t) = some t := by
  simp [after?]

theorem before?_append (t ending : Text) : before? ending (t ++ ending) = some t := by
  simp [before?]

theorem trimStart_append_of_all {s t : Text} (h : s.all isBlank = true) :
    trimStart (s ++ t) = trimStart t :=
  List.dropWhile_append_of_pos (by simpa using h)

end Text

end Prompter
