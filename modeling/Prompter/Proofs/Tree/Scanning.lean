import Prompter.Proofs.Tree.Spelling

namespace Prompter

open Text TokenKind

namespace Token

/-- The character at the cursor, if there is one. There is no answer off a character boundary. -/
def peek? (source : Text) (cursor : Nat) : Option (Option Char) :=
  (source.fromByte? cursor).map List.head?

theorem le_of_peek? {source : Text} {cursor : Nat} {c : Char}
    (h : peek? source cursor = some (some c)) : cursor + c.utf8Size ≤ source.byteLength := by
  obtain ⟨rest, hrest, hhead⟩ := Option.map_eq_some_iff.1 h
  obtain ⟨rest, rfl⟩ := List.head?_eq_some_iff.1 hhead
  rw [byteLength_of_fromByte? hrest, byteLength_cons]
  omega

theorem peek?_append (before rest : Text) :
    peek? (before ++ rest) before.byteLength = some rest.head? := by
  rw [peek?, fromByte?_append, Option.map_some]

def wordEnd? (source : Text) (cursor : Nat) : Option Nat :=
  match _h : peek? source cursor with
  | none => none
  | some none => some cursor
  | some (some c) =>
    if c.isAlphanum then wordEnd? source (cursor + c.utf8Size) else some cursor
termination_by source.byteLength - cursor
decreasing_by
  have hle := le_of_peek? _h
  have hc := c.utf8Size_pos
  omega

theorem le_of_wordEnd? {source : Text} {cursor stop : Nat}
    (h : wordEnd? source cursor = some stop) : cursor ≤ stop := by
  fun_induction wordEnd? source cursor with
  | case1 => cases h
  | case2 => exact Nat.le_of_eq (Option.some.inj h)
  | case3 cursor c _ _ ih => exact Nat.le_of_add_right_le (ih h)
  | case4 => exact Nat.le_of_eq (Option.some.inj h)

theorem lt_of_wordEnd? {source : Text} {cursor stop : Nat} {c : Char}
    (hp : peek? source cursor = some (some c)) (hc : c.isAlpha)
    (h : wordEnd? source cursor = some stop) : cursor < stop := by
  have hpos := c.utf8Size_pos
  rw [wordEnd?] at h
  split at h
  next hn => cases hp.symm.trans hn
  next hn => cases hp.symm.trans hn
  next c' hn =>
    obtain rfl : c = c' := by simpa using hp.symm.trans hn
    rw [if_pos (by simp [Char.isAlphanum, hc])] at h
    have := le_of_wordEnd? h
    omega

theorem wordEnd?_append (before rest : Text) :
    wordEnd? (before ++ rest) before.byteLength =
      some (before.byteLength + byteLength (rest.takeWhile Char.isAlphanum)) := by
  have hp := peek?_append before rest
  induction rest generalizing before with
  | nil =>
    rw [wordEnd?]
    split
    next hn => cases hp.symm.trans hn
    next => rfl
    next hn => cases hp.symm.trans hn
  | cons c rest ih =>
    rw [wordEnd?]
    split
    next hn => cases hp.symm.trans hn
    next hn => cases hp.symm.trans hn
    next c' hn =>
      obtain rfl : c = c' := by simpa using hp.symm.trans hn
      have hnext := ih (before ++ [c]) (peek?_append ..)
      split
      next hc =>
        simpa [hc, Nat.add_assoc] using hnext
      next hc => simp [hc]

/-- The scanner with a cursor, which answers nothing where a slice is off a character boundary. -/
def scanAt? (source : Text) (cursor : Nat) (seen : List Token) :
    Option (Except TreeError (List Token)) :=
  match _h : peek? source cursor with
  | none => none
  | some none => some (.ok seen.reverse)
  | some (some c) =>
    if c = '<' then scanAt? source (cursor + c.utf8Size) (⟨.opening, cursor⟩ :: seen)
    else if c = '>' then scanAt? source (cursor + c.utf8Size) (⟨.closing, cursor⟩ :: seen)
    else if c = '.' then scanAt? source (cursor + c.utf8Size) (⟨.dot, cursor⟩ :: seen)
    else if _hc : c.isAlpha then
      match _hw : wordEnd? source cursor with
      | none => none
      | some stop =>
        match source.slice? cursor stop with
        | none => none
        | some word =>
          if word = TokenKind.nil.spelling then scanAt? source stop (⟨.nil, cursor⟩ :: seen)
          else some (.error (.lexical (TreeError.unrecognized source word cursor)))
    else some (.error (.lexical (TreeError.unrecognized source [c] cursor)))
termination_by source.byteLength - cursor
decreasing_by
  all_goals
    have hle := le_of_peek? _h
    have hpos := c.utf8Size_pos
  · omega
  · omega
  · omega
  · have hlt := lt_of_wordEnd? _h _hc _hw
    omega

theorem scanAt?_of_peek? {source : Text} {cursor : Nat} {seen : List Token} {c : Char}
    (h : peek? source cursor = some (some c)) :
    scanAt? source cursor seen =
      if c = '<' then scanAt? source (cursor + c.utf8Size) (⟨.opening, cursor⟩ :: seen)
      else if c = '>' then scanAt? source (cursor + c.utf8Size) (⟨.closing, cursor⟩ :: seen)
      else if c = '.' then scanAt? source (cursor + c.utf8Size) (⟨.dot, cursor⟩ :: seen)
      else if c.isAlpha then
        (wordEnd? source cursor).bind fun stop ↦ (source.slice? cursor stop).bind fun word ↦
          if word = TokenKind.nil.spelling then scanAt? source stop (⟨.nil, cursor⟩ :: seen)
          else some (.error (.lexical (TreeError.unrecognized source word cursor)))
      else some (.error (.lexical (TreeError.unrecognized source [c] cursor))) := by
  rw [scanAt?]
  split
  next hn => cases h.symm.trans hn
  next hn => cases h.symm.trans hn
  next c' hn =>
    obtain rfl : c = c' := by simpa using h.symm.trans hn
    by_cases ha : c.isAlpha
    · rw [dif_pos ha, if_pos ha]
      cases hw : wordEnd? source cursor with
      | none => rfl
      | some stop =>
        cases hs : source.slice? cursor stop with
        | none => simp [hs]
        | some word => simp [hs]
    · rw [dif_neg ha, if_neg ha]

theorem wordEnd?_piece (before : Text) {c : Char} (h : c.isAlpha) (after : Text) :
    wordEnd? (before ++ c :: after) before.byteLength =
      some (before.byteLength + byteLength (piece c after)) := by
  rw [wordEnd?_append, piece, if_pos h]

theorem slice?_piece (before : Text) {c : Char} (h : c.isAlpha) (after : Text) :
    slice? (before ++ c :: after) before.byteLength
      (before.byteLength + byteLength (piece c after)) = some (piece c after) := by
  have hsplit : piece c after ++ (c :: after).dropWhile Char.isAlphanum = c :: after := by
    rw [piece, if_pos h, List.takeWhile_append_dropWhile]
  have hslice := slice?_append before (piece c after) ((c :: after).dropWhile Char.isAlphanum)
  rwa [hsplit] at hslice

theorem scanAt?_append (before rest : Text) (seen : List Token) :
    scanAt? (before ++ rest) before.byteLength seen =
      some (scanFrom (before ++ rest) before.byteLength seen rest) := by
  generalize hs : before ++ rest = source
  generalize hp : before.byteLength = position
  fun_induction scanFrom source position seen rest generalizing before with
  | case1 =>
    subst hs hp
    rw [scanAt?]
    split
    next hn => cases (peek?_append _ _).symm.trans hn
    next => rfl
    next hn => cases (peek?_append _ _).symm.trans hn
  | case2 position seen rest ih =>
    subst hs hp
    rw [scanAt?_of_peek? (peek?_append ..), if_pos rfl]
    exact ih (before ++ ['<']) (by simp) (by simp; rfl)
  | case3 position seen rest _ ih =>
    subst hs hp
    rw [scanAt?_of_peek? (peek?_append ..), if_neg (by decide), if_pos rfl]
    exact ih (before ++ ['>']) (by simp) (by simp; rfl)
  | case4 position seen rest _ _ ih =>
    subst hs hp
    rw [scanAt?_of_peek? (peek?_append ..), if_neg (by decide), if_neg (by decide), if_pos rfl]
    exact ih (before ++ ['.']) (by simp) (by simp; rfl)
  | case5 position seen c rest ho hc hd ha word hw ih =>
    subst hs hp
    have he : piece c rest = word := piece_of_isAlpha ha rest
    rw [scanAt?_of_peek? (peek?_append ..), if_neg ho, if_neg hc, if_neg hd, if_pos ha,
      wordEnd?_piece before ha, Option.bind_some, slice?_piece before ha, Option.bind_some, he,
      if_pos hw, hw, byteLength_spelling]
    rw [hw] at ih
    refine ih (before ++ nil.spelling) ?_ (by simp [byteLength_spelling])
    rw [← hw]
    simp [word]
  | case6 position seen c rest ho hc hd ha word hw =>
    subst hs hp
    have he : piece c rest = word := piece_of_isAlpha ha rest
    rw [scanAt?_of_peek? (peek?_append ..), if_neg ho, if_neg hc, if_neg hd, if_pos ha,
      wordEnd?_piece before ha, Option.bind_some, slice?_piece before ha, Option.bind_some, he,
      if_neg hw]
  | case7 position seen c rest ho hc hd ha =>
    subst hs hp
    rw [scanAt?_of_peek? (peek?_append ..), if_neg ho, if_neg hc, if_neg hd, if_neg ha]

theorem scan_eq_ok_iff_position {source : Text} {tokens : List Token} :
    scan source = .ok tokens ↔ source = spell (tokens.map kind) ∧ Separated (tokens.map kind) ∧
      ∀ a token b, tokens = a ++ token :: b →
        token.position = byteLength (spell (a.map kind)) := by
  have hplace : tokens = place 0 (tokens.map kind) ↔ ∀ a token b, tokens = a ++ token :: b →
      token.position = byteLength (spell (a.map kind)) := by
    simpa only [Nat.zero_add] using @eq_place_iff 0 tokens
  rw [scan_eq_ok_iff, ← hplace]
  constructor
  · rintro ⟨kinds, hs, hk, rfl⟩
    rw [map_kind_place]
    exact ⟨hs, hk, rfl⟩
  · rintro ⟨hs, hk, he⟩
    exact ⟨_, hs, hk, he⟩

/-- A source is cut into tokens if and only if it is made up of their spellings and no `nil` runs
into a letter or digit. Each token then stands behind the bytes before it. Otherwise the scanner
names the piece at which it stops, behind what can be cut into tokens. It never takes a slice off a
character boundary. -/
theorem scan_accounts (source : Text) :
    ((∃ tokens, scan source = .ok tokens) ↔ ∃ kinds, source = spell kinds ∧ Separated kinds) ∧
    (∀ tokens, scan source = .ok tokens ↔ source = spell (tokens.map kind) ∧
      Separated (tokens.map kind) ∧ ∀ a token b, tokens = a ++ token :: b →
        token.position = byteLength (spell (a.map kind))) ∧
    ((∃ tokens, scan source = .ok tokens) ∨ ∃ before c after word, source = before ++ c :: after ∧
      (∃ tokens, scan before = .ok tokens) ∧
      word = (if c.isAlpha then (c :: after).takeWhile Char.isAlphanum else [c]) ∧
      (∀ k : TokenKind, word ≠ k.spelling) ∧ source.uptoByte? before.byteLength = some before ∧
      scan source = .error (.lexical
        ⟨"LEX001", "unrecognized token " ++ word.quoted, some before.byteLength, some source⟩)) ∧
    scanAt? source 0 [] = some (scan source) := by
  refine ⟨⟨?_, ?_⟩, fun tokens ↦ scan_eq_ok_iff_position, ?_, scanAt?_append [] source []⟩
  · rintro ⟨tokens, h⟩
    obtain ⟨kinds, hs, hk, -⟩ := scan_eq_ok_iff.1 h
    exact ⟨kinds, hs, hk⟩
  · rintro ⟨kinds, hs, hk⟩
    exact ⟨_, scan_eq_ok_iff.2 ⟨kinds, hs, hk, rfl⟩⟩
  · have ho := scanFrom_outcome source 0 [] source
    rw [← scan] at ho
    generalize scan source = r at ho
    cases ho with
    | whole kinds hk hs => exact .inl ⟨_, rfl⟩
    | stuck kinds c after hk hs hp =>
      refine .inr ⟨spell kinds, c, after, piece c after, hs, ?_, rfl, hp, ?_, ?_⟩
      · exact ⟨_, scan_eq_ok_iff.2 ⟨kinds, rfl, hk, rfl⟩⟩
      · rw [hs, uptoByte?_append]
      · rw [Nat.zero_add]
        rfl

end Token

end Prompter
