import Mathlib.Data.List.Chain
import Prompter.Proofs.Text.Offset
import Prompter.Tree.Token

namespace Prompter

namespace TokenKind

def spell (kinds : List TokenKind) : Text := kinds.flatMap spelling

theorem byteLength_spelling (k : TokenKind) : Text.byteLength k.spelling = k.spelling.length := by
  cases k <;> rfl

/-- Two keywords in a row would be taken for one word. -/
def Apart (k k' : TokenKind) : Prop := k = .nil → k' ≠ .nil

/-- A text that a word before it does not take in. -/
def Bounds (rest : Text) : Prop := ∀ c ∈ rest.head?, c.isAlphanum = false

theorem Bounds.span {rest : Text} (h : Bounds rest) :
    rest.takeWhile Char.isAlphanum = [] ∧ rest.dropWhile Char.isAlphanum = rest := by
  cases rest with
  | nil => exact ⟨rfl, rfl⟩
  | cons c rest =>
    have hc : c.isAlphanum = false := h c rfl
    simp [hc]

theorem Bounds.of_append {a b : Text} (h : Bounds (a ++ b)) : Bounds a := by
  cases a with
  | nil => simp [Bounds]
  | cons c a => exact h

theorem bounds_dropWhile (t : Text) : Bounds (t.dropWhile Char.isAlphanum) := by
  intro c hc
  have hhead := List.head?_dropWhile_not Char.isAlphanum t
  rwa [Option.mem_def.1 hc] at hhead

/-- No `nil` is directly followed by a letter or digit. -/
def Separated (kinds : List TokenKind) : Prop := ∀ a b, kinds = a ++ .nil :: b → Bounds (spell b)

theorem separated_cons {k : TokenKind} {kinds : List TokenKind} :
    Separated (k :: kinds) ↔ (k = .nil → Bounds (spell kinds)) ∧ Separated kinds := by
  constructor
  · refine fun h ↦ ⟨fun hk ↦ h [] kinds (hk ▸ rfl), fun a b he ↦ h (k :: a) b (he ▸ rfl)⟩
  · rintro ⟨hk, h⟩ a b he
    cases a with
    | nil =>
      obtain ⟨rfl, rfl⟩ := List.cons.inj he
      exact hk rfl
    | cons k' a => exact h a b (List.cons.inj he).2

theorem separated_of_isChain {kinds : List TokenKind} (h : kinds.IsChain Apart) :
    Separated kinds := by
  induction kinds with
  | nil => simp [Separated]
  | cons k kinds ih =>
    refine separated_cons.2 ⟨?_, ih h.tail⟩
    rintro rfl
    cases kinds with
    | nil => simp [Bounds, spell]
    | cons k kinds =>
      have hk : k ≠ .nil := (List.isChain_cons_cons.1 h).1 rfl
      cases k with
      | nil => exact absurd rfl hk
      | _ =>
        intro c hc
        cases hc
        decide

end TokenKind

namespace Token

open TokenKind

/-- Tokens of these kinds, each directly behind the one before it, from a byte offset on. -/
def place (position : Nat) : List TokenKind → List Token
  | [] => []
  | k :: kinds => ⟨k, position⟩ :: place (position + Text.byteLength k.spelling) kinds

theorem map_kind_place (position : Nat) (kinds : List TokenKind) :
    (place position kinds).map kind = kinds := by
  induction kinds generalizing position with
  | nil => rfl
  | cons k kinds ih => rw [place, List.map_cons, ih]

theorem eq_place_iff {position : Nat} {tokens : List Token} :
    tokens = place position (tokens.map kind) ↔ ∀ a token b, tokens = a ++ token :: b →
      token.position = position + Text.byteLength (spell (a.map kind)) := by
  have hspell (first : Token) (a : List Token) (position : Nat) :
      position + Text.byteLength (spell ((first :: a).map kind)) =
        position + Text.byteLength first.kind.spelling + Text.byteLength (spell (a.map kind)) := by
    rw [List.map_cons, spell, spell, List.flatMap_cons, Text.byteLength_append, Nat.add_assoc]
  induction tokens generalizing position with
  | nil => simp [place]
  | cons first tokens ih =>
    rw [List.map_cons, place, List.cons.injEq]
    constructor
    · rintro ⟨hfirst, htail⟩ a token b he
      cases a with
      | nil =>
        obtain ⟨rfl, -⟩ := List.cons.inj he
        exact congrArg Token.position hfirst
      | cons first' a =>
        obtain ⟨rfl, hrest⟩ := List.cons.inj he
        rw [hspell, ih.1 htail a token b hrest]
    · intro h
      refine ⟨?_, ih.2 fun a token b he ↦ ?_⟩
      · have hposition : first.position = position := h [] first tokens rfl
        rw [← hposition]
      · rw [h (first :: a) token b (he ▸ rfl), hspell]

def piece (c : Char) (after : Text) : Text :=
  if c.isAlpha then (c :: after).takeWhile Char.isAlphanum else [c]

theorem piece_of_isAlpha {c : Char} (h : c.isAlpha) (after : Text) :
    piece c after = c :: after.takeWhile Char.isAlphanum := by
  rw [piece, if_pos h, List.takeWhile_cons_of_pos (by simp [Char.isAlphanum, h])]

theorem head?_piece (c : Char) (after : Text) : (piece c after).head? = some c := by
  by_cases h : c.isAlpha
  · rw [piece_of_isAlpha h, List.head?_cons]
  · rw [piece, if_neg h, List.head?_cons]

theorem piece_ne_spelling {c : Char} {after : Text} (ho : c ≠ '<') (hc : c ≠ '>') (hd : c ≠ '.')
    (hn : piece c after ≠ TokenKind.nil.spelling) (k : TokenKind) :
    piece c after ≠ k.spelling := by
  intro h
  have hhead : some c = k.spelling.head? := by rw [← h, head?_piece]
  cases k with
  | opening => exact ho (Option.some.inj hhead)
  | closing => exact hc (Option.some.inj hhead)
  | dot => exact hd (Option.some.inj hhead)
  | nil => exact hn h

variable {source : Text} {position : Nat} {seen : List Token}

theorem scanFrom_spelling {k : TokenKind} {rest : Text} (h : k = .nil → Bounds rest) :
    scanFrom source position seen (k.spelling ++ rest) =
      scanFrom source (position + Text.byteLength k.spelling) (⟨k, position⟩ :: seen) rest := by
  rw [byteLength_spelling]
  cases k with
  | nil =>
    obtain ⟨htake, hdrop⟩ := (h rfl).span
    have halpha : Char.isAlpha 'n' = true := by decide
    have hi : Char.isAlphanum 'i' = true := by decide
    have hl : Char.isAlphanum 'l' = true := by decide
    simp [spelling, scanFrom, halpha, hi, hl, htake, hdrop]
  | _ => simp [spelling, scanFrom]

theorem scanFrom_spell (source : Text) (position : Nat) (seen : List Token)
    {kinds : List TokenKind} (h : Separated kinds) :
    scanFrom source position seen (spell kinds) = .ok (seen.reverse ++ place position kinds) := by
  induction kinds generalizing position seen with
  | nil => simp [spell, scanFrom, place]
  | cons k kinds ih =>
    obtain ⟨hk, h⟩ := separated_cons.1 h
    rw [spell, List.flatMap_cons, ← spell, scanFrom_spelling hk, ih _ _ h]
    simp [place]

/-- What the scanner makes of `rest`: the tokens that spell it, or the first piece that is none. -/
inductive Outcome (source : Text) (position : Nat) (seen : List Token) (rest : Text) :
    Except TreeError (List Token) → Prop
  | whole (kinds : List TokenKind) (hk : Separated kinds) (hr : rest = spell kinds) :
    Outcome source position seen rest (.ok (seen.reverse ++ place position kinds))
  | stuck (kinds : List TokenKind) (c : Char) (after : Text) (hk : Separated kinds)
      (hr : rest = spell kinds ++ c :: after) (hp : ∀ k : TokenKind, piece c after ≠ k.spelling) :
    Outcome source position seen rest (.error (.lexical (TreeError.unrecognized source
      (piece c after) (position + Text.byteLength (spell kinds)))))

theorem Outcome.cons {rest : Text} {r : Except TreeError (List Token)} (k : TokenKind)
    (hb : k = .nil → Bounds rest)
    (h : Outcome source (position + Text.byteLength k.spelling) (⟨k, position⟩ :: seen) rest r) :
    Outcome source position seen (k.spelling ++ rest) r := by
  cases h with
  | whole kinds hk hr =>
    subst hr
    have hw : Outcome source position seen (spell (k :: kinds))
        (.ok (seen.reverse ++ place position (k :: kinds))) :=
      .whole _ (separated_cons.2 ⟨hb, hk⟩) rfl
    simpa [spell, place] using hw
  | stuck kinds c after hk hr hp =>
    subst hr
    have hs : Outcome source position seen (spell (k :: kinds) ++ c :: after)
        (.error (.lexical (TreeError.unrecognized source (piece c after)
          (position + Text.byteLength (spell (k :: kinds)))))) :=
      .stuck _ c after (separated_cons.2 ⟨fun hnil ↦ (hb hnil).of_append, hk⟩) rfl hp
    simpa [spell, Nat.add_assoc] using hs

theorem Outcome.stop {c : Char} {after : Text} (hp : ∀ k : TokenKind, piece c after ≠ k.spelling) :
    Outcome source position seen (c :: after)
      (.error (.lexical (TreeError.unrecognized source (piece c after) position))) :=
  .stuck [] c after (by simp [Separated]) rfl hp

theorem scanFrom_outcome (source : Text) (position : Nat) (seen : List Token) (rest : Text) :
    Outcome source position seen rest (scanFrom source position seen rest) := by
  fun_induction scanFrom source position seen rest with
  | case1 position seen =>
    have hw : Outcome source position seen (spell []) (.ok (seen.reverse ++ place position [])) :=
      .whole [] (by simp [Separated]) rfl
    simpa [spell, place] using hw
  | case2 position seen rest ih => exact ih.cons .opening (by simp)
  | case3 position seen rest _ ih => exact ih.cons .closing (by simp)
  | case4 position seen rest _ _ ih => exact ih.cons .dot (by simp)
  | case5 position seen c rest _ _ _ hc word hw ih =>
    have hsplit : c :: rest = TokenKind.nil.spelling ++ rest.dropWhile Char.isAlphanum := by
      rw [← hw, List.cons_append, List.takeWhile_append_dropWhile]
    rw [hsplit, hw, ← byteLength_spelling]
    rw [hw, ← byteLength_spelling] at ih
    exact ih.cons .nil fun _ ↦ bounds_dropWhile rest
  | case6 position seen c rest ho hc hd ha word hw =>
    have he : piece c rest = word := piece_of_isAlpha ha rest
    rw [← he]
    exact .stop (piece_ne_spelling ho hc hd (he ▸ hw))
  | case7 position seen c rest ho hc hd ha =>
    have he : piece c rest = [c] := if_neg ha
    rw [← he]
    exact .stop (piece_ne_spelling ho hc hd (by simp [he, spelling]))

theorem scan_eq_ok_iff {tokens : List Token} :
    scan source = .ok tokens ↔
      ∃ kinds, source = spell kinds ∧ Separated kinds ∧ tokens = place 0 kinds := by
  constructor
  · intro h
    have ho := scanFrom_outcome source 0 [] source
    rw [← scan, h] at ho
    generalize hr : Except.ok tokens = r at ho
    cases ho with
    | whole kinds hk hs => exact ⟨kinds, hs, hk, Except.ok.inj hr⟩
    | stuck => cases hr
  · rintro ⟨kinds, rfl, hk, rfl⟩
    exact scanFrom_spell _ 0 [] hk

end Token

end Prompter
