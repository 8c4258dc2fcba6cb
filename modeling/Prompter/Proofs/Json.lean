import Prompter.Json
import Prompter.Config.Document

namespace Prompter.Json

open Prompter.Document (hexDigit?)

def unit? (digits : Text) : Option Nat :=
  if digits.length = 4 then (digits.mapM hexDigit?).map (·.foldl (fun n d ↦ 16 * n + d) 0) else none

/-- What may stand behind a backslash, with the character that is meant. -/
def escapes : List (Char × Char) :=
  [('"', '"'), ('\\', '\\'), ('/', '/'), ('b', '\x08'), ('f', '\x0c'), ('n', '\n'), ('r', '\r'),
    ('t', '\t')]

/-- The spellings of a character in a string. One that needs more than sixteen bits is spelled by
its number in two halves of ten bits. -/
inductive Spells : Text → Char → Prop
  | plain {c : Char} (h : 0x20 ≤ c.toNat) (hq : c ≠ '"') (hb : c ≠ '\\') : Spells [c] c
  | escape {e c : Char} (h : (e, c) ∈ escapes) : Spells ['\\', e] c
  | unit {u : Text} {c : Char} (h : unit? u = some c.toNat) : Spells ('\\' :: 'u' :: u) c
  | halves {u v : Text} {c : Char} {n m : Nat} (hu : unit? u = some (0xd800 + n))
    (hv : unit? v = some (0xdc00 + m)) (hm : m < 0x400) (hc : c.toNat = 0x10000 + 0x400 * n + m) :
    Spells ('\\' :: 'u' :: u ++ '\\' :: 'u' :: v) c

inductive SpellsAll : Text → Text → Prop
  | nil : SpellsAll [] []
  | cons {u us t : Text} {c : Char} (h : Spells u c) (hs : SpellsAll us t) :
    SpellsAll (u ++ us) (c :: t)

/-- A whole number in decimal digits, without a zero in front. -/
def Numeral (t : Text) (n : Nat) : Prop :=
  Text.digits? t = some n ∧ (t.head? = some '0' → t = ['0'])

/-- What may stand around a value, or between brackets without one. -/
def Gap (t : Text) : Prop := ∀ c ∈ t, c ∈ [' ', '\t', '\n', '\r']

inductive Listed {α : Type} (Says : Text → α → Prop) : Text → List α → Prop
  | one {t : Text} {a : α} (h : Says t a) : Listed Says t [a]
  | cons {t ts : Text} {a : α} {as : List α} (h : Says t a) (hs : Listed Says ts as) :
    Listed Says (t ++ ',' :: ts) (a :: as)

inductive Member (Says : Text → Json → Prop) : Text → Text × Json → Prop
  | intro {a b name t : Text} {k : Text} {j : Json} (ha : Gap a) (hk : SpellsAll name k)
    (hb : Gap b) (h : Says t j) :
    Member Says (a ++ '"' :: name ++ '"' :: b ++ ':' :: t) (k, j)

/-- The text is a document that says the value. -/
inductive Says : Text → Json → Prop
  | null : Says "null" .null
  | yes : Says "true" (.bool true)
  | no : Says "false" (.bool false)
  | number {t : Text} {n : Nat} (h : Numeral t n) : Says t (.number n)
  | string {u t : Text} (h : SpellsAll u t) : Says ('"' :: u ++ ['"']) (.string t)
  | emptyArray {g : Text} (h : Gap g) : Says ('[' :: g ++ [']']) (.array [])
  | array {t : Text} {items : List Json} (h : Listed Says t items) :
    Says ('[' :: t ++ [']']) (.array items)
  | emptyObject {g : Text} (h : Gap g) : Says ('\x7b' :: g ++ ['\x7d']) (.object [])
  | object {t : Text} {members : List (Text × Json)} (h : Listed (Member Says) t members) :
    Says ('\x7b' :: t ++ ['\x7d']) (.object members)
  | spaced {a t b : Text} {j : Json} (ha : Gap a) (h : Says t j) (hb : Gap b) : Says (a ++ t ++ b) j

theorem unit?_low : ∀ n < 0x10, unit? (['0', '0', '0'] ++ Text.hexadecimal n) = some n := by
  decide

theorem unit?_control :
    ∀ n < 0x20, ¬n < 0x10 → unit? (['0', '0'] ++ Text.hexadecimal n) = some n := by
  decide

theorem spells_escape (c : Char) : Spells (escape c) c := by
  fun_cases escape c with
  | case8 c _ _ _ _ _ _ _ h => exact .unit (unit?_low c.toNat h)
  | case9 c _ _ _ _ _ _ _ h h' => exact .unit (unit?_control c.toNat h' h)
  | case10 c hq hb _ _ _ _ _ _ h => exact .plain (Nat.le_of_not_lt h) hq hb
  | _ => exact .escape (by decide)

theorem spellsAll_escape (t : Text) : SpellsAll (t.flatMap escape) t := by
  induction t with
  | nil => exact .nil
  | cons c t ih => exact .cons (spells_escape c) ih

theorem head?_decimal_ne {n : Nat} (h : 0 < n) : (Text.decimal n).head? ≠ some '0' := by
  induction n using Nat.strongRecOn with
  | ind n ih =>
    by_cases hn : n < 10
    · have hdigit : ∀ d < 10, 0 < d → d.digitChar ≠ '0' := by decide
      rw [Text.decimal, Nat.toDigits_of_lt_base hn, List.head?_singleton]
      exact fun hz ↦ hdigit n hn h (Option.some.inj hz)
    · have hpos : 0 < n / 10 := Nat.div_pos (Nat.le_of_not_lt hn) (by decide)
      have hsplit : Text.decimal n = Text.decimal (n / 10) ++ Nat.toDigits 10 (n % 10) := by
        rw [Text.decimal, Text.decimal,
          Nat.toDigits_append_toDigits (by decide) hpos (Nat.mod_lt n (by decide)), Nat.div_add_mod]
      have hhead := ih (n / 10) (Nat.div_lt_self h (by decide)) hpos
      rw [hsplit]
      cases hd : Text.decimal (n / 10) with
      | nil => exact absurd hd Nat.toDigits_ne_nil
      | cons c t =>
        rw [hd] at hhead
        exact hhead

theorem numeral_decimal (n : Nat) : Numeral (Text.decimal n) n := by
  refine ⟨Text.digits?_decimal n, fun h ↦ ?_⟩
  obtain rfl | hn := Nat.eq_zero_or_pos n
  · rfl
  · exact absurd h (head?_decimal_ne hn)

theorem separated_singleton (t : Text) : separated [t] = t := List.append_nil t

theorem separated_cons (t u : Text) (ts : List Text) :
    separated (t :: u :: ts) = t ++ ',' :: separated (u :: ts) := rfl

theorem listed_separated {α : Type} {Says : Text → α → Prop} {f : α → Text} {as : List α}
    (h : ∀ a ∈ as, Says (f a) a) (hne : as ≠ []) : Listed Says (separated (as.map f)) as := by
  induction as with
  | nil => exact absurd rfl hne
  | cons a as ih =>
    rw [List.forall_mem_cons] at h
    cases as with
    | nil =>
      rw [List.map_singleton, separated_singleton]
      exact .one h.1
    | cons b as =>
      rw [List.map_cons, List.map_cons, separated_cons]
      exact .cons h.1 (ih h.2 (List.cons_ne_nil b as))

theorem says_render (j : Json) : Says j.render j := by
  have hgap : Gap [] := List.forall_mem_nil _
  induction j using render.induct with
  | case1 => exact render.eq_1 ▸ .null
  | case2 => exact render.eq_2 ▸ .yes
  | case3 => exact render.eq_3 ▸ .no
  | case4 n =>
    rw [render]
    exact .number (numeral_decimal n)
  | case5 t =>
    rw [render]
    exact .string (spellsAll_escape t)
  | case6 items ih =>
    rw [render]
    by_cases hne : items = []
    · subst hne
      exact .emptyArray hgap
    · exact .array (listed_separated ih hne)
  | case7 members ih =>
    rw [render]
    by_cases hne : members = []
    · subst hne
      exact .emptyObject hgap
    · refine .object (listed_separated (fun m hm ↦ ?_) hne)
      have hmember := Member.intro hgap (spellsAll_escape m.1) hgap (ih m hm)
      simpa [renderString] using hmember

def Visible (t : Text) : Prop := ∀ c ∈ t, 0x20 ≤ c.toNat

instance : DecidablePred Visible := fun t ↦ List.decidableBAll _ t

variable {c : Char} {s t : Text}

theorem visible_append : Visible (s ++ t) ↔ Visible s ∧ Visible t := List.forall_mem_append

theorem visible_cons : Visible (c :: t) ↔ 0x20 ≤ c.toNat ∧ Visible t := List.forall_mem_cons

theorem lineFeed_not_mem (h : Visible t) : '\n' ∉ t := fun hmem ↦ absurd (h _ hmem) (by decide)

theorem visible_hexadecimal : ∀ n < 0x20, Visible (Text.hexadecimal n) := by decide

theorem visible_escape (c : Char) : Visible (escape c) := by
  fun_cases escape c with
  | case8 c _ _ _ _ _ _ _ h =>
    exact visible_append.2 ⟨by decide, visible_hexadecimal c.toNat (Nat.lt_trans h (by decide))⟩
  | case9 c _ _ _ _ _ _ _ _ h =>
    exact visible_append.2 ⟨by decide, visible_hexadecimal c.toNat h⟩
  | case10 c _ _ _ _ _ _ _ _ h => exact List.forall_mem_singleton.2 (Nat.le_of_not_lt h)
  | _ => decide

theorem visible_decimal (n : Nat) : Visible (Text.decimal n) := by
  intro c hc
  have hdigit : c.isDigit = true := Nat.isDigit_of_mem_toDigits (by decide) (by decide) hc
  rw [Char.isDigit, Bool.and_eq_true, decide_eq_true_eq, ge_iff_le,
    UInt32.le_iff_toNat_le] at hdigit
  exact Nat.le_trans (by decide) hdigit.1

theorem visible_renderString (t : Text) : Visible (renderString t) := by
  refine visible_append.2 ⟨visible_cons.2 ⟨by decide, fun c hc ↦ ?_⟩, by decide⟩
  obtain ⟨d, -, hd⟩ := List.mem_flatMap.1 hc
  exact visible_escape d c hd

theorem visible_separated {ts : List Text} (h : ∀ t ∈ ts, Visible t) : Visible (separated ts) := by
  induction ts with
  | nil => exact List.forall_mem_nil _
  | cons t ts ih =>
    rw [List.forall_mem_cons] at h
    cases ts with
    | nil =>
      rw [separated_singleton]
      exact h.1
    | cons u ts =>
      rw [separated_cons, visible_append, visible_cons]
      exact ⟨h.1, by decide, ih h.2⟩

theorem visible_render (j : Json) : Visible j.render := by
  induction j using render.induct with
  | case1 | case2 | case3 =>
    rw [render]
    decide
  | case4 n =>
    rw [render]
    exact visible_decimal n
  | case5 t =>
    rw [render]
    exact visible_renderString t
  | case6 items ih =>
    rw [render]
    have hitems := visible_separated (List.forall_mem_map.2 ih)
    exact visible_append.2 ⟨visible_cons.2 ⟨by decide, hitems⟩, by decide⟩
  | case7 members ih =>
    rw [render]
    have hmembers : Visible
        (separated (members.map fun m ↦ renderString m.1 ++ ':' :: m.2.render)) :=
      visible_separated <| List.forall_mem_map.2 fun m hm ↦
        visible_append.2 ⟨visible_renderString m.1, visible_cons.2 ⟨by decide, ih m hm⟩⟩
    exact visible_append.2 ⟨visible_cons.2 ⟨by decide, hmembers⟩, by decide⟩

end Prompter.Json
