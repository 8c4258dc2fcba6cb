import Mathlib.Data.List.DropRight
import Mathlib.Data.List.Forall2
import Mathlib.Data.Option.Basic
import Prompter.Session.Reply.Line

namespace Prompter

namespace Text

variable {s t r : Text}

theorem after?_eq_some_iff : after? s t = some r ↔ t = s ++ r := by
  constructor
  · intro h
    unfold after? at h
    split at h
    next hs =>
      obtain ⟨r', rfl⟩ := List.isPrefixOf_iff_prefix.1 hs
      simpa using h
    next => cases h
  · rintro rfl
    exact after?_append s r

theorem before?_eq_some_iff : before? s t = some r ↔ t = r ++ s := by
  constructor
  · intro h
    unfold before? at h
    split at h
    next hs =>
      obtain ⟨r', rfl⟩ := List.isSuffixOf_iff_suffix.1 hs
      simpa using h
    next => cases h
  · rintro rfl
    exact before?_append r s

end Text

namespace Reply

open Text

theorem isWord_iff {t : Text} : isWord t = true ↔ t ≠ [] ∧ ∀ c ∈ t, isBlank c = false := by
  cases t <;> simp [isWord]

theorem isWord_encode (t : Tree) : isWord t.encode := by
  have hblank : t.encode.all (!isBlank ·) = true := by
    have hopen : isBlank '<' = false := by decide
    have hdot : isBlank '.' = false := by decide
    have hclose : isBlank '>' = false := by decide
    induction t with
    | nil => decide
    | node l r hl hr => simp [Tree.encode, hl, hr, hopen, hdot, hclose]
  rw [isWord, hblank]
  cases t <;> rfl

theorem isWord_render (t : Tree) : isWord t.render := by
  rw [Tree.render_eq_encode]
  exact isWord_encode t

variable {c : Char} {w : Text}

/-- What follows `t` begins a word. -/
def EndsBlank (t : Text) : Prop := ∀ c ∈ t.getLast?, isBlank c = true

instance (t : Text) : Decidable (EndsBlank t) :=
  decidable_of_iff (t.getLast?.all isBlank = true) (Option.all_eq_true ..)

theorem endsBlank_append {s t : Text} (ht : t ≠ []) : EndsBlank (s ++ t) ↔ EndsBlank t := by
  rw [EndsBlank, EndsBlank, List.getLast?_append_of_ne_nil s ht]

theorem splitLastWord_eq_iff {s t : Text} :
    splitLastWord t = (s, w) ↔ t = s ++ w ∧ EndsBlank s ∧ ∀ x ∈ w, isBlank x = false := by
  constructor
  · intro h
    obtain ⟨rfl, rfl⟩ := Prod.mk.inj h
    refine ⟨?_, fun x hx ↦ ?_, fun x hx ↦ ?_⟩
    · rw [← List.reverse_append, List.takeWhile_append_dropWhile, List.reverse_reverse]
    · rw [List.getLast?_reverse] at hx
      have hnot := List.head?_dropWhile_not (!isBlank ·) t.reverse
      rw [hx] at hnot
      simpa using hnot
    · simpa using List.mem_takeWhile_imp (List.mem_reverse.1 hx)
  · rintro ⟨rfl, hs, hw⟩
    have hrev : ∀ x ∈ w.reverse, (!isBlank x) = true := fun x hx ↦ by
      rw [hw x (List.mem_reverse.1 hx)]
      rfl
    rw [splitLastWord, List.reverse_append, List.dropWhile_append_of_pos hrev,
      List.takeWhile_append_of_pos hrev]
    obtain rfl | ⟨s, c, rfl⟩ := s.eq_nil_or_concat
    · simp
    · simp [hs c (by simp)]

theorem splitLastWord_append (t : Text) {s : Text} (hs : s ≠ []) (hblank : EndsBlank s)
    (hw : isWord w) : splitLastWord (t ++ s ++ w) = (t ++ s, w) :=
  splitLastWord_eq_iff.2 ⟨rfl, (endsBlank_append hs).2 hblank, (isWord_iff.1 hw).2⟩

theorem splitFirstWord_append (t : Text) (hc : isBlank c = true) (hw : ∀ x ∈ w, isBlank x = false) :
    splitFirstWord (w ++ c :: t) = (w, c :: t) := by
  have hw' : ∀ x ∈ w, (!isBlank x) = true := fun x hx ↦ by
    rw [hw x hx]
    rfl
  rw [splitFirstWord, List.dropWhile_append_of_pos hw', List.takeWhile_append_of_pos hw']
  simp [hc]

theorem splitQuoted_append (t : Text) (hw : '\'' ∉ w) :
    splitQuoted (w ++ '\'' :: t) = (w, '\'' :: t) := by
  have hw' : ∀ x ∈ w, decide (x ≠ '\'') = true := fun x hx ↦ decide_eq_true fun h ↦ hw (h ▸ hx)
  rw [splitQuoted, List.dropWhile_append_of_pos hw', List.takeWhile_append_of_pos hw']
  simp

theorem splitQuoted_fst_append_snd (t : Text) : (splitQuoted t).1 ++ (splitQuoted t).2 = t :=
  List.takeWhile_append_dropWhile

theorem quote_not_mem_splitQuoted (t : Text) : '\'' ∉ (splitQuoted t).1 :=
  fun hmem ↦ by simpa using List.mem_takeWhile_imp hmem

/-- The digits write the line number `n`, with zeros in front or without. -/
structure Writes (digits : Text) (n : Nat) : Prop where
  ne_nil : digits ≠ []
  isDigit : ∀ c ∈ digits, c.isDigit
  value : Nat.ofDigitChars 10 digits 0 = n
  lt : n < UInt32.size

theorem lineNumber?_eq_some_iff {digits : Text} {n : Nat} :
    lineNumber? digits = some n ↔ Writes digits n := by
  unfold lineNumber? digits?
  constructor
  · intro h
    obtain ⟨h, hlt⟩ := Option.filter_eq_some_iff.1 h
    split at h
    next hd =>
      obtain rfl := Option.some.inj h
      simp only [Bool.and_eq_true, Bool.not_eq_true', List.isEmpty_eq_false_iff,
        List.all_eq_true] at hd
      exact ⟨hd.1, hd.2, rfl, of_decide_eq_true hlt⟩
    next => cases h
  · rintro ⟨hne, hdigit, rfl, hlt⟩
    have hall : digits.all Char.isDigit = true := List.all_eq_true.2 hdigit
    simp [hne, hall, hlt]

theorem lineNumber?_decimal {n : Nat} (h : n < UInt32.size) : lineNumber? (decimal n) = some n := by
  simp [lineNumber?, digits?_decimal, h]

theorem isBlank_of_mem_decimal {n : Nat} (h : c ∈ decimal n) : isBlank c = false := by
  have hdigit : c.isDigit = true := Nat.isDigit_of_mem_toDigits (by omega) (by omega) h
  have hblanks : blanks.all (!Char.isDigit ·) = true := by decide
  refine Bool.eq_false_iff.2 fun hblank ↦ ?_
  have hnot := List.all_eq_true.1 hblanks c (List.contains_iff_mem.1 hblank)
  rw [hdigit] at hnot
  cases hnot

theorem trimEnd_append_word (t : Text) (hw : isWord w) : trimEnd (t ++ w) = t ++ w := by
  obtain ⟨hne, hblank⟩ := isWord_iff.1 hw
  obtain rfl | ⟨w, c, rfl⟩ := w.eq_nil_or_concat
  · exact absurd rfl hne
  · have hc : isBlank c = false := hblank c (by simp)
    simp [trimEnd, hc]

theorem foldlM_forall₂ {α β γ ε : Type} {f : β → α → Except ε β} {g : β → γ → β}
    {R : α → γ → Prop} (hf : ∀ b a c, R a c → f b a = .ok (g b c)) {as : List α} {cs : List γ}
    (h : List.Forall₂ R as cs) (b : β) : as.foldlM f b = .ok (cs.foldl g b) := by
  induction h generalizing b with
  | nil => rfl
  | cons hac _ ih =>
    rw [List.foldlM_cons, hf b _ _ hac]
    exact ih (g b _)

theorem foldlM_map {α β γ ε : Type} {f : β → α → Except ε β} {g : β → γ → β} {spell : γ → α}
    {es : List γ} (h : ∀ b, ∀ e ∈ es, f b (spell e) = .ok (g b e)) (b : β) :
    (es.map spell).foldlM f b = .ok (es.foldl g b) := by
  have hspelled : List.Forall₂ (fun a e ↦ a = spell e ∧ e ∈ es) (es.map spell) es :=
    List.forall₂_map_left_iff.2 (List.forall₂_same.2 fun e he ↦ ⟨rfl, he⟩)
  refine foldlM_forall₂ (fun b a e he ↦ ?_) hspelled b
  rw [he.1, h b e he.2]

variable {program name value : Text}

theorem binding?_binding (hp : isWord program) (hn : isWord name) (hv : isWord value) :
    binding? (binding program name value) = some (program, name, value) := by
  have hvalue : splitLastWord (binding program name value) =
      ("(" ++ program ++ ") " ++ name ++ " = ", value) :=
    splitLastWord_append _ (by decide) (by decide) hv
  have hname : splitLastWord ("(" ++ program ++ ") " ++ name) = ("(" ++ program ++ ") ", name) :=
    splitLastWord_append _ (by decide) (by decide) hn
  unfold binding?
  rw [hvalue]
  dsimp only
  rw [before?_append]
  dsimp only [Option.bind_eq_bind, Option.bind_some]
  rw [hname]
  dsimp only
  rw [before?_append, Option.bind_some, after?_append, Option.bind_some, hp, hn, hv]
  rfl

theorem trim_binding (hv : isWord value) :
    trim (binding program name value) = binding program name value := by
  have hstart : trimStart (binding program name value) = binding program name value := by
    simp [binding, trimStart, show isBlank '(' = false by decide]
  rw [trim, hstart]
  exact trimEnd_append_word _ hv

def Lists (line program : Text) (n : Nat) : Prop :=
  ∃ digits, line = "Program '" ++ program ++ "', line " ++ digits ++ "." ∧ program ≠ [] ∧
    '\'' ∉ program ∧ Writes digits n

theorem breakpoint?_eq_some_iff {line : Text} {n : Nat} :
    breakpoint? line = some (program, n) ↔ Lists line program n := by
  constructor
  · intro h
    obtain ⟨quoted, hquoted, h⟩ := Option.bind_eq_some_iff.1 h
    dsimp only at h
    obtain ⟨rest, hrest, h⟩ := Option.bind_eq_some_iff.1 h
    obtain ⟨digits, hdigits, h⟩ := Option.bind_eq_some_iff.1 h
    obtain ⟨m, hm, h⟩ := Option.bind_eq_some_iff.1 h
    obtain ⟨_, hne, h⟩ := Option.bind_eq_some_iff.1 h
    obtain ⟨rfl, rfl⟩ := Prod.mk.inj (Option.some.inj h)
    refine ⟨digits, ?_, by simpa [Option.guard_eq_some'] using hne,
      quote_not_mem_splitQuoted quoted, lineNumber?_eq_some_iff.1 hm⟩
    have hquoted := after?_eq_some_iff.1 hquoted
    rw [← splitQuoted_fst_append_snd quoted, after?_eq_some_iff.1 hrest,
      before?_eq_some_iff.1 hdigits] at hquoted
    simpa only [List.append_assoc] using hquoted
  · rintro ⟨digits, rfl, hne, hquote, hdigits⟩
    have hline : ("', line " : Text) = '\'' :: ", line " := by decide
    have hsplit := splitQuoted_append (", line " ++ (digits ++ ".")) hquote
    rw [← List.cons_append, ← hline] at hsplit
    simp only [List.append_assoc]
    unfold breakpoint?
    rw [after?_append]
    dsimp only [Option.bind_eq_bind, Option.bind_some]
    rw [hsplit]
    dsimp only
    rw [after?_append, Option.bind_some, before?_append, Option.bind_some,
      lineNumber?_eq_some_iff.2 hdigits, Option.bind_some, List.isEmpty_eq_false_iff.2 hne]
    rfl

theorem breakpoint?_breakpoint {n : Nat} (hne : program ≠ []) (hq : '\'' ∉ program)
    (hn : n < UInt32.size) : breakpoint? (breakpoint program n) = some (program, n) :=
  breakpoint?_eq_some_iff.2
    ⟨decimal n, rfl, hne, hq, lineNumber?_eq_some_iff.1 (lineNumber?_decimal hn)⟩

theorem edit?_edit (added : Bool) {n : Nat} (hp : isWord program) (hn : n < UInt32.size) :
    edit? added (edit added program n) = some (program, n) := by
  obtain ⟨hne, hblank⟩ := isWord_iff.1 hp
  have hline : (" at line " : Text) = ' ' :: "at line " := by decide
  have hsplit := splitFirstWord_append ("at line " ++ (decimal n ++ "."))
    (show isBlank ' ' = true by decide) hblank
  rw [← List.cons_append, ← hline] at hsplit
  have hrest : edit added program n =
      editOpening added ++ (program ++ (" at line " ++ (decimal n ++ "."))) := by
    unfold edit
    simp only [List.append_assoc]
  rw [hrest]
  unfold edit?
  rw [after?_append]
  dsimp only [Option.bind_eq_bind, Option.bind_some]
  rw [hsplit]
  dsimp only
  rw [after?_append, Option.bind_some, before?_append, Option.bind_some, lineNumber?_decimal hn,
    Option.bind_some, List.isEmpty_eq_false_iff.2 hne]
  rfl

end Reply

end Prompter
