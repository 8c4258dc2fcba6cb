import Mathlib.Data.List.DropRight
import Prompter.Text.Basic

namespace Prompter.Text

def Blank (t : Text) : Prop := ∀ c ∈ t, isBlank c = true

instance (t : Text) : Decidable (Blank t) := List.decidableBAll _ t

variable {a b m t z : Text}

theorem blank_append : Blank (a ++ b) ↔ Blank a ∧ Blank b := List.forall_mem_append

theorem exists_trimStart (t : Text) : ∃ a, Blank a ∧ t = a ++ trimStart t :=
  ⟨t.takeWhile isBlank, fun _ hc ↦ List.mem_takeWhile_imp hc,
    List.takeWhile_append_dropWhile.symm⟩

theorem exists_trimEnd (t : Text) : ∃ b, Blank b ∧ t = trimEnd t ++ b := by
  obtain ⟨a, ha, ht⟩ := exists_trimStart t.reverse
  refine ⟨a.reverse, fun c hc ↦ ha c (List.mem_reverse.1 hc), ?_⟩
  rw [trimEnd, ← List.reverse_append]
  exact List.reverse_eq_iff.1 ht

theorem exists_trim (t : Text) : ∃ a b, Blank a ∧ Blank b ∧ t = a ++ (trim t ++ b) := by
  obtain ⟨a, ha, ht⟩ := exists_trimStart t
  obtain ⟨b, hb, hs⟩ := exists_trimEnd (trimStart t)
  exact ⟨a, b, ha, hb, ht.trans (congrArg (a ++ ·) hs)⟩

theorem trimStart_eq_nil (h : Blank t) : trimStart t = [] := List.dropWhile_eq_nil_iff.2 h

theorem trimStart_blank_append (h : Blank a) (t : Text) : trimStart (a ++ t) = trimStart t :=
  List.dropWhile_append_of_pos h

theorem trimStart_cons {c : Char} (h : isBlank c = false) (t : Text) :
    trimStart (c :: t) = c :: t := by
  simp [trimStart, h]

theorem isBlank_of_trimStart {c : Char} (h : trimStart (c :: t) = c :: t) : isBlank c = false :=
  Bool.eq_false_iff.2 (List.dropWhile_eq_self_iff.1 h (Nat.zero_lt_succ _))

theorem trimStart_trimStart (t : Text) : trimStart (trimStart t) = trimStart t :=
  List.dropWhile_idempotent isBlank t

theorem trimEnd_append_blank (h : Blank b) (t : Text) : trimEnd (t ++ b) = trimEnd t := by
  rw [trimEnd, List.reverse_append,
    List.dropWhile_append_of_pos fun c hc ↦ h c (List.mem_reverse.1 hc), trimEnd]

theorem trimEnd_of_suffix (h : z <:+ trimEnd t) : trimEnd z = z := by
  obtain ⟨y, hy⟩ := h
  have hlast : ∀ hne : trimEnd t ≠ [], ¬ isBlank ((trimEnd t).getLast hne) = true :=
    fun hne ↦ List.rdropWhile_last_not isBlank t hne
  rw [← hy] at hlast
  apply List.rdropWhile_eq_self_iff.2
  intro hz
  have hne : y ++ z ≠ [] := by simp [hz]
  have he := hlast hne
  rwa [List.getLast_append_of_ne_nil hne hz] at he

theorem trim_eq_nil (h : Blank t) : trim t = [] := by
  rw [trim, trimStart_eq_nil h]
  rfl

theorem trim_blank_append (h : Blank a) (t : Text) : trim (a ++ t) = trim t := by
  rw [trim, trimStart_blank_append h, trim]

theorem trim_append_blank (h : Blank b) (t : Text) : trim (t ++ b) = trim t := by
  rw [trim, trimStart, List.dropWhile_append]
  split
  next he =>
    have hb : b.dropWhile isBlank = [] := trimStart_eq_nil h
    rw [trim, trimStart, hb, List.isEmpty_iff.1 he]
  next => exact trimEnd_append_blank h _

theorem trim_trim (t : Text) : trim (trim t) = trim t := by
  obtain ⟨a, b, ha, hb, ht⟩ := exists_trim t
  rw [← trim_append_blank hb, ← trim_blank_append ha, ← ht]

theorem trimStart_trim (t : Text) : trimStart (trim t) = trim t := by
  have hsuffix : trimStart (trim t) <:+ trim t := List.dropWhile_suffix _
  obtain ⟨b, -, hb⟩ := exists_trimEnd (trimStart (trim t))
  have hb' : trimStart (trim t) = trim t ++ b := hb.trans (congrArg (· ++ b) (trim_trim t))
  have hle := congrArg List.length hb'
  rw [List.length_append] at hle
  exact hsuffix.eq_of_length (Nat.le_antisymm hsuffix.length_le (by omega))

theorem mem_of_mem_trim {c : Char} (h : c ∈ trim t) : c ∈ t := by
  obtain ⟨a, b, -, -, ht⟩ := exists_trim t
  rw [ht]
  exact List.mem_append_right a (List.mem_append_left b h)

theorem trimEnd_append (h : trimEnd m = m) (t : Text) : trimEnd (m ++ t) = m ++ trimEnd t := by
  unfold trimEnd at h ⊢
  rw [List.reverse_append, List.dropWhile_append]
  split
  next he => rw [List.isEmpty_iff.1 he, h, List.reverse_nil, List.append_nil]
  next => rw [List.reverse_append, List.reverse_reverse]

theorem trimEnd_append_right (h : trimEnd t ≠ []) (s : Text) :
    trimEnd (s ++ t) = s ++ trimEnd t := by
  have hne : t.reverse.dropWhile isBlank ≠ [] := fun he ↦ h (congrArg List.reverse he)
  rw [trimEnd, List.reverse_append, List.dropWhile_append, if_neg (by simpa using hne),
    List.reverse_append, List.reverse_reverse]
  rfl

theorem trim_trimEnd (t : Text) : trim (trimEnd t) = trim t := by
  obtain ⟨b, hb, ht⟩ := exists_trimEnd t
  conv_rhs => rw [ht, trim_append_blank hb]

theorem trimEnd_trim (t : Text) : trimEnd (trim t) = trim t := trimEnd_of_suffix List.suffix_rfl

def visible (t : Text) : Text := t.filter (!isBlank ·)

theorem visible_append (s t : Text) : visible (s ++ t) = visible s ++ visible t :=
  List.filter_append s t

theorem visible_of_blank (h : Blank t) : visible t = [] :=
  List.filter_eq_nil_iff.2 fun c hc ↦ by simp [h c hc]

theorem visible_trimStart (t : Text) : visible (trimStart t) = visible t := by
  obtain ⟨a, ha, ht⟩ := exists_trimStart t
  conv_rhs => rw [ht, visible_append, visible_of_blank ha, List.nil_append]

theorem visible_trim (t : Text) : visible (trim t) = visible t := by
  obtain ⟨a, b, ha, hb, ht⟩ := exists_trim t
  conv_rhs =>
    rw [ht, visible_append, visible_append, visible_of_blank ha, visible_of_blank hb,
      List.nil_append, List.append_nil]

/-- A text that trimming leaves alone wherever it begins a line. -/
structure Solid (m : Text) : Prop where
  starts : ∃ c, m.head? = some c ∧ isBlank c = false
  ends : trimEnd m = m
  noBreak : '\n' ∉ m

instance (m : Text) : Decidable (Solid m) :=
  decidable_of_iff ((m.head?.any (!isBlank ·)) = true ∧ trimEnd m = m ∧ '\n' ∉ m) <| by
    refine ⟨fun h ↦ ⟨?_, h.2.1, h.2.2⟩, fun h ↦ ⟨?_, h.ends, h.noBreak⟩⟩
    · simpa [Option.any_eq_true] using h.1
    · simpa [Option.any_eq_true] using h.starts

/-- A line that begins with `m` as a word of its own. -/
def Opens (m line : Text) : Prop := ∃ z, line = m ++ z ∧ ∀ c ∈ z.head?, isBlank c = true

namespace Solid

theorem ne_nil (hm : Solid m) : m ≠ [] := by
  rintro rfl
  obtain ⟨c, hc, -⟩ := hm.starts
  cases hc

theorem not_blank (hm : Solid m) (h : m <:+: t) : ¬ Blank t := by
  obtain ⟨c, hc, hb⟩ := hm.starts
  intro ht
  have hblank := ht c (h.subset (List.mem_of_head? hc))
  rw [hb] at hblank
  cases hblank

theorem trimStart_append (hm : Solid m) (ha : Blank a) (t : Text) :
    trimStart (a ++ (m ++ t)) = m ++ t := by
  obtain ⟨c, hc, hb⟩ := hm.starts
  obtain ⟨m, rfl⟩ := List.head?_eq_some_iff.1 hc
  rw [trimStart_blank_append ha]
  exact trimStart_cons hb _

theorem trim_append (hm : Solid m) (ha : Blank a) (t : Text) :
    trim (a ++ (m ++ t)) = m ++ trimEnd t := by
  rw [trim, hm.trimStart_append ha, trimEnd_append hm.ends]

theorem trim (hm : Solid m) : m.trim = m := by
  have h := hm.trim_append (a := []) (by simp [Blank]) []
  rw [List.append_nil, List.nil_append] at h
  exact h.trans (List.append_nil m)

theorem trimEnd_append (hm : Solid m) (t : Text) : trimEnd (t ++ m) = t ++ m := by
  rw [trimEnd_append_right (hm.ends.symm ▸ hm.ne_nil), hm.ends]

theorem eq_nil_of_blank (hm : Solid (t ++ b)) (hb : Blank b) : b = [] := by
  have h := hm.ends
  rw [trimEnd_append_blank hb] at h
  obtain ⟨c, -, hc⟩ := exists_trimEnd t
  rw [h, List.append_assoc, List.self_eq_append_right] at hc
  exact (List.append_eq_nil_iff.1 hc).1

end Solid

theorem opens_trimEnd (h : ∀ c ∈ t.head?, isBlank c = true) : Opens m (m ++ trimEnd t) := by
  obtain ⟨b, -, hb⟩ := exists_trimEnd t
  rw [hb] at h
  exact ⟨_, rfl, fun c hc ↦ h c (List.mem_head?_append_of_mem_head? hc)⟩

end Prompter.Text
