import Mathlib.Data.List.Infix
import Prompter.Text.Basic

namespace Prompter.Text

variable {m x y x' y' a b w z : Text}

/-- No end of `m` is a start of it, so that it does not overlap with itself. -/
def Unbordered (m : Text) : Prop := ∀ k, 0 < k → k < m.length → ¬ m.drop k <+: m

theorem infix_append_cons {c : Char} (hc : c ∉ m) (hm : m ≠ []) (h : m <:+: a ++ c :: b) :
    m <:+: a ∨ m <:+: b := by
  obtain ⟨x, y, h⟩ := h
  rw [List.append_assoc, List.append_eq_append_iff] at h
  obtain ⟨s, rfl, hs⟩ | ⟨s, rfl, hs⟩ := h
  · -- the marker begins in `a`
    rw [List.append_eq_append_iff] at hs
    obtain ⟨r, rfl, -⟩ | ⟨r, rfl, hr⟩ := hs
    · exact .inl ⟨x, r, by simp⟩
    · cases r with
      | nil => exact .inl ⟨x, [], by simp⟩
      | cons d r =>
        rw [List.cons_append, List.cons.injEq] at hr
        exact absurd (by simp [hr.1]) hc
  · cases s with
    | nil =>
      cases m with
      | nil => exact absurd rfl hm
      | cons d m =>
        rw [List.nil_append, List.cons_append, List.cons.injEq] at hs
        exact absurd (by simp [hs.1]) hc
    | cons d s =>
      rw [List.cons_append, List.cons.injEq] at hs
      exact .inr ⟨s, y, by simp [hs.2]⟩

theorem le_of_occurrences (hm : Unbordered m) (h : x ++ (m ++ y) = x' ++ (m ++ y'))
    (hlt : x.length < x'.length) : x.length + m.length ≤ x'.length := by
  by_contra hover
  obtain ⟨s, rfl, hs⟩ | ⟨s, rfl, -⟩ := List.append_eq_append_iff.1 h
  · rw [List.length_append] at hlt hover
    obtain ⟨r, rfl, -⟩ | ⟨r, he, hr⟩ := List.append_eq_append_iff.1 hs
    · rw [List.length_append] at hover
      omega
    · refine hm s.length (by omega) (by omega) ?_
      rw [he, List.drop_left]
      have hm' : s ++ r <+: m ++ y' := he ▸ List.prefix_append m y'
      exact List.prefix_of_prefix_length_le (hr ▸ List.prefix_append r y) hm' (by simp)
  · rw [List.length_append] at hlt
    omega

def marked (m : Text) (pieces : List Text) : Text := pieces.flatMap (· ++ m)

theorem marked_append (m : Text) (ps qs : List Text) :
    marked m (ps ++ qs) = marked m ps ++ marked m qs := List.flatMap_append

theorem marked_cons (m p : Text) (ps : List Text) :
    marked m (p :: ps) = p ++ (m ++ marked m ps) := by
  simp [marked]

theorem exists_of_occurrence {ps : List Text} (hm : Unbordered m) (hp : ∀ p ∈ ps, ¬ m <:+: p)
    (hz : ¬ m <:+: z) (h : x ++ (m ++ y) = marked m ps ++ z) :
    ∃ qs p rs, ps = qs ++ p :: rs ∧ x = marked m qs ++ p ∧ y = marked m rs ++ z := by
  induction ps generalizing x with
  | nil => exact absurd ⟨x, y, by simpa [marked] using h⟩ hz
  | cons p ps ih =>
    rw [List.forall_mem_cons] at hp
    rw [marked_cons, List.append_assoc, List.append_assoc] at h
    rcases Nat.lt_trichotomy x.length p.length with hlt | heq | hlt
    · refine absurd ?_ hp.1
      have hle := le_of_occurrences hm h hlt
      have hx : x ++ m <+: x ++ (m ++ y) := ⟨y, by simp⟩
      have hpre : x ++ m <+: p :=
        List.prefix_of_prefix_length_le hx (h ▸ List.prefix_append p _) (by simpa using hle)
      exact (List.suffix_append x m).isInfix.trans hpre.isInfix
    · obtain ⟨rfl, hrest⟩ := List.append_inj h heq
      exact ⟨[], x, ps, rfl, rfl, List.append_cancel_left hrest⟩
    · have hle := le_of_occurrences hm h.symm hlt
      have hpm : p ++ m <+: x ++ (m ++ y) := h ▸ ⟨marked m ps ++ z, by simp⟩
      obtain ⟨x', rfl⟩ : p ++ m <+: x :=
        List.prefix_of_prefix_length_le hpm (List.prefix_append x _) (by simpa using hle)
      have hrest : x' ++ (m ++ y) = marked m ps ++ z := by simpa using h
      obtain ⟨qs, q, rs, rfl, rfl, hy⟩ := ih hp.2 hrest
      exact ⟨p :: qs, q, rs, rfl, by simp [marked_cons], hy⟩

/-- A text does not fall into more marked pieces than into pieces without the marker. -/
theorem length_le_of_marked {ps qs : List Text} (hm : Unbordered m) (hp : ∀ p ∈ ps, ¬ m <:+: p)
    (hz : ¬ m <:+: z) (h : marked m qs ++ w = marked m ps ++ z) :
    qs.length ≤ ps.length ∧ (qs.length = ps.length → qs = ps ∧ w = z) := by
  induction qs generalizing ps with
  | nil =>
    refine ⟨Nat.zero_le _, fun hl ↦ ?_⟩
    obtain rfl : ps = [] := List.eq_nil_of_length_eq_zero hl.symm
    exact ⟨rfl, h⟩
  | cons q qs ih =>
    rw [marked_cons, List.append_assoc, List.append_assoc] at h
    obtain ⟨ps', p, rs, rfl, rfl, hrest⟩ := exists_of_occurrence hm hp hz h
    obtain ⟨hle, heq⟩ := ih (fun p hr ↦ hp p (by simp [hr])) hrest
    simp only [List.length_cons, List.length_append]
    refine ⟨by omega, fun hl ↦ ?_⟩
    obtain rfl : ps' = [] := List.eq_nil_of_length_eq_zero (by omega)
    obtain ⟨rfl, rfl⟩ := heq (by simpa using hl)
    exact ⟨rfl, rfl⟩

end Prompter.Text
