import Prompter.Proofs.Text.Pattern
import Prompter.Proofs.Text.Trim

namespace Prompter.Text

open Pattern

variable {t line r : Text}

theorem splitLines_ne_nil (t : Text) : splitLines t ≠ [] := scans_splitLines.ne_nil t

theorem splitLines_break (r : Text) : splitLines ('\n' :: r) = [] :: splitLines r :=
  scans_splitLines.eq_of_match (rest?_lineFeed.2 rfl)

theorem splitLines_cons {c : Char} {ls : List Text} (h : c ≠ '\n')
    (ht : splitLines t = line :: ls) :
    splitLines (c :: t) = (c :: line) :: ls :=
  scans_splitLines.eq_of_no_match (rest?_lineFeed_of_ne h t) ht

theorem splitLines_append (h : '\n' ∉ t) : splitLines (t ++ '\n' :: r) = t :: splitLines r := by
  induction t with
  | nil => exact splitLines_break r
  | cons c t ih =>
    rw [List.mem_cons, not_or] at h
    exact splitLines_cons (Ne.symm h.1) (ih h.2)

theorem splitLines_of_not_mem (h : '\n' ∉ t) : splitLines t = [t] := by
  induction t with
  | nil => rfl
  | cons c t ih =>
    rw [List.mem_cons, not_or] at h
    exact splitLines_cons (Ne.symm h.1) (ih h.2)

theorem splitLines_lines {lines : List Text} (h : ∀ l ∈ lines, '\n' ∉ l) (ht : '\n' ∉ t) :
    splitLines (lines.flatMap (· ++ ['\n']) ++ t) = lines ++ [t] := by
  induction lines with
  | nil => exact splitLines_of_not_mem ht
  | cons l lines ih =>
    rw [List.forall_mem_cons] at h
    rw [List.flatMap_cons, List.append_assoc, List.append_assoc, List.singleton_append,
      splitLines_append h.1, ih h.2]
    rfl

theorem splitLines_flatMap {lines : List Text} (h : ∀ l ∈ lines, '\n' ∉ l) :
    splitLines (lines.flatMap (· ++ ['\n'])) = lines ++ [[]] := by
  have hlines := splitLines_lines (t := []) h List.not_mem_nil
  rwa [List.append_nil] at hlines

theorem exists_lines (t : Text) : ∃ (lines : List Text) (last : Text),
    (∀ l ∈ lines, '\n' ∉ l) ∧ '\n' ∉ last ∧ t = lines.flatMap (· ++ ['\n']) ++ last := by
  induction t with
  | nil => exact ⟨[], [], by simp, by simp, rfl⟩
  | cons c t ih =>
    obtain ⟨lines, last, hlines, hlast, rfl⟩ := ih
    by_cases hc : c = '\n'
    · subst hc
      exact ⟨[] :: lines, last, by simpa using hlines, hlast, rfl⟩
    cases lines with
    | nil => exact ⟨[], c :: last, by simp, by simp [Ne.symm hc, hlast], rfl⟩
    | cons l lines =>
      rw [List.forall_mem_cons] at hlines
      refine ⟨(c :: l) :: lines, last, List.forall_mem_cons.2 ⟨?_, hlines.2⟩, hlast, rfl⟩
      simp [Ne.symm hc, hlines.1]

theorem eq_of_break {p p' r r' : Text} (hp : '\n' ∉ p) (hp' : '\n' ∉ p')
    (h : p ++ '\n' :: r = p' ++ '\n' :: r') : p = p' ∧ r = r' := by
  have hfirst (s z z' : Text) (hs : '\n' ∉ s) (hz : '\n' :: z = s ++ '\n' :: z') :
      s = [] ∧ z = z' := by
    cases s with
    | nil => exact ⟨rfl, List.tail_eq_of_cons_eq hz⟩
    | cons c s =>
      obtain rfl := List.head_eq_of_cons_eq hz
      exact absurd List.mem_cons_self hs
  obtain ⟨s, rfl, hs⟩ | ⟨s, rfl, hs⟩ := List.append_eq_append_iff.1 h
  · obtain ⟨rfl, rfl⟩ := hfirst s r r' (fun hm ↦ hp' (List.mem_append_right p hm)) hs
    exact ⟨(List.append_nil p).symm, rfl⟩
  · obtain ⟨rfl, rfl⟩ := hfirst s r' r (fun hm ↦ hp (List.mem_append_right p' hm)) hs
    exact ⟨List.append_nil p', rfl⟩

theorem splitBreaks_ne_nil (t : Text) : splitBreaks t ≠ [] := scans_splitBreaks.ne_nil t

/-- The first line ends at the first line feed, without a carriage return before it; the blanks
after the line feed belong to the break. -/
theorem splitBreaks_cases (t : Text) :
    ('\n' ∉ t ∧ splitBreaks t = [t]) ∨
      ∃ p br r, t = p ++ br ++ r ∧ '\n' ∉ p ∧ (br = ['\n'] ∨ br = ['\r', '\n']) ∧
        splitBreaks t = p :: splitBreaks (trimStart r) := by
  induction t with
  | nil => exact .inl ⟨List.not_mem_nil, scans_splitBreaks.nil [] []⟩
  | cons c t ih =>
    cases h : lineBreak.rest? (c :: t) with
    | some r =>
      have he : splitBreaks (c :: t) = [] :: splitBreaks r := scans_splitBreaks.eq_of_match h
      obtain ⟨s, ht | ht, rfl⟩ := rest?_lineBreak.1 h
      · exact .inr ⟨[], ['\n'], s, ht, List.not_mem_nil, .inl rfl, he⟩
      · exact .inr ⟨[], ['\r', '\n'], s, ht, List.not_mem_nil, .inr rfl, he⟩
    | none =>
      have hc : '\n' ≠ c := by
        rintro rfl
        cases h.symm.trans (rest?_lineBreak.2 ⟨t, .inl rfl, rfl⟩)
      obtain ⟨hn, he⟩ | ⟨p, br, r, rfl, hp, hbr, he⟩ := ih
      · exact .inl ⟨List.not_mem_cons_of_ne_of_not_mem hc hn, scans_splitBreaks.eq_of_no_match h he⟩
      · exact .inr ⟨c :: p, br, r, rfl, List.not_mem_cons_of_ne_of_not_mem hc hp, hbr,
          scans_splitBreaks.eq_of_no_match h he⟩

theorem exists_blank_of_break {br : Text} (h : br = ['\n'] ∨ br = ['\r', '\n']) :
    ∃ v, Blank v ∧ '\n' ∉ v ∧ br = v ++ ['\n'] := by
  rcases h with rfl | rfl
  · exact ⟨[], by simp [Blank], by simp, rfl⟩
  · exact ⟨['\r'], by simp [Blank, isBlank, blanks], by simp, rfl⟩

/-- A text is cut line by line. The blanks around a line feed are gone when the next line is cut. -/
theorem splitBreaks_induction {motive : Text → List Text → Prop}
    (last : ∀ t, '\n' ∉ t → motive t [t])
    (line : ∀ p v w t, '\n' ∉ p → Blank v → '\n' ∉ v → Blank w → motive t (splitBreaks t) →
      motive (p ++ v ++ '\n' :: (w ++ t)) (p :: splitBreaks t))
    (t : Text) : motive t (splitBreaks t) := by
  induction hn : t.length using Nat.strongRecOn generalizing t with
  | ind n ih =>
    obtain ⟨ht, he⟩ | ⟨p, br, r, rfl, hp, hbr, he⟩ := splitBreaks_cases t
    · rw [he]
      exact last t ht
    · obtain ⟨v, hv, hvn, rfl⟩ := exists_blank_of_break hbr
      obtain ⟨w, hw, hr⟩ := exists_trimStart r
      have hlt : (trimStart r).length < n := by
        have hle := length_trimStart_le r
        simp only [← hn, List.length_append, List.length_singleton]
        omega
      have htext : p ++ (v ++ ['\n']) ++ r = p ++ v ++ '\n' :: (w ++ trimStart r) := by
        rw [← hr]
        simp
      rw [he, htext]
      exact line p v w (trimStart r) hp hv hvn hw (ih _ hlt (trimStart r) rfl)

end Prompter.Text
