import Prompter.Proofs.Text.Lines

namespace Prompter.Text

variable {a b : List Text} {t w x y : Text} {c : Char}

/-- What is written on the pieces: nothing on those that are blank. -/
def trimmed (pieces : List Text) : List Text := (pieces.map trim).filter (!·.isEmpty)

theorem trimmed_cons (x : Text) (a : List Text) :
    trimmed (x :: a) = [x.trim].filter (!·.isEmpty) ++ trimmed a := by
  rw [trimmed, List.map_cons, ← List.singleton_append, List.filter_append, trimmed]

theorem trimmed_blank_cons (h : Blank x) (a : List Text) : trimmed (x :: a) = trimmed a := by
  rw [trimmed_cons, trim_eq_nil h]
  rfl

theorem blank_iff_trimStart : Blank t ↔ trimStart t = [] :=
  ⟨trimStart_eq_nil, List.dropWhile_eq_nil_iff.1⟩

/-- Two ways to cut a text, of which the second may have blank pieces besides. -/
inductive SameLines : List Text → List Text → Prop
  | last {x y : Text} (h : trimStart x = trimStart y) : SameLines [x] [y]
  | line {x y : Text} {a b : List Text} (h : trim x = trim y) (hab : SameLines a b) :
    SameLines (x :: a) (y :: b)
  | blank {y : Text} {a b : List Text} (h : Blank y) (hab : SameLines a b) : SameLines a (y :: b)

namespace SameLines

theorem trimmed_eq (h : SameLines a b) : trimmed a = trimmed b := by
  induction h with
  | last h => rw [trimmed_cons, trimmed_cons, trim, h, trim]
  | line h hab ih => rw [trimmed_cons, trimmed_cons, h, ih]
  | blank h hab ih => rw [trimmed_blank_cons h, ih]

theorem exists_last (h : SameLines a b) :
    ∃ x y, a.getLast? = some x ∧ b.getLast? = some y ∧ trimStart x = trimStart y := by
  induction h with
  | last h => exact ⟨_, _, rfl, rfl, h⟩
  | line h hab ih =>
    obtain ⟨x, y, hx, hy, he⟩ := ih
    exact ⟨x, y, by rw [List.getLast?_cons, hx]; rfl, by rw [List.getLast?_cons, hy]; rfl, he⟩
  | blank h hab ih =>
    obtain ⟨x, y, hx, hy, he⟩ := ih
    exact ⟨x, y, hx, by rw [List.getLast?_cons, hy]; rfl, he⟩

/-- One more blank at the beginning of a line makes no difference. -/
theorem indent (h : SameLines a (y :: b)) (hc : isBlank c = true) :
    SameLines a ((c :: y) :: b) := by
  have hblank : Blank [c] := List.forall_mem_singleton.2 hc
  cases h with
  | last h => exact .last (h.trans (trimStart_blank_append hblank y).symm)
  | line h hab => exact .line (h.trans (trim_blank_append hblank y).symm) hab
  | blank h hab => exact .blank (blank_append.2 ⟨hblank, h⟩) hab

theorem blanks_before (h : SameLines a (splitLines t)) (hw : Blank w) :
    SameLines a (splitLines (w ++ t)) := by
  induction w with
  | nil => exact h
  | cons c w ih =>
    obtain ⟨hc, htail⟩ := List.forall_mem_cons.1 hw
    by_cases hn : c = '\n'
    · subst hn
      rw [List.cons_append, splitLines_break]
      exact .blank (List.forall_mem_nil _) (ih htail)
    · obtain ⟨y, ls, he⟩ := List.exists_cons_of_ne_nil (splitLines_ne_nil (w ++ t))
      rw [List.cons_append, splitLines_cons hn he]
      exact (he ▸ ih htail).indent hc

end SameLines

theorem sameLines_split (t : Text) : SameLines (splitBreaks t) (splitLines t) := by
  induction t using splitBreaks_induction with
  | last t ht =>
    rw [splitLines_of_not_mem ht]
    exact .last rfl
  | line p v w t hp hv hvn hw ih =>
    rw [splitLines_append (by simp [hp, hvn])]
    exact .line (trim_append_blank hv p).symm (ih.blanks_before hw)

/-- A cut at the line breaks, leftmost and greedy, tells the same lines apart as a cut at every line
feed. The last pieces, which have not ended yet, may differ in the blanks at their beginning. -/
theorem lineBreaks_agree (t : Text) :
    (∀ pieces, Pattern.lineBreak.Splits t pieces ↔ pieces = splitBreaks t) ∧
      (∀ lines, Pattern.lineFeed.Splits t lines ↔ lines = splitLines t) ∧
      trimmed (splitBreaks t) = trimmed (splitLines t) ∧
      ∃ x y, (splitBreaks t).getLast? = some x ∧ (splitLines t).getLast? = some y ∧
        (Blank x ↔ Blank y) ∧ trimStart x = trimStart y := by
  have hsame := sameLines_split t
  obtain ⟨x, y, hx, hy, hlast⟩ := hsame.exists_last
  refine ⟨fun pieces ↦ Pattern.splits_lineBreak_iff, fun lines ↦ Pattern.splits_lineFeed_iff,
    hsame.trimmed_eq, x, y, hx, hy, ?_, hlast⟩
  rw [blank_iff_trimStart, blank_iff_trimStart, hlast]

/-- A break takes in the carriage return, the empty line and the indentation. -/
example : splitBreaks "a \r\n\n  b \n " = ["a ".toList, "b ".toList, []] ∧
    splitLines "a \r\n\n  b \n " = ["a \r".toList, [], "  b ".toList, " ".toList] := by
  decide +kernel

end Prompter.Text
