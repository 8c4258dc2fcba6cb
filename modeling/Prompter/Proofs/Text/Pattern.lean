import Prompter.Text.Lines

namespace Prompter.Text

/-- A class of characters, and how often one of them is to stand there. -/
inductive Step where
  | one (p : Char → Bool)
  | optional (p : Char → Bool)
  | many (p : Char → Bool)

/-- What may be left of a text when a step has been made at its beginning. A step that takes in
more is tried earlier. -/
def Step.rests : Step → Text → List Text
  | one p, c :: r => if p c then [r] else []
  | one _, [] => []
  | optional p, c :: r => if p c then [r, c :: r] else [c :: r]
  | many p, c :: r => if p c then (many p).rests r ++ [c :: r] else [c :: r]
  | _, [] => [[]]

abbrev Pattern := List Step

namespace Pattern

variable {p : Pattern} {t r : Text} {pieces lines : List Text}

/-- What may be left of a text when the pattern has been matched at its beginning. Where a step has
several ways, the later steps try all of theirs before it takes its next one. -/
def rests : Pattern → Text → List Text
  | [], t => [t]
  | s :: p, t => (s.rests t).flatMap (rests p)

def rest? (p : Pattern) (t : Text) : Option Text := (p.rests t).head?

/-- The pieces of a text between the matches: a match is looked for at one character after the
other, and from its end on when it has been found. -/
inductive Splits (p : Pattern) : Text → List Text → Prop
  | nil (h : p.rest? [] = none) : Splits p [] [[]]
  | cut {t r : Text} {pieces : List Text} (h : p.rest? t = some r) (hr : Splits p r pieces) :
    Splits p t ([] :: pieces)
  | cons {c : Char} {t x : Text} {pieces : List Text} (h : p.rest? (c :: t) = none)
    (ht : Splits p t (x :: pieces)) : Splits p (c :: t) ((c :: x) :: pieces)

theorem Splits.unique (h : p.Splits t pieces) (h' : p.Splits t lines) : lines = pieces := by
  induction h generalizing lines with
  | nil h =>
    cases h' with
    | nil => rfl
    | cut h' => cases h.symm.trans h'
  | cut h hr ih =>
    cases h' with
    | nil h' => cases h.symm.trans h'
    | cut h' hr' =>
      obtain rfl := Option.some.inj (h.symm.trans h')
      rw [ih hr']
    | cons h' => cases h.symm.trans h'
  | cons h ht ih =>
    cases h' with
    | cut h' => cases h.symm.trans h'
    | cons h' ht' =>
      obtain ⟨rfl, rfl⟩ := List.cons.inj (ih ht')
      rfl

/-- A scanner that ends a piece where the pattern matches, and elsewhere takes one more character
into it. -/
structure Scans (p : Pattern) (go : List Text → Text → Text → List Text) : Prop where
  nil (done : List Text) (line : Text) : go done line [] = (line.reverse :: done).reverse
  cut (done : List Text) (line : Text) {t r : Text} (h : p.rest? t = some r) :
    go done line t = go (line.reverse :: done) [] r
  cons (done : List Text) (line : Text) {c : Char} {t : Text} (h : p.rest? (c :: t) = none) :
    go done line (c :: t) = go done (c :: line) t
  shorter {t r : Text} (h : p.rest? t = some r) : r.length < t.length

namespace Scans

variable {go : List Text → Text → Text → List Text}

theorem exists_splits (hgo : p.Scans go) (t : Text) :
    ∃ x pieces, p.Splits t (x :: pieces) ∧
      ∀ done line, go done line t = done.reverse ++ (line.reverse ++ x) :: pieces := by
  induction hn : t.length using Nat.strongRecOn generalizing t with
  | ind n ih =>
    cases h : p.rest? t with
    | some r =>
      obtain ⟨x, pieces, hr, he⟩ := ih _ (hn ▸ hgo.shorter h) r rfl
      refine ⟨[], x :: pieces, .cut h hr, fun done line ↦ ?_⟩
      rw [hgo.cut done line h, he]
      simp
    | none =>
      cases t with
      | nil => exact ⟨[], [], .nil h, fun done line ↦ by simp [hgo.nil]⟩
      | cons c t =>
        obtain ⟨x, pieces, ht, he⟩ := ih _ (hn ▸ Nat.lt_succ_self _) t rfl
        refine ⟨c :: x, pieces, .cons h ht, fun done line ↦ ?_⟩
        rw [hgo.cons done line h, he]
        simp

theorem splits_iff (hgo : p.Scans go) : p.Splits t pieces ↔ pieces = go [] [] t := by
  obtain ⟨x, pieces', h, he⟩ := hgo.exists_splits t
  have hsplits : p.Splits t (go [] [] t) := by
    rw [he]
    exact h
  refine ⟨hsplits.unique, ?_⟩
  rintro rfl
  exact hsplits

theorem ne_nil (hgo : p.Scans go) (t : Text) : go [] [] t ≠ [] := by
  obtain ⟨x, pieces, -, he⟩ := hgo.exists_splits t
  rw [he]
  exact List.cons_ne_nil x pieces

theorem eq_of_match (hgo : p.Scans go) (h : p.rest? t = some r) :
    go [] [] t = [] :: go [] [] r :=
  (hgo.splits_iff.1 (.cut h (hgo.splits_iff.2 rfl))).symm

theorem eq_of_no_match (hgo : p.Scans go) {c : Char} {x : Text} (h : p.rest? (c :: t) = none)
    (ht : go [] [] t = x :: pieces) : go [] [] (c :: t) = (c :: x) :: pieces :=
  (hgo.splits_iff.1 (.cons h (hgo.splits_iff.2 ht.symm))).symm

end Scans

theorem rest?_nil (t : Text) : rest? [] t = some t := rfl

theorem rest?_one_cons (f : Char → Bool) (p : Pattern) (c : Char) (t : Text) :
    rest? (.one f :: p) (c :: t) = if f c then p.rest? t else none := by
  rw [rest?, rests, Step.rests]
  split <;> simp [rest?]

theorem rest?_one_eq_some {d : Char} :
    rest? (.one (· == d) :: p) t = some r ↔ ∃ s, t = d :: s ∧ p.rest? s = some r := by
  cases t with
  | nil => simp [rest?, rests, Step.rests]
  | cons c t => simp [rest?_one_cons, and_assoc]

theorem rest?_optional_nil (f : Char → Bool) (p : Pattern) :
    rest? (.optional f :: p) [] = p.rest? [] := by
  simp [rest?, rests, Step.rests]

theorem rest?_optional_cons (f : Char → Bool) (p : Pattern) (c : Char) (t : Text) :
    rest? (.optional f :: p) (c :: t) =
      if f c then (p.rest? t).or (p.rest? (c :: t)) else p.rest? (c :: t) := by
  rw [rest?, rests, Step.rests]
  split <;> simp [rest?]

theorem rest?_many (f : Char → Bool) (t : Text) : rest? [.many f] t = some (t.dropWhile f) := by
  have hlongest : ((Step.many f).rests t).head? = some (t.dropWhile f) := by
    induction t with
    | nil => rfl
    | cons c t ih =>
      rw [Step.rests, List.dropWhile_cons]
      split
      · rw [List.head?_append, ih, Option.some_or]
      · rfl
  have hnil : rests [] = fun t ↦ [t] := rfl
  rw [rest?, rests, hnil, List.flatMap_singleton', hlongest]

def lineFeed : Pattern := [.one (· == '\n')]

def lineBreak : Pattern := [.optional (· == '\r'), .one (· == '\n'), .many isBlank]

theorem rest?_lineFeed : lineFeed.rest? t = some r ↔ t = '\n' :: r := by
  simp [lineFeed, rest?_one_eq_some, rest?_nil]

theorem rest?_lineFeed_of_ne {c : Char} (h : c ≠ '\n') (t : Text) :
    lineFeed.rest? (c :: t) = none :=
  Option.eq_none_iff_forall_ne_some.2 fun _ he ↦ h (List.head_eq_of_cons_eq (rest?_lineFeed.1 he))

theorem rest?_lineBreak : lineBreak.rest? t = some r ↔
    ∃ s, (t = '\n' :: s ∨ t = '\r' :: '\n' :: s) ∧ trimStart s = r := by
  have hfeed (t : Text) : rest? [.one (· == '\n'), .many isBlank] t = some r ↔
      ∃ s, t = '\n' :: s ∧ trimStart s = r := by
    simp [rest?_one_eq_some, rest?_many, trimStart]
  cases t with
  | nil => simp [lineBreak, rest?_optional_nil, hfeed]
  | cons c t =>
    rw [lineBreak, rest?_optional_cons]
    split
    next hc =>
      obtain rfl := beq_iff_eq.1 hc
      simp [Option.or_eq_some_iff, hfeed]
    next hc =>
      have hne : c ≠ '\r' := fun he ↦ hc (beq_iff_eq.2 he)
      simp [hfeed, hne]

theorem scans_splitLines : lineFeed.Scans splitLines.go where
  nil done line := rfl
  cut done line t r h := by
    obtain rfl := rest?_lineFeed.1 h
    rfl
  cons done line c t h := by
    rw [splitLines.go]
    rintro rfl
    cases h.symm.trans (rest?_lineFeed.2 rfl)
  shorter h := by
    obtain rfl := rest?_lineFeed.1 h
    exact Nat.lt_succ_self _

theorem scans_splitBreaks : lineBreak.Scans splitBreaks.go where
  nil done line := by rw [splitBreaks.go]
  cut done line t r h := by
    obtain ⟨s, rfl | rfl, rfl⟩ := rest?_lineBreak.1 h <;> rw [splitBreaks.go]
  cons done line c t h := by
    rw [splitBreaks.go]
    · rintro r rfl rfl
      cases h.symm.trans (rest?_lineBreak.2 ⟨r, .inr rfl, rfl⟩)
    · rintro rfl
      cases h.symm.trans (rest?_lineBreak.2 ⟨t, .inl rfl, rfl⟩)
  shorter h := by
    obtain ⟨s, rfl | rfl, rfl⟩ := rest?_lineBreak.1 h <;>
      have hle := length_trimStart_le s <;> simp only [List.length_cons] <;> omega

theorem splits_lineFeed_iff : lineFeed.Splits t lines ↔ lines = splitLines t :=
  scans_splitLines.splits_iff

theorem splits_lineBreak_iff : lineBreak.Splits t pieces ↔ pieces = splitBreaks t :=
  scans_splitBreaks.splits_iff

end Pattern

end Prompter.Text
