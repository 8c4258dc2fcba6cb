import Prompter.Proofs.Session.Soundness

namespace Prompter

structure BreakpointEdit where
  program : Text
  line : Nat
  on : Bool
  deriving DecidableEq, Repr

def BreakpointEdit.place (e : BreakpointEdit) : Text × Nat := (e.program, e.line)

def lastEdit? (es : List BreakpointEdit) (place : Text × Nat) : Option BreakpointEdit :=
  es.reverse.find? (·.place = place)

namespace Breakpoints

variable {t t' : Breakpoints} {place : Text × Nat}

def Has (t : Breakpoints) (place : Text × Nat) : Prop :=
  ∃ lines, t.get? place.1 = some lines ∧ place.2 ∈ lines

def change (t : Breakpoints) (e : BreakpointEdit) : Breakpoints := t.edit e.on e.program e.line

theorem has_iff : t.Has place ↔ place.2 ∈ (t.get? place.1).getD ∅ := by
  unfold Has
  cases t.get? place.1 with
  | none => exact iff_of_false (fun ⟨_, h, _⟩ ↦ by cases h) (List.not_mem_nil (a := place.2))
  | some lines => simp

theorem not_has_empty : ¬Has ∅ place := fun ⟨_, h, _⟩ ↦ by cases h

theorem ext_has (h : t.All (· ≠ ∅)) (h' : t'.All (· ≠ ∅))
    (hhas : ∀ place, t.Has place ↔ t'.Has place) : t = t' := by
  refine Table.ext_get? fun program ↦ ?_
  have hlines : (t.get? program).getD ∅ = (t'.get? program).getD ∅ :=
    LineSet.ext_mem fun n ↦ by
      have hplace := hhas (program, n)
      rwa [has_iff, has_iff] at hplace
  cases hget : t.get? program with
  | none =>
    cases hget' : t'.get? program with
    | none => rfl
    | some lines' =>
      rw [hget, hget'] at hlines
      exact absurd hlines.symm (h' program lines' hget')
  | some lines =>
    cases hget' : t'.get? program with
    | none =>
      rw [hget, hget'] at hlines
      exact absurd hlines (h program lines hget)
    | some lines' =>
      rw [hget, hget'] at hlines
      exact congrArg some hlines

theorem getD_put (t : Breakpoints) (program q : Text) (lines : LineSet) :
    ((t.put program lines).get? q).getD ∅ =
      if q = program then lines else (t.get? q).getD ∅ := by
  unfold put
  split
  next hempty =>
    rw [Table.get?_erase]
    split
    · exact (LineSet.isEmpty_iff.1 hempty).symm
    · rfl
  next =>
    rw [Table.get?_insert]
    split <;> rfl

theorem has_change (t : Breakpoints) (e : BreakpointEdit) (place : Text × Nat) :
    (t.change e).Has place ↔ place = e.place ∧ e.on = true ∨ place ≠ e.place ∧ t.Has place := by
  obtain ⟨program, n, on⟩ := e
  obtain ⟨q, m⟩ := place
  rw [has_iff, has_iff, change, edit, getD_put]
  by_cases hq : q = program
  · subst hq
    cases on with
    | true =>
      by_cases hm : m = n
      · subst hm
        simp [BreakpointEdit.place, LineSet.mem_insert]
      · simp [BreakpointEdit.place, LineSet.mem_insert, hm]
    | false => simp [BreakpointEdit.place, LineSet.mem_erase, and_comm]
  · simp [BreakpointEdit.place, hq]

theorem all_change (h : t.All (· ≠ ∅)) (e : BreakpointEdit) : (t.change e).All (· ≠ ∅) :=
  all_put h e.program _

theorem change_comm (h : t.All (· ≠ ∅)) {e e' : BreakpointEdit} (hne : e.place ≠ e'.place) :
    (t.change e).change e' = (t.change e').change e := by
  apply ext_has (all_change (all_change h e) e') (all_change (all_change h e') e)
  intro place
  rw [has_change, has_change, has_change, has_change]
  by_cases he : place = e.place
  · simp [he, hne]
  · simp [he]

theorem change_change (h : t.All (· ≠ ∅)) (e : BreakpointEdit) :
    (t.change e).change e = t.change e := by
  apply ext_has (all_change (all_change h e) e) (all_change h e)
  intro place
  rw [has_change, has_change]
  by_cases he : place = e.place <;> simp [he]

theorem lastEdit?_concat (es : List BreakpointEdit) (e : BreakpointEdit) (place : Text × Nat) :
    lastEdit? (es ++ [e]) place = if e.place = place then some e else lastEdit? es place := by
  unfold lastEdit?
  rw [List.reverse_concat, List.find?_cons]
  by_cases he : e.place = place <;> simp [he]

theorem has_foldl_change (t : Breakpoints) (es : List BreakpointEdit) (place : Text × Nat) :
    (es.foldl change t).Has place ↔
      (lastEdit? es place).elim (t.Has place) fun e ↦ e.on = true := by
  induction es using List.reverseRecOn with
  | nil => rfl
  | append_singleton es e ih =>
    rw [List.foldl_append, List.foldl_cons, List.foldl_nil, has_change, ih, lastEdit?_concat]
    by_cases he : e.place = place
    · simp [he]
    · simp [he, Ne.symm he]

end Breakpoints

namespace Session.State

open Breakpoints (Has)

variable {s : State}

def edit (s : State) (e : BreakpointEdit) : State := s.withBreakpoint e.program e.line e.on

theorem edit_eq (s : State) (e : BreakpointEdit) :
    s.edit e = s.withBreakpoints (s.breakpoints.change e) :=
  s.withBreakpoint_eq e.program e.line e.on

theorem foldl_edit_eq (s : State) (es : List BreakpointEdit) :
    es.foldl edit s = s.withBreakpoints (es.foldl Breakpoints.change s.breakpoints) := by
  induction es generalizing s with
  | nil => rfl
  | cons e es ih =>
    rw [List.foldl_cons, ih, edit_eq]
    rfl

/-- What edits do to a snapshot. -/
structure EditLaws (s : State) : Prop where
  has : ∀ e place, (s.edit e).breakpoints.Has place ↔
    place = e.place ∧ e.on = true ∨ place ≠ e.place ∧ s.breakpoints.Has place
  /-- No program is left with an empty set of lines. -/
  tidy : ∀ e, (s.edit e).breakpoints.All (· ≠ ∅)
  others : ∀ e, s.edit e = { s with breakpoints := (s.edit e).breakpoints }
  comm : ∀ e e', e.place ≠ e'.place → (s.edit e).edit e' = (s.edit e').edit e
  again : ∀ e, (s.edit e).edit e = s.edit e
  last : s.breakpoints = ∅ → ∀ es place,
    (es.foldl edit s).breakpoints.Has place ↔ ∃ e ∈ lastEdit? es place, e.on = true

theorem editLaws_of_tidy (h : s.breakpoints.All (· ≠ ∅)) : EditLaws s := by
  constructor
  case has =>
    intro e place
    rw [edit_eq]
    exact s.breakpoints.has_change e place
  case tidy =>
    intro e
    rw [edit_eq]
    exact Breakpoints.all_change h e
  case others =>
    intro e
    rw [edit_eq]
    rfl
  case comm =>
    intro e e' hne
    simp only [edit_eq]
    exact congrArg s.withBreakpoints (Breakpoints.change_comm h hne)
  case again =>
    intro e
    simp only [edit_eq]
    exact congrArg s.withBreakpoints (Breakpoints.change_change h e)
  case last =>
    intro hempty es place
    rw [foldl_edit_eq]
    refine (Breakpoints.has_foldl_change s.breakpoints es place).trans ?_
    rw [hempty]
    cases lastEdit? es place with
    | none => simp [Breakpoints.not_has_empty]
    | some e => simp

/-- The last breakpoint of a program takes the program with it, and the other program stays. -/
theorem editLaws_of_tidy_two :
    let s := (({} : State).withBreakpoint "count" 7 true).withBreakpoint "add" 2 true
    s.breakpoints.All (· ≠ ∅) ∧ EditLaws s ∧
      (s.withBreakpoint "count" 7 false).breakpoints.get? "count" = none ∧
      (s.withBreakpoint "count" 7 false).breakpoints.Has ("add", 2) := by
  intro s
  have hs : s = (({} : State).edit ⟨"count", 7, true⟩).edit ⟨"add", 2, true⟩ := rfl
  have htidy : s.breakpoints.All (· ≠ ∅) := by
    rw [hs, edit_eq, edit_eq]
    exact Breakpoints.all_change (Breakpoints.all_change Table.all_empty _) _
  exact ⟨htidy, editLaws_of_tidy htidy, by decide, LineSet.ofList [2], by decide,
    LineSet.mem_ofList.2 (by decide)⟩

end Session.State

end Prompter
