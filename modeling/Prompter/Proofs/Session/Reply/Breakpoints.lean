import Prompter.Proofs.Session.Reply.Listing

namespace Prompter

namespace Reply

variable {line : Text}

theorem exists_lists_iff : (∃ e : Text × Nat, Lists line e.1 e.2) ↔ (breakpoint? line).isSome := by
  simp only [← breakpoint?_eq_some_iff, Option.isSome_iff_exists]

instance (line : Text) : Decidable (∃ e : Text × Nat, Lists line e.1 e.2) :=
  decidable_of_iff' _ exists_lists_iff

end Reply

namespace Listing

open Reply

variable (command : Text) {es : List (Text × Nat)}

theorem linesIn_eq_nil_iff {program : Text} :
    linesIn es program = [] ↔ program ∉ es.map (·.1) := by
  rw [linesIn, List.map_eq_nil_iff, List.filter_eq_nil_iff, List.mem_map, not_exists]
  exact forall_congr' fun e ↦ by simp

def extend (command : Text) (l : Listing) (line : Text) : Except SessionError Listing := do
  let (program, n) ← fits command line (breakpoint? line)
  return insertListed l program n

theorem extend_of_lists {line program : Text} {n : Nat} (h : Lists line program n) (l : Listing) :
    l.extend command line = .ok (insertListed l program n) := by
  rw [extend, breakpoint?_eq_some_iff.2 h]
  rfl

theorem extend_of_not_lists {line : Text} (h : ¬∃ e : Text × Nat, Lists line e.1 e.2)
    (l : Listing) : l.extend command line = .error (.unexpectedReply command line) := by
  rw [exists_lists_iff, Option.not_isSome_iff_eq_none] at h
  rw [extend, h]
  rfl

theorem foldlM_extend {lines : List Text}
    (h : List.Forall₂ (fun line e ↦ Lists line e.1 e.2) lines es) :
    lines.foldlM (extend command) ∅ = .ok (gathered es) :=
  foldlM_forall₂ (f := extend command) (g := fun l (e : Text × Nat) ↦ insertListed l e.1 e.2)
    (fun l _ _ he ↦ extend_of_lists command he l) h ∅

theorem get?_gathered (h : (gathered es).All (· ≠ [])) (program : Text) :
    (gathered es).get? program =
      if program ∈ es.map (·.1) then some (linesIn es program).eraseDups else none := by
  rw [get?_eq h, lines_gathered]
  by_cases hp : linesIn es program = []
  · rw [if_neg (linesIn_eq_nil_iff.1 hp), hp]
    rfl
  · rw [if_neg fun hnil ↦ hp ?_, if_pos (not_not.1 (mt linesIn_eq_nil_iff.2 hp))]
    exact List.eq_nil_iff_forall_not_mem.2 fun n hn ↦
      List.eq_nil_iff_forall_not_mem.1 hnil n (List.mem_eraseDups.2 hn)

theorem exists_listed {lines : List Text}
    (h : ∀ line ∈ lines, ∃ e : Text × Nat, Lists line e.1 e.2) :
    ∃ es : List (Text × Nat), List.Forall₂ (fun line e ↦ Lists line e.1 e.2) lines es := by
  induction lines with
  | nil => exact ⟨[], .nil⟩
  | cons line lines ih =>
    obtain ⟨⟨e, he⟩, hlines⟩ := List.forall_mem_cons.1 h
    obtain ⟨es, hes⟩ := ih hlines
    exact ⟨e :: es, .cons he hes⟩

/-- A listing is read as a whole, each line of a program once and in the place where it first
stands, or refused for the first line that lists nothing. -/
theorem decodeBreakpoints_whole (command : Text) (frame : Frame) :
    (∀ es : List (Text × Nat),
      List.Forall₂ (fun line e ↦ Lists line e.1 e.2) frame.replyLines es →
      ∃ l, decodeBreakpoints command frame = .ok l ∧ ∀ program, l.get? program =
        if program ∈ es.map (·.1) then some (linesIn es program).eraseDups else none) ∧
    ∀ before line after, frame.replyLines = before ++ line :: after →
      (∀ l ∈ before, ∃ e : Text × Nat, Lists l e.1 e.2) →
      (¬∃ e : Text × Nat, Lists line e.1 e.2) →
      decodeBreakpoints command frame = .error (.unexpectedReply command line) := by
  have hfold : decodeBreakpoints command frame = frame.replyLines.foldlM (extend command) ∅ := rfl
  refine ⟨fun es hes ↦ ?_, fun before line after hlines hbefore hline ↦ ?_⟩
  · have hdecode := hfold.trans (foldlM_extend command hes)
    exact ⟨gathered es, hdecode, get?_gathered (decodeBreakpoints_all hdecode)⟩
  · obtain ⟨es, hes⟩ := exists_listed hbefore
    have hstop := extend_of_not_lists command hline (gathered es)
    rw [hfold, hlines, List.foldlM_append, foldlM_extend command hes]
    show (gathered es).extend command line >>= after.foldlM (extend command) = _
    rw [hstop]
    rfl

/-- Entries of two programs in turn, one of them twice, and a digit that is not one of ten. -/
theorem decodeBreakpoints_whole_mixed :
    let entries : List Text := ["Program 'count', line 7.", "Program 'add', line 1.",
      "Program 'count', line 2.", "Program 'count', line 07."]
    let wrong : Text := "Program 'count', line ٣."
    (∃ l, decodeBreakpoints ":break" ⟨":break" :: entries, []⟩ = .ok l ∧
      l.get? "count" = some [7, 2] ∧ l.get? "add" = some [1] ∧ l.get? "sub" = none) ∧
    decodeBreakpoints ":break" ⟨":break" :: (entries ++ [wrong, "?"]), []⟩ =
      .error (.unexpectedReply ":break" wrong) := by
  intro entries wrong
  have hlists : List.Forall₂ (fun line (e : Text × Nat) ↦ Lists line e.1 e.2) entries
      [("count", 7), ("add", 1), ("count", 2), ("count", 7)] :=
    .cons (breakpoint?_eq_some_iff.1 (by decide +kernel)) <|
      .cons (breakpoint?_eq_some_iff.1 (by decide +kernel)) <|
      .cons (breakpoint?_eq_some_iff.1 (by decide +kernel)) <|
      .cons (breakpoint?_eq_some_iff.1 (by decide +kernel)) .nil
  have hwrong : ¬∃ e : Text × Nat, Lists wrong e.1 e.2 := by decide +kernel
  obtain ⟨l, hl, hget⟩ := (decodeBreakpoints_whole ":break" ⟨":break" :: entries, []⟩).1 _ hlists
  refine ⟨⟨l, hl, hget "count", hget "add", hget "sub"⟩, ?_⟩
  exact (decodeBreakpoints_whole _ _).2 entries wrong ["?"] rfl (by decide +kernel) hwrong

end Listing

end Prompter
