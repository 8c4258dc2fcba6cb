import Prompter.Proofs.Session.Reply.Line
import Prompter.Proofs.Text.Offset

namespace Prompter.Tree

/-- One turn of the loop, from what has been written, in reverse, and the stack. -/
def turn : Text × List Unwritten → Option (Text × List Unwritten)
  | (_, []) => none
  | (written, .mark c :: rest) => some (c :: written, rest)
  | (written, .tree nil :: rest) => some ('l' :: 'i' :: 'n' :: written, rest)
  | (written, .tree (node l r) :: rest) =>
    some ('<' :: written, .tree l :: .mark '.' :: .tree r :: .mark '>' :: rest)

/-- After exactly `n` turns the stack is empty, and `text` has been written. -/
inductive Writes : Nat → Text × List Unwritten → Text → Prop
  | ended (written : Text) : Writes 0 (written, []) written.reverse
  | turn {n : Nat} {s s' : Text × List Unwritten} {text : Text} (h : turn s = some s')
    (hs : Writes n s' text) : Writes (n + 1) s text

def totalWeight (stack : List Unwritten) : Nat := stack.foldr (fun u n ↦ u.weight + n) 0

def promised (s : Text × List Unwritten) : Text := s.1.reverse ++ s.2.flatMap Unwritten.encode

variable {s s' : Text × List Unwritten}

theorem exists_turn (written : Text) (u : Unwritten) (rest : List Unwritten) :
    ∃ s', turn (written, u :: rest) = some s' := by
  cases u with
  | mark c => exact ⟨_, rfl⟩
  | tree t => cases t <;> exact ⟨_, rfl⟩

theorem turn_lowers (h : turn s = some s') :
    promised s' = promised s ∧ totalWeight s'.2 + 1 = totalWeight s.2 := by
  fun_cases turn s with
  | case1 written => cases h
  | case2 written c rest =>
    cases h
    refine ⟨?_, ?_⟩
    · simp [promised, Unwritten.encode]
    · simp only [totalWeight, List.foldr_cons, Unwritten.weight]
      omega
  | case3 written rest =>
    cases h
    refine ⟨?_, ?_⟩
    · simp [promised, Unwritten.encode, encode]
    · simp only [totalWeight, List.foldr_cons, Unwritten.weight, size]
      omega
  | case4 written l r rest =>
    cases h
    refine ⟨?_, ?_⟩
    · simp [promised, Unwritten.encode, encode]
    · simp only [totalWeight, List.foldr_cons, Unwritten.weight, size]
      omega

theorem writes_promised (s : Text × List Unwritten) : Writes (totalWeight s.2) s (promised s) := by
  induction hn : totalWeight s.2 generalizing s with
  | zero =>
    obtain ⟨written, stack⟩ := s
    cases stack with
    | nil =>
      have hempty := Writes.ended written
      rwa [← List.append_nil written.reverse] at hempty
    | cons u rest =>
      obtain ⟨s', hturn⟩ := exists_turn written u rest
      have hweight := (turn_lowers hturn).2
      omega
  | succ n ih =>
    obtain ⟨written, stack⟩ := s
    cases stack with
    | nil => cases hn
    | cons u rest =>
      obtain ⟨s', hturn⟩ := exists_turn written u rest
      obtain ⟨hpromised, hweight⟩ := turn_lowers hturn
      refine .turn hturn ?_
      rw [← hpromised]
      exact ih s' (by omega)

theorem write_turn (h : turn s = some s') : write s.1 s.2 = write s'.1 s'.2 := by
  fun_cases turn s with
  | case1 written => cases h
  | _ =>
    cases h
    rw [write]

theorem Writes.eq_write {n : Nat} {text : Text} (h : Writes n s text) : text = write s.1 s.2 := by
  induction h with
  | ended written => rw [write]
  | turn h hs ih => rw [ih, write_turn h]

theorem writes_write (written : Text) (stack : List Unwritten) :
    Writes (totalWeight stack) (written, stack) (write written stack) := by
  have h := writes_promised (written, stack)
  rwa [h.eq_write] at h

theorem byteLength_encode (t : Tree) : t.encode.byteLength = 6 * t.size + 3 := by
  induction t with
  | nil => rfl
  | node l r hl hr =>
    have hopen : '<'.utf8Size = 1 := by decide
    have hdot : '.'.utf8Size = 1 := by decide
    have hclose : '>'.utf8Size = 1 := by decide
    simp only [encode, size, List.cons_append, Text.byteLength_cons, Text.byteLength_append,
      Text.byteLength_nil, hl, hr, hopen, hdot, hclose]
    omega

/-- For every tree the loop ends after four turns for each node and one more, and what it has
written is `nil`, or the notations of the two subtrees between their marks. -/
theorem render_iterates :
    (∀ t : Tree, Writes (4 * t.size + 1) ([], [.tree t]) t.render) ∧
      nil.render = "nil" ∧
      (∀ l r : Tree, (node l r).render = '<' :: l.render ++ '.' :: r.render ++ ['>']) ∧
      ∀ t : Tree, (∀ c ∈ t.render, Text.isBlank c = false) ∧
        t.render.byteLength = 6 * t.size + 3 := by
  refine ⟨fun t ↦ ?_, ?_, fun l r ↦ ?_, fun t ↦ ⟨?_, ?_⟩⟩
  · exact writes_write [] [.tree t]
  · rw [render_eq_encode]
    rfl
  · simp only [render_eq_encode, encode]
  · exact (Reply.isWord_iff.1 (Reply.isWord_render t)).2
  · rw [render_eq_encode, byteLength_encode]

end Prompter.Tree
