import Prompter.Proofs.Session.Reply.Line
import Prompter.Proofs.Text.Trim

namespace Prompter.Text

open Reply (isWord isWord_iff)

variable {a t w : Text} {c : Char}

namespace words

theorem close_eq (done : List Text) (word : Text) : close done word = close [] word ++ done := by
  cases word <;> rfl

theorem go_eq (done : List Text) (word t : Text) :
    go done word t = done.reverse ++ go [] word t := by
  induction t generalizing done word with
  | nil => rw [go, go, close_eq, List.reverse_append]
  | cons c r ih =>
    rw [go, go]
    split
    · rw [ih, ih (close [] word), close_eq, List.reverse_append, List.append_assoc]
    · exact ih done (c :: word)

theorem go_word (done : List Text) (word : Text) (hw : ∀ x ∈ w, isBlank x = false) (t : Text) :
    go done word (w ++ t) = go done (w.reverse ++ word) t := by
  induction w generalizing word with
  | nil => rfl
  | cons c w ih =>
    obtain ⟨hc, hw⟩ := List.forall_mem_cons.1 hw
    rw [List.cons_append, go, hc, if_neg Bool.false_ne_true, ih (c :: word) hw,
      List.reverse_cons, List.append_assoc]
    rfl

theorem close_word (hw : isWord w) : close [] (w.reverse ++ []) = [w] := by
  rw [List.append_nil, close, if_neg (by simpa using (isWord_iff.1 hw).1), List.reverse_reverse]

theorem isWord_close {done : List Text} {word : Text} (hd : ∀ x ∈ done, isWord x)
    (hw : ∀ x ∈ word, isBlank x = false) : ∀ x ∈ close done word, isWord x := by
  unfold close
  split
  next => exact hd
  next he =>
    have hword : isWord word.reverse :=
      isWord_iff.2 ⟨by simpa using he, fun x hx ↦ hw x (List.mem_reverse.1 hx)⟩
    exact List.forall_mem_cons.2 ⟨hword, hd⟩

theorem isWord_go {done : List Text} {word : Text} (hd : ∀ x ∈ done, isWord x)
    (hw : ∀ x ∈ word, isBlank x = false) (t : Text) : ∀ x ∈ go done word t, isWord x := by
  induction t generalizing done word with
  | nil => exact fun x hx ↦ isWord_close hd hw x (List.mem_reverse.1 hx)
  | cons c r ih =>
    rw [go]
    split
    next => exact ih (isWord_close hd hw) (by simp)
    next hc => exact ih hd (List.forall_mem_cons.2 ⟨Bool.eq_false_iff.2 hc, hw⟩)

end words

theorem isWord_of_mem_words (h : w ∈ words t) : isWord w :=
  words.isWord_go (by simp) (by simp) t w h

theorem words_blank_append (ha : Blank a) (t : Text) : words (a ++ t) = words t := by
  induction a with
  | nil => rfl
  | cons c a ih =>
    obtain ⟨hc, ha⟩ := List.forall_mem_cons.1 ha
    rw [← ih ha, List.cons_append, words, words.go, if_pos hc]
    rfl

theorem words_of_isWord (hw : isWord w) : words w = [w] := by
  have h := words.go_word [] [] (isWord_iff.1 hw).2 []
  rw [List.append_nil, words.go, words.close_word hw] at h
  exact h

theorem words_append (hw : isWord w) (hc : isBlank c = true) (t : Text) :
    words (w ++ c :: t) = w :: words t := by
  rw [words, words.go_word [] [] (isWord_iff.1 hw).2, words.go, if_pos hc, words.close_word hw,
    words.go_eq]
  rfl

theorem trimStart_word_append (hw : isWord w) (t : Text) : trimStart (w ++ t) = w ++ t := by
  obtain ⟨hne, hblank⟩ := isWord_iff.1 hw
  obtain ⟨c, w, rfl⟩ := List.exists_cons_of_ne_nil hne
  exact trimStart_cons (hblank c List.mem_cons_self) _

theorem trim_word_append (hw : isWord w) (ht : trimEnd t ≠ []) :
    trim (w ++ t) = w ++ trimEnd t := by
  rw [trim, trimStart_word_append hw, trimEnd_append_right ht]

theorem splitAtBlank_eq_some_iff {r : Text} :
    splitAtBlank t = some (w, r) ↔
      ∃ c, t = w ++ c :: r ∧ isBlank c = true ∧ ∀ x ∈ w, isBlank x = false := by
  constructor
  · intro h
    unfold splitAtBlank at h
    split at h
    next => cases h
    next c rest hrest =>
      obtain ⟨rfl, rfl⟩ := Prod.mk.inj (Option.some.inj h)
      refine ⟨c, ?_, ?_, fun x hx ↦ by simpa using List.mem_takeWhile_imp hx⟩
      · rw [← hrest, List.takeWhile_append_dropWhile]
      · have hnot := List.head?_dropWhile_not (!isBlank ·) t
        rw [hrest] at hnot
        simpa using hnot
  · intro h
    obtain ⟨c, rfl, hc, hw⟩ := h
    obtain ⟨hword, hrest⟩ := Prod.mk.inj (Reply.splitFirstWord_append r hc hw)
    unfold splitAtBlank
    rw [hrest, hword]

end Prompter.Text
