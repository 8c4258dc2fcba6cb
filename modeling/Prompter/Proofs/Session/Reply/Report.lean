import Prompter.Proofs.Session.Reply.Line
import Prompter.Proofs.Text.Trim
import Prompter.Proofs.Tree.Notation
import Prompter.Session.Reply

namespace Prompter.Reply

open Text

variable {verb verb' line name name' value value' program note : Text} {n : Nat}

/-- The line ends with an assignment that follows `verb`. -/
def Assigns (verb line name value : Text) : Prop :=
  ∃ front, line = front ++ verb ++ " " ++ name ++ " = " ++ value ∧ EndsBlank front ∧
    isWord name ∧ isWord value

theorem assigns_assignment (verb program : Text) (hn : isWord name) (hv : isWord value) :
    Assigns verb (assignment verb program name value) name value :=
  ⟨program ++ " ", rfl, (endsBlank_append (by decide)).2 (by decide), hn, hv⟩

theorem assignment?_eq_some_iff :
    assignment? verb line = some (name, value) ↔ Assigns verb line name value := by
  constructor
  · intro h
    unfold assignment? at h
    rcases hline : splitLastWord line with ⟨front, value⟩
    rw [hline] at h
    obtain ⟨rest, hrest, h⟩ := Option.bind_eq_some_iff.1 h
    rcases hlast : splitLastWord rest with ⟨front', name⟩
    rw [hlast] at h
    obtain ⟨front, hfront, h⟩ := Option.bind_eq_some_iff.1 h
    obtain ⟨_, hguard, h⟩ := Option.bind_eq_some_iff.1 h
    obtain ⟨rfl, rfl⟩ := Prod.mk.inj (Option.some.inj h)
    simp only [Option.guard_eq_some', Bool.and_eq_true] at hguard
    obtain ⟨⟨hv, hn⟩, hblank⟩ := hguard
    refine ⟨front, ?_, (Option.all_eq_true ..).1 hblank, hn, hv⟩
    rw [(splitLastWord_eq_iff.1 hline).1, before?_eq_some_iff.1 hrest,
      (splitLastWord_eq_iff.1 hlast).1, before?_eq_some_iff.1 hfront, ← List.append_assoc front]
  · rintro ⟨front, rfl, hblank, hn, hv⟩
    have hvalue := splitLastWord_append (front ++ (verb ++ " ") ++ name) (s := " = ") (by decide)
      (by decide) hv
    have hname := splitLastWord_append (front ++ verb) (s := " ") (by decide) (by decide) hn
    rw [List.append_assoc front verb] at hname ⊢
    unfold assignment?
    rw [hvalue]
    dsimp only
    rw [before?_append]
    dsimp only [Option.bind_eq_bind, Option.bind_some]
    rw [hname]
    dsimp only
    rw [before?_append, Option.bind_some, hn, hv, (Option.all_eq_true ..).2 hblank]
    rfl

/-- No line assigns after two verbs. -/
theorem Assigns.verb_eq (h : Assigns verb line name value) (h' : Assigns verb' line name' value')
    (hverb : isWord verb) (hverb' : isWord verb') : verb = verb' := by
  obtain ⟨front, hline, hfront, hn, hv⟩ := h
  obtain ⟨front', hline', hfront', hn', hv'⟩ := h'
  have hlast {s s' t w w' : Text} (ht : t ≠ []) (hblank : EndsBlank t) (hw : isWord w)
      (hw' : isWord w') (h : s ++ t ++ w = s' ++ t ++ w') : s = s' := by
    have hsplit := (splitLastWord_append s ht hblank hw).symm.trans
      (h ▸ splitLastWord_append s' ht hblank hw')
    exact List.append_cancel_right (Prod.mk.inj hsplit).1
  have hverbs : front ++ verb = front' ++ verb' :=
    hlast (by decide) (by decide) hn hn' <|
      hlast (by decide) (by decide) hv hv' (hline.symm.trans hline')
  have hsplit := (splitLastWord_eq_iff.2 ⟨rfl, hfront, (isWord_iff.1 hverb).2⟩).symm.trans
    (splitLastWord_eq_iff.2 ⟨hverbs, hfront', (isWord_iff.1 hverb').2⟩)
  exact (Prod.mk.inj hsplit).2

theorem endsBlank_append_cons {w t : Text} {c : Char} (hc : isBlank c = true) :
    EndsBlank (w ++ c :: t) ↔ EndsBlank t := by
  rw [endsBlank_append (List.cons_ne_nil c t), EndsBlank, EndsBlank, List.getLast?_cons]
  cases t.getLast? <;> simp [hc]

theorem eq_nil_or_behind_word {front r w t : Text} {c : Char} (hfront : EndsBlank front)
    (hw : ∀ x ∈ w, isBlank x = false) (h : front ++ r = w ++ c :: t) :
    front = [] ∨ ∃ u, front = w ++ c :: u ∧ t = u ++ r := by
  obtain rfl | ⟨front, d, rfl⟩ := front.eq_nil_or_concat
  · exact .inl rfl
  have hd : d ∉ w := fun hmem ↦ by simpa [hfront d (by simp)] using hw d hmem
  rcases List.append_eq_append_iff.1 h with ⟨u, rfl, -⟩ | ⟨u, hu, ht⟩
  · exact absurd (by simp) hd
  · cases u with
    | nil =>
      rw [List.append_nil] at hu
      exact absurd (by simp [← hu]) hd
    | cons e u =>
      obtain ⟨rfl, rfl⟩ := List.cons.inj ht
      exact .inr ⟨u, hu, rfl⟩

/-- A word in front of a line takes no part in what the line assigns, unless it is the verb. -/
theorem assigns_word_append {w t : Text} (hw : ∀ x ∈ w, isBlank x = false) (hverb : isWord verb)
    (hne : verb ≠ w) : Assigns verb (w ++ " " ++ t) name value ↔ Assigns verb t name value := by
  have hblank : isBlank ' ' = true := by decide
  have hsplit (t : Text) {w : Text} (hw : ∀ x ∈ w, isBlank x = false) :
      splitFirstWord (w ++ (" " ++ t)) = (w, " " ++ t) := splitFirstWord_append t hblank hw
  constructor
  · rintro ⟨front, hline, hfront, hn, hv⟩
    simp only [List.append_assoc] at hline
    rcases eq_nil_or_behind_word hfront hw hline.symm with rfl | ⟨u, rfl, rfl⟩
    · have hfirst := congrArg splitFirstWord hline
      rw [List.nil_append, hsplit t hw, hsplit _ (isWord_iff.1 hverb).2] at hfirst
      exact absurd (Prod.mk.inj hfirst).1.symm hne
    · exact ⟨u, by simp only [List.append_assoc], (endsBlank_append_cons hblank).1 hfront, hn, hv⟩
  · rintro ⟨front, rfl, hfront, hn, hv⟩
    exact ⟨w ++ ' ' :: front, by simp, (endsBlank_append_cons hblank).2 hfront, hn, hv⟩

def spaced (ws : List Text) : Text := ws.flatMap fun w ↦ w ++ (" " : Text)

theorem assigns_spaced_append {ws : List Text} (t : Text)
    (hws : ∀ w ∈ ws, ∀ x ∈ w, isBlank x = false) (hverb : isWord verb) (hne : verb ∉ ws) :
    Assigns verb (spaced ws ++ t) name value ↔ Assigns verb t name value := by
  induction ws with
  | nil => rfl
  | cons w ws ih =>
    obtain ⟨hw, hws⟩ := List.forall_mem_cons.1 hws
    rw [List.mem_cons, not_or] at hne
    rw [spaced, List.flatMap_cons, List.append_assoc, ← spaced, assigns_word_append hw hverb hne.1,
      ih hws hne.2]

theorem position?_position (hp : isWord program) (hn : n < UInt32.size)
    (hnote : trimStart note = note) :
    position? (position program n note) = some (program, n, note) := by
  obtain ⟨hne, hblank⟩ := isWord_iff.1 hp
  have hword : ∀ x ∈ program ++ ",", isBlank x = false :=
    List.forall_mem_append.2 ⟨hblank, (isWord_iff.1 (show isWord "," by decide)).2⟩
  have hdigit : ∀ x ∈ decimal n, x.isDigit = true :=
    fun x hx ↦ Nat.isDigit_of_mem_toDigits (by omega) (by omega) hx
  have hline : (" line " : Text) = ' ' :: "line " := by decide
  have hcolon : (": " : Text) = ":" ++ (" " : Text) := by decide
  have hsplit := splitFirstWord_append ("line " ++ (decimal n ++ (": " ++ note)))
    (show isBlank ' ' = true by decide) hword
  rw [← List.cons_append, ← hline] at hsplit
  have hrest : position program n note =
      program ++ "," ++ (" line " ++ (decimal n ++ (": " ++ note))) := by
    simp [position]
  have htake : (decimal n ++ (": " ++ note)).takeWhile Char.isDigit = decimal n := by
    simp [List.takeWhile_append_of_pos hdigit]
  have hdrop : (decimal n ++ (": " ++ note)).dropWhile Char.isDigit = ": " ++ note := by
    simp [List.dropWhile_append_of_pos hdigit]
  rw [hrest]
  unfold position?
  rw [hsplit]
  dsimp only
  rw [before?_append]
  dsimp only [Option.bind_eq_bind, Option.bind_some]
  rw [after?_append, Option.bind_some, htake, hdrop, lineNumber?_decimal hn, Option.bind_some,
    hcolon, List.append_assoc, after?_append, Option.bind_some, List.isEmpty_eq_false_iff.2 hne,
    trimStart_append_of_all (by decide), hnote]
  rfl

def verbs : List Text := ["read", "wrote"]

theorem isWord_of_mem_verbs (h : verb ∈ verbs) : isWord verb :=
  (show ∀ verb ∈ verbs, isWord verb = true by decide) verb h

theorem assigns_position (hverb : verb ∈ verbs) (hp : isWord program) :
    Assigns verb (position program n note) name value ↔ Assigns verb note name value := by
  have hline : position program n note =
      spaced [program ++ ",", "line", decimal n ++ ":"] ++ note := by
    simp [position, spaced]
  have hlast : ∀ verb ∈ verbs, verb ≠ "line" ∧ verb.getLast? ≠ some ',' ∧
      verb.getLast? ≠ some ':' := by decide
  obtain ⟨hne, hcomma, hcolon⟩ := hlast verb hverb
  have hword {t : Text} (ht : isWord t) : ∀ x ∈ t, isBlank x = false := (isWord_iff.1 ht).2
  rw [hline, assigns_spaced_append note ?_ (isWord_of_mem_verbs hverb)]
  · simp only [List.mem_cons, List.not_mem_nil, or_false, not_or]
    refine ⟨?_, hne, ?_⟩
    · rintro rfl
      exact hcomma List.getLast?_concat
    · rintro rfl
      exact hcolon List.getLast?_concat
  · simp only [List.forall_mem_cons]
    exact ⟨List.forall_mem_append.2 ⟨hword hp, hword (show isWord "," by decide)⟩,
      hword (by decide),
      List.forall_mem_append.2 ⟨fun _ ↦ isBlank_of_mem_decimal, hword (show isWord ":" by decide)⟩,
      by simp⟩

/-- The text ends as if a program told what it has read or written. -/
def Tells (t : Text) : Prop := ∃ verb ∈ verbs, ∃ name value, Assigns verb t name value

theorem exists_assigns_iff :
    (∃ name value, Assigns verb line name value) ↔ (assignment? verb line).isSome := by
  simp only [← assignment?_eq_some_iff, Option.isSome_iff_exists, Prod.exists]

theorem tells_iff : Tells line ↔
    (assignment? "read" line).isSome ∨ (assignment? "wrote" line).isSome := by
  simp only [Tells, exists_assigns_iff, verbs, List.mem_cons, List.not_mem_nil, or_false,
    exists_eq_or_imp, exists_eq_left]

instance (t : Text) : Decidable (Tells t) := decidable_of_iff' _ tells_iff

theorem tells_position (hp : isWord program) : Tells (position program n note) ↔ Tells note :=
  exists_congr fun _ ↦ and_congr_right fun hverb ↦ exists_congr fun _ ↦ exists_congr fun _ ↦
    assigns_position hverb hp

structure IsNote (t : Text) : Prop where
  noBreak : '\n' ∉ t
  trim : t.trim = t

instance (t : Text) : Decidable (IsNote t) :=
  decidable_of_iff ('\n' ∉ t ∧ t.trim = t) ⟨fun h ↦ ⟨h.1, h.2⟩, fun h ↦ ⟨h.noBreak, h.trim⟩⟩

section Decoders

variable (command echo raw : Text) (more : List Text) {t : Tree}

theorem lineAt_zero (line : Text) :
    lineAt command 0 ⟨echo :: line :: more, raw⟩ = .ok line := rfl

theorem lineAt_one (line line' : Text) :
    lineAt command 1 ⟨echo :: line :: line' :: more, raw⟩ = .ok line' := rfl

theorem tree_render (t : Tree) : tree t.render = .ok t := by
  rw [tree, Tree.parse_render]
  rfl

theorem assignment?_eq_none (h : Assigns verb line name value) (hverb : isWord verb)
    (hverb' : isWord verb') (hne : verb ≠ verb') : assignment? verb' line = none := by
  refine Option.eq_none_iff_forall_ne_some.2 fun a ha ↦ hne ?_
  exact h.verb_eq (assignment?_eq_some_iff.1 ha) hverb hverb'

theorem decodeStep_read (h : Assigns "read" line name t.render) :
    decodeStep command ⟨echo :: line :: more, raw⟩ = .ok (.read name t) := by
  have hread := assignment?_eq_some_iff.2 h
  unfold decodeStep
  simp only [lineAt_zero, bind, Except.bind, hread, tree_render]
  rfl

theorem decodeStep_wrote (h : Assigns "wrote" line name t.render) :
    decodeStep command ⟨echo :: line :: more, raw⟩ = .ok (.wrote name t) := by
  have hread : assignment? "read" line = none :=
    assignment?_eq_none h (by decide) (by decide) (by decide)
  have hwrote := assignment?_eq_some_iff.2 h
  unfold decodeStep
  simp only [lineAt_zero, bind, Except.bind, hread, hwrote, tree_render]
  rfl

theorem decodeStep_loopExit :
    decodeStep command ⟨echo :: loopExit :: more, raw⟩ = .ok .loopExit := by
  have hread : assignment? "read" loopExit = none := by decide
  have hwrote : assignment? "wrote" loopExit = none := by decide
  have hposition : position? loopExit = none := by decide
  unfold decodeStep
  simp only [lineAt_zero, bind, Except.bind, hread, hwrote, hposition]
  rfl

theorem decodeRun_wrote (h : Assigns "wrote" line name t.render) :
    decodeRun command ⟨echo :: line :: more, raw⟩ = .ok (.wrote name t) := by
  have hwrote := assignment?_eq_some_iff.2 h
  unfold decodeRun
  simp only [lineAt_zero, bind, Except.bind, hwrote, tree_render]
  rfl

theorem decodeRun_breakpoint (h : position? line = some (program, n, note)) :
    decodeRun command ⟨echo :: hitBreakpoint :: line :: more, raw⟩ =
      .ok (.breakpoint program n) := by
  have hwrote : assignment? "wrote" hitBreakpoint = none := by decide
  unfold decodeRun
  simp only [lineAt_zero, bind, Except.bind, hwrote, lineAt_one, h]
  rfl

theorem decodeStep_atLine_iff (h : position? line = some (program, n, note)) :
    decodeStep command ⟨echo :: line :: more, raw⟩ = .ok (.atLine program n note) ↔
      ¬Tells line := by
  rw [tells_iff]
  unfold decodeStep
  simp only [lineAt_zero, bind, Except.bind]
  cases hread : assignment? "read" line with
  | some a => cases htree : tree a.2 <;> simp [htree, pure, Except.pure]
  | none =>
    cases hwrote : assignment? "wrote" line with
    | some a => cases htree : tree a.2 <;> simp [htree, pure, Except.pure]
    | none => simp [h, pure, Except.pure]

/-- Each reply to a run or a step is read as what it was written for, and a position is, if and
only if its note does not end as if a program told what it has read or written. -/
theorem shapes_told_apart (value : Tree) (hp : isWord program) (hname : isWord name)
    (hn : n < UInt32.size) (hnote : IsNote note) :
    decodeStep command ⟨echo :: assignment "read" program name value.render :: more, raw⟩ =
      .ok (.read name value) ∧
    decodeStep command ⟨echo :: assignment "wrote" program name value.render :: more, raw⟩ =
      .ok (.wrote name value) ∧
    (decodeStep command ⟨echo :: position program n note :: more, raw⟩ =
      .ok (.atLine program n note) ↔ ¬Tells note) ∧
    decodeStep command ⟨echo :: loopExit :: more, raw⟩ = .ok .loopExit ∧
    decodeRun command ⟨echo :: assignment "wrote" program name value.render :: more, raw⟩ =
      .ok (.wrote name value) ∧
    decodeRun command ⟨echo :: hitBreakpoint :: position program n note :: more, raw⟩ =
      .ok (.breakpoint program n) := by
  have hassigns (verb : Text) : Assigns verb (assignment verb program name value.render) name
      value.render := assigns_assignment verb program hname (isWord_render value)
  have hstart : trimStart note = note := by
    rw [← hnote.trim]
    exact trimStart_trim note
  have hposition := position?_position hp hn hstart
  refine ⟨decodeStep_read command echo raw more (hassigns "read"),
    decodeStep_wrote command echo raw more (hassigns "wrote"), ?_,
    decodeStep_loopExit command echo raw more,
    decodeRun_wrote command echo raw more (hassigns "wrote"),
    decodeRun_breakpoint command echo raw more hposition⟩
  rw [decodeStep_atLine_iff command echo raw more hposition, tells_position hp]

/-- Replies of one program, at a line whose note is an assignment of the interpreted language. -/
theorem shapes_told_apart_count :
    let sum : Tree := .node .nil .nil
    decodeStep ":step" ⟨[":step", "count read SUM = <nil.nil>"], []⟩ = .ok (.read "SUM" sum) ∧
    decodeStep ":step" ⟨[":step", "count, line 7: SUM := cons nil SUM"], []⟩ =
      .ok (.atLine "count" 7 "SUM := cons nil SUM") ∧
    decodeRun ":run" ⟨[":run", "Hit breakpoint.", "count, line 7: SUM := cons nil SUM"], []⟩ =
      .ok (.breakpoint "count" 7) := by
  intro sum
  have hsum : sum.render = "<nil.nil>" := by decide +kernel
  have hnote : IsNote "SUM := cons nil SUM" := by decide +kernel
  have hp : isWord "count" := by decide
  have hname : isWord "SUM" := by decide
  have hn : 7 < UInt32.size := by decide
  obtain ⟨hread, -, hline, -⟩ := shapes_told_apart ":step" ":step" [] [] sum hp hname hn hnote
  obtain ⟨-, -, -, -, -, hhit⟩ := shapes_told_apart ":run" ":run" [] [] sum hp hname hn hnote
  rw [hsum] at hread
  exact ⟨hread, hline.2 (by decide +kernel), hhit⟩

/-- A note that ends with an assignment is taken for what the program has written. -/
theorem note_taken_for_output :
    let note : Text := "x wrote X = nil"
    IsNote note ∧
    decodeStep ":step" ⟨[":step", position "p" 3 note], []⟩ = .ok (.wrote "X" .nil) ∧
    decodeRun ":run" ⟨[":run", hitBreakpoint, position "p" 3 note], []⟩ =
      .ok (.breakpoint "p" 3) := by
  decide +kernel

end Decoders

end Prompter.Reply
