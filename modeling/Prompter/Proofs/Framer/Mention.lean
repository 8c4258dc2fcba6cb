import Prompter.Proofs.Framer.Transcript

namespace Prompter

namespace Text

variable {m t w x : Text}

def lastLine (t : Text) : Text := t.rtakeWhile (· != '\n')

theorem not_mem_lastLine (t : Text) : '\n' ∉ lastLine t := by
  intro h
  simpa using List.mem_rtakeWhile_imp h

theorem lastLine_of_not_mem (h : '\n' ∉ t) : lastLine t = t :=
  List.rtakeWhile_eq_self_iff.2 fun c hc ↦ by
    rw [bne_iff_ne]
    rintro rfl
    exact h hc

theorem lastLine_append_of_not_mem (h : '\n' ∉ x) (w : Text) :
    lastLine (w ++ x) = lastLine w ++ x := by
  have hx : ∀ c ∈ x.reverse, (c != '\n') = true := by
    intro c hc
    rw [bne_iff_ne]
    rintro rfl
    exact h (List.mem_reverse.1 hc)
  rw [lastLine, List.rtakeWhile, List.reverse_append, List.takeWhile_append_of_pos hx,
    List.reverse_append, List.reverse_reverse]
  rfl

theorem lastLine_append_break (w x : Text) : lastLine (w ++ '\n' :: x) = lastLine x := by
  induction x using List.reverseRecOn with
  | nil => exact List.rtakeWhile_concat_neg _ _ _ (by decide)
  | append_singleton x c ih =>
    have hc : w ++ '\n' :: (x ++ [c]) = w ++ '\n' :: x ++ [c] := by simp
    rw [lastLine, hc, List.rtakeWhile_concat, lastLine, List.rtakeWhile_concat]
    split
    · exact congrArg (· ++ [c]) ih
    · rfl

theorem exists_lastLine_append (hw : Blank w) (x : Text) :
    ∃ a, Blank a ∧ lastLine (w ++ x) = a ++ lastLine x := by
  by_cases h : '\n' ∈ x
  · obtain ⟨y, z, rfl⟩ := List.append_of_mem h
    refine ⟨[], by simp [Blank], ?_⟩
    rw [← List.append_assoc, lastLine_append_break, lastLine_append_break, List.nil_append]
  · refine ⟨lastLine w, fun c hc ↦ hw c ((List.rtakeWhile_suffix _ _).subset hc), ?_⟩
    rw [lastLine_append_of_not_mem h, lastLine_of_not_mem h]

/-- Wherever `m` stands in the text, something visible stands before it on its line or directly
behind it. -/
def Mentioned (m t : Text) : Prop :=
  ∀ x y, t = x ++ (m ++ y) → ¬ Blank (lastLine x) ∨ ∃ c, y.head? = some c ∧ isBlank c = false

instance (m t : Text) : Decidable (Mentioned m t) :=
  have h : (∀ k ∈ List.range (t.length + 1), m <+: t.drop k → ¬ Blank (lastLine (t.take k)) ∨
      ((t.drop (k + m.length)).head?.any (!isBlank ·)) = true) ↔ Mentioned m t := by
    simp only [Option.any_eq_true, Bool.not_eq_true', Mentioned]
    constructor
    · rintro h x y rfl
      have hlt : x.length < (x ++ (m ++ y)).length + 1 := by
        rw [List.length_append]
        omega
      have hx := h x.length (List.mem_range.2 hlt) (by simp)
      simpa [← List.drop_drop] using hx
    · rintro h k - ⟨y, hy⟩
      have ht : t = t.take k ++ (m ++ y) := by rw [hy, List.take_append_drop]
      have hdrop : t.drop (k + m.length) = y := by rw [← List.drop_drop, ← hy, List.drop_left]
      rw [hdrop]
      exact h _ y ht
  decidable_of_iff _ h

theorem Mentioned.of_break (h : Mentioned m (x ++ '\n' :: (w ++ t))) (hw : Blank w) :
    Mentioned m t := by
  rintro y z rfl
  obtain ⟨a, ha, hlast⟩ := exists_lastLine_append hw y
  have htext : x ++ '\n' :: (w ++ (y ++ (m ++ z))) = (x ++ '\n' :: (w ++ y)) ++ (m ++ z) := by simp
  refine (h _ _ htext).imp_left fun hvisible hblank ↦ hvisible ?_
  rw [lastLine_append_break, hlast]
  exact blank_append.2 ⟨ha, hblank⟩

end Text

open Text

namespace Framer

variable {f : Framer} {line rest t u : Text} {inputs : List Input}

theorem opens_of_afterMarker? (h : f.afterMarker? line = some rest) : Opens f.marker line := by
  obtain ⟨z, rfl, -⟩ := of_afterMarker?_eq_some h
  refine ⟨z, rfl, fun c hc ↦ ?_⟩
  obtain ⟨z, rfl⟩ := List.head?_eq_some_iff.1 hc
  by_contra hb
  simp [afterMarker?, after?_append, hb] at h

/-- A line is no prompt if the marker is only mentioned in a text where it stands among blanks. -/
theorem afterMarker?_of_mentioned {a b : Text} (h : Mentioned f.marker (a ++ (line ++ b)))
    (ha : Blank a) (hb : ∀ c ∈ b.head?, isBlank c = true) : f.afterMarker? line = none := by
  refine Option.eq_none_iff_forall_ne_some.2 fun rest he ↦ ?_
  obtain ⟨z, rfl, hz⟩ := opens_of_afterMarker? he
  rw [List.append_assoc] at h
  obtain hvisible | ⟨c, hc, hvisible⟩ := h a (z ++ b) rfl
  · exact hvisible fun c hc ↦ ha c ((List.rtakeWhile_suffix _ _).subset hc)
  · have hblank : isBlank c = true := by
      rw [List.head?_append, Option.or_eq_some_iff] at hc
      obtain hc | ⟨-, hc⟩ := hc
      · exact hz c hc
      · exact hb c hc
    rw [hblank] at hvisible
    cases hvisible

theorem afterMarker?_fragment (h : Mentioned f.marker line) :
    f.afterMarker? (trimStart line) = none := by
  obtain ⟨a, ha, hline⟩ := exists_trimStart line
  have hmention : Mentioned f.marker (a ++ (trimStart line ++ [])) := by
    rwa [List.append_nil, ← hline]
  exact afterMarker?_of_mentioned hmention ha (by simp)

theorem afterMarker?_line (h : Mentioned f.marker (line ++ '\n' :: t)) :
    f.afterMarker? (trim line) = none := by
  obtain ⟨a, b, ha, hb, hline⟩ := exists_trim line
  have htext : line ++ '\n' :: t = a ++ (trim line ++ (b ++ '\n' :: t)) := by
    conv_lhs => rw [hline, List.append_assoc, List.append_assoc]
  have hbreak : Blank (b ++ ['\n']) := blank_append.2 ⟨hb, by decide⟩
  refine afterMarker?_of_mentioned (htext ▸ h) ha fun c hc ↦ ?_
  rw [List.append_cons, List.head?_append_of_ne_nil _ (by simp)] at hc
  exact hbreak c (List.mem_of_head? hc)

theorem takeText_of_mentioned (hn : '\n' ∉ line) (h : Mentioned f.marker (line ++ t)) :
    (f.takeText (trimStart line) t).2 = [] ∧
      (f.takeText (trimStart line) t).1.fragment.getD [] = trimStart (lastLine (line ++ t)) := by
  generalize hu : trimStart line = u
  obtain ⟨a, ha, hlead⟩ := exists_trimStart line
  rw [hu] at hlead
  induction f, u, t using takeText_induction generalizing line a with
  | last f u t ht =>
    have hnt : '\n' ∉ line ++ t := by simp [hn, ht]
    have hstart : trimStart (u ++ t) = trimStart (line ++ t) := by
      rw [hlead, List.append_assoc, trimStart_blank_append ha]
    simp only [takeFragment, hstart, afterMarker?_fragment h, Option.toList_none, fragment_hold,
      lastLine_of_not_mem hnt, and_self]
  | line f u p v w t g frames hp hv hvn hw ih =>
    have hbreak : line ++ (p ++ v ++ '\n' :: (w ++ t)) =
        (line ++ p ++ v) ++ '\n' :: (w ++ t) := by simp
    have htrim : trim (line ++ p ++ v) = trim (u ++ p) := by
      rw [trim_append_blank hv, hlead, List.append_assoc, trim_blank_append ha]
    rw [hbreak] at h ⊢
    have hnone := afterMarker?_line h
    rw [htrim] at hnone
    have hmention := h.of_break hw
    rw [← takeLine_marker f (u ++ p)] at hmention
    obtain ⟨rfl, hfragment⟩ := @ih [] (by simp) hmention rfl [] (by simp [Blank]) rfl
    obtain ⟨b, hb, hlast⟩ := exists_lastLine_append hw t
    refine ⟨by simp [takeLine, hnone], ?_⟩
    rw [hfragment, lastLine_append_break, hlast, trimStart_blank_append hb, List.nil_append]

/-- At every piece of output the marker is only mentioned in the line that is still open, which a
turn ends as well, and the piece behind it. -/
def OnlyMentions (m line : Text) : List Input → Prop
  | [] => True
  | .chunk t :: inputs => Mentioned m (line ++ t) ∧ OnlyMentions m (lastLine (line ++ t)) inputs
  | .turn :: inputs => OnlyMentions m [] inputs

instance decidableOnlyMentions (m : Text) :
    ∀ (line : Text) (inputs : List Input), Decidable (OnlyMentions m line inputs)
  | _, [] => .isTrue trivial
  | line, .chunk t :: inputs =>
    have := decidableOnlyMentions m (lastLine (line ++ t)) inputs
    inferInstanceAs (Decidable (_ ∧ _))
  | _, .turn :: inputs => decidableOnlyMentions m [] inputs

theorem OnlyMentions.run (h : OnlyMentions f.marker line inputs) (hn : '\n' ∉ line)
    (hf : f.fragment.getD [] = trimStart line) : (f.run inputs).2 = [] := by
  induction inputs generalizing f line with
  | nil => rfl
  | cons i inputs ih =>
    have hmarker := run_marker f [i]
    cases i with
    | chunk t =>
      obtain ⟨hmention, hrest⟩ := h
      obtain ⟨hframes, hfragment⟩ := takeText_of_mentioned
        (f := { f with raw := f.raw ++ t, fragment := none }) hn hmention
      rw [← hf, ← feed_eq] at hframes hfragment
      have hmore := ih (hmarker.symm ▸ hrest) (not_mem_lastLine _) hfragment
      simp [Framer.run, take, hframes, hmore]
    | turn => exact ih (f := f.beginTurn) h (by simp) rfl

/-- Output that only mentions the prompt ends no turn. -/
theorem run_of_onlyMentions {prompt : Text} (h : OnlyMentions prompt.trimEnd [] inputs) :
    ((ofPrompt prompt).run inputs).2 = [] :=
  h.run (f := ofPrompt prompt) (by simp) rfl

/-- Cuts and turns within the marker and within the lines that mention it. -/
theorem run_of_onlyMentions_cut :
    ((ofPrompt "HWhile> ").run [.chunk "echo HWhi", .chunk "le> \nHWhile>x", .turn,
      .chunk "say HWhile> ", .chunk "\nHWh", .turn, .chunk "ile> \n"]).2 = [] :=
  run_of_onlyMentions (by decide +kernel)

/-- A turn or a cut can leave nothing else of the line than the marker. -/
theorem frames_of_mentioned :
    (Mentioned "HWhile>" "echo HWhile> \n" ∧ ((ofPrompt "HWhile> ").run
      [.chunk "echo ", .turn, .chunk "HWhile> \n"]).2 = [⟨["echo "], "echo HWhile> \n"⟩]) ∧
    Mentioned "HWhile>" "HWhile>x\n" ∧ ((ofPrompt "HWhile> ").run
      [.chunk "HWhile>", .chunk "x\n"]).2 = [⟨[], "HWhile>"⟩] := by
  decide +kernel

end Framer

end Prompter
