import Prompter.Proofs.Framer.Transcript
import Prompter.Session.Operation

namespace Prompter

open Text

namespace Framer

variable {f : Framer} {prompt t u : Text}

/-- No line is taken for a prompt. -/
def Blind (f : Framer) : Prop :=
  ∀ line, '\n' ∉ line → trimStart line = line → f.afterMarker? line = none

namespace Blind

theorem congr {g : Framer} (h : f.Blind) (hg : g.marker = f.marker) : g.Blind := by
  rw [Blind, afterMarker?_congr hg]
  exact h

theorem takeLine (h : f.Blind) (hu : '\n' ∉ u) : (f.takeLine u).2 = none := by
  have hnone := h u.trim (fun hc ↦ hu (mem_of_mem_trim hc)) (trimStart_trim u)
  simp [Framer.takeLine, hnone]

theorem takeFragment (h : f.Blind) (hu : '\n' ∉ u) : (f.takeFragment u).2 = none := by
  have hsuffix : trimStart u <:+ u := List.dropWhile_suffix _
  have hnone := h (trimStart u) (fun hc ↦ hu (hsuffix.subset hc)) (trimStart_trimStart u)
  simp [Framer.takeFragment, hnone]

theorem takeText (h : f.Blind) (hu : '\n' ∉ u) (t : Text) : (f.takeText u t).2 = [] := by
  induction f, u, t using takeText_induction with
  | last f u t ht => rw [h.takeFragment (by simp [hu, ht]), Option.toList_none]
  | line f u p v w t g frames hp _ _ _ ih =>
    rw [h.takeLine (by simp [hu, hp]), ih (h.congr (takeLine_marker f _)) (by simp)]
    rfl

theorem run (h : (ofPrompt prompt).Blind) (inputs : List Input) :
    ((ofPrompt prompt).run inputs).2 = [] := by
  induction inputs using List.reverseRecOn with
  | nil => rfl
  | append_singleton inputs i ih =>
    obtain ⟨turns, body, hl⟩ := ledger_run prompt inputs
    have hf := h.congr (run_marker (ofPrompt prompt) inputs)
    rw [run_append, ih, List.nil_append]
    cases i with
    | chunk t =>
      have hchunk := hf.congr (g := { ((ofPrompt prompt).run inputs).1 with
        raw := ((ofPrompt prompt).run inputs).1.raw ++ t, fragment := none }) rfl
      simp [Framer.run, take, feed_eq, hchunk.takeText hl.fragment.1]
    | turn => rfl

end Blind

theorem blind_of_not_solid (hne : prompt.trimEnd ≠ []) (h : ¬ Solid prompt.trimEnd) :
    (ofPrompt prompt).Blind := by
  intro line hn hs
  refine afterMarker?_eq_none fun hprefix ↦ h ?_
  obtain ⟨z, rfl⟩ := hprefix
  obtain ⟨c, m, hm⟩ := List.exists_cons_of_ne_nil hne
  have hline : (ofPrompt prompt).marker ++ z = c :: (m ++ z) := congrArg (· ++ z) hm
  rw [hline] at hs
  exact ⟨⟨c, by rw [hm]; rfl, isBlank_of_trimStart hs⟩, trimEnd_of_suffix (List.suffix_refl _),
    fun hc ↦ hn (List.mem_append_left z hc)⟩

theorem frames_of_solid (hm : Solid prompt.trimEnd) (ht : t = [] ∨ t.getLast? = some '\n')
    {chunks : List Text} (hc : chunks.flatten = t ++ prompt) :
    ((ofPrompt prompt).run (chunks.map .chunk)).2 ≠ [] := by
  intro hnil
  obtain ⟨b, hb, hprompt⟩ := exists_trimEnd prompt
  obtain ⟨s, hs⟩ : ∃ s, '\n' :: t = s ++ ['\n'] := by
    obtain rfl | ht := ht
    · exact ⟨[], rfl⟩
    · obtain ⟨s, rfl⟩ := List.getLast?_eq_some_iff.1 ht
      exact ⟨'\n' :: s, rfl⟩
  obtain ⟨turns, body, hl⟩ := ledger_run prompt (chunks.map .chunk)
  have hturns : turns = [] := by simpa [hnil] using hl.frames
  have hsigns : (s ++ ['\n'] ++ (prompt.trimEnd ++ b)).map some = body ++
      (((ofPrompt prompt).run (chunks.map .chunk)).1.fragment.getD []).map some := by
    have hflat : (chunks.map Input.chunk).flatMap Input.signs = (t ++ prompt).map some := by
      rw [List.flatMap_map, ← hc, List.map_flatten]
      rfl
    have hstream := hl.signs
    rw [hflat, hturns] at hstream
    rw [← hs, ← hprompt]
    exact hstream
  -- a prompt that has been missed has a turn in it, and there is none
  have hclean := hl.clean
  have hmarker := run_marker (ofPrompt prompt) (chunks.map .chunk)
  rw [← hsigns] at hclean
  obtain ⟨x, y, p, q, hturn, -⟩ := hclean.exists_turn (t := s) (u := b) (hmarker ▸ hm)
    (by rw [Sign.text_map_some, hmarker]; rfl) fun c hc ↦ hb c (List.mem_of_head? hc)
  have hmem : none ∈ (s ++ ['\n'] ++ (prompt.trimEnd ++ b)).map some := by
    rw [hturn]
    exact List.mem_append_right x List.mem_cons_self
  obtain ⟨c, -, hc⟩ := List.mem_map.1 hmem
  cases hc

theorem trimEnd_ne_nil {config : Config} (h : Session.checkConfig config = .ok ()) :
    config.prompt.trimEnd ≠ [] := by
  intro hnil
  obtain ⟨b, hb, hprompt⟩ := exists_trimEnd config.prompt
  rw [hnil, List.nil_append] at hprompt
  rw [Session.checkConfig, trim_eq_nil (hprompt ▸ hb)] at h
  simp at h

theorem solid_trimEnd_iff (hne : prompt.trimEnd ≠ []) :
    Solid prompt.trimEnd ↔
      (∃ c, prompt.head? = some c ∧ isBlank c = false) ∧ '\n' ∉ prompt.trimEnd := by
  obtain ⟨b, -, hprompt⟩ := exists_trimEnd prompt
  have hhead : prompt.head? = prompt.trimEnd.head? := by
    conv_lhs => rw [hprompt]
    exact List.head?_append_of_ne_nil _ hne
  rw [hhead]
  exact ⟨fun h ↦ ⟨h.starts, h.noBreak⟩,
    fun h ↦ ⟨h.1, trimEnd_of_suffix (List.suffix_refl _), h.2⟩⟩

/-- A prompt that the settings may name is seen at the beginning of a line, however it is cut, if
and only if something visible begins it and no line feed stands before something visible in it. -/
theorem frames_ne_nil_iff (config : Config) (h : Session.checkConfig config = .ok ())
    (ht : t = [] ∨ t.getLast? = some '\n') {chunks : List Text}
    (hc : chunks.flatten = t ++ config.prompt) :
    ((ofPrompt config.prompt).run (chunks.map .chunk)).2 ≠ [] ↔
      (∃ c, config.prompt.head? = some c ∧ isBlank c = false) ∧
        '\n' ∉ config.prompt.trimEnd := by
  have hne := trimEnd_ne_nil h
  rw [← solid_trimEnd_iff hne]
  refine ⟨fun hframes ↦ ?_, fun hm ↦ frames_of_solid hm ht hc⟩
  by_contra hm
  exact hframes ((blind_of_not_solid hne hm).run _)

/-- The prompt ends in a line feed, and there is a cut within it. -/
theorem frames_of_prompt_with_break :
    ((ofPrompt ">> \n").run ([">", "> \n"].map .chunk)).2 ≠ [] :=
  (frames_ne_nil_iff { prompt := ">> \n" } (by decide) (.inl rfl) rfl).2
    ⟨⟨'>', rfl, by decide⟩, by decide⟩

/-- A prompt that begins with a blank may be named and is not seen, nor is one of two lines. -/
theorem unseen_prompts :
    Session.checkConfig { prompt := " > " } = .ok () ∧ ((ofPrompt " > ").feed " > ").2 = [] ∧
      Session.checkConfig { prompt := "a\n> " } = .ok () ∧
      ((ofPrompt "a\n> ").feed "a\n> ").2 = [] := by
  decide +kernel

end Framer

end Prompter
