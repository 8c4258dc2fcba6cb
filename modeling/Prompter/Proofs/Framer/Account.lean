import Prompter.Proofs.Framer.Cut
import Prompter.Proofs.Text.Lines

namespace Prompter.Framer

open Text Sign

variable {f g : Framer} {turns : List (List Sign)} {body : List Sign} {frames : List Frame}

theorem afterMarker?_congr (h : g.marker = f.marker) : g.afterMarker? = f.afterMarker? := by
  funext line
  rw [afterMarker?, h, afterMarker?]

theorem after?_eq_some {m t z : Text} : after? m t = some z ↔ t = m ++ z := by
  unfold after?
  constructor
  · intro h
    split at h
    next hm =>
      obtain ⟨y, rfl⟩ := List.isPrefixOf_iff_prefix.1 hm
      simpa using h
    next => cases h
  · rintro rfl
    exact after?_append m z

theorem of_afterMarker?_eq_some {line rest : Text} (h : f.afterMarker? line = some rest) :
    ∃ z, line = f.marker ++ z ∧ rest = trimStart z := by
  unfold afterMarker? at h
  cases ha : after? f.marker line with
  | none => simp [ha] at h
  | some z =>
    refine ⟨z, after?_eq_some.1 ha, ?_⟩
    cases z with
    | nil => simpa [ha, trimStart, eq_comm] using h
    | cons c z =>
      by_cases hc : isBlank c = true
      · simpa [ha, trimStart, hc, eq_comm] using h
      · simp [ha, hc] at h

theorem afterMarker?_eq_none {line : Text} (h : ¬ f.marker <+: line) :
    f.afterMarker? line = none := by
  refine Option.eq_none_iff_forall_ne_some.2 fun rest he ↦ h ?_
  obtain ⟨z, rfl, -⟩ := of_afterMarker?_eq_some he
  exact List.prefix_append _ z

/-- Nothing is left after the lines, of which only the first may be overlooked as a prompt. -/
structure Settled (f : Framer) (s : List Sign) : Prop where
  rest : Blank (rest s)
  plain : ∀ l ∈ (cut [] s).1.tail, l ≠ [] → f.afterMarker? l = none

/-- What a framer has done with a stream that falls into `turns` and `body`. -/
structure Account (f : Framer) (turns : List (List Sign)) (body : List Sign)
    (frames : List Frame) : Prop where
  frames : frames.map Frame.lines = turns.map lines
  held : f.held.reverse.filter (!·.isEmpty) = lines body
  past : ∀ s ∈ turns, f.Settled s
  present : f.Settled body

def stream (marker : Text) (turns : List (List Sign)) (body : List Sign) : List Sign :=
  turns.flatMap (· ++ marker.map some) ++ body

theorem Settled.congr {s : List Sign} (h : f.Settled s) (hg : g.marker = f.marker) :
    g.Settled s := by
  refine ⟨h.rest, ?_⟩
  rw [afterMarker?_congr hg]
  exact h.plain

theorem cut_blanks {a : Text} (hn : '\n' ∉ a) :
    cut [] (body ++ a.map some) = ((cut [] body).1, Sign.rest body ++ a) := by
  rw [cut_append, cut_text hn, List.append_nil]
  rfl

theorem Settled.blanks {a : Text} (h : f.Settled body) (ha : Blank a) (hn : '\n' ∉ a) :
    f.Settled (body ++ a.map some) := by
  constructor
  · rw [Sign.rest, cut_blanks hn]
    exact blank_append.2 ⟨h.rest, ha⟩
  · rw [cut_blanks hn]
    exact h.plain

@[simp] theorem takeLine_marker (f : Framer) (line : Text) :
    (f.takeLine line).1.marker = f.marker := by
  unfold Framer.takeLine
  dsimp only
  split <;> rfl

namespace Account

theorem extend (h : Account f turns body frames) {s : List Sign} {l : Text} {ls : List Text}
    (hg : g.marker = f.marker) (hs : (cut (Sign.rest body) s).1 = l :: ls) (hls : ∀ x ∈ ls, x = [])
    (hr : Blank (cut (Sign.rest body) s).2)
    (hheld : g.held.reverse.filter (!·.isEmpty) =
      f.held.reverse.filter (!·.isEmpty) ++ [l].filter (!·.isEmpty))
    (hp : (cut [] body).1 ≠ [] → l ≠ [] → f.afterMarker? l = none) :
    Account g turns (body ++ s) frames := by
  have hcut : cut [] (body ++ s) = ((cut [] body).1 ++ l :: ls, (cut (Sign.rest body) s).2) := by
    rw [cut_append, ← hs]
    rfl
  have hempty := filter_empty hls
  refine ⟨h.frames, ?_, fun s' hs' ↦ (h.past s' hs').congr hg, ?_, ?_⟩
  · rw [hheld, h.held, Sign.lines, Sign.lines, hcut]
    simp [List.filter_cons, hempty]
  · rw [Sign.rest, hcut]
    exact hr
  · rw [hcut, afterMarker?_congr hg]
    intro x hx hne
    cases hb : (cut [] body).1 with
    | nil =>
      rw [hb] at hx
      exact absurd (hls x hx) hne
    | cons y ys =>
      rw [hb, List.cons_append, List.tail_cons, List.mem_append, List.mem_cons] at hx
      obtain hx | rfl | hx := hx
      · exact h.present.plain x (by rw [hb]; exact hx) hne
      · exact hp (by simp [hb]) hne
      · exact absurd (hls x hx) hne

theorem flush (h : Account f turns body frames) {a : Text} {s : List Sign}
    (hg : g.marker = f.marker) (ha : Blank a) (hn : '\n' ∉ a)
    (hheld : g.held.reverse.filter (!·.isEmpty) = Sign.lines s)
    (hr : Blank (Sign.rest s)) (hs : ∀ l ∈ (cut [] s).1.tail, l = []) :
    Account g (turns ++ [body ++ a.map some]) s (frames ++ [f.flush.2]) := by
  have hbody : g.Settled (body ++ a.map some) := (h.present.blanks ha hn).congr hg
  refine ⟨?_, hheld, ?_, hr, fun l hl hne ↦ absurd (hs l hl) hne⟩
  · rw [List.map_append, List.map_append, h.frames]
    simp [Framer.flush, h.held, Sign.lines, cut_blanks hn]
  · exact List.forall_mem_append.2 ⟨fun s' hs' ↦ (h.past s' hs').congr hg, by simpa using hbody⟩

theorem takeLine (h : Account f turns body frames) {u v w : Text} (hu : '\n' ∉ u) (hv : Blank v)
    (hn : '\n' ∉ v) (hw : Blank w) :
    ∃ turns' body', Account (f.takeLine u).1 turns' body' (frames ++ (f.takeLine u).2.toList) ∧
      stream f.marker turns' body' =
        stream f.marker turns body ++ (u ++ v ++ '\n' :: w).map some := by
  unfold Framer.takeLine
  dsimp only
  split
  next rest he =>
    obtain ⟨z, hz, rfl⟩ := of_afterMarker?_eq_some he
    obtain ⟨a, b, ha, hb, hab⟩ := exists_trim u
    rw [hz] at hab
    have hu' : '\n' ∉ a ++ (f.marker ++ z ++ b) := hab ▸ hu
    simp only [List.mem_append, not_or] at hu'
    have htrim : trim z = trimStart z := by
      refine trimEnd_of_suffix (t := trimStart u) ?_
      have hsuffix : z <:+ trim u := hz ▸ List.suffix_append f.marker z
      exact (List.dropWhile_suffix _).trans hsuffix
    obtain ⟨ls, hls, hcut, hr⟩ := cut_line (t := []) (u := z) (v := b ++ v) (by simp [Blank])
      hu'.2.1.2 (blank_append.2 ⟨hb, hv⟩) (by simp [hu'.2.2, hn]) hw
    refine ⟨_, _, h.flush (a := a) (s := (z ++ (b ++ v) ++ '\n' :: w).map some) rfl ha hu'.1 ?_ hr
      ?_, ?_⟩
    · have hempty := filter_empty hls
      rw [Sign.lines, hcut, htrim]
      simp [Framer.flush, Framer.push, List.filter_cons, hempty]
    · rw [hcut]
      exact hls
    · rw [hab]
      simp [stream]
  next he =>
    obtain ⟨ls, hls, hcut, hr⟩ := cut_line h.present.rest hu hv hn hw
    refine ⟨turns, body ++ (u ++ v ++ '\n' :: w).map some, ?_, by simp [stream]⟩
    rw [Option.toList_none, List.append_nil]
    exact h.extend rfl hcut hls hr (by simp [Framer.push]) fun _ _ ↦ he

end Account

/-- The account with the fragment, which may be overlooked as a prompt only where it follows one. -/
structure Ledger (f : Framer) (signs : List Sign) (turns : List (List Sign)) (body : List Sign)
    (frames : List Frame) : Prop extends Account f turns body frames where
  signs : some '\n' :: signs = stream f.marker turns body ++ (f.fragment.getD []).map some
  fragment : '\n' ∉ f.fragment.getD [] ∧ trimStart (f.fragment.getD []) = f.fragment.getD []
  unseen : (cut [] body).1 ≠ [] → f.fragment.getD [] ≠ [] →
    f.afterMarker? (f.fragment.getD []) = none

theorem fragment_hold (f : Framer) (line : Text) : (f.hold line).fragment.getD [] = line := by
  cases line <;> rfl

theorem Account.takeFragment (h : Account f turns body frames) {signs : List Sign} {u : Text}
    (hu : '\n' ∉ u) (hs : some '\n' :: signs = stream f.marker turns body ++ u.map some) :
    ∃ turns' body',
      Ledger (f.takeFragment u).1 signs turns' body' (frames ++ (f.takeFragment u).2.toList) := by
  obtain ⟨a, ha, hau⟩ := exists_trimStart u
  have hu' : '\n' ∉ a ++ trimStart u := hau ▸ hu
  rw [List.mem_append, not_or] at hu'
  unfold Framer.takeFragment
  dsimp only
  split
  next rest he =>
    obtain ⟨z, hz, rfl⟩ := of_afterMarker?_eq_some he
    obtain ⟨b, hb, hbz⟩ := exists_trimStart z
    have hn : '\n' ∉ b ++ trimStart z := fun hm ↦ hu'.2 (hz ▸ List.mem_append_right _ (hbz ▸ hm))
    rw [List.mem_append, not_or] at hn
    have hcut : cut [] (b.map some) = ([], b) := cut_text hn.1 []
    have huz : u = a ++ (f.marker ++ (b ++ trimStart z)) := by
      rw [← hbz, ← hz]
      exact hau
    refine ⟨turns ++ [body ++ a.map some], b.map some, ?_, ?_, ?_, ?_⟩
    · refine h.flush (a := a) rfl ha hu'.1 ?_ ?_ ?_
      · rw [Sign.lines, hcut]
        rfl
      · rw [Sign.rest, hcut]
        exact hb
      · simp [hcut]
    · rw [fragment_hold, hs, huz]
      simp [stream, Framer.hold, Framer.flush]
    · rw [fragment_hold]
      exact ⟨hn.2, trimStart_trimStart z⟩
    · intro hne
      exact absurd (congrArg Prod.fst hcut) hne
  next he =>
    refine ⟨turns, body ++ a.map some, ⟨?_, ?_, fun s hs ↦ (h.past s hs).congr rfl, ?_⟩, ?_, ?_, ?_⟩
    · simpa using h.frames
    · rw [Sign.lines, cut_blanks hu'.1]
      exact h.held
    · exact (h.present.blanks ha hu'.1).congr rfl
    · have hau' : u.map some = a.map some ++ (trimStart u).map some := by
        rw [← List.map_append, ← hau]
      rw [fragment_hold, hs, hau']
      simp [stream, Framer.hold]
    · rw [fragment_hold]
      exact ⟨hu'.2, trimStart_trimStart u⟩
    · rw [fragment_hold]
      exact fun _ _ ↦ he

theorem foldl_output {σ α β : Type} {step : σ × List β → α → σ × List β}
    (h : ∀ s out a, step (s, out) a = ((step (s, []) a).1, out ++ (step (s, []) a).2))
    (l : List α) (s : σ) (out : List β) :
    l.foldl step (s, out) = ((l.foldl step (s, [])).1, out ++ (l.foldl step (s, [])).2) := by
  induction l generalizing s out with
  | nil => simp
  | cons a l ih =>
    rw [List.foldl_cons, List.foldl_cons, h, ih, ih _ (step (s, []) a).2, List.append_assoc]

theorem takeLines_cons (f : Framer) (line : Text) (rest : List Text) :
    f.takeLines (line :: rest) = (((f.takeLine line).1.takeLines rest).1,
      (f.takeLine line).2.toList ++ ((f.takeLine line).1.takeLines rest).2) :=
  foldl_output (fun _ _ _ ↦ rfl) rest (f.takeLine line).1 (f.takeLine line).2.toList

@[simp] theorem takeLines_marker (f : Framer) (lines : List Text) :
    (f.takeLines lines).1.marker = f.marker := by
  induction lines generalizing f with
  | nil => rfl
  | cons line rest ih => rw [takeLines_cons, ih, takeLine_marker]

@[simp] theorem takeFragment_marker (f : Framer) (line : Text) :
    (f.takeFragment line).1.marker = f.marker := by
  unfold takeFragment
  dsimp only
  split <;> rfl

theorem run_marker (f : Framer) (inputs : List Input) : (f.run inputs).1.marker = f.marker := by
  induction inputs generalizing f with
  | nil => rfl
  | cons i inputs ih =>
    refine (ih _).trans ?_
    cases i <;> simp [feed, beginTurn]

def takeText (f : Framer) (u t : Text) : Framer × List Frame :=
  let lines := (u ++ (splitBreaks t).headD []) :: (splitBreaks t).tail
  let (g, frames) := f.takeLines lines.dropLast
  let (g, frame) := g.takeFragment (lines.getLastD [])
  (g, frames ++ frame.toList)

theorem feed_eq (f : Framer) (t : Text) :
    f.feed t = { f with raw := f.raw ++ t, fragment := none }.takeText (f.fragment.getD []) t := rfl

theorem takeText_of_break {t p r : Text} (h : splitBreaks t = p :: splitBreaks r) (f : Framer)
    (u : Text) :
    f.takeText u t = (((f.takeLine (u ++ p)).1.takeText [] r).1,
      (f.takeLine (u ++ p)).2.toList ++ ((f.takeLine (u ++ p)).1.takeText [] r).2) := by
  obtain ⟨l, ls, hls⟩ := List.exists_cons_of_ne_nil (splitBreaks_ne_nil r)
  simp [takeText, h, hls, takeLines_cons]

theorem takeText_of_unbroken {t : Text} (h : splitBreaks t = [t]) (f : Framer) (u : Text) :
    f.takeText u t = ((f.takeFragment (u ++ t)).1, (f.takeFragment (u ++ t)).2.toList) := by
  simp [takeText, h, takeLines]

theorem takeText_cases (f : Framer) (u t : Text) :
    ('\n' ∉ t ∧ f.takeText u t =
        ((f.takeFragment (u ++ t)).1, (f.takeFragment (u ++ t)).2.toList)) ∨
      ∃ p br r, t = p ++ br ++ r ∧ '\n' ∉ p ∧ (br = ['\n'] ∨ br = ['\r', '\n']) ∧
        f.takeText u t = (((f.takeLine (u ++ p)).1.takeText [] (trimStart r)).1,
          (f.takeLine (u ++ p)).2.toList ++
            ((f.takeLine (u ++ p)).1.takeText [] (trimStart r)).2) := by
  obtain ⟨hn, he⟩ | ⟨p, br, r, ht, hp, hbr, he⟩ := splitBreaks_cases t
  · exact .inl ⟨hn, takeText_of_unbroken he f u⟩
  · exact .inr ⟨p, br, r, ht, hp, hbr, takeText_of_break he f u⟩

/-- A text is taken line by line. The blanks around a line feed are gone when the next line is
taken. -/
theorem takeText_induction {motive : Framer → Text → Text → Framer → List Frame → Prop}
    (last : ∀ (f : Framer) (u t : Text), '\n' ∉ t →
      motive f u t (f.takeFragment (u ++ t)).1 (f.takeFragment (u ++ t)).2.toList)
    (line : ∀ (f : Framer) (u p v w t : Text) (g : Framer) (frames : List Frame), '\n' ∉ p →
      Blank v → '\n' ∉ v → Blank w → motive (f.takeLine (u ++ p)).1 [] t g frames →
      motive f u (p ++ v ++ '\n' :: (w ++ t)) g ((f.takeLine (u ++ p)).2.toList ++ frames))
    (f : Framer) (u t : Text) : motive f u t (f.takeText u t).1 (f.takeText u t).2 := by
  refine splitBreaks_induction (motive := fun t pieces ↦ splitBreaks t = pieces →
    ∀ (f : Framer) (u : Text), motive f u t (f.takeText u t).1 (f.takeText u t).2) ?_ ?_ t rfl f u
  · intro t ht he f u
    rw [takeText_of_unbroken he]
    exact last f u t ht
  · intro p v w t hp hv hvn hw ih he f u
    rw [takeText_of_break he]
    exact line f u p v w t _ _ hp hv hvn hw (ih rfl _ [])

theorem Account.takeText (h : Account f turns body frames) {signs : List Sign} {u t : Text}
    (hu : '\n' ∉ u) (hs : some '\n' :: signs = stream f.marker turns body ++ (u ++ t).map some) :
    ∃ turns' body',
      Ledger (f.takeText u t).1 signs turns' body' (frames ++ (f.takeText u t).2) := by
  induction f, u, t using takeText_induction generalizing turns body frames with
  | last f u t ht => exact h.takeFragment (by simp [hu, ht]) hs
  | line f u p v w t g ended hp hv hvn hw ih =>
    obtain ⟨turns', body', h', hstream⟩ :=
      h.takeLine (u := u ++ p) (w := w) (by simp [hu, hp]) hv hvn hw
    obtain ⟨turns'', body'', h''⟩ := ih h' (by simp) (by
      rw [takeLine_marker, hstream, hs]
      simp)
    exact ⟨turns'', body'', by simpa using h''⟩

namespace Ledger

variable {signs : List Sign}

theorem feed (h : Ledger f signs turns body frames) (t : Text) :
    ∃ turns' body',
      Ledger (f.feed t).1 (signs ++ t.map some) turns' body' (frames ++ (f.feed t).2) := by
  have ha : Account { f with raw := f.raw ++ t, fragment := none } turns body frames :=
    ⟨h.frames, h.held, fun s hs ↦ (h.past s hs).congr rfl, h.present.congr rfl⟩
  rw [feed_eq]
  refine ha.takeText h.fragment.1 ?_
  rw [← List.cons_append, h.signs]
  simp

theorem turn (h : Ledger f signs turns body frames) :
    ∃ body', Ledger f.beginTurn (signs ++ [none]) turns body' frames := by
  have hcut : cut (Sign.rest body) ((f.fragment.getD []).map some ++ [none]) =
      ([f.fragment.getD []], []) := by
    rw [cut_append, cut_text h.fragment.1]
    simp [cut, trimStart_blank_append h.present.rest, h.fragment.2]
  refine ⟨body ++ ((f.fragment.getD []).map some ++ [none]), ?_, ?_, ?_, ?_⟩
  · refine h.extend rfl (congrArg Prod.fst hcut) (by simp) ?_ ?_ h.unseen
    · rw [hcut]
      simp [Blank]
    · cases hf : f.fragment <;> simp [beginTurn, hf]
  · rw [← List.cons_append, h.signs]
    simp [stream, beginTurn]
  · simp [beginTurn, trimStart]
  · simp [beginTurn]

theorem run (h : Ledger f signs turns body frames) (inputs : List Input) :
    ∃ turns' body', Ledger (f.run inputs).1 (signs ++ inputs.flatMap Input.signs) turns' body'
      (frames ++ (f.run inputs).2) := by
  induction inputs generalizing f signs turns body frames with
  | nil => exact ⟨turns, body, by simpa [Framer.run] using h⟩
  | cons i inputs ih =>
    cases i with
    | chunk t =>
      obtain ⟨turns', body', h'⟩ := h.feed t
      obtain ⟨turns'', body'', h''⟩ := ih h'
      exact ⟨turns'', body'', by simpa [Framer.run, take, Input.signs] using h''⟩
    | turn =>
      obtain ⟨body', h'⟩ := h.turn
      obtain ⟨turns'', body'', h''⟩ := ih h'
      exact ⟨turns'', body'', by simpa [Framer.run, take, Input.signs] using h''⟩

end Ledger

/-- Each frame of a framer has the lines between two markers of its stream, wherever the stream is
cut into pieces. -/
theorem ledger_run (prompt : Text) (inputs : List Input) :
    ∃ turns body, Ledger ((ofPrompt prompt).run inputs).1 (inputs.flatMap Input.signs) turns body
      ((ofPrompt prompt).run inputs).2 := by
  have h : Ledger (ofPrompt prompt) [] [] [some '\n'] [] := by
    refine ⟨⟨rfl, rfl, by simp, ?_, ?_⟩, rfl, ⟨by simp [ofPrompt], rfl⟩, by simp [ofPrompt]⟩
    · simp [Sign.rest, cut, Blank]
    · simp [cut]
  simpa using h.run inputs

end Prompter.Framer
