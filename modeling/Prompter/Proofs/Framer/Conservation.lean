import Prompter.Proofs.Framer.Transcript

namespace Prompter

open Text

/-- The lines of a turn with the marker that has ended it. -/
def Frame.ended (marker : Text) (frame : Frame) : Text := frame.lines.flatten ++ marker

namespace Framer

variable {f g : Framer} {seen seen' : Text} {frames : List Frame}

def kept (f : Framer) : Text := f.held.reverse.flatten ++ f.fragment.getD []

/-- What a framer has become, and has given out, when it has taken in `text` and has gone through
`seen`. A piece of output is taken in as a whole before the framer goes through its lines. -/
structure Conserves (f : Framer) (text seen : Text) (g : Framer) (frames : List Frame) : Prop where
  marker : g.marker = f.marker
  raw : frames.flatMap Frame.raw ++ g.raw = f.raw ++ text
  content : visible (frames.flatMap (Frame.ended f.marker) ++ g.kept) = visible (f.kept ++ seen)

namespace Conserves

theorem refl (f : Framer) : Conserves f [] [] f [] := ⟨rfl, by simp, by simp⟩

theorem trans {h : Framer} {text text' : Text} {more : List Frame}
    (hg : Conserves f text seen g frames) (hh : Conserves g text' seen' h more) :
    Conserves f (text ++ text') (seen ++ seen') h (frames ++ more) := by
  refine ⟨hh.marker.trans hg.marker, ?_, ?_⟩
  · rw [List.flatMap_append, List.append_assoc, hh.raw, ← List.append_assoc, hg.raw,
      List.append_assoc]
  · have hmore := hh.content
    have hframes := hg.content
    rw [hg.marker] at hmore
    simp only [visible_append, List.flatMap_append, List.append_assoc] at hmore hframes ⊢
    rw [hmore, ← List.append_assoc, hframes, List.append_assoc]

/-- Blanks do not count. -/
theorem congr {text : Text} (h : Conserves f text seen g frames)
    (hs : seen.visible = seen'.visible) : Conserves f text seen' g frames :=
  ⟨h.marker, h.raw, by rw [h.content, visible_append, hs, ← visible_append]⟩

end Conserves

theorem push_conserves (hf : f.fragment = none) (line : Text) :
    Conserves f [] line (f.push line) [] :=
  ⟨rfl, by simp [push], by simp [kept, push, hf]⟩

theorem hold_conserves (hf : f.fragment = none) (line : Text) :
    Conserves f [] line (f.hold line) [] := by
  refine ⟨rfl, by simp [hold], ?_⟩
  rw [kept, kept, fragment_hold, hf]
  simp [hold]

theorem flush_conserves (hf : f.fragment = none) :
    Conserves f [] f.marker f.flush.1 [f.flush.2] := by
  refine ⟨rfl, by simp [flush], ?_⟩
  rw [List.flatMap_singleton, Frame.ended, flush, List.flatten_filter_not_isEmpty]
  simp [kept, hf]

theorem visible_of_afterMarker? {line rest : Text} (h : f.afterMarker? line = some rest) :
    visible (f.marker ++ rest) = visible line := by
  obtain ⟨z, rfl, rfl⟩ := of_afterMarker?_eq_some h
  rw [visible_append, visible_append, visible_trimStart]

theorem takeLine_conserves (hf : f.fragment = none) (line : Text) :
    Conserves f [] line (f.takeLine line).1 (f.takeLine line).2.toList := by
  unfold takeLine
  dsimp only
  split
  next rest he =>
    refine ((flush_conserves hf).trans (push_conserves (f := f.flush.1) hf rest)).congr ?_
    rw [visible_of_afterMarker? he, visible_trim]
  next => exact (push_conserves hf _).congr (visible_trim line)

theorem takeFragment_conserves (hf : f.fragment = none) (line : Text) :
    Conserves f [] line (f.takeFragment line).1 (f.takeFragment line).2.toList := by
  unfold takeFragment
  dsimp only
  split
  next rest he =>
    refine ((flush_conserves hf).trans (hold_conserves (f := f.flush.1) hf rest)).congr ?_
    rw [visible_of_afterMarker? he, visible_trimStart]
  next => exact (hold_conserves hf _).congr (visible_trimStart line)

@[simp] theorem takeLine_fragment (f : Framer) (line : Text) :
    (f.takeLine line).1.fragment = f.fragment := by
  unfold takeLine
  dsimp only
  split <;> rfl

theorem takeText_conserves (hf : f.fragment = none) (u t : Text) :
    Conserves f [] (u ++ t) (f.takeText u t).1 (f.takeText u t).2 := by
  induction f, u, t using takeText_induction with
  | last f u t => exact takeFragment_conserves hf (u ++ t)
  | line f u p v w t g frames _ hv _ hw ih =>
    have hmore := ih ((takeLine_fragment f _).trans hf)
    refine ((takeLine_conserves hf (u ++ p)).trans hmore).congr ?_
    have hbreak : visible ('\n' :: (w ++ t)) = visible t := by
      change visible (w ++ t) = visible t
      rw [visible_append, visible_of_blank hw, List.nil_append]
    simp only [List.nil_append, visible_append, visible_of_blank hv, hbreak,
      List.append_assoc]

theorem take_conserves (f : Framer) (i : Input) :
    Conserves f i.text i.text (f.take i).1 (f.take i).2 := by
  cases i with
  | chunk t =>
    have h := takeText_conserves (f := { f with raw := f.raw ++ t, fragment := none }) rfl
      (f.fragment.getD []) t
    rw [← feed_eq] at h
    refine ⟨h.marker, h.raw.trans (List.append_nil _), h.content.trans ?_⟩
    simp [kept, Input.text]
  | turn =>
    refine ⟨rfl, by simp [take, beginTurn, Input.text], ?_⟩
    cases hf : f.fragment <;> simp [take, beginTurn, kept, Input.text, hf]

theorem conserves_run (f : Framer) (inputs : List Input) :
    Conserves f (inputs.flatMap Input.text) (inputs.flatMap Input.text) (f.run inputs).1
      (f.run inputs).2 := by
  induction inputs generalizing f with
  | nil => exact .refl f
  | cons i inputs ih => exact (take_conserves f i).trans (ih _)

/-- All that has come in has gone into frames or is still there, in order and once. -/
theorem run_conserves (prompt : Text) (inputs : List Input) :
    ((ofPrompt prompt).run inputs).2.flatMap Frame.raw ++ ((ofPrompt prompt).run inputs).1.raw =
        inputs.flatMap Input.text ∧
      visible (((ofPrompt prompt).run inputs).2.flatMap (Frame.ended prompt.trimEnd) ++
          ((ofPrompt prompt).run inputs).1.kept) =
        visible (inputs.flatMap Input.text) := by
  have h := conserves_run (ofPrompt prompt) inputs
  exact ⟨h.raw, h.content⟩

end Framer

end Prompter
