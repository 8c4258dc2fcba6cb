import Prompter.Proofs.Framer.Transcript
import Prompter.Proofs.Interpreter.Output

namespace Prompter

open Text Interpreter

/-- A line of a reply, with a line feed at its end or a carriage return and a line feed. It may be
blank, and it may name the prompt, but not at its beginning. -/
structure Respondent.Line where
  text : Text
  carriageReturn : Bool := false
  noBreak : '\n' ∉ text
  noMarker : ¬marker <+: text.trim

/-- What an interpreter says when it has received the lines, the last of which it answers. If there
are none, it is the greeting. The default prompt follows. -/
abbrev Respondent := List Text → List Respondent.Line

namespace Respondent

def Line.ending (l : Line) : Text := if l.carriageReturn then ['\r'] else []

theorem Line.blank_ending (l : Line) : Blank l.ending ∧ '\n' ∉ l.ending := by
  unfold Line.ending
  split
  · exact ⟨by simp [Blank, isBlank, blanks], by decide⟩
  · exact ⟨by simp [Blank], by simp⟩

def render (ls : List Line) : Text := ls.flatMap fun l ↦ l.text ++ l.ending ++ ['\n']

def texts (ls : List Line) : List Text := (ls.map fun l ↦ l.text.trim).filter (!·.isEmpty)

variable {lead : Text} (ls : List Line)

theorem cut_render (hl : Blank lead) (hn : '\n' ∉ lead) :
    (Sign.cut [] (('\n' :: (lead ++ render ls)).map some)).1.filter (!·.isEmpty) = texts ls ∧
      Blank (Sign.cut [] (('\n' :: (lead ++ render ls)).map some)).2 ∧
      (Sign.cut [] (('\n' :: (lead ++ render ls)).map some)).1 ≠ [] := by
  have hcut := Sign.cut_flatMap (fun l : Line ↦ l.noBreak) Line.blank_ending hl ls
  rw [List.map_cons, Sign.cut_break, List.map_append, Sign.cut_append, Sign.cut_text hn,
    List.nil_append, List.nil_append]
  exact ⟨hcut.1, hcut.2, List.cons_ne_nil _ _⟩

theorem not_marker_of_cut (hl : Blank lead) (hn : '\n' ∉ lead) :
    ∀ l ∈ (Sign.cut [] (('\n' :: (lead ++ render ls)).map some)).1, ¬marker <+: l := by
  intro l hmem hpre
  have hne : l ≠ [] := fun h ↦ marker_ne_nil (List.prefix_nil.1 (h ▸ hpre))
  have htext : l ∈ texts ls :=
    (cut_render ls hl hn).1 ▸ List.mem_filter.2 ⟨hmem, by simpa using hne⟩
  obtain ⟨line, -, rfl⟩ := List.mem_map.1 (List.mem_filter.1 htext).1
  exact line.noMarker hpre

end Respondent

namespace Framer

variable {f : Framer} {t lead : Text}

/-- Nothing is held back that a frame could have. -/
structure AllOut (f : Framer) : Prop where
  marker : f.marker = Interpreter.marker
  held : ∀ l ∈ f.held, l = []
  fragment : f.fragment = none

theorem AllOut.beginTurn (h : f.AllOut) : f.beginTurn = f :=
  beginTurn_eq (by simp [hasFragment, h.fragment])

theorem allOut_ofPrompt : (ofPrompt prompt).AllOut := ⟨rfl, by simp [ofPrompt], rfl⟩

theorem AllOut.feed_blank (h : f.AllOut) (ht : Blank t) (hn : '\n' ∉ t) :
    (f.feed t).1.AllOut ∧ (f.feed t).2 = [] := by
  have hmarker : { f with raw := f.raw ++ t, fragment := none }.afterMarker? [] = none := by
    rw [afterMarker?, h.marker]
    decide
  have hfeed : f.feed t = ({ f with raw := f.raw ++ t, fragment := none }, []) := by
    rw [feed_eq]
    obtain ⟨-, he⟩ | ⟨p, br, r, rfl, -, hbr, -⟩ :=
      takeText_cases { f with raw := f.raw ++ t, fragment := none } (f.fragment.getD []) t
    · rw [he, h.fragment, Option.getD_none, List.nil_append, takeFragment, trimStart_eq_nil ht]
      simp [hmarker, hold]
    · obtain rfl | rfl := hbr <;> simp at hn
  rw [hfeed]
  exact ⟨⟨h.marker, h.held, rfl⟩, rfl⟩

theorem AllOut.run_blank (h : f.AllOut) {chunks : List Text} (hb : Blank chunks.flatten)
    (hn : '\n' ∉ chunks.flatten) :
    (f.run (chunks.map .chunk)).1.AllOut ∧ (f.run (chunks.map .chunk)).2 = [] := by
  induction chunks generalizing f with
  | nil => exact ⟨h, rfl⟩
  | cons t chunks ih =>
    rw [List.flatten_cons] at hb hn
    obtain ⟨hf, hframes⟩ := h.feed_blank (blank_append.1 hb).1
      fun hc ↦ hn (List.mem_append_left _ hc)
    obtain ⟨hg, hmore⟩ := ih hf (blank_append.1 hb).2 fun hc ↦ hn (List.mem_append_right _ hc)
    refine ⟨hg, ?_⟩
    simp only [List.map_cons, Framer.run, Framer.take, hframes, List.nil_append]
    exact hmore

theorem AllOut.ledger (h : f.AllOut) : Ledger f [] [] [some '\n'] [] := by
  have hheld : f.held.reverse.filter (!·.isEmpty) = [] :=
    Sign.filter_empty fun l hl ↦ h.held l (List.mem_reverse.1 hl)
  refine ⟨⟨rfl, hheld, by simp, ?_, ?_⟩, ?_, ?_, ?_⟩
  · simp [Sign.rest, Sign.cut, Blank]
  · simp [Sign.cut]
  · simp [stream, h.fragment]
  · rw [h.fragment]
    exact ⟨by simp, rfl⟩
  · simp [h.fragment]

theorem AllOut.of_ledger {g : Framer} {signs body : List Sign} {turns : List (List Sign)}
    {frames : List Frame} (hl : Ledger g signs turns body frames)
    (hm : g.marker = Interpreter.marker) (hf : g.fragment ≠ some [])
    (hr : body ++ (g.fragment.getD []).map some = t.map some) (ht : Blank t) (hn : '\n' ∉ t) :
    g.AllOut := by
  have hsub {c : Char} (hc : some c ∈ body ++ (g.fragment.getD []).map some) : c ∈ t := by
    rw [hr] at hc
    simpa using hc
  have hnil : g.fragment.getD [] = [] := by
    rw [← hl.fragment.2]
    refine trimStart_eq_nil fun c hc ↦ ht c (hsub ?_)
    exact List.mem_append_right _ (List.mem_map_of_mem hc)
  have hheld := hl.held
  rw [hnil, List.map_nil, List.append_nil] at hr
  rw [hr, Sign.lines, Sign.cut_text hn] at hheld
  refine ⟨hm, fun l hmem ↦ ?_, ?_⟩
  · simpa using List.filter_eq_nil_iff.1 hheld l (List.mem_reverse.2 hmem)
  · cases hfragment : g.fragment with
    | none => rfl
    | some u =>
      rw [hfragment, Option.getD_some] at hnil
      exact absurd (hnil ▸ hfragment) hf

theorem turns_of_reply {g : Framer} {signs body : List Sign} {turns : List (List Sign)}
    {frames : List Frame} {rest : Text} (hledger : Ledger g signs turns body frames)
    (hm : g.marker = Interpreter.marker) (hl : Blank lead) (hn : '\n' ∉ lead)
    (ls : List Respondent.Line) (hr : Blank rest)
    (hsigns : signs = (lead ++ Respondent.render ls ++ (g.marker ++ rest)).map some) :
    turns = [('\n' :: (lead ++ Respondent.render ls)).map some] ∧
      body ++ (g.fragment.getD []).map some = rest.map some := by
  have hsolid : Solid g.marker := hm ▸ Interpreter.solid_marker
  obtain ⟨-, hblank, hne⟩ := Respondent.cut_render ls hl hn
  have hplain := Respondent.not_marker_of_cut ls hl hn
  have hhead : ∀ c ∈ rest.head?, isBlank c = true := fun c hc ↦ hr c (List.mem_of_head? hc)
  have hstream : (('\n' :: (lead ++ Respondent.render ls)) ++ (g.marker ++ rest)).map some =
      stream g.marker turns body ++ (g.fragment.getD []).map some := by
    rw [← hledger.signs, hsigns]
    rfl
  cases turns with
  | nil =>
    -- the prompt would have been missed, though it begins a line
    have hclean := hledger.clean
    rw [show body ++ _ = _ from hstream.symm, List.map_append, List.map_append] at hclean
    exact (hclean.not_solid hsolid hne hblank (by rwa [Sign.text_map_some])).elim
  | cons s turns =>
    obtain ⟨s, x, rfl, hx, hmore⟩ := exists_of_stream hstream
    have hsettled := hledger.past _ List.mem_cons_self
    obtain ⟨rfl, rfl⟩ := Sign.eq_of_solid hsolid hx.symm hsettled.rest hblank
      (hsettled.not_opens hsolid) (hm ▸ hplain) hne hhead
    cases turns with
    | nil => exact ⟨rfl, hmore.symm⟩
    | cons s turns =>
      obtain ⟨s, y, -, rfl, -⟩ := exists_of_stream hmore
      exact absurd hr (hsolid.not_blank ⟨s, y, by simp⟩)

/-- One frame comes of a reply with the prompt after it, whether or not the blank at the end of the
prompt has come in as well. -/
theorem AllOut.run_reply (h : f.AllOut) (hl : Blank lead) (hn : '\n' ∉ lead)
    (ls : List Respondent.Line) {rest : Text} (hr : Blank rest) (hrn : '\n' ∉ rest)
    {chunks : List Text}
    (hc : chunks.flatten = lead ++ Respondent.render ls ++ (Interpreter.marker ++ rest)) :
    ∃ frame, (f.run (chunks.map .chunk)).2 = [frame] ∧ frame.lines = Respondent.texts ls ∧
      (f.run (chunks.map .chunk)).1.AllOut := by
  obtain ⟨turns, body, hledger⟩ := h.ledger.run (chunks.map .chunk)
  have hmarker : (f.run (chunks.map .chunk)).1.marker = Interpreter.marker :=
    (run_marker _ _).trans h.marker
  have hfragment : (f.run (chunks.map .chunk)).1.fragment ≠ some [] :=
    fragment_run (by simp [h.fragment])
  generalize f.run (chunks.map .chunk) = result at hledger hmarker hfragment ⊢
  obtain ⟨g, frames⟩ := result
  obtain ⟨rfl, hbody⟩ := turns_of_reply hledger hmarker hl hn ls hr (by
    rw [hmarker, ← hc, List.nil_append, List.flatMap_map, List.map_flatten]
    rfl)
  obtain ⟨frame, rfl, hframe⟩ := List.map_eq_singleton_iff.1 hledger.frames
  refine ⟨frame, rfl, ?_, .of_ledger hledger hmarker hfragment hbody hr hrn⟩
  rw [hframe]
  exact (Respondent.cut_render ls hl hn).1

end Framer

end Prompter
