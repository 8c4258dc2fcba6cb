import Prompter.Proofs.Framer.Missed
import Prompter.Proofs.Text.Occurrence

namespace Prompter

open Text Sign

namespace Framer.Transcript

/-- A line of a reply, with the blanks and blank lines in front of it. -/
structure Line (marker : Text) where
  before : Text := []
  text : Text
  carriageReturn : Bool := false
  blank_before : Blank before
  noBreak : '\n' ∉ text
  visible : ¬ Blank text
  noMarker : ¬ marker <+: trim text

/-- A reply, with the blanks and blank lines between its last line and the prompt. -/
structure Reply (marker : Text) where
  lines : List (Line marker)
  after : Text := []
  ne_nil : lines ≠ []
  blank_after : Blank after

variable {marker : Text}

def Line.ending (l : Line marker) : Text := if l.carriageReturn then ['\r'] else []

def Line.render (l : Line marker) : Text := l.before ++ (l.text ++ l.ending ++ ['\n'])

def Reply.render (r : Reply marker) : Text := r.lines.flatMap Line.render ++ r.after

def Reply.texts (r : Reply marker) : List Text := r.lines.map fun l ↦ l.text.trim

end Framer.Transcript

open Framer.Transcript in
/-- The text of all replies, each of which begins on the line of the prompt before it. -/
def Framer.transcript (prompt : Text) (replies : List (Reply prompt.trimEnd)) : Text :=
  marked prompt (replies.map Reply.render)

namespace Framer.Transcript

variable {marker lead t : Text}

theorem Line.trim_ne_nil (l : Line marker) : l.text.trim ≠ [] := by
  intro h
  obtain ⟨a, b, ha, hb, he⟩ := exists_trim l.text
  rw [h] at he
  exact l.visible (he ▸ blank_append.2 ⟨ha, hb⟩)

theorem Line.cut_render (l : Line marker) (ht : Blank t) :
    ∃ ls, (∀ x ∈ ls, x = []) ∧ cut t (l.render.map some) = (ls ++ [l.text.trim], []) := by
  obtain ⟨hls, hb⟩ := cut_blank ht ((text_map_some l.before).symm ▸ l.blank_before)
  have hending : Blank l.ending ∧ '\n' ∉ l.ending := by
    unfold Line.ending
    split
    · simp [Blank, isBlank, blanks]
    · simp [Blank]
  have hn : '\n' ∉ l.text ++ l.ending := by simp [l.noBreak, hending.2]
  refine ⟨_, hls, ?_⟩
  rw [Line.render, List.map_append, cut_append, List.map_append, cut_append, cut_text hn]
  simp [cut, trim_blank_append hb, trim_append_blank hending.1]

theorem cut_lines (ls : List (Line marker)) (ht : Blank t) :
    (cut t ((ls.flatMap Line.render).map some)).1.filter (!·.isEmpty) =
        ls.map (fun l ↦ l.text.trim) ∧
      Blank (cut t ((ls.flatMap Line.render).map some)).2 := by
  induction ls generalizing t with
  | nil => exact ⟨rfl, ht⟩
  | cons l ls ih =>
    obtain ⟨es, hes, hl⟩ := l.cut_render ht
    have hnil : Blank [] := by simp [Blank]
    obtain ⟨hlines, hrest⟩ := ih hnil
    rw [List.flatMap_cons, List.map_append, cut_append, hl]
    refine ⟨?_, hrest⟩
    simp [hlines, filter_empty hes, l.trim_ne_nil]

theorem Reply.cut_render (r : Reply marker) (hl : Blank lead) :
    Sign.lines ((lead ++ r.render).map some) = r.texts ∧
      Blank (Sign.rest ((lead ++ r.render).map some)) := by
  have hnil : Blank [] := by simp [Blank]
  obtain ⟨hes, hb⟩ := cut_blank hnil ((text_map_some lead).symm ▸ hl)
  obtain ⟨hlines, hrest⟩ := cut_lines r.lines hb
  obtain ⟨hes', hb'⟩ := cut_blank hrest ((text_map_some r.after).symm ▸ r.blank_after)
  rw [Sign.lines, Sign.rest, Reply.render, List.map_append, cut_append, List.map_append,
    cut_append]
  refine ⟨?_, hb'⟩
  simp [filter_empty hes, filter_empty hes', hlines, Reply.texts]

theorem Reply.plain (r : Reply marker) (hm : marker ≠ []) (hl : Blank lead) :
    (cut [] ((lead ++ r.render).map some)).1 ≠ [] ∧
      ∀ l ∈ (cut [] ((lead ++ r.render).map some)).1, ¬ marker <+: l := by
  obtain ⟨hlines, -⟩ := r.cut_render hl
  unfold Sign.lines at hlines
  constructor
  · intro h
    rw [h] at hlines
    exact r.ne_nil (List.map_eq_nil_iff.1 hlines.symm)
  · intro l hmem hpre
    have hne : l ≠ [] := fun h ↦ hm (List.prefix_nil.1 (h ▸ hpre))
    have htext : l ∈ r.texts := hlines ▸ List.mem_filter.2 ⟨hmem, by simpa using hne⟩
    obtain ⟨line, -, rfl⟩ := List.mem_map.1 htext
    exact line.noMarker hpre

end Framer.Transcript

namespace Sign

variable {m s s' x x' y z : Text}

theorem cut_append_text (s y : Text) : cut [] ((s ++ y).map some) =
    ((cut [] (s.map some)).1 ++ (cut (rest (s.map some)) (y.map some)).1,
      (cut (rest (s.map some)) (y.map some)).2) := by
  rw [List.map_append, cut_append]
  rfl

theorem exists_line_of_solid (hm : Solid m) (hs : Blank (rest (s.map some)))
    (hr : Blank (rest ((s ++ y).map some))) (hy : y ≠ []) (h : y ++ (m ++ z) = m ++ x) :
    ∃ l ∈ (cut (rest (s.map some)) (y.map some)).1, m <+: l ∧
      ((∀ c ∈ x.head?, isBlank c = true) → Opens m l) := by
  rw [rest, cut_append_text] at hr
  obtain ⟨t, hmt, -⟩ | ⟨t, rfl, rfl⟩ := List.append_eq_append_iff.1 h
  · -- `y` ends within the marker, which has something visible at its start and no line feed
    have hn : '\n' ∉ y := fun hmem ↦ hm.noBreak (hmt ▸ List.mem_append_left t hmem)
    rw [cut_text hn] at hr
    obtain ⟨c, hc, hb⟩ := hm.starts
    rw [hmt, List.head?_append_of_ne_nil _ hy] at hc
    have hblank := (blank_append.1 hr).2 c (List.mem_of_head? hc)
    rw [hb] at hblank
    cases hblank
  · have hcut := cut_solid hm hs (t.map some)
    rw [← List.map_append, text_map_some] at hcut
    obtain ⟨l, hl, hpre, ho⟩ | hcut := hcut
    · exact ⟨l, hl, hpre, fun hx ↦ ho fun c hc ↦ hx c (List.mem_head?_append_of_mem_head? hc)⟩
    · rw [hcut] at hr
      exact absurd (blank_append.1 hr).2 (hm.not_blank (List.prefix_append m t).isInfix)

/-- A text is cut in one way only where the marker begins a line, if on one side no line begins
with the marker and on the other no line but the first. -/
theorem eq_of_solid (hm : Solid m) (h : s ++ (m ++ x) = s' ++ (m ++ x'))
    (hs : Blank (rest (s.map some))) (hs' : Blank (rest (s'.map some)))
    (hl : ∀ l ∈ (cut [] (s.map some)).1.tail, ¬ Opens m l)
    (hl' : ∀ l ∈ (cut [] (s'.map some)).1, ¬ m <+: l) (hne : (cut [] (s'.map some)).1 ≠ [])
    (hx' : ∀ c ∈ x'.head?, isBlank c = true) : s = s' ∧ x = x' := by
  obtain ⟨y, rfl, hy⟩ | ⟨y, rfl, hy⟩ := List.append_eq_append_iff.1 h
  · cases y with
    | nil => exact ⟨(List.append_nil s).symm, List.append_cancel_left hy⟩
    | cons c y =>
      obtain ⟨l, hmem, hpre, -⟩ := exists_line_of_solid hm hs hs' (List.cons_ne_nil c y) hy.symm
      refine absurd hpre (hl' l ?_)
      rw [cut_append_text]
      exact List.mem_append_right _ hmem
  · cases y with
    | nil => exact ⟨List.append_nil s', (List.append_cancel_left hy).symm⟩
    | cons c y =>
      obtain ⟨l, hmem, -, ho⟩ := exists_line_of_solid hm hs' hs (List.cons_ne_nil c y) hy.symm
      refine absurd (ho hx') (hl l ?_)
      obtain ⟨l₀, ls, hls⟩ := List.exists_cons_of_ne_nil hne
      rw [cut_append_text, hls]
      exact List.mem_append_right ls hmem

end Sign

namespace Framer

variable {f : Framer} {turns : List (List Sign)} {body : List Sign} {marker lead u : Text}

theorem Settled.not_opens {s : List Sign} (h : f.Settled s) (hm : Solid f.marker) :
    ∀ l ∈ (cut [] s).1.tail, ¬ Opens f.marker l :=
  fun l hl ho ↦ afterMarker?_ne_none ho (h.plain l hl (ne_nil_of_opens hm ho))

theorem exists_of_stream {m t : Text} {s r : List Sign}
    (h : t.map some = stream m (s :: turns) body ++ r) :
    ∃ s' x, s = s'.map some ∧ t = s' ++ (m ++ x) ∧ x.map some = stream m turns body ++ r := by
  have hsplit : t.map some = s ++ (m.map some ++ (stream m turns body ++ r)) := by
    rw [h]
    simp [stream]
  obtain ⟨s', y, rfl, rfl, hy⟩ := List.map_eq_append_iff.1 hsplit
  obtain ⟨m', x, rfl, hm, hx⟩ := List.map_eq_append_iff.1 hy
  obtain rfl := List.map_injective_iff.2 (fun _ _ ↦ Option.some.inj) hm
  exact ⟨s', x, rfl, rfl, hx⟩

open Transcript in
/-- The framer ends a turn at every prompt of a transcript and nowhere else. -/
theorem turns_of_transcript (hm : Solid f.marker) {b : Text} (hb : Blank b) (hne : b ≠ [])
    (replies : List (Reply marker)) (hf : f.marker = marker) (hl : Blank lead)
    (h : (lead ++ marked (f.marker ++ b) (replies.map Reply.render)).map some =
      stream f.marker turns body ++ u.map some)
    (hturns : ∀ s ∈ turns, f.Settled s) (hclean : f.Clean (body ++ u.map some)) :
    turns.map Sign.lines = replies.map Reply.texts ∧ Blank u := by
  have hhead (t : Text) : ∀ c ∈ (b ++ t).head?, isBlank c = true := by
    obtain ⟨c, b, rfl⟩ := List.exists_cons_of_ne_nil hne
    intro d hd
    obtain rfl : c = d := by simpa using hd
    exact hb c List.mem_cons_self
  -- what stands before a reply is blank: the line feed at the beginning or the end of a prompt
  induction replies generalizing lead turns with
  | nil =>
    rw [List.map_nil, marked, List.flatMap_nil, List.append_nil] at h
    cases turns with
    | nil =>
      refine ⟨rfl, fun c hc ↦ hl c ?_⟩
      have hmem : some c ∈ lead.map some := by
        rw [h]
        exact List.mem_append_right _ (List.mem_map_of_mem hc)
      simpa using hmem
    | cons s turns =>
      obtain ⟨s, x, -, rfl, -⟩ := exists_of_stream h
      exact absurd hl (hm.not_blank ⟨s, x, by simp⟩)
  | cons r replies ih =>
    obtain ⟨hlines, hrest⟩ := r.cut_render hl
    obtain ⟨hsome, hplain⟩ := r.plain (hf ▸ hm.ne_nil) hl
    have htext : lead ++ marked (f.marker ++ b) ((r :: replies).map Reply.render) =
        (lead ++ r.render) ++
          (f.marker ++ (b ++ marked (f.marker ++ b) (replies.map Reply.render))) := by
      rw [List.map_cons, marked_cons]
      simp
    rw [htext] at h
    cases turns with
    | nil =>
      have hbody : body ++ u.map some = (lead ++ r.render).map some ++ (f.marker.map some ++
          (b ++ marked (f.marker ++ b) (replies.map Reply.render)).map some) := by
        rw [← List.map_append, ← List.map_append]
        exact h.symm
      rw [hbody] at hclean
      refine (hclean.not_solid hm hsome hrest ?_).elim
      rw [text_map_some]
      exact hhead _
    | cons s turns =>
      obtain ⟨s, x, rfl, hx, hmore⟩ := exists_of_stream h
      have hsettled := hturns _ List.mem_cons_self
      obtain ⟨rfl, rfl⟩ := eq_of_solid hm hx.symm hsettled.rest hrest (hsettled.not_opens hm)
        (hf ▸ hplain) hsome (hhead _)
      obtain ⟨hmap, hu⟩ := ih hb hmore fun s' hs' ↦ hturns s' (List.mem_cons_of_mem _ hs')
      exact ⟨by rw [List.map_cons, List.map_cons, hlines, hmap], hu⟩

def Input.text : Input → Text
  | .chunk t => t
  | .turn => []

/-- Turns come only where no line has begun. -/
def AtRest (f : Framer) : List Input → Prop
  | [] => True
  | i :: inputs => (i = .turn → f.hasFragment = false) ∧ AtRest (f.take i).1 inputs

instance decidableAtRest : ∀ (f : Framer) (inputs : List Input), Decidable (f.AtRest inputs)
  | _, [] => .isTrue trivial
  | f, i :: inputs =>
    have := decidableAtRest (f.take i).1 inputs
    inferInstanceAs (Decidable (_ ∧ _))

theorem beginTurn_eq (h : f.hasFragment = false) : f.beginTurn = f := by
  have hnone : f.fragment = none := by simpa [hasFragment] using h
  obtain ⟨marker, held, fragment, raw⟩ := f
  obtain rfl : fragment = none := hnone
  rfl

theorem AtRest.run_eq {inputs : List Input} (h : f.AtRest inputs) :
    ∃ chunks : List Text, chunks.flatten = inputs.flatMap Input.text ∧
      f.run inputs = f.run (chunks.map .chunk) := by
  induction inputs generalizing f with
  | nil => exact ⟨[], rfl, rfl⟩
  | cons i inputs ih =>
    obtain ⟨chunks, hchunks, hrun⟩ := ih h.2
    cases i with
    | chunk t => exact ⟨t :: chunks, by simp [hchunks, Input.text], by simp [run, hrun]⟩
    | turn =>
      refine ⟨chunks, by simp [hchunks, Input.text], ?_⟩
      have hf : f.take .turn = (f, []) := by rw [take, beginTurn_eq (h.1 rfl)]
      rw [hf] at hrun
      rw [run, hf]
      exact hrun

theorem fragment_takeFragment (f : Framer) (line : Text) :
    (f.takeFragment line).1.fragment ≠ some [] := by
  have hhold (g : Framer) (t : Text) : (g.hold t).fragment ≠ some [] := by
    cases t <;> simp [hold]
  unfold takeFragment
  dsimp only
  split
  · exact hhold _ _
  · exact hhold _ _

theorem fragment_run {inputs : List Input} (h : f.fragment ≠ some []) :
    (f.run inputs).1.fragment ≠ some [] := by
  induction inputs generalizing f with
  | nil => exact h
  | cons i inputs ih =>
    refine ih ?_
    cases i with
    | chunk t => exact fragment_takeFragment _ _
    | turn => simp [beginTurn]

theorem exists_blank_of_prompt {prompt : Text} (hn : '\n' ∉ prompt)
    (hs : ∃ c, prompt.head? = some c ∧ isBlank c = false)
    (he : ∃ c, prompt.getLast? = some c ∧ isBlank c = true) :
    Solid prompt.trimEnd ∧ ∃ b, Blank b ∧ b ≠ [] ∧ prompt = prompt.trimEnd ++ b := by
  obtain ⟨d, hd, hblank⟩ := he
  obtain ⟨p, rfl⟩ := List.getLast?_eq_some_iff.1 hd
  have hlast : Blank [d] := by simpa [Blank] using hblank
  obtain ⟨b, hb, hp⟩ := exists_trimEnd p
  have hbd : Blank (b ++ [d]) := blank_append.2 ⟨hb, hlast⟩
  have hprompt : p ++ [d] = trimEnd p ++ (b ++ [d]) := by
    rw [← List.append_assoc, ← hp]
  rw [trimEnd_append_blank hlast]
  refine ⟨⟨?_, trimEnd_of_suffix (List.suffix_refl _), fun hmem ↦ hn ?_⟩, b ++ [d], hbd,
    by simp, hprompt⟩
  · obtain ⟨c, hc, hcb⟩ := hs
    refine ⟨c, ?_, hcb⟩
    rw [hprompt, List.head?_append] at hc
    cases hm : (trimEnd p).head? with
    | some c' => simpa [hm] using hc
    | none =>
      rw [hm, Option.none_or] at hc
      have hcb' := hbd c (List.mem_of_head? hc)
      rw [hcb] at hcb'
      cases hcb'
  · rw [hprompt]
    exact List.mem_append_left _ hmem

open Transcript in
/-- Each frame has the lines of one reply, in order, and nothing is kept. -/
theorem run_transcript (prompt : Text) (hn : '\n' ∉ prompt)
    (hs : ∃ c, prompt.head? = some c ∧ isBlank c = false)
    (he : ∃ c, prompt.getLast? = some c ∧ isBlank c = true)
    (replies : List (Reply prompt.trimEnd)) (inputs : List Input)
    (ht : inputs.flatMap Input.text = transcript prompt replies)
    (hr : (ofPrompt prompt).AtRest inputs) :
    ((ofPrompt prompt).run inputs).2.map Frame.lines = replies.map Reply.texts ∧
      ((ofPrompt prompt).run inputs).1.hasFragment = false := by
  obtain ⟨chunks, hchunks, hrun⟩ := hr.run_eq
  obtain ⟨hm, b, hb, hne, hp⟩ := exists_blank_of_prompt hn hs he
  obtain ⟨turns, body, hl⟩ := ledger_run prompt (chunks.map .chunk)
  have hmarker := run_marker (ofPrompt prompt) (chunks.map .chunk)
  have hfragment : ((ofPrompt prompt).run (chunks.map .chunk)).1.fragment ≠ some [] :=
    fragment_run (by simp [ofPrompt])
  rw [hrun]
  generalize (ofPrompt prompt).run (chunks.map .chunk) = result at hl hmarker hfragment ⊢
  obtain ⟨f, frames⟩ := result
  change f.marker = prompt.trimEnd at hmarker
  have hsigns : (['\n'] ++ marked (f.marker ++ b) (replies.map Reply.render)).map some =
      stream f.marker turns body ++ (f.fragment.getD []).map some := by
    have htext : marked (f.marker ++ b) (replies.map Reply.render) = chunks.flatten := by
      rw [hchunks, ht, transcript, hmarker]
      exact congrArg (marked · _) hp.symm
    have hflat : (chunks.map Input.chunk).flatMap Input.signs = chunks.flatten.map some := by
      rw [List.flatMap_map, List.map_flatten]
      rfl
    have hstream := hl.signs
    rw [hflat, ← htext] at hstream
    exact hstream
  obtain ⟨hlines, hu⟩ := turns_of_transcript (hmarker ▸ hm) hb hne replies hmarker
    (by simp [Blank, isBlank, blanks]) hsigns hl.past hl.clean
  refine ⟨hl.frames.trans hlines, ?_⟩
  have hnil : f.fragment.getD [] = [] := hl.fragment.2.symm.trans (trimStart_eq_nil hu)
  cases hf : f.fragment with
  | none => simp [hasFragment, hf]
  | some u =>
    rw [hf, Option.getD_some] at hnil
    exact absurd (hnil ▸ hf) hfragment

def twoReplies : List (Transcript.Reply (trimEnd "HWhile> ".toList)) :=
  [{ lines :=
      [⟨[], "one", true, by decide, by decide, by decide, by decide⟩,
        ⟨"\n  ", "see HWhile> ", false, by decide, by decide, by decide, by decide⟩]
     ne_nil := by decide
     blank_after := by decide },
   { lines := [⟨" ", "three", false, by decide, by decide, by decide, by decide⟩]
     after := "\n"
     ne_nil := by decide
     blank_after := by decide }]

/-- They arrive cut between the characters of a line break and within a prompt. -/
def cutReplies : List Input :=
  [.chunk "on", .chunk "e\x0d", .chunk "\n\n ", .turn, .chunk "", .chunk " see HWhile> \nHW",
    .chunk "hile>", .turn, .chunk "  thr", .chunk "ee\n\nHWhile> "]

theorem run_transcript_two :
    cutReplies.flatMap Input.text = transcript "HWhile> " twoReplies ∧
      (ofPrompt "HWhile> ").AtRest cutReplies ∧
      ((ofPrompt "HWhile> ").run cutReplies).2.map Frame.lines =
        ([["one", "see HWhile>"], ["three"]] : List (List Text)) := by
  have ht : cutReplies.flatMap Input.text = transcript "HWhile> " twoReplies := by decide
  have hr : (ofPrompt "HWhile> ").AtRest cutReplies := by decide +kernel
  exact ⟨ht, hr, (run_transcript "HWhile> " (by decide) ⟨'H', by decide⟩ ⟨' ', by decide⟩
    twoReplies cutReplies ht hr).1⟩

end Framer

end Prompter
