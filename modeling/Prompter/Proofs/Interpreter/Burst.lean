import Prompter.Proofs.Framer.Transcript
import Prompter.Proofs.Interpreter.Output

namespace Prompter

open Text Interpreter

def Interpreter.burst (replies : List (List Text)) : Text :=
  replies.flatMap fun reply ↦ reply.flatMap (· ++ ['\n']) ++ prompt

namespace Framer

/-- The turns that a framer makes of replies, and the fragment that it is left with, where a prompt
has come after the lines of `turn` and then, on its line, `line`. The prompt of an empty reply is
taken for the beginning of the next line. -/
def joined (line : Text) (turn : List Text) : List (List Text) → List (List Text) × Text
  | [] => ([turn], line)
  | [] :: replies => joined (line ++ prompt) turn replies
  | (l :: ls) :: replies =>
    (turn :: (joined [] ((line ++ l) :: ls) replies).1, (joined [] ((line ++ l) :: ls) replies).2)

theorem length_joined (line : Text) (turn : List Text) (replies : List (List Text)) :
    (joined line turn replies).1.length = (replies.filter (!·.isEmpty)).length + 1 := by
  induction replies generalizing line turn with
  | nil => rfl
  | cons reply replies ih =>
    cases reply with
    | nil => simp [joined, ih]
    | cons l ls => simp [joined, ih]

theorem joined_of_ne_nil {turn : List Text} {replies : List (List Text)}
    (h : ∀ reply ∈ replies, reply ≠ []) : joined [] turn replies = (turn :: replies, []) := by
  induction replies generalizing turn with
  | nil => rfl
  | cons reply replies ih =>
    rw [List.forall_mem_cons] at h
    obtain ⟨l, ls, rfl⟩ := List.exists_cons_of_ne_nil h.1
    simp [joined, ih h.2]

variable {f : Framer} {line l t : Text} {turn ls : List Text} {replies : List (List Text)}

theorem takeText_fragment (hn : '\n' ∉ t) (u : Text) :
    f.takeText u t = ((f.takeFragment (u ++ t)).1, (f.takeFragment (u ++ t)).2.toList) := by
  obtain ⟨-, he⟩ | ⟨p, br, r, rfl, -, hbr, -⟩ := takeText_cases f u t
  · exact he
  · rcases hbr with rfl | rfl <;> simp at hn

theorem takeText_line (hl : Solid l) (t : Text) :
    f.takeText [] (l ++ '\n' :: t) = (((f.takeLine l).1.takeText [] (trimStart t)).1,
      (f.takeLine l).2.toList ++ ((f.takeLine l).1.takeText [] (trimStart t)).2) := by
  obtain ⟨hn, -⟩ | ⟨p, br, r, ht, hp, hbr, he⟩ := takeText_cases f [] (l ++ '\n' :: t)
  · simp at hn
  · obtain ⟨v, hv, hvn, rfl⟩ := exists_blank_of_break hbr
    rw [← List.append_assoc p, List.append_assoc _ ['\n'], List.singleton_append] at ht
    obtain ⟨rfl, rfl⟩ := eq_of_break hl.noBreak (by simp [hp, hvn]) ht
    obtain rfl := hl.eq_nil_of_blank hv
    simpa using he

theorem takeLine_plain (hl : Solid l) (hm : ¬ f.marker <+: l) :
    f.takeLine l = (f.push l, none) := by
  simp [takeLine, hl.trim, afterMarker?_eq_none hm]

theorem afterMarker?_prompt (hf : f.marker = Interpreter.marker) (t : Text) :
    f.afterMarker? (prompt ++ t) = some (trimStart t) := by
  have hp : prompt ++ t = Interpreter.marker ++ ' ' :: t := by
    rw [prompt_eq, List.append_assoc]
    rfl
  have hblank : isBlank ' ' = true := by decide
  rw [afterMarker?, hf, hp, after?_append]
  simp [hblank]

theorem takeLine_prompt (hf : f.marker = Interpreter.marker) (hl : Solid (prompt ++ t))
    (ht : trimStart t = t) : f.takeLine (prompt ++ t) = (f.flush.1.push t, some f.flush.2) := by
  simp [takeLine, hl.trim, afterMarker?_prompt hf, ht]

theorem trimStart_lines (hl : ∀ l ∈ ls, Solid l) (ht : trimStart t = t) :
    trimStart (ls.flatMap (· ++ ['\n']) ++ t) = ls.flatMap (· ++ ['\n']) ++ t := by
  cases ls with
  | nil => exact ht
  | cons l ls =>
    have h := (hl l List.mem_cons_self).trimStart_append (a := []) (by simp [Blank])
      ('\n' :: (ls.flatMap (· ++ ['\n']) ++ t))
    simpa using h

theorem takeText_lines (hl : ∀ l ∈ ls, Solid l ∧ ¬ f.marker <+: l) (ht : trimStart t = t) :
    f.takeText [] (ls.flatMap (· ++ ['\n']) ++ t) =
      { f with held := ls.reverse ++ f.held }.takeText [] t := by
  induction ls generalizing f with
  | nil => rfl
  | cons l ls ih =>
    rw [List.forall_mem_cons] at hl
    obtain ⟨⟨hsolid, hm⟩, hls⟩ := hl
    have htext : (l :: ls).flatMap (· ++ ['\n']) ++ t =
        l ++ '\n' :: (ls.flatMap (· ++ ['\n']) ++ t) := by simp
    have hpush := ih (f := f.push l) hls
    rw [htext, takeText_line hsolid, takeLine_plain hsolid hm,
      trimStart_lines (fun l hl ↦ (hls l hl).1) ht, hpush]
    simp [push]

theorem trimStart_prompt (t : Text) : trimStart (prompt ++ t) = prompt ++ t := by
  have h := solid_marker.trimStart_append (a := []) (by simp [Blank]) (' ' :: t)
  rw [prompt_eq, List.append_assoc]
  exact h

def restart (f : Framer) (lines : List Text) : Framer := { f.flush.1 with held := lines.reverse }

theorem takeText_prompt (hf : f.marker = Interpreter.marker) (hl : Solid (prompt ++ line))
    (hline : trimStart line = line) (hls : ∀ l ∈ ls, Solid l ∧ ¬ Interpreter.marker <+: l)
    (ht : trimStart t = t) :
    f.takeText [] (prompt ++ line ++ '\n' :: (ls.flatMap (· ++ ['\n']) ++ t)) =
      (((f.restart (line :: ls)).takeText [] t).1,
        f.flush.2 :: ((f.restart (line :: ls)).takeText [] t).2) := by
  have hrest := takeText_lines (f := f.flush.1.push line) (hf.symm ▸ hls) ht
  have hheld : ls.reverse ++ [line] = (line :: ls).reverse := List.reverse_cons.symm
  rw [takeText_line hl, takeLine_prompt hf hl hline, trimStart_lines (fun l hl ↦ (hls l hl).1) ht,
    hrest, restart, ← hheld]
  rfl

theorem flush_lines (hf : ∀ l ∈ f.held, l ≠ []) : f.flush.2.lines = f.held.reverse :=
  List.filter_eq_self.2 fun l hl ↦ by simpa using hf l (List.mem_reverse.1 hl)

structure Leads (line : Text) : Prop where
  noBreak : '\n' ∉ line
  trimStart : ∀ t, trimStart t = t → trimStart (line ++ t) = line ++ t

theorem Leads.nil : Leads [] := ⟨by simp, fun _ ht ↦ ht⟩

theorem Leads.prompt (h : Leads line) : Leads (line ++ prompt) := by
  have hn : '\n' ∉ Interpreter.prompt := by decide
  refine ⟨by simp [h.noBreak, hn], fun t _ ↦ ?_⟩
  rw [List.append_assoc]
  exact h.trimStart _ (trimStart_prompt t)

theorem Leads.solid (h : Leads line) (hl : Solid l) :
    Solid (Interpreter.prompt ++ (line ++ l)) := by
  have hn : '\n' ∉ Interpreter.prompt := by decide
  refine ⟨⟨'H', rfl, by decide⟩, ?_, by simp [hn, h.noBreak, hl.noBreak]⟩
  rw [← List.append_assoc]
  exact hl.trimEnd_append _

theorem takeText_burst (hf : f.marker = Interpreter.marker) (hheld : ∀ l ∈ f.held, l ≠ [])
    (hline : Leads line)
    (h : ∀ reply ∈ replies, ∀ l ∈ reply, Solid l ∧ ¬ Interpreter.marker <+: l) :
    (f.takeText [] (prompt ++ (line ++ burst replies))).2.map Frame.lines =
        (joined line f.held.reverse replies).1 ∧
      (f.takeText [] (prompt ++ (line ++ burst replies))).1.fragment.getD [] =
        (joined line f.held.reverse replies).2 := by
  have hflush := flush_lines hheld
  induction replies generalizing f line with
  | nil =>
    have hn : '\n' ∉ prompt := by decide
    have hstart : trimStart line = line := by simpa using hline.trimStart [] rfl
    have htext : prompt ++ (line ++ burst []) = prompt ++ line := by simp [burst]
    have hfragment : f.takeFragment (prompt ++ line) = (f.flush.1.hold line, some f.flush.2) := by
      simp [takeFragment, trimStart_prompt, afterMarker?_prompt hf, hstart]
    rw [htext, takeText_fragment (by simp [hn, hline.noBreak]), List.nil_append, hfragment]
    exact ⟨congrArg (fun lines ↦ [lines]) hflush, fragment_hold _ line⟩
  | cons reply replies ih =>
    rw [List.forall_mem_cons] at h
    cases reply with
    | nil =>
      -- the prompt is one more on the line
      have htext : prompt ++ (line ++ burst ([] :: replies)) =
          prompt ++ ((line ++ prompt) ++ burst replies) := by simp [burst]
      rw [htext]
      exact ih hf hheld hline.prompt h.2 hflush
    | cons l ls =>
      obtain ⟨⟨hl, -⟩, hls⟩ := List.forall_mem_cons.1 h.1
      let g := f.restart ((line ++ l) :: ls)
      have htext : prompt ++ (line ++ burst ((l :: ls) :: replies)) = prompt ++ (line ++ l) ++
          '\n' :: (ls.flatMap (· ++ ['\n']) ++ (prompt ++ ([] ++ burst replies))) := by
        simp [burst]
      have hstart : trimStart (line ++ l) = line ++ l := by
        refine hline.trimStart l ?_
        simpa using hl.trimStart_append (a := []) (by simp [Blank]) []
      have hg : ∀ l' ∈ g.held, l' ≠ [] := by
        intro l' hmem
        obtain rfl | hmem := List.mem_cons.1 (List.mem_reverse.1 hmem)
        · simp [hl.ne_nil]
        · exact (hls l' hmem).1.ne_nil
      have hreverse : g.held.reverse = (line ++ l) :: ls := List.reverse_reverse _
      obtain ⟨hframes, hfragment⟩ := ih (f := g) hf hg .nil h.2 (flush_lines hg)
      rw [hreverse] at hframes hfragment
      rw [htext, takeText_prompt hf (hline.solid hl) hstart hls (trimStart_prompt _)]
      exact ⟨congrArg₂ List.cons hflush hframes, hfragment⟩

/-- What a framer gives out for the replies, and what it is left with. -/
theorem feed_burst {reply : List Text}
    (h : ∀ r ∈ reply :: replies, ∀ l ∈ r, Solid l ∧ ¬ Interpreter.marker <+: l) :
    ((ofPrompt prompt).feed (burst (reply :: replies))).2.map Frame.lines =
        (joined [] reply replies).1 ∧
      ((ofPrompt prompt).feed (burst (reply :: replies))).1.fragment.getD [] =
        (joined [] reply replies).2 := by
  rw [List.forall_mem_cons] at h
  let f : Framer := { ofPrompt prompt with raw := burst (reply :: replies) }
  have htext : burst (reply :: replies) =
      reply.flatMap (· ++ ['\n']) ++ (prompt ++ ([] ++ burst replies)) := by simp [burst]
  have hlines := takeText_lines (f := f) h.1 (trimStart_prompt ([] ++ burst replies))
  rw [← htext] at hlines
  have hheld : (reply.reverse ++ f.held).reverse = reply := by simp [f, ofPrompt]
  have hvisible : ∀ l ∈ reply.reverse ++ f.held, l ≠ [] := by
    intro l hl
    rw [← List.mem_reverse, hheld] at hl
    exact (h.1 l hl).1.ne_nil
  have hburst := takeText_burst (f := { f with held := reply.reverse ++ f.held }) rfl hvisible .nil
    h.2
  rw [hheld, ← hlines] at hburst
  exact hburst

/-- Each reply has its frame, and nothing is left over, unless one of them but the first is
empty. -/
theorem feed_burst_iff (h : ∀ reply ∈ replies, ∀ l ∈ reply, Solid l ∧ ¬ Interpreter.marker <+: l) :
    ((ofPrompt prompt).feed (burst replies)).2.map Frame.lines = replies ∧
        ((ofPrompt prompt).feed (burst replies)).1.hasFragment = false ↔
      ∀ reply ∈ replies.tail, reply ≠ [] := by
  cases replies with
  | nil => exact ⟨fun _ ↦ by simp, fun _ ↦ by decide +kernel⟩
  | cons reply replies =>
    obtain ⟨hframes, hfragment⟩ := feed_burst h
    rw [hframes, List.tail_cons]
    constructor
    · rintro ⟨hjoined, -⟩
      have hlength := congrArg List.length hjoined
      rw [length_joined, List.length_cons, Nat.add_right_cancel_iff,
        List.length_filter_eq_length_iff] at hlength
      intro reply' hmem
      simpa using hlength reply' hmem
    · intro hne
      rw [joined_of_ne_nil hne] at hfragment ⊢
      refine ⟨rfl, ?_⟩
      rw [hasFragment, Option.isSome_eq_false_iff, Option.isNone_iff_eq_none]
      refine Option.eq_none_iff_forall_ne_some.2 fun u hu ↦ ?_
      rw [hu, Option.getD_some] at hfragment
      exact fragment_takeFragment _ _ (hfragment ▸ hu)

theorem feed_burst_three :
    ((ofPrompt prompt).feed (burst [[], ["one"], ["two", "three"]])).2.map Frame.lines =
        ([[], ["one"], ["two", "three"]] : List (List Text)) ∧
      ((ofPrompt prompt).feed (burst [[], ["one"], ["two", "three"]])).1.hasFragment = false :=
  (feed_burst_iff (by decide)).2 (by decide)

/-- Of two replies without lines only the first has a frame. -/
theorem feed_two_empty_replies :
    burst [[], []] = ("HWhile> HWhile> " : Text) ∧
      ((ofPrompt prompt).feed (burst [[], []])).2.map Frame.lines = [[]] ∧
      ((ofPrompt prompt).feed (burst [[], []])).1.fragment = some "HWhile> " := by
  decide +kernel

end Framer

end Prompter
