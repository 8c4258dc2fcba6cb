import Prompter.Proofs.Dispatcher.Fate
import Prompter.Proofs.Framer.Missed
import Prompter.Proofs.Interpreter.Correlation

namespace Prompter.Interpreter

open Dispatcher Text

variable {i : Interpreter} {es : List Event} {turns : List (List Sign)} {body : List Sign}
  {fs : List Frame}

/-- A request was made when a part of a prompt had been read, but not yet all of it. -/
def CutShort (es : List Event) : Prop :=
  ∃ a e b, es = a ++ e :: b ∧ registered ((state a).step e).2 ≠ [] ∧
    ∃ said p q, marker = p ++ q ∧ p ≠ [] ∧ q ≠ [] ∧ heard a = said ++ p ∧
      said ++ marker <+: heard es

theorem chunk?_of_registered {d : Dispatcher} {e : Event} (h : registered (d.step e).2 ≠ []) :
    e.chunk? = none := by
  cases e with
  | deliver chunk => exact absurd (registered_handOverAll _ _) h
  | _ => rfl

theorem signs_mono (a b : List Event) : signs a <+: signs (a ++ b) := by
  rw [signs, signs, inputs_append, List.flatMap_append]
  exact List.prefix_append _ _

theorem signs_of_registered {a : List Event} {e : Event}
    (h : registered ((state a).step e).2 ≠ []) : signs a ++ [none] <+: signs (a ++ [e]) := by
  rw [signs_concat, chunk?_of_registered h]
  obtain ⟨r, rs, hr⟩ := List.exists_cons_of_ne_nil h
  exact ⟨rs.map fun _ ↦ none, by simp [hr]⟩

theorem exists_of_signs {x y : List Sign} (h : signs es = x ++ none :: y) :
    ∃ a e b, es = a ++ e :: b ∧ registered ((state a).step e).2 ≠ [] ∧ heard a = Sign.text x := by
  induction es using List.reverseRecOn generalizing y with
  | nil => simp [signs, inputs] at h
  | append_singleton es e ih =>
    rw [signs_concat] at h
    have hnew {r : List Sign} (hx : x = signs es ++ r)
        (hr : (e.chunk?.getD []).map some ++ (registered ((state es).step e).2).map (fun _ ↦ none) =
          r ++ none :: y) :
        ∃ a e' b, es ++ [e] = a ++ e' :: b ∧ registered ((state a).step e').2 ≠ [] ∧
          heard a = Sign.text x := by
      have hreg : registered ((state es).step e).2 ≠ [] := by
        intro hnil
        have hmem : none ∈ r ++ none :: y := by simp
        simp [← hr, hnil] at hmem
      have hnone : Sign.text r = [] := by
        apply List.filterMap_eq_nil_iff.2
        intro n hn
        have hmem : n ∈ r ++ none :: y := List.mem_append_left _ hn
        rw [← hr, chunk?_of_registered hreg] at hmem
        obtain rfl : n = none := by simpa [hreg] using hmem
        rfl
      exact ⟨es, e, [], rfl, hreg, by rw [hx, Sign.text_append, text_signs, hnone, List.append_nil]⟩
    obtain ⟨r, hx, hr⟩ | ⟨r, hes, hr⟩ := List.append_eq_append_iff.1 h
    · exact hnew hx hr
    · cases r with
      | nil => exact hnew (r := []) (by simpa using hes.symm) hr.symm
      | cons n r =>
        rw [List.cons_append, List.cons.injEq] at hr
        obtain ⟨a, e', b, rfl, ha⟩ := ih (hr.1 ▸ hes)
        exact ⟨a, e', b ++ [e], by simp, ha⟩

theorem exists_of_missed (hall : heard es = i.output (received es))
    (hl : Framer.Ledger (state es).framer (signs es) turns body fs)
    (hlt : fs.length < (received es).length + 1) :
    ∃ (ps : List Text) (a s b : List Sign), some '\n' :: signs es = a ++ (s ++ b) ∧
      Sign.text a = marked marker ps ∧ (state es).framer.Clean s ∧ marker <:+: Sign.text s := by
  by_contra! hnone
  have hstream : some '\n' :: signs es = Framer.stream marker turns [] ++
      ((body ++ ((state es).framer.fragment.getD []).map some) ++ []) := by
    rw [hl.signs, framer_marker]
    simp [Framer.stream]
  have hnil (ts : List (List Sign)) :
      Sign.text (Framer.stream marker ts []) = marked marker (ts.map Sign.text) := by
    rw [text_stream]
    exact List.append_nil _
  have hrest : ¬ marker <:+: Sign.text body ++ (state es).framer.fragment.getD [] := by
    have hlast := hnone _ _ _ _ hstream (hnil turns) hl.clean
    rwa [Sign.text_append, Sign.text_map_some] at hlast
  have hturns : ∀ t ∈ turns.map Sign.text, ¬ marker <:+: t := by
    intro t ht
    obtain ⟨s, hs, rfl⟩ := List.mem_map.1 ht
    obtain ⟨before, after, rfl⟩ := List.append_of_mem hs
    refine hnone _ (Framer.stream marker before []) s (marker.map some ++
      (Framer.stream marker after body ++ ((state es).framer.fragment.getD []).map some)) ?_
      (hnil before) (hl.past s hs).clean
    rw [hstream]
    simp [Framer.stream]
  have htext := (i.marked_turns (received es)).symm
  rw [← hall, ← marked_heard hl] at htext
  have hle := (length_le_of_marked unbordered_marker hturns hrest htext).1
  rw [length_turns, List.length_map, ← length_frames hl] at hle
  omega

theorem not_break_marked {ps : List Text} {t : Text} : marked marker ps ≠ t ++ ['\n'] := by
  intro h
  obtain rfl | ⟨ps, p, rfl⟩ := List.eq_nil_or_concat ps
  · simp [marked] at h
  · have hm : marker <:+ t ++ ['\n'] := by
      rw [← h, List.concat_eq_append, marked_append, marked_cons]
      exact ⟨marked marker ps ++ p, by simp [marked]⟩
    obtain hnil | ⟨m, hm, -⟩ := List.suffix_concat_iff.1 hm
    · exact marker_ne_nil hnil
    · have hmem : '\n' ∈ marker := by simp [hm]
      exact absurd hmem (by decide)

/-- A prompt is missed only where a request was made in the middle of it. -/
theorem cutShort_of_missed (hi : ∀ history, history ≠ [] → i history ≠ [])
    (hall : heard es = i.output (received es))
    (hlt : (frames (notices es)).length < (received es).length + 1) : CutShort es := by
  obtain ⟨turns, body, hl⟩ := exists_ledger es
  obtain ⟨ps, a, s, b, hsigns, hps, hclean, x, y, hxy⟩ := exists_of_missed hall hl hlt
  have htext : '\n' :: heard es = (Sign.text a ++ x) ++ (marker ++ (y ++ Sign.text b)) := by
    have ht := congrArg Sign.text hsigns
    rw [Sign.text_append, Sign.text_append, ← hxy] at ht
    rw [← text_signs]
    simpa [Sign.text] using ht
  obtain ⟨⟨t, ht⟩, u, hu⟩ := i.around_marker hi (hall ▸ htext)
  obtain ⟨x, rfl⟩ : ∃ x', x = x' ++ ['\n'] := by
    obtain rfl | ⟨x, c, rfl⟩ := List.eq_nil_or_concat x
    · rw [List.append_nil, hps] at ht
      exact absurd ht not_break_marked
    · rw [List.concat_eq_append, ← List.append_assoc] at ht
      rw [List.concat_eq_append, (List.append_inj' ht rfl).2]
      exact ⟨x, rfl⟩
  have hy : ∀ c ∈ y.head?, isBlank c = true := by
    intro c hc
    cases y with
    | nil => cases hc
    | cons d y =>
      rw [List.cons_append, List.cons.injEq] at hu
      obtain rfl : d = c := by simpa using hc
      rw [hu.1]
      decide
  have hmarker := framer_marker es
  obtain ⟨x', y', p, q, rfl, hm, hp, hq, hx'⟩ :=
    hclean.exists_turn (hmarker ▸ solid_marker) (by rw [hmarker, ← hxy, List.append_assoc]) hy
  rw [hmarker] at hm
  obtain ⟨said, hsaid⟩ : ∃ said, Sign.text a ++ (x ++ ['\n']) = '\n' :: said := by
    cases hc : Sign.text a ++ (x ++ ['\n']) with
    | nil => simp at hc
    | cons c said =>
      rw [hc, List.cons_append, List.cons.injEq] at htext
      exact ⟨said, by rw [htext.1]⟩
  -- what the framer had seen before the turn
  obtain ⟨v, hv, hsplit⟩ : ∃ v, some '\n' :: v = a ++ x' ∧ signs es = v ++ none :: (y' ++ b) := by
    rw [List.append_assoc, ← List.append_assoc] at hsigns
    cases hc : a ++ x' with
    | nil =>
      rw [(List.append_eq_nil_iff.1 hc).2] at hx'
      simp [Sign.text] at hx'
    | cons n v =>
      rw [hc, List.cons_append, List.cons.injEq] at hsigns
      exact ⟨v, by rw [hsigns.1], hsigns.2⟩
  obtain ⟨a', e, b', hes, hreg, hheard⟩ := exists_of_signs hsplit
  refine ⟨a', e, b', hes, hreg, said, p, q, hm, hp, hq, ?_, ?_⟩
  · have ht := congrArg Sign.text hv
    rw [Sign.text_append, hx', ← List.append_assoc, hsaid] at ht
    rw [hheard]
    exact (List.cons.inj ht).2
  · rw [hsaid, List.cons_append, List.cons.injEq] at htext
    exact ⟨y ++ Sign.text b, by rw [htext.2, List.append_assoc]⟩

theorem length_frames_of_whole (hi : ∀ history, history ≠ [] → i history ≠ [])
    (h : Answers i es) (hall : heard es = i.output (received es)) (hcut : ¬ CutShort es) :
    (frames (notices es)).length = (received es).length + 1 := by
  have hle := h.length_frames_le
  by_contra hne
  exact hcut (cutShort_of_missed hi hall (by omega))

theorem not_cutShort (h : Answers i es)
    (hlength : (frames (notices es)).length = (received es).length + 1) : ¬ CutShort es := by
  rintro ⟨a, e, b, rfl, hreg, said, p, q, hm, hp, hq, hheard, more, hmore⟩
  obtain ⟨turns, body, hl⟩ := exists_ledger (a ++ e :: b)
  obtain ⟨htexts, hrest⟩ := (h.texts hl).2 hlength
  have hno : ∀ t ∈ turns.map Sign.text, ¬ marker <:+: t := by
    rw [htexts]
    exact i.not_infix_turns _
  have hz : ¬ marker <:+: Sign.text body ++
      (state (a ++ e :: b)).framer.fragment.getD [] := by
    intro hz
    have hblank : ¬ marker <:+: [' '] := by decide
    exact hblank (hz.trans hrest.isInfix)
  have htext := marked_heard hl
  rw [← hmore, List.append_assoc, ← List.cons_append] at htext
  obtain ⟨ts, t, ts', hturns, hsaid, -⟩ :=
    exists_of_occurrence unbordered_marker hno hz htext.symm
  obtain ⟨before, rest, rfl, rfl, hrest'⟩ := List.map_eq_append_iff.1 hturns
  obtain ⟨s, after, rfl, rfl, -⟩ := List.map_eq_cons_iff.1 hrest'
  obtain ⟨y, hy⟩ : ∃ y, signs (a ++ e :: b) = signs a ++ none :: y := by
    obtain ⟨y, hy⟩ := (signs_of_registered hreg).trans (signs_mono (a ++ [e]) b)
    exact ⟨y, by simpa using hy.symm⟩
  have hstream : (Framer.stream marker before [] ++ s) ++ ((p ++ q).map some ++
      (Framer.stream marker after body ++
        ((state (a ++ e :: b)).framer.fragment.getD []).map some)) =
        (some '\n' :: signs a) ++ none :: y := by
    rw [List.cons_append, ← hy, hl.signs, framer_marker, ← hm]
    simp [Framer.stream]
  refine Sign.not_turn_within hp hq ?_ hstream
  have hbefore : Sign.text (some '\n' :: signs a) = '\n' :: heard a := by
    rw [← text_signs]
    rfl
  rw [hbefore, hheard, Sign.text_append, text_stream, ← List.cons_append, hsaid]
  exact congrArg (· ++ Sign.text s ++ p) (List.append_nil _).symm

theorem length_received (hu : Unbroken es) :
    (received es).length + (lost (notices es)).length = (registered (notices es)).length := by
  rw [received_eq hu, List.length_map]
  exact (written_run prompt es).length

theorem Answers.claimed (h : Answers i es) (hu : Unbroken es) (hq : Undisturbed es) (f : Frame) :
    .unclaimed f ∉ notices es := by
  intro hf
  obtain ⟨a, ha, hlt⟩ := exists_of_unclaimed hq hf
  have hlength := length_received (hu.mono ha)
  have hle := (h.mono ha).length_frames_le
  have hlt' : (registered (notices a)).length + 1 < (frames (notices a)).length := hlt
  omega

theorem Answers.pending_eq_nil_iff (h : Answers i es)
    (hi : ∀ history, history ≠ [] → i history ≠ []) (hu : Unbroken es) (hq : Undisturbed es)
    (hall : heard es = i.output (received es)) :
    (state es).pending = [] ↔ lost (notices es) = [] ∧ ¬ CutShort es := by
  have hlength := length_received hu
  have hle := h.length_frames_le
  have hframes := congrArg List.length (frames_eq_of_claimed (h.claimed hu hq))
  rw [List.length_map] at hframes
  have hanswered : (answered (notices es)).length + (state es).pending.length =
      (registered (notices es)).length + 1 := length_answered hq
  constructor
  · intro hnil
    rw [hnil, List.length_nil] at hanswered
    exact ⟨List.eq_nil_of_length_eq_zero (by omega), not_cutShort h (by omega)⟩
  · rintro ⟨hlost, hcut⟩
    have hwhole := length_frames_of_whole hi h hall hcut
    rw [hlost, List.length_nil] at hlength
    exact List.eq_nil_of_length_eq_zero (by omega)

theorem registered_mono {a : List Event} (h : a <+: es) :
    registered (notices a) <+: registered (notices es) ∧
      lost (notices a) <+: lost (notices es) := by
  obtain ⟨b, rfl⟩ := h
  rw [notices, notices, run_append, registered_append, lost_append]
  exact ⟨List.prefix_append _ _, List.prefix_append _ _⟩

theorem kept_eq {ns : List Notice} (h : lost ns = []) : kept ns = registered ns :=
  List.filter_eq_self.2 (by simp [h])

theorem Answers.replyLines_eq (h : Answers i es) (hu : Unbroken es) (hlost : lost (notices es) = [])
    {a : List Event} (ha : a <+: es) {c : Call} {frame : Frame} (hc : c ∈ (state a).calls)
    (hframe : c.answer = some (.ok frame)) {p s : List Request}
    (hr : registered (notices es) = p ++ c.request :: s) :
    frame.replyLines = i.replyLines ((p ++ [c.request]).map Request.command) := by
  have hmem : c.request ∈ registered (notices es) := by simp [hr]
  have h0 : c.id ≠ 0 := ne_zero_of_registered hmem
  obtain ⟨hreply, earlier, hkept⟩ := (h.mono ha).of_answer (hu.mono ha) hc h0 hframe
  obtain ⟨⟨more, hmore⟩, hpre⟩ := registered_mono ha
  rw [hlost] at hpre
  have hregistered : registered (notices es) = earlier ++ c.request :: more := by
    rw [← hmore, ← kept_eq (List.prefix_nil.1 hpre), hkept, List.append_assoc]
    rfl
  -- no request is made twice
  have hnodup := (List.nodup_cons.1 (requests_nodup prompt es).of_map).2
  have hsplit := hregistered.symm.trans hr
  rw [show registered _ = _ from hregistered, List.nodup_middle, List.nodup_cons,
    List.mem_append, not_or] at hnodup
  obtain ⟨rfl, -, -⟩ := (List.append_cons_inj_of_notMem hnodup.1.1 hnodup.1.2).1 hsplit
  rw [hreply, received_eq (hu.mono ha), hkept]

/-- When all of the interpreter's output has been read, nothing is pending unless a line was lost or
a prompt was cut short. Then each call has the reply to its own line, or it has given up. -/
theorem resynchronised_iff (i : Interpreter) (es : List Event)
    (hi : ∀ history, history ≠ [] → i history ≠ []) (hu : Unbroken es) (hq : Undisturbed es)
    (h : Answers i es) (hall : heard es = i.output (received es)) :
    ((state es).pending = [] ↔ lost (notices es) = [] ∧ ¬ CutShort es) ∧
      ((state es).pending = [] → ∀ p r s, registered (notices es) = p ++ r :: s →
        (∃ c elapsed, c.request = r ∧
          .returned c (.error (.timeout c.command elapsed)) ∈ notices es) ∨
        (∃ c, c.request = r ∧ .cancelled c ∈ notices es) ∨
        ∃ c frame, c.request = r ∧ (.returned c (.ok frame) ∈ notices es ∨
            c ∈ (state es).calls ∧ c.answer = some (.ok frame)) ∧
          frame.replyLines = i.replyLines ((p ++ [r]).map Request.command)) := by
  have hpending := h.pending_eq_nil_iff hi hu hq hall
  refine ⟨hpending, fun hnil p r s hr ↦ ?_⟩
  have hlost := (hpending.1 hnil).1
  have hserved := served_run prompt es hq
  cases hserved.fate r (by simp [hr]) with
  | timedOut c elapsed hcr hn => exact .inl ⟨c, elapsed, hcr, hn⟩
  | cancelled c hcr hn => exact .inr (.inl ⟨c, hcr, hn⟩)
  | returned c frame hcr hn =>
    subst hcr
    obtain ⟨a, e, b, rfl, hstep⟩ := exists_of_mem_run hn
    obtain ⟨hc, -, hframe⟩ := (step_outcome _ e).of_returned hstep
    refine .inr (.inr ⟨c, frame, rfl, .inl hn, ?_⟩)
    exact h.replyLines_eq hu hlost (List.prefix_append _ _) hc hframe hr
  | turn c hcr hc hs =>
    subst hcr
    cases ha : c.answer with
    | none =>
      have hm := (awaited_run prompt es).pending c hc hs ha
      rw [hnil] at hm
      cases hm
    | some result =>
      cases result with
      | error error => exact absurd ha (hserved.ok c hc error)
      | ok frame =>
        refine .inr (.inr ⟨c, frame, rfl, .inr ⟨hc, ha⟩, ?_⟩)
        exact h.replyLines_eq hu hlost (List.prefix_refl es) hc ha hr

theorem lateReply_ne_nil : ∀ history, history ≠ [] → lateReply history ≠ [] := by
  intro history hne
  rw [lateReply, if_neg hne]
  split <;> exact List.cons_ne_nil _ _

theorem resynchronised_late :
    (state lateRun).pending = [] ∧ lost (notices lateRun) = [] ∧ ¬ CutShort lateRun := by
  have hu : Unbroken lateRun :=
    show ∀ command ∈ commands lateRun, '\n' ∉ command by decide +kernel
  have hq : Undisturbed lateRun := show ∀ e ∈ lateRun, e.fails = false by decide
  have ha : Answers lateReply lateRun := answers_iff.2 (by decide +kernel)
  have hnil : (state lateRun).pending = [] := by decide +kernel
  exact ⟨hnil, (resynchronised_iff lateReply lateRun lateReply_ne_nil hu hq ha
    (by decide +kernel)).1.1 hnil⟩

def cutRun : List Event :=
  [.deliver "HWhile> ", .submit "one" .silent, .takeTurn, .written 1, .expire 1 ⟨1⟩,
    .deliver "late\nHWh", .submit "two" .silent, .takeTurn, .written 2,
    .deliver "ile> mine\x0d\nHWhile> "]

theorem pending_of_cutRun : Unbroken cutRun ∧ Undisturbed cutRun ∧ Answers lateReply cutRun ∧
    heard cutRun = lateReply.output (received cutRun) ∧ lost (notices cutRun) = [] ∧
      (state cutRun).pending = [⟨2, "two"⟩] := by
  refine ⟨?_, ?_, answers_iff.2 ?_, ?_, ?_, ?_⟩
  · exact show ∀ command ∈ commands cutRun, '\n' ∉ command by decide +kernel
  · exact show ∀ e ∈ cutRun, e.fails = false by decide
  all_goals decide +kernel

end Prompter.Interpreter
