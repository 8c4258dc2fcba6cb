import Prompter.Proofs.Dispatcher.Turn
import Prompter.Proofs.Interpreter.Conversation

namespace Prompter.Interpreter

open Dispatcher Text

variable {i : Interpreter} {es : List Event}

theorem signs_of_steady {a b : List Event}
    (h : registered (notices (a ++ b)) = registered (notices a)) :
    signs (a ++ b) = signs a ++ (heard b).map some := by
  induction b using List.reverseRecOn with
  | nil => simp [heard]
  | append_singleton b e ih =>
    have hb : registered (notices (a ++ b)) = registered (notices a) ++
        registered (((state a).run b).2) := by
      rw [notices, run_append, registered_append]
    have he : registered (notices (a ++ (b ++ [e]))) = registered (notices (a ++ b)) ++
        registered ((state (a ++ b)).step e).2 := by
      rw [← List.append_assoc, notices, run_concat, registered_append]
    rw [he, hb, List.append_assoc, List.append_right_eq_self, List.append_eq_nil_iff] at h
    rw [← List.append_assoc, signs_concat, h.2, ih (by rw [hb, h.1, List.append_nil]),
      heard_concat]
    simp

theorem lines_of_reply {s p : List Sign} {v : Text} {ls : List Line} (hs : s = p ++ v.map some)
    (hp : (Sign.text p).length ≤ 1) (ht : Sign.text s = ' ' :: body ls) :
    Sign.lines s = (ls.map fun l ↦ l.text.trim).filter (!·.isEmpty) := by
  rw [hs, Sign.text_append, Sign.text_map_some] at ht
  have hv : Blank (Sign.text p) ∧ ∀ r, Blank r →
      ∃ r', Blank r' ∧ Sign.cut r (v.map some) = Sign.cut r' ((body ls).map some) := by
    cases hp' : Sign.text p with
    | nil =>
      rw [hp', List.nil_append] at ht
      refine ⟨by simp [Blank], fun r hr ↦ ⟨r ++ [' '], ?_, ?_⟩⟩
      · exact blank_append.2 ⟨hr, by simp [Blank, isBlank, blanks]⟩
      · rw [ht, List.map_cons, Sign.cut, if_neg (by decide)]
    | cons x rest =>
      obtain rfl : rest = [] := by
        rw [hp', List.length_cons] at hp
        exact List.eq_nil_of_length_eq_zero (by omega)
      rw [hp', List.singleton_append, List.cons.injEq] at ht
      obtain ⟨rfl, rfl⟩ := ht
      exact ⟨by simp [Blank, isBlank, blanks], fun r hr ↦ ⟨r, hr, rfl⟩⟩
  obtain ⟨hempty, hr⟩ := Sign.cut_blank (t := []) (by simp [Blank]) hv.1
  obtain ⟨r', hr', he⟩ := hv.2 _ hr
  have hnil := Sign.filter_empty hempty
  rw [Sign.lines, hs, Sign.cut_append, he, List.filter_append, hnil, filter_cut_body hr']
  rfl

/-- When the last turn was taken, no more had been read of the stretch `s` than its first character,
if all replies but the one to come stood before it. -/
theorem Answers.early_turn (h : Answers i es) {a : List Event} {t : Text}
    {turns : List (List Sign)} {s rest : List Sign} {fs : List Frame} (ha : a <+: es)
    (hl : Framer.Ledger (state es).framer (signs es) (turns ++ [s]) rest fs)
    (hsigns : signs es = signs a ++ none :: t.map some)
    (htexts : turns.map Sign.text = i.turns (received a)) :
    ∃ (p : List Sign) (v : Text), s = p ++ v.map some ∧ (Sign.text p).length ≤ 1 := by
  have hbefore :
      Sign.text (Framer.stream marker turns []) = marked marker (i.turns (received a)) := by
    rw [text_stream, htexts]
    exact List.append_nil _
  have hstream : Framer.stream marker turns [] ++ (s ++ (marker.map some ++ (rest ++
      ((state es).framer.fragment.getD []).map some))) =
        (some '\n' :: signs a) ++ none :: t.map some := by
    rw [List.cons_append, ← hsigns, hl.signs, framer_marker]
    simp [Framer.stream]
  refine Sign.exists_of_turn _ hstream ?_
  have hheard := (h.mono ha).heard_le.length_le
  have hturns := congrArg List.length (i.marked_turns (received a))
  have htext : Sign.text (some '\n' :: signs a) = '\n' :: heard a := by
    rw [← text_signs]
    rfl
  rw [htext, hbefore]
  simp only [List.length_cons, List.length_append, List.length_nil] at hturns ⊢
  omega

theorem Answers.frames_eq (h : Answers i es) (hu : Unbroken es)
    (hlt : (kept (notices es)).length < (answered (notices es)).length) :
    frames (notices es) = (answered (notices es)).map Prod.snd ∧
      (frames (notices es)).length = (received es).length + 1 := by
  have hsub := answered_sublist_frames (notices es)
  have hk := hsub.length_le
  have hle := h.length_frames_le
  have hlength : (received es).length = (kept (notices es)).length := by
    rw [received_eq hu, List.length_map]
  rw [List.length_map] at hk
  refine ⟨(hsub.eq_of_length ?_).symm, ?_⟩
  · rw [List.length_map]
    omega
  · omega

theorem signs_of_turn {a b : List Event} {r : Request}
    (hn : ((state a).step .takeTurn).2 = [.registered r])
    (hs : Steady (notices (a ++ [.takeTurn])) (notices (a ++ .takeTurn :: b))) :
    signs (a ++ .takeTurn :: b) = signs a ++ none :: (heard b).map some := by
  have hsplit : a ++ .takeTurn :: b = (a ++ [.takeTurn]) ++ b := by simp
  have hreg := hs.1
  rw [hsplit] at hreg ⊢
  rw [signs_of_steady hreg, signs_concat, hn]
  simp [Event.chunk?, registered, Notice.registered?]

/-- The frame of the call that has the turn is the reply to the last line. -/
theorem Answers.of_answer (h : Answers i es) (hu : Unbroken es) {c : Call} {frame : Frame}
    (hc : c ∈ (state es).calls) (h0 : c.id ≠ 0) (ha : c.answer = some (.ok frame)) :
    frame.replyLines = i.replyLines (received es) ∧
      ∃ earlier, kept (notices es) = earlier ++ [c.request] := by
  have hq : c.stage ≠ .queued := by
    intro hq
    rw [(awaited_run prompt es).unanswered c hc hq] at ha
    cases ha
  obtain ⟨hlt, earlier, f, hanswered, rfl⟩ := answered_of_answer hc h0 ha
  obtain ⟨a, b, rfl, hn, hsteady⟩ := turn_run prompt es c hc h0 hq
  have hpre : a <+: a ++ .takeTurn :: b := List.prefix_append _ _
  have hkept := kept_of_turn hn hsteady
  have hreceived : received (a ++ .takeTurn :: b) = received a ++ [c.command] := by
    rw [received_eq hu, received_eq (hu.mono hpre), hkept, List.map_append]
    rfl
  obtain ⟨turns, rest, hl⟩ := exists_ledger (a ++ .takeTurn :: b)
  obtain ⟨hframes, hlength⟩ := h.frames_eq hu hlt
  -- there are as many frames as replies, so that the last frame is that of the last reply
  have htexts := ((h.texts hl).2 hlength).1
  rw [hreceived, turns_concat, ← hreceived] at htexts
  obtain ⟨turns', last, rfl, htexts', hlast⟩ := List.map_eq_append_iff.1 htexts
  obtain ⟨s, rfl, hs⟩ := List.map_eq_singleton_iff.1 hlast
  have hlines : f.lines = Sign.lines s := by
    have hmap := hl.frames
    rw [hframes, show answered (notices _) = _ from hanswered, List.map_append, List.map_append,
      List.map_append] at hmap
    exact List.singleton_inj.1 (List.append_inj' hmap rfl).2
  -- the call took the turn when at most the blank after the last prompt but one had been read
  obtain ⟨p, v, hpv, hp⟩ := h.early_turn hpre hl (signs_of_turn hn hsteady) htexts'
  refine ⟨?_, _, hkept⟩
  rw [Frame.replyLines, Frame.echoed, List.tail_cons, hlines]
  exact lines_of_reply hpv hp hs

/-- A call that returns a frame returns the reply to its line, which is the last of the lines that
the interpreter has received when it has received that line. -/
theorem reply_of_returned (i : Interpreter) (es : List Event) (hu : Unbroken es)
    (h : Answers i es) (c : Call) (frame : Frame) (hn : .returned c (.ok frame) ∈ notices es)
    (h0 : c.id ≠ 0) :
    ∃ a b earlier, es = a ++ .written c.id :: b ∧
      ((state a).step (.written c.id)).2 = [.wrote (c.command ++ ['\n'])] ∧
      received (a ++ [.written c.id]) = earlier ++ [c.command] ∧
      frame.replyLines = i.replyLines (earlier ++ [c.command]) := by
  obtain ⟨es', e, rest, rfl, hstep⟩ := exists_of_mem_run hn
  obtain ⟨hc, hs, ha⟩ := (step_outcome _ e).of_returned hstep
  have hes' : es' <+: es' ++ e :: rest := List.prefix_append _ _
  obtain ⟨hreply, earlier, hearlier⟩ := (h.mono hes').of_answer (hu.mono hes') hc h0 ha
  obtain ⟨a, b, hes, hwrote, hsteady⟩ := line_run prompt es' c hc h0 hs
  have hwritten : a ++ [.written c.id] <+: es' := ⟨b, by simp [hes]⟩
  have hlines : received es' = earlier.map Request.command ++ [c.command] := by
    rw [received_eq (hu.mono hes'), hearlier, List.map_append]
    rfl
  have hreceived : received (a ++ [.written c.id]) = received es' := by
    rw [received_eq (hu.mono hes'), received_eq (hu.mono (hwritten.trans hes')), kept,
      kept, hsteady.1, hsteady.2]
  rw [hlines] at hreply hreceived
  exact ⟨a, b ++ e :: rest, _, by simp [hes], hwrote, hreceived, hreply⟩

theorem answers_iff :
    Answers i es ↔ ∀ a ∈ es.inits, heard a <+: i.output (received a) := by
  simp only [Answers, List.mem_inits]

/-- The reply to a command that has timed out comes after the next command has been sent. -/
def lateReply : Interpreter := fun history ↦
  if history = [] then []
  else if history = ["one".toList] then [⟨"late", false, by decide, by decide⟩]
  else [⟨"mine", true, by decide, by decide⟩]

def lateRun : List Event :=
  [.deliver "HWhile> ", .submit "one" .silent, .takeTurn, .written 1, .expire 1 ⟨1⟩,
    .submit "two" .silent, .takeTurn, .written 2, .deliver "late\nHWh", .deliver "ile> mine\x0d",
    .deliver "\nHWhile> ", .resume 2]

def lateFrame : Frame := ⟨["two", "mine"], "two\n\nHWhile> "⟩

def lateCall : Call :=
  { id := 2, command := "two", echo := .silent, stage := .waiting, answer := some (.ok lateFrame) }

theorem reply_of_returned_late : .returned lateCall (.ok lateFrame) ∈ notices lateRun ∧
    ∃ a b earlier, lateRun = a ++ .written 2 :: b ∧
      ((state a).step (.written 2)).2 = [.wrote "two\n"] ∧
      received (a ++ [.written 2]) = earlier ++ ["two".toList] ∧
      lateFrame.replyLines = lateReply.replyLines (earlier ++ ["two".toList]) := by
  have hn : .returned lateCall (.ok lateFrame) ∈ notices lateRun :=
    by decide +kernel
  have hu : Unbroken lateRun :=
    show ∀ command ∈ commands lateRun, '\n' ∉ command by decide +kernel
  have ha : Answers lateReply lateRun := answers_iff.2 (by decide +kernel)
  exact ⟨hn, reply_of_returned lateReply lateRun hu ha lateCall lateFrame hn (by decide)⟩

end Prompter.Interpreter
