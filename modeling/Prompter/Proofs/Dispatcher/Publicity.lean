import Prompter.Proofs.Dispatcher.Succession
import Prompter.Proofs.Framer.Conservation
import Prompter.Proofs.Interpreter.Conversation

namespace Prompter.Dispatcher

def Notice.published? : Notice → Option Text
  | .published text => some text
  | _ => none

def Notice.publicReturn? : Notice → Option (Call × Frame)
  | .returned c (.ok frame) => if c.echo = .publish then some (c, frame) else none
  | _ => none

def published (ns : List Notice) : List Text := ns.filterMap Notice.published?

def publicReturns (ns : List Notice) : List (Call × Frame) := ns.filterMap Notice.publicReturn?

def endings (ns : List Notice) : List Call := ns.filterMap Notice.ended?

theorem ended_of_publicReturn {n : Notice} {c : Call} {frame : Frame}
    (h : n.publicReturn? = some (c, frame)) : n.ended? = some c := by
  unfold Notice.publicReturn? at h
  split at h
  next c' frame' =>
    split at h
    · cases h
      rfl
    · cases h
  next => cases h

section Append

variable (a b : List Notice)

@[simp] theorem published_append : published (a ++ b) = published a ++ published b :=
  List.filterMap_append
@[simp] theorem publicReturns_append :
    publicReturns (a ++ b) = publicReturns a ++ publicReturns b :=
  List.filterMap_append
@[simp] theorem endings_append : endings (a ++ b) = endings a ++ endings b :=
  List.filterMap_append

end Append

theorem Outcome.published {d d' : Dispatcher} {e : Event} {ns : List Notice}
    (h : Outcome d e d' ns) :
    (published ns = [] ∧ publicReturns ns = []) ∨
      ∃ c ∈ d.calls, ∃ frame, c.stage = .waiting ∧ c.answer = some (.ok frame) ∧
        c.echo = .publish ∧ ns = [.published frame.raw, .returned c (.ok frame)] := by
  have hquiet {ns : List Notice} (hns : ∀ n ∈ ns, n.published? = none ∧ n.publicReturn? = none) :
      Dispatcher.published ns = [] ∧ publicReturns ns = [] :=
    ⟨List.filterMap_eq_nil_iff.2 fun n hn ↦ (hns n hn).1,
      List.filterMap_eq_nil_iff.2 fun n hn ↦ (hns n hn).2⟩
  cases h with
  | resume c result hc hs ha =>
    cases result with
    | error error => exact .inl ⟨rfl, rfl⟩
    | ok frame =>
      cases he : c.echo with
      | publish =>
        refine .inr ⟨c, hc, frame, hs, ha, he, ?_⟩
        simp [finish, he]
      | silent =>
        refine .inl (hquiet ?_)
        simp [finish, he, Notice.published?, Notice.publicReturn?]
  | deliver chunk =>
    refine .inl (hquiet fun n hn ↦ ?_)
    rcases mem_handOverAll hn with ⟨r, f, rfl⟩ | ⟨f, rfl⟩ <;> exact ⟨rfl, rfl⟩
  | close closing =>
    refine .inl (hquiet fun n hn ↦ ?_)
    obtain ⟨r, -, rfl⟩ := List.mem_map.1 hn
    exact ⟨rfl, rfl⟩
  | shutdown =>
    refine .inl (hquiet fun n hn ↦ ?_)
    obtain ⟨r, -, rfl⟩ := List.mem_map.1 hn
    exact ⟨rfl, rfl⟩
  | writeFailed c message =>
    refine .inl (hquiet fun n hn ↦ ?_)
    rcases List.mem_append.1 hn with hn | hn
    · obtain ⟨r, -, rfl⟩ := List.mem_map.1 hn
      exact ⟨rfl, rfl⟩
    · rw [List.mem_singleton.1 hn]
      exact ⟨rfl, rfl⟩
  | _ => exact .inl ⟨rfl, rfl⟩

theorem Outcome.endings {d d' : Dispatcher} {e : Event} {ns : List Notice}
    (h : Outcome d e d' ns) : endings ns = [] ∨ ∃ c ∈ d.calls, endings ns = [c] := by
  have hrejected (q : List Request) : Dispatcher.endings (q.map .rejected) = [] :=
    List.filterMap_eq_nil_iff.2 (by simp [Notice.ended?])
  cases h with
  | refuse c rest message hh hq hc => exact .inr ⟨c, hc, rfl⟩
  | writeFailed c message hc =>
    refine .inr ⟨c, hc, ?_⟩
    cases d.pending.getLast? <;> rfl
  | resume c result hc =>
    refine .inr ⟨c, hc, ?_⟩
    obtain he | ⟨t, he⟩ := finish_notices d c result <;> rw [he] <;> rfl
  | expire c elapsed hc => exact .inr ⟨c, hc, rfl⟩
  | cancel c hc => exact .inr ⟨c, hc, rfl⟩
  | close closing => exact .inl (hrejected d.pending)
  | shutdown => exact .inl (hrejected d.pending)
  | deliver chunk =>
    refine .inl (List.filterMap_eq_nil_iff.2 fun n hn ↦ ?_)
    rcases mem_handOverAll hn with ⟨r, f, rfl⟩ | ⟨f, rfl⟩ <;> rfl
  | _ => exact .inl rfl

def Event.submission? : Event → Option (Text × Echo)
  | .submit command echo => some (command, echo)
  | _ => none

def submissions (es : List Event) : List (Text × Echo) := es.filterMap Event.submission?

theorem length_commands (es : List Event) :
    (commands es).length = (submissions es).length + 1 := by
  have hcommand (e : Event) : e.command? = e.submission?.map (·.1.trim) := by cases e <;> rfl
  rw [commands, List.length_cons, List.filterMap_congr fun e _ ↦ hcommand e, submissions,
    ← List.map_filterMap, List.length_map]

/-- The call was made with one of the submissions, of which its number tells which. -/
def Submitted (es : List Event) (c : Call) : Prop :=
  ∃ k command, c.id = k + 1 ∧ (submissions es)[k]? = some (command, c.echo) ∧
    c.command = command.trim

theorem Submitted.concat {es : List Event} {c : Call} (h : Submitted es c) (e : Event) :
    Submitted (es ++ [e]) c := by
  obtain ⟨k, command, hi, hk, hc⟩ := h
  refine ⟨k, command, hi, ?_, hc⟩
  have happend : submissions (es ++ [e]) = submissions es ++ submissions [e] :=
    List.filterMap_append
  rw [happend, List.getElem?_append_left (List.getElem?_eq_some_iff.1 hk).1, hk]

theorem Submitted.ne_zero {es : List Event} {c : Call} (h : Submitted es c) : c.id ≠ 0 := by
  obtain ⟨k, command, hi, -⟩ := h
  rw [hi]
  exact Nat.succ_ne_zero k

theorem submitted_run (prompt : Text) (es : List Event) :
    ∀ c ∈ ((start prompt).run es).1.calls, c.echo = .publish → Submitted es c := by
  have hall : ∀ c ∈ ((start prompt).run es).1.calls, c.id = 0 ∧ c.echo = .silent ∨
      Submitted es c := by
    refine run_induction (P := fun es _ d ↦ ∀ c ∈ d.calls, c.id = 0 ∧ c.echo = .silent ∨
      Submitted es c) (by simp [start]) (fun es e h c hc ↦ ?_) es
    have hbefore (c₀ : Call) (hc₀ : c₀ ∈ ((start prompt).run es).1.calls) (hi : c₀.id = c.id)
        (hcommand : c₀.command = c.command) (he : c₀.echo = c.echo) :
        c.id = 0 ∧ c.echo = .silent ∨ Submitted (es ++ [e]) c := by
      rw [← hi, ← he]
      refine (h c₀ hc₀).imp_right fun hs ↦ ?_
      obtain ⟨k, command, hk⟩ := hs.concat e
      exact ⟨k, command, hi ▸ he ▸ hcommand ▸ hk⟩
    cases (step_outcome _ e).origin (orderly_run prompt es) hc with
    | kept _ hm => exact hbefore c hm rfl rfl rfl
    | submitted command echo he =>
      subst he
      refine .inr ⟨(submissions es).length, command, ?_, ?_, rfl⟩
      · rw [← length_commands, (named_run prompt es).length]
      · simp [submissions, Event.submission?]
    | registered c₀ hm => exact hbefore c₀ hm rfl rfl rfl
    | written c₀ hm => exact hbefore c₀ hm rfl rfl rfl
    | answered c₀ r f hm => exact hbefore c₀ hm rfl rfl rfl
    | rejected c₀ r error hm => exact hbefore c₀ hm rfl rfl rfl
  intro c hc he
  obtain ⟨-, hsilent⟩ | hs := hall c hc
  · rw [he] at hsilent
    cases hsilent
  · exact hs

theorem writer_of_written {d : Dispatcher} {id : CallId} {text : Text}
    (h : .wrote text ∈ (d.step (.written id)).2) :
    ∃ c ∈ d.calls, c.id = id ∧ c.stage = .writing ∧ text = c.request.line := by
  simp only [step, onCall] at h
  split at h
  next c hf =>
    obtain ⟨hc, hi⟩ := mem_of_find? hf
    split at h
    next hs =>
      obtain he := List.mem_singleton.1 h
      cases he
      exact ⟨c, hc, hi, hs, rfl⟩
    next => cases h
  next => cases h

theorem wrote_of_submit {prompt : Text} {before after : List Event} {command : Text} {echo : Echo}
    {text : Text}
    (h : .wrote text ∈ (((start prompt).run (before ++ .submit command echo :: after)).1.step
      (.written ((start prompt).run before).1.nextId)).2) : text = command.trim ++ ['\n'] := by
  obtain ⟨c, hc, hi, -, rfl⟩ := writer_of_written h
  have hcommands : commands (before ++ .submit command echo :: after) =
      commands before ++ command.trim :: after.filterMap Event.command? := by
    simp [commands, Event.command?]
  have hnamed := (named_run prompt _).calls c hc
  rw [hi, ← (named_run prompt before).length, hcommands,
    List.getElem?_append_right (Nat.le_refl _), Nat.sub_self] at hnamed
  exact congrArg (· ++ ['\n']) (Option.some.inj hnamed).symm

/-- The last line that has been written is that of the call which waits for its frame. -/
theorem writers_of_waiting {prompt : Text} {es : List Event} {c : Call}
    (hc : c ∈ ((start prompt).run es).1.calls) (h0 : c.id ≠ 0) (hs : c.stage = .waiting) :
    ∃ earlier, (start prompt).writers es = earlier ++ [c.request] := by
  have hmem : c.request ∈ (start prompt).writers es := by
    obtain ⟨a, b, rfl, hn, -⟩ := line_run prompt es c hc h0 hs
    obtain ⟨c', hc', hi, hw, hline⟩ := writer_of_written (hn ▸ List.mem_singleton_self _)
    have hcommand : c.command = c'.command := List.append_cancel_right hline
    have hr : c'.request = c.request := by rw [Call.request, Call.request, hi, hcommand]
    rw [writers_append, writers, hn, (orderly_run prompt a).writing_of_mem hc' hw, hr]
    simp [writtenOf, writes, Notice.wrote?]
  obtain ⟨a, b, -, hn, hsteady⟩ := turn_run prompt es c hc h0 (Call.ne_queued_of_waiting hs)
  have hreg := registered_of_turn hn hsteady
  have hsub := (List.sublist_append_left ..).trans (writers_run prompt es).2
  have hnodup := (List.nodup_cons.1 (requests_nodup prompt es).of_map).2
  rw [hreg] at hsub hnodup
  exact concat_of_sublist hsub hnodup hmem

/-- A call that has returned publicly, and the frame that answered its request. -/
structure PublicTurn where
  call : Call
  frame : Frame

def PublicTurn.text (t : PublicTurn) : Text := t.call.command ++ '\n' :: t.frame.raw

/-- What is made public in the run of `es` with the notices `ns`. -/
structure Publicity (prompt : Text) (es : List Event) (ns : List Notice)
    (turns : List PublicTurn) : Prop where
  published : published ns = turns.map PublicTurn.text
  /-- There is one turn for each call that was to be public and has returned with a frame. -/
  returned : publicReturns ns = turns.map fun t ↦ (t.call, t.frame.echoed t.call.command)
  answered : (turns.map fun t ↦ (t.call.request, t.frame)).Sublist (answered ns)
  order : (turns.map (·.call.request)).Sublist ((start prompt).writers es)
  submitted : ∀ t ∈ turns, t.call.echo = .publish ∧ Submitted es t.call

theorem sublist_of_concat {α : Type} {l l' : List α} {x : α} (h : l.Sublist (l' ++ [x]))
    (hx : x ∉ l) : l.Sublist l' := by
  obtain ⟨k, m, rfl, hk, hm⟩ := List.sublist_append_iff.1 h
  obtain rfl | rfl := List.sublist_singleton.1 hm
  · rwa [List.append_nil]
  · exact absurd (List.mem_append_right k List.mem_cons_self) hx

theorem Publicity.quiet {prompt : Text} {es : List Event} {ns ns' : List Notice}
    {turns : List PublicTurn} (h : Publicity prompt es ns turns) (e : Event)
    (hpublished : Dispatcher.published ns' = []) (hreturned : publicReturns ns' = []) :
    Publicity prompt (es ++ [e]) (ns ++ ns') turns := by
  constructor
  case published => rw [published_append, hpublished, List.append_nil, h.published]
  case returned => rw [publicReturns_append, hreturned, List.append_nil, h.returned]
  case answered =>
    rw [answered_append]
    exact h.answered.trans (List.sublist_append_left ..)
  case order =>
    rw [writers_concat]
    exact h.order.trans (List.sublist_append_left ..)
  case submitted => exact fun t ht ↦ (h.submitted t ht).imp_right (·.concat e)

theorem Publicity.fresh {prompt : Text} {es : List Event} {turns : List PublicTurn}
    (h : Publicity prompt es ((start prompt).run es).2 turns) {c : Call}
    (hc : c ∈ ((start prompt).run es).1.calls) : ∀ t ∈ turns, t.call.id ≠ c.id := by
  intro t ht
  have hmem : (t.call, t.frame.echoed t.call.command) ∈
      publicReturns ((start prompt).run es).2 := h.returned ▸ List.mem_map_of_mem ht
  obtain ⟨n, hn, hpublic⟩ := List.mem_filterMap.1 hmem
  exact ((ended_run prompt es n hn t.call (ended_of_publicReturn hpublic)).2 c hc).symm

/-- A turn becomes public with an event. Its frame and its line are the last so far. -/
theorem Publicity.concat {prompt : Text} {es : List Event} {ns : List Notice}
    {turns : List PublicTurn} (h : Publicity prompt es ns turns) (e : Event) {c : Call} {f : Frame}
    (he : c.echo = .publish) (hsubmitted : Submitted es c) (hnew : ∀ t ∈ turns, t.call.id ≠ c.id)
    (hframe : ∃ earlier, Dispatcher.answered ns = earlier ++ [(c.request, f)])
    (hline : ∃ earlier, (start prompt).writers es = earlier ++ [c.request]) :
    Publicity prompt (es ++ [e]) (ns ++ [.published (f.echoed c.command).raw,
      .returned c (.ok (f.echoed c.command))]) (turns ++ [⟨c, f⟩]) := by
  obtain ⟨frames, hframes⟩ := hframe
  obtain ⟨lines, hlines⟩ := hline
  have hanswered := h.answered
  have horder := h.order
  rw [hframes] at hanswered
  rw [hlines] at horder
  constructor
  case published =>
    rw [published_append, h.published, List.map_append]
    rfl
  case returned =>
    have hreturn : Notice.publicReturn? (.returned c (.ok (f.echoed c.command))) =
        some (c, f.echoed c.command) := if_pos he
    have hlatter : publicReturns [.published (f.echoed c.command).raw,
        .returned c (.ok (f.echoed c.command))] = [(c, f.echoed c.command)] := by
      rw [publicReturns, List.filterMap_cons_none rfl, List.filterMap_cons_some hreturn,
        List.filterMap_nil]
    rw [publicReturns_append, h.returned, hlatter, List.map_append]
    rfl
  case answered =>
    rw [answered_append, hframes, List.map_append]
    refine (sublist_of_concat hanswered fun hm ↦ ?_).append (List.Sublist.refl _)
      |>.trans (List.sublist_append_left ..)
    obtain ⟨t, ht, heq⟩ := List.mem_map.1 hm
    exact hnew t ht (congrArg (fun p : Request × Frame ↦ p.1.call) heq)
  case order =>
    rw [writers_concat, hlines, List.map_append]
    refine (sublist_of_concat horder fun hm ↦ ?_).append (List.Sublist.refl _)
      |>.trans (List.sublist_append_left ..)
    obtain ⟨t, ht, heq⟩ := List.mem_map.1 hm
    exact hnew t ht (congrArg Request.call heq)
  case submitted =>
    refine List.forall_mem_append.2 ⟨fun t ht ↦ (h.submitted t ht).imp_right (·.concat e), ?_⟩
    intro t ht
    rw [List.mem_singleton.1 ht]
    exact ⟨he, hsubmitted.concat e⟩

theorem publicity_run (prompt : Text) (es : List Event) :
    ∃ turns, Publicity prompt es ((start prompt).run es).2 turns := by
  refine run_induction (P := fun es ns _ ↦ ∃ turns, Publicity prompt es ns turns) ?_
    (fun es e h ↦ ?_) es
  · exact ⟨[], rfl, rfl, List.nil_sublist _, List.nil_sublist _, by simp⟩
  · obtain ⟨turns, h⟩ := h
    obtain ⟨hpublished, hreturned⟩ | ⟨c, hc, frame, hs, ha, he, hn⟩ :=
      (step_outcome ((start prompt).run es).1 e).published
    · exact ⟨turns, h.quiet e hpublished hreturned⟩
    · have hsubmitted := submitted_run prompt es c hc he
      have h0 : c.id ≠ 0 := hsubmitted.ne_zero
      obtain ⟨-, earlier, f, hlast, rfl⟩ := answered_of_answer hc h0 ha
      rw [hn]
      exact ⟨_, h.concat e he hsubmitted (h.fresh hc) ⟨earlier, hlast⟩
        (writers_of_waiting hc h0 hs)⟩

theorem endings_run (prompt : Text) (es : List Event) :
    ((endings ((start prompt).run es).2).map Call.id).Nodup := by
  refine run_induction (P := fun _ ns _ ↦ ((endings ns).map Call.id).Nodup) List.nodup_nil
    (fun es e h ↦ ?_) es
  obtain hnil | ⟨c, hc, hone⟩ := (step_outcome ((start prompt).run es).1 e).endings
  · rwa [endings_append, hnil, List.append_nil]
  · rw [endings_append, hone, List.map_append]
    refine h.append (List.nodup_singleton _) ?_
    rw [List.map_singleton, List.disjoint_singleton]
    intro hm
    obtain ⟨c', hc', hi⟩ := List.mem_map.1 hm
    obtain ⟨n, hn, he⟩ := List.mem_filterMap.1 hc'
    exact (ended_run prompt es n hn c' he).2 c hc hi.symm

theorem eq_of_ended {ns : List Notice} (h : ((endings ns).map Call.id).Nodup) {n n' : Notice}
    (hn : n ∈ ns) (hn' : n' ∈ ns) {c c' : Call} (hc : n.ended? = some c)
    (hc' : n'.ended? = some c') (hid : c.id = c'.id) : n = n' := by
  induction ns with
  | nil => cases hn
  | cons m ns ih =>
    have hmem {n : Notice} {c : Call} (hn : n ∈ ns) (hc : n.ended? = some c) :
        c.id ∈ (endings ns).map Call.id :=
      List.mem_map_of_mem (List.mem_filterMap.2 ⟨n, hn, hc⟩)
    have hfirst {c : Call} (hm : m.ended? = some c) : c.id ∉ (endings ns).map Call.id := by
      rw [endings, List.filterMap_cons_some hm] at h
      exact (List.nodup_cons.1 h).1
    have hrest : ((endings ns).map Call.id).Nodup :=
      h.sublist (((List.sublist_cons_self m ns).filterMap _).map _)
    obtain hm | hs := List.mem_cons.1 hn <;> obtain hm' | hs' := List.mem_cons.1 hn'
    · exact hm.trans hm'.symm
    · exact absurd (hid ▸ hmem hs' hc') (hfirst (hm ▸ hc))
    · exact absurd (hid ▸ hmem hs hc) (hfirst (hm' ▸ hc'))
    · exact ih hrest hs hs'

/-- The texts stand in `t` one after another, so that no character belongs to two of them. -/
def Successive : List Text → Text → Prop
  | [], _ => True
  | x :: rest, t => ∃ before after, t = before ++ (x ++ after) ∧ Successive rest after

theorem Successive.prepend {texts : List Text} {t : Text} (h : Successive texts t) (s : Text) :
    Successive texts (s ++ t) := by
  cases texts with
  | nil => trivial
  | cons x rest =>
    obtain ⟨before, after, rfl, hrest⟩ := h
    exact ⟨s ++ before, after, (List.append_assoc ..).symm, hrest⟩

theorem successive_of_sublist {texts pieces : List Text} (h : texts.Sublist pieces) (t : Text) :
    Successive texts (pieces.flatten ++ t) := by
  induction h with
  | slnil => trivial
  | cons x h ih =>
    rw [List.flatten_cons, List.append_assoc]
    exact ih.prepend x
  | cons_cons x h ih =>
    rw [List.flatten_cons, List.append_assoc]
    exact ⟨[], _, rfl, ih⟩

theorem text_inputs (d : Dispatcher) (es : List Event) :
    (d.inputs es).flatMap Framer.Input.text = Interpreter.heard es := by
  induction es generalizing d with
  | nil => rfl
  | cons e rest ih =>
    have hturns (rs : List Request) :
        (rs.map fun _ ↦ Framer.Input.turn).flatMap Framer.Input.text = [] := by
      simp [Framer.Input.text]
    rw [inputs, List.flatMap_append, inputsOf, List.flatMap_append, hturns, List.append_nil, ih]
    cases hc : e.chunk? <;> simp [hc, Framer.Input.text, Interpreter.heard]

/-- All that has been read has gone into the frames, once and in order, or is still held. -/
theorem raw_frames (prompt : Text) (es : List Event) :
    ((frames ((start prompt).run es).2).map Frame.raw).flatten ++
        ((start prompt).run es).1.framer.raw = Interpreter.heard es := by
  have hrun : (Framer.ofPrompt prompt).run ((start prompt).inputs es) =
      (((start prompt).run es).1.framer, frames ((start prompt).run es).2) :=
    framer_run (start prompt) es
  have h := (Framer.run_conserves prompt ((start prompt).inputs es)).1
  rwa [text_inputs, hrun, List.flatMap_def] at h

end Prompter.Dispatcher
