import Prompter.Proofs.Dispatcher.Closing

namespace Prompter.Dispatcher

def Event.chunk? : Event → Option Text
  | .deliver chunk => some chunk
  | _ => none

def inputsOf (e : Event) (ns : List Notice) : List Framer.Input :=
  e.chunk?.toList.map .chunk ++ (registered ns).map fun _ ↦ .turn

def inputs (d : Dispatcher) : List Event → List Framer.Input
  | [] => []
  | e :: rest => inputsOf e (d.step e).2 ++ inputs (d.step e).1 rest

theorem inputs_append (d : Dispatcher) (a b : List Event) :
    d.inputs (a ++ b) = d.inputs a ++ (d.run a).1.inputs b := by
  induction a generalizing d with
  | nil => rfl
  | cons e rest ih => simp [inputs, run, ih]

theorem inputs_concat (d : Dispatcher) (es : List Event) (e : Event) :
    d.inputs (es ++ [e]) = d.inputs es ++ inputsOf e ((d.run es).1.step e).2 := by
  simp [inputs_append, inputs]

theorem frames_rejected (q : List Request) : frames (q.map .rejected) = [] :=
  List.filterMap_eq_nil_iff.2 (by simp [Notice.frame?])

theorem Outcome.framer {d d' : Dispatcher} {e : Event} {ns : List Notice}
    (h : Outcome d e d' ns) : d.framer.run (inputsOf e ns) = (d'.framer, frames ns) := by
  cases h with
  | idle e he =>
    cases e with
    | deliver => simp [Event.call?] at he
    | _ => rfl
  | close c =>
    rw [close_eq, inputsOf, registered_rejected, frames_rejected,
      (rejectAll_outline _ c d.pending).framer]
    rfl
  | shutdown =>
    rw [close_eq, inputsOf, registered_rejected, frames_rejected,
      (rejectAll_outline _ .stopped d.pending).framer]
    rfl
  | writeFailed c message =>
    cases d.pending.getLast? <;> rfl
  | deliver chunk =>
    rw [Dispatcher.deliver, inputsOf, registered_handOverAll, frames_handOverAll,
      (handOverAll_outline _ _).framer]
    simp [Event.chunk?, Framer.run, Framer.take]
  | resume c result =>
    obtain he | ⟨t, he⟩ := finish_notices d c result <;> rw [he] <;> rfl
  | _ => rfl

theorem framer_run (d : Dispatcher) (es : List Event) :
    d.framer.run (d.inputs es) = ((d.run es).1.framer, frames (d.run es).2) := by
  refine run_induction (P := fun es ns d' ↦ d.framer.run (d.inputs es) = (d'.framer, frames ns))
    rfl (fun es e h ↦ ?_) es
  rw [inputs_concat, Framer.run_append, h, (step_outcome _ e).framer, frames_append]

theorem Outcome.ended {d d' : Dispatcher} {e : Event} {ns : List Notice} (h : Outcome d e d' ns)
    (ho : Orderly d) {id : CallId} (hid : id < d.nextId) (he : ∀ c ∈ d.calls, c.id ≠ id) :
    id < d'.nextId ∧ ∀ c ∈ d'.calls, c.id ≠ id := by
  refine ⟨h.length_commands ▸ Nat.lt_add_right _ hid, fun c hc ↦ ?_⟩
  obtain ⟨hn, -⟩ | ⟨c₀, hc₀, hi, -⟩ := (h.origin ho hc).source
  · exact hn ▸ Nat.ne_of_gt hid
  · exact hi ▸ he c₀ hc₀

theorem Outcome.of_withdrawn {d d' : Dispatcher} {e : Event} {ns : List Notice}
    (h : Outcome d e d' ns) (ho : Orderly d) (ha : Awaited d) {r : Request}
    (hr : .withdrawn r ∈ ns) : ∃ c ∈ d.calls, c.id = r.call ∧ c.stage = .writing ∧
      ∃ message, .returned c (.error (.transport message)) ∈ ns := by
  cases h with
  | writeFailed c message hc hs =>
    refine ⟨c, hc, ?_, hs, _, List.mem_append_right _ List.mem_cons_self⟩
    rcases List.mem_append.1 hr with hm | hm
    · obtain ⟨r', hr', he⟩ := List.mem_map.1 hm
      cases he
      rw [Option.mem_toList] at hr'
      obtain hnil | hl := ha.getLast?_of_writing ho hc hs
      · simp [hnil] at hr'
      · rw [hl] at hr'
        exact congrArg Request.call (Option.some.inj hr')
    · simp at hm
  | resume c result =>
    obtain he | ⟨t, he⟩ := finish_notices d c result <;> simp [he] at hr
  | deliver chunk => obtain ⟨r, f, he⟩ | ⟨f, he⟩ := mem_handOverAll hr <;> cases he
  | close c => simp [close_eq] at hr
  | shutdown => simp [close_eq] at hr
  | _ => simp at hr

theorem withdrawn_run (prompt : Text) (es : List Event) :
    ∀ r, .withdrawn r ∈ ((start prompt).run es).2 →
      ∃ c message, c.id = r.call ∧ c.stage = .writing ∧
        .returned c (.error (.transport message)) ∈ ((start prompt).run es).2 := by
  refine run_induction (P := fun _ ns _ ↦ ∀ r, .withdrawn r ∈ ns → ∃ c message, c.id = r.call ∧
    c.stage = .writing ∧ .returned c (.error (.transport message)) ∈ ns) (by simp)
    (fun es e h r hr ↦ ?_) es
  rcases List.mem_append.1 hr with hr | hr
  · obtain ⟨c, message, hi, hs, hn⟩ := h r hr
    exact ⟨c, message, hi, hs, List.mem_append_left _ hn⟩
  · obtain ⟨c, -, hi, hs, message, hn⟩ := (step_outcome _ e).of_withdrawn (orderly_run prompt es)
      (awaited_run prompt es) hr
    exact ⟨c, message, hi, hs, List.mem_append_right _ hn⟩

end Prompter.Dispatcher
