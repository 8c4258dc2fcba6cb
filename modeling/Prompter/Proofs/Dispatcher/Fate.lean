import Prompter.Proofs.Dispatcher.Turn

namespace Prompter.Dispatcher

def Event.fails : Event → Bool
  | .writeFailed _ _ => true
  | .close _ => true
  | .shutdown => true
  | _ => false

def Undisturbed (es : List Event) : Prop := ∀ e ∈ es, e.fails = false

/-- What has become of the call that made a request. -/
inductive Fate (ns : List Notice) (d : Dispatcher) (r : Request) : Prop
  | turn (c : Call) (hr : c.request = r) (hc : c ∈ d.calls) (hs : c.stage ≠ .queued)
  | returned (c : Call) (frame : Frame) (hr : c.request = r) (hn : .returned c (.ok frame) ∈ ns)
  | timedOut (c : Call) (elapsed : Duration) (hr : c.request = r)
      (hn : .returned c (.error (.timeout c.command elapsed)) ∈ ns)
  | cancelled (c : Call) (hr : c.request = r) (hn : .cancelled c ∈ ns)

theorem Fate.append {ns : List Notice} {d d' : Dispatcher} {r : Request} (h : Fate ns d r)
    {ns' : List Notice}
    (ht : ∀ c ∈ d.calls, c.stage ≠ .queued → c.request = r → Fate ns' d' r) :
    Fate (ns ++ ns') d' r := by
  cases h with
  | turn c hr hc hs =>
    cases ht c hc hs hr with
    | turn c' hr' hc' hs' => exact .turn c' hr' hc' hs'
    | returned c' frame hr' hn => exact .returned c' frame hr' (List.mem_append_right _ hn)
    | timedOut c' elapsed hr' hn => exact .timedOut c' elapsed hr' (List.mem_append_right _ hn)
    | cancelled c' hr' hn => exact .cancelled c' hr' (List.mem_append_right _ hn)
  | returned c frame hr hn => exact .returned c frame hr (List.mem_append_left _ hn)
  | timedOut c elapsed hr hn => exact .timedOut c elapsed hr (List.mem_append_left _ hn)
  | cancelled c hr hn => exact .cancelled c hr (List.mem_append_left _ hn)

section Step

variable {d d' : Dispatcher} {e : Event} {ns : List Notice}

theorem Outcome.resolved?_eq (h : Outcome d e d' ns) (he : e.fails = false) :
    ∀ n ∈ ns, n.resolved? = n.answered?.map Prod.fst := by
  intro n hn
  cases h with
  | close c => cases he
  | shutdown => cases he
  | writeFailed c message hc hs => cases he
  | deliver chunk => rcases mem_handOverAll hn with ⟨r, f, rfl⟩ | ⟨f, rfl⟩ <;> rfl
  | resume c result =>
    obtain ht | ⟨t, ht⟩ := finish_notices d c result
    · rw [ht] at hn
      obtain rfl := List.mem_singleton.1 hn
      rfl
    · rw [ht, List.mem_pair] at hn
      obtain rfl | rfl := hn <;> rfl
  | idle => cases hn
  | submit => cases hn
  | pass => cases hn
  | _ =>
    obtain rfl := List.mem_singleton.1 hn
    rfl

theorem Outcome.fate (h : Outcome d e d' ns) (he : e.fails = false) (ho : Orderly d) {c : Call}
    (hc : c ∈ d.calls) (hs : c.stage ≠ .queued) (ha : ∀ error, c.answer ≠ some (.error error)) :
    Fate ns d' c.request := by
  obtain ⟨c', hc', hr, hs'⟩ | ⟨n, hn, hended⟩ := h.survives ho hc hs
  · exact .turn c' hr hc' hs'
  · obtain ⟨-, -, hend⟩ := h.of_ended hn hended
    cases hend with
    | refused rest message hq => exact absurd (ho.stage_of_next hc hq) hs
    | unwritten reason message hw hfail =>
      rw [hfail] at he
      cases he
    | answered result hw hanswer =>
      cases result with
      | error error => exact absurd hanswer (ha error)
      | ok frame => exact .returned c frame rfl hn
    | expired elapsed => exact .timedOut c elapsed rfl hn
    | cancelled => exact .cancelled c rfl hn

end Step

structure Served (ns : List Notice) (d : Dispatcher) : Prop where
  resolved? : ∀ n ∈ ns, n.resolved? = n.answered?.map Prod.fst
  ok : ∀ c ∈ d.calls, ∀ error, c.answer ≠ some (.error error)
  fate : ∀ r ∈ registered ns, Fate ns d r

theorem Served.step {ns ns' : List Notice} {d d' : Dispatcher} {e : Event} (h : Served ns d)
    (he : e.fails = false) (ho : Orderly d) (hs : Outcome d e d' ns') : Served (ns ++ ns') d' := by
  have hresolved := hs.resolved?_eq he
  constructor
  case resolved? => exact List.forall_mem_append.2 ⟨h.resolved?, hresolved⟩
  case ok =>
    intro c hc error
    cases hs.origin ho hc with
    | kept _ hm => exact h.ok c hm error
    | submitted => simp
    | registered c₀ hm => exact h.ok c₀ hm error
    | written c₀ hm => exact h.ok c₀ hm error
    | answered c₀ r f => simp
    | rejected c₀ r error' hm hr hn => cases hresolved _ hn
  case fate =>
    intro r hr
    rw [registered_append] at hr
    rcases List.mem_append.1 hr with hr | hr
    · apply (h.fate r hr).append
      intro c hc hs' hcr
      exact hcr ▸ hs.fate he ho hc hs' (h.ok c hc)
    · obtain ⟨-, c, hc, hcr, hw⟩ := hs.of_registered ho hr
      exact .turn c hcr hc (Call.ne_queued_of_writing hw)

theorem served_run (prompt : Text) (es : List Event) (h : Undisturbed es) :
    Served ((start prompt).run es).2 ((start prompt).run es).1 := by
  refine run_induction (P := fun es ns d ↦ Undisturbed es → Served ns d) ?_ (fun es e ih h ↦ ?_)
    es h
  · exact fun _ ↦ ⟨by simp, by simp [start], by simp [registered]⟩
  · rw [Undisturbed, List.forall_mem_append] at h
    exact (ih h.1).step (h.2 e List.mem_cons_self) (orderly_run prompt es) (step_outcome _ e)

theorem resolved_eq {ns : List Notice}
    (h : ∀ n ∈ ns, n.resolved? = n.answered?.map Prod.fst) :
    resolved ns = (answered ns).map Prod.fst := by
  rw [resolved, answered, List.map_filterMap]
  exact List.filterMap_congr h

theorem frames_eq_of_claimed {ns : List Notice} (h : ∀ f, .unclaimed f ∉ ns) :
    frames ns = (answered ns).map Prod.snd := by
  rw [frames, answered, List.map_filterMap]
  apply List.filterMap_congr
  intro n hn
  cases n with
  | unclaimed f => exact absurd hn (h f)
  | _ => rfl

variable {prompt : Text} {es : List Event}

theorem length_answered (h : Undisturbed es) :
    (answered ((start prompt).run es).2).length + ((start prompt).run es).1.pending.length =
      (registered ((start prompt).run es).2).length + 1 := by
  have hlength := (resolved_run prompt es).length_eq
  rw [resolved_eq (served_run prompt es h).resolved?] at hlength
  simpa [requests] using hlength

theorem length_answered_le (ns : List Notice) : (answered ns).length ≤ (frames ns).length := by
  have hsub := (answered_sublist_frames ns).length_le
  rwa [List.length_map] at hsub

/-- When a frame is dropped there have been more frames than requests. -/
theorem exists_of_unclaimed (h : Undisturbed es) {f : Frame}
    (hn : .unclaimed f ∈ ((start prompt).run es).2) :
    ∃ a, a <+: es ∧ (registered ((start prompt).run a).2).length + 1 <
      (frames ((start prompt).run a).2).length := by
  obtain ⟨a, e, b, rfl, hstep⟩ := exists_of_mem_run hn
  have hle : a ++ [e] <+: a ++ e :: b := ⟨b, by simp⟩
  have hserved := served_run prompt _ fun e' he' ↦ h e' (hle.subset he')
  have hfifo := (fifo_run prompt (a ++ [e])).1
  have hregistered : registered (((start prompt).run a).1.step e).2 = [] := by
    apply List.eq_nil_iff_forall_not_mem.2
    intro r hr
    obtain ⟨he, -⟩ := (step_outcome _ e).of_registered (orderly_run prompt a) hr
    simp [he] at hstep
  refine ⟨a ++ [e], hle, ?_⟩
  rw [run_concat] at hfifo hserved ⊢
  generalize ((start prompt).run a).2 = ns at hfifo hserved ⊢
  obtain ⟨ys, zs, hsplit⟩ := List.append_of_mem hstep
  rw [registered_append, hregistered, List.append_nil]
  rw [hsplit, ← List.append_assoc] at hfifo hserved ⊢
  -- the queue was empty then, so that every request had been answered
  have hperm := ((fifo_append ..).1 hfifo).1.perm.length_eq
  rw [hfifo.nil_of_unclaimed, List.append_nil,
    resolved_eq fun n hn ↦ hserved.resolved? n (List.mem_append_left _ hn)] at hperm
  have hle := length_answered_le (ns ++ ys)
  have hlast : (frames (.unclaimed f :: zs)).length = (frames zs).length + 1 := rfl
  simp only [List.length_map, List.length_append, List.length_singleton, registered_append]
    at hperm
  rw [frames_append, List.length_append, hlast]
  omega

end Prompter.Dispatcher
