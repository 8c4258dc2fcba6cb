import Prompter.Proofs.Dispatcher.Awaited
import Prompter.Proofs.Dispatcher.History

namespace Prompter.Dispatcher

def Event.command? : Event → Option Text
  | .submit command _ => some command.trim
  | _ => none

inductive Origin (d : Dispatcher) (e : Event) (ns : List Notice) : Call → Prop
  | kept (c : Call) (hc : c ∈ d.calls) : Origin d e ns c
  | submitted (command : Text) (echo : Echo) (he : e = .submit command echo) :
    Origin d e ns { id := d.nextId, command := command.trim, echo, stage := .queued }
  | registered (c : Call) (hc : c ∈ d.calls) (he : e = .takeTurn)
      (hn : ns = [.registered ⟨c.id, c.command⟩]) :
    Origin d e ns { c with stage := .writing }
  | written (c : Call) (hc : c ∈ d.calls) (hs : c.stage = .writing) (he : e = .written c.id)
      (hn : ns = [.wrote (c.command ++ ['\n'])]) :
    Origin d e ns { c with stage := .waiting }
  | answered (c : Call) (r : Request) (f : Frame) (hc : c ∈ d.calls) (hr : r.call = c.id)
      (hn : .answered r f ∈ ns) :
    Origin d e ns { c with answer := some (.ok (f.echoed r.command)) }
  | rejected (c : Call) (r : Request) (error : SessionError) (hc : c ∈ d.calls)
      (hr : r.call = c.id) (hn : .rejected r ∈ ns) :
    Origin d e ns { c with answer := some (.error error) }

theorem origin_close {d : Dispatcher} {e : Event} {closing : Closing} {c : Call}
    (hc : c ∈ (d.close closing).1.calls) : Origin d e (d.close closing).2 c := by
  rcases mem_rejectAll hc with ⟨hc, -⟩ | ⟨r, hr, c₀, hc₀, hi, rfl⟩
  · exact .kept c hc
  · exact .rejected c₀ r _ hc₀ hi.symm (List.mem_map_of_mem hr)

theorem Outcome.origin {d d' : Dispatcher} {e : Event} {ns : List Notice}
    (h : Outcome d e d' ns) (ho : Orderly d) {c : Call} (hc : c ∈ d'.calls) :
    Origin d e ns c := by
  cases h with
  | submit command echo =>
    rcases List.mem_append.1 hc with hc | hc
    · exact .kept c hc
    · rw [List.mem_singleton.1 hc]
      exact .submitted command echo rfl
  | close closing => exact origin_close hc
  | shutdown => exact origin_close hc
  | register c₁ rest hh hq hc₁ hw hopen =>
    have hcases : c = { c₁ with stage := .writing } ∨ c ∈ d.calls ∧ c.id ≠ c₁.id :=
      ho.mem_update rfl hc₁ hc
    rcases hcases with rfl | ⟨hm, -⟩
    · exact .registered c₁ hc₁ rfl rfl
    · exact .kept c hm
  | written c₁ hc₁ hs =>
    have hcases : c = { c₁ with stage := .waiting } ∨ c ∈ d.calls ∧ c.id ≠ c₁.id :=
      ho.mem_update rfl hc₁ hc
    rcases hcases with rfl | ⟨hm, -⟩
    · exact .written c₁ hc₁ hs rfl rfl
    · exact .kept c hm
  | deliver chunk =>
    rcases mem_calls_handOverAll hc with hc | ⟨c₀, hc₀, r, f, hr, hn, rfl⟩
    · exact .kept c hc
    · exact .answered c₀ r f hc₀ hr hn
  | idle => exact .kept c hc
  | hangUp => exact .kept c hc
  | pass => exact .kept c hc
  | refuse => exact .kept c ((mem_remove ..).1 hc).1
  | writeFailed => exact .kept c ((mem_remove ..).1 hc).1
  | resume => exact .kept c ((mem_remove ..).1 hc).1
  | expire => exact .kept c ((mem_remove ..).1 hc).1
  | cancel => exact .kept c ((mem_remove ..).1 hc).1

theorem Origin.source {d : Dispatcher} {e : Event} {ns : List Notice} {c : Call}
    (h : Origin d e ns c) :
    (c.id = d.nextId ∧ e.command? = some c.command) ∨
      ∃ c₀ ∈ d.calls, c₀.id = c.id ∧ c₀.command = c.command := by
  cases h with
  | submitted command echo he => exact .inl ⟨rfl, he ▸ rfl⟩
  | kept _ hc => exact .inr ⟨c, hc, rfl, rfl⟩
  | registered c₀ hc => exact .inr ⟨c₀, hc, rfl, rfl⟩
  | written c₀ hc => exact .inr ⟨c₀, hc, rfl, rfl⟩
  | answered c₀ r f hc => exact .inr ⟨c₀, hc, rfl, rfl⟩
  | rejected c₀ r error hc => exact .inr ⟨c₀, hc, rfl, rfl⟩

theorem registered_eq_nil {ns : List Notice} (h : ∀ n ∈ ns, n.registered? = none) :
    registered ns = [] := List.filterMap_eq_nil_iff.2 h

theorem registered_rejected (q : List Request) : registered (q.map .rejected) = [] :=
  registered_eq_nil (by simp [Notice.registered?])

theorem registered_handOverAll (d : Dispatcher) (fs : List Frame) :
    registered (d.handOverAll fs).2 = [] := by
  apply registered_eq_nil
  intro n hn
  rcases mem_handOverAll hn with ⟨r, f, rfl⟩ | ⟨f, rfl⟩ <;> rfl

theorem Outcome.order {d d' : Dispatcher} {e : Event} {ns : List Notice} (h : Outcome d e d' ns) :
    (registered ns = [] ∧ d'.nextId = d.nextId ∧ d'.queued.Sublist d.queued) ∨
      (registered ns = [] ∧ d'.nextId = d.nextId + 1 ∧ d'.queued = d.queued ++ [d.nextId]) ∨
      ∃ c ∈ d.calls, ns = [.registered ⟨c.id, c.command⟩] ∧ d'.nextId = d.nextId ∧
        d.queued = c.id :: d'.queued ∧ d.holder = none ∧ d.closed = none := by
  have hremove (id : CallId) : (d.remove id).queued.Sublist d.queued := by
    rw [queued_remove]
    exact List.filter_sublist
  cases h with
  | idle e => exact .inl ⟨rfl, rfl, List.Sublist.refl _⟩
  | submit command echo =>
    refine .inr (.inl ⟨rfl, rfl, ?_⟩)
    simp [Dispatcher.submit, queued, Waiter.id?]
  | close c =>
    have ho := rejectAll_outline { d with pending := [], closed := d.closed <|> some c.reason } c
      d.pending
    refine .inl ⟨registered_rejected d.pending, ho.nextId, ?_⟩
    rw [queued, close_eq, ho.queue]
    exact List.Sublist.refl _
  | shutdown =>
    have ho := rejectAll_outline
      { d with pending := [], closed := d.closed <|> some Closing.stopped.reason } .stopped
      d.pending
    refine .inl ⟨registered_rejected d.pending, ho.nextId, ?_⟩
    rw [queued_concat_shutdown, queued, close_eq, ho.queue]
    exact List.Sublist.refl _
  | hangUp rest hh hq =>
    refine .inl ⟨rfl, rfl, ?_⟩
    rw [queued_shutdown hq]
    exact List.Sublist.refl _
  | pass id rest hh hq =>
    refine .inl ⟨rfl, rfl, ?_⟩
    rw [queued_cons hq]
    exact List.sublist_cons_self ..
  | refuse c => exact .inl ⟨rfl, rfl, hremove c.id⟩
  | register c rest hh hq hc hw ho => exact .inr (.inr ⟨c, hc, rfl, rfl, queued_cons hq, hh, ho⟩)
  | written c => exact .inl ⟨rfl, rfl, List.Sublist.refl _⟩
  | writeFailed c message =>
    refine .inl ⟨registered_eq_nil fun n hn ↦ ?_, rfl, hremove c.id⟩
    rcases List.mem_append.1 hn with hn | hn
    · obtain ⟨r, -, rfl⟩ := List.mem_map.1 hn
      rfl
    · rw [List.mem_singleton.1 hn]
      rfl
  | deliver chunk =>
    have ho := handOverAll_outline { d with framer := (d.framer.feed chunk).1 }
      (d.framer.feed chunk).2
    refine .inl ⟨registered_handOverAll _ _, ho.nextId, ?_⟩
    rw [queued, Dispatcher.deliver, ho.queue]
    exact List.Sublist.refl _
  | resume c result =>
    refine .inl ⟨?_, rfl, hremove c.id⟩
    obtain he | ⟨t, he⟩ := finish_notices d c result <;> rw [he] <;> rfl
  | expire c => exact .inl ⟨rfl, rfl, hremove c.id⟩
  | cancel c => exact .inl ⟨rfl, rfl, hremove c.id⟩

/-- Requests are made in the order in which the calls have come, and no call makes two. -/
theorem requests_sorted (prompt : Text) (es : List Event) :
    ((requests ((start prompt).run es).2).map Request.call ++
        ((start prompt).run es).1.queued).Pairwise (· < ·) ∧
      ∀ id ∈ (requests ((start prompt).run es).2).map Request.call ++
        ((start prompt).run es).1.queued, id < ((start prompt).run es).1.nextId := by
  refine run_induction (P := fun _ ns d ↦
    ((requests ns).map Request.call ++ d.queued).Pairwise (· < ·) ∧
      ∀ id ∈ (requests ns).map Request.call ++ d.queued, id < d.nextId) ?_
    (fun es e ⟨hs, hlt⟩ ↦ ?_) es
  · simp [requests, registered, start, queued]
  · generalize ((start prompt).run es).2 = ns at hs hlt ⊢
    generalize ((start prompt).run es).1 = d at hs hlt ⊢
    have hreq (l : List Notice) : requests (ns ++ l) = requests ns ++ registered l := by
      simp [requests]
    obtain ⟨hr, hn, hq⟩ | ⟨hr, hn, hq⟩ | ⟨c, hc, hr, hn, hq, -⟩ := (step_outcome d e).order
    · rw [hreq, hr, List.append_nil, hn]
      have hsub := hq.append_left ((requests ns).map Request.call)
      exact ⟨hs.sublist hsub, fun id hid ↦ hlt id (hsub.subset hid)⟩
    · rw [hreq, hr, List.append_nil, hn, hq, ← List.append_assoc, List.pairwise_append]
      refine ⟨⟨hs, List.pairwise_singleton _ _, ?_⟩, List.forall_mem_append.2 ⟨?_, ?_⟩⟩
      · exact fun a ha b hb ↦ List.mem_singleton.1 hb ▸ hlt a ha
      · exact fun id hid ↦ Nat.lt_succ_of_lt (hlt id hid)
      · exact fun id hid ↦ List.mem_singleton.1 hid ▸ Nat.lt_succ_self _
    · have he : (requests (ns ++ (d.step e).2)).map Request.call ++ (d.step e).1.queued =
          (requests ns).map Request.call ++ d.queued := by
        rw [hreq, hr, hq]
        simp [registered, Notice.registered?]
      rw [he, hn]
      exact ⟨hs, hlt⟩

theorem requests_nodup (prompt : Text) (es : List Event) :
    ((requests ((start prompt).run es).2).map Request.call).Nodup :=
  (List.pairwise_append.1 (requests_sorted prompt es).1).1.imp Nat.ne_of_lt

theorem ne_zero_of_registered {prompt : Text} {es : List Event} {r : Request}
    (h : r ∈ registered ((start prompt).run es).2) : r.call ≠ 0 := by
  have hn := requests_nodup prompt es
  rw [requests, List.map_cons, List.nodup_cons] at hn
  exact fun h0 ↦ hn.1 (List.mem_map.2 ⟨r, h, h0⟩)

def commands (es : List Event) : List Text := greeting :: es.filterMap Event.command?

theorem commands_concat (es : List Event) (e : Event) :
    commands (es ++ [e]) = commands es ++ e.command?.toList := by
  cases h : e.command? <;> simp [commands, h]

theorem getElem?_commands_concat {es : List Event} {id : CallId} {command : Text} (e : Event)
    (h : (commands es)[id]? = some command) : (commands (es ++ [e]))[id]? = some command := by
  rw [commands_concat, List.getElem?_append_left (List.getElem?_eq_some_iff.1 h).1, h]

structure Named (es : List Event) (ns : List Notice) (d : Dispatcher) : Prop where
  length : (commands es).length = d.nextId
  calls : ∀ c ∈ d.calls, (commands es)[c.id]? = some c.command
  requests : ∀ r ∈ requests ns, (commands es)[r.call]? = some r.command

theorem Outcome.length_commands {d d' : Dispatcher} {e : Event} {ns : List Notice}
    (h : Outcome d e d' ns) : d'.nextId = d.nextId + e.command?.toList.length := by
  cases h with
  | idle e he =>
    cases e with
    | submit => simp [Event.call?] at he
    | _ => rfl
  | close c => exact (rejectAll_outline _ c d.pending).nextId
  | shutdown => exact (rejectAll_outline _ .stopped d.pending).nextId
  | deliver chunk => exact (handOverAll_outline _ _).nextId
  | _ => rfl

theorem Named.step {es : List Event} {ns : List Notice} {d : Dispatcher} (h : Named es ns d)
    (ho : Orderly d) (e : Event) :
    Named (es ++ [e]) (ns ++ (d.step e).2) (d.step e).1 := by
  have hs := step_outcome d e
  constructor
  case length => rw [commands_concat, List.length_append, h.length, hs.length_commands]
  case calls =>
    intro c hc
    obtain ⟨hi, he⟩ | ⟨c₀, hc₀, hi, hcommand⟩ := (hs.origin ho hc).source
    · rw [commands_concat, hi, ← h.length, he]
      simp
    · rw [← hi, ← hcommand]
      exact getElem?_commands_concat e (h.calls c₀ hc₀)
  case requests =>
    intro r hr
    simp only [Dispatcher.requests, registered_append, ← List.cons_append, List.mem_append] at hr
    rcases hr with hr | hr
    · exact getElem?_commands_concat e (h.requests r hr)
    · obtain ⟨hn, -⟩ | ⟨hn, -⟩ | ⟨c, hc, hn, -⟩ := hs.order
      · simp [hn] at hr
      · simp [hn] at hr
      · rw [hn] at hr
        obtain rfl : r = ⟨c.id, c.command⟩ := by simpa [registered, Notice.registered?] using hr
        exact getElem?_commands_concat e (h.calls c hc)

theorem named_run (prompt : Text) (es : List Event) :
    Named es ((start prompt).run es).2 ((start prompt).run es).1 := by
  refine run_induction (P := Named) ?_ (fun es e h ↦ h.step (orderly_run prompt es) e) es
  constructor <;> simp [commands, requests, registered, start]

theorem mem_resolved_of_answered {ns : List Notice} {r : Request} {f : Frame}
    (h : .answered r f ∈ ns) : r ∈ resolved ns := List.mem_filterMap.2 ⟨_, h, rfl⟩

theorem mem_requests_of_resolved {prompt : Text} {es : List Event} {r : Request}
    (h : r ∈ resolved ((start prompt).run es).2) : r ∈ requests ((start prompt).run es).2 :=
  (resolved_run prompt es).subset (List.mem_append_left _ h)

def Notice.ended? : Notice → Option Call
  | .returned c _ => some c
  | .cancelled c => some c
  | _ => none

/-- The ways in which a call can end with an event that leads from `d` to `d'`. -/
inductive Ending (d : Dispatcher) (e : Event) (d' : Dispatcher) (c : Call) : Notice → Prop
  | refused (rest : List Waiter) (message : Text) (hq : d.queue = .call c.id :: rest) :
    Ending d e d' c (.returned c (.error (.transport message)))
  | unwritten (reason message : Text) (hs : c.stage = .writing) (he : e = .writeFailed c.id reason)
      (hp : d'.pending = d.pending.dropLast) :
    Ending d e d' c (.returned c (.error (.transport message)))
  | answered (result : Except SessionError Frame) (hs : c.stage = .waiting)
      (ha : c.answer = some result) : Ending d e d' c (.returned c result)
  | expired (elapsed : Duration) (hs : c.stage = .waiting) (ha : c.answer = none) :
    Ending d e d' c (.returned c (.error (.timeout c.command elapsed)))
  | cancelled : Ending d e d' c (.cancelled c)

theorem Outcome.of_ended {d d' : Dispatcher} {e : Event} {ns : List Notice}
    (h : Outcome d e d' ns) {n : Notice} (hn : n ∈ ns) {c : Call} (he : n.ended? = some c) :
    c ∈ d.calls ∧ d'.calls = (d.remove c.id).calls ∧ Ending d e d' c n := by
  cases h with
  | refuse c₁ rest message hh hq hc =>
    obtain rfl := List.mem_singleton.1 hn
    cases he
    exact ⟨hc, rfl, .refused rest message hq⟩
  | writeFailed c₁ message hc hs =>
    rcases List.mem_append.1 hn with hn | hn
    · obtain ⟨r, -, rfl⟩ := List.mem_map.1 hn
      cases he
    · obtain rfl := List.mem_singleton.1 hn
      cases he
      exact ⟨hc, rfl, .unwritten message _ hs rfl rfl⟩
  | resume c₁ result hc hs ha =>
    obtain ht | ⟨t, ht⟩ := finish_notices d c₁ result
    · rw [ht] at hn
      obtain rfl := List.mem_singleton.1 hn
      cases he
      exact ⟨hc, rfl, .answered result hs ha⟩
    · rw [ht, List.mem_pair] at hn
      obtain rfl | rfl := hn
      · cases he
      · cases he
        exact ⟨hc, rfl, .answered result hs ha⟩
  | expire c₁ elapsed hc hs ha =>
    obtain rfl := List.mem_singleton.1 hn
    cases he
    exact ⟨hc, rfl, .expired elapsed hs ha⟩
  | cancel c₁ hc =>
    obtain rfl := List.mem_singleton.1 hn
    cases he
    exact ⟨hc, rfl, .cancelled⟩
  | deliver chunk =>
    rcases mem_handOverAll hn with ⟨r, f, rfl⟩ | ⟨f, rfl⟩ <;> cases he
  | close closing =>
    obtain ⟨r, -, rfl⟩ := List.mem_map.1 hn
    cases he
  | shutdown =>
    obtain ⟨r, -, rfl⟩ := List.mem_map.1 hn
    cases he
  | register =>
    obtain rfl := List.mem_singleton.1 hn
    cases he
  | written =>
    obtain rfl := List.mem_singleton.1 hn
    cases he
  | hangUp =>
    obtain rfl := List.mem_singleton.1 hn
    cases he
  | idle => cases hn
  | submit => cases hn
  | pass => cases hn

theorem Outcome.of_returned {d d' : Dispatcher} {e : Event} {ns : List Notice}
    (h : Outcome d e d' ns) {c : Call} {frame : Frame} (hn : .returned c (.ok frame) ∈ ns) :
    c ∈ d.calls ∧ c.stage = .waiting ∧ c.answer = some (.ok frame) := by
  obtain ⟨hc, -, hend⟩ := h.of_ended hn rfl
  cases hend with
  | answered result hs ha => exact ⟨hc, hs, ha⟩

def AnsweredWith (ns : List Notice) (c : Call) (frame : Frame) : Prop :=
  ∃ r f, r.call = c.id ∧ .answered r f ∈ ns ∧ frame = f.echoed r.command

theorem AnsweredWith.append {ns : List Notice} {c : Call} {frame : Frame}
    (h : AnsweredWith ns c frame) (ns' : List Notice) : AnsweredWith (ns ++ ns') c frame := by
  obtain ⟨r, f, hr, hn, he⟩ := h
  exact ⟨r, f, hr, List.mem_append_left _ hn, he⟩

theorem answeredWith_run (prompt : Text) (es : List Event) :
    ∀ c ∈ ((start prompt).run es).1.calls, ∀ frame, c.answer = some (.ok frame) →
      AnsweredWith ((start prompt).run es).2 c frame := by
  refine run_induction (P := fun _ ns d ↦ ∀ c ∈ d.calls, ∀ frame, c.answer = some (.ok frame) →
    AnsweredWith ns c frame) (by simp [start]) (fun es e h c hc frame ha ↦ ?_) es
  cases (step_outcome _ e).origin (orderly_run prompt es) hc with
  | kept _ hm => exact (h c hm frame ha).append _
  | submitted => cases ha
  | registered c₀ hm => exact (h c₀ hm frame ha).append _
  | written c₀ hm => exact (h c₀ hm frame ha).append _
  | answered c₀ r f hm hr hn =>
    obtain rfl : f.echoed r.command = frame := by simpa using ha
    exact ⟨r, f, hr, List.mem_append_right _ hn, rfl⟩
  | rejected => cases ha

theorem returned_run (prompt : Text) (es : List Event) :
    ∀ c frame, .returned c (.ok frame) ∈ ((start prompt).run es).2 →
      AnsweredWith ((start prompt).run es).2 c frame ∧ (commands es)[c.id]? = some c.command := by
  refine run_induction (P := fun es ns _ ↦ ∀ c frame, .returned c (.ok frame) ∈ ns →
    AnsweredWith ns c frame ∧ (commands es)[c.id]? = some c.command) (by simp)
    (fun es e h c frame hn ↦ ?_) es
  rcases List.mem_append.1 hn with hn | hn
  · obtain ⟨ha, he⟩ := h c frame hn
    exact ⟨ha.append _, getElem?_commands_concat e he⟩
  · obtain ⟨hc, -, ha⟩ := (step_outcome _ e).of_returned hn
    exact ⟨(answeredWith_run prompt es c hc frame ha).append _,
      getElem?_commands_concat e ((named_run prompt es).calls c hc)⟩

theorem AnsweredWith.own {prompt : Text} {es : List Event} {c : Call} {frame : Frame}
    (h : AnsweredWith ((start prompt).run es).2 c frame)
    (hc : (commands es)[c.id]? = some c.command) :
    ∃ f, .answered ⟨c.id, c.command⟩ f ∈ ((start prompt).run es).2 ∧
      frame = f.echoed c.command := by
  obtain ⟨r, f, hr, hn, rfl⟩ := h
  have hm := (named_run prompt es).requests r
    (mem_requests_of_resolved (mem_resolved_of_answered hn))
  rw [hr, hc, Option.some.injEq] at hm
  obtain rfl : r = ⟨c.id, c.command⟩ := by rw [hm, ← hr]
  exact ⟨f, hn, rfl⟩

end Prompter.Dispatcher
