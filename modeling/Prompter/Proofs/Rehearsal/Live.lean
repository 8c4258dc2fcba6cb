import Prompter.Proofs.Rehearsal.World
import Prompter.Proofs.Session.Attached
import Prompter.Rehearsal.Run

namespace Prompter

namespace Dispatcher

open Session (Live)

theorem shutDowns_append (a b : List Notice) :
    Live.shutDowns (a ++ b) = Live.shutDowns a + Live.shutDowns b := List.countP_append

theorem count_shutdown_step (d : Dispatcher) :
    (d.step .shutdown).1.queue.count .shutdown = d.queue.count .shutdown + 1 := by
  change List.count .shutdown ((d.close .stopped).1.queue ++ [.shutdown]) = _
  rw [close_eq, (rejectAll_outline _ .stopped d.pending).queue, List.count_append]
  rfl

theorem Outcome.count_shutdown_le {d d' : Dispatcher} {e : Event} {ns : List Notice}
    (h : Outcome d e d' ns) :
    d.queue.count .shutdown ≤ d'.queue.count .shutdown + Live.shutDowns ns := by
  have hkept (hq : d'.queue.count .shutdown = d.queue.count .shutdown) :
      d.queue.count .shutdown ≤ d'.queue.count .shutdown + Live.shutDowns ns :=
    Nat.le_add_right_of_le hq.ge
  have hremove (d : Dispatcher) (id : CallId) :
      (d.remove id).queue.count .shutdown = d.queue.count .shutdown := by
    simp [remove, List.count_filter]
  cases h with
  | idle => exact hkept rfl
  | submit => exact hkept (by simp [Dispatcher.submit])
  | close c => exact hkept (by rw [close_eq, (rejectAll_outline _ c d.pending).queue])
  | shutdown =>
    exact Nat.le_add_right_of_le (Nat.le_of_lt (d.count_shutdown_step.symm ▸ Nat.lt_succ_self _))
  | hangUp rest hh hq => simp [hq, Live.shutDowns]
  | pass id rest hh hq => exact hkept (by simp [hq])
  | register c rest hh hq => exact hkept (by simp [hq, Dispatcher.register])
  | written => exact hkept rfl
  | deliver chunk => exact hkept (by rw [Dispatcher.deliver, (handOverAll_outline _ _).queue])
  | writeFailed c => exact hkept (hremove _ c.id)
  | refuse c | resume c | expire c | cancel c => exact hkept (hremove d c.id)

end Dispatcher

namespace Connection

open Dispatcher Session

theorem count_shutdown_run_le (c : Connection) (es : List Event) :
    c.dispatcher.queue.count .shutdown ≤
      (c.run es).1.dispatcher.queue.count .shutdown + Live.shutDowns (c.run es).2 := by
  refine run_induction (P := fun ns d ↦ c.dispatcher.queue.count .shutdown ≤
    d.queue.count .shutdown + Live.shutDowns ns) (fun ns d e h ↦ ?_) [] (Nat.le_add_right _ _) es
  have he := (step_outcome d e).count_shutdown_le
  rw [shutDowns_append]
  omega

theorem count_shutdown_lt {c : Connection} {es : List Event}
    (h : (c.run (.dispatch .shutdown :: es)).1.dispatcher.queue = []) :
    c.dispatcher.queue.count .shutdown <
      Live.shutDowns (c.run (.dispatch .shutdown :: es)).2 := by
  have hfirst : (c.step .shutdown).1.dispatcher.queue.count .shutdown =
      c.dispatcher.queue.count .shutdown + 1 := c.dispatcher.count_shutdown_step
  have happend : Live.shutDowns (c.run (.dispatch .shutdown :: es)).2 =
      Live.shutDowns (c.step .shutdown).2 + Live.shutDowns ((c.step .shutdown).1.run es).2 :=
    shutDowns_append _ _
  have hnil : ((c.step .shutdown).1.run es).1.dispatcher.queue = [] := h
  have hle := (c.step .shutdown).1.count_shutdown_run_le es
  rw [hnil, List.count_nil, hfirst] at hle
  omega

end Connection

namespace Rehearsal

open Dispatcher Session

variable {w w' : World} {l : Live} {prompt : Text} {ns : List Notice}

theorem returned?_eq (id : CallId) (ns : List Notice) :
    Live.returned? id ns = ((returns ns).find? (·.1 = id)).map (·.2) := by
  induction ns with
  | nil => rfl
  | cons n ns ih =>
    cases n with
    | returned c result =>
      by_cases hid : c.id = id
      · simp [Live.returned?, returns, hid]
      · simpa [Live.returned?, returns, hid] using ih
    | _ => exact ih

namespace Play

variable {α β : Type} {x : Play α} {f : α → Play β}

theorem run_bind_ok {a : α} (h : x.run w = (.ok a, w')) : (x >>= f).run w = (f a).run w' := by
  change ExceptT.bindCont f (x w).1 (x w).2 = _
  rw [show x w = _ from h]
  rfl

theorem run_bind_error {e : Failure} (h : x.run w = (.error e, w')) :
    (x >>= f).run w = (.error e, w') := by
  change ExceptT.bindCont f (x w).1 (x w).2 = _
  rw [show x w = _ from h]
  rfl

theorem run_tryCatch_ok {g : Failure → Play α} {a : α} (h : x.run w = (.ok a, w')) :
    (tryCatch x g).run w = (.ok a, w') := by
  have hx : x w = _ := h
  simp only [tryCatch, tryCatchThe, MonadExceptOf.tryCatch, ExceptT.tryCatch, ExceptT.run,
    ExceptT.mk, bind, StateT.bind, hx]
  rfl

theorem run_tryCatch_error {g : Failure → Play α} {e : Failure} (h : x.run w = (.error e, w')) :
    (tryCatch x g).run w = (g e).run w' := by
  have hx : x w = _ := h
  simp only [tryCatch, tryCatchThe, MonadExceptOf.tryCatch, ExceptT.tryCatch, ExceptT.run,
    ExceptT.mk, bind, StateT.bind, hx]

end Play

open Play

theorem run_submit (w : World) (commands : List Text) (echo : Echo) :
    (submit commands echo).run w = (.ok (List.range' w.dispatcher.nextId commands.length),
      (commands.foldl (fun w command ↦ w.dispatch (.submit command echo)) w).settle) := rfl

theorem run_await (w : World) (ids : List CallId) :
    (await ids).run w = ((w.await ids).1.elim (.error .hang) .ok, (w.await ids).2) := by
  have hget : (get : Play World).run w = (.ok w, w) := rfl
  unfold await
  rw [run_bind_ok hget]
  obtain ⟨results, w'⟩ := w.await ids
  cases results <;> rfl

theorem awaitOne_cases (w : World) (id : CallId) :
    ∃ w', Passes w w' ∧
      ((∃ answer, w'.result? id = some answer ∧ (awaitOne [id]).run w = (.ok answer, w')) ∨
        w'.result? id = none ∧
          (awaitOne [id]).run w = (.error .hang, { w' with clock := w'.horizon })) := by
  have hrun := run_await w [id]
  obtain ⟨w', hpasses, ⟨results, hr, he⟩ | ⟨hr, he⟩⟩ := w.await_cases [id]
  · rw [he] at hrun
    refine ⟨w', hpasses, .inl ?_⟩
    cases hid : w'.result? id with
    | none => simp [hid] at hr
    | some answer =>
      obtain rfl : [answer] = results := by simpa [hid] using hr
      exact ⟨answer, rfl, run_bind_ok hrun⟩
  · rw [he] at hrun
    refine ⟨w', hpasses, .inr ⟨?_, run_bind_error hrun⟩⟩
    cases hid : w'.result? id with
    | none => rfl
    | some answer => simp [hid] at hr

theorem call_cases (w : World) (command : Text) (echo : Echo) :
    ∃ w', Passes (w.dispatch (.submit command echo)) w' ∧
      ((∃ answer, w'.result? w.dispatcher.nextId = some answer ∧
          (call command echo).run w = (.ok answer, w')) ∨
        w'.result? w.dispatcher.nextId = none ∧
          (call command echo).run w = (.error .hang,
            { w' with clock := w'.horizon }.cancel [w.dispatcher.nextId])) := by
  have hsubmit := run_bind_ok (f := fun ids ↦ tryCatch (awaitOne ids) fun e ↦ do
    modify (·.cancel ids)
    throw e) (run_submit w [command] echo)
  obtain ⟨w', hpasses, hawait⟩ :=
    awaitOne_cases (w.dispatch (.submit command echo)).settle w.dispatcher.nextId
  refine ⟨w', (World.passes_settle _).trans hpasses, ?_⟩
  refine hawait.imp (fun ⟨answer, hid, he⟩ ↦ ?_) fun ⟨hid, he⟩ ↦ ?_
  · exact ⟨answer, hid, hsubmit.trans (run_tryCatch_ok he)⟩
  · exact ⟨hid, hsubmit.trans (run_tryCatch_error he)⟩

theorem call_passes (w : World) (command : Text) (echo : Echo) :
    ∃ (r : Option (Except SessionError Frame)) (w' : World),
      (call command echo).run w = (r.elim (.error .hang) .ok, w') ∧ Passes w w' := by
  have hsubmit := w.passes_submit command echo
  obtain ⟨w', hpasses, ⟨answer, -, he⟩ | ⟨-, he⟩⟩ := call_cases w command echo
  · exact ⟨some answer, w', he, hsubmit.trans hpasses⟩
  · have hclock := (hsubmit.trans hpasses).trans (w'.passes_clock w'.horizon)
    exact ⟨none, _, he, hclock.trans (World.passes_cancel _ _)⟩

/-- The rehearsal is where the live session is, or further on. -/
structure Follows (l : Live) (w : World) : Prop where
  connection : ∃ es, w.connection = (l.connection.run es).1
  state : w.state = l.state

theorem Follows.passes (h : Follows l w) (hp : Passes w w') : Follows l w' := by
  obtain ⟨es, hc⟩ := h.connection
  obtain ⟨es', hs⟩ := hp.runs
  refine ⟨⟨es ++ es', ?_⟩, hp.state.trans h.state⟩
  rw [hs.connection, hc, Connection.run_append]

theorem ask_of_returned {command : Text} {echo : Echo} {events : List Connection.Event}
    {r : Option (Except SessionError Frame)}
    (h : Live.returned? l.connection.dispatcher.nextId
      (l.connection.run (.dispatch (.submit command echo) :: events)).2 = r) :
    ∃ l', { l with waits := [{ events }] }.ask command echo = (r, l') ∧ l'.state = l.state ∧
      l'.connection =
        let c := (l.connection.run (.dispatch (.submit command echo) :: events)).1
        r.elim (c.run [.dispatch (.cancel l.connection.dispatcher.nextId)]).1 fun _ ↦ c := by
  simp only [Live.ask, Live.nextWait, Live.happen, List.headD_cons, List.tail_cons, h]
  cases r <;> exact ⟨_, rfl, rfl, rfl⟩

theorem call_ask (hw : Regular prompt w) (hc : w.connection = l.connection) (hs : w.state = l.state)
    (command : Text) (echo : Echo) :
    ∃ events r w' l', (call command echo).run w = (r.elim (.error .hang) .ok, w') ∧
      { l with waits := [{ events }] }.ask command echo = (r, l') ∧ Passes w w' ∧
      Follows l' w' ∧ (r.isSome → w'.connection = l'.connection) := by
  obtain ⟨w₁, hpasses, hcall⟩ := call_cases w command echo
  obtain ⟨es, hshows⟩ := World.exists_shows_of_apply hpasses.runs
  have hall := (w.passes_submit command echo).trans hpasses
  have hresult := (hw.result?_eq (hw.goes hall.toGoes) hshows (Nat.le_refl _)).symm
  have hc₁ := hshows.connection
  rw [← returned?_eq, World.dispatcher, hc] at hresult
  rw [World.dispatcher, hc] at hcall
  rw [hc] at hc₁
  obtain ⟨answer, hr, he⟩ | ⟨hr, he⟩ := hcall
  · obtain ⟨l', hask, hstate, hl'⟩ := ask_of_returned (hresult.trans hr)
    have heq : w₁.connection = l'.connection := hc₁.trans hl'.symm
    refine ⟨es, some answer, w₁, l', he, hask, hall, ⟨⟨[], heq⟩, ?_⟩, fun _ ↦ heq⟩
    rw [hall.state, hs, hstate]
  · obtain ⟨l', hask, hstate, hl'⟩ := ask_of_returned (hresult.trans hr)
    let cancelled := ({ w₁ with clock := w₁.horizon } : World).dispatch
      (.cancel l.connection.dispatcher.nextId)
    have hcancelled : Passes w cancelled :=
      (hall.trans (w₁.passes_clock w₁.horizon)).trans (World.passes_dispatch _ Event.noConfusion)
    have hsettle := cancelled.passes_settle
    have hfollows : Follows l' cancelled := by
      refine ⟨⟨[], ?_⟩, by rw [hcancelled.state, hs, hstate]⟩
      have hc₂ : cancelled.connection = _ := World.connection_apply _ _
      rw [hl', hc₂, ← hc₁]
      rfl
    refine ⟨es, none, _, l', he, hask, hcancelled.trans hsettle, hfollows.passes hsettle, ?_⟩
    exact fun hsome ↦ Bool.noConfusion hsome

theorem hangUp_of_shutDown {events : List Connection.Event}
    (h : l.connection.dispatcher.queue.count .shutdown <
      Live.shutDowns (l.connection.run (.dispatch .shutdown :: events)).2) :
    ∃ l', { l with waits := [{ events }] }.hangUp = (some (.ok ()), l') ∧ l'.state = l.state ∧
      l'.connection = (l.connection.run (.dispatch .shutdown :: events)).1 := by
  simp only [Live.hangUp, Live.nextWait, Live.happen, List.headD_cons, List.tail_cons, h, if_true]
  exact ⟨_, rfl, rfl, rfl⟩

/-- A live session with the same connection need not wait in vain for its end. -/
theorem shutdown_hangUp (hw : Regular prompt w) (hc : w.connection = l.connection) :
    ∃ events l', { l with waits := [{ events }] }.hangUp = (some (.ok ()), l') ∧
      l'.state = l.state ∧ (w.dispatch .shutdown).settle.connection = l'.connection := by
  have hsettle := (w.dispatch .shutdown).passes_settle
  obtain ⟨es, hshows⟩ := World.exists_shows_of_apply hsettle.runs
  have hqueue := hw.queue_of_shutdown
  rw [World.dispatcher, hshows.connection, hc] at hqueue
  obtain ⟨l', hhang, hstate, hl'⟩ := hangUp_of_shutDown (Connection.count_shutdown_lt hqueue)
  exact ⟨es, l', hhang, hstate, by rw [hshows.connection, hc, hl']⟩

variable {α : Type}

theorem hold_ask {command : Text} {echo : Echo} {next : Except SessionError Frame → Dialogue α}
    {r : Option (Except SessionError Frame)}
    (h : (call command echo).run w = (r.elim (.error .hang) .ok, w')) :
    ((Dialogue.ask command echo next).hold host).run w =
      r.elim (.error .hang, w') fun answer ↦ ((next answer).hold host).run w' := by
  cases r with
  | none => exact run_bind_error h
  | some answer => exact run_bind_ok h

/-- A dialogue goes as in a live session, in which certain things happen while it waits. -/
theorem hold_converse (d : Dialogue α) (hw : Regular prompt w) (hc : w.connection = l.connection)
    (hs : w.state = l.state) :
    ∃ waits r w' l', (d.hold host).run w = (r.elim (.error .hang) .ok, w') ∧ Regular prompt w' ∧
      Follows l' w' ∧ ∀ more, { l with waits := waits ++ more }.converse d =
        (r, { l' with waits := more }) := by
  induction d generalizing w l with
  | done a => exact ⟨[], some a, w, l, rfl, hw, ⟨⟨[], hc⟩, hs⟩, fun more ↦ rfl⟩
  | ask command echo next ih =>
    obtain ⟨events, r, w', l', hcall, hask, hpasses, hfollows, hsame⟩ :=
      call_ask hw hc hs command echo
    have hw' := hw.goes hpasses.toGoes
    have hwaits (waits : List Wait) : { l with waits := { events } :: waits }.ask command echo =
        (r, { l' with waits }) := by
      rw [(l.ask_waits command echo { events } waits).1, hask]
    cases r with
    | none =>
      refine ⟨[{ events }], none, w', l', hold_ask hcall, hw', hfollows, fun more ↦ ?_⟩
      rw [List.singleton_append, Live.converse_ask (hwaits more)]
      rfl
    | some answer =>
      obtain ⟨waits, r, w'', l'', hhold, hw'', hf, hconverse⟩ :=
        ih answer hw' (hsame rfl) hfollows.state
      refine ⟨{ events } :: waits, r, w'', l'', (hold_ask hcall).trans hhold, hw'', hf,
        fun more ↦ ?_⟩
      rw [List.cons_append, Live.converse_ask (hwaits (waits ++ more))]
      exact hconverse more
  | look next ih =>
    obtain ⟨waits, r, w', l', hhold, hw', hf, hconverse⟩ := ih l.state hw hc hs
    refine ⟨waits, r, w', l', ?_, hw', hf, hconverse⟩
    rw [← hs] at hhold
    exact hhold
  | become s next ih =>
    have hbecome : Regular prompt { w with state := s } :=
      hw.goes (.of_shows ⟨rfl, rfl, rfl, rfl⟩)
    exact ih (l := { l with state := s }) hbecome hc rfl
  | hangUp next ih =>
    obtain ⟨events, l', hhang, hstate, hsame⟩ := shutdown_hangUp hw hc
    have hpasses := w.passes_shutdown.trans (World.passes_settle _)
    have hwaits (waits : List Wait) : { l with waits := { events } :: waits }.hangUp =
        (some (.ok ()), { l' with waits }) := by
      rw [(l.hangUp_waits { events } waits).1, hhang]
    obtain ⟨waits, r, w'', l'', hhold, hw'', hf, hconverse⟩ :=
      ih (.ok ()) (hw.goes hpasses.toGoes) hsame (by rw [hpasses.state, hs, hstate])
    refine ⟨{ events } :: waits, r, w'', l'', hhold, hw'', hf, fun more ↦ ?_⟩
    rw [List.cons_append, Live.converse_hangUp (hwaits (waits ++ more))]
    exact hconverse more

end Rehearsal

end Prompter
