import Prompter.Proofs.Dispatcher.Publicity
import Prompter.Proofs.Dispatcher.Shut
import Prompter.Rehearsal.World

namespace Prompter

namespace Dispatcher

variable {d d' : Dispatcher} {e : Event} {ns : List Notice}

/-- No line is being written. -/
def Idle (d : Dispatcher) : Prop := ∀ c ∈ d.calls, c.stage ≠ .writing

theorem Outcome.idle_of_ne (h : Outcome d e d' ns) (ho : Orderly d) (he : e ≠ .takeTurn)
    (hd : Idle d) : Idle d' := by
  intro c hc
  cases h.origin ho hc with
  | kept _ hm => exact hd c hm
  | submitted => exact Stage.noConfusion
  | registered c₀ hm ht => exact absurd ht he
  | written => exact Stage.noConfusion
  | answered c₀ r f hm => exact hd c₀ hm
  | rejected c₀ r error hm => exact hd c₀ hm

namespace Orderly

theorem idle_of_writing (h : Orderly d) (hw : d.writing = []) : Idle d := by
  intro c hc hs
  rw [h.writing_of_mem hc hs] at hw
  cases hw

theorem idle_of_holder (h : Orderly d) {id : CallId} (hh : d.holder = some id)
    (he : e = .written id ∨ ∃ message, e = .writeFailed id message) : Idle (d.step e).1 := by
  have hout := step_outcome d e
  obtain ⟨c, hc, rfl, -⟩ := h.of_holder id hh
  have hfind := h.find?_eq hc
  by_cases hs : c.stage = .writing
  · apply (h.outcome hout).idle_of_writing
    obtain rfl | ⟨message, rfl⟩ := he
    · simpa only [step, onCall, hfind, hs, if_true] using h.writing_written hc hs
    · have h' : Orderly { d with pending := d.pending.dropLast } := { h with }
      simp only [step, onCall, hfind, hs, if_true]
      exact h'.writing_remove_self hc hs
  · refine hout.idle_of_ne h ?_ fun c' hc' hs' ↦ ?_
    · obtain rfl | ⟨message, rfl⟩ := he <;> exact Event.noConfusion
    · have hturn := h.turn_of_writing hc' hs'
      rw [hh, Option.some.injEq] at hturn
      exact hs (h.eq_of_id hc' hc hturn.symm ▸ hs')

end Orderly

def load (d : Dispatcher) : Nat := d.queue.length + d.calls.length

theorem load_remove_le (d : Dispatcher) (id : CallId) : (d.remove id).load ≤ d.load :=
  Nat.add_le_add (List.length_filter_le ..) (List.length_filter_le ..)

theorem load_remove_lt {c : Call} (hc : c ∈ d.calls) : (d.remove c.id).load < d.load :=
  Nat.add_lt_add_of_le_of_lt (List.length_filter_le ..)
    (List.length_filter_lt_length_iff_exists.2 ⟨c, hc, by simp⟩)

theorem SameOutline.load_eq (h : SameOutline d d') : d'.load = d.load := by
  have hlength := congrArg List.length h.calls
  simp only [List.length_map] at hlength
  rw [load, load, h.queue, hlength]

theorem load_written_le (d : Dispatcher) (id : CallId) :
    (d.step (.written id)).1.load ≤ d.load := by
  simp only [step, onCall]
  split
  · split
    · simp [load, written, updateCall]
    · exact Nat.le_refl _
  · exact Nat.le_refl _

theorem load_writeFailed_le (d : Dispatcher) (id : CallId) (message : Text) :
    (d.step (.writeFailed id message)).1.load ≤ d.load := by
  simp only [step, onCall]
  split
  · split
    · exact load_remove_le { d with pending := d.pending.dropLast } _
    · exact Nat.le_refl _
  · exact Nat.le_refl _

theorem load_takeTurn_lt (hh : d.holder = none) (hq : d.queue ≠ []) :
    d.takeTurn.1.load < d.load := by
  cases hqueue : d.queue with
  | nil => exact absurd hqueue hq
  | cons waiter rest =>
    have hrest : { d with queue := rest }.load < d.load := by simp [load, hqueue]
    cases waiter with
    | shutdown =>
      simp only [takeTurn, hh, hqueue]
      exact hrest
    | call id =>
      simp only [takeTurn, hh, hqueue]
      split
      · exact hrest
      · split
        · exact Nat.lt_of_le_of_lt (load_remove_le _ _) hrest
        · split
          · exact Nat.lt_of_le_of_lt (load_remove_le _ _) hrest
          · simpa [register, load, updateCall] using hrest

end Dispatcher

namespace Connection

open Dispatcher

theorem load_read (c : Connection) (r : Read) :
    (c.read r).1.dispatcher.load = c.dispatcher.load := by
  have hclose (closing : Closing) : (c.dispatcher.close closing).1.load = c.dispatcher.load :=
    (rejectAll_outline _ closing c.dispatcher.pending).load_eq
  unfold read
  split
  · rfl
  · cases r with
    | bytes bs =>
      dsimp only
      split
      · rfl
      · exact (handOverAll_outline _ _).load_eq
    | ended => exact hclose .outputEnded
    | failed message => exact hclose (.readFailed message)

theorem isClosed_run {c : Connection} (h : c.dispatcher.isClosed) (es : List Event) :
    (c.run es).1.dispatcher.isClosed :=
  run_induction (P := fun _ d ↦ d.isClosed) (fun _ d e h ↦ (step_outcome d e).isClosed h) [] h es

theorem exists_run_dispatcher (c : Connection) (es : List Event) :
    ∃ ds, (c.run es).1.dispatcher = (c.dispatcher.run ds).1 ∧
      (c.run es).2 = (c.dispatcher.run ds).2 := by
  refine run_induction (P := fun ns d ↦ ∃ ds, d = (c.dispatcher.run ds).1 ∧
    ns = (c.dispatcher.run ds).2) (fun ns d e ⟨ds, hd, hn⟩ ↦ ⟨ds ++ [e], ?_, ?_⟩) []
    ⟨[], rfl, rfl⟩ es
  · rw [run_concat, hd]
  · rw [run_concat, hd, hn]

end Connection

namespace Rehearsal

open Dispatcher

def returns (ns : List Notice) : List (CallId × Except SessionError Frame) :=
  ns.filterMap fun
    | .returned c result => some (c.id, result)
    | _ => none

def lines (ns : List Notice) : List Text :=
  ns.flatMap fun
    | .wrote text => (Text.splitLines text).dropLast
    | _ => []

/-- The world shows that the connection is `c` now and that `ns` has come about at it. -/
structure Shows (w : World) (c : Connection) (ns : List Notice) (w' : World) : Prop where
  connection : w'.connection = c
  returned : w'.returned = (returns ns).reverse ++ w.returned
  received : w'.received = (lines ns).reverse ++ w.received
  subscriber : w'.subscriber = ns.foldl Subscriber.notify w.subscriber

variable {w w' w'' : World} {c c' : Connection} {ns ns' : List Notice}

theorem Shows.refl (w : World) : Shows w w.connection [] w := ⟨rfl, rfl, rfl, rfl⟩

theorem Shows.trans (h : Shows w c ns w') (h' : Shows w' c' ns' w'') :
    Shows w c' (ns ++ ns') w'' where
  connection := h'.connection
  returned := by simp [h'.returned, h.returned, returns]
  received := by simp [h'.received, h.received, lines]
  subscriber := by rw [h'.subscriber, h.subscriber, List.foldl_append]

namespace World

theorem emit_eq (w : World) (o : Output) :
    ∃ inbound arrivals, w.emit o = { w with inbound, arrivals } := by
  unfold emit
  split
  · exact ⟨_, w.arrivals, rfl⟩
  · exact ⟨w.inbound, _, rfl⟩

theorem receive_eq (w : World) (line : Text) :
    ∃ script inbound arrivals, w.receive line =
      { w with received := line :: w.received, script, inbound, arrivals } := by
  unfold receive
  dsimp only
  split
  next o rest hs =>
    obtain ⟨inbound, arrivals, he⟩ :=
      { w with received := line :: w.received, script := rest }.emit_eq o
    exact ⟨rest, inbound, arrivals, he⟩
  next message rest hs => exact ⟨rest, w.inbound, w.arrivals, rfl⟩
  next =>
    obtain ⟨inbound, arrivals, he⟩ := { w with received := line :: w.received }.emit_eq w.fallback
    exact ⟨w.script, inbound, arrivals, he⟩

theorem foldl_receive_eq (w : World) (ls : List Text) :
    ∃ script inbound arrivals, ls.foldl receive w =
      { w with received := ls.reverse ++ w.received, script, inbound, arrivals } := by
  induction ls generalizing w with
  | nil => exact ⟨w.script, w.inbound, w.arrivals, rfl⟩
  | cons l ls ih =>
    obtain ⟨script, inbound, arrivals, he⟩ := w.receive_eq l
    obtain ⟨script', inbound', arrivals', he'⟩ := ih (w.receive l)
    refine ⟨script', inbound', arrivals', ?_⟩
    rw [List.foldl_cons, he', he]
    simp

theorem shows_observe (w : World) (n : Notice) : Shows w w.connection [n] (w.observe n) := by
  cases n with
  | wrote text =>
    obtain ⟨script, inbound, arrivals, he⟩ := w.foldl_receive_eq (Text.splitLines text).dropLast
    rw [observe, he]
    exact ⟨rfl, rfl, by simp [lines], rfl⟩
  | _ => exact ⟨rfl, rfl, rfl, rfl⟩

theorem shows_foldl_observe (w : World) (ns : List Notice) :
    Shows w w.connection ns (ns.foldl observe w) := by
  induction ns generalizing w with
  | nil => exact .refl w
  | cons n ns ih =>
    have h := (w.shows_observe n).trans (ih (w.observe n))
    rwa [(w.shows_observe n).connection] at h

theorem shows_apply (w : World) (e : Connection.Event) :
    Shows w (w.connection.take e).1 (w.connection.take e).2 (w.apply e) := by
  have h := shows_foldl_observe { w with connection := (w.connection.take e).1 }
    (w.connection.take e).2
  exact ⟨h.connection, h.returned, h.received, h.subscriber⟩

end World

/-- The world goes on by what happens at its connection. -/
def Runs (w w' : World) : Prop :=
  ∃ es, Shows w (w.connection.run es).1 (w.connection.run es).2 w'

/-- A line that is to be written is written at once. -/
structure Goes (w w' : World) : Prop where
  runs : Runs w w'
  idle : Orderly w.dispatcher → Idle w.dispatcher → Idle w'.dispatcher

/-- The snapshot stays what it is. -/
structure Passes (w w' : World) : Prop extends Goes w w' where
  state : w'.state = w.state

theorem Runs.of_shows (h : Shows w w.connection [] w') : Runs w w' := ⟨[], h⟩

theorem Runs.trans (h : Runs w w') (h' : Runs w' w'') : Runs w w'' := by
  obtain ⟨es, hs⟩ := h
  obtain ⟨es', hs'⟩ := h'
  have hboth := hs.trans hs'
  rw [hs.connection] at hboth
  exact ⟨es ++ es', by rwa [Connection.run_append]⟩

theorem Runs.orderly (h : Runs w w') (ho : Orderly w.dispatcher) : Orderly w'.dispatcher := by
  obtain ⟨es, hs⟩ := h
  rw [World.dispatcher, hs.connection]
  exact Connection.orderly_run ho es

theorem Goes.of_shows (h : Shows w w.connection [] w') : Goes w w' where
  runs := .of_shows h
  idle _ hd := by rwa [World.dispatcher, h.connection]

theorem Goes.trans (h : Goes w w') (h' : Goes w' w'') : Goes w w'' where
  runs := h.runs.trans h'.runs
  idle ho hd := h'.idle (h.runs.orderly ho) (h.idle ho hd)

theorem Passes.of_shows (h : Shows w w.connection [] w') (hs : w'.state = w.state) :
    Passes w w' := ⟨.of_shows h, hs⟩

theorem Passes.refl (w : World) : Passes w w := .of_shows (.refl w) rfl

theorem Passes.trans (h : Passes w w') (h' : Passes w' w'') : Passes w w'' :=
  ⟨h.toGoes.trans h'.toGoes, h'.state.trans h.state⟩

theorem Passes.foldl {α : Type} {f : World → α → World} (h : ∀ w a, Passes w (f w a)) (w : World)
    (as : List α) : Passes w (as.foldl f w) := by
  induction as generalizing w with
  | nil => exact .refl w
  | cons a as ih => exact (h w a).trans (ih (f w a))

namespace World

theorem passes_clock (w : World) (time : Nat) : Passes w { w with clock := time } :=
  .of_shows ⟨rfl, rfl, rfl, rfl⟩ rfl

theorem passes_emit (w : World) (o : Output) : Passes w (w.emit o) := by
  obtain ⟨inbound, arrivals, he⟩ := w.emit_eq o
  rw [he]
  exact .of_shows ⟨rfl, rfl, rfl, rfl⟩ rfl

theorem state_observe (w : World) (n : Notice) : (w.observe n).state = w.state := by
  cases n with
  | wrote text =>
    obtain ⟨script, inbound, arrivals, he⟩ := w.foldl_receive_eq (Text.splitLines text).dropLast
    rw [observe, he]
  | _ => rfl

theorem state_apply (w : World) (e : Connection.Event) : (w.apply e).state = w.state := by
  have h (w : World) (ns : List Notice) : (ns.foldl observe w).state = w.state := by
    induction ns generalizing w with
    | nil => rfl
    | cons n ns ih => rw [List.foldl_cons, ih, state_observe]
  exact h _ _

theorem runs_apply (w : World) (e : Connection.Event) : Runs w (w.apply e) :=
  ⟨[e], by simpa [Connection.run] using w.shows_apply e⟩

theorem connection_apply (w : World) (e : Connection.Event) :
    (w.apply e).connection = (w.connection.take e).1 := (w.shows_apply e).connection

theorem dispatcher_dispatch (w : World) (e : Event) :
    (w.dispatch e).dispatcher = (w.dispatcher.step e).1 := by
  rw [dispatcher, dispatch, connection_apply]
  rfl

theorem exists_shows_of_apply {w w' : World} {e : Connection.Event} (h : Runs (w.apply e) w') :
    ∃ es, Shows w (w.connection.run (e :: es)).1 (w.connection.run (e :: es)).2 w' := by
  obtain ⟨es, hs⟩ := h
  have hall := (w.shows_apply e).trans hs
  rw [connection_apply] at hall
  exact ⟨es, hall⟩

theorem passes_apply (w : World) {e : Connection.Event} (he : e ≠ .dispatch .takeTurn) :
    Passes w (w.apply e) where
  runs := w.runs_apply e
  state := w.state_apply e
  idle ho hd := by
    rw [dispatcher, connection_apply]
    obtain ⟨c', htake, hc', -⟩ | ⟨e', c', htake, hc', hsource⟩ := w.connection.take_cases e
    · rw [htake, hc']
      exact hd
    · rw [htake, hc']
      refine (step_outcome _ e').idle_of_ne ho ?_ hd
      obtain rfl | ⟨-, -, hne⟩ := hsource
      · exact fun heq ↦ he (congrArg _ heq)
      · exact hne

theorem passes_dispatch (w : World) {e : Event} (he : e ≠ .takeTurn) : Passes w (w.dispatch e) :=
  w.passes_apply fun heq ↦ he (Connection.Event.dispatch.inj heq)

theorem passes_submit (w : World) (command : Text) (echo : Echo) :
    Passes w (w.dispatch (.submit command echo)) := w.passes_dispatch Event.noConfusion

theorem passes_shutdown (w : World) : Passes w (w.dispatch .shutdown) :=
  w.passes_dispatch Event.noConfusion

theorem passes_readAll (w : World) : Passes w w.readAll := by
  have hnone : Passes w { w with inbound := [] } := .of_shows ⟨rfl, rfl, rfl, rfl⟩ rfl
  have hread (w : World) (r : Read) : Passes w (w.apply (.read r)) :=
    w.passes_apply Connection.Event.noConfusion
  exact hnone.trans (.foldl hread _ w.inbound)

theorem write_eq (w : World) (id : CallId) :
    ∃ e, (e = .written id ∨ ∃ message, e = .writeFailed id message) ∧ Passes w (w.write id) ∧
      (w.write id).dispatcher = (w.dispatcher.step e).1 := by
  unfold write
  split
  next message rest hs =>
    refine ⟨.writeFailed id message, .inr ⟨message, rfl⟩, ?_, ?_⟩
    · have hrest : Passes w { w with script := rest } := .of_shows ⟨rfl, rfl, rfl, rfl⟩ rfl
      exact hrest.trans (passes_dispatch _ Event.noConfusion)
    · exact dispatcher_dispatch _ _
  next =>
    have hpasses := w.passes_dispatch (e := .written id) Event.noConfusion
    have hstep := w.dispatcher_dispatch (.written id)
    refine ⟨.written id, .inl rfl, ?_⟩
    dsimp only
    split
    · exact ⟨hpasses.trans (.of_shows ⟨rfl, rfl, rfl, rfl⟩ rfl), hstep⟩
    · exact ⟨hpasses, hstep⟩

def giveTurn (w : World) : World :=
  let w := w.dispatch .takeTurn
  match w.dispatcher.holder with
  | some id => w.write id
  | none => w

theorem passes_giveTurn (w : World) : Passes w w.giveTurn := by
  have hruns : Runs w (w.dispatch .takeTurn) := w.runs_apply _
  have hstate : (w.dispatch .takeTurn).state = w.state := w.state_apply _
  unfold giveTurn
  dsimp only
  split
  next id hh =>
    obtain ⟨e, he, hpasses, hd⟩ := (w.dispatch .takeTurn).write_eq id
    refine ⟨⟨hruns.trans hpasses.runs, fun ho _ ↦ ?_⟩, hpasses.state.trans hstate⟩
    rw [hd]
    exact (hruns.orderly ho).idle_of_holder hh he
  next hh =>
    refine ⟨⟨hruns, fun ho _ ↦ ?_⟩, hstate⟩
    exact (hruns.orderly ho).idle_of_writing ((hruns.orderly ho).writing_of_holder hh)

theorem load_giveTurn (w : World) (hh : w.dispatcher.holder = none) (hq : w.dispatcher.queue ≠ []) :
    w.giveTurn.dispatcher.load < w.dispatcher.load := by
  have hturn : (w.dispatch .takeTurn).dispatcher.load < w.dispatcher.load := by
    rw [dispatcher_dispatch]
    exact load_takeTurn_lt hh hq
  unfold giveTurn
  dsimp only
  split
  next id _ =>
    obtain ⟨e, he, -, hd⟩ := (w.dispatch .takeTurn).write_eq id
    rw [hd]
    obtain rfl | ⟨message, rfl⟩ := he
    · exact Nat.lt_of_le_of_lt (load_written_le _ id) hturn
    · exact Nat.lt_of_le_of_lt (load_writeFailed_le _ id message) hturn
  next => exact hturn

theorem goOn?_cases (w : World) :
    (∃ c ∈ w.dispatcher.calls, c.stage = .waiting ∧ c.answer.isSome ∧
        w.goOn? = some (w.dispatch (.resume c.id))) ∨
      (w.dispatcher.holder = none ∧ w.dispatcher.queue ≠ [] ∧ w.goOn? = some w.giveTurn) ∨
      ((∀ c ∈ w.dispatcher.calls, c.stage = .waiting → c.answer = none) ∧
        (w.dispatcher.holder.isSome ∨ w.dispatcher.queue = []) ∧ w.goOn? = none) := by
  unfold goOn?
  split
  next c hf =>
    have hc := List.find?_some hf
    simp only [Bool.and_eq_true, decide_eq_true_eq] at hc
    exact .inl ⟨c, List.mem_of_find?_eq_some hf, hc.1, hc.2, rfl⟩
  next hf =>
    have hwaiting (c : Call) (hc : c ∈ w.dispatcher.calls) (hs : c.stage = .waiting) :
        c.answer = none := by
      simpa [hs] using List.find?_eq_none.1 hf c hc
    split
    next hstop => exact .inr (.inr ⟨hwaiting, by simpa using hstop, rfl⟩)
    next hgo =>
      simp only [Bool.or_eq_true, not_or, Bool.not_eq_true, Option.isSome_eq_false_iff,
        Option.isNone_iff_eq_none, List.isEmpty_eq_false_iff] at hgo
      exact .inr (.inl ⟨hgo.1, hgo.2, rfl⟩)

theorem passes_goOn? {w w' : World} (h : w.goOn? = some w') : Passes w w' := by
  obtain ⟨c, -, -, -, he⟩ | ⟨-, -, he⟩ | ⟨-, -, he⟩ := w.goOn?_cases
  · cases he.symm.trans h
    exact w.passes_dispatch Event.noConfusion
  · cases he.symm.trans h
    exact w.passes_giveTurn
  · cases he.symm.trans h

theorem load_goOn? {w w' : World} (ho : Orderly w.dispatcher) (h : w.goOn? = some w') :
    w'.dispatcher.load < w.dispatcher.load := by
  obtain ⟨c, hc, hs, ha, he⟩ | ⟨hh, hq, he⟩ | ⟨-, -, he⟩ := w.goOn?_cases
  · cases he.symm.trans h
    obtain ⟨result, hresult⟩ := Option.isSome_iff_exists.1 ha
    have hstep : (w.dispatcher.step (.resume c.id)).1 = w.dispatcher.remove c.id := by
      rw [step, onCall, ho.find?_eq hc]
      simp only [hs, if_true, hresult]
      rfl
    rw [dispatcher_dispatch, hstep]
    exact load_remove_lt hc
  · cases he.symm.trans h
    exact w.load_giveTurn hh hq
  · cases he.symm.trans h

theorem load_readAll (w : World) : w.readAll.dispatcher.load = w.dispatcher.load := by
  have h (rs : List Read) (w : World) :
      (rs.foldl (fun w r ↦ w.apply (.read r)) w).dispatcher.load = w.dispatcher.load := by
    induction rs generalizing w with
    | nil => rfl
    | cons r rs ih =>
      rw [List.foldl_cons, ih, dispatcher, connection_apply]
      exact w.connection.load_read r
  exact h w.inbound _

theorem passes_settle_go (n : Nat) (w : World) : Passes w (settle.go n w) := by
  induction n generalizing w with
  | zero => exact w.passes_readAll
  | succ n ih =>
    rw [settle.go]
    split
    next w' h => exact (w.passes_readAll.trans (passes_goOn? h)).trans (ih w')
    next => exact w.passes_readAll

theorem passes_settle (w : World) : Passes w w.settle := passes_settle_go _ w

/-- Each turn of the loop takes something off the load, so that nothing can go on at its end. -/
theorem goOn?_settle_go {n : Nat} {w : World} (ho : Orderly w.dispatcher)
    (hn : w.dispatcher.load ≤ n) : (settle.go n w).goOn? = none := by
  have ho' := w.passes_readAll.runs.orderly ho
  induction n generalizing w with
  | zero =>
    rw [settle.go]
    rcases hr : w.readAll.goOn? with _ | w'
    · rfl
    · have hlt := load_goOn? ho' hr
      rw [load_readAll] at hlt
      omega
  | succ n ih =>
    rw [settle.go]
    split
    next w' hr =>
      have hlt := load_goOn? ho' hr
      rw [load_readAll] at hlt
      have ho'' := (passes_goOn? hr).runs.orderly ho'
      exact ih ho'' (by omega) (w'.passes_readAll.runs.orderly ho'')
    next hr => exact hr

theorem goOn?_settle {w : World} (ho : Orderly w.dispatcher) : w.settle.goOn? = none :=
  goOn?_settle_go ho (Nat.le_refl _)

theorem passes_moveTo (w : World) (time : Nat) : Passes w (w.moveTo time) := by
  have hexpire (w : World) (d : CallId × Nat) (elapsed : Duration) :
      Passes w (w.dispatch (.expire d.1 elapsed)) := w.passes_dispatch Event.noConfusion
  unfold moveTo
  refine .trans (.trans ?_ (.foldl (fun w d ↦ hexpire w d _) _ _)) (passes_settle _)
  exact .of_shows ⟨rfl, rfl, rfl, rfl⟩ rfl

theorem passes_passUntil (w : World) (time : Nat) (stop : World → Bool) :
    Passes w (w.passUntil time stop) := by
  have h (n : Nat) (w : World) : Passes w (passUntil.go time stop n w) := by
    induction n generalizing w with
    | zero => exact .refl w
    | succ n ih =>
      rw [passUntil.go]
      split
      · exact .refl w
      · split
        · split
          · exact (w.passes_moveTo _).trans (ih _)
          · exact .refl w
        · exact .refl w
  exact h _ w

theorem await_cases (w : World) (ids : List CallId) :
    ∃ w', Passes w w' ∧
      ((∃ results, ids.mapM w'.result? = some results ∧ w.await ids = (some results, w')) ∨
        ids.mapM w'.result? = none ∧ w.await ids = (none, { w' with clock := w'.horizon })) := by
  refine ⟨w.settle.passUntil w.horizon fun w ↦ ids.all (w.result? · |>.isSome),
    w.passes_settle.trans (passes_passUntil _ _ _), ?_⟩
  unfold await
  dsimp only
  split
  next results h => exact .inl ⟨results, h, rfl⟩
  next h => exact .inr ⟨h, rfl⟩

theorem passes_cancel (w : World) (ids : List CallId) : Passes w (w.cancel ids) := by
  have hcancel (w : World) (id : CallId) : Passes w (w.dispatch (.cancel id)) :=
    w.passes_dispatch Event.noConfusion
  exact .trans (.foldl hcancel w ids) (passes_settle _)

end World

theorem returns_sublist (ns : List Notice) :
    ((returns ns).map Prod.fst).Sublist ((endings ns).map Call.id) := by
  induction ns with
  | nil => exact List.nil_sublist _
  | cons n ns ih =>
    cases n with
    | returned c result => exact ih.cons_cons c.id
    | cancelled c => exact ih.cons c.id
    | _ => exact ih

theorem lt_of_mem_returns {prompt : Text} {es : List Event} {id : CallId}
    {r : Except SessionError Frame} (h : (id, r) ∈ returns ((start prompt).run es).2) :
    id < ((start prompt).run es).1.nextId := by
  obtain ⟨n, hn, he⟩ := List.mem_filterMap.1 h
  cases n with
  | returned c result =>
    cases he
    exact (ended_run prompt es _ hn c rfl).1
  | _ => cases he

theorem find?_eq_some_iff_mem {α : Type} {l : List (CallId × α)} (h : (l.map Prod.fst).Nodup)
    {id : CallId} {a : α} : (l.find? (·.1 = id)).map (·.2) = some a ↔ (id, a) ∈ l := by
  rw [Option.map_eq_some_iff]
  constructor
  · rintro ⟨p, hp, rfl⟩
    have hid : p.1 = id := by simpa using List.find?_some hp
    exact hid ▸ List.mem_of_find?_eq_some hp
  · intro hm
    rcases hf : l.find? (·.1 = id) with _ | p
    · exact absurd (List.find?_eq_none.1 hf _ hm) (by simp)
    · have hid : p.1 = id := by simpa using List.find?_some hf
      have hp := List.inj_on_of_nodup_map h (List.mem_of_find?_eq_some hf) hm hid
      exact ⟨p, hf, congrArg Prod.snd hp⟩

def fresh (prompt : Text) : Connection := { dispatcher := .start prompt }

/-- What holds of the world of a rehearsal between any two actions. -/
structure Regular (prompt : Text) (w : World) : Prop where
  run : ∃ es, w.connection = ((fresh prompt).run es).1 ∧
    w.returned = (returns ((fresh prompt).run es).2).reverse
  idle : Idle w.dispatcher

namespace Regular

variable {prompt : Text}

theorem run_dispatcher (h : Regular prompt w) :
    ∃ ds, w.dispatcher = ((start prompt).run ds).1 ∧
      w.returned = (returns ((start prompt).run ds).2).reverse := by
  obtain ⟨es, hc, hr⟩ := h.run
  obtain ⟨ds, hd, hn⟩ := (fresh prompt).exists_run_dispatcher es
  exact ⟨ds, by rw [World.dispatcher, hc, hd]; rfl, by rw [hr, hn]; rfl⟩

theorem orderly (h : Regular prompt w) : Orderly w.dispatcher := by
  obtain ⟨ds, hd, -⟩ := h.run_dispatcher
  exact hd ▸ orderly_run prompt ds

theorem awaited (h : Regular prompt w) : Awaited w.dispatcher := by
  obtain ⟨ds, hd, -⟩ := h.run_dispatcher
  exact hd ▸ awaited_run prompt ds

theorem goes (h : Regular prompt w) (hg : Goes w w') : Regular prompt w' where
  run := by
    obtain ⟨es, hc, hr⟩ := h.run
    obtain ⟨es', hs⟩ := hg.runs
    refine ⟨es ++ es', ?_, ?_⟩
    · rw [Connection.run_append, hs.connection, hc]
    · rw [Connection.run_append, hs.returned, hr, hc]
      simp [returns]
  idle := hg.idle h.orderly h.idle

theorem nodup_returned (h : Regular prompt w) : (w.returned.map Prod.fst).Nodup := by
  obtain ⟨ds, -, hr⟩ := h.run_dispatcher
  rw [hr, List.map_reverse, List.nodup_reverse]
  exact (endings_run prompt ds).sublist (returns_sublist _)

/-- The world knows the result of a call that has been made since, if there is one. -/
theorem result?_eq (h : Regular prompt w) (h' : Regular prompt w') (hs : Shows w c ns w')
    {id : CallId} (hid : w.dispatcher.nextId ≤ id) :
    w'.result? id = ((returns ns).find? (·.1 = id)).map (·.2) := by
  have hnodup := h'.nodup_returned
  rw [hs.returned] at hnodup
  have hsince : ((returns ns).map Prod.fst).Nodup := by
    rw [List.map_append, List.nodup_append] at hnodup
    simpa only [List.map_reverse, List.nodup_reverse] using hnodup.1
  obtain ⟨ds, hd, hr⟩ := h.run_dispatcher
  rw [World.result?, hs.returned]
  ext r
  have hearlier : (id, r) ∉ w.returned := by
    intro hm
    rw [hr, List.mem_reverse] at hm
    exact Nat.not_lt_of_ge hid (hd ▸ lt_of_mem_returns hm)
  rw [find?_eq_some_iff_mem hnodup, find?_eq_some_iff_mem hsince,
    List.mem_append, List.mem_reverse, or_iff_left hearlier]

/-- After a closing nobody waits for the turn any more when nothing can go on. -/
theorem queue_eq_nil (h : Regular prompt w) (hc : w.dispatcher.isClosed) (hg : w.goOn? = none) :
    w.dispatcher.queue = [] := by
  obtain ⟨c, -, -, -, he⟩ | ⟨-, -, he⟩ | ⟨hwaiting, hstop, -⟩ := w.goOn?_cases
  · cases he.symm.trans hg
  · cases he.symm.trans hg
  · refine hstop.resolve_left fun hholder ↦ ?_
    obtain ⟨id, hh⟩ := Option.isSome_iff_exists.1 hholder
    obtain ⟨c, hm, rfl, hq⟩ := h.orderly.of_holder id hh
    have hs : c.stage = .waiting := by
      cases hs : c.stage with
      | queued => exact absurd hs hq
      | writing => exact absurd hs (h.idle c hm)
      | waiting => rfl
    exact h.awaited.answer_ne_none hc hm hq (hwaiting c hm hs)

theorem queue_of_shutdown (h : Regular prompt w) :
    (w.dispatch .shutdown).settle.dispatcher.queue = [] := by
  have hregular := h.goes w.passes_shutdown.toGoes
  have hsettle := (w.dispatch .shutdown).passes_settle
  have hclosed : (w.dispatch .shutdown).dispatcher.isClosed := by
    rw [World.dispatcher_dispatch]
    exact close_isClosed w.dispatcher .stopped
  obtain ⟨es, hs⟩ := hsettle.runs
  refine (hregular.goes hsettle.toGoes).queue_eq_nil ?_ (World.goOn?_settle hregular.orderly)
  rw [World.dispatcher, hs.connection]
  exact Connection.isClosed_run hclosed es

end Regular

end Rehearsal

end Prompter
