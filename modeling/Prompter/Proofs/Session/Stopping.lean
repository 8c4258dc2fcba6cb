import Prompter.Proofs.Dispatcher.Shut
import Prompter.Proofs.Session.History

namespace Prompter.Session

open Dispatcher Operation

namespace Live

variable {α : Type} {w w' w'' : Live}

/-- All that has happened between `w` and `w'` has happened at the connection. -/
def Reaches (w w' : Live) : Prop :=
  ∃ es, w'.connection = (w.connection.run es).1 ∧
    w'.notices = w.notices ++ (w.connection.run es).2

theorem Reaches.refl (w : Live) : Reaches w w := ⟨[], rfl, (List.append_nil _).symm⟩

theorem Reaches.trans (h : Reaches w w') (h' : Reaches w' w'') : Reaches w w'' := by
  obtain ⟨es, hc, hn⟩ := h
  obtain ⟨es', hc', hn'⟩ := h'
  refine ⟨es ++ es', ?_, ?_⟩
  · rw [Connection.run_append, hc', hc]
  · rw [Connection.run_append, hn', hn, hc, List.append_assoc]

theorem reaches_ask {command : Text} {echo : Echo} {r : Option (Except SessionError Frame)}
    (hr : w.ask command echo = (r, w')) : Reaches w w' := by
  let es : List Connection.Event := .dispatch (.submit command echo) :: w.nextWait.1.events
  let cancel : Connection.Event := .dispatch (.cancel w.connection.dispatcher.nextId)
  have hwait : Reaches w (w.nextWait.2.happen es).2 := ⟨es, rfl, rfl⟩
  unfold ask at hr
  dsimp only at hr
  split at hr
  · exact (Prod.mk.inj hr).2 ▸ ⟨es, rfl, rfl⟩
  · exact (Prod.mk.inj hr).2 ▸ hwait.trans ⟨[cancel], rfl, rfl⟩

theorem reaches_hangUp {r : Option (Except SessionError Unit)} (hr : w.hangUp = (r, w')) :
    Reaches w w' := by
  let es : List Connection.Event := .dispatch .shutdown :: w.nextWait.1.events
  unfold hangUp at hr
  dsimp only at hr
  split at hr
  · split at hr <;> exact (Prod.mk.inj hr).2 ▸ ⟨es, rfl, rfl⟩
  · exact (Prod.mk.inj hr).2 ▸ ⟨es, rfl, rfl⟩

theorem reaches_converse (w : Live) (d : Dialogue α) : Reaches w (w.converse d).2 := by
  induction d generalizing w with
  | done a => exact .refl w
  | ask command echo next ih =>
    rcases hr : w.ask command echo with ⟨r, w'⟩
    rw [converse_ask hr]
    cases r with
    | none => exact reaches_ask hr
    | some answer => exact (reaches_ask hr).trans (ih answer w')
  | look next ih => exact ih w.state w
  | become s next ih => exact ih { w with state := s }
  | hangUp next ih =>
    rcases hr : w.hangUp with ⟨r, w'⟩
    rw [converse_hangUp hr]
    cases r with
    | none => exact reaches_hangUp hr
    | some answer => exact (reaches_hangUp hr).trans (ih answer w')

theorem reaches_act (echo : Echo) (w : Live) (scene : Scene) : Reaches w (w.act echo scene) :=
  have hbefore : Reaches w { (w.happen scene.before).2 with
      waits := scene.waits, exchanges := [] } := ⟨scene.before, rfl, rfl⟩
  hbefore.trans (reaches_converse _ (perform echo scene.action).run)

theorem Reaches.shut (h : Reaches w w') (hw : Shut w.connection.dispatcher) :
    Shut w'.connection.dispatcher := by
  obtain ⟨es, hc, -⟩ := h
  rw [hc]
  exact (Connection.shut_run hw es).1

theorem of_returned? {id : CallId} {ns : List Notice} {r : Except SessionError Frame}
    (h : returned? id ns = some r) : ∃ c, .returned c r ∈ ns ∧ c.id = id := by
  obtain ⟨n, hn, hr⟩ := List.exists_of_findSome?_eq_some h
  cases n with
  | returned c result =>
    simp only [Option.ite_none_right_eq_some, Option.some.injEq] at hr
    exact ⟨c, hr.2 ▸ hn, hr.1⟩
  | _ => cases hr

theorem answer_of_shut (h : Shut w.connection.dispatcher) {command : Text} {echo : Echo}
    {answer : Except SessionError Frame} (hr : w.ask command echo = (some answer, w')) :
    answer = .error gone := by
  let es : List Connection.Event := .dispatch (.submit command echo) :: w.nextWait.1.events
  unfold ask at hr
  dsimp only at hr
  split at hr
  next answer' ha =>
    obtain ⟨hanswer, -⟩ := Prod.mk.inj hr
    obtain ⟨c, hc, hid⟩ := of_returned? ha
    have h0 : c.id ≠ 0 := hid ▸ Nat.ne_of_gt h.orderly.nextId_pos
    have hgone := (Connection.shut_run h es).2.returned c answer' hc h0
    exact (Option.some.inj hanswer).symm.trans hgone
  next => cases hr

theorem exchanges_of_shut (h : Shut w.connection.dispatcher) (d : Dialogue α) :
    ∃ xs, (w.converse d).2.exchanges = w.exchanges ++ xs ∧ ∀ x ∈ xs, x.answer = .error gone := by
  induction d generalizing w with
  | done a => exact ⟨[], by simp [converse, Dialogue.hold]; rfl, by simp⟩
  | ask command echo next ih =>
    obtain ⟨answer, w', hr, -, -, hxs⟩ | ⟨w', hr, -, -, hxs⟩ := w.ask_cases command echo
    · obtain ⟨xs, hxs', hanswer⟩ := ih answer ((reaches_ask hr).shut h)
      rw [converse_ask hr, Option.elim_some, hxs', hxs, List.append_assoc]
      exact ⟨_, rfl, List.forall_mem_cons.2 ⟨answer_of_shut h hr, hanswer⟩⟩
    · rw [converse_ask hr]
      exact ⟨[], by simpa using hxs, by simp⟩
  | look next ih => exact ih w.state h
  | become s next ih => exact ih (w := { w with state := s }) h
  | hangUp next ih =>
    obtain ⟨r, w', hr, -, -, hxs⟩ := w.hangUp_cases
    rw [converse_hangUp hr]
    cases r with
    | none => exact ⟨[], by simpa using hxs, by simp⟩
    | some answer =>
      rw [Option.elim_some, ← hxs]
      exact ih answer ((reaches_hangUp hr).shut h)

theorem converse_look (f : State → Operation α) :
    w.converse (look >>= f).run = w.converse (f w.state).run := rfl

theorem converse_requireRunnable {f : Unit → Operation α}
    (h : ¬(w.state.phase = .idle ∨ w.state.phase = .completed)) :
    w.converse (requireRunnable >>= f).run = w.converse (f ()).run := by
  rw [not_or] at h
  rw [requireRunnable, bind_assoc, converse_look]
  split
  next hp => exact absurd hp h.1
  next hp => exact absurd hp h.2
  next => rfl
  next => rfl

theorem converse_breakpointTarget {f : Text → Operation α} {program : Option Text}
    (h : ¬(program = none ∧ w.state.program = none)) :
    ∃ p, w.converse (breakpointTarget program >>= f).run = w.converse (f p).run := by
  rw [breakpointTarget, bind_assoc, converse_look]
  split
  next p _ => exact ⟨p, rfl⟩
  next hp => simp at hp; exact absurd hp h

/-- An operation that is not refused begins by asking. -/
theorem exists_ask (echo : Echo) {a : Action} (ha : ¬a.Refused w.state) (hs : a ≠ .stop) :
    ∃ command mode next, w.converse (perform echo a).run = w.converse (.ask command mode next) := by
  cases a with
  | stop => exact absurd rfl hs
  | run =>
    rw [perform, Session.run, map_bind, converse_requireRunnable ha]
    exact ⟨_, _, _, rfl⟩
  | step =>
    rw [perform, Session.step, map_bind, converse_requireRunnable ha]
    exact ⟨_, _, _, rfl⟩
  | addBreakpoint n program =>
    rw [perform, Session.addBreakpoint, editBreakpoint, map_bind]
    obtain ⟨p, hp⟩ := converse_breakpointTarget ha
    rw [hp]
    exact ⟨_, _, _, rfl⟩
  | deleteBreakpoint n program =>
    rw [perform, Session.deleteBreakpoint, editBreakpoint, map_bind]
    obtain ⟨p, hp⟩ := converse_breakpointTarget ha
    rw [hp]
    exact ⟨_, _, _, rfl⟩
  | _ => exact ⟨_, _, _, rfl⟩

/-- A call that is not cancelled returns if the turn comes round often enough while it waits. -/
theorem ask_ne_none (h : Shut w.connection.dispatcher) {command : Text} {mode : Echo}
    (hn : w.connection.dispatcher.queue.length <
      (w.waits.headD {}).events.count (.dispatch .takeTurn))
    (hc : .dispatch (.cancel w.connection.dispatcher.nextId) ∉ (w.waits.headD {}).events) :
    (w.ask command mode).1 ≠ none := by
  let es := Connection.Event.dispatch (.submit command mode) :: w.nextWait.1.events
  have hshut := (Connection.shut_run h [.dispatch (.submit command mode)]).1
  have hb : Behind (w.connection.dispatcher.submit command mode).1
      w.connection.dispatcher.nextId w.connection.dispatcher.queue.length :=
    ⟨w.connection.dispatcher.queue, [], rfl, Nat.le_refl _⟩
  obtain ⟨c, result, hr, hid⟩ := Connection.returned_of_turns hshut hb hc hn
  have hreturned : (returned? w.connection.dispatcher.nextId
      (w.nextWait.2.happen es).1).isSome := by
    refine List.findSome?_isSome_iff.2 ⟨.returned c result, List.mem_append_right _ hr, ?_⟩
    simp [hid]
  unfold ask
  dsimp only
  split
  · simp
  next hnone =>
    rw [hnone] at hreturned
    cases hreturned

end Live

variable {a : Action} {r : Option (Except SessionError Value)} {s : State} {xs : List Exchange}

/-- An operation that makes no sense without a program, and names none. -/
def Action.wantsProgram : Action → Bool
  | .run | .step | .addBreakpoint _ none | .deleteBreakpoint _ none => true
  | _ => false

theorem Action.refused_empty : a.Refused {} ↔ a.wantsProgram = true := by
  cases a with
  | run | step => exact iff_of_true (.inl rfl) rfl
  | addBreakpoint n program | deleteBreakpoint n program =>
    cases program <;> simp [Refused, wantsProgram]
  | _ => exact iff_of_false id Bool.false_ne_true

theorem Did.of_gone (h : Did {} a r s xs) (hx : ∀ x ∈ xs, x.answer = .error gone) :
    s = {} ∧ (a.Refused {} → ∃ message, r = some (.error (.usage message))) ∧
      (¬a.Refused {} → a ≠ .stop → (r = none ∧ xs = []) ∨ r = some (.error gone)) := by
  cases h with
  | refused message h => exact ⟨rfl, fun _ ↦ ⟨message, rfl⟩, fun hn ↦ absurd h hn⟩
  | unanswered h => exact ⟨rfl, fun hr ↦ absurd hr h, fun _ _ ↦ .inl ⟨rfl, rfl⟩⟩
  | @failed x e h hc hr =>
    have hanswer := hx x List.mem_cons_self
    rw [Action.reading, hanswer] at hr
    cases hr
    exact ⟨rfl, fun hr ↦ absurd hr h, fun _ _ ↦ .inr rfl⟩
  | @told x news _ _ xs h hc hr =>
    have hanswer := hx x List.mem_cons_self
    rw [Action.reading, hanswer] at hr
    cases hr
  | stopped h => exact ⟨rfl, fun hr ↦ by subst h; exact hr.elim, fun _ hs ↦ absurd h hs⟩
  | unstopped h => exact ⟨rfl, fun hr ↦ by subst h; exact hr.elim, fun _ hs ↦ absurd h hs⟩

namespace Live

variable {w : Live}

/-- The turn comes round as often as there are others who wait for it, and once more, and the next
call is not cancelled. -/
def Attended (c : Connection) (wait : Wait) : Prop :=
  c.dispatcher.queue.length < wait.events.count (.dispatch .takeTurn) ∧
    .dispatch (.cancel c.dispatcher.nextId) ∉ wait.events

instance (c : Connection) (wait : Wait) : Decidable (Attended c wait) :=
  inferInstanceAs (Decidable (_ ∧ _))

/-- How an operation fares after a stop. -/
structure Finished (w : Live) (scene : Scene) (w' : Live) (d : Deed) : Prop where
  deeds : w'.deeds = w.deeds ++ [d]
  action : d.action = scene.action
  state : d.state = {} ∧ w'.state = {}
  silent : ∃ ns, w'.notices = w.notices ++ ns ∧ ∀ text, .wrote text ∉ ns
  refused : scene.action.wantsProgram = true →
    ∃ message, d.result = some (.error (.usage message))
  failed : scene.action.wantsProgram = false → scene.action ≠ .stop →
    (d.result = none ∨ d.result = some (.error gone)) ∧
      (Attended (w.happen scene.before).2.connection (scene.waits.headD {}) →
        d.result = some (.error gone))

theorem exchanges_ne_nil (h : Shut w.connection.dispatcher) (echo : Echo) {a : Action}
    (ha : ¬a.Refused w.state) (hs : a ≠ .stop) (hw : Attended w.connection (w.waits.headD {})) :
    (w.converse (perform echo a).run).2.exchanges ≠ [] := by
  obtain ⟨command, mode, next, he⟩ := exists_ask echo ha hs
  have hne : (w.ask command mode).1 ≠ none := ask_ne_none h hw.1 hw.2
  obtain ⟨answer, w', hask, -, -, hxs⟩ | ⟨w', hask, -⟩ := w.ask_cases command mode
  · obtain ⟨xs, hxs', -⟩ := exchanges_of_shut ((reaches_ask hask).shut h) (next answer)
    rw [he, converse_ask hask, Option.elim_some, hxs', hxs]
    simp
  · rw [hask] at hne
    exact absurd rfl hne

def ready (w : Live) (scene : Scene) : Live :=
  { (w.happen scene.before).2 with waits := scene.waits, exchanges := [] }

theorem act_did (echo : Echo) (w : Live) (scene : Scene) :
    ∃ r w', (w.ready scene).converse (perform echo scene.action).run = (r, w') ∧
      w.act echo scene =
        { w' with deeds := w.deeds ++ [⟨scene.action, w'.exchanges, r, w'.state⟩] } ∧
      Did w.state scene.action r w'.state w'.exchanges := by
  obtain ⟨hdid, hdeeds⟩ :=
    converse_always (w := w.ready scene) (perform_did echo w.state scene.action)
  rcases hr : (w.ready scene).converse (perform echo scene.action).run with ⟨r, w'⟩
  rw [hr] at hdid hdeeds
  have hw : w'.deeds = w.deeds := hdeeds
  exact ⟨r, w', rfl, by rw [act_eq hr, hw], hdid⟩

theorem finished_act (echo : Echo) (scene : Scene) (h : Shut w.connection.dispatcher)
    (hs : w.state = {}) : ∃ d, Finished w scene (w.act echo scene) d := by
  have hready : Shut (w.ready scene).connection.dispatcher := (Connection.shut_run h scene.before).1
  have hempty : (w.ready scene).state = {} := hs
  obtain ⟨es, -, hnotices⟩ := reaches_act echo w scene
  obtain ⟨xs, hexchanges, hanswer⟩ := exchanges_of_shut hready (perform echo scene.action).run
  have hxs := fun hr hne ↦ exchanges_ne_nil hready echo (a := scene.action) hr hne
  obtain ⟨r, w', hr, hact, hdid⟩ := act_did echo w scene
  rw [hr] at hexchanges hxs
  rw [hs] at hdid
  obtain ⟨hstate, hrefused, hfailed⟩ := hdid.of_gone (by rw [hexchanges]; exact hanswer)
  refine ⟨⟨scene.action, w'.exchanges, r, w'.state⟩, ?_⟩
  constructor
  case deeds => rw [hact]
  case action => rfl
  case state =>
    rw [hact]
    exact ⟨hstate, hstate⟩
  case silent => exact ⟨_, hnotices, (Connection.shut_run h es).2.wrote⟩
  case refused => exact fun ha ↦ hrefused (Action.refused_empty.2 ha)
  case failed =>
    intro hwants hne
    have ha : ¬scene.action.Refused {} := by simp [Action.refused_empty, hwants]
    refine ⟨(hfailed ha hne).imp_left And.left, fun hw ↦ ?_⟩
    refine (hfailed ha hne).resolve_left fun hnone ↦ ?_
    exact hxs (hempty ▸ ha) hne hw hnone.2

theorem orderly_act (echo : Echo) (scene : Scene) (h : Orderly w.connection.dispatcher) :
    Orderly (w.act echo scene).connection.dispatcher := by
  obtain ⟨es, hc, -⟩ := reaches_act echo w scene
  rw [hc]
  exact Connection.orderly_run h es

theorem shut_hangUp (h : Orderly w.connection.dispatcher) {r : Except SessionError Unit}
    (hr : w.hangUp = (some r, w')) : Shut w'.connection.dispatcher := by
  let es : List Connection.Event := .dispatch .shutdown :: w.nextWait.1.events
  have hshut (hlt : w.connection.dispatcher.queue.count .shutdown <
      shutDowns (w.connection.run es).2) : Shut (w.connection.run es).1.dispatcher := by
    obtain ⟨n, hn, he⟩ := List.countP_pos_iff.1 (Nat.zero_lt_of_lt hlt)
    cases n with
    | shutDown => exact Connection.shut_of_shutDown h hn
    | _ => cases he
  unfold hangUp at hr
  dsimp only at hr
  split at hr
  next hlt => split at hr <;> exact (Prod.mk.inj hr).2 ▸ hshut hlt
  next => cases hr

theorem shut_converse_stop (h : Orderly w.connection.dispatcher) {echo : Echo} {v : Value}
    (hr : (w.converse (perform echo .stop).run).1 = some (.ok v)) :
    Shut (w.converse (perform echo .stop).run).2.connection.dispatcher := by
  obtain ⟨next, he, herror, hok⟩ : ∃ next, (perform echo .stop).run = .hangUp next ∧
      (∀ e, next (.error e) = .done (.error e)) ∧
      next (.ok ()) = .look fun _ ↦ .become {} (.done (.ok .nothing)) :=
    ⟨_, rfl, fun _ ↦ rfl, rfl⟩
  rcases hw : w.hangUp with ⟨answer, w'⟩
  rw [he, converse_hangUp hw] at hr ⊢
  match answer with
  | none => cases hr
  | some (.error e) =>
    rw [Option.elim_some, herror] at hr
    cases hr
  | some (.ok ()) =>
    rw [Option.elim_some, hok]
    have hshut := shut_hangUp h hw
    exact hshut

end Live

theorem Deed.of_stopped {d : Deed} (h : d.stopped = true) :
    d.action = .stop ∧ ∃ v, d.result = some (.ok v) := by
  unfold stopped at h
  split at h
  next v ha hr => exact ⟨ha, v, hr⟩
  next => cases h

namespace Live

variable {w : Live}

/-- A stop that succeeds leaves the empty snapshot and a line that has been given up. -/
theorem act_stopped (echo : Echo) {scene : Scene} (h : Orderly w.connection.dispatcher) {d : Deed}
    (hd : (w.act echo scene).deeds = w.deeds ++ [d]) (hs : d.stopped = true) :
    Shut (w.act echo scene).connection.dispatcher ∧ (w.act echo scene).state = {} := by
  obtain ⟨r, w', hr, hact, hdid⟩ := act_did echo w scene
  rw [hact] at hd
  obtain rfl := List.singleton_inj.1 (List.append_cancel_left hd)
  obtain ⟨hstop, value, rfl⟩ := Deed.of_stopped hs
  replace hstop : scene.action = .stop := hstop
  have hready : Orderly (w.ready scene).connection.dispatcher :=
    Connection.orderly_run h scene.before
  rw [hstop] at hr
  have hok : ((w.ready scene).converse (perform echo .stop).run).1 = some (.ok value) := by rw [hr]
  have hshut := shut_converse_stop hready hok
  rw [hr] at hshut
  have hfollows : Deed.Follows ⟨scene.action, w'.exchanges, some (.ok value), w'.state⟩ w.state :=
    hdid
  rw [hact]
  exact ⟨hshut, hfollows.state_eq.trans (if_pos hs)⟩

theorem shut_run (echo : Echo) (h : Orderly w.connection.dispatcher)
    (hw : (∃ d ∈ w.deeds, d.stopped = true) → Shut w.connection.dispatcher ∧ w.state = {})
    (scenes : List Scene) :
    Orderly (w.run echo scenes).connection.dispatcher ∧
      ((∃ d ∈ (w.run echo scenes).deeds, d.stopped = true) →
        Shut (w.run echo scenes).connection.dispatcher ∧ (w.run echo scenes).state = {}) := by
  induction scenes using List.reverseRecOn with
  | nil => exact ⟨h, hw⟩
  | append_singleton scenes scene ih =>
    obtain ⟨ho, hstopped⟩ := ih
    rw [run_concat]
    refine ⟨orderly_act echo scene ho, fun ⟨d, hd, hs⟩ ↦ ?_⟩
    obtain ⟨d', hd', -⟩ := (w.run echo scenes).act_deed echo scene
    rw [hd', List.mem_append, List.mem_singleton] at hd
    obtain hd | rfl := hd
    · obtain ⟨hshut, hempty⟩ := hstopped ⟨d, hd, hs⟩
      obtain ⟨d'', hfinished⟩ := finished_act echo scene hshut hempty
      exact ⟨(reaches_act echo _ scene).shut hshut, hfinished.state.2⟩
    · exact act_stopped echo ho hd' hs

/-- After a stop that has succeeded nothing is written and nothing is known. An operation that wants
a program is refused; any other that asks fails because the interpreter is gone, and it does so if
its turn comes. -/
theorem finished_of_stopped (prompt : Text) (es : List Connection.Event) (echo : Echo)
    (scenes : List Scene)
    (h : ((begin (({ dispatcher := .start prompt } : Connection).run es).1).run echo
      scenes).deeds.any Deed.stopped = true) (scene : Scene) :
    let w := (begin (({ dispatcher := .start prompt } : Connection).run es).1).run echo scenes
    ∃ d, Finished w scene (w.act echo scene) d := by
  intro w
  have hstart : Orderly (({ dispatcher := .start prompt } : Connection).run es).1.dispatcher :=
    Connection.orderly_run (Orderly.start prompt) es
  obtain ⟨hshut, hempty⟩ := (shut_run (w := begin _) echo hstart (by simp [begin]) scenes).2
    (List.any_eq_true.1 h)
  exact finished_act echo scene hshut hempty

def promptRead : List Connection.Event :=
  [.read (.bytes (Utf8.encode "> ")), .dispatch (.resume 0)]

def stopAtOnce : Scene where
  action := .stop
  waits := [{ events := [.dispatch .takeTurn, .read .ended] }]

/-- Someone else asks first and gets the turn first. -/
def helpAfterwards : Scene where
  action := .help
  before := [.dispatch (.submit ":store" .silent)]
  waits := [{ events := [.dispatch .takeTurn, .dispatch .takeTurn] }]

theorem finished_of_stopped_help :
    let w := (begin (({ dispatcher := .start "> " } : Connection).run promptRead).1).run .silent
      [stopAtOnce]
    ∃ d, (w.act .silent helpAfterwards).deeds = w.deeds ++ [d] ∧
      d.result = some (.error gone) ∧ (w.act .silent helpAfterwards).state = {} := by
  intro w
  obtain ⟨d, hd⟩ := finished_of_stopped "> " promptRead .silent [stopAtOnce] (by decide +kernel)
    helpAfterwards
  exact ⟨d, hd.deeds, (hd.failed rfl (by decide)).2 (by decide +kernel), hd.state.2⟩

/-- After a stop a run fails, but not because the interpreter is gone. -/
theorem usage_after_stop :
    let w := (begin (({ dispatcher := .start "> " } : Connection).run promptRead).1).run .silent
      [stopAtOnce, { action := .run, waits := [{ events := [.dispatch .takeTurn] }] }]
    w.deeds.map (fun d ↦ (d.action, d.result)) =
        [(.stop, some (.ok .nothing)), (.run, some (.error (.usage "no program to run")))] ∧
      ∀ message, SessionError.usage "no program to run" ≠ .transport message :=
  ⟨by decide +kernel, fun _ h ↦ by cases h⟩

end Live

end Prompter.Session
