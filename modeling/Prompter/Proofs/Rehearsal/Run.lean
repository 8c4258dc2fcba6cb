import Prompter.Proofs.Rehearsal.Live

namespace Prompter.Rehearsal

open Dispatcher Session

variable {w w' : World} {l : Live} {prompt : Text} {echo : Echo} {α β : Type}

namespace Play

/-- What is done in a world leaves the snapshot what it is. -/
def Steady (x : Play α) : Prop := ∀ w, Passes w (x.run w).2

theorem Steady.pure (a : α) : Steady (pure a) := Passes.refl

theorem Steady.throw (e : Failure) : Steady (throw e : Play α) := Passes.refl

theorem goes_bind {x : Play α} {f : α → Play β} (hx : Goes w (x.run w).2)
    (hf : ∀ a, Steady (f a)) : Goes w ((x >>= f).run w).2 := by
  rcases he : x.run w with ⟨e | a, w'⟩
  · rw [he] at hx
    rwa [run_bind_error he]
  · rw [he] at hx
    rw [run_bind_ok he]
    exact hx.trans (hf a w').toGoes

theorem Steady.bind {x : Play α} {f : α → Play β} (hx : Steady x) (hf : ∀ a, Steady (f a)) :
    Steady (x >>= f) := by
  intro w
  refine ⟨goes_bind (hx w).toGoes hf, ?_⟩
  have hstate := (hx w).state
  rcases he : x.run w with ⟨e | a, w'⟩
  · rw [he] at hstate
    rwa [run_bind_error he]
  · rw [he] at hstate
    rw [run_bind_ok he]
    exact (hf a w').state.trans hstate

theorem Steady.get : Steady (get : Play World) := Passes.refl

theorem Steady.ofExcept (x : Except SessionError α) : Steady (Play.ofExcept x) := by
  cases x with
  | ok a => exact .pure a
  | error e => exact .throw _

end Play

open Play

theorem steady_submit (commands : List Text) (echo : Echo) : Steady (submit commands echo) := by
  intro w
  exact .trans (.foldl (fun w command ↦ w.passes_submit command echo) w commands)
    (World.passes_settle _)

theorem steady_await (ids : List CallId) : Steady (await ids) := by
  intro w
  rw [run_await]
  obtain ⟨w', hpasses, ⟨results, -, he⟩ | ⟨-, he⟩⟩ := w.await_cases ids
  · rw [he]
    exact hpasses
  · rw [he]
    exact hpasses.trans (w'.passes_clock w'.horizon)

theorem steady_awaitOne (ids : List CallId) : Steady (awaitOne ids) := by
  refine (steady_await ids).bind fun results ↦ ?_
  cases results with
  | nil => exact .throw _
  | cons answer rest => exact .pure answer

/-- The actions in which no dialogue takes part. -/
def Action.isApart : Action → Bool
  | .session _ => false
  | .console _ _ => false
  | _ => true

theorem steady_perform (echo : Echo) {a : Action} (ha : a.isApart) : Steady (perform echo a) := by
  cases a with
  | session a => cases ha
  | console format input => cases ha
  | ready => exact .pure _
  | emit o =>
    intro w
    exact (w.passes_emit o).trans (World.passes_settle _)
  | wait n =>
    intro w
    let time := min (w.clock + n) w.horizon
    have hend : Steady (do
        if time < w.clock + n then throw .hang
        return Value.session .nothing) := by
      split
      · exact (Steady.throw _).bind fun _ ↦ .pure _
      · exact .pure _
    exact ((w.passes_passUntil time _).trans (World.passes_clock _ time)).trans (hend _)
  | spawn name command mode =>
    refine (steady_submit [command] mode).bind fun ids ↦ Steady.bind (fun w ↦ ?_) fun _ ↦ .pure _
    exact .of_shows ⟨rfl, rfl, rfl, rfl⟩ rfl
  | join name =>
    refine Steady.get.bind fun w ↦ (steady_awaitOne _).bind fun answer ↦ ?_
    exact (Steady.ofExcept answer).bind fun frame ↦ .pure _
  | concurrent commands mode =>
    exact (steady_submit commands mode).bind fun ids ↦ (steady_await ids).bind fun rs ↦ .pure _

def told : Option (Except SessionError Session.Value) → Except Failure Value
  | some (.ok v) => .ok (.session v)
  | some (.error e) => .error (.error e)
  | none => .error .hang

def recited : Option Console.Transcript → Except Failure Value
  | some t => .ok (.transcript t)
  | none => .error .hang

theorem run_session {a : Session.Action} {r : Option (Except SessionError Session.Value)}
    (h : ((Session.perform echo a).run.hold host).run w = (r.elim (.error .hang) .ok, w')) :
    (perform echo (.session a)).run w = (told r, w') := by
  match r with
  | none => exact run_bind_error h
  | some (.ok v) => exact run_bind_ok h
  | some (.error e) => exact run_bind_ok h

theorem run_console {format : Console.Format} {input : Utf8.Bytes} {r : Option Console.Transcript}
    (h : ((Console.run echo format (Console.inputs input)).hold host).run w =
      (r.elim (.error .hang) .ok, w')) :
    (perform echo (.console format input)).run w = (recited r, w') := by
  cases r with
  | none => exact run_bind_error h
  | some t => exact run_bind_ok h

theorem goes_hold (d : Dialogue α) (w : World) : Goes w ((d.hold host).run w).2 := by
  induction d generalizing w with
  | done a => exact (Passes.refl w).toGoes
  | ask command echo next ih =>
    obtain ⟨r, w', hcall, hpasses⟩ := call_passes w command echo
    rw [hold_ask hcall]
    cases r with
    | none => exact hpasses.toGoes
    | some answer => exact hpasses.toGoes.trans (ih answer w')
  | look next ih => exact ih w.state w
  | become s next ih =>
    have hbecome : Goes w { w with state := s } := .of_shows ⟨rfl, rfl, rfl, rfl⟩
    exact hbecome.trans (ih _)
  | hangUp next ih =>
    exact (w.passes_shutdown.trans (World.passes_settle _)).toGoes.trans (ih (.ok ()) _)

theorem goes_perform (echo : Echo) (a : Action) (w : World) :
    Goes w ((perform echo a).run w).2 := by
  by_cases ha : a.isApart
  · exact (steady_perform echo ha w).toGoes
  · cases a with
    | session a =>
      refine goes_bind (goes_hold (Session.perform echo a).run w) fun r ↦ ?_
      exact (Steady.ofExcept r).bind fun v ↦ .pure _
    | console format input => exact goes_bind (goes_hold _ w) fun t ↦ .pure _
    | _ => exact absurd rfl ha

def World.ready (w : World) : World :=
  { w with horizon := w.clock + patience, received := [], subscriber := {} }

theorem act_eq {a : Action} {result : Except Failure Value}
    (h : (perform echo a).run w.ready = (result, w')) :
    act echo w a = (w'.settle, report result w'.settle) := by
  change (((perform echo a).run w.ready).2.settle,
    report ((perform echo a).run w.ready).1 ((perform echo a).run w.ready).2.settle) = _
  rw [h]

/-- An action has an effect by what happens at the connection only, and the report says what could
be seen of that. -/
theorem act_shows (echo : Echo) (w : World) (a : Action) :
    ∃ es, let (c, ns) := w.connection.run es
      let heard := ns.foldl Subscriber.notify {}
      let (w', r) := act echo w a
      w'.connection = c ∧ r.sent = lines ns ∧ r.lagged = heard.missed ∧
        r.published = heard.unread ∧ r.pending = c.dispatcher.pending.length ∧
        r.closed = c.dispatcher.isClosed ∧ r.state = w'.state := by
  rcases h : (perform echo a).run w.ready with ⟨result, w'⟩
  have hgoes := goes_perform echo a w.ready
  rw [h] at hgoes
  obtain ⟨es, hs⟩ := (hgoes.trans w'.passes_settle.toGoes).runs
  have hc : w'.settle.connection = (w.connection.run es).1 := hs.connection
  have hr : w'.settle.received = (lines (w.connection.run es).2).reverse :=
    hs.received.trans (List.append_nil _)
  have hb : w'.settle.subscriber = (w.connection.run es).2.foldl Subscriber.notify {} :=
    hs.subscriber
  refine ⟨es, ?_⟩
  rw [act_eq h]
  refine ⟨hc, ?_, congrArg Subscriber.missed hb, congrArg Subscriber.unread hb,
    congrArg (·.dispatcher.pending.length) hc, congrArg (·.dispatcher.isClosed) hc, rfl⟩
  rw [report, hr, List.reverse_reverse]

theorem Regular.ready (h : Regular prompt w) : Regular prompt w.ready := ⟨h.run, h.idle⟩

theorem Follows.ready (h : Follows l w) : Follows l w.ready := ⟨h.connection, h.state⟩

theorem regular_act (h : Regular prompt w) (echo : Echo) (a : Action) :
    Regular prompt (act echo w a).1 :=
  (h.ready.goes (goes_perform echo a w.ready)).goes (World.passes_settle _).toGoes

/-- What a live session makes of an action: nothing, unless it is one for a session. -/
inductive Takes (echo : Echo) (l : Live) : Action → Except Failure Value → Live → Prop
  | session (scene : Scene) (d : Deed) (h : (l.act echo scene).deeds = l.deeds ++ [d]) :
    Takes echo l (.session scene.action) (told d.result) (l.act echo scene)
  | console (before : List Connection.Event) (waits : List Wait) (format : Console.Format)
      (input : Utf8.Bytes) (r : Option Console.Transcript) (l' : Live)
      (h : { (l.happen before).2 with waits }.converse
        (Console.run echo format (Console.inputs input)) = (r, l')) :
    Takes echo l (.console format input) (recited r) l'
  | apart (a : Action) (h : a.isApart) (result : Except Failure Value) : Takes echo l a result l

/-- The report is that of a live session, whose connection may have gone on since. -/
structure Reported (l : Live) (r : Report) : Prop where
  state : r.state = l.state
  connection : ∃ es, let d := (l.connection.run es).1.dispatcher
    r.pending = d.pending.length ∧ r.closed = d.isClosed

/-- A live session takes all of the actions, with the results that are in the reports. -/
inductive Rehearsed (echo : Echo) : Live → List (Action × Report) → Live → Prop
  | nil (l : Live) : Rehearsed echo l [] l
  | cons {l l' l'' : Live} (a : Action) (r : Report) (rest : List (Action × Report))
      (ht : Takes echo l a r.result l') (hr : Reported l' r) (h : Rehearsed echo l' rest l'') :
    Rehearsed echo l ((a, r) :: rest) l''

/-- Without the console it is a run of a live session, and the reports tell of its deeds. -/
theorem Rehearsed.exists_scenes {l' : Live} {items : List (Action × Report)}
    (h : Rehearsed echo l items l')
    (hc : ∀ i ∈ items, ∀ format input, i.1 ≠ .console format input) :
    ∃ scenes ds, l' = l.run echo scenes ∧ l'.deeds = l.deeds ++ ds ∧
      List.Forall₂ (fun d i ↦ i.1 = .session d.action ∧ i.2.result = told d.result ∧
        i.2.state = d.state) ds (items.filter (!·.1.isApart)) := by
  induction h with
  | nil l => exact ⟨[], [], rfl, (List.append_nil _).symm, .nil⟩
  | @cons l l' l'' a r rest ht hr _ ih =>
    obtain ⟨hnot, hrest⟩ := List.forall_mem_cons.1 hc
    obtain ⟨scenes, ds, hrun, hdeeds, htold⟩ := ih hrest
    generalize hresult : r.result = result at ht
    cases ht with
    | session scene d hd =>
      obtain ⟨d', hd', haction, hstate, -⟩ := l.act_deed echo scene
      obtain rfl := List.singleton_inj.1 (List.append_inj' (hd'.symm.trans hd) rfl).2
      refine ⟨scene :: scenes, d' :: ds, hrun, ?_, .cons ⟨?_, hresult, ?_⟩ htold⟩
      · rw [hdeeds, hd, List.append_assoc, List.singleton_append]
      · rw [haction]
      · rw [hr.state, hstate]
    | console before waits format input => exact absurd rfl (hnot format input)
    | apart a ha =>
      refine ⟨scenes, ds, hrun, hdeeds, ?_⟩
      rwa [List.filter_cons_of_neg (by simp [ha])]

theorem session_takes (hw : Regular prompt w) (hf : Follows l w) (echo : Echo)
    (a : Session.Action) :
    ∃ result w' l', (perform echo (.session a)).run w = (result, w') ∧
      Takes echo l (.session a) result l' ∧ Follows l' w' := by
  obtain ⟨es, hc⟩ := hf.connection
  let l₀ : Live := { (l.happen es).2 with exchanges := [] }
  obtain ⟨waits, r, w', l', hhold, -, hfollows, hconverse⟩ :=
    hold_converse (l := l₀) (Session.perform echo a).run hw hc hf.state
  have hall := hconverse []
  rw [List.append_nil] at hall
  let scene : Scene := ⟨a, es, waits⟩
  have hact : l.act echo scene = _ := Live.act_eq hall
  obtain ⟨d, hd, -, -, -⟩ := l.act_deed echo scene
  have hr : r = d.result := by
    have hlast := hd
    rw [hact] at hlast
    exact congrArg Deed.result (List.singleton_inj.1 (List.append_inj' hlast rfl).2)
  refine ⟨told r, w', l.act echo scene, run_session hhold, ?_, ?_⟩
  · rw [hr]
    exact .session scene d hd
  · rw [hact]
    exact ⟨hfollows.connection, hfollows.state⟩

theorem console_takes (hw : Regular prompt w) (hf : Follows l w) (echo : Echo)
    (format : Console.Format) (input : Utf8.Bytes) :
    ∃ result w' l', (perform echo (.console format input)).run w = (result, w') ∧
      Takes echo l (.console format input) result l' ∧ Follows l' w' := by
  obtain ⟨es, hc⟩ := hf.connection
  obtain ⟨waits, r, w', l', hhold, -, hfollows, hconverse⟩ :=
    hold_converse (l := (l.happen es).2) (Console.run echo format (Console.inputs input)) hw hc
      hf.state
  have hall := hconverse []
  rw [List.append_nil] at hall
  exact ⟨recited r, w', { l' with waits := [] }, run_console hhold,
    .console es waits format input r _ hall, ⟨hfollows.connection, hfollows.state⟩⟩

/-- Every action of a rehearsal is one that a live session could take. -/
theorem act_takes (hw : Regular prompt w) (hf : Follows l w) (echo : Echo) (a : Action) :
    ∃ l', Takes echo l a (act echo w a).2.result l' ∧ Follows l' (act echo w a).1 := by
  obtain ⟨result, w', l', hperform, htakes, hfollows⟩ : ∃ result w' l',
      (perform echo a).run w.ready = (result, w') ∧ Takes echo l a result l' ∧
        Follows l' w' := by
    by_cases ha : a.isApart
    · exact ⟨_, _, l, rfl, .apart a ha _, hf.ready.passes (steady_perform echo ha w.ready)⟩
    · cases a with
      | session a => exact session_takes hw.ready hf.ready echo a
      | console format input => exact console_takes hw.ready hf.ready echo format input
      | _ => exact absurd rfl ha
  rw [act_eq hperform]
  exact ⟨l', htakes, hfollows.passes w'.passes_settle⟩

theorem Follows.reported {a : Action} (h : Follows l (act echo w a).1) :
    Reported l (act echo w a).2 := by
  obtain ⟨es, hc⟩ := h.connection
  exact ⟨h.state, es, congrArg (·.dispatcher.pending.length) hc,
    congrArg (·.dispatcher.isClosed) hc⟩

namespace Scenario

variable (s : Scenario)

theorem length_runFrom (w : World) (actions : List Action) :
    (s.runFrom w actions).length = actions.length := by
  induction actions generalizing w with
  | nil => rfl
  | cons a rest ih => exact congrArg Nat.succ (ih _)

theorem runFrom_rehearsed {s : Scenario} (hw : Regular prompt w) (hf : Follows l w)
    (actions : List Action) :
    ∃ l', Rehearsed s.echo l (actions.zip (s.runFrom w actions)) l' := by
  induction actions generalizing w l with
  | nil => exact ⟨l, .nil l⟩
  | cons a rest ih =>
    obtain ⟨l', htakes, hf'⟩ := act_takes hw hf s.echo a
    obtain ⟨l'', hrest⟩ := ih (regular_act hw s.echo a) hf'
    exact ⟨l'', .cons a _ _ htakes hf'.reported hrest⟩

theorem exists_passes_world :
    ∃ w : World, w.connection = fresh s.prompt ∧ w.returned = [] ∧ w.state = {} ∧
      Passes w s.world :=
  ⟨_, rfl, rfl, rfl, World.passes_emit _ s.greeting⟩

theorem regular_world : Regular s.prompt s.world ∧ s.world.state = {} := by
  obtain ⟨w, hc, hr, hs, hpasses⟩ := s.exists_passes_world
  have hregular : Regular s.prompt w := by
    refine ⟨⟨[], hc, hr⟩, fun c hm ↦ ?_⟩
    rw [World.dispatcher, hc] at hm
    obtain rfl := List.mem_singleton.1 hm
    exact Stage.noConfusion
  exact ⟨hregular.goes hpasses.toGoes, hpasses.state.trans hs⟩

theorem steady_attach : Steady attach := by
  refine (steady_awaitOne _).bind fun answer ↦ (Steady.ofExcept answer).bind fun frame w ↦ ?_
  exact w.passes_settle

theorem returned_of_attach {u : Unit} (h : attach.run w = (.ok u, w')) :
    ∃ frame, (0, .ok frame) ∈ w'.returned := by
  obtain ⟨w₁, hpasses, ⟨answer, hr, he⟩ | ⟨hr, he⟩⟩ := awaitOne_cases w 0
  · have hattach : attach.run w = _ := run_bind_ok he
    rw [hattach] at h
    cases answer with
    | error e => cases h
    | ok frame =>
      obtain rfl : w₁.settle = w' := congrArg Prod.snd h
      obtain ⟨es, hshows⟩ := w₁.passes_settle.runs
      obtain ⟨p, hp, hp'⟩ := Option.map_eq_some_iff.1 hr
      have hid : p.1 = 0 := by simpa using List.find?_some hp
      refine ⟨frame, ?_⟩
      rw [hshows.returned, List.mem_append, ← hid, ← hp']
      exact .inr (List.mem_of_find?_eq_some hp)
  · have hattach : attach.run w = _ := run_bind_error he
    rw [hattach] at h
    cases h

/-- The reports of a rehearsal are those of a live session with an interpreter that has greeted. -/
theorem run_rehearsed {s : Scenario} {actions : List Action} {reports : List Report}
    (h : s.run actions = .ok reports) :
    reports.length = actions.length ∧ ∃ es frame l',
      (0, .ok frame) ∈ returns ((fresh s.prompt).run es).2 ∧
      Rehearsed s.echo (.begin ((fresh s.prompt).run es).1) (actions.zip reports) l' := by
  unfold run at h
  split at h
  · cases h
  next u w hattach =>
    obtain rfl := Except.ok.inj h
    have hpasses : Passes s.world w := by
      have hsteady := steady_attach s.world
      rwa [hattach] at hsteady
    obtain ⟨hworld, hstate⟩ := s.regular_world
    have hregular := hworld.goes hpasses.toGoes
    obtain ⟨frame, hframe⟩ := returned_of_attach hattach
    obtain ⟨es, hc, hr⟩ := hregular.run
    obtain ⟨l', hl'⟩ := runFrom_rehearsed (l := .begin ((fresh s.prompt).run es).1) hregular
      ⟨⟨[], hc⟩, hpasses.state.trans hstate⟩ actions
    refine ⟨s.length_runFrom w actions, es, frame, l', ?_, hl'⟩
    rwa [hr, List.mem_reverse] at hframe

end Scenario

end Prompter.Rehearsal
