import Prompter.Proofs.Interpreter.Delivery
import Prompter.Proofs.Session.History

namespace Prompter

open Text Utf8 Dispatcher

def Respondent.reply (i : Respondent) (heard : Text) : List Respondent.Line :=
  i (splitLines heard).dropLast

namespace Session

/-- A live session, and whether a scrap of the last prompt is still to be read. -/
structure Attached where
  live : Live
  late : Bool

/-- An operation to perform, and, if it ends the session, why the end of the interpreter cannot be
had, if so. -/
structure Errand where
  action : Action
  fault : Option Text := none

namespace Attached

def heard (w : Attached) : Text := sent w.live.notices

section

variable (i : Respondent) (cutting : Cutting) (fault : Option Text)

def attach : Attached :=
  let cut := cutting 0 false (Respondent.render (i.reply []) ++ Interpreter.prompt)
  { live := .begin (({ dispatcher := .start Interpreter.prompt } : Connection).run
      (cut.reads ++ [.dispatch (.resume 0)])).1
    late := cut.late }

def output (w : Attached) (command : Text) : Text :=
  if w.live.connection.dispatcher.writable then
    Respondent.render (i.reply (w.heard ++ (command.trim ++ ['\n']))) ++ Interpreter.prompt
  else []

def ask (command : Text) (echo : Echo) (w : Attached) :
    Option (Except SessionError Frame) × Attached :=
  let id := w.live.connection.dispatcher.nextId
  let cut := cutting id w.late (w.output i command)
  let (answer, live) := { w.live with waits := [{ events := cut.events id }] }.ask command echo
  (answer, { live, late := cut.late })

def hangUp (w : Attached) : Option (Except SessionError Unit) × Attached :=
  let wait : Wait := { events := [.dispatch .takeTurn], fault }
  let (answer, live) := { w.live with waits := [wait] }.hangUp
  (answer, { w with live })

def host : Dialogue.Host (OptionT (StateM Attached)) where
  ask command echo := OptionT.mk (ask i cutting command echo)
  look := OptionT.mk fun w ↦ (some w.live.state, w)
  become s := OptionT.mk fun w ↦ (some (), { w with live := { w.live with state := s } })
  hangUp := OptionT.mk (hangUp fault)

def converse {α : Type} (d : Dialogue α) (w : Attached) : Option α × Attached :=
  (d.hold (host i cutting fault)).run w

def act (echo : Echo) (w : Attached) (errand : Errand) : Attached :=
  let (result, w) := { w with live := { w.live with exchanges := [] } }.converse i cutting
    errand.fault (perform echo errand.action).run
  { w with live := { w.live with
      deeds := w.live.deeds ++ [⟨errand.action, w.live.exchanges, result, w.live.state⟩] } }

def run (echo : Echo) (w : Attached) (errands : List Errand) : Attached :=
  errands.foldl (act i cutting echo) w

end

/-- The next call can be made. Unless `closed`, it will be answered. -/
def Ready (closed : Option Text) (w : Attached) : Prop :=
  ∃ (f : Framer) (n : CallId), f.AllOut ∧ n ≠ 0 ∧
    w.live.connection = { dispatcher := resting f closed n }

/-- The lines of the answer to a command, when all of `heard` has been received before. -/
def expected (i : Respondent) (closed : Option Text) (heard command : Text) :
    Except SessionError (List Text) :=
  match closed with
  | none => .ok (command.trim :: Respondent.texts (i.reply (heard ++ (command.trim ++ ['\n']))))
  | some _ => .error gone

def hearing (closed : Option Text) (heard command : Text) : Text :=
  match closed with
  | none => heard ++ (command.trim ++ ['\n'])
  | some _ => heard

structure Asked (i : Respondent) (closed : Option Text) (w : Attached) (command : Text)
    (answer : Except SessionError Frame) (w' : Attached) : Prop where
  ready : w'.Ready closed
  state : w'.live.state = w.live.state
  deeds : w'.live.deeds = w.live.deeds
  exchanges : w'.live.exchanges = w.live.exchanges ++ [⟨command, answer⟩]
  answer : answer.map Frame.lines = expected i closed w.heard command
  heard : w'.heard = hearing closed w.heard command

end Attached

theorem Live.ask_of_goes (w : Live) (wait : Wait) {command : Text} {echo : Echo} {c : Connection}
    {t : Text} {answer : Except SessionError Frame}
    (h : Connection.Goes w.connection.dispatcher.nextId w.connection
      (.dispatch (.submit command echo) :: wait.events) c t (some answer)) :
    ∃ w', { w with waits := [wait] }.ask command echo = (some answer, w') ∧ w'.connection = c ∧
      sent w'.notices = sent w.notices ++ t ∧ w'.state = w.state ∧ w'.deeds = w.deeds ∧
      w'.exchanges = w.exchanges ++ [⟨command, answer⟩] := by
  obtain ⟨ns, hrun, rfl, hreturned⟩ := h
  simp only [ask, nextWait, happen, List.headD_cons, hrun, hreturned]
  exact ⟨_, rfl, rfl, sent_append _ _, rfl, rfl, rfl⟩

namespace Attached

variable {i : Respondent} {closed : Option Text} {w : Attached}

theorem Ready.writable (h : w.Ready closed) :
    w.live.connection.dispatcher.writable = closed.isNone := by
  obtain ⟨f, n, -, -, hc⟩ := h
  rw [hc]
  rfl

theorem Ready.goes (h : w.Ready closed) (command : Text) (echo : Echo)
    (cut : Cut w.late (w.output i command)) :
    ∃ (g : Framer) (n : CallId) (t : Text) (answer : Except SessionError Frame),
      g.AllOut ∧ n ≠ 0 ∧ w.heard ++ t = hearing closed w.heard command ∧
      answer.map Frame.lines = expected i closed w.heard command ∧
      Connection.Goes w.live.connection.dispatcher.nextId w.live.connection
        (.dispatch (.submit command echo) :: cut.events w.live.connection.dispatcher.nextId)
        { dispatcher := resting g closed n } t (some answer) := by
  have hw := h.writable
  obtain ⟨f, n, hf, hn, hc⟩ := h
  rw [hc]
  cases closed with
  | none =>
    obtain ⟨g, frame, hg, hlines, hgoes⟩ :=
      Connection.goes_call hf command echo hn (if_pos hw) cut
    refine ⟨g, n + 1, _, _, hg, n.succ_ne_zero, rfl, ?_, hgoes⟩
    rw [expected, ← hlines]
    rfl
  | some reason =>
    have hout : w.output i command = [] := if_neg (by simp [hw])
    obtain ⟨g, hg, hgoes⟩ := Connection.goes_call_closed hf command echo hout cut
    exact ⟨g, n + 1, _, _, hg, n.succ_ne_zero, List.append_nil _, rfl, hgoes⟩

theorem Ready.ask (h : w.Ready closed) (i : Respondent) (cutting : Cutting) (command : Text)
    (echo : Echo) :
    ∃ answer w', w.ask i cutting command echo = (some answer, w') ∧
      Asked i closed w command answer w' := by
  let id := w.live.connection.dispatcher.nextId
  let cut := cutting id w.late (w.output i command)
  obtain ⟨g, n, t, answer, hg, hn, ht, hanswer, hgoes⟩ := h.goes command echo cut
  obtain ⟨live, he, hc, hheard, hs, hd, hx⟩ :=
    w.live.ask_of_goes { events := cut.events id } hgoes
  refine ⟨answer, ⟨live, cut.late⟩, by rw [Attached.ask, he], ?_⟩
  exact ⟨⟨g, n, hg, hn, hc⟩, hs, hd, hx, hanswer, hheard.trans ht⟩

theorem Ready.hangUp (h : w.Ready closed) (fault : Option Text) :
    ∃ w', w.hangUp fault = (some (fault.elim (.ok ()) fun message ↦ .error (.io message)), w') ∧
      w'.Ready (closed <|> some Closing.stopped.reason) ∧ w'.heard = w.heard ∧
      w'.live.state = w.live.state ∧ w'.live.deeds = w.live.deeds ∧
      w'.live.exchanges = w.live.exchanges := by
  obtain ⟨f, n, hf, hn, hc⟩ := h
  have hrun := Connection.run_shutdown f closed n
  rw [← hc] at hrun
  have hqueue : w.live.connection.dispatcher.queue = [] := by rw [hc]; rfl
  have hheard : sent (w.live.notices ++ [.shutDown]) = w.heard :=
    (sent_append _ _).trans (List.append_nil _)
  rw [Attached.hangUp, Live.hangUp]
  simp only [Live.nextWait, Live.happen, List.headD_cons, hrun, hqueue]
  cases fault <;> exact ⟨_, rfl, ⟨f, n, hf, hn, rfl⟩, hheard, rfl, rfl, rfl⟩

section

variable {α : Type} {cutting : Cutting} {fault : Option Text} {w' : Attached}

theorem converse_ask {command : Text} {echo : Echo} {next : Except SessionError Frame → Dialogue α}
    {r : Option (Except SessionError Frame)} (h : w.ask i cutting command echo = (r, w')) :
    w.converse i cutting fault (.ask command echo next) =
      r.elim (none, w') fun answer ↦ w'.converse i cutting fault (next answer) := by
  change OptionT.bind (OptionT.mk (Attached.ask i cutting command echo))
    (fun a ↦ (next a).hold (host i cutting fault)) w = _
  simp only [OptionT.bind, OptionT.mk, bind, StateT.bind, h]
  cases r <;> rfl

theorem converse_look {next : State → Dialogue α} : w.converse i cutting fault (.look next) =
    w.converse i cutting fault (next w.live.state) := rfl

theorem converse_hangUp {next : Except SessionError Unit → Dialogue α}
    {r : Option (Except SessionError Unit)} (h : w.hangUp fault = (r, w')) :
    w.converse i cutting fault (.hangUp next) =
      r.elim (none, w') fun answer ↦ w'.converse i cutting fault (next answer) := by
  change OptionT.bind (OptionT.mk (Attached.hangUp fault))
    (fun a ↦ (next a).hold (host i cutting fault)) w = _
  simp only [OptionT.bind, OptionT.mk, bind, StateT.bind, h]
  cases r <;> rfl

theorem act_eq {echo : Echo} {errand : Errand} {r : Option (Except SessionError Value)}
    (h : { w with live := { w.live with exchanges := [] } }.converse i cutting errand.fault
      (perform echo errand.action).run = (r, w')) :
    w.act i cutting echo errand = { w' with live := { w'.live with
      deeds := w'.live.deeds ++ [⟨errand.action, w'.live.exchanges, r, w'.live.state⟩] } } := by
  simp only [act, h]

theorem run_concat (i : Respondent) (cutting : Cutting) (echo : Echo) (w : Attached)
    (errands : List Errand) (errand : Errand) :
    w.run i cutting echo (errands ++ [errand]) =
      (w.run i cutting echo errands).act i cutting echo errand :=
  List.foldl_append

end

theorem ready_attach (i : Respondent) (cutting : Cutting) :
    (attach i cutting).Ready none ∧ (attach i cutting).heard = [] := by
  obtain ⟨g, frame, hg, ns, hrun, -, -⟩ := Connection.goes_greeting (i.reply [])
    (cutting 0 false _)
  exact ⟨⟨g, 1, hg, Nat.one_ne_zero, congrArg Prod.fst hrun⟩, rfl⟩

end Attached

namespace Attached

variable {α : Type} (i : Respondent) (cutting : Cutting) {w : Attached}

theorem exists_ready_converse (fault : Option Text) (d : Dialogue α)
    (h : ∃ closed, w.Ready closed) :
    ∃ closed, (w.converse i cutting fault d).2.Ready closed := by
  induction d generalizing w with
  | done a => exact h
  | ask command echo next ih =>
    obtain ⟨closed, hw⟩ := h
    obtain ⟨answer, w', hask, hw'⟩ := hw.ask i cutting command echo
    rw [converse_ask hask, Option.elim_some]
    exact ih answer ⟨closed, hw'.ready⟩
  | look next ih => exact ih w.live.state h
  | become s next ih => exact ih h
  | hangUp next ih =>
    obtain ⟨closed, hw⟩ := h
    obtain ⟨w', hhang, hw', -⟩ := hw.hangUp fault
    rw [converse_hangUp hhang, Option.elim_some]
    exact ih _ ⟨_, hw'⟩

theorem exists_ready (echo : Echo) (errands : List Errand) :
    ∃ closed, ((attach i cutting).run i cutting echo errands).Ready closed := by
  induction errands using List.reverseRecOn with
  | nil => exact ⟨none, (ready_attach i cutting).1⟩
  | append_singleton errands errand ih =>
    rw [run_concat]
    exact exists_ready_converse i cutting errand.fault (perform echo errand.action).run ih

end Attached

namespace Live

theorem ask_waits (w : Live) (command : Text) (echo : Echo) (wait : Wait) (waits : List Wait) :
    { w with waits := wait :: waits }.ask command echo =
      (({ w with waits := [wait] }.ask command echo).1,
        { ({ w with waits := [wait] }.ask command echo).2 with waits }) ∧
      ({ w with waits := [wait] }.ask command echo).2.waits = [] := by
  simp only [ask, nextWait, happen, List.headD_cons, List.tail_cons]
  split <;> exact ⟨rfl, rfl⟩

theorem hangUp_waits (w : Live) (wait : Wait) (waits : List Wait) :
    { w with waits := wait :: waits }.hangUp =
      (({ w with waits := [wait] }.hangUp).1,
        { ({ w with waits := [wait] }.hangUp).2 with waits }) ∧
      ({ w with waits := [wait] }.hangUp).2.waits = [] := by
  by_cases h : w.connection.dispatcher.queue.count .shutdown <
      shutDowns (w.connection.run (.dispatch .shutdown :: wait.events)).2
  · simp only [hangUp, nextWait, happen, List.headD_cons, List.tail_cons, h, if_true]
    cases wait.fault <;> exact ⟨rfl, rfl⟩
  · simp [hangUp, nextWait, happen, h]

end Live

namespace Attached

variable {α : Type} (i : Respondent) (cutting : Cutting) (fault : Option Text) (w : Attached)

theorem exists_waits (d : Dialogue α) (hw : w.live.waits = []) :
    ∃ waits, ∀ more, { w.live with waits := waits ++ more }.converse d =
        ((w.converse i cutting fault d).1,
          { (w.converse i cutting fault d).2.live with waits := more }) ∧
      (w.converse i cutting fault d).2.live.waits = [] := by
  induction d generalizing w with
  | done a => exact ⟨[], fun more ↦ ⟨rfl, hw⟩⟩
  | ask command echo next ih =>
    rcases hr : w.ask i cutting command echo with ⟨r, w'⟩
    let id := w.live.connection.dispatcher.nextId
    let wait : Wait := { events := (cutting id w.late (w.output i command)).events id }
    have hask (waits : List Wait) : { w.live with waits := wait :: waits }.ask command echo =
        (r, { w'.live with waits }) ∧ w'.live.waits = [] := by
      have h := w.live.ask_waits command echo wait waits
      rw [Attached.ask, Prod.mk.injEq] at hr
      rw [← hr.1, ← hr.2]
      exact h
    rw [converse_ask hr]
    cases r with
    | none =>
      refine ⟨[wait], fun more ↦ ?_⟩
      rw [List.singleton_append, Live.converse_ask (hask more).1]
      exact ⟨rfl, (hask more).2⟩
    | some answer =>
      obtain ⟨waits, hwaits⟩ := ih answer w' (hask []).2
      refine ⟨wait :: waits, fun more ↦ ?_⟩
      rw [List.cons_append, Live.converse_ask (hask (waits ++ more)).1]
      exact hwaits more
  | look next ih => exact ih w.live.state w hw
  | become s next ih => exact ih { w with live := { w.live with state := s } } hw
  | hangUp next ih =>
    rcases hr : w.hangUp fault with ⟨r, w'⟩
    let wait : Wait := { events := [.dispatch .takeTurn], fault }
    have hhang (waits : List Wait) : { w.live with waits := wait :: waits }.hangUp =
        (r, { w'.live with waits }) ∧ w'.live.waits = [] := by
      have h := w.live.hangUp_waits wait waits
      rw [Attached.hangUp, Prod.mk.injEq] at hr
      rw [← hr.1, ← hr.2]
      exact h
    rw [converse_hangUp hr]
    cases r with
    | none =>
      refine ⟨[wait], fun more ↦ ?_⟩
      rw [List.singleton_append, Live.converse_hangUp (hhang more).1]
      exact ⟨rfl, (hhang more).2⟩
    | some answer =>
      obtain ⟨waits, hwaits⟩ := ih answer w' (hhang []).2
      refine ⟨wait :: waits, fun more ↦ ?_⟩
      rw [List.cons_append, Live.converse_hangUp (hhang (waits ++ more)).1]
      exact hwaits more

theorem exists_scene (echo : Echo) (errand : Errand) (hw : w.live.waits = []) :
    ∃ scene : Scene, scene.action = errand.action ∧
      (w.act i cutting echo errand).live = w.live.act echo scene ∧
      (w.act i cutting echo errand).live.waits = [] := by
  let ready : Attached := { w with live := { w.live with exchanges := [] } }
  obtain ⟨waits, hwaits⟩ := ready.exists_waits i cutting errand.fault
    (perform echo errand.action).run hw
  obtain ⟨hlive, hnone⟩ := hwaits []
  rcases hr : ready.converse i cutting errand.fault (perform echo errand.action).run with ⟨r, w'⟩
  rw [hr, List.append_nil] at hlive
  rw [hr] at hnone
  have hw' : { w'.live with waits := [] } = w'.live := by rw [← hnone]
  have hhappen : (w.live.happen []).2 = w.live := by simp [Live.happen, Connection.run]
  refine ⟨⟨errand.action, [], waits⟩, rfl, ?_, ?_⟩
  · rw [act_eq hr]
    symm
    refine Live.act_eq ?_
    rw [hhappen, ← hw']
    exact hlive
  · rw [act_eq hr]
    exact hnone

/-- An attached session is a live one, in which certain things happen while it waits. -/
theorem exists_scenes (echo : Echo) (errands : List Errand) :
    ∃ scenes : List Scene, scenes.map Scene.action = errands.map Errand.action ∧
      ((attach i cutting).run i cutting echo errands).live =
        (attach i cutting).live.run echo scenes ∧
      ((attach i cutting).run i cutting echo errands).live.waits = [] := by
  induction errands using List.reverseRecOn with
  | nil => exact ⟨[], rfl, rfl, rfl⟩
  | append_singleton errands errand ih =>
    obtain ⟨scenes, hactions, hlive, hnone⟩ := ih
    obtain ⟨scene, haction, hact, hwaits⟩ := exists_scene i cutting _ echo errand hnone
    refine ⟨scenes ++ [scene], by simp [hactions, haction], ?_, ?_⟩
    · rw [run_concat, Live.run_concat, ← hlive, hact]
    · rw [run_concat, hwaits]

end Attached

end Session

end Prompter
