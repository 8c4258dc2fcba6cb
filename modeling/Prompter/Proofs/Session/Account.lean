import Prompter.Proofs.Session.Course

namespace Prompter.Session

open Operation

/-- What a reply tells once it has been decoded. -/
inductive News where
  | loaded (program : Text)
  | started (name : Text) (value : Tree)
  | ended (name : Text) (value : Tree)
  | paused (program : Text) (line : Nat) (note : Option Text)
  | loopExit
  | bindings (b : Bindings)
  | listing (l : Listing)
  | edited (added : Bool) (program : Text) (line : Nat)
  | lines (ls : List Text)
  | frame (f : Frame)
  deriving DecidableEq

namespace News

def ofRun : RunReply → News
  | .wrote name value => .ended name value
  | .breakpoint program line => .paused program line none

def ofStep : StepReply → News
  | .read name value => .started name value
  | .wrote name value => .ended name value
  | .atLine program line note => .paused program line (some note)
  | .loopExit => .loopExit

def cause? : News → Option Cause
  | .started name value => some (.start name value)
  | .ended name value => some (.done name value)
  | .paused _ line note => some (.breakpoint line note)
  | .loopExit => some .loopExit
  | _ => none

/-- What an operation returns upon the news, with the snapshot at its end. -/
def value (s : State) : News → Value
  | .loaded _ => .state s
  | .started name value => .outcome ⟨.start name value, s⟩
  | .ended name value => .outcome ⟨.done name value, s⟩
  | .paused _ line note => .outcome ⟨.breakpoint line note, s⟩
  | .loopExit => .outcome ⟨.loopExit, s⟩
  | .bindings b => .bindings b
  | .listing l => .listing l
  | .edited _ _ _ => .state s
  | .lines ls => .lines ls
  | .frame f => .frame f

end News

def State.after (s : State) : News → State
  | .loaded program => s.loaded program
  | .ended _ _ => s.completed
  | .paused program line _ => s.pausedAt program line
  | .bindings b => s.withBindings b
  | .listing l => s.withBreakpoints (l.map LineSet.ofList)
  | .edited added program line => s.withBreakpoint program line added
  | .started _ _ | .loopExit | .lines _ | .frame _ => s

namespace Action

def reading (a : Action) (x : Exchange) : Except SessionError News :=
  x.answer.bind fun frame ↦
    match a with
    | .load _ _ => .loaded <$> Reply.decodeLoad x.command frame
    | .run => .ofRun <$> Reply.decodeRun x.command frame
    | .step => .ofStep <$> Reply.decodeStep x.command frame
    | .store => .bindings <$> Reply.decodeStore x.command frame
    | .listBreakpoints => .listing <$> Reply.decodeBreakpoints x.command frame
    | .addBreakpoint _ _ => (fun e ↦ .edited true e.1 e.2) <$> Reply.decodeEdit x.command true frame
    | .deleteBreakpoint _ _ =>
      (fun e ↦ .edited false e.1 e.2) <$> Reply.decodeEdit x.command false frame
    | .help | .changeDirectory _ | .evaluate _ => .ok (.lines frame.replyLines)
    | .execute _ _ | .stop => .ok (.frame frame)

/-- The operations that an operation attempts once its own command has brought news. -/
def refreshes : Action → List Action
  | .load _ _ => [.listBreakpoints, .store]
  | .run | .step => [.store]
  | _ => []

/-- Whether an operation fails for want of a program before it has sent anything. -/
def Refused (s : State) : Action → Prop
  | .run | .step => s.phase = .idle ∨ s.phase = .completed
  | .addBreakpoint _ program | .deleteBreakpoint _ program =>
    program = none ∧ s.program = none
  | _ => False

def command? (s : State) : Action → Option Text
  | .load program input => some (":load " ++ program ++ " " ++ Text.trim input)
  | .run => some ":run"
  | .step => some ":step"
  | .store => some ":store"
  | .listBreakpoints => some ":break"
  | .addBreakpoint n program =>
    (program <|> s.program).map fun p ↦ ":break " ++ Text.decimal n ++ " " ++ p
  | .deleteBreakpoint n program =>
    (program <|> s.program).map fun p ↦ ":delbreak " ++ Text.decimal n ++ " " ++ p
  | .help => some ":help"
  | .changeDirectory directory => some (":cd " ++ directory)
  | .evaluate expression => some expression
  | .execute command _ => some command
  | .stop => none

/-- The commands that an operation sends if nothing keeps it from them. -/
def commands (s : State) (a : Action) : List Text := (a :: a.refreshes).filterMap (command? s)

end Action

variable {a : Action} {x : Exchange} {news : News}

def News.Of (a : Action) (x : Exchange) : News → Prop
  | .loaded name => (∃ program input, a = .load program input) ∧
      x.answer.bind (Reply.decodeLoad x.command) = .ok name
  | .started _ _ | .loopExit => a = .step
  | .ended _ _ | .paused _ _ _ => a = .run ∨ a = .step
  | .bindings b => a = .store ∧ x.answer.bind (Reply.decodeStore x.command) = .ok b
  | .listing l => a = .listBreakpoints ∧ x.answer.bind (Reply.decodeBreakpoints x.command) = .ok l
  | .edited added _ _ => ∃ n program,
      a = if added then .addBreakpoint n program else .deleteBreakpoint n program
  | .lines _ | .frame _ => True

theorem eq_ok_of_map {ε α β : Type} {f : α → β} {r : Except ε α} {b : β} (h : f <$> r = .ok b) :
    ∃ a, r = .ok a ∧ f a = b := by
  cases r with
  | error e => cases h
  | ok a => exact ⟨a, rfl, Except.ok.inj h⟩

theorem eq_ok_of_bind {ε α β : Type} {f : α → Except ε β} {r : Except ε α} {b : β}
    (h : r.bind f = .ok b) : ∃ a, r = .ok a ∧ f a = .ok b := by
  cases r with
  | error e => cases h
  | ok a => exact ⟨a, rfl, h⟩

theorem Action.reading_of (h : a.reading x = .ok news) : news.Of a x := by
  obtain ⟨command, answer⟩ := x
  cases answer with
  | error e => cases h
  | ok frame =>
    cases a with
    | load program input =>
      obtain ⟨name, hname, rfl⟩ := eq_ok_of_map h
      exact ⟨⟨program, input, rfl⟩, hname⟩
    | run =>
      obtain ⟨reply, -, rfl⟩ := eq_ok_of_map h
      cases reply <;> exact .inl rfl
    | step =>
      obtain ⟨reply, -, rfl⟩ := eq_ok_of_map h
      cases reply with
      | read | loopExit => rfl
      | wrote | atLine => exact .inr rfl
    | store =>
      obtain ⟨b, hb, rfl⟩ := eq_ok_of_map h
      exact ⟨rfl, hb⟩
    | listBreakpoints =>
      obtain ⟨l, hl, rfl⟩ := eq_ok_of_map h
      exact ⟨rfl, hl⟩
    | addBreakpoint n program | deleteBreakpoint n program =>
      obtain ⟨e, -, rfl⟩ := eq_ok_of_map h
      exact ⟨n, program, rfl⟩
    | help | changeDirectory | evaluate | execute | stop =>
      cases h
      trivial

theorem Action.eq_of_mem_refreshes {b : Action} (h : b ∈ a.refreshes) :
    b = .listBreakpoints ∨ b = .store := by
  cases a <;> simp only [refreshes, List.mem_cons, List.not_mem_nil, or_false] at h
  case load => exact h
  all_goals exact .inr h

theorem Action.reading_of_mem {b : Action} (hb : b ∈ a.refreshes) (h : b.reading x = .ok news) :
    (∃ l, news = .listing l) ∨ ∃ b, news = .bindings b := by
  obtain ⟨command, answer⟩ := x
  obtain rfl | rfl := eq_of_mem_refreshes hb
  · cases answer with
    | error e => cases h
    | ok frame =>
      obtain ⟨l, -, rfl⟩ := eq_ok_of_map h
      exact .inl ⟨l, rfl⟩
  · cases answer with
    | error e => cases h
    | ok frame =>
      obtain ⟨b, -, rfl⟩ := eq_ok_of_map h
      exact .inr ⟨b, rfl⟩

/-- The snapshot once the answer to a command of `a` has been heeded. -/
def State.heed (s : State) (a : Action) (x : Exchange) : State :=
  match a.reading x with
  | .ok news => s.after news
  | .error _ => s

def State.heedAll (s : State) (es : List (Action × Exchange)) : State :=
  es.foldl (fun s e ↦ s.heed e.1 e.2) s

/-- Everything that an operation can do: be refused, be given up before or after its own command
has been answered, fail with that answer, or succeed with the news in it whatever comes of what it
attempts further. To stop is to have nothing left, if the interpreter ends. -/
inductive Did (s : State) (a : Action) :
    Option (Except SessionError Value) → State → List Exchange → Prop
  | refused (message : Text) (h : a.Refused s) : Did s a (some (.error (.usage message))) s []
  | unanswered (h : ¬a.Refused s) : Did s a none s []
  | failed {x : Exchange} {e : SessionError} (h : ¬a.Refused s)
      (hc : [x].map Exchange.command <+: a.commands s) (hx : a.reading x = .error e) :
    Did s a (some (.error e)) s [x]
  | told {x : Exchange} {news : News} {r : Option (Except SessionError Value)} {s' : State}
      {xs : List Exchange} (h : ¬a.Refused s)
      (hc : (x :: xs).map Exchange.command <+: a.commands s) (hx : a.reading x = .ok news)
      (hs : s' = (s.after news).heedAll (a.refreshes.zip xs))
      (hr : r = if xs.length = a.refreshes.length then some (.ok (news.value s')) else none) :
      Did s a r s' (x :: xs)
  | stopped (h : a = .stop) : Did s a (some (.ok .nothing)) {} []
  | unstopped {e : SessionError} (h : a = .stop) : Did s a (some (.error e)) s []

theorem Action.prefix_commands {s : State} {a : Action} {command : Text}
    (h : a.command? s = some command) : [command] <+: a.commands s := by
  rw [commands, List.filterMap_cons_some h]
  exact ⟨_, rfl⟩

variable {echo : Echo} {s : State} {xs : List Exchange}

theorem always_attempt_refresh {α : Type} {b : Action} {command : Text}
    {decode : Frame → Except SessionError α} {Q : Dialogue.Ending (Except SessionError Unit)}
    (news : α → News) (f : State → α → State)
    (hr : ∀ answer, b.reading ⟨command, answer⟩ = (answer.bind decode).map news)
    (hf : ∀ s c, s.after (news c) = f s c) :
    Always Q (attempt (ask command echo >>= fun frame ↦ decoded (decode frame) >>= fun c ↦
        modify (f · c) >>= fun _ ↦ pure c)) s xs ↔
      Q none s xs ∧ ∀ answer,
        Q (some (.ok ())) (s.heed b ⟨command, answer⟩) (xs ++ [⟨command, answer⟩]) := by
  rw [always_attempt]
  refine always_told.trans (and_congr_right fun _ ↦ forall_congr' fun answer ↦ iff_of_eq ?_)
  rw [State.heed, hr]
  cases answer.bind decode with
  | error e => rfl
  | ok c =>
    simp only [Except.map, hf]
    rfl

theorem always_attempt_listBreakpoints {Q : Dialogue.Ending (Except SessionError Unit)} :
    Always Q (attempt (listBreakpoints echo)) s xs ↔ Q none s xs ∧ ∀ answer,
      Q (some (.ok ())) (s.heed .listBreakpoints ⟨":break", answer⟩)
        (xs ++ [⟨":break", answer⟩]) :=
  always_attempt_refresh .listing (fun s l ↦ s.withBreakpoints (l.map LineSet.ofList))
    (by rintro (_ | _) <;> rfl) fun _ _ ↦ rfl

theorem always_attempt_store {Q : Dialogue.Ending (Except SessionError Unit)} :
    Always Q (attempt (store echo)) s xs ↔ Q none s xs ∧ ∀ answer,
      Q (some (.ok ())) (s.heed .store ⟨":store", answer⟩) (xs ++ [⟨":store", answer⟩]) :=
  always_attempt_refresh .bindings State.withBindings (by rintro (_ | _) <;> rfl) fun _ _ ↦ rfl

/-- What is left to say of an operation when only the value is still to be returned. -/
abbrev returning {α : Type} (value : α → Value) (Q : Dialogue.Ending (Except SessionError Value)) :
    Dialogue.Ending (Except SessionError α) :=
  before (fun a ↦ pure (value a)) Q

/-- An operation that is not refused sends its command, decodes the answer and goes on. -/
theorem always_primary {α β : Type} {a : Action} {command : Text}
    {decode : Frame → Except SessionError α} {f : α → Operation β} {value : β → Value}
    (news : α → News) (h : ¬a.Refused s) (hc : a.command? s = some command)
    (hr : ∀ answer, a.reading ⟨command, answer⟩ = (answer.bind decode).map news)
    (hf : ∀ answer b, a.reading ⟨command, answer⟩ = .ok (news b) →
      Always (returning value (Did s a)) (f b) s [⟨command, answer⟩]) :
    Always (returning value (Did s a))
      (ask command echo >>= fun frame ↦ decoded (decode frame) >>= f) s [] := by
  refine always_told.2 ⟨.unanswered h, fun answer ↦ ?_⟩
  cases hx : answer.bind decode with
  | error e =>
    exact .failed h (Action.prefix_commands hc) (by rw [hr, hx]; rfl)
  | ok b => exact hf answer b (by rw [hr, hx]; rfl)

theorem perform_load (program input : Text) :
    Always (Did s (.load program input)) (perform echo (.load program input)) s [] := by
  refine always_map.2 (always_primary .loaded id rfl (by rintro (_ | _) <;> rfl) fun x name hx ↦ ?_)
  rw [always_bind, always_modify]
  change Always _ (_ >>= _) _ _
  rw [always_bind, always_attempt_listBreakpoints]
  refine ⟨.told id ⟨[":break", ":store"], rfl⟩ hx rfl rfl, fun y ↦ ?_⟩
  change Always _ (_ >>= _) _ _
  rw [always_bind, always_attempt_store]
  exact ⟨.told id ⟨[":store"], rfl⟩ hx rfl rfl, fun z ↦ .told id ⟨[], rfl⟩ hx rfl rfl⟩

theorem always_requireRunnable {Q : Dialogue.Ending (Except SessionError Unit)}
    (hr : s.phase = .idle ∨ s.phase = .completed →
      ∀ message, Q (some (.error (.usage message))) s xs)
    (hQ : ¬(s.phase = .idle ∨ s.phase = .completed) → Q (some (.ok ())) s xs) :
    Always Q requireRunnable s xs := by
  refine always_bind.2 (always_look.2 ?_)
  simp only [before]
  split
  next hp => exact hr (.inl hp) _
  next hp => exact hr (.inr hp) _
  next hp => exact hQ (by simp [hp])
  next hp => exact hQ (by simp [hp])

theorem always_outcome {a : Action} {x : Exchange} {news : News} {cause : Cause}
    (h : ¬a.Refused s) (ha : a.refreshes = [.store]) (hc : a.command? s = some x.command)
    (hx : a.reading x = .ok news) (hv : ∀ s, news.value s = .outcome ⟨cause, s⟩) :
    Always (returning .outcome (Did s a)) (outcome echo cause) (s.after news) [x] := by
  have hcommands : a.commands s = [x.command, ":store"] := by
    rw [Action.commands, ha, List.filterMap_cons_some hc]
    rfl
  -- It is given up while it waits for the variables, or it returns whatever they are.
  refine always_bind.2 (always_attempt_store.2 ⟨?_, fun y ↦ ?_⟩)
  · exact .told h (by simp [hcommands]) hx (by simp [ha, State.heedAll]) (by simp [ha])
  · refine always_bind.2 (always_look.2 ?_)
    refine .told h (by simp [hcommands]) hx (by simp [ha, State.heedAll]) ?_
    simp [ha, hv]

theorem perform_run : Always (Did s .run) (perform echo .run) s [] := by
  refine always_map.2 (always_bind.2 (always_requireRunnable (fun h message ↦ .refused message h)
    fun h ↦ ?_))
  replace h : ¬Action.Refused s .run := h
  refine always_primary .ofRun h rfl (by rintro (_ | _) <;> rfl) fun x reply hx ↦ ?_
  cases reply with
  | wrote name value =>
    exact always_bind.2 (always_modify.2 (always_outcome h rfl rfl hx fun _ ↦ rfl))
  | breakpoint program line =>
    exact always_bind.2 (always_modify.2 (always_outcome h rfl rfl hx fun _ ↦ rfl))

theorem perform_step : Always (Did s .step) (perform echo .step) s [] := by
  refine always_map.2 (always_bind.2 (always_requireRunnable (fun h message ↦ .refused message h)
    fun h ↦ ?_))
  replace h : ¬Action.Refused s .step := h
  refine always_primary .ofStep h rfl (by rintro (_ | _) <;> rfl) fun x reply hx ↦ ?_
  cases reply with
  | read name value => exact always_outcome h rfl rfl hx fun _ ↦ rfl
  | wrote name value =>
    exact always_bind.2 (always_modify.2 (always_outcome h rfl rfl hx fun _ ↦ rfl))
  | atLine program line note =>
    exact always_bind.2 (always_modify.2 (always_outcome h rfl rfl hx fun _ ↦ rfl))
  | loopExit => exact always_outcome h rfl rfl hx fun _ ↦ rfl

theorem perform_store : Always (Did s .store) (perform echo .store) s [] :=
  always_map.2 <| always_primary .bindings id rfl (by rintro (_ | _) <;> rfl) fun _ _ hx ↦
    .told id ⟨[], rfl⟩ hx rfl rfl

theorem perform_listBreakpoints :
    Always (Did s .listBreakpoints) (perform echo .listBreakpoints) s [] :=
  always_map.2 <| always_primary .listing id rfl (by rintro (_ | _) <;> rfl) fun _ _ hx ↦
    .told id ⟨[], rfl⟩ hx rfl rfl

theorem always_breakpointTarget {program : Option Text}
    {Q : Dialogue.Ending (Except SessionError Text)}
    (hr : (program <|> s.program) = none → ∀ message, Q (some (.error (.usage message))) s xs)
    (hQ : ∀ target, (program <|> s.program) = some target → Q (some (.ok target)) s xs) :
    Always Q (breakpointTarget program) s xs := by
  refine always_bind.2 (always_look.2 ?_)
  simp only [before]
  split
  next target ht => exact hQ target ht
  next ht => exact hr ht _

theorem always_editBreakpoint {a : Action} {added : Bool} {n : Nat} {program : Option Text}
    (hr : a.Refused s ↔ (program <|> s.program) = none) (ha : a.refreshes = [])
    (hc : a.command? s = (program <|> s.program).map fun target ↦
      (if added then (":break " : Text) else ":delbreak ") ++ Text.decimal n ++ " " ++ target)
    (hx : ∀ x, a.reading x = (x.answer.bind (Reply.decodeEdit x.command added)).map
      fun e ↦ .edited added e.1 e.2) :
    Always (returning .state (Did s a)) (editBreakpoint echo added n program) s [] := by
  refine always_bind.2 (always_breakpointTarget (fun ht message ↦ .refused message (hr.2 ht))
    fun target ht ↦ ?_)
  have h : ¬a.Refused s := by rw [hr, ht]; exact Option.some_ne_none target
  rw [ht, Option.map_some] at hc
  refine always_primary _ h hc (fun answer ↦ hx _) fun x e hx ↦ ?_
  refine always_bind.2 (always_modify.2 (always_look.2 (always_pure.2 ?_)))
  refine .told h (Action.prefix_commands hc) hx ?_ ?_
  · rw [ha]
    rfl
  · rw [ha]
    rfl

theorem perform_addBreakpoint (n : Nat) (program : Option Text) :
    Always (Did s (.addBreakpoint n program)) (perform echo (.addBreakpoint n program)) s [] :=
  always_map.2 <| always_editBreakpoint (by cases program <;> simp [Action.Refused]) rfl rfl
    (by rintro ⟨_, _ | _⟩ <;> rfl)

theorem perform_deleteBreakpoint (n : Nat) (program : Option Text) :
    Always (Did s (.deleteBreakpoint n program)) (perform echo (.deleteBreakpoint n program)) s
      [] :=
  always_map.2 <| always_editBreakpoint (by cases program <;> simp [Action.Refused]) rfl rfl
    (by rintro ⟨_, _ | _⟩ <;> rfl)

theorem always_reply {α : Type} {a : Action} {command : Text} {f : Frame → α} {value : α → Value}
    (h : ¬a.Refused s) (ha : a.refreshes = []) (hc : a.command? s = some command) (news : α → News)
    (hx : ∀ answer, a.reading ⟨command, answer⟩ = answer.map fun frame ↦ news (f frame))
    (hv : ∀ b, (news b).value s = value b) (hs : ∀ b, s.after (news b) = s) :
    Always (returning value (Did s a)) (ask command echo >>= fun frame ↦ pure (f frame)) s [] := by
  refine always_bind.2 (always_ask.2 ⟨.unanswered h, fun answer ↦ ?_⟩)
  cases answer with
  | error e => exact .failed h (Action.prefix_commands hc) (hx _)
  | ok frame =>
    refine always_pure.2 (always_pure.2 ?_)
    refine .told h (Action.prefix_commands hc) (hx _) ?_ ?_
    · rw [ha, hs]
      rfl
    · rw [ha, ← hv]
      rfl

/-- An operation does nothing else. -/
theorem perform_did (echo : Echo) (s : State) (a : Action) :
    Always (Did s a) (perform echo a) s [] := by
  cases a with
  | load program input => exact perform_load program input
  | run => exact perform_run
  | step => exact perform_step
  | store => exact perform_store
  | listBreakpoints => exact perform_listBreakpoints
  | addBreakpoint n program => exact perform_addBreakpoint n program
  | deleteBreakpoint n program => exact perform_deleteBreakpoint n program
  | help =>
    exact always_map.2 (always_reply id rfl rfl .lines (by rintro (_ | _) <;> rfl) (fun _ ↦ rfl)
      fun _ ↦ rfl)
  | changeDirectory directory =>
    exact always_map.2 (always_reply id rfl rfl .lines (by rintro (_ | _) <;> rfl) (fun _ ↦ rfl)
      fun _ ↦ rfl)
  | evaluate expression =>
    exact always_map.2 (always_reply id rfl rfl .lines (by rintro (_ | _) <;> rfl) (fun _ ↦ rfl)
      fun _ ↦ rfl)
  | execute command mode =>
    refine always_map.2 (always_ask.2 ⟨.unanswered id, fun answer ↦ ?_⟩)
    cases answer with
    | error e => exact .failed id (List.prefix_refl _) rfl
    | ok frame => exact .told id (List.prefix_refl _) rfl rfl rfl
  | stop =>
    refine always_map.2 (always_bind.2 (always_hangUp.2 ⟨.unanswered id, fun answer ↦ ?_⟩))
    cases answer with
    | error e => exact .unstopped rfl
    | ok _ => exact .stopped rfl

end Prompter.Session
