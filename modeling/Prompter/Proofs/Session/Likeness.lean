import Prompter.Session.Action

namespace Prompter

/-- An error without the raw text that it carries. -/
def SessionError.bare : SessionError → SessionError
  | .unexpectedReply command _ => .unexpectedReply command []
  | e => e

/-- Two results are alike: both good and related by `R`, or errors that differ in no more than raw
text. -/
inductive Alike {α : Type} (R : α → α → Prop) :
    Except SessionError α → Except SessionError α → Prop
  | ok {a b : α} (h : R a b) : Alike R (.ok a) (.ok b)
  | error {e e' : SessionError} (h : e.bare = e'.bare) : Alike R (.error e) (.error e')

namespace Alike

variable {α β : Type} {R : α → α → Prop} {S : β → β → Prop} {r r' : Except SessionError α}

theorem refl (r : Except SessionError α) : Alike (· = ·) r r := by
  cases r with
  | error e => exact .error rfl
  | ok a => exact .ok rfl

theorem bind {f g : α → Except SessionError β} (h : Alike R r r')
    (hf : ∀ a b, R a b → Alike S (f a) (g b)) : Alike S (r >>= f) (r' >>= g) := by
  cases h with
  | ok hab => exact hf _ _ hab
  | error he => exact .error he

end Alike

def Frame.Same (f g : Frame) : Prop := f.lines = g.lines

namespace Reply

variable {f g : Frame} (command : Text)

theorem fits_alike {α : Type} {line line' : Text} (form : Option α) :
    Alike (· = ·) (fits command line form) (fits command line' form) := by
  cases form with
  | none => exact .error rfl
  | some a => exact .ok rfl

theorem lineAt_alike (h : f.Same g) (n : Nat) :
    Alike (· = ·) (lineAt command n f) (lineAt command n g) := by
  rw [lineAt, lineAt, Frame.replyLines, h]
  exact fits_alike command _

theorem decodeLoad_alike (h : f.Same g) :
    Alike (· = ·) (decodeLoad command f) (decodeLoad command g) :=
  (lineAt_alike command h 0).bind fun _ _ he ↦ he ▸ .refl _

theorem decodeEdit_alike (h : f.Same g) (added : Bool) :
    Alike (· = ·) (decodeEdit command added f) (decodeEdit command added g) :=
  (lineAt_alike command h 0).bind fun _ _ he ↦ he ▸ .refl _

theorem decodeStep_alike (h : f.Same g) :
    Alike (· = ·) (decodeStep command f) (decodeStep command g) :=
  (lineAt_alike command h 0).bind fun _ _ he ↦ he ▸ .refl _

theorem decodeRun_alike (h : f.Same g) :
    Alike (· = ·) (decodeRun command f) (decodeRun command g) := by
  refine (lineAt_alike command h 0).bind fun line _ he ↦ ?_
  subst he
  split
  · exact .refl _
  · split
    · exact (lineAt_alike command h 1).bind fun _ _ he ↦ he ▸ .refl _
    · exact .refl _

theorem decodeStore_alike (h : f.Same g) :
    Alike (· = ·) (decodeStore command f) (decodeStore command g) := by
  rw [decodeStore, decodeStore, Frame.replyLines, h]
  exact .refl _

theorem decodeBreakpoints_alike (h : f.Same g) :
    Alike (· = ·) (decodeBreakpoints command f) (decodeBreakpoints command g) := by
  rw [decodeBreakpoints, decodeBreakpoints, Frame.replyLines, h]
  exact .refl _

end Reply

namespace Dialogue

variable {α β : Type}

/-- The dialogues go in the same way upon answers that are alike, and end in outcomes related by
`R`. -/
inductive Like (R : α → α → Prop) : Dialogue α → Dialogue α → Prop
  | done {a b : α} (h : R a b) : Like R (.done a) (.done b)
  | ask {command : Text} {echo : Echo} {next next' : Except SessionError Frame → Dialogue α}
      (h : ∀ x y, Alike Frame.Same x y → Like R (next x) (next' y)) :
      Like R (.ask command echo next) (.ask command echo next')
  | look {next next' : Session.State → Dialogue α} (h : ∀ s, Like R (next s) (next' s)) :
      Like R (.look next) (.look next')
  | become {s : Session.State} {next next' : Dialogue α} (h : Like R next next') :
      Like R (.become s next) (.become s next')
  | hangUp {next next' : Except SessionError Unit → Dialogue α}
      (h : ∀ x, Like R (next x) (next' x)) : Like R (.hangUp next) (.hangUp next')

theorem Like.bind {R : α → α → Prop} {S : β → β → Prop} {d d' : Dialogue α}
    {f g : α → Dialogue β} (h : Like R d d') (hf : ∀ a b, R a b → Like S (f a) (g b)) :
    Like S (d.bind f) (d'.bind g) := by
  induction h with
  | done hab => exact hf _ _ hab
  | ask _ ih => exact .ask fun x y hxy ↦ ih x y hxy
  | look _ ih => exact .look ih
  | become _ ih => exact .become ih
  | hangUp _ ih => exact .hangUp ih

end Dialogue

namespace Session

open Operation Reply

namespace Operation

variable {α β : Type} {R : α → α → Prop} {S : β → β → Prop} {x y : Operation α}

def Like (R : α → α → Prop) (x y : Operation α) : Prop := x.run.Like (Alike R) y.run

theorem Like.bind {f g : α → Operation β} (h : Like R x y)
    (hf : ∀ a b, R a b → Like S (f a) (g b)) : Like S (x >>= f) (y >>= g) := by
  refine Dialogue.Like.bind h fun r r' hr ↦ ?_
  cases hr with
  | ok hab => exact hf _ _ hab
  | error he => exact .done (.error he)

theorem Like.map {f : α → β} {g : α → β} (h : Like R x y) (hf : ∀ a b, R a b → S (f a) (g b)) :
    Like S (f <$> x) (g <$> y) :=
  h.bind fun a b hab ↦ .done (.ok (hf a b hab))

theorem like_pure {a b : α} (h : R a b) : Like R (pure a) (pure b) := .done (.ok h)

theorem like_ask (command : Text) (echo : Echo) :
    Like Frame.Same (ask command echo) (ask command echo) := .ask fun _ _ h ↦ .done h

theorem like_look : Like (· = ·) look look := .look fun _ ↦ .done (.ok rfl)

theorem like_modify (f : State → State) : Like (· = ·) (modify f) (modify f) :=
  .look fun _ ↦ .become (.done (.ok rfl))

theorem like_hangUp : Like (· = ·) hangUp hangUp := .hangUp fun x ↦ .done (.refl x)

theorem like_decoded {r r' : Except SessionError α} (h : Alike R r r') :
    Like R (decoded r) (decoded r') := .done h

theorem like_attempt (h : Like R x y) : Like (· = ·) (attempt x) (attempt y) :=
  Dialogue.Like.bind (Dialogue.Like.bind h fun _ _ _ ↦ .done rfl) fun _ _ h ↦ h ▸ .done (.ok rfl)

theorem like_asked {decode : Frame → Except SessionError α} {f : α → Operation β}
    (command : Text) (echo : Echo)
    (hd : ∀ a b, Frame.Same a b → Alike (· = ·) (decode a) (decode b))
    (hf : ∀ a, Like S (f a) (f a)) :
    Like S (ask command echo >>= fun frame ↦ decoded (decode frame) >>= f)
      (ask command echo >>= fun frame ↦ decoded (decode frame) >>= f) :=
  (like_ask command echo).bind fun a b hab ↦ (like_decoded (hd a b hab)).bind fun c _ h ↦ h ▸ hf c

end Operation

variable (echo : Echo)

theorem like_store : Like (· = ·) (store echo) (store echo) :=
  like_asked ":store" echo (fun _ _ ↦ decodeStore_alike _) fun _ ↦
    (like_modify _).bind fun _ _ _ ↦ like_pure rfl

theorem like_listBreakpoints : Like (· = ·) (listBreakpoints echo) (listBreakpoints echo) :=
  like_asked ":break" echo (fun _ _ ↦ decodeBreakpoints_alike _) fun _ ↦
    (like_modify _).bind fun _ _ _ ↦ like_pure rfl

theorem like_load (program input : Text) :
    Like (· = ·) (load echo program input) (load echo program input) :=
  like_asked _ echo (fun _ _ ↦ decodeLoad_alike _) fun _ ↦
    (like_modify _).bind fun _ _ _ ↦ (like_attempt (like_listBreakpoints echo)).bind fun _ _ _ ↦
      (like_attempt (like_store echo)).bind fun _ _ _ ↦ like_look

theorem like_requireRunnable : Like (· = ·) requireRunnable requireRunnable := by
  refine like_look.bind fun s s' hs ↦ ?_
  subst hs
  split <;> exact .done (.refl _)

theorem like_outcome (cause : Cause) : Like (· = ·) (outcome echo cause) (outcome echo cause) :=
  (like_attempt (like_store echo)).bind fun _ _ _ ↦
    like_look.bind fun _ _ hs ↦ hs ▸ like_pure rfl

theorem like_run : Like (· = ·) (run echo) (run echo) := by
  refine like_requireRunnable.bind fun _ _ _ ↦
    like_asked _ echo (fun _ _ ↦ decodeRun_alike _) fun reply ↦ ?_
  cases reply <;> exact (like_modify _).bind fun _ _ _ ↦ like_outcome echo _

theorem like_step : Like (· = ·) (step echo) (step echo) := by
  refine like_requireRunnable.bind fun _ _ _ ↦
    like_asked _ echo (fun _ _ ↦ decodeStep_alike _) fun reply ↦ ?_
  cases reply with
  | read | loopExit => exact like_outcome echo _
  | wrote | atLine => exact (like_modify _).bind fun _ _ _ ↦ like_outcome echo _

theorem like_editBreakpoint (added : Bool) (line : Nat) (program : Option Text) :
    Like (· = ·) (editBreakpoint echo added line program)
      (editBreakpoint echo added line program) := by
  have htarget : Like (· = ·) (breakpointTarget program) (breakpointTarget program) := by
    refine like_look.bind fun s s' hs ↦ ?_
    subst hs
    split <;> exact .done (.refl _)
  refine htarget.bind fun target _ ht ↦ ?_
  subst ht
  exact like_asked _ echo (fun _ _ h ↦ decodeEdit_alike _ h added) fun _ ↦
    (like_modify _).bind fun _ _ _ ↦ like_look

theorem like_replyTo (command : Text) :
    Like (· = ·) (replyTo echo command) (replyTo echo command) :=
  (like_ask command echo).bind fun _ _ h ↦ like_pure (congrArg List.tail h)

def Value.bare : Value → Value
  | .frame f => .frame { f with raw := [] }
  | v => v

/-- Answers that are alike have each operation do the same. -/
theorem like_perform (a : Action) :
    Like (fun v w ↦ v.bare = w.bare) (perform echo a) (perform echo a) := by
  cases a with
  | load program input => exact (like_load echo program input).map fun _ _ h ↦ h ▸ rfl
  | run => exact (like_run echo).map fun _ _ h ↦ h ▸ rfl
  | step => exact (like_step echo).map fun _ _ h ↦ h ▸ rfl
  | store => exact (like_store echo).map fun _ _ h ↦ h ▸ rfl
  | listBreakpoints => exact (like_listBreakpoints echo).map fun _ _ h ↦ h ▸ rfl
  | addBreakpoint n program =>
    exact (like_editBreakpoint echo true n program).map fun _ _ h ↦ h ▸ rfl
  | deleteBreakpoint n program =>
    exact (like_editBreakpoint echo false n program).map fun _ _ h ↦ h ▸ rfl
  | help => exact (like_replyTo echo _).map fun _ _ h ↦ h ▸ rfl
  | changeDirectory directory => exact (like_replyTo echo _).map fun _ _ h ↦ h ▸ rfl
  | evaluate expression => exact (like_replyTo echo _).map fun _ _ h ↦ h ▸ rfl
  | execute command mode =>
    refine (like_ask command mode).map fun f g h ↦ ?_
    simp only [Value.bare]
    rw [show f.lines = g.lines from h]
  | stop =>
    exact (like_hangUp.bind fun _ _ _ ↦ like_modify _).map fun _ _ _ ↦ rfl

end Session

end Prompter
