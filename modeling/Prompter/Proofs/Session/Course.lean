import Prompter.Session.Live

namespace Prompter

open Session

namespace Dialogue

variable {α β : Type}

/-- What may be said of the end of a dialogue: of its outcome, of which there is none where it is
given up, of the snapshot then, and of the exchanges up to then. -/
abbrev Ending (α : Type) := Option α → State → List Exchange → Prop

/-- `Q` holds at the end of the dialogue and wherever it waits, whatever the answers are. -/
def Always (Q : Ending α) : Dialogue α → State → List Exchange → Prop
  | done a, s, xs => Q (some a) s xs
  | ask command _ next, s, xs =>
    Q none s xs ∧ ∀ answer, (next answer).Always Q s (xs ++ [⟨command, answer⟩])
  | look next, s, xs => (next s).Always Q s xs
  | become s next, _, xs => next.Always Q s xs
  | hangUp next, s, xs => Q none s xs ∧ ∀ answer, (next answer).Always Q s xs

/-- What an ending of a first part must be if `Q` is to hold once `f` has followed. -/
def Ending.before (f : α → Dialogue β) (Q : Ending β) : Ending α
  | some a, s, xs => (f a).Always Q s xs
  | none, s, xs => Q none s xs

theorem Always.mono {Q Q' : Ending α} (hQ : ∀ r s xs, Q r s xs → Q' r s xs) {d : Dialogue α}
    {s : State} {xs : List Exchange} (h : d.Always Q s xs) : d.Always Q' s xs := by
  induction d generalizing s xs with
  | done a => exact hQ _ _ _ h
  | ask command echo next ih => exact ⟨hQ _ _ _ h.1, fun answer ↦ ih answer (h.2 answer)⟩
  | look next ih => exact ih s h
  | become s' next ih => exact ih h
  | hangUp next ih => exact ⟨hQ _ _ _ h.1, fun answer ↦ ih answer (h.2 answer)⟩

theorem always_bind (d : Dialogue α) (f : α → Dialogue β) (Q : Ending β) (s : State)
    (xs : List Exchange) : (d.bind f).Always Q s xs ↔ d.Always (.before f Q) s xs := by
  induction d generalizing s xs with
  | done a => rfl
  | ask command echo next ih => simp only [bind, Always, Ending.before, ih]
  | look next ih => exact ih s s xs
  | become s' next ih => exact ih s' xs
  | hangUp next ih => simp only [bind, Always, Ending.before, ih]

end Dialogue

namespace Session.Operation

open Dialogue

variable {α β : Type}

def Always (Q : Ending (Except SessionError α)) (x : Operation α) : State → List Exchange → Prop :=
  x.run.Always Q

def before (f : α → Operation β) (Q : Ending (Except SessionError β)) :
    Ending (Except SessionError α)
  | some (.ok a), s, xs => (f a).Always Q s xs
  | some (.error e), s, xs => Q (some (.error e)) s xs
  | none, s, xs => Q none s xs

variable {Q : Ending (Except SessionError α)} {s : State} {xs : List Exchange}

theorem always_pure {a : α} : Always Q (pure a) s xs ↔ Q (some (.ok a)) s xs := .rfl

theorem always_look {Q : Ending (Except SessionError State)} :
    Always Q look s xs ↔ Q (some (.ok s)) s xs := .rfl

theorem always_modify {Q : Ending (Except SessionError Unit)} {f : State → State} :
    Always Q (modify f) s xs ↔ Q (some (.ok ())) (f s) xs := .rfl

theorem always_hangUp {Q : Ending (Except SessionError Unit)} :
    Always Q hangUp s xs ↔ Q none s xs ∧ ∀ answer, Q (some answer) s xs := .rfl

theorem always_ask {Q : Ending (Except SessionError Frame)} {command : Text} {echo : Echo} :
    Always Q (ask command echo) s xs ↔
      Q none s xs ∧ ∀ answer, Q (some answer) s (xs ++ [⟨command, answer⟩]) := .rfl

theorem always_bind {x : Operation α} {f : α → Operation β}
    {Q : Ending (Except SessionError β)} :
    Always Q (x >>= f) s xs ↔ Always (before f Q) x s xs := by
  refine (Dialogue.always_bind ..).trans (iff_of_eq ?_)
  congr 1
  funext r s xs
  rcases r with _ | _ | _ <;> rfl

theorem always_map {x : Operation α} {f : α → β} {Q : Ending (Except SessionError β)} :
    Always Q (f <$> x) s xs ↔ Always (before (fun a ↦ pure (f a)) Q) x s xs := always_bind

theorem always_told {command : Text} {echo : Echo} {decode : Frame → Except SessionError α}
    {f : α → Operation β} {Q : Ending (Except SessionError β)} :
    Always Q (ask command echo >>= fun frame ↦ decoded (decode frame) >>= f) s xs ↔
      Q none s xs ∧ ∀ answer : Except SessionError Frame,
        before f Q (some (answer.bind decode)) s (xs ++ [⟨command, answer⟩]) := by
  rw [always_bind, always_ask]
  refine and_congr_right fun _ ↦ forall_congr' fun answer ↦ ?_
  cases answer with
  | error e => rfl
  | ok frame => exact always_bind

theorem always_attempt {x : Operation α} {Q : Ending (Except SessionError Unit)} :
    Always Q (attempt x) s xs ↔ Always (fun r ↦ Q (r.map fun _ ↦ .ok ())) x s xs := by
  refine (Dialogue.always_bind ..).trans <| (Dialogue.always_bind ..).trans (iff_of_eq ?_)
  congr 1
  funext r s xs
  cases r <;> rfl

end Session.Operation

namespace Session.Live

variable {α β : Type} (w : Live)

theorem ask_cases (command : Text) (echo : Echo) :
    (∃ answer w', w.ask command echo = (some answer, w') ∧ w'.state = w.state ∧
        w'.deeds = w.deeds ∧ w'.exchanges = w.exchanges ++ [⟨command, answer⟩]) ∨
      ∃ w', w.ask command echo = (none, w') ∧ w'.state = w.state ∧ w'.deeds = w.deeds ∧
        w'.exchanges = w.exchanges := by
  unfold ask
  dsimp only
  split
  next answer _ => exact .inl ⟨answer, _, rfl, rfl, rfl, rfl⟩
  next => exact .inr ⟨_, rfl, rfl, rfl, rfl⟩

theorem hangUp_cases :
    ∃ r w', w.hangUp = (r, w') ∧ w'.state = w.state ∧ w'.deeds = w.deeds ∧
      w'.exchanges = w.exchanges := by
  unfold hangUp
  dsimp only
  split
  · split <;> exact ⟨_, _, rfl, rfl, rfl, rfl⟩
  · exact ⟨_, _, rfl, rfl, rfl, rfl⟩

theorem converse_bind (d : Dialogue α) (f : α → Dialogue β) :
    w.converse (d.bind f) =
      (w.converse d).1.elim (none, (w.converse d).2) fun a ↦ (w.converse d).2.converse (f a) := by
  unfold converse
  rw [Dialogue.hold_bind]
  change OptionT.bind (d.hold host) (fun a ↦ (f a).hold host) w = _
  simp only [OptionT.bind, OptionT.mk, OptionT.run, bind, StateT.bind]
  obtain ⟨r, w'⟩ := d.hold host w
  cases r <;> rfl

variable {w}

theorem converse_ask {command : Text} {echo : Echo}
    {next : Except SessionError Frame → Dialogue α} {r : Option (Except SessionError Frame)}
    {w' : Live} (h : w.ask command echo = (r, w')) :
    w.converse (.ask command echo next) =
      r.elim (none, w') fun answer ↦ w'.converse (next answer) := by
  change OptionT.bind (OptionT.mk (ask command echo)) (fun a ↦ (next a).hold host) w = _
  simp only [OptionT.bind, OptionT.mk, bind, StateT.bind, h]
  cases r <;> rfl

theorem converse_hangUp {next : Except SessionError Unit → Dialogue α}
    {r : Option (Except SessionError Unit)} {w' : Live} (h : w.hangUp = (r, w')) :
    w.converse (.hangUp next) = r.elim (none, w') fun answer ↦ w'.converse (next answer) := by
  change OptionT.bind (OptionT.mk hangUp) (fun a ↦ (next a).hold host) w = _
  simp only [OptionT.bind, OptionT.mk, bind, StateT.bind, h]
  cases r <;> rfl

theorem converse_always {d : Dialogue α} {Q : Dialogue.Ending α}
    (h : d.Always Q w.state w.exchanges) :
    Q (w.converse d).1 (w.converse d).2.state (w.converse d).2.exchanges ∧
      (w.converse d).2.deeds = w.deeds := by
  -- An answer that comes leads on to a part of which `Always` speaks as well.
  induction d generalizing w with
  | done a => exact ⟨h, rfl⟩
  | ask command echo next ih =>
    obtain ⟨answer, w', hw, hs, hd, hx⟩ | ⟨w', hw, hs, hd, hx⟩ := w.ask_cases command echo
    · rw [converse_ask hw, ← hd]
      refine ih answer ?_
      rw [hs, hx]
      exact h.2 answer
    · rw [converse_ask hw, Option.elim_none, hs, hx]
      exact ⟨h.1, hd⟩
  | look next ih => exact ih w.state h
  | become s next ih => exact ih (w := { w with state := s }) h
  | hangUp next ih =>
    obtain ⟨r, w', hw, hs, hd, hx⟩ := w.hangUp_cases
    rw [converse_hangUp hw]
    cases r with
    | some answer =>
      rw [← hd]
      refine ih answer ?_
      rw [hs, hx]
      exact h.2 answer
    | none =>
      rw [Option.elim_none, hs, hx]
      exact ⟨h.1, hd⟩

end Session.Live

end Prompter
