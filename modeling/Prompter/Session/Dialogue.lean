import Prompter.Dispatcher
import Prompter.Session.State

namespace Prompter

/-- What an operation does, apart from who answers it. A question may fail with an error, and so
may hanging up. -/
inductive Dialogue (α : Type) where
  | done (a : α)
  | ask (command : Text) (echo : Echo) (next : Except SessionError Frame → Dialogue α)
  | look (next : Session.State → Dialogue α)
  | become (s : Session.State) (next : Dialogue α)
  | hangUp (next : Except SessionError Unit → Dialogue α)

namespace Dialogue

variable {α β γ : Type}

def bind (d : Dialogue α) (f : α → Dialogue β) : Dialogue β :=
  match d with
  | done a => f a
  | ask command echo next => ask command echo fun answer ↦ (next answer).bind f
  | look next => look fun s ↦ (next s).bind f
  | become s next => become s (next.bind f)
  | hangUp next => hangUp fun answer ↦ (next answer).bind f

instance : Monad Dialogue where
  pure := done
  bind := bind

theorem bind_done (d : Dialogue α) : d.bind done = d := by
  induction d with
  | done a => rfl
  | ask command echo next ih => simp only [bind, ih]
  | look next ih => simp only [bind, ih]
  | become s next ih => simp only [bind, ih]
  | hangUp next ih => simp only [bind, ih]

protected theorem bind_assoc (d : Dialogue α) (f : α → Dialogue β) (g : β → Dialogue γ) :
    (d.bind f).bind g = d.bind fun a ↦ (f a).bind g := by
  induction d with
  | done a => rfl
  | ask command echo next ih => simp only [bind, ih]
  | look next ih => simp only [bind, ih]
  | become s next ih => simp only [bind, ih]
  | hangUp next ih => simp only [bind, ih]

instance : LawfulMonad Dialogue :=
  .mk' Dialogue bind_done (fun _ _ ↦ rfl) Dialogue.bind_assoc

structure Host (m : Type → Type) where
  ask : Text → Echo → m (Except SessionError Frame)
  look : m Session.State
  become : Session.State → m Unit
  hangUp : m (Except SessionError Unit)

def hold {m : Type → Type} [Monad m] (host : Host m) : Dialogue α → m α
  | done a => pure a
  | ask command echo next => host.ask command echo >>= fun answer ↦ (next answer).hold host
  | look next => host.look >>= fun s ↦ (next s).hold host
  | become s next => host.become s >>= fun _ ↦ next.hold host
  | hangUp next => host.hangUp >>= fun answer ↦ (next answer).hold host

theorem hold_bind {m : Type → Type} [Monad m] [LawfulMonad m] (host : Host m) (d : Dialogue α)
    (f : α → Dialogue β) : (d.bind f).hold host = d.hold host >>= fun a ↦ (f a).hold host := by
  induction d with
  | done a => simp only [bind, hold, pure_bind]
  | ask command echo next ih => simp only [bind, hold, ih, bind_assoc]
  | look next ih => simp only [bind, hold, ih, bind_assoc]
  | become s next ih => simp only [bind, hold, ih, bind_assoc]
  | hangUp next ih => simp only [bind, hold, ih, bind_assoc]

end Dialogue

end Prompter
