import Prompter.Proofs.Console.Script
import Prompter.Proofs.Session.Course

namespace Prompter

theorem Dialogue.always_of_forall {α : Type} {Q : Ending α} (hQ : ∀ r s xs, Q r s xs)
    (d : Dialogue α) (s : Session.State) (xs : List Session.Exchange) : d.Always Q s xs := by
  induction d generalizing s xs with
  | done a => exact hQ (some a) s xs
  | ask command echo next ih => exact ⟨hQ none s xs, fun answer ↦ ih answer s _⟩
  | look next ih => exact ih s s xs
  | become s' next ih => exact ih s' xs
  | hangUp next ih => exact ⟨hQ none s xs, fun answer ↦ ih answer s xs⟩

namespace Console

open Session (Live Operation)
open Text (splitLines)
open Utf8 (encode)

variable (echo : Echo) (format : Format)

structure Result where
  command : Command
  outcome : Except Text Message

def attemptOperation {α : Type} (x : Operation α) (f : α → Message) :
    Dialogue (Except Text Message) :=
  x.run.bind fun r ↦ .done ((r.map f).mapError SessionError.message)

/-- What a command does on the session. To quit is to do nothing more. -/
def attempt : Command → Dialogue (Except Text Message)
  | .help => attemptOperation (Session.help echo) .lines
  | .quit => .done (.error [])
  | .load program input => attemptOperation (Session.load echo program input) .state
  | .run => attemptOperation (Session.run echo) .outcome
  | .step => attemptOperation (Session.step echo) .outcome
  | .store => attemptOperation (Session.store echo) .bindings
  | .breakpoints => attemptOperation (Session.listBreakpoints echo) .listing
  | .addBreakpoint n program => attemptOperation (Session.addBreakpoint echo n program) .state
  | .deleteBreakpoint n program =>
    attemptOperation (Session.deleteBreakpoint echo n program) .state
  | .state => attemptOperation Operation.look .state
  | .changeDirectory directory => attemptOperation (Session.changeDirectory echo directory) .lines
  | .raw text => attemptOperation (Session.execute text .silent) fun frame ↦ .lines frame.replyLines
  | .invalid text => .done (.error ("コマンド形式が不正です: " ++ text))

def attemptAll : List Command → Dialogue (List Result)
  | [] => .done []
  | c :: cs => (attempt echo c).bind fun r ↦ (attemptAll cs).bind fun rs ↦ .done (⟨c, r⟩ :: rs)

def preface : Command → Text
  | .help => helpText
  | _ => []

def Result.written (r : Result) : Transcript :=
  match r.outcome with
  | .ok m => { out := preface r.command ++ m.show format }
  | .error reason => { out := preface r.command, err := failureText reason }

def transcript (rs : List Result) : Transcript := rs.foldr (fun r t ↦ r.written format ++ t) {}

variable {c : Command} {cs : List Command}

theorem shown_eq {α : Type} (hc : preface c = []) (x : Operation α) (f : α → Message) :
    shown format x f =
      (attemptOperation x f).bind fun r ↦ .done ((Result.mk c r).written format) := by
  rw [shown, attemptOperation, Dialogue.bind_assoc]
  refine congrArg (Dialogue.bind _) (funext fun r ↦ ?_)
  cases r <;> simp [Dialogue.bind, Result.written, hc, Except.map, Except.mapError]

theorem perform_eq (hc : c ≠ .quit) : perform echo format c =
    (attempt echo c).bind fun r ↦ .done ((Result.mk c r).written format) := by
  cases c with
  | help =>
    rw [perform, shown, attempt, attemptOperation, Dialogue.bind_assoc, Dialogue.bind_assoc]
    refine congrArg (Dialogue.bind _) (funext fun r ↦ ?_)
    cases r <;> simp [Dialogue.bind, Result.written, preface, Except.map, Except.mapError,
      Transcript.append_def]
  | quit => exact absurd rfl hc
  | invalid text => rfl
  | _ => exact shown_eq format rfl _ _

theorem performAll_eq (hcs : .quit ∉ cs) : performAll echo format cs =
    (attemptAll echo cs).bind fun rs ↦ .done (transcript format rs) := by
  induction cs with
  | nil => rfl
  | cons c cs ih =>
    rw [List.mem_cons, not_or] at hcs
    have hrest := ih hcs.2
    rw [performAll] at hrest
    rw [performAll, List.foldr_cons, hrest, perform_eq echo format (Ne.symm hcs.1), followed,
      attemptAll]
    simp only [Dialogue.bind_assoc, Dialogue.bind]
    rfl

theorem quit_not_mem_commands (ls : List Text) : .quit ∉ commands ls := by
  intro h
  have hne := List.mem_takeWhile_imp h
  simp at hne

theorem attemptAll_always (cs : List Command) (s : Session.State) (xs : List Session.Exchange) :
    (attemptAll echo cs).Always (fun r _ _ ↦ ∀ rs ∈ r, rs.map Result.command = cs) s xs := by
  induction cs generalizing s xs with
  | nil =>
    rintro rs ⟨⟩
    rfl
  | cons c cs ih =>
    refine (Dialogue.always_bind ..).2 (Dialogue.always_of_forall (fun r s xs ↦ ?_) _ s xs)
    cases r with
    | none =>
      rintro rs ⟨⟩
    | some r =>
      refine (Dialogue.always_bind ..).2 ((ih s xs).mono fun rs s xs hrs ↦ ?_)
      cases rs with
      | none =>
        rintro rs ⟨⟩
      | some rs =>
        rintro rs' ⟨⟩
        exact congrArg (c :: ·) (hrs rs rfl)

theorem converse_attemptAll {w : Live} {rs : List Result}
    (h : rs ∈ (w.converse (attemptAll echo cs)).1) : rs.map Result.command = cs :=
  (Live.converse_always (attemptAll_always echo cs w.state w.exchanges)).1 rs h

theorem converse_performAll (w : Live) (hcs : .quit ∉ cs) :
    w.converse (performAll echo format cs) =
      ((w.converse (attemptAll echo cs)).1.map (transcript format),
        (w.converse (attemptAll echo cs)).2) := by
  rw [performAll_eq echo format hcs, Live.converse_bind]
  obtain ⟨r, w'⟩ := w.converse (attemptAll echo cs)
  cases r <;> rfl

/-- In each session the console does what the commands of the script do. -/
theorem converse_run (w : Live) (script : Text) :
    w.converse (run echo format (inputs (encode script))) =
      ((w.converse (attemptAll echo (commands (splitLines script)))).1.map (transcript format),
        (w.converse (attemptAll echo (commands (splitLines script)))).2) := by
  rw [run_script]
  exact converse_performAll echo format w (quit_not_mem_commands _)

theorem fault_transcript (rs : List Result) : (transcript format rs).fault = none := by
  induction rs with
  | nil => rfl
  | cons r rs ih =>
    have hr : (r.written format).fault = none := by
      unfold Result.written
      split <;> rfl
    change ((r.written format).fault <|> (transcript format rs).fault) = none
    rw [hr, ih]
    rfl

end Console

end Prompter
