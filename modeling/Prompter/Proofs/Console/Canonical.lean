import Prompter.Console.Loop
import Prompter.Proofs.Console.Command
import Prompter.Proofs.Dispatcher.Publicity

namespace Prompter.Console

open Reply (isWord)
open Text (trim)

variable (echo : Echo) (format : Format)

theorem perform_load {program input : Text} (h : trim input = input) :
    ∃ next, perform echo format (.load program input) =
      .ask (Command.load program input).text echo next := by
  rw [perform, shown, Session.load, h]
  exact ⟨_, rfl⟩

theorem perform_raw (text : Text) :
    ∃ answered : Except SessionError Frame → Transcript,
      perform echo format (.raw text) = .ask text .silent fun answer ↦ .done (answered answer) := by
  refine ⟨fun
    | .ok frame => { out := (Message.lines frame.replyLines).show format }
    | .error e => { err := failureText e.message }, ?_⟩
  refine congrArg (Dialogue.ask text .silent) (funext fun answer ↦ ?_)
  cases answer <;> rfl

/-- How the command that is read from a line comes back from its canonical text, and goes out. -/
structure Canonical (line : Text) : Prop where
  parse : Command.parse (Command.parse line).text = Command.parse line
  load : ∀ program input, Command.parse line = .load program input →
    isWord program ∧ input ≠ [] ∧ trim input = input
  edit : ∀ n program, Command.parse line = .addBreakpoint n (some program) ∨
    Command.parse line = .deleteBreakpoint n (some program) → isWord program
  asksLoad : ∀ program input, Command.parse line = .load program input →
    ∀ echo format, ∃ next,
      perform echo format (Command.parse line) = .ask (Command.parse line).text echo next
  /-- A line that is no command of the console is sent, and nothing else. -/
  asksRaw : ∀ text, Command.parse line = .raw text → ∀ echo format,
    ∃ answered : Except SessionError Frame → Transcript,
      perform echo format (Command.parse line) =
        .ask (Command.parse line).text .silent fun answer ↦ .done (answered answer)
  /-- Whatever others do, a call with the canonical text writes it as one line. -/
  wrote : ∀ prompt before after echo text,
    .wrote text ∈ (((Dispatcher.start prompt).run
      (before ++ .submit (Command.parse line).text echo :: after)).1.step
        (.written ((Dispatcher.start prompt).run before).1.nextId)).2 →
    text = (Command.parse line).text ++ ['\n']

theorem canonical_parse (line : Text) : Canonical line := by
  have hwell := Command.wellFormed_parse line
  constructor
  case parse => exact Command.parse_text hwell
  case load =>
    intro program input h
    rw [h] at hwell
    exact hwell
  case edit =>
    intro n program h
    obtain h | h := h
    all_goals
      rw [h] at hwell
      exact hwell.2 program rfl
  case asksLoad =>
    intro program input h echo format
    rw [h] at hwell ⊢
    exact perform_load echo format hwell.2.2
  case asksRaw =>
    intro text h echo format
    rw [h]
    exact perform_raw echo format text
  case wrote =>
    intro prompt before after echo text h
    rw [Dispatcher.wrote_of_submit h, Command.trim_text hwell]

end Prompter.Console
