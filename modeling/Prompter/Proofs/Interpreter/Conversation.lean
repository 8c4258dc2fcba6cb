import Prompter.Proofs.Dispatcher.Lines
import Prompter.Proofs.Dispatcher.Matching
import Prompter.Proofs.Framer.Account
import Prompter.Proofs.Interpreter.Output

namespace Prompter.Interpreter

open Dispatcher Text

abbrev state (es : List Event) : Dispatcher := ((start prompt).run es).1

abbrev notices (es : List Event) : List Notice := ((start prompt).run es).2

def heard (es : List Event) : Text := (es.filterMap Event.chunk?).flatten

/-- The lines that the interpreter can have received. One that is being written may have arrived. -/
def received (es : List Event) : List Text :=
  (splitLines (sent (notices es) ++ (state es).writing.flatMap Request.line)).dropLast

/-- At no time more has been read than the greeting and the replies to the lines received. -/
def Answers (i : Interpreter) (es : List Event) : Prop :=
  ∀ a, a <+: es → heard a <+: i.output (received a)

def signs (es : List Event) : List Sign := ((start prompt).inputs es).flatMap Framer.Input.signs

theorem Answers.mono {i : Interpreter} {a es : List Event} (h : Answers i es) (ha : a <+: es) :
    Answers i a :=
  fun b hb ↦ h b (hb.trans ha)

theorem Answers.heard_le {i : Interpreter} {es : List Event} (h : Answers i es) :
    heard es <+: i.output (received es) := h es (List.prefix_refl es)

theorem heard_concat (es : List Event) (e : Event) :
    heard (es ++ [e]) = heard es ++ e.chunk?.getD [] := by
  cases hc : e.chunk? <;> simp [heard, hc]

theorem signs_concat (es : List Event) (e : Event) :
    signs (es ++ [e]) = signs es ++ ((e.chunk?.getD []).map some ++
      (registered ((state es).step e).2).map fun _ ↦ none) := by
  have hturns (rs : List Request) :
      (rs.map fun _ ↦ Framer.Input.turn).flatMap Framer.Input.signs = rs.map fun _ ↦ none := by
    induction rs with
    | nil => rfl
    | cons r rs ih => simp [Framer.Input.signs, ← ih]
  rw [signs, inputs_concat, List.flatMap_append, inputsOf, List.flatMap_append, hturns, signs]
  cases e.chunk? <;> simp [Framer.Input.signs]

theorem text_signs (es : List Event) : Sign.text (signs es) = heard es := by
  induction es using List.reverseRecOn with
  | nil => rfl
  | append_singleton es e ih =>
    have hturns (rs : List Request) : Sign.text (rs.map fun _ ↦ none) = [] :=
      List.filterMap_eq_nil_iff.2 (by simp)
    rw [signs_concat, heard_concat, Sign.text_append, Sign.text_append, ih, Sign.text_map_some,
      hturns, List.append_nil]

def Unbroken (es : List Event) : Prop := ∀ command ∈ commands es, '\n' ∉ command

theorem Unbroken.mono {a es : List Event} (h : Unbroken es) (ha : a <+: es) : Unbroken a := by
  obtain ⟨b, rfl⟩ := ha
  refine fun command hc ↦ h command ?_
  rw [commands, List.filterMap_append, ← List.cons_append]
  exact List.mem_append_left _ hc

theorem Unbroken.command {es : List Event} (h : Unbroken es) {r : Request}
    (hr : r ∈ registered (notices es)) : '\n' ∉ r.command :=
  h _ (List.mem_of_getElem? ((named_run prompt es).requests r (List.mem_cons_of_mem _ hr)))

theorem received_eq {es : List Event} (h : Unbroken es) :
    received es = (kept (notices es)).map Request.command := by
  obtain ⟨done, hkept, hsent⟩ := (written_run prompt es).sent
  rw [received, hsent, ← List.flatMap_append, ← hkept, flatMap_line, splitLines_flatMap,
    List.dropLast_concat]
  intro command hc
  obtain ⟨r, hr, rfl⟩ := List.mem_map.1 hc
  exact h.command (List.mem_filter.1 hr).1

theorem text_stream (m : Text) (turns : List (List Sign)) (body : List Sign) :
    Sign.text (Framer.stream m turns body) = marked m (turns.map Sign.text) ++ Sign.text body := by
  induction turns with
  | nil => simp [Framer.stream, marked]
  | cons s turns ih =>
    have hs : Framer.stream m (s :: turns) body =
        s ++ (m.map some ++ Framer.stream m turns body) := by
      simp [Framer.stream]
    rw [hs, Sign.text_append, Sign.text_append, ih, List.map_cons, marked_cons]
    simp

theorem exists_ledger (es : List Event) :
    ∃ turns body, Framer.Ledger (state es).framer (signs es) turns body (frames (notices es)) := by
  have hrun := framer_run (start prompt) es
  have hledger := Framer.ledger_run prompt ((start prompt).inputs es)
  rwa [show Framer.ofPrompt prompt = (start prompt).framer from rfl, hrun] at hledger

theorem framer_marker (es : List Event) : (state es).framer.marker = marker := by
  have hmarker := Framer.run_marker (start prompt).framer ((start prompt).inputs es)
  rw [framer_run] at hmarker
  exact hmarker

variable {i : Interpreter} {es : List Event} {turns : List (List Sign)} {body : List Sign}
  {fs : List Frame}

theorem marked_heard (hl : Framer.Ledger (state es).framer (signs es) turns body fs) :
    marked marker (turns.map Sign.text) ++
      (Sign.text body ++ (state es).framer.fragment.getD []) = '\n' :: heard es := by
  have ht := congrArg Sign.text hl.signs
  rw [Sign.text_append, text_stream, Sign.text_map_some, framer_marker] at ht
  rw [← List.append_assoc, ← ht, ← text_signs]
  rfl

theorem length_frames (hl : Framer.Ledger (state es).framer (signs es) turns body fs) :
    fs.length = turns.length := by
  simpa using congrArg List.length hl.frames

/-- There are at most as many frames as replies; if there are as many, each is for its reply. -/
theorem Answers.texts (h : Answers i es)
    (hl : Framer.Ledger (state es).framer (signs es) turns body fs) :
    fs.length ≤ (received es).length + 1 ∧
      (fs.length = (received es).length + 1 → turns.map Sign.text = i.turns (received es) ∧
        Sign.text body ++ (state es).framer.fragment.getD [] <+: [' ']) := by
  obtain ⟨more, hmore⟩ := h.heard_le
  have htext : marked marker (turns.map Sign.text) ++
      (Sign.text body ++ (state es).framer.fragment.getD [] ++ more) =
        marked marker (i.turns (received es)) ++ [' '] := by
    rw [← marked_turns, ← hmore, ← List.append_assoc, marked_heard hl, List.cons_append]
  obtain ⟨hle, heq⟩ := length_le_of_marked unbordered_marker (i.not_infix_turns (received es))
    (by decide) htext
  rw [List.length_map, length_turns, ← length_frames hl] at hle heq
  exact ⟨hle, fun hlength ↦ ⟨(heq hlength).1, more, (heq hlength).2⟩⟩

theorem Answers.length_frames_le (h : Answers i es) :
    (frames (notices es)).length ≤ (received es).length + 1 := by
  obtain ⟨turns, body, hl⟩ := exists_ledger es
  exact (h.texts hl).1

end Prompter.Interpreter
