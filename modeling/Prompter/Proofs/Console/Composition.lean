import Prompter.Proofs.Console.Results

namespace Prompter.Console

open Session (Live)
open Text (splitLines trim)
open Utf8 (Bytes encode)

variable (echo : Echo) (format : Format) {a : Text}

def Quits (line : Text) : Prop := trim line = ":quit" ∨ trim line = ":q"

instance : DecidablePred Quits := fun _ ↦ inferInstanceAs (Decidable (_ ∨ _))

def inTurn (w : Live) (xs ys : List Input) : Option Transcript × Live :=
  match w.converse (run echo format xs) with
  | (none, w) => (none, w)
  | (some t, w) =>
    let (u, w) := w.converse (run echo format ys)
    (u.map (t ++ ·), w)

theorem converse_followed (w : Live) (xs ys : List Input) :
    w.converse (followed (run echo format xs) (run echo format ys)) =
      inTurn echo format w xs ys := by
  rw [followed, Live.converse_bind, inTurn]
  obtain ⟨t, w'⟩ := w.converse (run echo format xs)
  cases t with
  | none => rfl
  | some t =>
    dsimp only [Option.elim_some]
    rw [Live.converse_bind]
    obtain ⟨u, w''⟩ := w'.converse (run echo format ys)
    cases u <;> rfl

theorem stops_withoutReturn_iff {l : Text} : Stops (.ok (withoutReturn l)) ↔ Quits l := by
  rw [Stops, parse_eq_quit_iff, trim_withoutReturn, Quits]

theorem not_quits_nil : ¬Quits [] := by decide

theorem exists_inputs_append (h : a.getLast? = some '\n') : ∃ ls : List Text,
    splitLines a = ls ++ [[]] ∧ inputs (encode a) = (ls.map withoutReturn).map .ok ∧
      ∀ b, inputs (encode a ++ b) = inputs (encode a) ++ inputs b := by
  obtain ⟨ls, last, hls, hlast, rfl⟩ := Text.exists_lines a
  have hlast : last = [] := by
    by_contra hne
    rw [List.getLast?_append_of_ne_nil _ hne] at h
    exact hlast (List.mem_of_getLast? h)
  subst hlast
  rw [List.append_nil]
  have halone := inputs_lines hls []
  have hnone : inputs [] = [] := rfl
  rw [hnone, List.append_nil, List.append_nil] at halone
  refine ⟨ls, Text.splitLines_flatMap hls, halone, fun b ↦ ?_⟩
  rw [halone, inputs_lines hls b]

theorem run_append_text (h : a.getLast? = some '\n') (hq : ∀ l ∈ splitLines a, ¬Quits l)
    (b : Bytes) : run echo format (inputs (encode a ++ b)) =
      followed (run echo format (inputs (encode a))) (run echo format (inputs b)) := by
  obtain ⟨ls, hls, halone, happend⟩ := exists_inputs_append h
  have hgoes : ∀ x ∈ inputs (encode a), ¬Stops x := by
    simp only [halone, List.forall_mem_map, stops_withoutReturn_iff]
    intro l hl
    exact hq l (hls ▸ List.mem_append_left _ hl)
  rw [happend, run_append echo format hgoes]

theorem run_append_of_quits (h : a.getLast? = some '\n') (hq : ∃ l ∈ splitLines a, Quits l)
    (b : Bytes) :
    run echo format (inputs (encode a ++ b)) = run echo format (inputs (encode a)) := by
  obtain ⟨ls, hls, halone, happend⟩ := exists_inputs_append h
  have hstops : ∃ x ∈ inputs (encode a), Stops x := by
    obtain ⟨l, hl, hquits⟩ := hq
    rw [hls, List.mem_append, List.mem_singleton] at hl
    have hl : l ∈ ls := hl.resolve_right fun he ↦ not_quits_nil (he ▸ hquits)
    rw [halone]
    exact ⟨_, List.mem_map_of_mem (List.mem_map_of_mem hl), stops_withoutReturn_iff.2 hquits⟩
  rw [happend, run_append_of_stops echo format hstops]

/-- How the input of the script `a` with `b` behind it is dealt with. -/
structure Composed (a : Text) (b : Bytes) : Prop where
  goesOn (hq : ∀ l ∈ splitLines a, ¬Quits l) : run echo format (inputs (encode a ++ b)) =
    followed (run echo format (inputs (encode a))) (run echo format (inputs b))
  session (hq : ∀ l ∈ splitLines a, ¬Quits l) (w : Live) :
    w.converse (run echo format (inputs (encode a ++ b))) =
      inTurn echo format w (inputs (encode a)) (inputs b)
  quits (hq : ∃ l ∈ splitLines a, Quits l) :
    run echo format (inputs (encode a ++ b)) = run echo format (inputs (encode a))
  /-- The lines alone say which commands are performed. -/
  reads : run echo format (inputs (encode a)) = performAll echo format (commands (splitLines a))
  /-- Each command has its result, whether those before it have succeeded or failed. -/
  results {w w' : Live} {t : Transcript}
    (h : w.converse (run echo format (inputs (encode a))) = (some t, w')) :
    t.fault = none ∧ ∃ rs : List Result,
      t = transcript format rs ∧ rs.map Result.command = commands (splitLines a)

theorem run_scripts (h : a.getLast? = some '\n') (b : Bytes) : Composed echo format a b where
  goesOn hq := run_append_text echo format h hq b
  session hq w := by
    rw [run_append_text echo format h hq, converse_followed]
  quits hq := run_append_of_quits echo format h hq b
  reads := run_script echo format a
  results {w w' t} ht := by
    rw [converse_run, Prod.mk.injEq, Option.map_eq_some_iff] at ht
    obtain ⟨⟨rs, hrs, rfl⟩, -⟩ := ht
    exact ⟨fault_transcript format rs, rs, rfl, converse_attemptAll echo hrs⟩

/-- A blank line and one that fails, with returns, before a line that does not end. -/
theorem run_scripts_failing :
    let a : Text := "\r\n:break x\r\n"
    a.getLast? = some '\n' ∧ (∀ l ∈ splitLines a, ¬Quits l) ∧
      commands (splitLines a) = [.invalid ":break x"] ∧
      Composed .silent .json a (encode ":state") :=
  ⟨by decide, by decide +kernel, by decide +kernel,
    run_scripts .silent .json (by decide) (encode ":state")⟩

end Prompter.Console
