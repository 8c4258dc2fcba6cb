import Prompter.Config
import Prompter.Proofs.Framer.Cut
import Prompter.Proofs.Text.Occurrence

namespace Prompter

open Text

def Interpreter.prompt : Text := ({} : Config).prompt

def Interpreter.marker : Text := trimEnd Interpreter.prompt

/-- A line of a reply, with a line feed at its end or a carriage return and a line feed. -/
structure Interpreter.Line where
  text : Text
  carriageReturn : Bool := false
  noBreak : '\n' ∉ text
  noMarker : ¬ Interpreter.marker <:+: text

/-- What is said in reply to the last of the lines received, or as a greeting if there is none. -/
abbrev Interpreter := List Text → List Interpreter.Line

namespace Interpreter

def Line.ending (l : Line) : Text := if l.carriageReturn then ['\r'] else []

def body (ls : List Line) : Text := ls.flatMap fun l ↦ l.text ++ l.ending ++ ['\n']

def output (i : Interpreter) (lines : List Text) : Text :=
  lines.inits.flatMap fun history ↦ body (i history) ++ prompt

def replyLines (i : Interpreter) (history : List Text) : List Text :=
  ((i history).map fun l ↦ l.text.trim).filter (!·.isEmpty)

theorem prompt_eq : prompt = marker ++ [' '] := by decide

theorem marker_ne_nil : marker ≠ [] := by decide

theorem solid_marker : Solid marker := ⟨⟨'H', by decide⟩, by decide, by decide⟩

theorem unbordered_marker : Unbordered marker := by
  have h : ∀ k ∈ List.range marker.length, 0 < k → ¬ marker.drop k <+: marker := by decide
  exact fun k hk hlt ↦ h k (List.mem_range.2 hlt) hk

theorem not_infix_cons {c : Char} {t : Text} (hc : c ∉ marker) (h : ¬ marker <:+: t) :
    ¬ marker <:+: c :: t := by
  intro hi
  obtain hn | ht := infix_append_cons (a := []) hc marker_ne_nil hi
  · exact marker_ne_nil (List.infix_nil.1 hn)
  · exact h ht

theorem not_infix_body (ls : List Line) : ¬ marker <:+: body ls := by
  induction ls with
  | nil => decide
  | cons l ls ih =>
    have hbody : body (l :: ls) = l.text ++ (l.ending ++ '\n' :: body ls) := by
      simp [body]
    have hn : ¬ marker <:+: '\n' :: body ls := not_infix_cons (by decide) ih
    rw [hbody, Line.ending]
    intro h
    split at h
    · obtain h | h := infix_append_cons (by decide) marker_ne_nil h
      · exact l.noMarker h
      · exact hn h
    · obtain h | h := infix_append_cons (by decide) marker_ne_nil h
      · exact l.noMarker h
      · exact ih h

def pieces (i : Interpreter) (c : Char) : List (List Text) → List Text
  | [] => []
  | h :: hs => (c :: body (i h)) :: pieces i ' ' hs

theorem marked_pieces (i : Interpreter) (c : Char) {hs : List (List Text)} (hne : hs ≠ []) :
    c :: hs.flatMap (fun h ↦ body (i h) ++ prompt) = marked marker (pieces i c hs) ++ [' '] := by
  induction hs generalizing c with
  | nil => exact absurd rfl hne
  | cons h hs ih =>
    cases hs with
    | nil => simp [pieces, marked, prompt_eq]
    | cons h' hs =>
      have hrest := ih ' ' (by simp)
      have hout : body (i h) ++ prompt ++ (h' :: hs).flatMap (fun h ↦ body (i h) ++ prompt) =
          body (i h) ++ (marker ++ marked marker (pieces i ' ' (h' :: hs)) ++ [' ']) := by
        rw [List.append_assoc marker, ← hrest, prompt_eq]
        simp
      have hpieces :
          pieces i c (h :: h' :: hs) = (c :: body (i h)) :: pieces i ' ' (h' :: hs) := rfl
      rw [List.flatMap_cons, hout, hpieces, marked_cons]
      simp only [List.cons_append, List.append_assoc]

theorem pieces_concat (i : Interpreter) (c : Char) {hs : List (List Text)} (hne : hs ≠ [])
    (h : List Text) : pieces i c (hs ++ [h]) = pieces i c hs ++ [' ' :: body (i h)] := by
  induction hs generalizing c with
  | nil => exact absurd rfl hne
  | cons h' hs ih =>
    cases hs with
    | nil => rfl
    | cons h'' hs => exact congrArg _ (ih ' ' (by simp))

theorem length_pieces (i : Interpreter) (c : Char) (hs : List (List Text)) :
    (pieces i c hs).length = hs.length := by
  induction hs generalizing c with
  | nil => rfl
  | cons h hs ih => simp [pieces, ih]

theorem not_infix_pieces (i : Interpreter) {c : Char} (hc : c ∉ marker) (hs : List (List Text)) :
    ∀ p ∈ pieces i c hs, ¬ marker <:+: p := by
  induction hs generalizing c with
  | nil => simp [pieces]
  | cons h hs ih =>
    exact List.forall_mem_cons.2 ⟨not_infix_cons hc (not_infix_body _), ih (by decide)⟩

/-- What stands before the markers in the output, with a line feed in front of it all. -/
def turns (i : Interpreter) (lines : List Text) : List Text := pieces i '\n' lines.inits

theorem inits_ne_nil (lines : List Text) : lines.inits ≠ [] := by cases lines <;> simp

theorem marked_turns (i : Interpreter) (lines : List Text) :
    '\n' :: i.output lines = marked marker (i.turns lines) ++ [' '] :=
  i.marked_pieces '\n' (inits_ne_nil lines)

theorem turns_concat (i : Interpreter) (lines : List Text) (line : Text) :
    i.turns (lines ++ [line]) = i.turns lines ++ [' ' :: body (i (lines ++ [line]))] := by
  rw [turns, List.inits_append]
  exact i.pieces_concat '\n' (inits_ne_nil lines) _

theorem length_turns (i : Interpreter) (lines : List Text) :
    (i.turns lines).length = lines.length + 1 := by
  rw [turns, length_pieces, List.length_inits]

theorem not_infix_turns (i : Interpreter) (lines : List Text) :
    ∀ p ∈ i.turns lines, ¬ marker <:+: p :=
  i.not_infix_pieces (by decide) _

theorem body_concat {ls : List Line} (h : ls ≠ []) : ∃ t, body ls = t ++ ['\n'] := by
  obtain rfl | ⟨ls, l, rfl⟩ := List.eq_nil_or_concat ls
  · exact absurd rfl h
  · exact ⟨body ls ++ (l.text ++ l.ending), by simp [body]⟩

theorem mem_pieces {i : Interpreter} {hs : List (List Text)} {t : Text}
    (h : t ∈ pieces i ' ' hs) : ∃ history ∈ hs, t = ' ' :: body (i history) := by
  induction hs with
  | nil => cases h
  | cons history hs ih =>
    rcases List.mem_cons.1 h with rfl | h
    · exact ⟨history, List.mem_cons_self, rfl⟩
    · obtain ⟨history', hm, ht⟩ := ih h
      exact ⟨history', List.mem_cons_of_mem _ hm, ht⟩

theorem exists_turns (i : Interpreter) (lines : List Text) :
    ∃ hs, (∀ history ∈ hs, history ≠ []) ∧
      i.turns lines = ('\n' :: body (i [])) :: pieces i ' ' hs := by
  cases lines with
  | nil => exact ⟨[], by simp, rfl⟩
  | cons l ls => exact ⟨ls.inits.map (l :: ·), by simp, by simp [turns, pieces]⟩

/-- If no reply is empty, every prompt begins a line. -/
theorem around_marker (i : Interpreter) {lines : List Text} {x y : Text}
    (hi : ∀ history, history ≠ [] → i history ≠ [])
    (h : '\n' :: i.output lines = x ++ (marker ++ y)) :
    (∃ t, x = t ++ ['\n']) ∧ ∃ u, y = ' ' :: u := by
  rw [marked_turns] at h
  obtain ⟨qs, t, rs, hsplit, rfl, rfl⟩ :=
    exists_of_occurrence unbordered_marker (i.not_infix_turns lines) (by decide) h.symm
  obtain ⟨hs, hne, hturns⟩ := i.exists_turns lines
  rw [hturns] at hsplit
  constructor
  · have ht : ∃ t', t = t' ++ ['\n'] := by
      have hmem : t ∈ ('\n' :: body (i [])) :: pieces i ' ' hs := by simp [hsplit]
      rcases List.mem_cons.1 hmem with rfl | hmem
      · by_cases hnil : i [] = []
        · exact ⟨[], by simp [hnil, body]⟩
        · obtain ⟨t', ht'⟩ := body_concat hnil
          exact ⟨'\n' :: t', by rw [ht', List.cons_append]⟩
      · obtain ⟨history, hm, rfl⟩ := mem_pieces hmem
        obtain ⟨t', ht'⟩ := body_concat (hi history (hne history hm))
        exact ⟨' ' :: t', by rw [ht', List.cons_append]⟩
    obtain ⟨t', rfl⟩ := ht
    exact ⟨marked marker qs ++ t', by simp⟩
  · cases rs with
    | nil => exact ⟨[], rfl⟩
    | cons r rs =>
      have hmem : r ∈ pieces i ' ' hs := by
        cases qs with
        | nil =>
          rw [List.nil_append, List.cons.injEq] at hsplit
          exact hsplit.2 ▸ List.mem_cons_self
        | cons q qs =>
          rw [List.cons_append, List.cons.injEq] at hsplit
          simp [hsplit.2]
      obtain ⟨history, -, rfl⟩ := mem_pieces hmem
      exact ⟨_, rfl⟩

theorem filter_cut_body {t : Text} (ht : Blank t) (ls : List Line) :
    (Sign.cut t ((body ls).map some)).1.filter (!·.isEmpty) =
      (ls.map fun l ↦ l.text.trim).filter (!·.isEmpty) := by
  have hending (l : Line) : Blank l.ending ∧ '\n' ∉ l.ending := by
    unfold Line.ending
    split
    · exact ⟨by simp [Blank, isBlank, blanks], by decide⟩
    · exact ⟨by simp [Blank], by simp⟩
  exact (Sign.cut_flatMap (fun l : Line ↦ l.noBreak) hending ht ls).1

end Interpreter

end Prompter
