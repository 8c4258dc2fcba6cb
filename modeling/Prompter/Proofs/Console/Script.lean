import Prompter.Console.Loop
import Prompter.Proofs.Console.Command
import Prompter.Proofs.Text.Lines
import Prompter.Proofs.Text.Utf8.Ascii

namespace Prompter.Console

open Text (Blank splitLines trim)
open Utf8 (Bytes encode)

variable {l : Text} {ls : List Text} (echo : Echo) (format : Format)

def withoutReturn (l : Text) : Text := if l.getLast? = some '\r' then l.dropLast else l

theorem trim_withoutReturn (l : Text) : trim (withoutReturn l) = trim l := by
  unfold withoutReturn
  split
  next h =>
    obtain ⟨t, rfl⟩ := List.getLast?_eq_some_iff.1 h
    rw [List.dropLast_concat, Text.trim_append_blank (by decide)]
  next => rfl

theorem byteLines_withoutReturn (l : Text) :
    (byteLines.withoutReturn (encode l).reverse).reverse = encode (withoutReturn l) := by
  have hlast := Utf8.getLast?_encode_iff (c := '\r') (t := l) (by decide)
  rw [byteLines.withoutReturn, List.head?_reverse, withoutReturn]
  by_cases h : l.getLast? = some '\r'
  · have hbyte : (encode l).getLast? = some 0x0d := hlast.2 h
    rw [if_pos hbyte, if_pos h]
    obtain ⟨t, rfl⟩ := List.getLast?_eq_some_iff.1 h
    have hencode : encode (t ++ ['\r']) = encode t ++ [0x0d] := Utf8.encode_append t ['\r']
    rw [hencode, List.reverse_concat, List.tail_cons, List.reverse_reverse, List.dropLast_concat]
  · have hbyte : ¬(encode l).getLast? = some 0x0d := fun hbyte ↦ h (hlast.1 hbyte)
    rw [if_neg hbyte, if_neg h, List.reverse_reverse]

theorem byteLines_go_append {bytes : Bytes} (h : 0x0a ∉ bytes) (done : List Bytes)
    (current rest : Bytes) : byteLines.go done current (bytes ++ rest) =
      byteLines.go done (bytes.reverse ++ current) rest := by
  induction bytes generalizing current with
  | nil => rfl
  | cons b bytes ih =>
    rw [List.mem_cons, not_or] at h
    rw [List.cons_append, byteLines.go, if_neg (Ne.symm h.1), ih h.2]
    simp

theorem byteLines_go_done (done : List Bytes) (current bytes : Bytes) :
    byteLines.go done current bytes = done.reverse ++ byteLines.go [] current bytes := by
  induction bytes generalizing done current with
  | nil =>
    unfold byteLines.go
    split <;> simp
  | cons b bytes ih =>
    rw [byteLines.go, byteLines.go]
    split
    · rw [ih, ih [_]]
      simp
    · exact ih done (b :: current)

theorem lineFeed_not_mem (h : '\n' ∉ l) : 0x0a ∉ encode l :=
  fun hmem ↦ h ((Utf8.mem_encode_iff (c := '\n') (by decide)).1 hmem)

theorem input_encode (l : Text) : input (encode l) = .ok l := by
  rw [input, Utf8.strict_encode]

theorem inputs_line (h : '\n' ∉ l) (bytes : Bytes) :
    inputs (encode (l ++ ['\n']) ++ bytes) = .ok (withoutReturn l) :: inputs bytes := by
  have hencode : encode (l ++ ['\n']) ++ bytes = encode l ++ 0x0a :: bytes := by
    rw [Utf8.encode_append, List.append_assoc]
    rfl
  rw [inputs, byteLines, hencode, byteLines_go_append (lineFeed_not_mem h), byteLines.go,
    if_pos rfl, byteLines_go_done, List.append_nil, byteLines_withoutReturn]
  simp only [List.reverse_singleton, List.singleton_append, List.map_cons, input_encode]
  rfl

theorem inputs_last (h : '\n' ∉ l) : inputs (encode l) = if l = [] then [] else [.ok l] := by
  have hgo := byteLines_go_append (lineFeed_not_mem h) [] [] []
  rw [List.append_nil, List.append_nil] at hgo
  rw [inputs, byteLines, hgo, byteLines.go]
  by_cases hl : l = []
  · rw [if_pos hl, hl]
    rfl
  · have hne : (encode l).reverse.isEmpty = false := by
      obtain ⟨c, r, rfl⟩ := List.exists_cons_of_ne_nil hl
      simp [encode, String.utf8EncodeChar_ne_nil]
    rw [if_neg hl, hne]
    simp [input_encode]

theorem inputs_lines (h : ∀ l ∈ ls, '\n' ∉ l) (bytes : Bytes) :
    inputs (encode (ls.flatMap (· ++ ['\n'])) ++ bytes) =
      (ls.map withoutReturn).map .ok ++ inputs bytes := by
  induction ls with
  | nil => rfl
  | cons l ls ih =>
    rw [List.forall_mem_cons] at h
    rw [List.flatMap_cons, Utf8.encode_append, List.append_assoc, inputs_line h.1, ih h.2]
    rfl

/-- The commands that are read from the lines, up to the first that quits. -/
def commands (lines : List Text) : List Command :=
  (((lines.map trim).filter (!·.isEmpty)).map Command.parse).takeWhile (· ≠ .quit)

/-- One dialogue after the other. What they write is joined. -/
def followed (d e : Dialogue Transcript) : Dialogue Transcript :=
  d.bind fun t ↦ e.bind fun u ↦ .done (t ++ u)

def performAll (cs : List Command) : Dialogue Transcript :=
  cs.foldr (fun c d ↦ followed (perform echo format c) d) (.done {})

theorem done_followed (d : Dialogue Transcript) : followed (.done {}) d = d := by
  have hd := d.bind_done
  simpa only [followed, Dialogue.bind, Transcript.empty_append] using hd

theorem followed_assoc (c d e : Dialogue Transcript) :
    followed (followed c d) e = followed c (followed d e) := by
  simp only [followed, Dialogue.bind_assoc, Dialogue.bind, Transcript.append_assoc]

theorem performAll_append (cs ds : List Command) : performAll echo format (cs ++ ds) =
    followed (performAll echo format cs) (performAll echo format ds) := by
  induction cs with
  | nil => exact (done_followed _).symm
  | cons c cs ih =>
    have hcons (es : List Command) : performAll echo format (c :: es) =
        followed (perform echo format c) (performAll echo format es) := rfl
    rw [List.cons_append, hcons, ih, hcons, followed_assoc]

theorem read?_ne_quit (h : Command.Head) (a : Text) : h.read? a ≠ some .quit := by
  intro hq
  cases h with
  | load =>
    obtain ⟨p, -, hp⟩ := Option.map_eq_some_iff.1 hq
    cases hp
  | addBreakpoint =>
    obtain ⟨p, -, hp⟩ := Option.map_eq_some_iff.1 hq
    cases hp
  | deleteBreakpoint =>
    obtain ⟨p, -, hp⟩ := Option.map_eq_some_iff.1 hq
    cases hp
  | changeDirectory =>
    rw [Command.Head.read?] at hq
    split at hq <;> cases hq

theorem parse_eq_quit_iff : Command.parse l = .quit ↔ trim l = ":quit" ∨ trim l = ":q" := by
  constructor
  · intro h
    obtain hbare | ⟨head, a, -, hparse⟩ | hraw := Command.parse_cases l
    · rw [h] at hbare
      simpa [Command.bareLines] using hbare
    · rw [h] at hparse
      cases hr : head.read? a with
      | some c =>
        rw [hr] at hparse
        exact absurd (hparse ▸ hr) (read?_ne_quit head a)
      | none =>
        rw [hr] at hparse
        cases hparse
    · rw [h] at hraw
      cases hraw
  · intro h
    rw [← Command.parse_trim]
    obtain h | h := h <;> rw [h] <;> rfl

theorem run_blank (h : (trim l).isEmpty = true) (rest : List Input) :
    run echo format (.ok l :: rest) = run echo format rest := by
  rw [run, runFrom, if_pos h]
  rfl

theorem isEmpty_trim_of_quit (h : Command.parse l = .quit) : (trim l).isEmpty = false := by
  obtain h | h := parse_eq_quit_iff.1 h <;> rw [h] <;> rfl

theorem run_quit (h : Command.parse l = .quit) (rest : List Input) :
    run echo format (.ok l :: rest) = .done {} := by
  rw [run, runFrom, isEmpty_trim_of_quit h]
  simp only [h]
  rfl

theorem run_command (hb : (trim l).isEmpty = false) (hq : Command.parse l ≠ .quit)
    (rest : List Input) : run echo format (.ok l :: rest) =
      followed (perform echo format (Command.parse l)) (run echo format rest) := by
  rw [run, runFrom, hb]
  simp only [Bool.false_eq_true, if_false]
  refine congrArg (Dialogue.bind _) (funext fun t ↦ ?_)
  rw [runFrom_eq]
  rfl

def Stops : Input → Prop
  | .ok l => Command.parse l = .quit
  | .error _ => True

theorem run_append_of_stops {xs : List Input} (h : ∃ x ∈ xs, Stops x) (ys : List Input) :
    run echo format (xs ++ ys) = run echo format xs := by
  induction xs with
  | nil =>
    obtain ⟨x, hx, -⟩ := h
    cases hx
  | cons x xs ih =>
    cases x with
    | error fault => rfl
    | ok l =>
      rw [List.cons_append]
      by_cases hq : Command.parse l = .quit
      · rw [run_quit echo format hq, run_quit echo format hq]
      obtain ⟨x, hx, hstops⟩ := h
      have hmem : x ∈ xs := (List.mem_cons.1 hx).resolve_left fun he ↦ hq (he ▸ hstops :)
      have hrest := ih ⟨x, hmem, hstops⟩
      cases hb : (trim l).isEmpty with
      | true => rw [run_blank echo format hb, run_blank echo format hb, hrest]
      | false => rw [run_command echo format hb hq, run_command echo format hb hq, hrest]

theorem run_append {xs : List Input} (h : ∀ x ∈ xs, ¬Stops x) (ys : List Input) :
    run echo format (xs ++ ys) = followed (run echo format xs) (run echo format ys) := by
  induction xs with
  | nil => exact (done_followed _).symm
  | cons x xs ih =>
    rw [List.forall_mem_cons] at h
    cases x with
    | error fault => exact absurd trivial h.1
    | ok l =>
      rw [List.cons_append]
      cases hb : (trim l).isEmpty with
      | true => rw [run_blank echo format hb, run_blank echo format hb, ih h.2]
      | false =>
        rw [run_command echo format hb h.1, run_command echo format hb h.1, ih h.2, followed_assoc]

theorem commands_blank (h : (trim l).isEmpty = true) (ls : List Text) :
    commands (l :: ls) = commands ls := by
  rw [commands, List.map_cons, List.filter_cons_of_neg (by simp [h]), commands]

theorem commands_quit (h : Command.parse l = .quit) (ls : List Text) : commands (l :: ls) = [] := by
  rw [commands, List.map_cons, List.filter_cons_of_pos (by simp [isEmpty_trim_of_quit h]),
    List.map_cons, Command.parse_trim, List.takeWhile_cons_of_neg (by simp [h])]

theorem commands_command (hb : (trim l).isEmpty = false) (hq : Command.parse l ≠ .quit)
    (ls : List Text) : commands (l :: ls) = Command.parse l :: commands ls := by
  rw [commands, List.map_cons, List.filter_cons_of_pos (by simp [hb]), List.map_cons,
    Command.parse_trim, List.takeWhile_cons_of_pos (by simp [hq]), commands]

theorem run_ok (ls : List Text) :
    run echo format (ls.map .ok) = performAll echo format (commands ls) := by
  induction ls with
  | nil => rfl
  | cons l ls ih =>
    rw [List.map_cons]
    by_cases hq : Command.parse l = .quit
    · rw [run_quit echo format hq, commands_quit hq]
      rfl
    cases hb : (trim l).isEmpty with
    | true => rw [run_blank echo format hb, commands_blank hb, ih]
    | false =>
      rw [run_command echo format hb hq, commands_command hb hq, ih]
      rfl

/-- Returns at the ends of lines make no difference, nor does an empty line at the end. -/
theorem exists_inputs (script : Text) : ∃ ls : List Text,
    inputs (encode script) = ls.map .ok ∧ commands ls = commands (splitLines script) := by
  obtain ⟨lines, last, hlines, hlast, rfl⟩ := Text.exists_lines script
  have htrim : (lines.map withoutReturn).map trim = lines.map trim := by
    rw [List.map_map]
    exact List.map_congr_left fun l _ ↦ trim_withoutReturn l
  rw [Utf8.encode_append, inputs_lines hlines, inputs_last hlast,
    Text.splitLines_lines hlines hlast]
  by_cases hl : last = []
  · refine ⟨lines.map withoutReturn, by rw [if_pos hl, List.append_nil], ?_⟩
    rw [commands, htrim, commands, List.map_append, List.filter_append, hl]
    simp [trim, Text.trimStart, Text.trimEnd]
  · refine ⟨lines.map withoutReturn ++ [last], by rw [if_neg hl, List.map_append]; rfl, ?_⟩
    rw [commands, List.map_append, htrim, commands, List.map_append]

theorem run_script (script : Text) :
    run echo format (inputs (encode script)) =
      performAll echo format (commands (splitLines script)) := by
  obtain ⟨ls, hinputs, hcommands⟩ := exists_inputs script
  rw [hinputs, run_ok, hcommands]

end Prompter.Console
