import Prompter.Console.Command
import Prompter.Proofs.Text.Words

namespace Prompter.Console.Command

open Reply (isWord isWord_iff)
open Text (isBlank trim words)

variable {line a : Text}

theorem lineNumber?_lt {t : Text} {n : Nat} (h : Text.lineNumber? t = some n) : n < UInt32.size :=
  of_decide_eq_true (Option.filter_eq_some_iff.1 h).2

theorem lineAndProgram?_wellFormed {n : Nat} {program : Option Text}
    (h : lineAndProgram? a = some (n, program)) :
    n < UInt32.size ∧ ∀ p ∈ program, isWord p := by
  unfold lineAndProgram? at h
  split at h
  next l hw =>
    obtain ⟨m, hm, he⟩ := Option.map_eq_some_iff.1 h
    obtain ⟨rfl, rfl⟩ := Prod.mk.inj he
    exact ⟨lineNumber?_lt hm, fun p hp ↦ by cases hp⟩
  next l q hw =>
    obtain ⟨m, hm, he⟩ := Option.map_eq_some_iff.1 h
    obtain ⟨rfl, rfl⟩ := Prod.mk.inj he
    refine ⟨lineNumber?_lt hm, fun p hp ↦ ?_⟩
    obtain rfl := Option.some.inj hp
    exact Text.isWord_of_mem_words (hw ▸ List.mem_cons_of_mem l List.mem_cons_self)
  next => cases h

theorem isWord_decimal (n : Nat) : isWord (Text.decimal n) :=
  isWord_iff.2 ⟨by simp [Text.decimal], fun _ hc ↦ Reply.isBlank_of_mem_decimal hc⟩

theorem trimEnd_arguments (n : Nat) {program : Option Text} (hp : ∀ p ∈ program, isWord p) :
    Text.trimEnd (arguments n program) = arguments n program := by
  cases program with
  | none => exact Reply.trimEnd_append_word [] (isWord_decimal n)
  | some p => exact Reply.trimEnd_append_word _ (hp p rfl)

theorem arguments_ne_nil (n : Nat) (program : Option Text) : arguments n program ≠ [] := by
  cases program <;> simp [arguments, Text.decimal]

theorem lineAndProgram?_arguments {n : Nat} {program : Option Text} (hn : n < UInt32.size)
    (hp : ∀ p ∈ program, isWord p) :
    lineAndProgram? (arguments n program) = some (n, program) := by
  have hnumber : Text.lineNumber? (Text.decimal n) = some n := Text.number?_decimal hn
  cases program with
  | none =>
    rw [arguments, lineAndProgram?, Text.words_of_isWord (isWord_decimal n)]
    simp only [hnumber, Option.map_some]
  | some p =>
    have hwords : words (Text.decimal n ++ " " ++ p) = [Text.decimal n, p] := by
      rw [List.append_assoc, ← Text.words_of_isWord (hp p rfl)]
      exact Text.words_append (isWord_decimal n) (by decide) p
    rw [arguments, lineAndProgram?, hwords]
    simp only [hnumber, Option.map_some]

theorem programAndInput?_wellFormed {program input : Text}
    (h : programAndInput? a = some (program, input)) :
    isWord program ∧ input ≠ [] ∧ trim input = input := by
  obtain ⟨⟨p, rest⟩, hsplit, h⟩ := Option.bind_eq_some_iff.1 h
  obtain ⟨_, hguard, h⟩ := Option.bind_eq_some_iff.1 h
  obtain ⟨rfl, rfl⟩ := Prod.mk.inj (Option.some.inj h)
  obtain ⟨c, ha, hc, hp⟩ := Text.splitAtBlank_eq_some_iff.1 hsplit
  refine ⟨isWord_iff.2 ⟨?_, hp⟩, by simpa [Option.guard_eq_some'] using hguard, Text.trim_trim rest⟩
  -- a trimmed text does not begin with a blank
  rintro rfl
  have hstart := Text.trimStart_trim a
  rw [ha, List.nil_append] at hstart
  exact Bool.false_ne_true ((Text.isBlank_of_trimStart hstart).symm.trans hc)

theorem programAndInput?_append {program rest : Text} {c : Char} (hp : isWord program)
    (hc : isBlank c = true) (hr : trim rest ≠ []) :
    programAndInput? (program ++ c :: rest) = some (program, trim rest) := by
  have hend : Text.trimEnd rest ≠ [] := by
    intro he
    rw [← Text.trim_trimEnd, he] at hr
    exact hr rfl
  have hcons : Text.trimEnd (c :: rest) = c :: Text.trimEnd rest :=
    Text.trimEnd_append_right hend [c]
  have htrim : trim (program ++ c :: rest) = program ++ c :: Text.trimEnd rest := by
    rw [Text.trim_word_append hp (hcons ▸ List.cons_ne_nil _ _), hcons]
  have hsplit : Text.splitAtBlank (program ++ c :: Text.trimEnd rest) =
      some (program, Text.trimEnd rest) :=
    Text.splitAtBlank_eq_some_iff.2 ⟨c, rfl, hc, (isWord_iff.1 hp).2⟩
  unfold programAndInput?
  rw [htrim, hsplit]
  simp [Text.trim_trimEnd, hr]

inductive Head where
  | load
  | addBreakpoint
  | deleteBreakpoint
  | changeDirectory
  deriving DecidableEq

namespace Head

def text : Head → Text
  | load => ":load"
  | addBreakpoint => ":break"
  | deleteBreakpoint => ":delbreak"
  | changeDirectory => ":cd"

/-- The command with the arguments `a`, if they are such as belong to it. -/
def read? (a : Text) : Head → Option Command
  | load => (programAndInput? a).map fun (program, input) ↦ .load program input
  | addBreakpoint => (lineAndProgram? a).map fun (n, program) ↦ .addBreakpoint n program
  | deleteBreakpoint => (lineAndProgram? a).map fun (n, program) ↦ .deleteBreakpoint n program
  | changeDirectory =>
    if (trim a).isEmpty then none else some (.changeDirectory (trim a))

theorem solid (h : Head) : Text.Solid h.text := by
  cases h <;> decide

end Head

theorem after?_head (h h' : Head) (a : Text) :
    Text.after? (h.text ++ " ") (h'.text ++ ' ' :: a) = if h = h' then some a else none := by
  by_cases heq : h = h'
  · rw [if_pos heq, heq]
    exact Text.after?_eq_some_iff.2 (List.append_assoc h'.text [' '] a).symm
  · rw [if_neg heq]
    cases h <;> cases h' <;> first | rfl | exact absurd rfl heq

theorem withArguments?_head (h : Head) (a : Text) :
    withArguments? (h.text ++ ' ' :: a) =
      some ((h.read? a).getD (invalid (h.text ++ ' ' :: a))) := by
  have hload : Text.after? ":load " (h.text ++ ' ' :: a) = _ := after?_head .load h a
  have hbreak : Text.after? ":break " (h.text ++ ' ' :: a) = _ := after?_head .addBreakpoint h a
  have hdelbreak : Text.after? ":delbreak " (h.text ++ ' ' :: a) = _ :=
    after?_head .deleteBreakpoint h a
  have hcd : Text.after? ":cd " (h.text ++ ' ' :: a) = _ := after?_head .changeDirectory h a
  unfold withArguments?
  rw [hload, hbreak, hdelbreak, hcd]
  cases h with
  | load =>
    simp only [Head.read?, if_pos]
    cases programAndInput? a <;> rfl
  | addBreakpoint =>
    simp only [Head.read?, reduceCtorEq, if_neg, if_pos, not_false_eq_true]
    cases lineAndProgram? a <;> rfl
  | deleteBreakpoint =>
    simp only [Head.read?, reduceCtorEq, if_neg, if_pos, not_false_eq_true]
    cases lineAndProgram? a <;> rfl
  | changeDirectory =>
    simp only [Head.read?, reduceCtorEq, if_neg, if_pos, not_false_eq_true]
    cases (trim a).isEmpty <;> rfl

theorem exists_head {c : Command} (h : withArguments? line = some c) :
    ∃ (head : Head) (a : Text), line = head.text ++ ' ' :: a := by
  have hafter (head : Head) {a : Text} (ha : Text.after? (head.text ++ " ") line = some a) :
      ∃ (head : Head) (a : Text), line = head.text ++ ' ' :: a :=
    ⟨head, a, (Text.after?_eq_some_iff.1 ha).trans (List.append_assoc ..)⟩
  unfold withArguments? at h
  split at h
  next a ha => exact hafter .load ha
  next =>
  split at h
  next a ha => exact hafter .addBreakpoint ha
  next =>
  split at h
  next a ha => exact hafter .deleteBreakpoint ha
  next =>
  split at h
  next a ha => exact hafter .changeDirectory ha
  next => cases h

def bareLines : List (Text × Command) :=
  [(":help", help), (":h", help), (":quit", quit), (":q", quit), (":run", run), (":step", step),
    (":store", store), (":break", breakpoints), (":state", state), (":", invalid ":")]

theorem mem_bareLines {c : Command} (h : bare? line = some c) : (line, c) ∈ bareLines := by
  unfold bare? at h
  split_ifs at h <;> cases h <;> simp_all [bareLines]

theorem bare?_head (h : Head) (a : Text) : bare? (h.text ++ ' ' :: a) = none := by
  have hspace : ∀ p ∈ bareLines, ' ' ∉ p.1 := by decide
  apply Option.eq_none_iff_forall_ne_some.2
  intro c hc
  exact hspace _ (mem_bareLines hc) (List.mem_append_right _ List.mem_cons_self)

theorem parse_head {h : Head} (hline : trim line = h.text ++ ' ' :: a) :
    parse line = (h.read? a).getD (invalid (trim line)) := by
  unfold parse
  dsimp only
  rw [hline, bare?_head, withArguments?_head]
  rfl

theorem parse_cases (line : Text) :
    (trim line, parse line) ∈ bareLines ∨
      (∃ (h : Head) (a : Text), trim line = h.text ++ ' ' :: a ∧
        parse line = (h.read? a).getD (invalid (trim line))) ∨
      parse line = raw (trim line) := by
  cases hb : bare? (trim line) with
  | some c =>
    have hparse : parse line = c := by
      unfold parse
      dsimp only
      rw [hb]
    exact .inl (hparse ▸ mem_bareLines hb)
  | none =>
    refine .inr ?_
    cases hw : withArguments? (trim line) with
    | some c =>
      obtain ⟨h, a, hline⟩ := exists_head hw
      exact .inl ⟨h, a, hline, parse_head hline⟩
    | none =>
      refine .inr ?_
      unfold parse
      dsimp only
      rw [hb, hw]
      rfl

theorem parse_trim (line : Text) : parse (trim line) = parse line := by
  unfold parse
  dsimp only
  rw [Text.trim_trim]

/-- The text of a command that is a whole line. -/
def kept? : Command → Option Text
  | raw text => some text
  | invalid text => some text
  | _ => none

/-- What is read from lines: words and trimmed texts as arguments, and texts that are not read as
anything else. -/
def WellFormed : Command → Prop
  | load program input => isWord program ∧ input ≠ [] ∧ trim input = input
  | addBreakpoint n program => n < UInt32.size ∧ ∀ p ∈ program, isWord p
  | deleteBreakpoint n program => n < UInt32.size ∧ ∀ p ∈ program, isWord p
  | changeDirectory directory => directory ≠ [] ∧ trim directory = directory
  | raw text => parse text = raw text
  | invalid text => parse text = invalid text
  | _ => True

theorem Head.read?_wellFormed {h : Head} {c : Command} (hc : h.read? a = some c) :
    c.WellFormed ∧ c.kept? = none := by
  cases h with
  | load =>
    obtain ⟨p, hp, rfl⟩ := Option.map_eq_some_iff.1 hc
    exact ⟨programAndInput?_wellFormed hp, rfl⟩
  | addBreakpoint =>
    obtain ⟨p, hp, rfl⟩ := Option.map_eq_some_iff.1 hc
    exact ⟨lineAndProgram?_wellFormed hp, rfl⟩
  | deleteBreakpoint =>
    obtain ⟨p, hp, rfl⟩ := Option.map_eq_some_iff.1 hc
    exact ⟨lineAndProgram?_wellFormed hp, rfl⟩
  | changeDirectory =>
    cases he : (trim a).isEmpty with
    | true => simp [Head.read?, he] at hc
    | false =>
      obtain rfl : Command.changeDirectory (trim a) = c := by simpa [Head.read?, he] using hc
      exact ⟨⟨by simpa using he, Text.trim_trim a⟩, rfl⟩

theorem wellFormed_of_mem_bareLines {c : Command} (h : (line, c) ∈ bareLines) :
    c.WellFormed := by
  simp only [bareLines, List.mem_cons, Prod.mk.injEq, List.not_mem_nil, or_false] at h
  rcases h with ⟨-, rfl⟩ | ⟨-, rfl⟩ | ⟨-, rfl⟩ | ⟨-, rfl⟩ | ⟨-, rfl⟩ | ⟨-, rfl⟩ | ⟨-, rfl⟩ |
    ⟨-, rfl⟩ | ⟨-, rfl⟩ | ⟨-, rfl⟩
  all_goals trivial

theorem wellFormed_parse (line : Text) : (parse line).WellFormed := by
  obtain hbare | ⟨h, a, hline, hparse⟩ | hraw := parse_cases line
  · exact wellFormed_of_mem_bareLines hbare
  · cases hr : h.read? a with
    | some c =>
      rw [hparse, hr]
      exact (Head.read?_wellFormed hr).1
    | none =>
      rw [hr, Option.getD_none] at hparse
      rw [hparse]
      exact (parse_trim line).trans hparse
  · rw [hraw]
    exact (parse_trim line).trans hraw

theorem eq_trim_of_kept {t : Text} (h : (parse line).kept? = some t) : t = trim line := by
  obtain hbare | ⟨head, a, -, hparse⟩ | hraw := parse_cases line
  · have hall : ∀ p ∈ bareLines, p.2.kept?.all (· = p.1) := by decide
    simpa [h] using hall _ hbare
  · rw [hparse] at h
    cases hr : head.read? a with
    | some c =>
      rw [hr, Option.getD_some, (Head.read?_wellFormed hr).2] at h
      cases h
    | none =>
      rw [hr] at h
      exact (Option.some.inj h).symm
  · rw [hraw] at h
    exact (Option.some.inj h).symm

/-- The text of `c` consists of `h` and `a`, from which `c` is read. -/
structure Head.Spells (h : Head) (a : Text) (c : Command) : Prop where
  text : c.text = h.text ++ ' ' :: a
  ne_nil : a ≠ []
  trimEnd : Text.trimEnd a = a
  read : h.read? a = some c

namespace Head.Spells

variable {h : Head} {c : Command}

theorem trim_text (hs : h.Spells a c) : trim c.text = c.text := by
  have hcons : Text.trimEnd (' ' :: a) = ' ' :: a :=
    (Text.trimEnd_append_right (hs.trimEnd.symm ▸ hs.ne_nil) [' ']).trans
      (congrArg (' ' :: ·) hs.trimEnd)
  have htrim := h.solid.trim_append (a := []) (by simp [Text.Blank]) (' ' :: a)
  rw [List.nil_append, hcons] at htrim
  rw [hs.text, htrim]

theorem parse_text (hs : h.Spells a c) : parse c.text = c := by
  rw [parse_head (hs.trim_text.trans hs.text), hs.read, Option.getD_some]

end Head.Spells

theorem spells_load {program input : Text} (hc : (load program input).WellFormed) :
    Head.load.Spells (program ++ ' ' :: input) (load program input) := by
  obtain ⟨hp, hne, ht⟩ := hc
  have hend : Text.trimEnd input = input := ht ▸ Text.trimEnd_trim input
  constructor
  case text => exact List.append_assoc ..
  case ne_nil => simp
  case trimEnd =>
    rw [← List.singleton_append, ← List.append_assoc,
      Text.trimEnd_append_right (hend.symm ▸ hne), hend]
  case read =>
    have h := programAndInput?_append hp (show isBlank ' ' = true by decide) (ht.symm ▸ hne)
    rw [Head.read?, h, ht]
    rfl

theorem spells_addBreakpoint {n : Nat} {program : Option Text}
    (hc : (addBreakpoint n program).WellFormed) :
    Head.addBreakpoint.Spells (arguments n program) (addBreakpoint n program) := by
  obtain ⟨hn, hp⟩ := hc
  refine ⟨rfl, arguments_ne_nil n program, trimEnd_arguments n hp, ?_⟩
  rw [Head.read?, lineAndProgram?_arguments hn hp]
  rfl

theorem spells_deleteBreakpoint {n : Nat} {program : Option Text}
    (hc : (deleteBreakpoint n program).WellFormed) :
    Head.deleteBreakpoint.Spells (arguments n program) (deleteBreakpoint n program) := by
  obtain ⟨hn, hp⟩ := hc
  refine ⟨rfl, arguments_ne_nil n program, trimEnd_arguments n hp, ?_⟩
  rw [Head.read?, lineAndProgram?_arguments hn hp]
  rfl

theorem spells_changeDirectory {directory : Text} (hc : (changeDirectory directory).WellFormed) :
    Head.changeDirectory.Spells directory (changeDirectory directory) := by
  obtain ⟨hne, ht⟩ := hc
  refine ⟨rfl, hne, ht ▸ Text.trimEnd_trim directory, ?_⟩
  simp [Head.read?, ht, hne]

theorem parse_text {c : Command} (hc : c.WellFormed) : parse c.text = c := by
  cases c with
  | load program input => exact (spells_load hc).parse_text
  | addBreakpoint n program => exact (spells_addBreakpoint hc).parse_text
  | deleteBreakpoint n program => exact (spells_deleteBreakpoint hc).parse_text
  | changeDirectory directory => exact (spells_changeDirectory hc).parse_text
  | raw text => exact hc
  | invalid text => exact hc
  | _ => rfl

theorem trim_text {c : Command} (hc : c.WellFormed) : trim c.text = c.text := by
  cases c with
  | load program input => exact (spells_load hc).trim_text
  | addBreakpoint n program => exact (spells_addBreakpoint hc).trim_text
  | deleteBreakpoint n program => exact (spells_deleteBreakpoint hc).trim_text
  | changeDirectory directory => exact (spells_changeDirectory hc).trim_text
  | raw text => exact (eq_trim_of_kept (congrArg kept? hc)).symm
  | invalid text => exact (eq_trim_of_kept (congrArg kept? hc)).symm
  | _ => rfl

theorem wellFormed_iff {c : Command} : c.WellFormed ↔ ∃ line, parse line = c := by
  constructor
  · exact fun hc ↦ ⟨c.text, parse_text hc⟩
  · intro h
    obtain ⟨line, rfl⟩ := h
    exact wellFormed_parse line

end Prompter.Console.Command
