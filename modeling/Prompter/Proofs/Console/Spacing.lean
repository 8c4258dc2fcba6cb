import Prompter.Proofs.Console.Command

namespace Prompter.Console.Command

open Reply (isWord isWord_iff)
open Text (Blank isBlank trim trimEnd words)

structure Gap (t : Text) : Prop where
  ne_nil : t ≠ []
  blank : Blank t

def Begins (t : Text) : Prop := ∃ c ∈ t.head?, isBlank c = false

/-- Two lines of the same words, with the same first word and at least one argument. They differ in
the blanks between the first word and the first argument, and between the first argument and the
second one, unless the argument is a directory, which goes on to the end of the line. -/
inductive Respaced : Text → Text → Prop where
  | first (h : Head) {lead gap gap' rest : Text} (hlead : Blank lead) (hgap : Gap gap)
    (hgap' : Gap gap') (hrest : Begins rest) :
    Respaced (lead ++ (h.text ++ (gap ++ rest))) (lead ++ (h.text ++ (gap' ++ rest)))
  | both (h : Head) (hh : h ≠ .changeDirectory)
    {lead gap gap' argument between between' rest : Text}
    (hlead : Blank lead) (hgap : Gap gap) (hgap' : Gap gap') (hargument : isWord argument)
    (hbetween : Gap between) (hbetween' : Gap between') (hrest : Begins rest) :
    Respaced (lead ++ (h.text ++ (gap ++ (argument ++ (between ++ rest)))))
      (lead ++ (h.text ++ (gap' ++ (argument ++ (between' ++ rest)))))

/-- A plain space stands directly behind the first word. -/
def Spaced (line : Text) : Prop := (Reply.splitFirstWord (trim line)).2.head? = some ' '

instance (line : Text) : Decidable (Spaced line) := inferInstanceAs (Decidable (_ = _))

variable {a g line line' rest w : Text}

theorem Begins.trimEnd_ne_nil (h : Begins rest) : trimEnd rest ≠ [] := by
  obtain ⟨c, hc, hblank⟩ := h
  obtain ⟨t, rfl⟩ := List.head?_eq_some_iff.1 hc
  intro he
  obtain ⟨b, hb, ht⟩ := Text.exists_trimEnd (c :: t)
  rw [he, List.nil_append] at ht
  rw [hb c (ht ▸ List.mem_cons_self)] at hblank
  cases hblank

theorem Begins.trim_ne_nil (h : Begins rest) : trim rest ≠ [] := by
  obtain ⟨c, hc, hblank⟩ := id h
  obtain ⟨t, rfl⟩ := List.head?_eq_some_iff.1 hc
  rw [trim, Text.trimStart_cons hblank]
  exact h.trimEnd_ne_nil

theorem begins_word (hw : isWord w) (t : Text) : Begins (w ++ t) := by
  obtain ⟨hne, hblank⟩ := isWord_iff.1 hw
  obtain ⟨c, w, rfl⟩ := List.exists_cons_of_ne_nil hne
  exact ⟨c, rfl, hblank c List.mem_cons_self⟩

theorem Head.isWord_text (h : Head) : isWord h.text := by
  cases h <;> decide

theorem arguments_of_spaced (h : Head) {lead gap : Text} (hlead : Blank lead) (hgap : Gap gap)
    (hrest : Begins rest) (hs : Spaced (lead ++ (h.text ++ (gap ++ rest)))) :
    ∃ g, Blank g ∧
      trim (lead ++ (h.text ++ (gap ++ rest))) = h.text ++ ' ' :: (g ++ trimEnd rest) := by
  obtain ⟨c, g, rfl⟩ := List.exists_cons_of_ne_nil hgap.ne_nil
  obtain ⟨hc, hg⟩ := List.forall_mem_cons.1 hgap.blank
  have hend : trimEnd (c :: g ++ rest) = c :: (g ++ trimEnd rest) :=
    Text.trimEnd_append_right hrest.trimEnd_ne_nil (c :: g)
  have htrim :
      trim (lead ++ (h.text ++ (c :: g ++ rest))) = h.text ++ c :: (g ++ trimEnd rest) := by
    rw [Text.trim_blank_append hlead,
      Text.trim_word_append h.isWord_text (hend ▸ List.cons_ne_nil _ _), hend]
  have hsplit := Reply.splitFirstWord_append (g ++ trimEnd rest) hc (isWord_iff.1 h.isWord_text).2
  rw [Spaced, htrim, hsplit] at hs
  obtain rfl : c = ' ' := Option.some.inj hs
  exact ⟨g, hg, htrim⟩

theorem Head.read?_blank_append (h : Head) (hg : Blank g) (a : Text) :
    h.read? (g ++ a) = h.read? a := by
  cases h with
  | load => rw [read?, programAndInput?, Text.trim_blank_append hg]; rfl
  | addBreakpoint => rw [read?, lineAndProgram?, Text.words_blank_append hg]; rfl
  | deleteBreakpoint => rw [read?, lineAndProgram?, Text.words_blank_append hg]; rfl
  | changeDirectory => rw [read?, Text.trim_blank_append hg]; rfl

theorem words_gap {between : Text} (hw : isWord w) (hb : Gap between) (rest : Text) :
    words (w ++ (between ++ rest)) = w :: words rest := by
  obtain ⟨c, g, rfl⟩ := List.exists_cons_of_ne_nil hb.ne_nil
  obtain ⟨hc, hg⟩ := List.forall_mem_cons.1 hb.blank
  rw [List.cons_append, Text.words_append hw hc, Text.words_blank_append hg]

theorem programAndInput?_gap {between : Text} (hw : isWord w) (hb : Gap between)
    (hrest : trim rest ≠ []) :
    programAndInput? (w ++ (between ++ rest)) = some (w, trim rest) := by
  obtain ⟨c, g, rfl⟩ := List.exists_cons_of_ne_nil hb.ne_nil
  obtain ⟨hc, hg⟩ := List.forall_mem_cons.1 hb.blank
  rw [← Text.trim_blank_append hg] at hrest ⊢
  exact programAndInput?_append hw hc hrest

theorem Head.read?_gap {h : Head} (hh : h ≠ .changeDirectory) {between between' : Text}
    (hw : isWord w) (hb : Gap between) (hb' : Gap between') (hrest : trim rest ≠ []) :
    h.read? (w ++ (between ++ rest)) = h.read? (w ++ (between' ++ rest)) := by
  cases h with
  | load =>
    rw [read?, read?, programAndInput?_gap hw hb hrest, programAndInput?_gap hw hb' hrest]
  | addBreakpoint =>
    rw [read?, read?, lineAndProgram?, lineAndProgram?, words_gap hw hb, words_gap hw hb']
  | deleteBreakpoint =>
    rw [read?, read?, lineAndProgram?, lineAndProgram?, words_gap hw hb, words_gap hw hb']
  | changeDirectory => exact absurd rfl hh

theorem Respaced.arguments (h : Respaced line line') (hs : Spaced line) (hs' : Spaced line') :
    ∃ (head : Head) (a a' : Text), trim line = head.text ++ ' ' :: a ∧
      trim line' = head.text ++ ' ' :: a' ∧ head.read? a = head.read? a' := by
  cases h with
  | first head hlead hgap hgap' hrest =>
    obtain ⟨g, hg, hline⟩ := arguments_of_spaced head hlead hgap hrest hs
    obtain ⟨g', hg', hline'⟩ := arguments_of_spaced head hlead hgap' hrest hs'
    refine ⟨head, _, _, hline, hline', ?_⟩
    rw [head.read?_blank_append hg, head.read?_blank_append hg']
  | both head hh hlead hgap hgap' hargument hbetween hbetween' hrest =>
    obtain ⟨g, hg, hline⟩ :=
      arguments_of_spaced head hlead hgap (begins_word hargument _) hs
    obtain ⟨g', hg', hline'⟩ :=
      arguments_of_spaced head hlead hgap' (begins_word hargument _) hs'
    refine ⟨head, _, _, hline, hline', ?_⟩
    have hend (s : Text) : trimEnd (s ++ _) = s ++ trimEnd _ :=
      Text.trimEnd_append_right hrest.trimEnd_ne_nil s
    rw [head.read?_blank_append hg, head.read?_blank_append hg', ← List.append_assoc, hend,
      ← List.append_assoc, hend, List.append_assoc, List.append_assoc]
    apply Head.read?_gap hh hargument hbetween hbetween'
    rw [Text.trim_trimEnd]
    exact hrest.trim_ne_nil

theorem parse_ne_raw {h : Head} (hline : trim line = h.text ++ ' ' :: a) (text : Text) :
    parse line ≠ raw text := by
  rw [parse_head hline]
  intro he
  cases hr : h.read? a with
  | some c =>
    rw [hr, Option.getD_some] at he
    have hkept := (Head.read?_wellFormed hr).2
    rw [he] at hkept
    cases hkept
  | none =>
    rw [hr] at he
    cases he

theorem parse_respaced (h : Respaced line line') (hs : Spaced line) (hs' : Spaced line') :
    (parse line = parse line' ∨
      parse line = invalid (trim line) ∧ parse line' = invalid (trim line')) ∧
    ∀ text, parse line ≠ raw text ∧ parse line' ≠ raw text := by
  obtain ⟨head, a, a', hline, hline', hread⟩ := h.arguments hs hs'
  refine ⟨?_, fun text ↦ ⟨parse_ne_raw hline text, parse_ne_raw hline' text⟩⟩
  rw [parse_head hline, parse_head hline', ← hread]
  cases head.read? a with
  | some c => exact .inl rfl
  | none => exact .inr ⟨rfl, rfl⟩

theorem parse_respaced_load :
    Respaced ":load  p [1]" ":load \tp\t [1]" ∧ Spaced ":load  p [1]" ∧
      Spaced ":load \tp\t [1]" ∧ parse ":load  p [1]" = load "p" "[1]" ∧
      (parse ":load  p [1]" = parse ":load \tp\t [1]" ∨
        parse ":load  p [1]" = invalid (trim ":load  p [1]") ∧
          parse ":load \tp\t [1]" = invalid (trim ":load \tp\t [1]")) ∧
      ∀ text, parse ":load  p [1]" ≠ raw text ∧ parse ":load \tp\t [1]" ≠ raw text := by
  have h : Respaced ":load  p [1]" ":load \tp\t [1]" :=
    @Respaced.both .load (by decide) [] "  " " \t" "p" " " "\t " "[1]" (by decide)
      ⟨by decide, by decide⟩ ⟨by decide, by decide⟩ (by decide)
      ⟨by decide, by decide⟩ ⟨by decide, by decide⟩ ⟨'[', rfl, by decide⟩
  have hs : Spaced ":load  p [1]" := by decide
  have hs' : Spaced ":load \tp\t [1]" := by decide
  exact ⟨h, hs, hs', by decide, parse_respaced h hs hs'⟩

/-- An incomplete line is kept with its blanks, and a tab does not set off the first word. -/
theorem respaced_parse_ne :
    (Respaced ":load p" ":load  p" ∧ parse ":load p" ≠ parse ":load  p") ∧
      Respaced ":load p i" ":load\tp i" ∧ parse ":load p i" ≠ parse ":load\tp i" ∧
        parse ":load\tp i" = raw ":load\tp i" := by
  have hincomplete : Respaced ":load p" ":load  p" :=
    @Respaced.first .load [] " " "  " "p" (by decide)
      ⟨by decide, by decide⟩ ⟨by decide, by decide⟩ ⟨'p', rfl, by decide⟩
  have htab : Respaced ":load p i" ":load\tp i" :=
    @Respaced.first .load [] " " "\t" "p i" (by decide)
      ⟨by decide, by decide⟩ ⟨by decide, by decide⟩ ⟨'p', rfl, by decide⟩
  exact ⟨⟨hincomplete, by decide⟩, htab, by decide, by decide⟩

end Prompter.Console.Command
