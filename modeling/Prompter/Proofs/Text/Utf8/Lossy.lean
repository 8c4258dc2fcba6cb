import Prompter.Proofs.Text.Utf8.Carry

namespace Prompter.Utf8

variable {bs s t p q part rest : Bytes} {b : UInt8} {u : Text}

theorem pieces_cons (b : UInt8) (rest : Bytes) :
    pieces (b :: rest) = (continueAfter b rest).1 :: pieces (continueAfter b rest).2 := by
  rw [pieces]

theorem lossy_nil : lossy [] = [] := by rw [lossy, pieces, List.map_nil]

theorem lossy_char (c : Char) (rest : Bytes) :
    lossy (String.utf8EncodeChar c ++ rest) = c :: lossy rest := by
  obtain ⟨b, tail, hc⟩ := exists_encode_cons c
  rw [hc, List.cons_append, lossy, pieces_cons, continueAfter_append hc]
  rfl

theorem lossy_encode (u : Text) (rest : Bytes) : lossy (encode u ++ rest) = u ++ lossy rest := by
  induction u with
  | nil => rfl
  | cons c u ih =>
    have hencode : encode (c :: u) = String.utf8EncodeChar c ++ encode u := rfl
    rw [hencode, List.append_assoc, lossy_char, ih, List.cons_append]

theorem lossy_invalid (h : InvalidPart part rest) :
    lossy (part ++ rest) = '\ufffd' :: lossy rest := by
  obtain ⟨b, tail, hb⟩ := h.exists_cons
  obtain ⟨c, r, hc, -⟩ | ⟨hpartial, hread⟩ | ⟨part', r, hpart', h', hread⟩ :=
    continueAfter_cases b tail
  · exact absurd ⟨r, (hb.trans hc).symm⟩ (h.no_char c)
  · have heq : part ++ rest = (part ++ rest) ++ [] := (List.append_nil _).symm
    have hwhole : InvalidPart (part ++ rest) [] := by
      rw [hb]
      exact hpartial.invalidPart (by simp)
    rw [hb, lossy, pieces_cons, hread, (h.eq hwhole heq).2]
    rfl
  · rw [hb, lossy, pieces_cons, hread, (h.eq h' (hb.trans hpart')).2]
    rfl

/-- The text of a sequence of bytes, with one replacement character for each invalid part. -/
inductive IsLossy : Bytes → Text → Prop
  | nil : IsLossy [] []
  | char {rest : Bytes} {u : Text} (c : Char) (h : IsLossy rest u) :
    IsLossy (String.utf8EncodeChar c ++ rest) (c :: u)
  | invalid {part rest : Bytes} {u : Text} (hpart : InvalidPart part rest) (h : IsLossy rest u) :
    IsLossy (part ++ rest) ('\ufffd' :: u)

theorem isLossy_iff : IsLossy bs u ↔ u = lossy bs := by
  constructor
  · intro h
    induction h with
    | nil => exact lossy_nil.symm
    | char c _ ih => rw [lossy_char, ih]
    | invalid hpart _ ih => rw [lossy_invalid hpart, ih]
  · rintro rfl
    induction bs using split_induction with
    | nil =>
      rw [lossy_nil]
      exact .nil
    | char c rest ih =>
      rw [lossy_char]
      exact .char c ih
    | invalid part rest hpart ih =>
      rw [lossy_invalid hpart]
      exact .invalid hpart ih

/-- The boundary between `s` and `t` lies within a character, or within what might be one. -/
def Severs (s t : Bytes) : Prop := ∃ p b, p <:+ s ∧ p ≠ [] ∧ b ∈ t.head? ∧ Begins (p ++ [b])

instance (s t : Bytes) : Decidable (Severs s t) :=
  decidable_of_iff (∃ p ∈ s.tails, p ≠ [] ∧ ∃ b ∈ t.head?, Begins (p ++ [b])) <| by
    simp only [List.mem_tails, Severs]
    constructor
    · rintro ⟨p, hp, hne, b, hb, h⟩
      exact ⟨p, b, hp, hne, hb, h⟩
    · rintro ⟨p, b, hp, hne, hb, h⟩
      exact ⟨p, hp, hne, b, hb, h⟩

theorem Severs.mono (h : Severs s t) (q : Bytes) : Severs (q ++ s) t := by
  obtain ⟨p, b, hp, h⟩ := h
  exact ⟨p, b, hp.trans (List.suffix_append q s), h⟩

theorem InvalidPart.of_not_severs (h : InvalidPart part rest) (hs : ¬Severs (part ++ rest) t) :
    InvalidPart part (rest ++ t) := by
  by_cases hrest : rest = []
  · subst hrest
    refine { h with stops := fun b hb hbegins ↦ hs ⟨part, b, ?_, h.ne_nil, hb, hbegins⟩ }
    simp
  · exact h.append hrest t

theorem lossy_append (h : ¬Severs s t) : lossy (s ++ t) = lossy s ++ lossy t := by
  induction s using split_induction with
  | nil => simp [lossy_nil]
  | char c rest ih =>
    rw [List.append_assoc, lossy_char, lossy_char, ih fun hr ↦ h (hr.mono _), List.cons_append]
  | invalid part rest hpart ih =>
    rw [List.append_assoc, lossy_invalid (hpart.of_not_severs h), lossy_invalid hpart,
      ih fun hr ↦ h (hr.mono _), List.cons_append]

theorem not_begins_of_append (h : Begins (p ++ q)) (hp : p ≠ []) (hq : q ≠ []) : ¬Begins q := by
  obtain ⟨b, q, rfl⟩ := List.exists_cons_of_ne_nil hq
  obtain ⟨c, r, hc⟩ := h
  rintro ⟨c', r', hc'⟩
  have hlen : p.length < (String.utf8EncodeChar c).length := by simp [← hc]
  have hlen' : 0 < (String.utf8EncodeChar c').length := by simp [← hc']
  have hget : (String.utf8EncodeChar c)[p.length] = b := by simp [← hc]
  have hget' : (String.utf8EncodeChar c')[0] = b := by simp [← hc']
  have hfirst : b.IsUTF8FirstByte := hget' ▸ UInt8.isUTF8FirstByte_getElem_utf8EncodeChar.2 rfl
  rw [← hget, UInt8.isUTF8FirstByte_getElem_utf8EncodeChar] at hfirst
  exact hp (List.length_eq_zero_iff.1 hfirst)

theorem suffix_cases (hpart : part.length = 1 ∨ Begins part) (hp : p <:+ part ++ rest)
    (hbegins : Begins p) : p <:+ rest ∨ p = part ++ rest := by
  obtain ⟨w, hw⟩ := hp
  obtain ⟨a, rfl, rfl⟩ | ⟨a, rfl, rfl⟩ := List.append_eq_append_iff.1 hw
  · by_cases hnil : w = [] ∨ a = []
    · obtain rfl | rfl := hnil
      · exact .inr rfl
      · exact .inl List.suffix_rfl
    · rw [not_or] at hnil
      have hlen := List.length_pos_iff.2 hnil.1
      have hlen' := List.length_pos_iff.2 hnil.2
      rw [List.length_append] at hpart
      exact absurd (hbegins.mono (List.prefix_append a rest))
        (not_begins_of_append (hpart.resolve_left (by omega)) hnil.1 hnil.2)
  · exact .inl (List.suffix_append a p)

theorem length_lossy_trailing (h : ∀ b ∈ q, ¬Begins [b]) (rest : Bytes) :
    (lossy (q ++ rest)).length = q.length + (lossy rest).length := by
  induction q with
  | nil => simp
  | cons b q ih =>
    obtain ⟨hb, hq⟩ := List.forall_mem_cons.1 h
    have hpart := invalidPart_singleton hb (q ++ rest)
    rw [← List.singleton_append, List.append_assoc, lossy_invalid hpart, List.length_cons, ih hq]
    simp
    omega

/-- Where the next byte goes on with `p`, the character or invalid part does not end with `p`. -/
theorem exists_continued (hp : p ≠ []) (h : Begins (p ++ [b])) (t : Bytes) :
    ∃ q r, q ≠ [] ∧ b :: t = q ++ r ∧ Begins (p ++ q) ∧
      (lossy (p ++ b :: t)).length = (lossy r).length + 1 := by
  have hne : p ++ b :: t ≠ [] := by simp
  obtain ⟨c, r, hsplit⟩ | ⟨part, r, hsplit, hpart⟩ := exists_split hne
  · have hunreadable := (Partial.of_begins hp h).unreadable c
    obtain ⟨q, hc, hq⟩ | ⟨q, hc, -⟩ := List.append_eq_append_iff.1 hsplit
    · refine ⟨q, r, fun hnil ↦ hunreadable ?_, hq, hc ▸ ⟨c, List.prefix_rfl⟩, ?_⟩
      · rw [hc, hnil, List.append_nil]
      · rw [hsplit, lossy_char, List.length_cons]
    · exact absurd ⟨q, hc.symm⟩ hunreadable
  · have hlen : p.length < part.length := by
      by_contra hle
      have hbegins : p ++ [b] <+: part ++ r := hsplit ▸ ⟨t, by simp⟩
      refine hpart.not_begins hbegins ?_ h
      rw [List.length_append, List.length_singleton]
      omega
    obtain ⟨q, rfl, hq⟩ | ⟨q, rfl, -⟩ := List.append_eq_append_iff.1 hsplit
    · have hpos := List.length_pos_iff.2 hp
      refine ⟨q, r, fun hnil ↦ ?_, hq, hpart.begins.resolve_left (by omega), ?_⟩
      · rw [hnil, List.append_nil] at hlen
        exact Nat.lt_irrefl _ hlen
      · rw [hsplit, lossy_invalid hpart, List.length_cons]
    · rw [List.length_append] at hlen
      omega

theorem length_lossy_continued (hp : p ≠ []) (h : Begins (p ++ [b])) (t : Bytes) :
    (lossy (p ++ b :: t)).length ≤ (lossy (b :: t)).length := by
  obtain ⟨q, r, hq, hsplit, hbegins, hlossy⟩ := exists_continued hp h t
  have htrail : ∀ b ∈ q, ¬Begins [b] := fun b hb ↦ by
    obtain ⟨q₁, q₂, rfl⟩ := List.append_of_mem hb
    have hb' : Begins ((p ++ q₁) ++ [b]) := hbegins.mono ⟨q₂, by simp⟩
    exact not_begins_of_append hb' (by simp [hp]) (List.cons_ne_nil b [])
  have hpos := List.length_pos_iff.2 hq
  rw [hlossy, hsplit, length_lossy_trailing htrail]
  omega

theorem length_lossy_append_lt (h : Severs s t) :
    (lossy (s ++ t)).length < (lossy s).length + (lossy t).length := by
  obtain ⟨p, b, hp, hne, hb, hbegins⟩ := h
  obtain ⟨t, rfl⟩ := List.head?_eq_some_iff.1 hb
  have hpartial := Partial.of_begins hne hbegins
  induction s using split_induction with
  | nil => exact absurd (List.suffix_nil.1 hp) hne
  | char c rest ih =>
    obtain hp | rfl := suffix_cases (.inr ⟨c, List.prefix_rfl⟩) hp hpartial.begins
    · have hlt := ih hp
      rw [List.append_assoc, lossy_char, lossy_char, List.length_cons, List.length_cons]
      omega
    · exact absurd (List.prefix_append _ rest) (hpartial.unreadable c)
  | invalid part rest hpart ih =>
    obtain hp | rfl := suffix_cases hpart.begins hp hpartial.begins
    · have hlt := ih hp
      have hrest : rest ≠ [] := fun hnil ↦ hne (List.suffix_nil.1 (hnil ▸ hp))
      rw [List.append_assoc, lossy_invalid (hpart.append hrest _), lossy_invalid hpart,
        List.length_cons, List.length_cons]
      omega
    · have hrest : rest = [] := by
        by_contra hrest
        have hpos := List.length_pos_iff.2 hrest
        exact hpart.not_begins List.prefix_rfl (by rw [List.length_append]; omega) hpartial.begins
      subst hrest
      have hle := length_lossy_continued hne hbegins t
      rw [lossy_invalid hpart, List.length_cons]
      omega

variable {d : Decoder} {reads : List Bytes}

/-- No read in which an invalid part is found ends within a character, or what might be one. What
has been carried over counts as read with it. -/
def Unsevered (d : Decoder) : List Bytes → Prop
  | [] => True
  | bs :: reads =>
    (BeginsText (d.carry ++ bs) ∨ ¬Severs (d.carry ++ bs) reads.flatten) ∧
      Unsevered (d.decode bs).2 reads

instance decidableUnsevered (d : Decoder) : (reads : List Bytes) → Decidable (Unsevered d reads)
  | [] => .isTrue trivial
  | bs :: reads =>
    have := decidableUnsevered (d.decode bs).2 reads
    instDecidableAnd

/-- What has come out of the decoder, with a replacement for what it still holds. -/
def settled (d : Decoder) (reads : List Bytes) : Text :=
  (d.run reads).1.flatten ++ lossy (d.run reads).2.carry

theorem settled_cons (d : Decoder) (bs : Bytes) (reads : List Bytes) :
    settled d (bs :: reads) = (d.decode bs).1 ++ settled (d.decode bs).2 reads := by
  rw [settled, Decoder.run, List.flatten_cons, List.append_assoc]
  rfl

theorem lossy_of_start (h : BeginsText (d.carry ++ bs)) (rest : Bytes) :
    lossy (d.carry ++ bs ++ rest) =
      (d.decode bs).1 ++ lossy ((d.decode bs).2.carry ++ rest) := by
  obtain ⟨t, ht⟩ := h
  obtain ⟨u, v, -, hu, hbs, -⟩ := decode_of_prefix ht
  rw [hbs, hu, List.append_assoc, lossy_encode]

theorem settled_of_unsevered (h : Unsevered d reads) :
    settled d reads = lossy (d.carry ++ reads.flatten) := by
  induction reads generalizing d with
  | nil => simp [settled, Decoder.run]
  | cons bs reads ih =>
    obtain ⟨hread, hreads⟩ := h
    rw [settled_cons, ih hreads, List.flatten_cons, ← List.append_assoc]
    by_cases hbegins : BeginsText (d.carry ++ bs)
    · exact (lossy_of_start hbegins _).symm
    · rw [decode_of_fault hbegins, lossy_append (hread.resolve_left hbegins)]
      rfl

theorem length_lossy_append_le (s t : Bytes) :
    (lossy (s ++ t)).length ≤ (lossy s).length + (lossy t).length := by
  by_cases h : Severs s t
  · exact (length_lossy_append_lt h).le
  · rw [lossy_append h, List.length_append]

theorem length_lossy_le (d : Decoder) (reads : List Bytes) :
    (lossy (d.carry ++ reads.flatten)).length ≤ (settled d reads).length := by
  induction reads generalizing d with
  | nil => simp [settled, Decoder.run]
  | cons bs reads ih =>
    have hle := ih (d.decode bs).2
    rw [settled_cons, List.flatten_cons, ← List.append_assoc, List.length_append]
    by_cases hbegins : BeginsText (d.carry ++ bs)
    · rw [lossy_of_start hbegins, List.length_append]
      exact Nat.add_le_add_left hle _
    · rw [decode_of_fault hbegins] at hle ⊢
      exact (length_lossy_append_le _ _).trans (Nat.add_le_add_left hle _)

/-- A character that has been severed leaves more than one replacement. -/
theorem length_lossy_lt (h : ¬Unsevered d reads) :
    (lossy (d.carry ++ reads.flatten)).length < (settled d reads).length := by
  induction reads generalizing d with
  | nil => exact absurd trivial h
  | cons bs reads ih =>
    rw [settled_cons, List.flatten_cons, ← List.append_assoc, List.length_append]
    by_cases hread : BeginsText (d.carry ++ bs) ∨ ¬Severs (d.carry ++ bs) reads.flatten
    · have hlt := ih fun hreads ↦ h ⟨hread, hreads⟩
      by_cases hbegins : BeginsText (d.carry ++ bs)
      · rw [lossy_of_start hbegins, List.length_append]
        exact Nat.add_lt_add_left hlt _
      · rw [decode_of_fault hbegins] at hlt ⊢
        exact (length_lossy_append_le _ _).trans_lt (Nat.add_lt_add_left hlt _)
    · rw [not_or, not_not] at hread
      have hle := length_lossy_le (d.decode bs).2 reads
      rw [decode_of_fault hread.1] at hle ⊢
      exact (length_lossy_append_lt hread.2).trans_le (Nat.add_le_add_left hle _)

/-- What comes out of reads that end with nothing carried over does not depend on where they are
cut, unless a cut severs a character after an invalid part. -/
theorem run_isLossy_iff (h : (({} : Decoder).run reads).2.carry = []) :
    IsLossy reads.flatten (({} : Decoder).run reads).1.flatten ↔ Unsevered {} reads := by
  have hsettled : settled {} reads = (({} : Decoder).run reads).1.flatten := by
    rw [settled, h, lossy_nil, List.append_nil]
  rw [isLossy_iff, ← hsettled]
  constructor
  · intro heq
    by_contra hsevered
    have hlt := length_lossy_lt hsevered
    rw [List.nil_append, heq] at hlt
    exact Nat.lt_irrefl _ hlt
  · exact settled_of_unsevered

theorem run_isLossy_unsevered :
    let reads : List Bytes := [[0x61, 0xFF, 0x62], [0xE2, 0x82], [0xAC], [0xE2, 0x82], [0x41]]
    (({} : Decoder).run reads).2.carry = [] ∧ Unsevered {} reads ∧
      IsLossy reads.flatten "a\ufffdb€\ufffdA" := by
  intro reads
  have hcarry : (({} : Decoder).run reads).2.carry = [] := by decide +kernel
  have hunsevered : Unsevered {} reads := by decide +kernel
  have htext : (({} : Decoder).run reads).1.flatten = "a\ufffdb€\ufffdA" := by decide +kernel
  exact ⟨hcarry, hunsevered, htext ▸ (run_isLossy_iff hcarry).2 hunsevered⟩

/-- A character after an invalid byte, read whole and cut. -/
theorem outputs_of_severed :
    let whole : List Bytes := [[0xFF, 0xC3, 0xA9]]
    let severed : List Bytes := [[0xFF, 0xC3], [0xA9]]
    whole.flatten = severed.flatten ∧ (({} : Decoder).run whole).2.carry = [] ∧
      (({} : Decoder).run severed).2.carry = [] ∧
      (({} : Decoder).run whole).1.flatten = "\ufffdé" ∧
      (({} : Decoder).run severed).1.flatten = "\ufffd\ufffd\ufffd" := by
  decide +kernel

end Prompter.Utf8
