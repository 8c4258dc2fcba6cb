import Prompter.Proofs.Text.Utf8.Invalid

namespace Prompter.Utf8

variable {bs : Bytes} {t u : Text} {d : Decoder} {reads : List Bytes}

def BeginsText (bs : Bytes) : Prop := ∃ t, bs <+: encode t

def Scan.isFault : Scan → Bool
  | .complete _ => false
  | .cut _ _ => false
  | .fault _ _ => true

theorem beginsText_of_go {seen : Text} (h : (strict.go seen bs).isFault = false) :
    BeginsText bs := by
  induction bs using split_induction generalizing seen with
  | nil => exact ⟨[], List.prefix_rfl⟩
  | char c rest ih =>
    obtain ⟨b, tail, hc⟩ := exists_encode_cons c
    rw [hc, List.cons_append, strict_go_char (continueAfter_append hc rest)] at h
    obtain ⟨t, ht⟩ := ih h
    exact ⟨c :: t, (List.prefix_append_right_inj _).2 ht⟩
  | invalid part rest hpart ih =>
    obtain ⟨b, tail, hb⟩ := hpart.exists_cons
    rw [hb] at h ⊢
    obtain ⟨c, r, hc, -⟩ | ⟨⟨-, c, q, hc, -⟩, -⟩ | ⟨-, r, -, -, hread⟩ := continueAfter_cases b tail
    · exact absurd ⟨r, (hb.trans hc).symm⟩ (hpart.no_char c)
    · exact ⟨[c], q, by rw [← hc]; simp [encode]⟩
    · rw [strict_go_invalid hread] at h
      cases h

/-- Strict decoding gives up on what no text begins with, and on nothing else. -/
theorem beginsText_iff : BeginsText bs ↔ (strict bs).isFault = false := by
  constructor
  · rintro ⟨t, ht⟩
    obtain ⟨u, v, carry, -, -, -, hgo⟩ := strict_go_of_prefix ht []
    rw [strict, hgo, Scan.upTo]
    split <;> rfl
  · exact beginsText_of_go

instance (bs : Bytes) : Decidable (BeginsText bs) := decidable_of_iff' _ beginsText_iff

theorem decode_of_fault (h : ¬BeginsText (d.carry ++ bs)) :
    d.decode bs = (lossy (d.carry ++ bs), {}) := by
  rw [beginsText_iff] at h
  unfold Decoder.decode
  cases hscan : strict (d.carry ++ bs) with
  | complete t => exact absurd (congrArg Scan.isFault hscan) h
  | cut t rest => exact absurd (congrArg Scan.isFault hscan) h
  | fault t n => rfl

theorem Started.length_le {carry : Bytes} (h : Started carry t) : carry.length ≤ 3 := by
  obtain rfl | ⟨c, r, q, -, hc, hq⟩ := h
  · exact Nat.zero_le 3
  · have hlen := congrArg List.length hc
    have hpos := List.length_pos_iff.2 hq
    have hle := c.utf8Size_le_four
    rw [String.length_utf8EncodeChar, List.length_append] at hlen
    omega

theorem length_carry_decode (d : Decoder) (bs : Bytes) : (d.decode bs).2.carry.length ≤ 3 := by
  by_cases h : BeginsText (d.carry ++ bs)
  · obtain ⟨t, ht⟩ := h
    obtain ⟨u, v, -, -, -, hstarted⟩ := decode_of_prefix ht
    exact hstarted.length_le
  · rw [decode_of_fault h]
    exact Nat.zero_le 3

theorem length_carry_run (hd : d.carry.length ≤ 3) (reads : List Bytes) :
    (d.run reads).2.carry.length ≤ 3 := by
  induction reads generalizing d with
  | nil => exact hd
  | cons bs reads ih => exact ih (length_carry_decode d bs)

theorem char_unique {c c' : Char} (h : String.utf8EncodeChar c <+: bs)
    (h' : String.utf8EncodeChar c' <+: bs) : c = c' := by
  have hne : bs ≠ [] := fun hnil ↦ String.utf8EncodeChar_ne_nil (List.prefix_nil.1 (hnil ▸ h))
  obtain ⟨b, bs, rfl⟩ := List.exists_cons_of_ne_nil hne
  obtain ⟨r, hr⟩ := continueAfter_of_char h
  obtain ⟨r', hr'⟩ := continueAfter_of_char h'
  cases hr.symm.trans hr'
  rfl

theorem prefix_of_encode (h : encode u <+: encode t) : u <+: t := by
  induction u generalizing t with
  | nil => exact List.nil_prefix
  | cons c u ih =>
    have hc : String.utf8EncodeChar c <+: encode (c :: u) := List.prefix_append _ _
    cases t with
    | nil => exact absurd (List.prefix_nil.1 (hc.trans h)) String.utf8EncodeChar_ne_nil
    | cons c' t =>
      obtain rfl := char_unique (hc.trans h) (List.prefix_append _ _)
      exact List.cons_prefix_cons.2 ⟨rfl, ih ((List.prefix_append_right_inj _).1 h)⟩

theorem Started.eq_nil_of_encode {carry : Bytes} (h : Started carry t) (hu : u <+: t)
    (hcarry : encode u <+: carry) : u = [] := by
  cases u with
  | nil => rfl
  | cons c u =>
    obtain ⟨t, rfl⟩ := hu
    have hc : String.utf8EncodeChar c <+: carry := (List.prefix_append _ (encode u)).trans hcarry
    obtain rfl | ⟨c', r, q, ht, hq, hne⟩ := h
    · exact absurd (List.prefix_nil.1 hc) String.utf8EncodeChar_ne_nil
    · obtain ⟨rfl, -⟩ := List.cons.inj ht
      have hlen := hc.length_le
      have hpos := List.length_pos_iff.2 hne
      rw [hq, List.length_append] at hlen
      omega

/-- `t` is the longest text of which `bs` has all the bytes. -/
structure IsLongest (t : Text) (bs : Bytes) : Prop where
  complete : encode t <+: bs
  longest {u : Text} (h : encode u <+: bs) : u <+: t

theorem Started.isLongest {carry : Bytes} (h : Started carry t)
    (hcarry : encode u ++ carry <+: encode (u ++ t)) : IsLongest u (encode u ++ carry) where
  complete := List.prefix_append _ _
  longest {w} hw := by
    have hwhole := prefix_of_encode (hw.trans hcarry)
    obtain hwu | ⟨x, rfl⟩ := List.prefix_or_prefix_of_prefix hwhole (List.prefix_append u t)
    · exact hwu
    · rw [encode_append, List.prefix_append_right_inj] at hw
      rw [List.prefix_append_right_inj] at hwhole
      rw [h.eq_nil_of_encode hwhole hw, List.append_nil]

/-- Whatever reads bytes come in, at most three of them are carried over. While they are the bytes
of a text, the characters that are complete have come out, and the rest is carried over. -/
theorem run_lossless (reads : List Bytes) :
    (({} : Decoder).run reads).2.carry.length ≤ 3 ∧
      ∀ t, reads.flatten <+: encode t →
        IsLongest (({} : Decoder).run reads).1.flatten reads.flatten ∧
          reads.flatten =
            encode (({} : Decoder).run reads).1.flatten ++ (({} : Decoder).run reads).2.carry := by
  refine ⟨length_carry_run (d := {}) (Nat.zero_le 3) reads, fun t ht ↦ ?_⟩
  obtain ⟨u, v, rfl, hu, hbs, hstarted⟩ := run_of_prefix (d := {}) (.inl rfl) ht
  rw [List.nil_append] at hbs
  rw [hu]
  rw [hbs] at ht
  exact ⟨hbs ▸ hstarted.isLongest ht, hbs⟩

theorem run_lossless_cut :
    let reads : List Bytes := [[0x61, 0xC3], [0xA9, 0xE2], [0x82], [0xAC, 0xF0, 0x9F]]
    reads.flatten <+: encode "aé€😀" ∧ (({} : Decoder).run reads).2.carry.length ≤ 3 ∧
      IsLongest "aé€" reads.flatten ∧ reads.flatten = encode "aé€" ++ [0xF0, 0x9F] := by
  intro reads
  have hstarts : reads.flatten <+: encode "aé€😀" := by decide +kernel
  have htext : (({} : Decoder).run reads).1.flatten = "aé€" := by decide +kernel
  have hcarry : (({} : Decoder).run reads).2.carry = [0xF0, 0x9F] := by decide +kernel
  obtain ⟨hlen, hrun⟩ := run_lossless reads
  obtain ⟨hlongest, hbytes⟩ := hrun _ hstarts
  rw [htext] at hlongest hbytes
  rw [hcarry] at hbytes
  exact ⟨hstarts, hlen, hlongest, hbytes⟩

end Prompter.Utf8
