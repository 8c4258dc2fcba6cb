import Mathlib.Data.List.Infix
import Prompter.Text.Utf8

namespace Prompter.Utf8

/-- The continuation bytes of a character of which the first one lies between `low` and `high`. -/
def Continues (low high : UInt8) : Bytes → Prop
  | [] => True
  | b :: rest => (low ≤ b ∧ b ≤ high) ∧ ∀ b ∈ rest, 0x80 ≤ b ∧ b ≤ 0xBF

def gather (seen : Nat) (bs : Bytes) : Nat := bs.foldl (fun n b ↦ 64 * n + b.toNat % 64) seen

theorem continues_cons {low high b : UInt8} {bs : Bytes} :
    Continues low high (b :: bs) ↔ (low ≤ b ∧ b ≤ high) ∧ Continues 0x80 0xBF bs := by
  refine and_congr_right fun _ ↦ ?_
  cases bs with
  | nil => simp [Continues]
  | cons b' bs => exact List.forall_mem_cons

theorem continueWith_append {low high : UInt8} {bs : Bytes} (h : Continues low high bs)
    (seen : Nat) (rest : Bytes) :
    continueWith seen low high bs.length (bs ++ rest) =
      (.char (Char.ofNat (gather seen bs)), rest) := by
  induction bs generalizing seen low high with
  | nil => rfl
  | cons b bs ih =>
    rw [List.cons_append, List.length_cons, continueWith, if_pos h.1, ih (continues_cons.1 h).2]
    rfl

theorem continueWith_cut {low high : UInt8} {p q : Bytes} (h : Continues low high (p ++ q))
    (hq : q ≠ []) (seen : Nat) :
    continueWith seen low high (p ++ q).length p = (.incomplete, []) := by
  induction p generalizing seen low high with
  | nil =>
    obtain ⟨b, q, rfl⟩ := List.exists_cons_of_ne_nil hq
    rfl
  | cons b p ih =>
    rw [List.cons_append, List.length_cons, continueWith, if_pos h.1, ih (continues_cons.1 h).2]

structure Shape (c : Char) where
  lead : UInt8
  tail : Bytes
  seen : Nat
  low : UInt8
  high : UInt8
  encode : String.utf8EncodeChar c = lead :: tail
  continues : Continues low high tail
  read : ∀ rest, continueAfter lead rest = continueWith seen low high tail.length rest
  gather : gather seen tail = c.toNat

theorem continueAfter_ofNat {m : Nat} (hm : m < 256) (rest : Bytes) :
    continueAfter (UInt8.ofNat m) rest =
      if m < 0x80 then (.char (Char.ofNat m), rest)
      else if m < 0xC2 then (.invalid, rest)
      else if m < 0xE0 then continueWith (m % 32) 0x80 0xBF 1 rest
      else if m = 0xE0 then continueWith 0 0xA0 0xBF 2 rest
      else if m = 0xED then continueWith 13 0x80 0x9F 2 rest
      else if m < 0xF0 then continueWith (m % 16) 0x80 0xBF 2 rest
      else if m = 0xF0 then continueWith 0 0x90 0xBF 3 rest
      else if m < 0xF4 then continueWith (m % 8) 0x80 0xBF 3 rest
      else if m = 0xF4 then continueWith 4 0x80 0x8F 3 rest
      else (.invalid, rest) := by
  simp [continueAfter, UInt8.lt_iff_toNat_lt, ← UInt8.toNat_inj, Nat.mod_eq_of_lt hm]

def trailer (n : Nat) : UInt8 := UInt8.ofNat (n % 64 + 128)

theorem toNat_trailer (n : Nat) : (trailer n).toNat = n % 64 + 128 := by
  simp [trailer, Nat.mod_eq_of_lt (show n % 64 + 128 < 256 by omega)]

theorem ofNat_le_trailer {k n : Nat} (hk : k < 256) :
    UInt8.ofNat k ≤ trailer n ↔ k ≤ n % 64 + 128 := by
  rw [UInt8.le_iff_toNat_le, toNat_trailer, UInt8.toNat_ofNat', Nat.mod_eq_of_lt hk]

theorem trailer_le_ofNat {k n : Nat} (hk : k < 256) :
    trailer n ≤ UInt8.ofNat k ↔ n % 64 + 128 ≤ k := by
  rw [UInt8.le_iff_toNat_le, toNat_trailer, UInt8.toNat_ofNat', Nat.mod_eq_of_lt hk]

theorem continues_trailers {low high n : Nat} {ns : List Nat} (hl : low ≤ n % 64 + 128)
    (hh : n % 64 + 128 ≤ high) (hlt : high < 256) :
    Continues (UInt8.ofNat low) (UInt8.ofNat high) ((n :: ns).map trailer) := by
  refine ⟨⟨(ofNat_le_trailer (by omega)).2 hl, (trailer_le_ofNat hlt).2 hh⟩, fun b hb ↦ ?_⟩
  obtain ⟨m, -, rfl⟩ := List.mem_map.1 hb
  have hm := Nat.mod_lt m (show 0 < 64 by decide)
  exact ⟨(ofNat_le_trailer (k := 128) (by omega)).2 (by omega),
    (trailer_le_ofNat (k := 191) (by omega)).2 (by omega)⟩

theorem gather_trailers (seen : Nat) (ns : List Nat) :
    gather seen (ns.map trailer) = ns.foldl (fun v n ↦ 64 * v + n % 64) seen := by
  have hmod (n : Nat) : (n % 64 + 128) % 64 = n % 64 := by omega
  simp [gather, List.foldl_map, toNat_trailer, hmod]

theorem exists_shape_of_lead {c : Char} {m n : Nat} {ns : List Nat} (seen low high : Nat)
    (hlow : low ≤ n % 64 + 128) (hhigh : n % 64 + 128 ≤ high) (hlt : high < 256)
    (hencode : String.utf8EncodeChar c = UInt8.ofNat m :: (n :: ns).map trailer)
    (hread : ∀ rest, continueAfter (UInt8.ofNat m) rest =
      continueWith seen (UInt8.ofNat low) (UInt8.ofNat high) (ns.length + 1) rest)
    (hgather : (n :: ns).foldl (fun v n ↦ 64 * v + n % 64) seen = c.toNat) : Nonempty (Shape c) :=
  ⟨⟨_, _, seen, _, _, hencode, continues_trailers hlow hhigh hlt,
    fun rest ↦ by rw [hread]; simp, by rw [gather_trailers, hgather]⟩⟩

section Lengths

variable {c : Char}

theorem encode_two (h₁ : ¬c.toNat ≤ 0x7F) (h₂ : c.toNat ≤ 0x7FF) : String.utf8EncodeChar c =
    UInt8.ofNat (c.toNat / 64 % 32 + 192) :: [c.toNat].map trailer :=
  (if_neg h₁).trans (if_pos h₂)

theorem encode_three (h₁ : ¬c.toNat ≤ 0x7F) (h₂ : ¬c.toNat ≤ 0x7FF) (h₃ : c.toNat ≤ 0xFFFF) :
    String.utf8EncodeChar c =
      UInt8.ofNat (c.toNat / 4096 % 16 + 224) :: [c.toNat / 64, c.toNat].map trailer :=
  (if_neg h₁).trans ((if_neg h₂).trans (if_pos h₃))

theorem encode_four (h₁ : ¬c.toNat ≤ 0x7F) (h₂ : ¬c.toNat ≤ 0x7FF) (h₃ : ¬c.toNat ≤ 0xFFFF) :
    String.utf8EncodeChar c = UInt8.ofNat (c.toNat / 262144 % 8 + 240) ::
      [c.toNat / 4096, c.toNat / 64, c.toNat].map trailer :=
  (if_neg h₁).trans ((if_neg h₂).trans (if_neg h₃))

theorem shape_one (h : c.toNat ≤ 0x7F) : Nonempty (Shape c) := by
  refine ⟨⟨UInt8.ofNat c.toNat, [], c.toNat, 0x80, 0xBF, if_pos h, trivial, fun rest ↦ ?_, rfl⟩⟩
  rw [continueAfter_ofNat (by omega), if_pos (by omega)]
  rfl

theorem shape_two (h₁ : ¬c.toNat ≤ 0x7F) (h₂ : c.toNat ≤ 0x7FF) : Nonempty (Shape c) := by
  have hlead : c.toNat / 64 % 32 + 192 < 256 := by omega
  have hencode := encode_two h₁ h₂
  refine exists_shape_of_lead (c.toNat / 64) 0x80 0xBF (by omega) (by omega) (by omega)
    hencode (fun rest ↦ ?_) (by simp only [List.foldl]; omega)
  rw [continueAfter_ofNat hlead, if_neg (by omega), if_neg (by omega), if_pos (by omega)]
  congr 1
  omega

/-- The second byte lies higher where fewer bytes would do, and lower where it would lead to the
characters that stand for halves of others. -/
theorem shape_three (h₁ : ¬c.toNat ≤ 0x7F) (h₂ : ¬c.toNat ≤ 0x7FF) (h₃ : c.toNat ≤ 0xFFFF) :
    Nonempty (Shape c) := by
  have hvalid : c.toNat < 0xD800 ∨ (0xDFFF < c.toNat ∧ c.toNat < 0x110000) := c.valid
  have hlead : c.toNat / 4096 % 16 + 224 < 256 := by omega
  have hencode := encode_three h₁ h₂ h₃
  have hgather : [c.toNat / 64, c.toNat].foldl (fun v n ↦ 64 * v + n % 64) (c.toNat / 4096) =
      c.toNat := by
    simp only [List.foldl]
    omega
  obtain h | h | ⟨h, h'⟩ : c.toNat / 4096 = 0 ∨ c.toNat / 4096 = 13 ∨
      c.toNat / 4096 ≠ 0 ∧ c.toNat / 4096 ≠ 13 := by omega
  · refine exists_shape_of_lead _ 0xA0 0xBF (by omega) (by omega) (by omega)
      hencode (fun rest ↦ ?_) hgather
    rw [continueAfter_ofNat hlead, if_neg (by omega), if_neg (by omega), if_neg (by omega),
      if_pos (by omega), h]
    rfl
  · refine exists_shape_of_lead _ 0x80 0x9F (by omega) (by omega) (by omega)
      hencode (fun rest ↦ ?_) hgather
    rw [continueAfter_ofNat hlead, if_neg (by omega), if_neg (by omega), if_neg (by omega),
      if_neg (by omega), if_pos (by omega), h]
    rfl
  · refine exists_shape_of_lead _ 0x80 0xBF (by omega) (by omega) (by omega)
      hencode (fun rest ↦ ?_) hgather
    rw [continueAfter_ofNat hlead, if_neg (by omega), if_neg (by omega), if_neg (by omega),
      if_neg (by omega), if_neg (by omega), if_pos (by omega)]
    congr 1
    omega

theorem shape_four (h₁ : ¬c.toNat ≤ 0x7F) (h₂ : ¬c.toNat ≤ 0x7FF) (h₃ : ¬c.toNat ≤ 0xFFFF) :
    Nonempty (Shape c) := by
  have hvalid : c.toNat < 0xD800 ∨ (0xDFFF < c.toNat ∧ c.toNat < 0x110000) := c.valid
  have hlead : c.toNat / 262144 % 8 + 240 < 256 := by omega
  have hencode := encode_four h₁ h₂ h₃
  have hgather : [c.toNat / 4096, c.toNat / 64, c.toNat].foldl (fun v n ↦ 64 * v + n % 64)
      (c.toNat / 262144) = c.toNat := by
    simp only [List.foldl]
    omega
  obtain h | h | ⟨h, h'⟩ : c.toNat / 262144 = 0 ∨ c.toNat / 262144 = 4 ∨
      c.toNat / 262144 ≠ 0 ∧ c.toNat / 262144 ≠ 4 := by omega
  · refine exists_shape_of_lead _ 0x90 0xBF (by omega) (by omega) (by omega)
      hencode (fun rest ↦ ?_) hgather
    rw [continueAfter_ofNat hlead, if_neg (by omega), if_neg (by omega), if_neg (by omega),
      if_neg (by omega), if_neg (by omega), if_neg (by omega), if_pos (by omega), h]
    rfl
  · refine exists_shape_of_lead _ 0x80 0x8F (by omega) (by omega) (by omega)
      hencode (fun rest ↦ ?_) hgather
    rw [continueAfter_ofNat hlead, if_neg (by omega), if_neg (by omega), if_neg (by omega),
      if_neg (by omega), if_neg (by omega), if_neg (by omega), if_neg (by omega),
      if_neg (by omega), if_pos (by omega), h]
    rfl
  · refine exists_shape_of_lead _ 0x80 0xBF (by omega) (by omega) (by omega)
      hencode (fun rest ↦ ?_) hgather
    rw [continueAfter_ofNat hlead, if_neg (by omega), if_neg (by omega), if_neg (by omega),
      if_neg (by omega), if_neg (by omega), if_neg (by omega), if_neg (by omega), if_pos (by omega)]
    congr 1
    omega

end Lengths

theorem exists_shape (c : Char) : Nonempty (Shape c) := by
  by_cases h₁ : c.toNat ≤ 0x7F
  · exact shape_one h₁
  by_cases h₂ : c.toNat ≤ 0x7FF
  · exact shape_two h₁ h₂
  by_cases h₃ : c.toNat ≤ 0xFFFF
  · exact shape_three h₁ h₂ h₃
  · exact shape_four h₁ h₂ h₃

theorem continueAfter_append {c : Char} {b : UInt8} {bs : Bytes}
    (h : String.utf8EncodeChar c = b :: bs) (rest : Bytes) :
    continueAfter b (bs ++ rest) = (.char c, rest) := by
  obtain ⟨s⟩ := exists_shape c
  obtain ⟨rfl, rfl⟩ := List.cons.inj (h.symm.trans s.encode)
  rw [s.read, continueWith_append s.continues, s.gather, Char.ofNat_toNat]

theorem continueAfter_cut {c : Char} {b : UInt8} {p q : Bytes}
    (h : String.utf8EncodeChar c = b :: (p ++ q)) (hq : q ≠ []) :
    continueAfter b p = (.incomplete, []) := by
  obtain ⟨s⟩ := exists_shape c
  obtain ⟨rfl, htail⟩ := List.cons.inj (h.symm.trans s.encode)
  have hcontinues := s.continues
  rw [s.read, ← htail]
  exact continueWith_cut (htail ▸ hcontinues) hq _

theorem exists_encode_cons (c : Char) : ∃ b tail, String.utf8EncodeChar c = b :: tail :=
  List.exists_cons_of_ne_nil String.utf8EncodeChar_ne_nil

/-- What has been read of the character at the start of a text, of which some is still to come. -/
def Started (carry : Bytes) (t : Text) : Prop :=
  carry = [] ∨ ∃ c r q, t = c :: r ∧ String.utf8EncodeChar c = carry ++ q ∧ q ≠ []

theorem encode_append (t u : Text) : encode (t ++ u) = encode t ++ encode u := List.flatMap_append

theorem Started.eq_nil {carry : Bytes} {t : Text} (h : Started carry t) (he : carry = encode t) :
    carry = [] ∧ t = [] := by
  cases t with
  | nil => exact ⟨he, rfl⟩
  | cons c r =>
    have hencode : encode (c :: r) = String.utf8EncodeChar c ++ encode r := rfl
    obtain rfl | ⟨c', r', q, ht, hc, hq⟩ := h
    · simp [hencode, String.utf8EncodeChar_ne_nil] at he
    · obtain ⟨rfl, rfl⟩ := List.cons.inj ht
      rw [hencode, hc, List.append_assoc, List.self_eq_append_right, List.append_eq_nil_iff] at he
      exact absurd he.1 hq

theorem strict_go_char {b : UInt8} {rest rest' : Bytes} {c : Char}
    (h : continueAfter b rest = (.char c, rest')) (seen : Text) :
    strict.go seen (b :: rest) = strict.go (c :: seen) rest' := by
  rw [strict.go]
  split
  next heq => cases h.symm.trans heq; rfl
  next heq => cases h.symm.trans heq
  next heq => cases h.symm.trans heq

theorem strict_go_incomplete {b : UInt8} {rest rest' : Bytes}
    (h : continueAfter b rest = (.incomplete, rest')) (seen : Text) :
    strict.go seen (b :: rest) = .cut seen.reverse (b :: rest) := by
  rw [strict.go]
  split
  next heq => cases h.symm.trans heq
  next heq => rfl
  next heq => cases h.symm.trans heq

theorem strict_go_invalid {b : UInt8} {rest rest' : Bytes}
    (h : continueAfter b rest = (.invalid, rest')) (seen : Text) :
    strict.go seen (b :: rest) = .fault seen.reverse (rest.length + 1 - rest'.length) := by
  rw [strict.go]
  split
  next heq => cases h.symm.trans heq
  next heq => cases h.symm.trans heq
  next heq => cases h.symm.trans heq; rfl

def Scan.upTo (t : Text) (carry : Bytes) : Scan :=
  if carry = [] then .complete t else .cut t carry

theorem strict_go_of_prefix {t : Text} {bs : Bytes} (h : bs <+: encode t) (seen : Text) :
    ∃ u v carry, t = u ++ v ∧ bs = encode u ++ carry ∧ Started carry v ∧
      strict.go seen bs = .upTo (seen.reverse ++ u) carry := by
  induction t generalizing bs seen with
  | nil =>
    obtain rfl := List.prefix_nil.1 h
    exact ⟨[], [], [], rfl, rfl, .inl rfl, by simp [strict.go, Scan.upTo]⟩
  | cons c t ih =>
    have hc : String.utf8EncodeChar c <+: encode (c :: t) := List.prefix_append _ _
    obtain ⟨b, bytes, hb⟩ := exists_encode_cons c
    by_cases hwhole : String.utf8EncodeChar c <+: bs
    · obtain ⟨more, rfl⟩ := hwhole
      obtain ⟨u, v, carry, rfl, rfl, hstarted, hgo⟩ :=
        ih ((List.prefix_append_right_inj _).1 h) (c :: seen)
      refine ⟨c :: u, v, carry, rfl, (List.append_assoc ..).symm, hstarted, ?_⟩
      rw [hb, List.cons_append, strict_go_char (continueAfter_append hb _), hgo]
      simp
    · -- what has been read ends within the character
      obtain ⟨q, hq⟩ := (List.prefix_or_prefix_of_prefix hc h).resolve_left hwhole
      have hne : q ≠ [] := by
        rintro rfl
        exact hwhole ⟨[], by rw [← hq]; simp⟩
      refine ⟨[], c :: t, bs, rfl, rfl, .inr ⟨c, t, q, rfl, hq.symm, hne⟩, ?_⟩
      cases bs with
      | nil => simp [strict.go, Scan.upTo]
      | cons b' p =>
        rw [List.cons_append] at hq
        rw [strict_go_incomplete (continueAfter_cut hq.symm hne)]
        simp [Scan.upTo]

theorem decode_of_prefix {t : Text} {d : Decoder} {bs : Bytes} (h : d.carry ++ bs <+: encode t) :
    ∃ u v, t = u ++ v ∧ (d.decode bs).1 = u ∧ d.carry ++ bs = encode u ++ (d.decode bs).2.carry ∧
      Started (d.decode bs).2.carry v := by
  obtain ⟨u, v, carry, rfl, hbs, hstarted, hgo⟩ := strict_go_of_prefix h []
  have hdecode : d.decode bs = (u, ⟨carry⟩) := by
    rw [Decoder.decode, strict, hgo, List.reverse_nil, List.nil_append, Scan.upTo]
    by_cases hcarry : carry = [] <;> simp [hcarry]
  exact ⟨u, v, rfl, by rw [hdecode], by rw [hdecode, hbs], by rw [hdecode]; exact hstarted⟩

/-- Wherever the bytes of a text are cut into reads, the characters read so far come out. -/
theorem run_of_prefix {t : Text} {d : Decoder} {reads : List Bytes} (hd : Started d.carry t)
    (h : d.carry ++ reads.flatten <+: encode t) :
    ∃ u v, t = u ++ v ∧ (d.run reads).1.flatten = u ∧
      d.carry ++ reads.flatten = encode u ++ (d.run reads).2.carry ∧
      Started (d.run reads).2.carry v := by
  induction reads generalizing d t with
  | nil => exact ⟨[], t, rfl, rfl, List.append_nil _, hd⟩
  | cons bs reads ih =>
    rw [List.flatten_cons, ← List.append_assoc] at h
    obtain ⟨u, v, rfl, hu, hbs, hstarted⟩ := decode_of_prefix ((List.prefix_append _ _).trans h)
    rw [hbs, encode_append, List.append_assoc] at h
    obtain ⟨u', v', rfl, hu', hbs', hstarted'⟩ :=
      ih hstarted ((List.prefix_append_right_inj _).1 h)
    refine ⟨u ++ u', v', (List.append_assoc ..).symm, ?_, ?_, hstarted'⟩
    · rw [Decoder.run, List.flatten_cons, hu, hu']
    · rw [List.flatten_cons, ← List.append_assoc, hbs, List.append_assoc, hbs', encode_append,
        List.append_assoc]
      rfl

theorem run_encode {t : Text} {reads : List Bytes} (h : reads.flatten = encode t) :
    (({} : Decoder).run reads).1.flatten = t ∧ (({} : Decoder).run reads).2 = {} := by
  have hprefix : ({} : Decoder).carry ++ reads.flatten <+: encode t := by simp [h]
  obtain ⟨u, v, rfl, hu, hbs, hstarted⟩ := run_of_prefix (.inl rfl) hprefix
  rw [h, encode_append, List.nil_append, List.append_cancel_left_eq] at hbs
  obtain ⟨hcarry, rfl⟩ := hstarted.eq_nil hbs.symm
  refine ⟨by simpa using hu, ?_⟩
  cases hd : (({} : Decoder).run reads).2
  rw [hd] at hcarry
  exact congrArg Decoder.mk hcarry

end Prompter.Utf8
