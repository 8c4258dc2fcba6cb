import Prompter.Proofs.Text.Utf8

namespace Prompter.Utf8

theorem exists_char {n : Nat} (h : n.isValidChar) : ∃ c : Char, c.toNat = n :=
  ⟨Char.ofNatAux n h, rfl⟩

def Trails (b : UInt8) : Prop := 0x80 ≤ b ∧ b ≤ 0xBF

instance (b : UInt8) : Decidable (Trails b) := instDecidableAnd

theorem Trails.toNat {b : UInt8} (h : Trails b) : 128 ≤ b.toNat ∧ b.toNat ≤ 191 :=
  ⟨UInt8.le_iff_toNat_le.1 h.1, UInt8.le_iff_toNat_le.1 h.2⟩

theorem Trails.eq {b : UInt8} (h : Trails b) {n : Nat} (hn : n % 64 = b.toNat % 64) :
    trailer n = b := by
  have hb := h.toNat
  rw [← UInt8.toNat_inj, toNat_trailer]
  omega

section Lengths

variable {m : Nat} {b₁ b₂ b₃ : UInt8}

theorem exists_two (hm : 0xC2 ≤ m) (hm' : m < 0xE0) (h₁ : Trails b₁) :
    ∃ c, String.utf8EncodeChar c = [UInt8.ofNat m, b₁] := by
  have hvalid : ((m - 192) * 64 + b₁.toNat % 64).isValidChar := .inl (by omega)
  obtain ⟨c, hc⟩ := exists_char hvalid
  refine ⟨c, ?_⟩
  rw [encode_two (by omega) (by omega), List.map_cons, List.map_nil, h₁.eq (by omega)]
  congr 2
  omega

theorem exists_three (hm : 0xE0 ≤ m) (hm' : m < 0xF0) (h₁ : Trails b₁) (h₂ : Trails b₂)
    (hlow : m = 0xE0 → 0xA0 ≤ b₁) (hhigh : m = 0xED → b₁ ≤ 0x9F) :
    ∃ c, String.utf8EncodeChar c = [UInt8.ofNat m, b₁, b₂] := by
  have hb₁ := h₁.toNat
  have hfirst : m = 224 → 160 ≤ b₁.toNat := fun h ↦ UInt8.le_iff_toNat_le.1 (hlow h)
  have hlast : m = 237 → b₁.toNat ≤ 159 := fun h ↦ UInt8.le_iff_toNat_le.1 (hhigh h)
  have hvalid : ((m - 224) * 4096 + b₁.toNat % 64 * 64 + b₂.toNat % 64).isValidChar := by
    unfold Nat.isValidChar
    omega
  obtain ⟨c, hc⟩ := exists_char hvalid
  refine ⟨c, ?_⟩
  rw [encode_three (by omega) (by omega) (by omega), List.map_cons, List.map_cons, List.map_nil,
    h₁.eq (by omega), h₂.eq (by omega)]
  congr 2
  omega

theorem exists_four (hm : 0xF0 ≤ m) (hm' : m ≤ 0xF4) (h₁ : Trails b₁) (h₂ : Trails b₂)
    (h₃ : Trails b₃) (hlow : m = 0xF0 → 0x90 ≤ b₁) (hhigh : m = 0xF4 → b₁ ≤ 0x8F) :
    ∃ c, String.utf8EncodeChar c = [UInt8.ofNat m, b₁, b₂, b₃] := by
  have hb₁ := h₁.toNat
  have hfirst : m = 240 → 144 ≤ b₁.toNat := fun h ↦ UInt8.le_iff_toNat_le.1 (hlow h)
  have hlast : m = 244 → b₁.toNat ≤ 143 := fun h ↦ UInt8.le_iff_toNat_le.1 (hhigh h)
  have hvalid : ((m - 240) * 262144 + b₁.toNat % 64 * 4096 + b₂.toNat % 64 * 64 +
      b₃.toNat % 64).isValidChar := by
    unfold Nat.isValidChar
    omega
  obtain ⟨c, hc⟩ := exists_char hvalid
  refine ⟨c, ?_⟩
  rw [encode_four (by omega) (by omega) (by omega), List.map_cons, List.map_cons, List.map_cons,
    List.map_nil, h₁.eq (by omega), h₂.eq (by omega), h₃.eq (by omega)]
  congr 2
  omega

end Lengths

/-- How a sequence is read that begins with `b`. The bytes that it lets through make up a character
with `b`. -/
structure Lead (b : UInt8) where
  seen : Nat
  low : UInt8
  high : UInt8
  owed : Nat
  read : ∀ rest, continueAfter b rest = continueWith seen low high owed rest
  low_le : low ≤ high
  completes : ∀ bs, bs.length = owed → Continues low high bs →
    ∃ c, String.utf8EncodeChar c = b :: bs

section Leads

variable {m seen : Nat} {low high : UInt8}

theorem lead_one (hm : m < 0x80) : Nonempty (Lead (UInt8.ofNat m)) := by
  refine ⟨⟨m, 0x80, 0xBF, 0, fun rest ↦ ?_, by decide, fun bs hlen _ ↦ ?_⟩⟩
  · rw [continueAfter_ofNat (by omega), if_pos hm, continueWith]
  · obtain ⟨c, rfl⟩ := exists_char (n := m) (.inl (by omega))
    rw [List.length_eq_zero_iff.1 hlen]
    exact ⟨c, if_pos (show c.toNat ≤ 0x7F by omega)⟩

theorem lead_two (hm : 0xC2 ≤ m) (hm' : m < 0xE0)
    (hread : ∀ rest, continueAfter (UInt8.ofNat m) rest = continueWith seen 0x80 0xBF 1 rest) :
    Nonempty (Lead (UInt8.ofNat m)) := by
  refine ⟨⟨_, _, _, _, hread, by decide, fun bs hlen hbs ↦ ?_⟩⟩
  obtain ⟨b₁, rfl⟩ := List.length_eq_one_iff.1 hlen
  exact exists_two hm hm' hbs.1

theorem lead_three (hm : 0xE0 ≤ m) (hm' : m < 0xF0)
    (hread : ∀ rest, continueAfter (UInt8.ofNat m) rest = continueWith seen low high 2 rest)
    (hlow : Trails low) (hhigh : Trails high) (hle : low ≤ high) (hfirst : m = 0xE0 → 0xA0 ≤ low)
    (hlast : m = 0xED → high ≤ 0x9F) : Nonempty (Lead (UInt8.ofNat m)) := by
  refine ⟨⟨_, _, _, _, hread, hle, fun bs hlen hbs ↦ ?_⟩⟩
  obtain ⟨b₁, b₂, rfl⟩ := List.length_eq_two.1 hlen
  obtain ⟨⟨hl, hh⟩, htail⟩ := hbs
  exact exists_three hm hm' ⟨UInt8.le_trans hlow.1 hl, UInt8.le_trans hh hhigh.2⟩
    (htail b₂ List.mem_cons_self) (fun h ↦ UInt8.le_trans (hfirst h) hl)
    fun h ↦ UInt8.le_trans hh (hlast h)

theorem lead_four (hm : 0xF0 ≤ m) (hm' : m ≤ 0xF4)
    (hread : ∀ rest, continueAfter (UInt8.ofNat m) rest = continueWith seen low high 3 rest)
    (hlow : Trails low) (hhigh : Trails high) (hle : low ≤ high) (hfirst : m = 0xF0 → 0x90 ≤ low)
    (hlast : m = 0xF4 → high ≤ 0x8F) : Nonempty (Lead (UInt8.ofNat m)) := by
  refine ⟨⟨_, _, _, _, hread, hle, fun bs hlen hbs ↦ ?_⟩⟩
  obtain ⟨b₁, b₂, b₃, rfl⟩ := List.length_eq_three.1 hlen
  obtain ⟨⟨hl, hh⟩, htail⟩ := hbs
  exact exists_four hm hm' ⟨UInt8.le_trans hlow.1 hl, UInt8.le_trans hh hhigh.2⟩
    (htail b₂ List.mem_cons_self) (htail b₃ (List.mem_cons_of_mem _ List.mem_cons_self))
    (fun h ↦ UInt8.le_trans (hfirst h) hl) fun h ↦ UInt8.le_trans hh (hlast h)

/-- The ranges of lead bytes, in the order in which they are told apart. -/
theorem lead_or_invalid (b : UInt8) :
    Nonempty (Lead b) ∨ ∀ rest, continueAfter b rest = (.invalid, rest) := by
  obtain ⟨m, hm, rfl⟩ : ∃ m < 256, b = UInt8.ofNat m :=
    ⟨b.toNat, b.toNat_lt, UInt8.ofNat_toNat.symm⟩
  have hread := @continueAfter_ofNat m hm
  split_ifs at hread with h₁ h₂ h₃ h₄ h₅ h₆ h₇ h₈ h₉
  · exact .inl (lead_one h₁)
  · exact .inr hread
  · exact .inl (lead_two (by omega) h₃ hread)
  · exact .inl (lead_three (by omega) (by omega) hread (by decide) (by decide) (by decide)
      (fun _ ↦ by decide) (by omega))
  · exact .inl (lead_three (by omega) (by omega) hread (by decide) (by decide) (by decide)
      (by omega) fun _ ↦ by decide)
  · exact .inl (lead_three (by omega) h₆ hread (by decide) (by decide) (by decide) (by omega)
      (by omega))
  · exact .inl (lead_four (by omega) (by omega) hread (by decide) (by decide) (by decide)
      (fun _ ↦ by decide) (by omega))
  · exact .inl (lead_four (by omega) (by omega) hread (by decide) (by decide) (by decide)
      (by omega) (by omega))
  · exact .inl (lead_four (by omega) (by omega) hread (by decide) (by decide) (by decide)
      (by omega) fun _ ↦ by decide)
  · exact .inr hread

end Leads

def Begins (p : Bytes) : Prop := ∃ c, p <+: String.utf8EncodeChar c

def Partial (p : Bytes) : Prop := p ≠ [] ∧ ∃ c q, String.utf8EncodeChar c = p ++ q ∧ q ≠ []

variable {low high b : UInt8} {bs p q part rest : Bytes}

theorem Begins.mono (h : Begins q) (hp : p <+: q) : Begins p :=
  h.imp fun _ hc ↦ hp.trans hc

theorem Partial.begins (h : Partial p) : Begins p := by
  obtain ⟨-, c, q, hc, -⟩ := h
  exact ⟨c, hc ▸ List.prefix_append p q⟩

theorem exists_continues (h : Continues low high bs) (hle : low ≤ high) (k : Nat) :
    ∃ q, q.length = k ∧ Continues low high (bs ++ q) := by
  have hpad : ∀ b ∈ List.replicate k (0x80 : UInt8), 0x80 ≤ b ∧ b ≤ 0xBF := fun b hb ↦ by
    rw [(List.mem_replicate.1 hb).2]
    decide
  cases bs with
  | cons b bs =>
    exact ⟨List.replicate k 0x80, List.length_replicate, h.1,
      List.forall_mem_append.2 ⟨h.2, hpad⟩⟩
  | nil =>
    cases k with
    | zero => exact ⟨[], rfl, trivial⟩
    | succ k =>
      exact ⟨low :: List.replicate k 0x80, by simp, ⟨UInt8.le_refl low, hle⟩,
        fun b hb ↦ hpad b (List.mem_cons_of_mem _ hb)⟩

theorem Lead.partial (l : Lead b) (h : Continues l.low l.high bs) (hlen : bs.length < l.owed) :
    Partial (b :: bs) := by
  obtain ⟨q, hq, hcontinues⟩ := exists_continues h l.low_le (l.owed - bs.length)
  obtain ⟨c, hc⟩ := l.completes (bs ++ q) (by rw [List.length_append]; omega) hcontinues
  refine ⟨List.cons_ne_nil b bs, c, q, hc, fun hnil ↦ ?_⟩
  rw [hnil, List.length_nil] at hq
  omega

theorem continueWith_invalid (h : Continues low high bs) (hb : ¬Continues low high (bs ++ [b]))
    {owed : Nat} (hlen : bs.length < owed) (seen : Nat) (rest : Bytes) :
    continueWith seen low high owed (bs ++ b :: rest) = (.invalid, b :: rest) := by
  induction bs generalizing seen low high owed with
  | nil =>
    obtain ⟨owed, rfl⟩ := Nat.exists_eq_add_of_lt hlen
    exact if_neg fun hrange ↦ hb (continues_cons.2 ⟨hrange, trivial⟩)
  | cons b' bs ih =>
    obtain ⟨owed, rfl⟩ := Nat.exists_eq_add_of_lt hlen
    obtain ⟨hrange, htail⟩ := continues_cons.1 h
    rw [List.cons_append, continueWith, if_pos hrange]
    exact ih htail (fun h' ↦ hb (continues_cons.2 ⟨hrange, h'⟩))
      (by rw [List.length_cons]; omega) _

theorem continues_cases (low high : UInt8) (owed : Nat) (bytes : Bytes) :
    (∃ bs rest, bytes = bs ++ rest ∧ bs.length = owed ∧ Continues low high bs) ∨
      (bytes.length < owed ∧ Continues low high bytes) ∨
      ∃ bs b rest, bytes = bs ++ b :: rest ∧ bs.length < owed ∧ Continues low high bs ∧
        ¬Continues low high (bs ++ [b]) := by
  induction bytes generalizing low high owed with
  | nil =>
    cases owed with
    | zero => exact .inl ⟨[], [], rfl, rfl, trivial⟩
    | succ owed => exact .inr (.inl ⟨Nat.succ_pos owed, trivial⟩)
  | cons b bytes ih =>
    cases owed with
    | zero => exact .inl ⟨[], b :: bytes, rfl, rfl, trivial⟩
    | succ owed =>
      by_cases hb : low ≤ b ∧ b ≤ high
      · obtain ⟨bs, rest, rfl, hlen, h⟩ | ⟨hlen, h⟩ | ⟨bs, b', rest, rfl, hlen, h, hb'⟩ :=
          ih 0x80 0xBF owed
        · exact .inl ⟨b :: bs, rest, rfl, congrArg (· + 1) hlen, continues_cons.2 ⟨hb, h⟩⟩
        · exact .inr (.inl ⟨Nat.succ_lt_succ hlen, continues_cons.2 ⟨hb, h⟩⟩)
        · exact .inr (.inr ⟨b :: bs, b', rest, rfl, Nat.succ_lt_succ hlen,
            continues_cons.2 ⟨hb, h⟩, fun h' ↦ hb' (continues_cons.1 h').2⟩)
      · exact .inr (.inr ⟨[], b, bytes, rfl, Nat.succ_pos owed, trivial,
          fun h ↦ hb (continues_cons.1 h).1⟩)

/-- What stands for no character at the start of `part ++ rest`: a single byte, or as much as there
is of some character. -/
structure InvalidPart (part rest : Bytes) : Prop where
  ne_nil : part ≠ []
  begins : part.length = 1 ∨ Begins part
  unreadable (c : Char) : ¬String.utf8EncodeChar c <+: part
  /-- The next byte goes on with no character. -/
  stops : ∀ b ∈ rest.head?, ¬Begins (part ++ [b])

theorem continueAfter_partial (h : Partial (b :: bs)) : continueAfter b bs = (.incomplete, []) := by
  obtain ⟨-, c, q, hc, hq⟩ := h
  exact continueAfter_cut hc hq

theorem continueAfter_of_char {c : Char} (h : String.utf8EncodeChar c <+: b :: bs) :
    ∃ rest, continueAfter b bs = (.char c, rest) := by
  obtain ⟨rest, hrest⟩ := h
  obtain ⟨b', tail, hc⟩ := exists_encode_cons c
  rw [hc, List.cons_append] at hrest
  obtain ⟨rfl, rfl⟩ := List.cons.inj hrest
  exact ⟨rest, continueAfter_append hc rest⟩

theorem not_begins_of_invalid (h : ∀ rest, ∃ r, continueAfter b (bs ++ rest) = (.invalid, r)) :
    ¬Begins (b :: bs) := by
  rintro ⟨c, rest, hc⟩
  have hstarts : String.utf8EncodeChar c <+: b :: (bs ++ rest) := hc ▸ List.prefix_rfl
  obtain ⟨r, hr⟩ := h rest
  obtain ⟨r', hr'⟩ := continueAfter_of_char hstarts
  cases hr.symm.trans hr'

theorem Partial.unreadable (h : Partial p) (c : Char) : ¬String.utf8EncodeChar c <+: p := by
  intro hc
  obtain ⟨b, bs, rfl⟩ := List.exists_cons_of_ne_nil h.1
  obtain ⟨rest, hrest⟩ := continueAfter_of_char hc
  cases hrest.symm.trans (continueAfter_partial h)

theorem Partial.of_begins (hp : p ≠ []) (h : Begins (p ++ [b])) : Partial p := by
  obtain ⟨c, q, hc⟩ := h
  exact ⟨hp, c, b :: q, by rw [← hc, List.append_assoc, List.singleton_append], by simp⟩

theorem Partial.invalidPart (h : Partial p) (hstops : ∀ b ∈ rest.head?, ¬Begins (p ++ [b])) :
    InvalidPart p rest :=
  ⟨h.1, .inr h.begins, h.unreadable, hstops⟩

theorem invalidPart_singleton (h : ¬Begins [b]) (rest : Bytes) : InvalidPart [b] rest where
  ne_nil := List.cons_ne_nil b []
  begins := .inl rfl
  unreadable c hc := by
    have hpos := List.length_pos_iff.2 (String.utf8EncodeChar_ne_nil (c := c))
    exact h ⟨c, hc.eq_of_length_le hpos ▸ List.prefix_rfl⟩
  stops b' _ hb' := h (hb'.mono ⟨[b'], rfl⟩)

/-- A sequence begins with a character, is the start of one, or begins with an invalid part. -/
theorem continueAfter_cases (b : UInt8) (rest : Bytes) :
    (∃ c rest', b :: rest = String.utf8EncodeChar c ++ rest' ∧
      continueAfter b rest = (.char c, rest')) ∨
    (Partial (b :: rest) ∧ continueAfter b rest = (.incomplete, [])) ∨
    ∃ part rest', b :: rest = part ++ rest' ∧ InvalidPart part rest' ∧
      continueAfter b rest = (.invalid, rest') := by
  obtain ⟨⟨l⟩⟩ | hinvalid := lead_or_invalid b
  · obtain ⟨bs, rest', rfl, hlen, h⟩ | ⟨hlen, h⟩ | ⟨bs, b', rest', rfl, hlen, h, hb'⟩ :=
      continues_cases l.low l.high l.owed rest
    · obtain ⟨c, hc⟩ := l.completes bs hlen h
      exact .inl ⟨c, rest', by rw [hc, List.cons_append], continueAfter_append hc rest'⟩
    · have hpartial := l.partial h hlen
      exact .inr (.inl ⟨hpartial, continueAfter_partial hpartial⟩)
    · have hread (r : Bytes) : continueAfter b (bs ++ b' :: r) = (.invalid, b' :: r) := by
        rw [l.read, continueWith_invalid h hb' hlen]
      have hstop : ¬Begins (b :: (bs ++ [b'])) := not_begins_of_invalid fun r ↦
        ⟨b' :: r, by rw [List.append_assoc, List.singleton_append, hread]⟩
      refine .inr (.inr ⟨b :: bs, b' :: rest', rfl, ?_, hread rest'⟩)
      exact (l.partial h hlen).invalidPart fun x hx ↦ Option.some.inj hx ▸ hstop
  · have hstop : ¬Begins [b] := not_begins_of_invalid fun r ↦ ⟨r, hinvalid r⟩
    exact .inr (.inr ⟨[b], rest, rfl, invalidPart_singleton hstop rest, hinvalid rest⟩)

theorem begins_iff :
    Begins (b :: bs) ↔ (continueAfter b bs).2 = [] ∧ (continueAfter b bs).1 ≠ .invalid := by
  constructor
  · rintro ⟨c, q, hc⟩
    by_cases hq : q = []
    · have hread := continueAfter_append (c := c) (by rw [← hc, hq, List.append_nil]) []
      rw [List.append_nil] at hread
      simp [hread]
    · simp [continueAfter_partial ⟨List.cons_ne_nil b bs, c, q, hc.symm, hq⟩]
  · obtain ⟨c, r, h, hread⟩ | ⟨h, -⟩ | ⟨part, r, -, -, hread⟩ := continueAfter_cases b bs
    · rintro ⟨hr, -⟩
      rw [hread] at hr
      exact ⟨c, by rw [h, show r = [] from hr, List.append_nil]⟩
    · exact fun _ ↦ h.begins
    · exact fun hne ↦ absurd (congrArg Prod.fst hread) hne.2

instance : (p : Bytes) → Decidable (Begins p)
  | [] => .isTrue ⟨'a', List.nil_prefix⟩
  | _ :: _ => decidable_of_iff' _ begins_iff

theorem exists_split (hbs : bs ≠ []) :
    (∃ c rest, bs = String.utf8EncodeChar c ++ rest) ∨
      ∃ part rest, bs = part ++ rest ∧ InvalidPart part rest := by
  obtain ⟨b, rest, rfl⟩ := List.exists_cons_of_ne_nil hbs
  obtain ⟨c, r, h, -⟩ | ⟨h, -⟩ | ⟨part, r, h, hpart, -⟩ := continueAfter_cases b rest
  · exact .inl ⟨c, r, h⟩
  · exact .inr ⟨b :: rest, [], (List.append_nil _).symm, h.invalidPart (by simp)⟩
  · exact .inr ⟨part, r, h, hpart⟩

theorem split_induction {motive : Bytes → Prop} (nil : motive [])
    (char : ∀ c rest, motive rest → motive (String.utf8EncodeChar c ++ rest))
    (invalid : ∀ part rest, InvalidPart part rest → motive rest → motive (part ++ rest))
    (bs : Bytes) : motive bs := by
  induction hn : bs.length using Nat.strongRecOn generalizing bs with
  | ind n ih =>
    by_cases hbs : bs = []
    · exact hbs ▸ nil
    obtain ⟨c, rest, rfl⟩ | ⟨part, rest, rfl, hpart⟩ := exists_split hbs
    · have hpos := List.length_pos_iff.2 (String.utf8EncodeChar_ne_nil (c := c))
      rw [List.length_append] at hn
      exact char c rest (ih rest.length (by omega) rest rfl)
    · have hpos := List.length_pos_iff.2 hpart.ne_nil
      rw [List.length_append] at hn
      exact invalid part rest hpart (ih rest.length (by omega) rest rfl)

namespace InvalidPart

theorem exists_cons (h : InvalidPart part rest) : ∃ b bs, part ++ rest = b :: bs :=
  List.exists_cons_of_ne_nil (List.append_ne_nil_of_left_ne_nil h.ne_nil rest)

theorem not_begins (h : InvalidPart part rest) (hq : q <+: part ++ rest)
    (hlt : part.length < q.length) : ¬Begins q := by
  intro hbegins
  cases rest with
  | nil => simpa using hlt.trans_le hq.length_le
  | cons b rest =>
    have hstarts : part ++ [b] <+: part ++ b :: rest := ⟨rest, by simp⟩
    have hle : (part ++ [b]).length ≤ q.length := by rwa [List.length_append]
    exact h.stops b rfl (hbegins.mono (List.prefix_of_prefix_length_le hstarts hq hle))

theorem no_char (h : InvalidPart part rest) (c : Char) :
    ¬String.utf8EncodeChar c <+: part ++ rest := by
  intro hc
  by_cases hlt : part.length < (String.utf8EncodeChar c).length
  · exact h.not_begins hc hlt ⟨c, List.prefix_rfl⟩
  · exact h.unreadable c (List.prefix_of_prefix_length_le hc ⟨rest, rfl⟩ (Nat.le_of_not_lt hlt))

theorem length_le {part' rest' : Bytes} (h : InvalidPart part rest) (h' : InvalidPart part' rest')
    (heq : part ++ rest = part' ++ rest') : part'.length ≤ part.length := by
  by_contra hlt
  have hpos := List.length_pos_iff.2 h.ne_nil
  obtain hone | hbegins := h'.begins
  · omega
  · exact h.not_begins ⟨rest', heq.symm⟩ (Nat.lt_of_not_le hlt) hbegins

theorem eq {part' rest' : Bytes} (h : InvalidPart part rest) (h' : InvalidPart part' rest')
    (heq : part ++ rest = part' ++ rest') : part = part' ∧ rest = rest' :=
  List.append_inj heq (Nat.le_antisymm (h'.length_le h heq.symm) (h.length_le h' heq))

theorem append (h : InvalidPart part rest) (hrest : rest ≠ []) (bs : Bytes) :
    InvalidPart part (rest ++ bs) where
  __ := h
  stops b hb := h.stops b (by rwa [List.head?_append_of_ne_nil _ hrest] at hb)

end InvalidPart

end Prompter.Utf8
