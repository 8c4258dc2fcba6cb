import Prompter.Proofs.Text.Utf8

namespace Prompter.Utf8

variable {c d : Char} {t : Text}

theorem utf8EncodeChar_ascii (h : c.toNat < 0x80) :
    String.utf8EncodeChar c = [UInt8.ofNat c.toNat] := if_pos (Nat.le_of_lt_succ h)

theorem le_trailer {n : Nat} : 0x80 ≤ (trailer n).toNat := by
  rw [toNat_trailer]
  omega

theorem le_of_mem_utf8EncodeChar {b : UInt8} (h : ¬c.toNat < 0x80)
    (hb : b ∈ String.utf8EncodeChar c) : 0x80 ≤ b.toNat := by
  have hlead {m : Nat} {ns : List Nat} (hm : 0x80 ≤ m) (hlt : m < 256)
      (hb : b ∈ UInt8.ofNat m :: ns.map trailer) : 0x80 ≤ b.toNat := by
    obtain rfl | hb := List.mem_cons.1 hb
    · rwa [UInt8.toNat_ofNat', Nat.mod_eq_of_lt hlt]
    · obtain ⟨n, -, rfl⟩ := List.mem_map.1 hb
      exact le_trailer
  have h₁ : ¬c.toNat ≤ 0x7F := by omega
  by_cases h₂ : c.toNat ≤ 0x7FF
  · exact hlead (by omega) (by omega) (encode_two h₁ h₂ ▸ hb)
  by_cases h₃ : c.toNat ≤ 0xFFFF
  · exact hlead (by omega) (by omega) (encode_three h₁ h₂ h₃ ▸ hb)
  · exact hlead (by omega) (by omega) (encode_four h₁ h₂ h₃ ▸ hb)

theorem mem_utf8EncodeChar_iff (h : c.toNat < 0x80) :
    UInt8.ofNat c.toNat ∈ String.utf8EncodeChar d ↔ d = c := by
  have hvalue {e : Char} (he : e.toNat < 0x80) : (UInt8.ofNat e.toNat).toNat = e.toNat := by
    rw [UInt8.toNat_ofNat', Nat.mod_eq_of_lt (by omega)]
  constructor
  · intro hmem
    by_cases hd : d.toNat < 0x80
    · rw [utf8EncodeChar_ascii hd, List.mem_singleton] at hmem
      have hnat := congrArg UInt8.toNat hmem
      rw [hvalue h, hvalue hd] at hnat
      exact Char.toNat_inj.1 hnat.symm
    · have hle := le_of_mem_utf8EncodeChar hd hmem
      rw [hvalue h] at hle
      omega
  · rintro rfl
    rw [utf8EncodeChar_ascii h]
    exact List.mem_singleton_self _

theorem mem_encode_iff (h : c.toNat < 0x80) : UInt8.ofNat c.toNat ∈ encode t ↔ c ∈ t := by
  simp only [encode, List.mem_flatMap, mem_utf8EncodeChar_iff h]
  exact exists_eq_right

theorem getLast?_encode_iff (h : c.toNat < 0x80) :
    (encode t).getLast? = some (UInt8.ofNat c.toNat) ↔ t.getLast? = some c := by
  obtain rfl | ⟨t, d, rfl⟩ := t.eq_nil_or_concat
  · exact iff_of_false (fun h ↦ by cases h) fun h ↦ by cases h
  · have hencode : encode (t ++ [d]) = encode t ++ String.utf8EncodeChar d := by
      rw [encode_append]
      simp [encode]
    rw [List.concat_eq_append, hencode,
      List.getLast?_append_of_ne_nil _ String.utf8EncodeChar_ne_nil,
      List.getLast?_concat, Option.some.injEq]
    constructor
    · intro hlast
      exact (mem_utf8EncodeChar_iff h).1 (List.mem_of_getLast? hlast)
    · rintro rfl
      rw [utf8EncodeChar_ascii h]
      rfl

theorem strict_encode (t : Text) : strict (encode t) = .complete t := by
  obtain ⟨u, v, carry, rfl, hbytes, hstarted, hgo⟩ :=
    strict_go_of_prefix (List.prefix_refl (encode t)) []
  rw [encode_append, List.append_cancel_left_eq] at hbytes
  obtain ⟨rfl, rfl⟩ := hstarted.eq_nil hbytes.symm
  rw [strict, hgo, List.append_nil]
  rfl

end Prompter.Utf8
