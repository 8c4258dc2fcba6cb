import Prompter.Text.Basic

namespace Prompter.Text

variable {a b t rest : Text} {n : Nat}

@[simp] theorem byteLength_nil : byteLength [] = 0 := rfl

@[simp] theorem byteLength_cons (c : Char) (t : Text) :
    byteLength (c :: t) = c.utf8Size + byteLength t := rfl

@[simp] theorem byteLength_append (a b : Text) :
    byteLength (a ++ b) = byteLength a + byteLength b := by
  induction a with
  | nil => simp
  | cons c a ih => simp [ih, Nat.add_assoc]

/-- The part of `t` from byte offset `n` on, if that is a character boundary within `t`. -/
def fromByte? : Text → Nat → Option Text
  | t, 0 => some t
  | [], _ + 1 => none
  | c :: r, n + 1 => if c.utf8Size ≤ n + 1 then fromByte? r (n + 1 - c.utf8Size) else none

/-- The part of `t` between two byte offsets, if both are character boundaries. -/
def slice? (t : Text) (start stop : Nat) : Option Text :=
  (fromByte? t start).bind (uptoByte? · (stop - start))

theorem fromByte?_append (a b : Text) : fromByte? (a ++ b) a.byteLength = some b := by
  induction a with
  | nil => simp [fromByte?]
  | cons c a ih =>
    obtain ⟨n, hn⟩ := Nat.exists_eq_add_one.2 (Nat.add_pos_left c.utf8Size_pos (byteLength a))
    rw [byteLength_cons, hn, List.cons_append, fromByte?, ← hn, if_pos (Nat.le_add_right ..),
      Nat.add_sub_cancel_left, ih]

theorem byteLength_of_fromByte? (h : fromByte? t n = some rest) :
    t.byteLength = n + rest.byteLength := by
  fun_induction fromByte? t n with
  | case1 t => simpa using congrArg byteLength (Option.some.inj h)
  | case2 => cases h
  | case3 c r n hle ih =>
    have hr := ih h
    rw [byteLength_cons]
    omega
  | case4 => cases h

theorem uptoByte?_append (a b : Text) : uptoByte? (a ++ b) a.byteLength = some a := by
  have hgo (seen : Text) :
      uptoByte?.go seen a.byteLength (a ++ b) = some (seen.reverse ++ a) := by
    induction a generalizing seen with
    | nil => simp [uptoByte?.go]
    | cons c a ih =>
      obtain ⟨n, hn⟩ := Nat.exists_eq_add_one.2 (Nat.add_pos_left c.utf8Size_pos (byteLength a))
      rw [byteLength_cons, hn, List.cons_append, uptoByte?.go, ← hn, if_pos (Nat.le_add_right ..),
        Nat.add_sub_cancel_left, ih]
      simp
  exact hgo []

theorem slice?_append (a b : Text) (c : Text) :
    slice? (a ++ (b ++ c)) a.byteLength (a.byteLength + b.byteLength) = some b := by
  rw [slice?, fromByte?_append, Option.bind_some, Nat.add_sub_cancel_left, uptoByte?_append]

end Prompter.Text
