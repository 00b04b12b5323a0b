/-! Numbers on the wire: seven bits a byte, the low ones first, every byte but the last with its high bit set. -/
namespace Roster.Wire

abbrev Bytes := List UInt8

def encodeVarint (n : Nat) : Bytes :=
  if n < 128 then [UInt8.ofNat n] else UInt8.ofNat (n % 128 + 128) :: encodeVarint (n / 128)
termination_by n
decreasing_by omega

/-- A number of at most `room` bytes in front, and what follows it. -/
def varintWithin : Nat → Bytes → Option (Nat × Bytes)
  | 0, _ | _, [] => none
  | room + 1, b :: rest =>
    if b.toNat < 128 then some (b.toNat, rest)
    else (varintWithin room rest).map fun r => (b.toNat - 128 + 128 * r.1, r.2)

/-- Numbers have at most 64 bits; they need not be written as short as possible. -/
def varint? (bs : Bytes) : Option (Nat × Bytes) := (varintWithin 10 bs).filter fun r => r.1 < UInt64.size

theorem varintWithin_encodeVarint (room n : Nat) (h : n < Nat.pow 128 (room + 1)) (rest : Bytes) :
    varintWithin (room + 1) (encodeVarint n ++ rest) = some (n, rest) := by
  induction room generalizing n with
  | zero =>
    have small : n < 128 := h
    rw [encodeVarint, if_pos small]
    simp [varintWithin, small, Nat.mod_eq_of_lt (by omega : n < 256)]
  | succ room ih =>
    rw [encodeVarint]
    split
    · rename_i small
      simp [varintWithin, small, Nat.mod_eq_of_lt (by omega : n < 256)]
    · have below : n / 128 < Nat.pow 128 (room + 1) := (Nat.div_lt_iff_lt_mul (by omega)).2 h
      simp only [List.cons_append, varintWithin, ih _ below, UInt8.toNat_ofNat']
      rw [if_neg (by omega)]
      simp
      omega

theorem varint?_encodeVarint (n : Nat) (h : n < UInt64.size) (rest : Bytes) :
    varint? (encodeVarint n ++ rest) = some (n, rest) := by
  rw [varint?, varintWithin_encodeVarint 9 n (Nat.lt_trans h (by decide))]
  exact if_pos (decide_eq_true h)

end Roster.Wire
