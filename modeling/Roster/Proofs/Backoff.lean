import Mathlib.Algebra.Order.Group.Nat
import Roster.Proofs.Settings

/-! The delays of a backoff in exact arithmetic. A delay is the base delay doubled with every failure after the first, thirty-one
times at most, and cut at the largest delay; that words are bounded never shows. -/
namespace Roster

namespace Backoff

variable {b : Backoff} {m n : UInt64}

/-! Words as numbers -/

theorem toNat_min (m n : UInt64) : (min m n).toNat = min m.toNat n.toNat := by
  show (if m ≤ n then m else n).toNat = _
  simp only [UInt64.le_iff_toNat_le]
  split <;> omega

theorem toNat_cappedMul (m n : UInt64) : (cappedMul m n).toNat = min (m.toNat * n.toNat) (UInt64.size - 1) := by
  unfold cappedMul
  split
  · next h =>
    rw [UInt64.toNat_mul, Nat.mod_eq_of_lt h]
    omega
  · next h =>
    rw [UInt64.toNat_ofNat', Nat.mod_eq_of_lt (by decide)]
    omega

theorem toNat_one_shiftLeft (h : n.toNat < 64) : ((1 : UInt64) <<< n).toNat = 2 ^ n.toNat := by
  have hfit : 2 ^ n.toNat < 2 ^ 64 := Nat.pow_lt_pow_right (by decide) h
  rw [UInt64.toNat_shiftLeft, Nat.mod_eq_of_lt h, UInt64.toNat_one, Nat.one_shiftLeft, Nat.mod_eq_of_lt hfit]

/-- How often the base delay is doubled. -/
def doublings (attempt : Nat) : Nat := min (max attempt 1 - 1) 31

theorem doublings_lt (attempt : Nat) : doublings attempt < 64 := by
  unfold doublings
  omega

theorem doublings_mono {m n : Nat} (h : m ≤ n) : doublings m ≤ doublings n := by
  unfold doublings
  omega

theorem doublings_succ_le (n : Nat) : doublings (n + 1) ≤ doublings n + 1 := by
  unfold doublings
  omega

theorem toNat_shift (attempt : UInt64) :
    (min (if attempt = 0 then 0 else attempt - 1) 31).toNat = doublings attempt.toNat := by
  rw [toNat_min, doublings]
  split
  · next h => simp [h]
  · next h =>
    have hpos : 1 ≤ attempt.toNat := by simpa [Nat.one_le_iff_ne_zero, ← UInt64.toNat_inj] using h
    have hword : (1 : UInt64) ≤ attempt := UInt64.le_iff_toNat_le.mpr hpos
    rw [UInt64.toNat_sub_of_le _ _ hword, max_eq_left hpos]
    rfl

/-! Delays -/

/-- The largest delay is a word, so a product that is none is cut in any case. -/
theorem toNat_delayFor (b : Backoff) (attempt : UInt64) :
    (b.delayFor attempt).toNat = min b.maxDelayMs.toNat (b.baseDelayMs.toNat * 2 ^ doublings attempt.toNat) := by
  have hshift := toNat_shift attempt
  have hword : b.maxDelayMs.toNat ≤ UInt64.size - 1 := Nat.le_sub_one_of_lt b.maxDelayMs.toNat_lt
  unfold delayFor
  dsimp only
  rw [toNat_min, toNat_cappedMul, toNat_one_shiftLeft (hshift ▸ doublings_lt _), hshift]
  omega

theorem delayFor_mono (h : m ≤ n) : b.delayFor m ≤ b.delayFor n := by
  have hpow : 2 ^ doublings m.toNat ≤ 2 ^ doublings n.toNat :=
    Nat.pow_le_pow_right (by decide) (doublings_mono (UInt64.le_iff_toNat_le.mp h))
  rw [UInt64.le_iff_toNat_le, toNat_delayFor, toNat_delayFor]
  exact min_le_min_left _ (Nat.mul_le_mul_left _ hpow)

theorem toNat_delayFor_succ_le (h : n.toNat + 1 < UInt64.size) :
    (b.delayFor (n + 1)).toNat ≤ 2 * (b.delayFor n).toNat := by
  have hnext : (n + 1).toNat = n.toNat + 1 := by
    rw [UInt64.toNat_add]
    exact Nat.mod_eq_of_lt h
  have hpow : 2 ^ doublings (n.toNat + 1) ≤ 2 ^ (doublings n.toNat + 1) :=
    Nat.pow_le_pow_right (by decide) (doublings_succ_le _)
  have hdouble := Nat.mul_le_mul_left b.baseDelayMs.toNat hpow
  rw [Nat.pow_succ, ← Nat.mul_assoc] at hdouble
  rw [toNat_delayFor, toNat_delayFor, hnext]
  omega

theorem le_delayFor (hmax : b.baseDelayMs ≤ b.maxDelayMs) (n : UInt64) : b.baseDelayMs ≤ b.delayFor n := by
  have hpow : 1 ≤ 2 ^ doublings n.toNat := Nat.one_le_two_pow
  rw [UInt64.le_iff_toNat_le] at hmax ⊢
  rw [toNat_delayFor]
  exact le_min hmax (Nat.le_mul_of_pos_right _ hpow)

theorem delayFor_le (b : Backoff) (n : UInt64) : b.delayFor n ≤ b.maxDelayMs := by
  rw [UInt64.le_iff_toNat_le, toNat_delayFor]
  exact min_le_left _ _

theorem delayFor_pos (h : b.validate = .ok ()) (n : UInt64) : 0 < b.delayFor n := by
  obtain ⟨-, hpos, hmax⟩ := of_validate h
  exact UInt64.lt_of_lt_of_le (UInt64.pos_iff_ne_zero.mpr hpos) (le_delayFor hmax n)

/-- For every policy and attempt, the first and the last word included: a delay is what exact arithmetic makes of it, it grows with
the attempt and at most doubles, and that of a usable policy is positive and between the base delay and the largest. -/
theorem delays_exact_and_bounded (b : Backoff) :
    (∀ attempt : UInt64, (b.delayFor attempt).toNat =
      min b.maxDelayMs.toNat (b.baseDelayMs.toNat * 2 ^ min (max attempt.toNat 1 - 1) 31)) ∧
    (∀ m n : UInt64, m ≤ n → b.delayFor m ≤ b.delayFor n) ∧
    (∀ n : UInt64, n.toNat + 1 < UInt64.size → (b.delayFor (n + 1)).toNat ≤ 2 * (b.delayFor n).toNat) ∧
    (b.validate = .ok () → ∀ n : UInt64, b.baseDelayMs ≤ b.delayFor n ∧ b.delayFor n ≤ b.maxDelayMs ∧ 0 < b.delayFor n) := by
  refine ⟨b.toNat_delayFor, fun m n => delayFor_mono, fun n => toNat_delayFor_succ_le, fun h n => ?_⟩
  exact ⟨le_delayFor (of_validate h).2.2 n, b.delayFor_le n, delayFor_pos h n⟩

/-- The base delay doubled for the twenty-fifth failure is no word any more. -/
def longPauses : Backoff := { baseDelayMs := 1099511627776, maxDelayMs := 18446744073709551615 }

theorem longPauses_delays :
    longPauses.validate = .ok () ∧ (24 : UInt64) ≤ 25 ∧ longPauses.delayFor 24 ≤ longPauses.delayFor 25 ∧
    (longPauses.delayFor 25).toNat = 18446744073709551615 ∧ (longPauses.delayFor (24 + 1)).toNat ≤ 2 * 9223372036854775808 ∧
    0 < longPauses.delayFor 18446744073709551615 := by
  obtain ⟨hexact, hmono, hdouble, hbounds⟩ := delays_exact_and_bounded longPauses
  have hvalid : longPauses.validate = .ok () := rfl
  have hbefore : (longPauses.delayFor 24).toNat = 9223372036854775808 := hexact 24
  exact ⟨hvalid, by decide, hmono 24 25 (by decide), hexact 25, hbefore ▸ hdouble 24 (by decide), (hbounds hvalid _).2.2⟩

end Backoff

theorem Settings.delayFor_one_pos {s : Settings} (h : s.validate = .ok ()) : 0 < s.reconnect.delayFor 1 :=
  Backoff.delayFor_pos (validate_reconnect h) 1

end Roster
