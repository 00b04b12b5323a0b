import Roster.Settings

/-! What usable settings guarantee. -/
namespace Roster

variable {s : Settings} {b : Backoff}

theorem requirePositive_bind {p : PositiveSetting} {value : UInt64} {k : Unit → Except SettingsFault Unit} :
    (requirePositive p value >>= k) = .ok () ↔ value ≠ 0 ∧ k () = .ok () := by
  unfold requirePositive
  split
  · next h =>
    constructor
    · intro hf
      exact nomatch hf
    · intro hk
      exact absurd h hk.1
  · next h =>
    constructor
    · intro hk
      exact ⟨h, hk⟩
    · intro hk
      exact hk.2

theorem Backoff.of_validate (h : b.validate = .ok ()) :
    b.timeoutMs ≠ 0 ∧ b.baseDelayMs ≠ 0 ∧ b.baseDelayMs ≤ b.maxDelayMs := by
  obtain ⟨htimeout, h⟩ := requirePositive_bind.mp h
  obtain ⟨hbase, h⟩ := requirePositive_bind.mp h
  split at h
  · exact nomatch h
  · next hmax => exact ⟨htimeout, hbase, UInt64.not_lt.mp hmax⟩

theorem Settings.validate_reconnect (h : s.validate = .ok ()) : s.reconnect.validate = .ok () := by
  obtain ⟨-, h⟩ := requirePositive_bind.mp h
  obtain ⟨-, h⟩ := requirePositive_bind.mp h
  obtain ⟨-, h⟩ := requirePositive_bind.mp h
  obtain ⟨-, h⟩ := requirePositive_bind.mp h
  obtain ⟨-, h⟩ := requirePositive_bind.mp h
  split at h
  · exact nomatch h
  · exact h

end Roster
