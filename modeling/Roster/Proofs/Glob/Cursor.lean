import Mathlib.Tactic.Ring
import Roster.Glob

/-! The cursor of a comparison stays within the pattern and the text, and its rank falls with every comparison, although a
star that takes one token more sets both places back. -/
namespace Roster.Glob.Cursor

variable {α : Type} {star : α} {pattern text : Array α} {c d : Cursor}

/-- The places of a cursor lie within the pattern and the text, and the last star behind them. -/
structure Within (pattern text : Array α) (c : Cursor) : Prop where
  pattern_le : c.pattern ≤ pattern.size
  text_le : c.text ≤ text.size
  star_lt : ∀ s l, c.star = some (s, l) → s < c.pattern ∧ l ≤ c.text

/-- The token at the cursor is neither a star nor the next one of the text, or the pattern is used up. -/
def Stuck (star : α) (pattern text : Array α) (c : Cursor) (h : c.text < text.size) : Prop :=
  ∀ hp : c.pattern < pattern.size, pattern[c.pattern] ≠ star ∧ pattern[c.pattern] ≠ text[c.text]

theorem within_start : Within pattern text start := ⟨Nat.zero_le _, Nat.zero_le _, nofun⟩

variable [DecidableEq α]

/-- What one comparison can do. -/
theorem of_next? {h : c.text < text.size} (hd : c.next? star pattern text h = some d) :
    (∃ hp : c.pattern < pattern.size, pattern[c.pattern] = star ∧
        d = ⟨c.pattern + 1, c.text, some (c.pattern, c.text)⟩) ∨
      (∃ hp : c.pattern < pattern.size, pattern[c.pattern] ≠ star ∧ pattern[c.pattern] = text[c.text] ∧
        d = ⟨c.pattern + 1, c.text + 1, c.star⟩) ∨
      (∃ s l, c.star = some (s, l) ∧ c.Stuck star pattern text h ∧ d = ⟨s + 1, l + 1, some (s, l + 1)⟩) := by
  have hback (hstuck : c.Stuck star pattern text h)
      (hd : (c.star.map fun s => (⟨s.1 + 1, s.2 + 1, some (s.1, s.2 + 1)⟩ : Cursor)) = some d) :
      ∃ s l, c.star = some (s, l) ∧ c.Stuck star pattern text h ∧ d = ⟨s + 1, l + 1, some (s, l + 1)⟩ := by
    obtain ⟨⟨s, l⟩, hs, rfl⟩ := Option.map_eq_some_iff.mp hd
    exact ⟨s, l, hs, hstuck, rfl⟩
  unfold next? at hd
  split at hd
  · next hp =>
    split at hd
    · next hstar => exact .inl ⟨hp, hstar, (Option.some.inj hd).symm⟩
    · next hstar =>
      split at hd
      · next heq => exact .inr (.inl ⟨hp, hstar, heq, (Option.some.inj hd).symm⟩)
      · next hne => exact .inr (.inr (hback (fun _ => ⟨hstar, hne⟩) hd))
  · next hp => exact .inr (.inr (hback (fun hlt => absurd hlt hp) hd))

/-- A comparison ends only where no star was met before. -/
theorem of_next?_eq_none {h : c.text < text.size} (hd : c.next? star pattern text h = none) :
    c.star = none ∧ c.Stuck star pattern text h := by
  unfold next? at hd
  split at hd
  · next hp =>
    split at hd
    · exact nomatch hd
    · next hstar =>
      split at hd
      · exact nomatch hd
      · next hne => exact ⟨Option.map_eq_none_iff.mp hd, fun _ => ⟨hstar, hne⟩⟩
  · next hp => exact ⟨Option.map_eq_none_iff.mp hd, fun hlt => absurd hlt hp⟩

theorem Within.next (hc : c.Within pattern text) {h : c.text < text.size} (hd : c.next? star pattern text h = some d) :
    d.Within pattern text := by
  obtain ⟨hp, -, rfl⟩ | ⟨hp, -, -, rfl⟩ | ⟨s, l, hs, -, rfl⟩ := of_next? hd
  · refine ⟨hp, hc.text_le, ?_⟩
    rintro s l ⟨⟩
    exact ⟨Nat.lt_succ_self _, Nat.le_refl _⟩
  · refine ⟨hp, h, fun s l hs => ?_⟩
    obtain ⟨hlt, hle⟩ := hc.star_lt s l hs
    exact ⟨Nat.lt_succ_of_lt hlt, Nat.le_succ_of_le hle⟩
  · obtain ⟨hlt, hle⟩ := hc.star_lt s l hs
    refine ⟨hlt.trans_le hc.pattern_le, Nat.lt_of_le_of_lt hle h, ?_⟩
    rintro s' l' ⟨⟩
    exact ⟨Nat.lt_succ_self _, Nat.le_refl _⟩

/-- Two digits compare by the first, then by the second. -/
theorem digits_lt {a b a' b' base : Nat} (hb : b' < base) (h : a' < a ∨ (a' = a ∧ b' < b)) :
    a' * base + b' < a * base + b := by
  obtain hlt | ⟨rfl, hlt⟩ := h
  · calc a' * base + b' < a' * base + base := Nat.add_lt_add_left hb _
      _ = (a' + 1) * base := by ring
      _ ≤ a * base := Nat.mul_le_mul_right base hlt
      _ ≤ a * base + b := Nat.le_add_right _ _
  · exact Nat.add_lt_add_left hlt _

/-- Every comparison lowers the rank: a star met lies beyond the last one, a star that takes a token more reaches further,
and otherwise the comparison moves on. -/
theorem rank_next (hc : c.Within pattern text) {h : c.text < text.size} (hd : c.next? star pattern text h = some d) :
    d.rank pattern.size text.size < c.rank pattern.size text.size := by
  have hplain : (pattern.size - d.pattern) + (text.size - d.text) < pattern.size + text.size + 1 := by omega
  obtain ⟨hp, -, rfl⟩ | ⟨hp, -, -, rfl⟩ | ⟨s, l, hs, -, rfl⟩ := of_next? hd
  · refine digits_lt hplain (.inl (digits_lt (by dsimp only; omega) (.inl ?_)))
    cases hs : c.star with
    | none => dsimp only; omega
    | some s =>
      have hlt := (hc.star_lt s.1 s.2 hs).1
      dsimp only
      omega
  · exact digits_lt hplain (.inr ⟨rfl, by dsimp only; omega⟩)
  · have hle := (hc.star_lt s l hs).2
    have hreach : text.size - (l + 1) < text.size - l := by omega
    refine digits_lt hplain (.inl ?_)
    rw [hs]
    exact digits_lt (by dsimp only; omega) (.inr ⟨rfl, hreach⟩)

end Roster.Glob.Cursor
