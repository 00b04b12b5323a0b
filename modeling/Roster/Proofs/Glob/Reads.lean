import Roster.Proofs.Glob.Cursor

/-! The comparison of a pattern with a text when every read may fail and the turns are counted: both its loops, turn by turn. No
read is out of range, and the turns come to an end although a star that takes one token more sets both places back. -/
namespace Roster.Glob

variable {α : Type} [DecidableEq α] {star : α} {pattern text : Array α}

inductive Fault
  /-- A read behind the end of the pattern or of the text. -/
  | outOfRange (place : Nat)
  /-- All turns are used up. -/
  | unfinished
  deriving DecidableEq, Repr

/-- What a turn of a loop leads to. -/
inductive Turn
  | on (c : Cursor)
  | done (answer : Bool)
  deriving DecidableEq, Repr

def readAt (xs : Array α) (i : Nat) : Except Fault α :=
  match xs[i]? with
  | some a => .ok a
  | none => .error (.outOfRange i)

/-- Whether the pattern has a star at a place. Behind its end nothing is read. -/
def starAt (star : α) (pattern : Array α) (p : Nat) : Except Fault Bool :=
  if p < pattern.size then return decide ((← readAt pattern p) = star) else return false

/-- Whether the pattern and the text have the same token at their places. Behind the end of the pattern nothing is read. -/
def sameAt (pattern text : Array α) (p l : Nat) : Except Fault Bool :=
  if p < pattern.size then return decide ((← readAt pattern p) = (← readAt text l)) else return false

namespace Cursor

/-- A turn of the first loop while text is left, then of the loop over trailing stars. -/
def turn (star : α) (pattern text : Array α) (c : Cursor) : Except Fault Turn := do
  if c.text < text.size then
    if ← starAt star pattern c.pattern then return .on ⟨c.pattern + 1, c.text, some (c.pattern, c.text)⟩
    if ← sameAt pattern text c.pattern c.text then return .on ⟨c.pattern + 1, c.text + 1, c.star⟩
    match c.star with
    | some (s, l) => return .on ⟨s + 1, l + 1, some (s, l + 1)⟩
    | none => return .done false
  else
    if ← starAt star pattern c.pattern then return .on { c with pattern := c.pattern + 1 }
    return .done (decide (c.pattern = pattern.size))

/-- The cursors that the turns lead to. -/
inductive Reached (star : α) (pattern text : Array α) : Cursor → Prop
  | start : Reached star pattern text start
  | on {c d : Cursor} : Reached star pattern text c → c.turn star pattern text = .ok (.on d) → Reached star pattern text d

end Cursor

/-- Turn after turn, so many at most. -/
def turns (star : α) (pattern text : Array α) : Nat → Cursor → Except Fault Bool
  | 0, _ => .error .unfinished
  | n + 1, c => do
    match ← c.turn star pattern text with
    | .on d => turns star pattern text n d
    | .done answer => return answer

/-! Reads in range -/

omit [DecidableEq α] in
theorem readAt_eq {xs : Array α} {i : Nat} (h : i < xs.size) : readAt xs i = pure xs[i] := by
  simp [readAt, h, pure, Except.pure]

theorem starAt_eq (star : α) (pattern : Array α) (p : Nat) :
    starAt star pattern p = pure (decide (∃ h : p < pattern.size, pattern[p] = star)) := by
  unfold starAt
  split
  · next h => simp [readAt_eq h, h]
  · next h => simp [h]

theorem sameAt_eq (pattern : Array α) (p : Nat) {l : Nat} (hl : l < text.size) :
    sameAt pattern text p l = pure (decide (∃ h : p < pattern.size, pattern[p] = text[l])) := by
  unfold sameAt
  split
  · next h => simp [readAt_eq h, readAt_eq hl, h]
  · next h => simp [h]

/-- Only stars are left of a pattern if its next token is one and only stars are left behind it, or if it is used up. -/
theorem starsFrom_eq {p : Nat} (hp : p ≤ pattern.size) :
    starsFrom star pattern p =
      if ∃ h : p < pattern.size, pattern[p] = star then starsFrom star pattern (p + 1) else decide (p = pattern.size) := by
  unfold starsFrom
  by_cases h : p < pattern.size
  · rw [List.drop_eq_getElem_cons (by simpa using h), List.all_cons, Array.getElem_toList]
    by_cases hstar : pattern[p] = star
    · simp [h, hstar]
    · simp [hstar, h.ne]
  · obtain rfl : p = pattern.size := by omega
    rw [List.drop_eq_nil_of_le (by simp)]
    simp

namespace Cursor

variable {c d : Cursor}

/-- While text is left a turn is a comparison. -/
theorem turn_of_text (h : c.text < text.size) :
    c.turn star pattern text = pure ((c.next? star pattern text h).elim (.done false) .on) := by
  unfold turn next?
  rw [if_pos h, starAt_eq, sameAt_eq pattern c.pattern h]
  by_cases hp : c.pattern < pattern.size
  · by_cases hstar : pattern[c.pattern] = star
    · simp [hp, hstar]
    · by_cases hsame : pattern[c.pattern] = text[c.text]
      · have htext : text[c.text] ≠ star := hsame ▸ hstar
        simp [hp, hsame, htext]
      · cases c.star <;> simp [hp, hstar, hsame]
  · cases c.star <;> simp [hp]

/-- Once the text is used up a turn takes a trailing star, or comes to the answer. -/
theorem turn_of_no_text (h : ¬ c.text < text.size) :
    c.turn star pattern text = pure (if ∃ hp : c.pattern < pattern.size, pattern[c.pattern] = star
      then .on { c with pattern := c.pattern + 1 } else .done (decide (c.pattern = pattern.size))) := by
  unfold turn
  rw [if_neg h, starAt_eq]
  split
  · next hstar => simp [hstar]
  · next hstar => simp [hstar]

/-- A turn that leads on is a comparison or takes a trailing star. -/
theorem of_turn_on (hd : c.turn star pattern text = .ok (.on d)) :
    (∃ h : c.text < text.size, c.next? star pattern text h = some d) ∨
      (¬ c.text < text.size ∧ c.pattern < pattern.size ∧ d = { c with pattern := c.pattern + 1 }) := by
  by_cases h : c.text < text.size
  · have hturn := Except.ok.inj ((turn_of_text h).symm.trans hd)
    cases hn : c.next? star pattern text h with
    | none => simp [hn] at hturn
    | some e =>
      rw [hn, Option.elim_some, Turn.on.injEq] at hturn
      exact .inl ⟨h, hturn ▸ hn⟩
  · have hturn := Except.ok.inj ((turn_of_no_text h).symm.trans hd)
    split at hturn
    · next hstar => exact .inr ⟨h, hstar.1, (Turn.on.inj hturn).symm⟩
    · simp at hturn

theorem Within.turn (hc : c.Within pattern text) (hd : c.turn star pattern text = .ok (.on d)) : d.Within pattern text := by
  obtain ⟨h, hn⟩ | ⟨h, hp, rfl⟩ := of_turn_on hd
  · exact hc.next hn
  · refine ⟨hp, hc.text_le, fun s l hs => ?_⟩
    obtain ⟨hlt, hle⟩ := hc.star_lt s l hs
    exact ⟨Nat.lt_succ_of_lt hlt, hle⟩

theorem Reached.within (hc : Reached star pattern text c) : c.Within pattern text := by
  induction hc with
  | start => exact within_start
  | on _ hd ih => exact ih.turn hd

/-- No turn reads out of range, wherever its cursor stands. -/
theorem exists_turn (star : α) (pattern text : Array α) (c : Cursor) : ∃ t, c.turn star pattern text = .ok t := by
  by_cases h : c.text < text.size
  · exact ⟨_, turn_of_text h⟩
  · exact ⟨_, turn_of_no_text h⟩

theorem rank_turn (hc : c.Within pattern text) (hd : c.turn star pattern text = .ok (.on d)) :
    d.rank pattern.size text.size < c.rank pattern.size text.size := by
  obtain ⟨h, hn⟩ | ⟨h, hp, rfl⟩ := of_turn_on hd
  · exact rank_next hc hn
  · simp only [rank]
    omega

end Cursor

theorem run_of_no_text {fuel : Nat} {c : Cursor} (h : ¬ c.text < text.size) (hfuel : 0 < fuel) :
    run star pattern text fuel c = starsFrom star pattern c.pattern := by
  cases fuel with
  | zero => omega
  | succ fuel => rw [run, dif_neg h]

/-- More turns than the rank come to the answer of the comparison. -/
theorem turns_eq_run {n fuel : Nat} {c : Cursor} (hc : c.Within pattern text) (hn : c.rank pattern.size text.size < n)
    (hfuel : c.rank pattern.size text.size < fuel) : turns star pattern text n c = .ok (run star pattern text fuel c) := by
  induction n generalizing c fuel with
  | zero => omega
  | succ n ih =>
    rw [turns]
    by_cases h : c.text < text.size
    · rw [Cursor.turn_of_text h]
      cases fuel with
      | zero => omega
      | succ fuel =>
        rw [run, dif_pos h]
        cases hd : c.next? star pattern text h with
        | none => rfl
        | some d =>
          have hrank := Cursor.rank_next hc hd
          exact ih (hc.next hd) (by omega) (by omega)
    · have hturn : c.turn star pattern text = _ := Cursor.turn_of_no_text h
      rw [hturn, run_of_no_text h (by omega), starsFrom_eq hc.pattern_le]
      split
      · next hstar =>
        rw [if_pos hstar] at hturn
        have hrank := Cursor.rank_turn hc hturn
        have hleft : run star pattern text fuel { c with pattern := c.pattern + 1 } = starsFrom star pattern (c.pattern + 1) :=
          run_of_no_text h (by omega)
        rw [← hleft]
        exact ih (hc.turn hturn) (by omega) (by omega)
      · rfl

/-- At every cursor a comparison comes to, its places lie within the pattern and the text and the star within what was compared.
The next turn reads in range. If it leads on, it lowers the rank: it goes forward, or meets a star beyond the last one, or lets
the last star take one token more. So after finitely many turns the comparison has its answer. -/
theorem comparison_ends_in_range (pattern text : String) :
    let p := pattern.toUTF8.data
    let t := text.toUTF8.data
    (∀ c, Cursor.Reached 42 p t c →
      (c.pattern ≤ p.size ∧ c.text ≤ t.size ∧ ∀ s l, c.star = some (s, l) → s < c.pattern ∧ l ≤ c.text) ∧
      (∃ turn, c.turn 42 p t = .ok turn) ∧
      ∀ d, c.turn 42 p t = .ok (.on d) → d.rank p.size t.size < c.rank p.size t.size ∧
        ((d.star = c.star ∧ c.pattern < d.pattern ∧ c.text ≤ d.text) ∨
          (d.star = some (c.pattern, c.text) ∧ ∀ s l, c.star = some (s, l) → s < c.pattern) ∨
          ∃ s l, c.star = some (s, l) ∧ d = ⟨s + 1, l + 1, some (s, l + 1)⟩)) ∧
    ∀ n, Cursor.start.rank p.size t.size < n → turns 42 p t n .start = .ok (matchesText pattern text) := by
  intro p t
  refine ⟨fun c hc => ?_, fun n hn => turns_eq_run Cursor.within_start hn (Nat.lt_succ_self _)⟩
  have hwithin := hc.within
  refine ⟨⟨hwithin.pattern_le, hwithin.text_le, hwithin.star_lt⟩, Cursor.exists_turn 42 p t c, fun d hd => ?_⟩
  refine ⟨Cursor.rank_turn hwithin hd, ?_⟩
  obtain ⟨h, hn⟩ | ⟨-, -, rfl⟩ := Cursor.of_turn_on hd
  · obtain ⟨-, -, rfl⟩ | ⟨-, -, -, rfl⟩ | ⟨s, l, hs, -, rfl⟩ := Cursor.of_next? hn
    · exact .inr (.inl ⟨rfl, fun s l hs => (hwithin.star_lt s l hs).1⟩)
    · exact .inl ⟨rfl, by dsimp only; omega, by dsimp only; omega⟩
    · exact .inr (.inr ⟨s, l, hs, rfl⟩)
  · exact .inl ⟨rfl, by dsimp only; omega, by dsimp only; omega⟩

/-- The first star is set back to take an `a`, and a second star is met after that. -/
theorem set_back_before_later_star :
    let p := "*ab*c".toUTF8.data
    let t := "aabxc".toUTF8.data
    let c : Cursor := ⟨2, 1, some (0, 0)⟩
    let d : Cursor := ⟨1, 1, some (0, 1)⟩
    Cursor.Reached 42 p t c ∧ c.turn 42 p t = .ok (.on d) ∧ d.rank p.size t.size < c.rank p.size t.size ∧
      Cursor.Reached 42 p t ⟨4, 3, some (3, 3)⟩ ∧ turns 42 p t 600 .start = .ok true := by
  intro p t c d
  have hc : Cursor.Reached 42 p t c := (Cursor.Reached.start.on (d := ⟨1, 0, some (0, 0)⟩) rfl).on rfl
  have hturn : c.turn 42 p t = .ok (.on d) := rfl
  obtain ⟨hreached, hturns⟩ := comparison_ends_in_range "*ab*c" "aabxc"
  obtain ⟨-, -, hfalls⟩ := hreached c hc
  have hlater : Cursor.Reached 42 p t ⟨4, 3, some (3, 3)⟩ :=
    (((hc.on hturn).on (d := ⟨2, 2, some (0, 1)⟩) rfl).on (d := ⟨3, 3, some (0, 1)⟩) rfl).on rfl
  exact ⟨hc, hturn, (hfalls d hturn).1, hlater, hturns 600 (by decide)⟩

end Roster.Glob
