import Roster.Proofs.Glob.Cursor

/-! A pattern accepts exactly the texts it generates. It is enough to remember the last star: what stands between two stars
may be taken where it first occurs, since the later star makes up for any text in between. -/
namespace Roster.Glob

variable {α : Type} {star : α}

/-! Texts of a pattern -/

theorem generates_literal_iff {a : α} {p l : List α} (ha : a ≠ star) :
    Generates star (a :: p) l ↔ ∃ rest, l = a :: rest ∧ Generates star p rest := by
  constructor
  · intro h
    cases h with
    | literal _ h => exact ⟨_, rfl, h⟩
    | star run h => exact absurd rfl ha
  · rintro ⟨rest, rfl, h⟩
    exact .literal ha h

theorem generates_star_iff {p l : List α} :
    Generates star (star :: p) l ↔ ∃ run rest, l = run ++ rest ∧ Generates star p rest := by
  constructor
  · intro h
    cases h with
    | literal ha h => exact absurd rfl ha
    | star run h => exact ⟨run, _, rfl, h⟩
  · rintro ⟨run, rest, rfl, h⟩
    exact .star run h

theorem generates_nil_iff {l : List α} : Generates star [] l ↔ l = [] := by
  constructor
  · intro h
    cases h
    rfl
  · rintro rfl
    exact .nil

/-- The empty text is that of a pattern of stars. -/
theorem generates_empty_iff {p : List α} : Generates star p [] ↔ ∀ a ∈ p, a = star := by
  induction p with
  | nil => simp [generates_nil_iff]
  | cons a p ih =>
    by_cases ha : a = star
    · subst ha
      simp [generates_star_iff, ih]
    · simp [generates_literal_iff ha, ha]

/-- A star takes any text in front as well. -/
theorem Generates.prepend {p l : List α} (h : Generates star (star :: p) l) (run : List α) :
    Generates star (star :: p) (run ++ l) := by
  obtain ⟨first, rest, rfl, hrest⟩ := generates_star_iff.mp h
  rw [← List.append_assoc]
  exact .star (run ++ first) hrest

/-- Tokens that are no stars stand for themselves. -/
theorem generates_append_iff {segment p l : List α} (hs : ∀ a ∈ segment, a ≠ star) :
    Generates star (segment ++ p) l ↔ ∃ rest, l = segment ++ rest ∧ Generates star p rest := by
  induction segment generalizing l with
  | nil => simp
  | cons a segment ih =>
    have ih {l : List α} := ih (l := l) fun b hb => hs b (List.mem_cons_of_mem a hb)
    rw [List.cons_append, generates_literal_iff (hs a List.mem_cons_self)]
    constructor
    · rintro ⟨tail, rfl, htail⟩
      obtain ⟨rest, rfl, hrest⟩ := ih.mp htail
      exact ⟨rest, rfl, hrest⟩
    · rintro ⟨rest, rfl, hrest⟩
      exact ⟨segment ++ rest, rfl, ih.mpr ⟨rest, rfl, hrest⟩⟩

/-- Between two stars the first occurrence will do: what the first star would take more, the second can. -/
theorem generates_first_iff {segment p rest : List α} (hs : ∀ a ∈ segment, a ≠ star) :
    Generates star (star :: (segment ++ star :: p)) (segment ++ rest) ↔ Generates star (star :: p) rest := by
  constructor
  · intro h
    obtain ⟨run, tail, heq, htail⟩ := generates_star_iff.mp h
    obtain ⟨later, rfl, hlater⟩ := (generates_append_iff hs).mp htail
    have hfirst : segment <+: segment ++ rest := List.prefix_append _ _
    have hsecond : run ++ segment <+: segment ++ rest := ⟨later, by rw [heq, List.append_assoc]⟩
    obtain ⟨between, hbetween⟩ := List.prefix_of_prefix_length_le hfirst hsecond (by simp)
    have hrest : rest = between ++ later := by
      rw [← List.append_assoc, ← hbetween, List.append_assoc] at heq
      exact List.append_cancel_left heq
    rw [hrest]
    exact hlater.prepend between
  · intro h
    exact .star [] ((generates_append_iff hs).mpr ⟨rest, rfl, h⟩)

/-- A star takes nothing, or the first token of the text. -/
theorem generates_star_cons_iff {p l : List α} {a : α} :
    Generates star (star :: p) (a :: l) ↔ Generates star p (a :: l) ∨ Generates star (star :: p) l := by
  constructor
  · intro h
    obtain ⟨run, rest, heq, hrest⟩ := generates_star_iff.mp h
    cases run with
    | nil =>
      rw [List.nil_append] at heq
      exact .inl (heq ▸ hrest)
    | cons b run =>
      obtain ⟨rfl, rfl⟩ := List.cons.inj heq
      exact .inr (.star run hrest)
  · rintro (h | h)
    · exact .star [] h
    · exact h.prepend [a]

/-! What a cursor stands for -/

namespace Cursor

variable {pattern text : Array α} {c d : Cursor}

/-- What is left to decide at a cursor. After a star it is the rest of the pattern from that star on. -/
def Open (star : α) (pattern text : Array α) (c : Cursor) : Prop :=
  match c.star with
  | none => Generates star (pattern.toList.drop c.pattern) (text.toList.drop c.text)
  | some (s, l) => Generates star (pattern.toList.drop s) (text.toList.drop l)

/-- What was compared since the last star are tokens that are no stars and that the text has at this place. -/
def Aligned (star : α) (pattern text : Array α) (c : Cursor) : Prop :=
  ∀ s l, c.star = some (s, l) → ∃ segment, (∀ a ∈ segment, a ≠ star) ∧
    pattern.toList.drop s = star :: (segment ++ pattern.toList.drop c.pattern) ∧
    text.toList.drop l = segment ++ text.toList.drop c.text

theorem drop_toList {xs : Array α} {i : Nat} (h : i < xs.size) : xs.toList.drop i = xs[i] :: xs.toList.drop (i + 1) := by
  rw [List.drop_eq_getElem_cons (by simpa using h), Array.getElem_toList]

/-- Where a cursor is stuck the rest of the pattern does not generate the rest of the text. -/
theorem Stuck.not_generates {h : c.text < text.size} (hstuck : c.Stuck star pattern text h) :
    ¬ Generates star (pattern.toList.drop c.pattern) (text.toList.drop c.text) := by
  rw [drop_toList h]
  by_cases hp : c.pattern < pattern.size
  · obtain ⟨hstar, hne⟩ := hstuck hp
    rw [drop_toList hp, generates_literal_iff hstar]
    rintro ⟨rest, heq, -⟩
    exact hne (List.cons.inj heq).1.symm
  · rw [List.drop_eq_nil_of_le (by simpa using hp), generates_nil_iff]
    exact List.cons_ne_nil _ _

variable [DecidableEq α]

/-- A comparison keeps to what the text has, and leaves the same to decide. -/
theorem open_next (ha : c.Aligned star pattern text) (hc : c.Within pattern text) {h : c.text < text.size}
    (hd : c.next? star pattern text h = some d) :
    d.Aligned star pattern text ∧ (d.Open star pattern text ↔ c.Open star pattern text) := by
  obtain ⟨hp, hstar, rfl⟩ | ⟨hp, hstar, heq, rfl⟩ | ⟨s, l, hs, hstuck, rfl⟩ := of_next? hd
  · have hpattern : pattern.toList.drop c.pattern = star :: pattern.toList.drop (c.pattern + 1) := by
      rw [drop_toList hp, hstar]
    constructor
    · rintro s l ⟨⟩
      exact ⟨[], nofun, hpattern, rfl⟩
    · cases hs : c.star with
      | none => simp only [Open, hs]
      | some sl =>
        obtain ⟨s, l⟩ := sl
        obtain ⟨segment, hsegment, hbefore, htext⟩ := ha s l hs
        simp only [Open, hs]
        rw [hbefore, htext, hpattern]
        exact (generates_first_iff hsegment).symm
  · have hpattern := drop_toList hp
    have htext := drop_toList h
    constructor
    · intro s l hs
      obtain ⟨segment, hsegment, hbefore, hmatched⟩ := ha s l hs
      refine ⟨segment ++ [pattern[c.pattern]], ?_, ?_, ?_⟩
      · simpa [or_imp, forall_and] using ⟨hsegment, hstar⟩
      · rw [hbefore, hpattern, List.append_assoc]
        rfl
      · rw [hmatched, htext, heq, List.append_assoc]
        rfl
    · cases hs : c.star with
      | none =>
        simp only [Open, hs]
        rw [hpattern, htext, generates_literal_iff hstar, heq]
        simp
      | some sl => simp only [Open, hs]
  · have hl : l < text.size := Nat.lt_of_le_of_lt (hc.star_lt s l hs).2 h
    obtain ⟨segment, hsegment, hbefore, htext⟩ := ha s l hs
    have hrest : pattern.toList.drop (s + 1) = segment ++ pattern.toList.drop c.pattern := by
      rw [← List.drop_drop, hbefore]
      rfl
    have hfail : ¬ Generates star (segment ++ pattern.toList.drop c.pattern) (text.toList.drop l) := by
      rw [htext, generates_append_iff hsegment]
      rintro ⟨rest, heq, hrest⟩
      exact hstuck.not_generates (List.append_cancel_left heq ▸ hrest)
    constructor
    · rintro s' l' ⟨⟩
      exact ⟨[], nofun, by rw [hbefore, hrest]; rfl, rfl⟩
    · simp only [Open, hs]
      rw [drop_toList hl] at hfail ⊢
      rw [hbefore, generates_star_cons_iff]
      exact (or_iff_right hfail).symm

theorem not_open_of_next?_eq_none {h : c.text < text.size} (hd : c.next? star pattern text h = none) :
    ¬ c.Open star pattern text := by
  obtain ⟨hs, hstuck⟩ := of_next?_eq_none hd
  simp only [Open, hs]
  exact hstuck.not_generates

/-- When the text is used up, what is left of the pattern has to be stars. -/
theorem starsFrom_iff_open (ha : c.Aligned star pattern text) (h : ¬ c.text < text.size) :
    starsFrom star pattern c.pattern = true ↔ c.Open star pattern text := by
  have htext : text.toList.drop c.text = [] := List.drop_eq_nil_of_le (by simpa using h)
  have hstars : starsFrom star pattern c.pattern = true ↔ Generates star (pattern.toList.drop c.pattern) [] := by
    rw [generates_empty_iff, starsFrom]
    simp
  rw [hstars]
  cases hs : c.star with
  | none => simp only [Open, hs, htext]
  | some sl =>
    obtain ⟨s, l⟩ := sl
    obtain ⟨segment, hsegment, hbefore, hmatched⟩ := ha s l hs
    simp only [Open, hs]
    rw [hbefore, hmatched, htext, List.append_nil]
    constructor
    · intro hrest
      exact .star [] ((generates_append_iff hsegment).mpr ⟨[], by simp, hrest⟩)
    · intro hall
      obtain ⟨run, tail, heq, htail⟩ := generates_star_iff.mp hall
      obtain ⟨rest, rfl, hrest⟩ := (generates_append_iff hsegment).mp htail
      have hlength := congrArg List.length heq
      simp only [List.length_append] at hlength
      have hempty : rest = [] := List.eq_nil_of_length_eq_zero (by omega)
      exact hempty ▸ hrest

end Cursor

variable [DecidableEq α] {pattern text : Array α}

/-- As long as the fuel exceeds the rank, a run decides what is left at its cursor. -/
theorem run_iff_open {fuel : Nat} {c : Cursor} (hc : c.Within pattern text) (ha : c.Aligned star pattern text)
    (hfuel : c.rank pattern.size text.size < fuel) : run star pattern text fuel c = true ↔ c.Open star pattern text := by
  induction fuel generalizing c with
  | zero => exact absurd hfuel (Nat.not_lt_zero _)
  | succ fuel ih =>
    rw [run]
    split
    · next h =>
      cases hd : c.next? star pattern text h with
      | some d =>
        obtain ⟨had, hopen⟩ := Cursor.open_next ha hc hd
        have hrank := Cursor.rank_next hc hd
        exact (ih (hc.next hd) had (by omega)).trans hopen
      | none => simp [Cursor.not_open_of_next?_eq_none hd]
    · next h => exact Cursor.starsFrom_iff_open ha h

theorem accepts_iff_generates : accepts star pattern text = true ↔ Generates star pattern.toList text.toList :=
  run_iff_open Cursor.within_start nofun (Nat.lt_succ_self _)

/-- A text is accepted exactly if each star of the pattern can be replaced, on its own, by some bytes that make it the
text. -/
theorem matchesText_iff_generates (pattern text : String) :
    matchesText pattern text = true ↔ Generates 42 pattern.toUTF8.data.toList text.toUTF8.data.toList :=
  accepts_iff_generates

example : matchesText "*aab*" "aaab" = true := rfl

end Roster.Glob
