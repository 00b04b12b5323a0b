import Mathlib.Data.Option.Basic
import Roster.Sources.Path
import Roster.Text.Lower

/-! Key paths are read as they were put together: from names of the characters a path takes, and indices. Names are kept
in lower case. -/
namespace Roster.Sources

/-! Names -/

/-- A name in the form in which keys are kept: what a path takes as a name, without capitals. -/
def Plain (name : String) : Prop :=
  name.toList ≠ [] ∧ ∀ c ∈ name.toList, Path.isNameChar c = true ∧ c.isUpper = false

instance (name : String) : Decidable (Plain name) :=
  decidable_of_iff ((!name.toList.isEmpty && name.toList.all fun c => Path.isNameChar c && !c.isUpper) = true) (by simp [Plain])

theorem lt_of_isNameChar {c : Char} (h : Path.isNameChar c = true) : c.toNat < 128 := by
  delta Path.isNameChar Char.isAlphanum Char.isAlpha Char.isUpper Char.isLower Char.isDigit at h
  simp only [Bool.or_eq_true, Bool.and_eq_true, decide_eq_true_eq, ge_iff_le, UInt32.le_iff_toNat_le] at h
  change (((((65 ≤ c.toNat ∧ c.toNat ≤ 90) ∨ (97 ≤ c.toNat ∧ c.toNat ≤ 122)) ∨ (48 ≤ c.toNat ∧ c.toNat ≤ 57)) ∨ c = '_') ∨
    c = ' ') ∨ c = '-' at h
  rcases h with ((h | rfl) | rfl) | rfl
  · omega
  · decide
  · decide
  · decide

/-- Lower case of the characters of names, all of which are among the first 128. -/
theorem lowerChar_ofNat : ∀ n < 128, Path.isNameChar (Char.ofNat n) = true →
    Path.isNameChar (Text.lowerChar (Char.ofNat n)) = true ∧ (Text.lowerChar (Char.ofNat n)).isUpper = false ∧
      ((Char.ofNat n).isUpper = false → Text.lowerChar (Char.ofNat n) = Char.ofNat n) := by
  decide +kernel

theorem lowerChar_of_isNameChar {c : Char} (h : Path.isNameChar c = true) :
    Path.isNameChar (Text.lowerChar c) = true ∧ (Text.lowerChar c).isUpper = false ∧
      (c.isUpper = false → Text.lowerChar c = c) := by
  have hchar := lowerChar_ofNat c.toNat (lt_of_isNameChar h)
  rw [Char.ofNat_toNat] at hchar
  exact hchar h

/-- No character of a name depends on what is around it. -/
theorem lowerFrom_of_isNameChar {cs : List Char} (h : ∀ c ∈ cs, Path.isNameChar c = true) (before : List Char) :
    Text.lowerFrom before cs = cs.map Text.lowerChar := by
  induction cs generalizing before with
  | nil => rfl
  | cons c cs ih =>
    have hlt := lt_of_isNameChar (h c List.mem_cons_self)
    have hsigma : c ≠ 'Σ' := by rintro rfl; exact absurd hlt (by decide)
    have hdotted : c ≠ 'İ' := by rintro rfl; exact absurd hlt (by decide)
    rw [Text.lowerFrom, if_neg hsigma, if_neg hdotted, ih (fun d hd => h d (List.mem_cons_of_mem c hd))]
    rfl

theorem toList_lower {s : String} (h : ∀ c ∈ s.toList, Path.isNameChar c = true) :
    (Text.lower s).toList = s.toList.map Text.lowerChar := by
  rw [Text.lower, String.toList_ofList, lowerFrom_of_isNameChar h]

theorem Plain.lower {name : String} (h : Plain name) : Text.lower name = name := by
  apply String.toList_inj.mp
  rw [toList_lower fun c hc => (h.2 c hc).1]
  exact (List.map_congr_left fun c hc => (lowerChar_of_isNameChar (h.2 c hc).1).2.2 (h.2 c hc).2).trans (List.map_id _)

theorem plain_lower {name : String} (hne : name.toList ≠ []) (h : ∀ c ∈ name.toList, Path.isNameChar c = true) :
    Plain (Text.lower name) := by
  rw [Plain, toList_lower h]
  refine ⟨by simpa using hne, List.forall_mem_map.mpr fun c hc => ?_⟩
  have hchar := lowerChar_of_isNameChar (h c hc)
  exact ⟨hchar.1, hchar.2.1⟩

/-! Paths -/

namespace Path

theorem of_name? {cs rest : List Char} {name : String} (h : name? cs = some (name, rest)) :
    name.toList ≠ [] ∧ ∀ c ∈ name.toList, isNameChar c = true := by
  unfold name? at h
  dsimp only at h
  split at h
  · exact nomatch h
  · next hne =>
    obtain ⟨rfl, -⟩ := Prod.mk.inj (Option.some.inj h)
    rw [String.toList_ofList]
    exact ⟨by simpa using hne, List.all_eq_true.mp List.all_takeWhile⟩

/-- What cannot go on a name. -/
def Ended (cs : List Char) : Prop := ∀ c ∈ cs.head?, isNameChar c = false

theorem name?_append {name : String} (h : Plain name) {rest : List Char} (hrest : Ended rest) :
    name? (name.toList ++ rest) = some (name, rest) := by
  have hall : ∀ c ∈ name.toList, isNameChar c = true := fun c hc => (h.2 c hc).1
  have htake : rest.takeWhile isNameChar = [] := by
    cases rest with
    | nil => rfl
    | cons c rest => exact List.takeWhile_cons_of_neg (by simp [hrest c rfl])
  have hdrop : rest.dropWhile isNameChar = rest := by
    cases rest with
    | nil => rfl
    | cons c rest => exact List.dropWhile_cons_of_neg (by simp [hrest c rfl])
  unfold name?
  rw [List.takeWhile_append_of_pos hall, List.dropWhile_append_of_pos hall, htake, hdrop]
  simp [h.1]

/-- How a step is put on a path. -/
def stepText : Step → List Char
  | .child key => '.' :: key.toList
  | .element index => '[' :: Nat.toDigits 10 index.toNat ++ [']']

/-- Steps of a kind that is ever put on a path. -/
def Sound : Step → Prop
  | .child key => Plain key
  | .element index => 0 ≤ index ∧ index ≤ Int64.maxValue.toInt

/-- A text that was put together from a name and steps. -/
def Spelled (s : String) (head : String) (steps : List Step) : Prop :=
  Plain head ∧ (∀ st ∈ steps, Sound st) ∧ s.toList = head.toList ++ steps.flatMap stepText

theorem ended_flatMap (steps : List Step) : Ended (steps.flatMap stepText) := by
  cases steps with
  | nil => exact nofun
  | cons st steps =>
    cases st with
    | child key => rintro c ⟨⟩; rfl
    | element index => rintro c ⟨⟩; rfl

theorem isDigit_of_mem_toDigits (n : Nat) : ∀ c ∈ Nat.toDigits 10 n, c.isDigit = true :=
  fun c hc => Nat.isDigit_of_mem_toDigits (by omega) (by omega) hc

theorem natural?_toDigits (n : Nat) : Number.natural? (Nat.toDigits 10 n) = some n := by
  have hall : (Nat.toDigits 10 n).all Char.isDigit = true := List.all_eq_true.mpr (isDigit_of_mem_toDigits n)
  rw [Number.natural?, hall]
  simp only [List.isEmpty_eq_false_iff.mpr Nat.toDigits_ne_nil, Bool.not_true, Bool.or_self, Bool.false_eq_true, if_false]
  exact congrArg some Nat.ofDigitChars_ten_toDigits

/-- The first of the digits of a number is no sign and no blank. -/
theorem exists_toDigits_eq_cons (n : Nat) : ∃ d ds, Nat.toDigits 10 n = d :: ds ∧ d.isDigit = true := by
  obtain ⟨d, ds, hds⟩ := List.exists_cons_of_ne_nil (Nat.toDigits_ne_nil (n := n) (b := 10))
  exact ⟨d, ds, hds, isDigit_of_mem_toDigits n d (hds ▸ List.mem_cons_self)⟩

theorem fitsSigned_natCast {n : Nat} (h : (n : Int) ≤ Int64.maxValue.toInt) : Number.fitsSigned (n : Int) = true := by
  have hmin : Int64.minValue.toInt ≤ 0 := by decide
  simp only [Number.fitsSigned, Bool.and_eq_true, decide_eq_true_eq]
  exact ⟨Int.le_trans hmin (Int.natCast_nonneg n), h⟩

theorem index?_toDigits {n : Nat} (h : (n : Int) ≤ Int64.maxValue.toInt) (rest : List Char) :
    index? (Nat.toDigits 10 n ++ ']' :: rest) = some ((n : Int), rest) := by
  have hall := isDigit_of_mem_toDigits n
  have htake : (Nat.toDigits 10 n ++ ']' :: rest).takeWhile Char.isDigit = Nat.toDigits 10 n := by
    rw [List.takeWhile_append_of_pos hall, List.takeWhile_cons_of_neg (by decide), List.append_nil]
  have hdrop : (Nat.toDigits 10 n ++ ']' :: rest).dropWhile Char.isDigit = ']' :: rest := by
    rw [List.dropWhile_append_of_pos hall, List.dropWhile_cons_of_neg (by decide)]
  have hfits : (guard (Number.fitsSigned n) : Option Unit) = some () := if_pos (fitsSigned_natCast h)
  have hnatural := natural?_toDigits n
  obtain ⟨d, ds, hds, hdigit⟩ := exists_toDigits_eq_cons n
  have hspace : isSpace d = false := by
    rw [Bool.eq_false_iff]
    intro hspace
    simp only [isSpace, Bool.or_eq_true, decide_eq_true_eq] at hspace
    rcases hspace with ((rfl | rfl) | rfl) | rfl <;> exact absurd hdigit (by decide)
  have hminus : d ≠ '-' := by rintro rfl; exact absurd hdigit (by decide)
  have hkept : (Nat.toDigits 10 n ++ ']' :: rest).dropWhile isSpace = Nat.toDigits 10 n ++ ']' :: rest := by
    rw [hds, List.cons_append, List.dropWhile_cons_of_neg (by simp [hspace])]
  have hclosed : (']' :: rest).dropWhile isSpace = ']' :: rest := List.dropWhile_cons_of_neg (by decide)
  unfold index?
  rw [hkept]
  dsimp only
  split
  · next more heq =>
    rw [hds, List.cons_append] at heq
    exact absurd (List.cons.inj heq).1 hminus
  · rw [htake, hdrop, hnatural, hclosed]
    exact congrArg (Option.bind · _) hfits

theorem steps?_flatMap {steps : List Step} (h : ∀ st ∈ steps, Sound st) (fuel : Nat)
    (hfuel : (steps.flatMap stepText).length ≤ fuel) : steps? fuel (steps.flatMap stepText) = some steps := by
  induction steps generalizing fuel with
  | nil => cases fuel <;> rfl
  | cons st steps ih =>
    have hst := h st List.mem_cons_self
    have ih := ih fun t ht => h t (List.mem_cons_of_mem st ht)
    rw [List.flatMap_cons] at hfuel ⊢
    rw [List.length_append] at hfuel
    cases st with
    | child key =>
      simp only [stepText, List.length_cons] at hfuel
      obtain ⟨fuel, rfl⟩ : ∃ less, fuel = less + 1 := Nat.exists_eq_add_one.mpr (by omega)
      have hname := name?_append hst (ended_flatMap steps)
      simp [stepText, steps?, hname, ih fuel (by omega)]
    | element index =>
      simp only [stepText, List.length_append, List.length_cons] at hfuel
      obtain ⟨fuel, rfl⟩ : ∃ less, fuel = less + 1 := Nat.exists_eq_add_one.mpr (by omega)
      have hindex := index?_toDigits (n := index.toNat) (by rw [Int.toNat_of_nonneg hst.1]; exact hst.2)
        (steps.flatMap stepText)
      rw [Int.toNat_of_nonneg hst.1] at hindex
      simp [stepText, steps?, hindex, ih fuel (by omega)]

theorem Spelled.parse? {s head : String} {steps : List Step} (h : Spelled s head steps) : parse? s = some ⟨head, steps⟩ := by
  obtain ⟨hhead, hsteps, hs⟩ := h
  unfold Path.parse?
  rw [hs, name?_append hhead (ended_flatMap steps)]
  simp [steps?_flatMap hsteps]

variable {s head key : String} {steps : List Step}

theorem spelled_self (h : Plain key) : Spelled key key [] := ⟨h, nofun, (List.append_nil _).symm⟩

theorem Spelled.child (h : Spelled s head steps) (hkey : Plain key) :
    Spelled (s ++ "." ++ key) head (steps ++ [.child key]) := by
  refine ⟨h.1, List.forall_mem_append.mpr ⟨h.2.1, List.forall_mem_singleton.mpr hkey⟩, ?_⟩
  simp [h.2.2, stepText]

theorem Spelled.element (h : Spelled s head steps) {index : Nat} (hindex : (index : Int) ≤ Int64.maxValue.toInt) :
    Spelled (s ++ s!"[{index}]") head (steps ++ [.element index]) := by
  have hsound : Sound (.element index) := ⟨Int.natCast_nonneg index, hindex⟩
  refine ⟨h.1, List.forall_mem_append.mpr ⟨h.2.1, List.forall_mem_singleton.mpr hsound⟩, ?_⟩
  simp [h.2.2, stepText]
  rfl

theorem Spelled.isEmpty_eq_false (h : Spelled s head steps) : s.isEmpty = false := by
  have hne : s.toList ≠ [] := by
    rw [h.2.2]
    simp [h.1.1]
  simpa using hne

end Path

end Roster.Sources
