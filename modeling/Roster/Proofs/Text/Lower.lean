import Roster.Text.Lower

/-! Lower case is lower case already: no letter has a lower case that has another one. -/
namespace Roster.Text

/-- What stays as it is in lower case, wherever it stands. -/
def Small (c : Char) : Prop := c ≠ 'Σ' ∧ c ≠ 'İ' ∧ lowerChar c = c

/-! Runs -/

/-- A run as in the table. -/
abbrev Run := Nat × Nat × Nat × Int

namespace Run

def has : Run → Nat → Bool
  | (first, last, step, _), n => first ≤ n && n ≤ last && (n - first) % step == 0

/-- The lower case of the first. -/
def image : Run → Nat
  | (first, _, _, shift) => ((first : Int) + shift).toNat

/-- The lower case of every member is a character. -/
def sound (r : Run) : Bool :=
  decide (0 ≤ (r.1 : Int) + r.2.2.2) &&
    (Nat.blt (r.image + (r.2.1 - r.1)) 0xd800 || (Nat.blt 0xdfff r.image && Nat.blt (r.image + (r.2.1 - r.1)) 0x110000))

/-- The lower case of a run lies off another run, or between its members. -/
def apart (r q : Run) : Bool :=
  Nat.blt (r.image + (r.2.1 - r.1)) q.1 || Nat.blt q.2.1 r.image ||
    (Nat.ble q.1 r.image && Nat.blt 0 ((r.image - q.1) % q.2.2.1) && (Nat.beq (r.2.2.1 % q.2.2.1) 0 || Nat.beq r.1 r.2.1))

/-- The dotted capital, which is not in the table. -/
def dottedRun : Run := (0x130, 0x130, 1, 0)

theorem sound_of_mem : ∀ r ∈ lowerRuns, sound r = true := by decide +kernel

theorem apart_of_mem : ∀ r ∈ lowerRuns, ∀ q ∈ dottedRun :: lowerRuns, apart r q = true := by decide +kernel

variable {r q : Run} {n : Nat}

theorem has_iff : r.has n = true ↔ r.1 ≤ n ∧ n ≤ r.2.1 ∧ r.2.2.1 ∣ n - r.1 := by
  simp [has, and_assoc, Nat.dvd_iff_mod_eq_zero]

theorem not_has_of_apart (h : apart r q = true) (hn : r.has n = true) : q.has (r.image + (n - r.1)) = false := by
  rw [has_iff] at hn
  obtain ⟨hfirst, hlast, hstep⟩ := hn
  rw [← Bool.not_eq_true, has_iff]
  rintro ⟨hlow, hhigh, hdvd⟩
  simp only [apart, Bool.or_eq_true, Bool.and_eq_true, Nat.blt_eq, Nat.ble_eq, Nat.beq_eq] at h
  obtain (hbelow | habove) | ⟨⟨hle, hbetween⟩, hsteps⟩ := h
  · omega
  · omega
  · -- The members of the image are as far from the other run as its first is, up to steps of that run.
    have hmember : q.2.2.1 ∣ n - r.1 := by
      obtain hsteps | hsingle := hsteps
      · exact Nat.dvd_trans (Nat.dvd_of_mod_eq_zero hsteps) hstep
      · rw [show n - r.1 = 0 by omega]
        exact Nat.dvd_zero _
    rw [show r.image + (n - r.1) - q.1 = (r.image - q.1) + (n - r.1) by omega, Nat.dvd_add_left hmember] at hdvd
    exact Nat.ne_of_gt hbetween (Nat.mod_eq_zero_of_dvd hdvd)

theorem toNat_image {c : Char} (hr : r ∈ lowerRuns) (hc : r.has c.toNat = true) :
    (Char.ofNat ((c.toNat : Int) + r.2.2.2).toNat).toNat = r.image + (c.toNat - r.1) := by
  have hsound := sound_of_mem r hr
  obtain ⟨hfirst, hlast, -⟩ := has_iff.mp hc
  simp only [sound, Bool.and_eq_true, Bool.or_eq_true, decide_eq_true_eq, Nat.blt_eq] at hsound
  obtain ⟨hshift, hvalid⟩ := hsound
  have himage : r.image = ((r.1 : Int) + r.2.2.2).toNat := rfl
  have hplace : ((c.toNat : Int) + r.2.2.2).toNat = r.image + (c.toNat - r.1) := by omega
  have hchar : (r.image + (c.toNat - r.1)).isValidChar := by
    simp only [Nat.isValidChar]
    omega
  rw [hplace, Char.ofNat, dif_pos hchar]
  rfl

end Run

/-- Either the letter is in no run, or it is a member of one and has the lower case that goes with its place there. -/
theorem lowerChar_cases (c : Char) :
    ((∀ r ∈ lowerRuns, Run.has r c.toNat = false) ∧ lowerChar c = c) ∨
      ∃ r ∈ lowerRuns, Run.has r c.toNat = true ∧ lowerChar c = Char.ofNat ((c.toNat : Int) + r.2.2.2).toNat := by
  have hfun : (fun (r : Run) => Run.has r c.toNat) =
      fun (first, last, step, _) => first ≤ c.toNat && c.toNat ≤ last && (c.toNat - first) % step == 0 := rfl
  unfold lowerChar
  dsimp only
  rw [← hfun]
  cases hrun : lowerRuns.find? fun r => Run.has r c.toNat with
  | none => exact .inl ⟨fun r hr => Bool.eq_false_iff.mpr (List.find?_eq_none.mp hrun r hr), rfl⟩
  | some r => exact .inr ⟨r, List.mem_of_find?_eq_some hrun, List.find?_some (p := fun r : Run => r.has c.toNat) hrun, rfl⟩

theorem small_of_not_has {c : Char} (h : ∀ q ∈ Run.dottedRun :: lowerRuns, Run.has q c.toNat = false) : Small c := by
  rw [List.forall_mem_cons] at h
  refine ⟨?_, ?_, ?_⟩
  · rintro rfl
    exact absurd (h.2 (0x3a3, 0x3ab, 1, 32) (by decide)) (by decide)
  · rintro rfl
    exact absurd h.1 (by decide)
  · obtain ⟨-, hsame⟩ | ⟨r, hr, hhas, -⟩ := lowerChar_cases c
    · exact hsame
    · exact absurd hhas (by simp [h.2 r hr])

theorem small_lowerChar {c : Char} (hdotted : c ≠ 'İ') : Small (lowerChar c) := by
  obtain ⟨hnone, hsame⟩ | ⟨r, hr, hhas, hlower⟩ := lowerChar_cases c
  · rw [hsame]
    refine small_of_not_has (List.forall_mem_cons.mpr ⟨?_, hnone⟩)
    rw [← Bool.not_eq_true, Run.has_iff]
    rintro ⟨hfirst, hlast, -⟩
    exact hdotted (Char.toNat_inj.mp (Nat.le_antisymm hlast hfirst))
  · have hplace := Run.toNat_image hr hhas
    rw [hlower]
    refine small_of_not_has fun q hq => ?_
    rw [hplace]
    exact Run.not_has_of_apart (Run.apart_of_mem r hr q hq) hhas

/-! Texts -/

theorem small_of_mem_lowerFrom (before cs : List Char) : ∀ c ∈ lowerFrom before cs, Small c := by
  induction cs generalizing before with
  | nil => exact nofun
  | cons c cs ih =>
    refine List.forall_mem_append.mpr ⟨?_, ih (c :: before)⟩
    split
    · split <;> exact List.forall_mem_singleton.mpr (small_of_not_has (by decide +kernel))
    · split
      · exact List.forall_mem_cons.mpr ⟨small_of_not_has (by decide +kernel),
          List.forall_mem_singleton.mpr (small_of_not_has (by decide +kernel))⟩
      · next hdotted => exact List.forall_mem_singleton.mpr (small_lowerChar hdotted)

theorem lowerFrom_of_small {cs : List Char} (h : ∀ c ∈ cs, Small c) (before : List Char) : lowerFrom before cs = cs := by
  induction cs generalizing before with
  | nil => rfl
  | cons c cs ih =>
    rw [List.forall_mem_cons] at h
    obtain ⟨⟨hsigma, hdotted, hlower⟩, hcs⟩ := h
    rw [lowerFrom, if_neg hsigma, if_neg hdotted, hlower, ih hcs]
    rfl

theorem lower_lower (s : String) : lower (lower s) = lower s := by
  have hsmall := small_of_mem_lowerFrom [] s.toList
  rw [lower, lower, String.toList_ofList, lowerFrom_of_small hsmall]

end Roster.Text
