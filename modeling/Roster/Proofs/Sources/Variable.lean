import Roster.Proofs.Sources.Name
import Roster.Sources.Environment

/-! The name of a variable, made of the names of a path in capitals, leads back to that path. -/
namespace Roster.Sources

/-- Capitals of the characters of names; those without capitals come back. -/
theorem toUpper_ofNat : ∀ n < 128, Path.isNameChar (Char.ofNat n) = true → (Char.ofNat n).isUpper = false →
    Path.isNameChar (Char.ofNat n).toUpper = true ∧ Text.lowerChar (Char.ofNat n).toUpper = Char.ofNat n := by
  decide +kernel

theorem toUpper_of_isNameChar {c : Char} (h : Path.isNameChar c = true) (hupper : c.isUpper = false) :
    Path.isNameChar c.toUpper = true ∧ Text.lowerChar c.toUpper = c := by
  have hchar := toUpper_ofNat c.toNat (lt_of_isNameChar h)
  rw [Char.ofNat_toNat] at hchar
  exact hchar h hupper

theorem Plain.toUpper {name : String} (h : Plain name) :
    (∀ c ∈ name.toUpper.toList, Path.isNameChar c = true) ∧ name.toUpper.toList.map Text.lowerChar = name.toList := by
  have hchar (c : Char) (hc : c ∈ name.toList) := toUpper_of_isNameChar (h.2 c hc).1 (h.2 c hc).2
  rw [String.toUpper, String.toList_map, List.map_map]
  refine ⟨List.forall_mem_map.mpr fun c hc => (hchar c hc).1, ?_⟩
  exact (List.map_congr_left fun c hc => (hchar c hc).2).trans (List.map_id _)

variable {keys : List String}

end Roster.Sources
