import Roster.Member

/-! Maps as the lists of their entries. -/
namespace Roster.Keyed

variable {β : Type} {m : Keyed β} {es : List (String × β)}

theorem nodup_toList (m : Keyed β) : (m.toList.map (·.1)).Nodup := by
  rw [Std.ExtTreeMap.map_fst_toList_eq_keys]
  exact Std.ExtTreeMap.nodup_keys

/-- The entries of a map make it up again, in whatever order they come. -/
theorem ofList_of_perm (h : es.Perm m.toList) : Std.ExtTreeMap.ofList es compare = m := by
  have hdistinct : es.Pairwise fun a b => ¬ compare a.1 b.1 = .eq :=
    h.symm.pairwise Std.ExtTreeMap.distinct_keys_toList fun hne heq => hne (Std.OrientedCmp.eq_symm heq)
  apply Std.ExtTreeMap.ext_getElem?
  intro key
  cases hkey : m[key]? with
  | some value =>
    have hmem : (key, value) ∈ es := h.mem_iff.mpr (Std.ExtTreeMap.mem_toList_iff_getElem?_eq_some.mpr hkey)
    exact Std.ExtTreeMap.getElem?_ofList_of_mem Std.ReflCmp.compare_self hdistinct hmem
  | none =>
    apply Std.ExtTreeMap.getElem?_ofList_of_contains_eq_false
    rw [List.contains_eq_mem, decide_eq_false_iff_not]
    intro hmem
    obtain ⟨e, he, rfl⟩ := List.mem_map.mp hmem
    have hentry : m[e.1]? = some e.2 := Std.ExtTreeMap.mem_toList_iff_getElem?_eq_some.mp (h.mem_iff.mp he)
    exact nomatch hkey.symm.trans hentry

theorem toList_ne_nil (h : m ≠ ∅) : m.toList ≠ [] := by
  intro hnil
  have hperm : List.Perm [] m.toList := by rw [hnil]
  exact h ((ofList_of_perm hperm).symm.trans (Std.ExtTreeMap.ofList_eq_empty_iff.mpr rfl))

theorem pairwise_of_nodup (h : (es.map (·.1)).Nodup) : es.Pairwise fun a b => ¬ compare a.1 b.1 = .eq :=
  (List.pairwise_map.mp h).imp fun hne heq => hne (Std.LawfulEqOrd.compare_eq_iff_eq.mp heq)

/-- A map made of entries with distinct keys has no others. -/
theorem mem_of_mem_toList_ofList (h : (es.map (·.1)).Nodup) {e : String × β}
    (he : e ∈ (Std.ExtTreeMap.ofList es compare : Keyed β).toList) : e ∈ es := by
  have hvalue := Std.ExtTreeMap.mem_toList_iff_getElem?_eq_some.mp he
  by_cases hkey : e.1 ∈ es.map (·.1)
  · obtain ⟨f, hf, hfe⟩ := List.mem_map.mp hkey
    have hcompare : compare f.1 e.1 = .eq := hfe ▸ Std.ReflCmp.compare_self
    have hother := Std.ExtTreeMap.getElem?_ofList_of_mem hcompare (pairwise_of_nodup h) hf
    obtain rfl : f = e := Prod.ext hfe (Option.some.inj (hother.symm.trans hvalue))
    exact hf
  · rw [Std.ExtTreeMap.getElem?_ofList_of_contains_eq_false] at hvalue
    · exact nomatch hvalue
    · rw [List.contains_eq_mem]
      exact decide_eq_false hkey

theorem mem_toList_ofList (h : (es.map (·.1)).Nodup) {e : String × β} :
    e ∈ (Std.ExtTreeMap.ofList es compare : Keyed β).toList ↔ e ∈ es := by
  refine ⟨mem_of_mem_toList_ofList h, fun he => ?_⟩
  exact Std.ExtTreeMap.mem_toList_iff_getElem?_eq_some.mpr
    (Std.ExtTreeMap.getElem?_ofList_of_mem Std.ReflCmp.compare_self (pairwise_of_nodup h) he)

/-- Entries with distinct keys are those of the map they make. -/
theorem perm_toList_ofList (h : (es.map (·.1)).Nodup) : es.Perm (Std.ExtTreeMap.ofList es compare : Keyed β).toList :=
  have hnodup {fs : List (String × β)} (h : (fs.map (·.1)).Nodup) : fs.Nodup :=
    (List.pairwise_map.mp h).imp fun hne heq => hne (congrArg _ heq)
  (List.perm_ext_iff_of_nodup (hnodup h) (hnodup (nodup_toList _))).mpr fun _ => (mem_toList_ofList h).symm

theorem ofList_congr {fs : List (String × β)} (h : es.Perm fs) (hnodup : (fs.map (·.1)).Nodup) :
    (Std.ExtTreeMap.ofList es compare : Keyed β) = Std.ExtTreeMap.ofList fs compare :=
  ofList_of_perm (h.trans (perm_toList_ofList hnodup))

end Roster.Keyed
