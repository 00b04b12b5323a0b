import Roster.Sources.Merge
import Roster.Proofs.Sources.Name

/-! Trees as paths change them: what stands under a key after one is set, and that changes of one place add up. -/
namespace Roster

namespace Document

variable {es : List (String × Document)} {k key : String} {d e : Document}

@[simp] theorem entries_table (es : List (String × Document)) : (table es).entries = es := rfl

@[simp] theorem items_list (ds : List Document) : (list ds).items = ds := rfl

theorem lookup?_nil (key : String) : lookup? [] key = none := rfl

theorem lookup?_cons (k key : String) (d : Document) (es : List (String × Document)) :
    lookup? ((k, d) :: es) key = if k = key then some d else lookup? es key := by
  unfold lookup?
  by_cases h : k = key <;> simp [h]

theorem lookup?_append (es fs : List (String × Document)) (key : String) :
    lookup? (es ++ fs) key = (lookup? es key).or (lookup? fs key) := by
  induction es with
  | nil => rfl
  | cons e es ih =>
    rw [List.cons_append, lookup?_cons, lookup?_cons, ih]
    split <;> rfl

theorem lookup?_eq_none_iff : lookup? es key = none ↔ key ∉ es.map (·.1) := by
  induction es with
  | nil => simp [lookup?_nil]
  | cons e es ih =>
    rw [lookup?_cons]
    by_cases h : e.1 = key
    · simp [h]
    · simp [h, ih, Ne.symm h]

theorem mem_of_lookup? (h : lookup? es key = some d) : (key, d) ∈ es := by
  induction es with
  | nil => exact nomatch h
  | cons e es ih =>
    rw [lookup?_cons] at h
    split at h
    · next heq =>
      obtain rfl := Option.some.inj h
      exact heq ▸ List.mem_cons_self
    · exact List.mem_cons_of_mem e (ih h)

theorem lookup?_of_mem (hnodup : (es.map (·.1)).Nodup) (h : (key, d) ∈ es) : lookup? es key = some d := by
  induction es with
  | nil => exact nomatch h
  | cons e es ih =>
    rw [List.map_cons, List.nodup_cons] at hnodup
    rw [lookup?_cons]
    obtain rfl | h := List.mem_cons.mp h
    · exact if_pos rfl
    · have hne : e.1 ≠ key := fun heq => hnodup.1 (heq ▸ List.mem_map_of_mem h)
      rw [if_neg hne]
      exact ih hnodup.2 h

theorem any_eq_isSome (es : List (String × Document)) (key : String) :
    es.any (·.1 = key) = (lookup? es key).isSome := by
  induction es with
  | nil => rfl
  | cons e es ih =>
    rw [List.any_cons, ih, lookup?_cons]
    by_cases h : e.1 = key <;> simp [h]

theorem insert_of_absent (h : lookup? es key = none) (d : Document) : insert es key d = es ++ [(key, d)] := by
  rw [insert, any_eq_isSome, h]
  rfl

theorem insert_of_present (h : lookup? es key = some d) (e : Document) :
    insert es key e = es.map fun f => if f.1 = key then (key, e) else f := by
  rw [insert, any_eq_isSome, h]
  rfl

theorem lookup?_replace (es : List (String × Document)) (k : String) (d : Document) (key : String) :
    lookup? (es.map fun f => if f.1 = k then (k, d) else f) key =
      if k = key then (lookup? es key).map fun _ => d else lookup? es key := by
  induction es with
  | nil => simp [lookup?_nil]
  | cons e es ih =>
    rw [List.map_cons, lookup?_cons e.1 key e.2]
    by_cases hk : e.1 = k
    · rw [if_pos hk, lookup?_cons, ih]
      by_cases h : k = key <;> simp [hk, h]
    · rw [if_neg hk, lookup?_cons e.1 key e.2, ih]
      by_cases h : k = key
      · have hne : e.1 ≠ key := fun heq => hk (heq.trans h.symm)
        simp [h, hne]
      · simp [h]

theorem lookup?_insert (es : List (String × Document)) (k : String) (d : Document) (key : String) :
    lookup? (insert es k d) key = if k = key then some d else lookup? es key := by
  cases hk : lookup? es k with
  | none =>
    rw [insert_of_absent hk, lookup?_append, lookup?_cons, lookup?_nil]
    by_cases h : k = key
    · simp [← h, hk]
    · simp [h]
  | some old =>
    rw [insert_of_present hk, lookup?_replace]
    by_cases h : k = key
    · simp [← h, hk]
    · simp [h]

theorem insert_insert (es : List (String × Document)) (k : String) (d e : Document) :
    insert (insert es k d) k e = insert es k e := by
  have hnew : lookup? (insert es k d) k = some d := (lookup?_insert es k d k).trans (if_pos rfl)
  rw [insert_of_present hnew]
  cases hk : lookup? es k with
  | none =>
    have hother : ∀ f ∈ es, f.1 ≠ k := fun f hf heq => lookup?_eq_none_iff.mp hk (List.mem_map.mpr ⟨f, hf, heq⟩)
    rw [insert_of_absent hk, insert_of_absent hk, List.map_append]
    congr 1
    · exact (List.map_congr_left fun f hf => if_neg (hother f hf)).trans (List.map_id _)
    · simp
  | some old =>
    rw [insert_of_present hk, insert_of_present hk, List.map_map]
    refine List.map_congr_left fun f _ => ?_
    by_cases h : f.1 = k <;> simp [h]

theorem map_fst_insert (es : List (String × Document)) (k : String) (d : Document) :
    (insert es k d).map (·.1) = if k ∈ es.map (·.1) then es.map (·.1) else es.map (·.1) ++ [k] := by
  cases hk : lookup? es k with
  | none =>
    rw [insert_of_absent hk, if_neg (lookup?_eq_none_iff.mp hk)]
    simp
  | some old =>
    rw [insert_of_present hk, if_pos (List.mem_map_of_mem (mem_of_lookup? hk)), List.map_map]
    refine List.map_congr_left fun f _ => ?_
    by_cases h : f.1 = k <;> simp [h]

theorem nodup_insert (h : (es.map (·.1)).Nodup) (k : String) (d : Document) : ((insert es k d).map (·.1)).Nodup := by
  rw [map_fst_insert]
  split
  · exact h
  · next hk =>
    refine List.nodup_append.mpr ⟨h, by simp, fun a ha b hb heq => ?_⟩
    exact hk (List.mem_singleton.mp hb ▸ heq ▸ ha)

theorem insert_ne_nil (es : List (String × Document)) (k : String) (d : Document) : insert es k d ≠ [] := by
  intro h
  have hnew : lookup? (insert es k d) k = some d := (lookup?_insert es k d k).trans (if_pos rfl)
  rw [h] at hnew
  exact nomatch hnew

theorem mem_insert {f : String × Document} (h : f ∈ insert es k d) : f = (k, d) ∨ f ∈ es := by
  unfold insert at h
  split at h
  · obtain ⟨g, hg, rfl⟩ := List.mem_map.mp h
    split
    · exact .inl rfl
    · exact .inr hg
  · exact (List.mem_append.mp h).symm.imp_left List.mem_singleton.mp

end Document

namespace Sources

open Document

/-- Steps into lists count from the front. -/
def Forward (steps : List Step) : Prop := ∀ index, .element index ∈ steps → 0 ≤ index

theorem alterAt_append (change : Document → Document) (p q : List Step) (d : Document) :
    alterAt change (p ++ q) d = alterAt (alterAt change q) p d := by
  induction p generalizing d with
  | nil => rfl
  | cons st p ih =>
    cases st with
    | child key => simp [alterAt, ih]
    | element index =>
      have hfun : alterAt change (p ++ q) = alterAt (alterAt change q) p := funext ih
      simp [alterAt, hfun]

/-- Two changes of one place are one. -/
theorem alterAt_alterAt {p : List Step} (h : Forward p) (f g : Document → Document) (d : Document) :
    alterAt f p (alterAt g p d) = alterAt (f ∘ g) p d := by
  induction p generalizing d with
  | nil => rfl
  | cons st p ih =>
    have ih := ih fun index hmem => h index (List.mem_cons_of_mem st hmem)
    cases st with
    | child key => simp [alterAt, lookup?_insert, insert_insert, ih]
    | element index =>
      have hpos : 0 ≤ index := h index List.mem_cons_self
      have hfun : alterAt f p ∘ alterAt g p = alterAt (f ∘ g) p := funext ih
      have hfill : index.toNat + 1 - (d.items.length + (index.toNat + 1 - d.items.length)) = 0 := by omega
      simp [alterAt, position, hpos, hfill, List.modify_modify_eq, hfun]

/-- A value that is no table is set where its path ends. -/
theorem Path.set_eq_alterAt (p : Path) {d : Document} (h : ∀ es, d ≠ .table es) (root : Document) :
    p.set d root = alterAt (fun _ => d) (.child p.head :: p.steps) root := by
  have hset (root : Document) (key : String) : root.setKey key d = alterAt (fun _ => d) [.child key] root := by
    cases d with
    | table es => exact absurd rfl (h es)
    | _ => rfl
  unfold Path.set
  split
  · next hlast =>
    rw [List.getLast?_eq_none_iff.mp hlast]
    exact hset root p.head
  · next key hlast =>
    obtain ⟨steps, hsteps⟩ := List.getLast?_eq_some_iff.mp hlast
    rw [hsteps, ← List.cons_append, alterAt_append, List.dropLast_concat, funext fun root => hset root key]
  · rfl

end Sources

end Roster
