import Mathlib.Data.List.Forall2
import Roster.Proofs.Sources.Tree

/-! What may be done to the serialised form of a value: fields of its structures deleted, fields that no structure has added, and
the entries of tables put in another order. -/
namespace Roster

/-- Where a form has the tables of structures, with the fields they have, and where those of maps, with any keys. -/
inductive Shape
  | plain
  | struct (fields : List (String × Shape))
  | map (entry : Shape)

namespace Shape

/-- The shape of what is under a key. -/
def part : Shape → String → Shape
  | plain, _ => plain
  | struct fields, key => (fields.lookup key).getD plain
  | map entry, _ => entry

def isField : Shape → String → Bool
  | struct fields, key => (fields.lookup key).isSome
  | _, _ => false

/-- A key that the table of a structure may have, although it is none of its fields. -/
def isUnknown : Shape → String → Bool
  | struct fields, key => (fields.lookup key).isNone
  | _, _ => false

end Shape

namespace Document

mutual

/-- Without the fields at some paths. -/
def delete (shape : Shape) (gone : List String → Bool) : Document → Document
  | .table es => .table (deleteEntries shape gone es)
  | d => d

def deleteEntries (shape : Shape) (gone : List String → Bool) : List (String × Document) → List (String × Document)
  | [] => []
  | (key, d) :: rest =>
    if shape.isField key && gone [key] then deleteEntries shape gone rest
    else (key, delete (shape.part key) (fun path => gone (key :: path)) d) :: deleteEntries shape gone rest

end

mutual

/-- The second tree, with unknown fields added, and with the entries of its tables in any order. -/
def Extends (shape : Shape) : Document → Document → Prop
  | .table es, .table fs => ExtendsEntries shape es fs
  | d, e => d = e

def ExtendsEntries (shape : Shape) : List (String × Document) → List (String × Document) → Prop
  | es, [] => ∀ e ∈ es, shape.isUnknown e.1 = true
  | es, (key, e) :: fs => ∃ d rest, es.Perm ((key, d) :: rest) ∧ Extends (shape.part key) d e ∧ ExtendsEntries shape rest fs

end

variable {shape entry : Shape} {fields : List (String × Shape)} {gone : List String → Bool} {d e : Document}
  {es fs gs rest : List (String × Document)} {key : String}

/-! Deleting -/

mutual

theorem delete_none (shape : Shape) : ∀ d : Document, d.delete shape (fun _ => false) = d
  | .table es => congrArg table (deleteEntries_none shape es)
  | .null | .bool _ | .int _ | .real _ | .text _ | .list _ => rfl

theorem deleteEntries_none (shape : Shape) : ∀ es : List (String × Document), deleteEntries shape (fun _ => false) es = es
  | [] => rfl
  | (key, d) :: rest => by simp [deleteEntries, delete_none (shape.part key) d, deleteEntries_none shape rest]

end

theorem lookup?_deleteEntries (shape : Shape) (gone : List String → Bool) (es : List (String × Document)) (key : String) :
    lookup? (deleteEntries shape gone es) key = if shape.isField key && gone [key] then none
      else (lookup? es key).map (delete (shape.part key) fun path => gone (key :: path)) := by
  induction es with
  | nil => simp [deleteEntries, lookup?_nil]
  | cons e es ih =>
    obtain ⟨k, d⟩ := e
    rw [deleteEntries]
    by_cases hk : k = key
    · subst hk
      by_cases hgone : shape.isField k && gone [k] <;> simp [lookup?_cons, hgone, ih]
    · by_cases hgone : shape.isField k && gone [k] <;> simp [lookup?_cons, hgone, ih, hk]

theorem deleteEntries_map (entry : Shape) (gone : List String → Bool) (es : List (String × Document)) :
    deleteEntries (.map entry) gone es = es.map fun e => (e.1, e.2.delete entry fun path => gone (e.1 :: path)) := by
  induction es with
  | nil => rfl
  | cons e es ih => simp [deleteEntries, Shape.isField, Shape.part, ih]

/-- A map of values without fields has nothing to delete. -/
theorem delete_ofKeyed {β : Type} {entry : Shape} {forms : β → Document} (h : ∀ b gone, (forms b).delete entry gone = forms b)
    (m : Keyed β) (gone : List String → Bool) : (ofKeyed forms m).delete (.map entry) gone = ofKeyed forms m := by
  simp [ofKeyed, delete, deleteEntries_map, h]

theorem nodup_deleteEntries (h : (es.map (·.1)).Nodup) : ((deleteEntries shape gone es).map (·.1)).Nodup := by
  have hsub : ((deleteEntries shape gone es).map (·.1)).Sublist (es.map (·.1)) := by
    clear h
    induction es with
    | nil => exact .slnil
    | cons e es ih =>
      rw [deleteEntries]
      split
      · exact ih.cons e.1
      · exact ih.cons_cons e.1
  exact hsub.nodup h

/-! Adding -/

mutual

theorem extends_refl (shape : Shape) : ∀ d : Document, Extends shape d d
  | .table es => extendsEntries_refl shape es
  | .null | .bool _ | .int _ | .real _ | .text _ | .list _ => rfl

theorem extendsEntries_refl (shape : Shape) : ∀ es : List (String × Document), ExtendsEntries shape es es
  | [] => List.forall_mem_nil _
  | (key, d) :: rest => ⟨d, rest, .refl _, extends_refl (shape.part key) d, extendsEntries_refl shape rest⟩

end

theorem Extends.eq (h : Extends shape d e) (he : ∀ fs, e ≠ .table fs) : d = e := by
  cases e with
  | table fs => exact absurd rfl (he fs)
  | _ => cases d <;> exact h

theorem Extends.exists_table (h : Extends shape d (.table fs)) : ∃ es, d = .table es ∧ ExtendsEntries shape es fs := by
  cases d with
  | table es => exact ⟨es, rfl, h⟩
  | _ => simp [Extends] at h

/-- The entries are those of the form, in some order, and unknown ones. -/
theorem ExtendsEntries.exists_perm (h : ExtendsEntries shape es fs) :
    ∃ gs rest, es.Perm (gs ++ rest) ∧ List.Forall₂ (fun g f => g.1 = f.1 ∧ Extends (shape.part f.1) g.2 f.2) gs fs ∧
      ∀ e ∈ rest, shape.isUnknown e.1 = true := by
  induction fs generalizing es with
  | nil => exact ⟨[], es, .refl _, .nil, h⟩
  | cons f fs ih =>
    obtain ⟨d, others, hperm, hd, hothers⟩ := h
    obtain ⟨gs, rest, hperm', hgs, hrest⟩ := ih hothers
    exact ⟨(f.1, d) :: gs, rest, hperm.trans (hperm'.cons _), .cons ⟨rfl, hd⟩ hgs, hrest⟩

theorem lookup?_of_perm (hperm : es.Perm (gs ++ rest)) (hgs : (gs.map (·.1)).Nodup) (hrest : key ∉ rest.map (·.1)) :
    lookup? es key = lookup? gs key := by
  have hmem (d : Document) : (key, d) ∈ es ↔ (key, d) ∈ gs := by
    rw [hperm.mem_iff, List.mem_append]
    exact or_iff_left fun hd => hrest (List.mem_map_of_mem hd)
  cases hkey : lookup? es key with
  | none =>
    rw [lookup?_eq_none_iff] at hkey
    refine (lookup?_eq_none_iff.mpr fun hmap => hkey ?_).symm
    obtain ⟨⟨k, d⟩, hd, rfl⟩ := List.mem_map.mp hmap
    exact List.mem_map_of_mem ((hmem d).mpr hd)
  | some d => exact (lookup?_of_mem hgs ((hmem d).mp (mem_of_lookup? hkey))).symm

theorem lookup?_cases {R : String → Document → Document → Prop}
    (h : List.Forall₂ (fun g f => g.1 = f.1 ∧ R f.1 g.2 f.2) gs fs) (key : String) :
    (lookup? gs key = none ∧ lookup? fs key = none) ∨
      ∃ d e, lookup? gs key = some d ∧ lookup? fs key = some e ∧ R key d e := by
  induction h with
  | nil => exact .inl ⟨rfl, rfl⟩
  | @cons g f gs fs hgf _ ih =>
    obtain ⟨hkeys, hR⟩ := hgf
    rw [lookup?_cons, lookup?_cons, hkeys]
    by_cases hf : f.1 = key
    · rw [if_pos hf, if_pos hf]
      exact .inr ⟨g.2, f.2, rfl, rfl, hf ▸ hR⟩
    · rw [if_neg hf, if_neg hf]
      exact ih

/-- Under a key that is not unknown there is what the form has there, extended. -/
theorem ExtendsEntries.lookup?_cases (h : ExtendsEntries shape es fs) (hfs : (fs.map (·.1)).Nodup)
    (hkey : shape.isUnknown key = false) :
    (lookup? es key = none ∧ lookup? fs key = none) ∨
      ∃ d e, lookup? es key = some d ∧ lookup? fs key = some e ∧ Extends (shape.part key) d e := by
  obtain ⟨gs, rest, hperm, hgs, hrest⟩ := h.exists_perm
  have hkeys : gs.map (·.1) = fs.map (·.1) := by
    rw [← List.forall₂_eq_eq_eq, List.forall₂_map_left_iff, List.forall₂_map_right_iff]
    exact hgs.imp fun _ _ hgf => hgf.1
  have habsent : key ∉ rest.map (·.1) := by
    intro hmem
    obtain ⟨e, he, rfl⟩ := List.mem_map.mp hmem
    exact absurd (hrest e he) (by simp [hkey])
  rw [lookup?_of_perm hperm (hkeys ▸ hfs) habsent]
  exact Document.lookup?_cases (R := fun k => Extends (shape.part k)) hgs key

/-- In a map no key is unknown. -/
theorem ExtendsEntries.exists_perm_map (h : ExtendsEntries (.map entry) es fs) :
    ∃ gs, es.Perm gs ∧ List.Forall₂ (fun g f => g.1 = f.1 ∧ Extends entry g.2 f.2) gs fs := by
  obtain ⟨gs, rest, hperm, hgs, hrest⟩ := h.exists_perm
  obtain rfl : rest = [] := List.eq_nil_iff_forall_not_mem.mpr fun e he => Bool.false_ne_true (hrest e he)
  exact ⟨gs, by simpa using hperm, hgs⟩

end Document

end Roster
