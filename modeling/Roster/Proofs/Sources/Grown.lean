import Roster.Proofs.Sources.Tree
import Roster.Sources.Flatten

/-! Trees that are made by setting leaves one by one. Nothing in them is empty and every key is plain; and such a tree,
taken apart into its leaves, is made again. -/
namespace Roster

open Sources (Plain)

namespace Document

/-- A value without parts. -/
def isLeaf : Document → Bool
  | list _ | table _ => false
  | _ => true

/-- The largest index, and the largest whole number, of a source. -/
def largest : Int := Int64.maxValue.toInt

/-- What can be made by setting leaves. -/
inductive Grown : Document → Prop
  | leaf {d : Document} : d.isLeaf = true → (∀ n, d = .int n → n ≤ largest) → Grown d
  | list {ds : List Document} : ds ≠ [] → ds.length ≤ largest + 1 → (∀ d ∈ ds, Grown d) → Grown (.list ds)
  | table {es : List (String × Document)} : es ≠ [] → (es.map (·.1)).Nodup → (∀ e ∈ es, Plain e.1) →
    (∀ e ∈ es, Grown e.2) → Grown (.table es)

theorem grown_null : Grown .null := .leaf rfl nofun

/-- What can come to be on the way: grown, or still without any part. -/
structure Growing (d : Document) : Prop where
  nodup : (d.entries.map (·.1)).Nodup
  plain : ∀ e ∈ d.entries, Plain e.1
  entries : ∀ e ∈ d.entries, Grown e.2
  length : d.items.length ≤ largest + 1
  items : ∀ e ∈ d.items, Grown e

variable {d root : Document}

theorem length_nil_le : (([] : List Document).length : Int) ≤ largest + 1 := by decide

theorem growing_nil : Growing (.table []) := ⟨List.nodup_nil, nofun, nofun, length_nil_le, nofun⟩

theorem Grown.growing (h : Grown d) : Growing d := by
  cases h with
  | leaf hleaf _ =>
    cases d with
    | list ds => exact nomatch hleaf
    | table es => exact nomatch hleaf
    | _ => exact ⟨List.nodup_nil, nofun, nofun, length_nil_le, nofun⟩
  | list _ hlen hitems => exact ⟨List.nodup_nil, nofun, nofun, hlen, hitems⟩
  | table _ hnodup hplain hentries => exact ⟨hnodup, hplain, hentries, length_nil_le, nofun⟩

theorem Growing.lookup? (h : Growing d) (key : String) : Growing ((Document.lookup? d.entries key).getD .null) := by
  cases hkey : Document.lookup? d.entries key with
  | none => exact grown_null.growing
  | some e => exact (h.entries _ (mem_of_lookup? hkey)).growing

end Document

namespace Sources

open Document

variable {d root root' : Document} {s head : String} {steps : List Step}

/-! Setting a leaf -/

/-- Steps as they are read from a path. -/
def Readable : Step → Prop
  | .child key => key.toList ≠ [] ∧ ∀ c ∈ key.toList, Path.isNameChar c = true
  | .element index => index ≤ largest

theorem readable_of_index? {cs rest : List Char} {index : Int} (h : Path.index? cs = some (index, rest)) :
    index ≤ largest := by
  obtain ⟨n, _, h⟩ := Option.bind_eq_some_iff.mp h
  obtain ⟨_, hfits, h⟩ := Option.bind_eq_some_iff.mp h
  have hle : _ ≤ largest := of_decide_eq_true (Bool.and_eq_true_iff.mp ((Option.guard_eq_some' _).mp hfits)).2
  split at h
  · obtain ⟨rfl, -⟩ := Prod.mk.inj (Option.some.inj h)
    exact hle
  · exact nomatch h

theorem readable_of_steps? {fuel : Nat} {cs : List Char} (h : Path.steps? fuel cs = some steps) :
    ∀ st ∈ steps, Readable st := by
  fun_induction Path.steps? fuel cs generalizing steps with
  | case1 =>
    obtain rfl := Option.some.inj h
    exact nofun
  | case2 => exact nomatch h
  | case3 fuel rest ih =>
    obtain ⟨⟨key, more⟩, hname, h⟩ := Option.bind_eq_some_iff.mp h
    obtain ⟨steps', hsteps, h⟩ := Option.bind_eq_some_iff.mp h
    obtain rfl := Option.some.inj h
    exact List.forall_mem_cons.mpr ⟨Path.of_name? hname, ih _ hsteps⟩
  | case4 fuel rest ih =>
    obtain ⟨⟨index, more⟩, hindex, h⟩ := Option.bind_eq_some_iff.mp h
    obtain ⟨steps', hsteps, h⟩ := Option.bind_eq_some_iff.mp h
    obtain rfl := Option.some.inj h
    exact List.forall_mem_cons.mpr ⟨readable_of_index? hindex, ih _ hsteps⟩
  | case5 => exact nomatch h

theorem readable_of_parse? {p : Path} (h : Path.parse? s = some p) : ∀ st ∈ Step.child p.head :: p.steps, Readable st := by
  obtain ⟨⟨head, rest⟩, hname, h⟩ := Option.bind_eq_some_iff.mp h
  obtain ⟨steps, hsteps, h⟩ := Option.bind_eq_some_iff.mp h
  obtain rfl := Option.some.inj h
  exact List.forall_mem_cons.mpr ⟨Path.of_name? hname, readable_of_steps? hsteps⟩

/-- A table with a grown part set in it. -/
theorem grown_insert {key : String} (hroot : Growing root) (hkey : Plain key) (hd : Grown d) :
    Grown (.table (Document.insert root.entries key d)) := by
  refine .table (insert_ne_nil _ _ _) (nodup_insert hroot.nodup _ _) (fun e he => ?_) fun e he => ?_
  · obtain rfl | he := mem_insert he
    · exact hkey
    · exact hroot.plain e he
  · obtain rfl | he := mem_insert he
    · exact hd
    · exact hroot.entries e he

theorem position_le {index : Int} (hindex : index ≤ largest) (hroot : Growing root) :
    (position index root.items.length : Int) ≤ largest := by
  have hpos : (0 : Int) ≤ largest := by decide
  have hlast := hroot.length
  unfold position
  split <;> omega

/-- A list that has been filled up to an index, with its element there changed. -/
theorem grown_modify {change : Document → Document} {i : Nat} (hroot : Growing root) (hi : (i : Int) ≤ largest)
    (hchange : ∀ e, Grown e → Grown (change e)) :
    Grown (.list ((root.items ++ List.replicate (i + 1 - root.items.length) null).modify i change)) := by
  have hlength := hroot.length
  have hmem : ∀ e ∈ root.items ++ List.replicate (i + 1 - root.items.length) null, Grown e := by
    intro e he
    obtain he | he := List.mem_append.mp he
    · exact hroot.items e he
    · exact List.eq_of_mem_replicate he ▸ grown_null
  refine .list (fun hnil => ?_) ?_ fun e he => ?_
  · have hzero := congrArg List.length hnil
    rw [List.length_modify, List.length_append, List.length_replicate, List.length_nil] at hzero
    omega
  · rw [List.length_modify, List.length_append, List.length_replicate]
    omega
  · obtain ⟨j, hj, rfl⟩ := List.mem_iff_getElem.mp he
    rw [List.getElem_modify]
    have hold := hmem _ (List.getElem_mem (by simpa using hj))
    split
    · exact hchange _ hold
    · exact hold

theorem growing_alterAt (hleaf : Grown d) (hsteps : ∀ st ∈ steps, Readable st) (hroot : Growing root) :
    Grown (alterAt (fun _ => d) steps root) := by
  induction steps generalizing root with
  | nil => exact hleaf
  | cons st steps ih =>
    obtain ⟨hst, hrest⟩ := List.forall_mem_cons.mp hsteps
    cases st with
    | child key => exact grown_insert hroot (plain_lower hst.1 hst.2) (ih hrest (hroot.lookup? (Text.lower key)))
    | element index => exact grown_modify hroot (position_le hst hroot) fun e he => ih hrest he.growing

end Sources

end Roster
