import Roster.Proofs.Sources.Grown

/-! Merging, key by key: what a source leaves under a key is what it says of it, put over what was there. -/
namespace Roster

open Sources (Plain)

namespace Document

variable {d root : Document} {es : List (String × Document)} {key : String}

/-- What is under a key after a value has been set there. -/
def laid (d : Document) (old : Option Document) : Document :=
  match d with
  | .table inner => setKeys (old.getD (.table [])) inner
  | d => d

theorem setKey_eq (root : Document) (key : String) (d : Document) :
    setKey root key d = .table (insert root.entries (Text.lower key) (laid d (lookup? root.entries (Text.lower key)))) := by
  cases d with
  | table inner => rw [setKey]; rfl
  | _ => rfl

theorem setKey_of_plain (hkey : Plain key) (root d : Document) :
    setKey root key d = .table (insert root.entries key (laid d (lookup? root.entries key))) := by
  rw [setKey_eq, hkey.lower]

/-- Without entries, nothing is set. -/
theorem setKeys_nil (root : Document) : setKeys root [] = root := by rw [setKeys]

theorem setKeys_isTable (es fs : List (String × Document)) : ∃ gs, setKeys (.table fs) es = .table gs := by
  induction es generalizing fs with
  | nil => exact ⟨fs, setKeys_nil _⟩
  | cons e es ih =>
    rw [setKeys, setKey_eq]
    exact ih _

theorem lookup?_setKeys (hplain : ∀ e ∈ es, Plain e.1) (hnodup : (es.map (·.1)).Nodup) (root : Document) (key : String) :
    lookup? (setKeys root es).entries key =
      (lookup? es key).elim (lookup? root.entries key) fun d => some (laid d (lookup? root.entries key)) := by
  induction es generalizing root with
  | nil => rw [setKeys_nil]; rfl
  | cons e es ih =>
    rw [List.map_cons, List.nodup_cons] at hnodup
    rw [setKeys, ih (fun f hf => hplain f (List.mem_cons_of_mem e hf)) hnodup.2,
      setKey_of_plain (hplain e List.mem_cons_self), entries_table, lookup?_insert, lookup?_cons]
    by_cases hkey : e.1 = key
    · subst hkey
      simp [lookup?_eq_none_iff.mpr hnodup.1]
    · simp [hkey]

/-- A tree with every key of a table once, and in the form in which keys are kept. -/
inductive Tidy : Document → Prop
  | single {d : Document} : (∀ es, d ≠ .table es) → Tidy d
  | table {es : List (String × Document)} : (es.map (·.1)).Nodup → (∀ e ∈ es, Plain e.1) → (∀ e ∈ es, Tidy e.2) →
    Tidy (.table es)

theorem Grown.tidy (h : Grown d) : Tidy d := by
  induction h with
  | leaf hleaf _ =>
    refine .single ?_
    rintro es rfl
    exact nomatch hleaf
  | list _ _ _ _ => exact .single nofun
  | table _ hnodup hplain _ ih => exact .table hnodup hplain ih

theorem Growing.tidy (h : Growing (.table es)) : Tidy (.table es) :=
  .table h.nodup h.plain fun e he => (h.entries e he).tidy

theorem Tidy.nodup (h : Tidy (.table es)) : (es.map (·.1)).Nodup := by
  cases h with
  | single hno => exact absurd rfl (hno es)
  | table hnodup _ _ => exact hnodup

theorem Tidy.plain (h : Tidy (.table es)) : ∀ e ∈ es, Plain e.1 := by
  cases h with
  | single hno => exact absurd rfl (hno es)
  | table _ hplain _ => exact hplain

theorem Tidy.entries (h : Tidy (.table es)) : ∀ e ∈ es, Tidy e.2 := by
  cases h with
  | single hno => exact absurd rfl (hno es)
  | table _ _ hentries => exact hentries

/-- Keys that stay distinct in lower case make a table with just these keys. -/
theorem setKeys_eq_map (fs : List (String × Document))
    (hnodup : ((fs.map (·.1)) ++ es.map fun e => Text.lower e.1).Nodup) :
    setKeys (.table fs) es = .table (fs ++ es.map fun e => (Text.lower e.1, laid e.2 none)) := by
  induction es generalizing fs with
  | nil => simp [setKeys_nil]
  | cons e es ih =>
    have habsent : lookup? fs (Text.lower e.1) = none := by
      rw [lookup?_eq_none_iff]
      exact fun hmem => (List.nodup_append.mp hnodup).2.2 _ hmem _ List.mem_cons_self rfl
    rw [setKeys, setKey_eq, entries_table, habsent, insert_of_absent habsent, ih]
    · simp
    · simpa using hnodup

/-- Set where nothing was, a tree is as it was. -/
theorem Tidy.laid_none (h : Tidy d) : laid d none = d := by
  induction h with
  | @single d hno =>
    cases d with
    | table es => exact absurd rfl (hno es)
    | _ => rfl
  | @table es hnodup hplain _ ih =>
    have hlower : (es.map fun e => Text.lower e.1) = es.map (·.1) := List.map_congr_left fun e he => (hplain e he).lower
    have hsame : (es.map fun e => (Text.lower e.1, laid e.2 none)) = es :=
      (List.map_congr_left fun e he => Prod.ext (hplain e he).lower (ih e he)).trans (List.map_id _)
    exact (setKeys_eq_map [] (hlower ▸ hnodup)).trans (congrArg Document.table hsame)

end Document

namespace Sources

open Document

variable {es : List (String × Document)}

theorem merge_eq_setKeys (hplain : ∀ e ∈ es, Plain e.1) (root : Document) : merge root es = setKeys root es := by
  induction es generalizing root with
  | nil => exact (setKeys_nil root).symm
  | cons e es ih =>
    have hparse : Path.parse? e.1 = some ⟨e.1, []⟩ := (Path.spelled_self (hplain e List.mem_cons_self)).parse?
    have hcons : merge root (e :: es) = merge (root.setKey e.1 e.2) es := by
      rw [merge, List.foldl_cons, hparse]
      rfl
    rw [hcons, ih (fun f hf => hplain f (List.mem_cons_of_mem e hf)), setKeys]

/-- As the first source, a tree is as it was. -/
theorem merge_nil_of_tidy (h : Tidy (.table es)) : merge (.table []) es = .table es := by
  rw [merge_eq_setKeys h.plain]
  exact h.laid_none

end Sources

end Roster
