import Roster.Proofs.Sources.At
import Roster.Proofs.Text.Lower

/-! Keys as a source has them, in whatever letters: each changes one entry of the root, and of a tree that is built by keys
every key is in lower case. -/
namespace Roster

namespace Document

variable {root d : Document} {es fs : List (String × Document)} {key : String}

/-- Where nothing is, a table begins. -/
theorem setKeys_null (hne : es ≠ []) : setKeys .null es = setKeys (.table []) es := by
  cases es with
  | nil => exact absurd rfl hne
  | cons e es => rw [setKeys, setKeys, setKey_eq, setKey_eq]; rfl

/-- A tree whose tables have every key once, and in lower case. -/
inductive Lowered : Document → Prop
  | single {d : Document} : (∀ es, d ≠ .table es) → Lowered d
  | table {es : List (String × Document)} : (es.map (·.1)).Nodup → (∀ e ∈ es, Text.lower e.1 = e.1) →
    (∀ e ∈ es, Lowered e.2) → Lowered (.table es)

theorem lowered_nil : Lowered (.table []) := .table List.nodup_nil nofun nofun

theorem Lowered.entries (h : Lowered d) :
    (d.entries.map (·.1)).Nodup ∧ (∀ e ∈ d.entries, Text.lower e.1 = e.1) ∧ ∀ e ∈ d.entries, Lowered e.2 := by
  cases h with
  | single hno =>
    cases d with
    | table es => exact absurd rfl (hno es)
    | _ => exact ⟨List.nodup_nil, nofun, nofun⟩
  | table hnodup hlower hentries => exact ⟨hnodup, hlower, hentries⟩

theorem Lowered.of_lookup? (h : Lowered root) (hd : lookup? root.entries key = some d) : Lowered d :=
  h.entries.2.2 _ (mem_of_lookup? hd)

theorem Lowered.insert (h : Lowered root) (key : String) (hd : Lowered d) :
    Lowered (.table (insert root.entries (Text.lower key) d)) := by
  obtain ⟨hnodup, hlower, hentries⟩ := h.entries
  refine .table (nodup_insert hnodup _ _) (fun e he => ?_) fun e he => ?_
  · obtain rfl | he := mem_insert he
    · exact Text.lower_lower key
    · exact hlower e he
  · obtain rfl | he := mem_insert he
    · exact hd
    · exact hentries e he

mutual

theorem Lowered.setKey {root : Document} (hroot : Lowered root) (key : String) : (d : Document) → Lowered (setKey root key d)
  | .table inner => by
    have hold : Lowered ((lookup? root.entries (Text.lower key)).getD (.table [])) := by
      cases hkey : lookup? root.entries (Text.lower key) with
      | none => exact lowered_nil
      | some old => exact hroot.of_lookup? hkey
    have hinner := Lowered.setKeys hold inner
    rw [setKey_eq]
    exact hroot.insert key hinner
  | .null => hroot.insert key (.single nofun)
  | .bool _ => hroot.insert key (.single nofun)
  | .int _ => hroot.insert key (.single nofun)
  | .real _ => hroot.insert key (.single nofun)
  | .text _ => hroot.insert key (.single nofun)
  | .list _ => hroot.insert key (.single nofun)

/-- Whatever is set by keys. -/
theorem Lowered.setKeys {root : Document} (hroot : Lowered root) : (es : List (String × Document)) → Lowered (setKeys root es)
  | [] => by rwa [setKeys_nil]
  | (key, d) :: es => by
    rw [Document.setKeys]
    exact Lowered.setKeys (Lowered.setKey hroot key d) es

end

/-- Tables in tables stay tables. -/
theorem tables_setKeys (hfs : ∀ f ∈ fs, IsTable f.2) (hes : ∀ e ∈ es, IsTable e.2) :
    ∃ gs, setKeys (.table fs) es = .table gs ∧ ∀ g ∈ gs, IsTable g.2 := by
  induction es generalizing fs with
  | nil => exact ⟨fs, setKeys_nil _, hfs⟩
  | cons e es ih =>
    rw [List.forall_mem_cons] at hes
    obtain ⟨inner, hinner⟩ := hes.1
    rw [setKeys, setKey_eq, hinner]
    refine ih (fun f hf => ?_) hes.2
    obtain rfl | hf := mem_insert hf
    · exact isTable_laid (fun old hold => hfs _ (mem_of_lookup? hold)) inner
    · exact hfs f hf

end Document

namespace Sources

open Document

variable {root a b : Document} {es : List (String × Document)} {key : String}

/-- The entry of the root that a key is about. -/
def heading (key : String) : String := Text.lower (((Path.parse? key).map (·.head)).getD key)

/-- One key changes one entry, by what this entry was. -/
theorem exists_merge_singleton (e : String × Document) : ∃ change : Option Document → Document, ∀ root,
    merge root [e] = .table (insert root.entries (heading e.1) (change (lookup? root.entries (heading e.1)))) := by
  unfold heading merge
  simp only [List.foldl_cons, List.foldl_nil]
  cases Path.parse? e.1 with
  | none => exact ⟨_, fun root => setKey_eq root e.1 e.2⟩
  | some p =>
    simp only [Option.map_some, Option.getD_some, Path.set]
    split
    · exact ⟨_, fun root => setKey_eq root p.head e.2⟩
    · exact ⟨fun old => alterAt (·.setKey _ e.2) p.steps.dropLast (old.getD .null), fun root => rfl⟩
    · exact ⟨fun old => alterAt (fun _ => e.2) p.steps (old.getD .null), fun root => rfl⟩

theorem merge_append (root : Document) (es fs : List (String × Document)) : merge root (es ++ fs) = merge (merge root es) fs :=
  List.foldl_append

theorem merge_cons (root : Document) (e : String × Document) (es : List (String × Document)) :
    merge root (e :: es) = merge (merge root [e]) es := rfl

theorem isTable_merge (hroot : IsTable root) (es : List (String × Document)) : IsTable (merge root es) := by
  induction es generalizing root with
  | nil => exact hroot
  | cons e es ih =>
    obtain ⟨change, hchange⟩ := exists_merge_singleton e
    rw [merge_cons, hchange]
    exact ih ⟨_, rfl⟩

/-- What no key is about stays as it was. -/
theorem lookup?_merge_of_other (hes : ∀ e ∈ es, heading e.1 ≠ key) (root : Document) :
    lookup? (merge root es).entries key = lookup? root.entries key := by
  induction es generalizing root with
  | nil => rfl
  | cons e es ih =>
    rw [List.forall_mem_cons] at hes
    obtain ⟨change, hchange⟩ := exists_merge_singleton e
    rw [merge_cons, ih hes.2, hchange, entries_table, lookup?_insert, if_neg hes.1]

/-- Trees with the same entries, but for one. -/
def SameBut (key : String) (a b : Document) : Prop := ∀ other ≠ key, lookup? a.entries other = lookup? b.entries other

/-- A source does the same to both. -/
theorem SameBut.merge (h : SameBut key a b) (es : List (String × Document)) : SameBut key (merge a es) (merge b es) := by
  induction es generalizing a b with
  | nil => exact h
  | cons e es ih =>
    obtain ⟨change, hchange⟩ := exists_merge_singleton e
    rw [merge_cons, merge_cons b]
    refine ih fun other hother => ?_
    rw [hchange, hchange, entries_table, entries_table, lookup?_insert, lookup?_insert]
    by_cases hheading : heading e.1 = other
    · rw [if_pos hheading, if_pos hheading, hheading, h other hother]
    · rw [if_neg hheading, if_neg hheading, h other hother]

/-- Set among other keys, a name is what it would be if it were set alone, and the others are as they would be without it. -/
theorem merge_around {before after : List (String × Document)} {d : Document} (hkey : Plain key)
    (hother : ∀ e ∈ before ++ after, heading e.1 ≠ key) (root : Document) :
    lookup? (merge root (before ++ (key, d) :: after)).entries key = some (laid d (lookup? root.entries key)) ∧
      SameBut key (merge root (before ++ (key, d) :: after)) (merge root (before ++ after)) := by
  rw [List.forall_mem_append] at hother
  have hset : merge (merge root before) [(key, d)] = (merge root before).setKey key d := by
    rw [merge_eq_setKeys (List.forall_mem_singleton.mpr hkey), setKeys, setKeys_nil]
  rw [merge_append, merge_append, merge_cons, hset, setKey_eq, hkey.lower]
  constructor
  · rw [lookup?_merge_of_other hother.2, entries_table, lookup?_insert, if_pos rfl, lookup?_merge_of_other hother.1]
  · refine SameBut.merge (fun other hne => ?_) after
    rw [entries_table, lookup?_insert, if_neg hne.symm]

end Sources

end Roster
