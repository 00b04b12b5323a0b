import Roster.Proofs.Sources.Merge
import Roster.Proofs.Toml.Distinct

/-! What stands at a place of a tree, given by the keys that lead there, after a source has been merged or a single place
has been changed. -/
namespace Roster

open Sources (Plain Step alterAt)

namespace Document

def at? : List String → Document → Option Document
  | [], d => some d
  | key :: keys, d => (lookup? d.entries key).bind (at? keys)

variable {root d e : Document} {es : List (String × Document)} {key : String} {keys others : List String}

@[simp] theorem at?_nil (d : Document) : at? [] d = some d := rfl

theorem at?_cons (key : String) (keys : List String) (d : Document) :
    at? (key :: keys) d = (lookup? d.entries key).bind (at? keys) := rfl

def IsTable (d : Document) : Prop := ∃ es, d = .table es

theorem tidy_of_distinct (h : Distinct d) (hplain : ∀ keys e, at? keys d = some e → ∀ key ∈ keys, Plain key) : Tidy d := by
  induction h with
  | single _ htable => exact .single htable
  | list _ _ => exact .single nofun
  | @table es hnodup _ ih =>
    have hat (e : String × Document) (he : e ∈ es) (keys : List String) : at? (e.1 :: keys) (.table es) = at? keys e.2 := by
      rw [at?_cons, entries_table, lookup?_of_mem hnodup he]
      rfl
    refine .table hnodup (fun e he => ?_) fun e he => ih e he fun keys f hf key hkey => ?_
    · exact hplain [e.1] e.2 (hat e he []) e.1 List.mem_cons_self
    · exact hplain (e.1 :: keys) f ((hat e he keys).trans hf) key (List.mem_cons_of_mem _ hkey)

/-! Merging -/

/-- Nothing that is no table stands in the way to a place. -/
def Clear (keys : List String) (d : Document) : Prop :=
  ∀ before after e, keys = before ++ after → after ≠ [] → at? before d = some e → IsTable e

theorem Clear.tail (h : Clear (key :: keys) (.table es)) (hkey : lookup? es key = some d) : Clear keys d := by
  rintro before after e rfl hafter he
  refine h (key :: before) after e rfl hafter ?_
  rw [at?_cons, entries_table, hkey]
  exact he

theorem isTable_laid {old : Option Document} (hold : ∀ e ∈ old, IsTable e) (es : List (String × Document)) :
    IsTable (laid (.table es) old) := by
  cases old with
  | none => exact setKeys_isTable es []
  | some e =>
    obtain ⟨fs, rfl⟩ := hold e rfl
    exact setKeys_isTable es fs

/-- What is at a place once something has been set. -/
def put (keys : List String) (d root : Document) : Document := alterAt (fun _ => d) (keys.map .child) root

theorem at?_cons_put (hkey : Plain key) (d root : Document) :
    at? (key :: others) (put (key :: keys) d root) = at? others (put keys d ((lookup? root.entries key).getD .null)) := by
  rw [at?_cons, put, List.map_cons, alterAt, hkey.lower, entries_table, lookup?_insert, if_pos rfl]
  rfl

theorem at?_put_same (hkeys : ∀ key ∈ keys, Plain key) (d root : Document) : at? keys (put keys d root) = some d := by
  induction keys generalizing root with
  | nil => rfl
  | cons key keys ih =>
    rw [List.forall_mem_cons] at hkeys
    rw [at?_cons_put hkeys.1, ih hkeys.2]

theorem at?_put_other (hkeys : ∀ key ∈ keys, Plain key) (hinside : ¬ keys <+: others) (haround : ¬ others <+: keys)
    (d root : Document) : at? others (put keys d root) = at? others root := by
  induction keys generalizing others root with
  | nil => exact absurd List.nil_prefix hinside
  | cons key keys ih =>
    rw [List.forall_mem_cons] at hkeys
    cases others with
    | nil => exact absurd List.nil_prefix haround
    | cons other others =>
      by_cases heq : key = other
      · subst heq
        rw [List.prefix_cons_inj] at hinside haround
        rw [at?_cons_put hkeys.1, ih hkeys.2 hinside haround, at?_cons]
        cases others with
        | nil => exact absurd List.nil_prefix haround
        | cons next others => cases lookup? root.entries key <;> rfl
      · rw [at?_cons, put, List.map_cons, alterAt, hkeys.1.lower, entries_table, lookup?_insert, if_neg heq]
        rfl

theorem at?_put_around (hkeys : ∀ key ∈ keys, Plain key) (haround : others <+: keys) (hne : others ≠ keys)
    (d root : Document) : ∃ e, at? others (put keys d root) = some e ∧ IsTable e := by
  induction others generalizing keys root with
  | nil =>
    cases keys with
    | nil => exact absurd rfl hne
    | cons key keys => exact ⟨_, rfl, _, rfl⟩
  | cons other others ih =>
    obtain ⟨rest, rfl⟩ := haround
    rw [List.cons_append, List.forall_mem_cons] at hkeys
    rw [List.cons_append, at?_cons_put hkeys.1]
    exact ih hkeys.2 (List.prefix_append _ _) (fun heq => hne (congrArg _ heq)) _

end Document

end Roster
