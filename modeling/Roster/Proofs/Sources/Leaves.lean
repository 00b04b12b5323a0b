import Roster.Proofs.Reader
import Roster.Proofs.Sources.Grown

/-! A tree taken apart into its leaves is made again by setting them in turn, each at the end of its path. -/
namespace Roster.Sources

open Document

variable {d root : Document} {es : List (String × Document)} {ds : List Document} {s head : String} {steps p : List Step}
  {build : Document → Document}

def setLeaves (root : Document) (leaves : List (String × Document)) : Except ConfigFault Document :=
  leaves.foldlM (fun root leaf => setLeaf root leaf.1 leaf.2) root

@[simp] theorem setLeaves_nil (root : Document) : setLeaves root [] = .ok root := rfl

theorem setLeaves_append (root : Document) (ls ms : List (String × Document)) :
    setLeaves root (ls ++ ms) = setLeaves root ls >>= fun root => setLeaves root ms := List.foldlM_append

theorem setLeaves_singleton (root : Document) (s : String) (d : Document) :
    setLeaves root [(s, d)] = setLeaf root s d := bind_pure _

theorem leaves_of_isLeaf (h : d.isLeaf = true) (s : String) : d.leaves s = [(s, d)] := by
  cases d with
  | list ds => exact nomatch h
  | table es => exact nomatch h
  | _ => rfl

theorem set_parse?_eq_ok {root' : Document} :
    (match Path.parse? s with
      | none => throw .badPath
      | some p => return p.set d root : Except ConfigFault Document) = .ok root' ↔
      ∃ p, Path.parse? s = some p ∧ p.set d root = root' := by
  cases Path.parse? s with
  | none => exact ⟨nofun, nofun⟩
  | some p =>
    refine ⟨fun h => ⟨p, rfl, Except.ok.inj h⟩, ?_⟩
    rintro ⟨_, ⟨⟩, rfl⟩
    rfl

theorem setLeaf_eq_ok {root' : Document} : setLeaf root s d = .ok root' ↔
    (∀ n, d = .int n → n ≤ largest) ∧ ∃ p, Path.parse? s = some p ∧ p.set d root = root' := by
  unfold setLeaf
  cases d with
  | int n =>
    dsimp only
    by_cases hlarge : n > Int64.maxValue.toInt
    · rw [if_pos hlarge]
      exact ⟨nofun, fun h => absurd (h.1 n rfl) (Int.not_le.mpr hlarge)⟩
    · rw [if_neg hlarge]
      refine set_parse?_eq_ok.trans (and_iff_right ?_).symm
      rintro _ ⟨⟩
      exact Int.not_lt.mp hlarge
  | _ => exact set_parse?_eq_ok.trans (and_iff_right nofun).symm

theorem ne_table_of_isLeaf (h : d.isLeaf = true) (es : List (String × Document)) : d ≠ .table es := by
  rintro rfl
  exact nomatch h

theorem setLeaf_of_spelled (hleaf : d.isLeaf = true) (hfit : ∀ n, d = .int n → n ≤ largest)
    (hs : Path.Spelled s head steps) (root : Document) :
    setLeaf root s d = .ok (alterAt (fun _ => d) (.child head :: steps) root) :=
  setLeaf_eq_ok.mpr ⟨hfit, ⟨head, steps⟩, hs.parse?, Path.set_eq_alterAt _ (ne_table_of_isLeaf hleaf) root⟩

mutual

theorem isLeaf_of_mem_leaves {s : String} {leaf : String × Document} : (d : Document) → leaf ∈ d.leaves s → leaf.2.isLeaf = true
  | .list ds, h => isLeaf_of_mem_leavesOfItems ds (by rwa [leaves] at h)
  | .table es, h => isLeaf_of_mem_leavesOfEntries es (by rwa [leaves] at h)
  | .null, h | .bool _, h | .int _, h | .real _, h | .text _, h => by
    rw [leaves_of_isLeaf rfl, List.mem_singleton] at h
    rw [h]
    rfl

theorem isLeaf_of_mem_leavesOfItems {s : String} {leaf : String × Document} {i : Nat} :
    (ds : List Document) → leaf ∈ leavesOfItems s i ds → leaf.2.isLeaf = true
  | [], h => by
    rw [leavesOfItems] at h
    exact nomatch h
  | d :: ds, h => by
    rw [leavesOfItems, List.mem_append] at h
    exact h.elim (isLeaf_of_mem_leaves d) (isLeaf_of_mem_leavesOfItems ds)

theorem isLeaf_of_mem_leavesOfEntries {s : String} {leaf : String × Document} :
    (es : List (String × Document)) → leaf ∈ leavesOfEntries s es → leaf.2.isLeaf = true
  | [], h => by
    rw [leavesOfEntries] at h
    exact nomatch h
  | (key, d) :: es, h => by
    rw [leavesOfEntries, List.mem_append] at h
    exact h.elim (isLeaf_of_mem_leaves d) (isLeaf_of_mem_leavesOfEntries es)

end

/-- What leaves are set in stays a tree that leaves can make, and none of them is too large. -/
theorem of_setLeaves {ls : List (String × Document)} (hls : ∀ leaf ∈ ls, leaf.2.isLeaf = true) (hes : Growing (.table es))
    (h : setLeaves (.table es) ls = .ok root) :
    (∃ es, root = .table es ∧ Growing root) ∧ ∀ leaf ∈ ls, ∀ n, leaf.2 = .int n → n ≤ largest := by
  induction ls generalizing es with
  | nil => exact ⟨⟨es, (Except.ok.inj h).symm, Except.ok.inj h ▸ hes⟩, nofun⟩
  | cons leaf ls ih =>
    have hleaf := hls leaf List.mem_cons_self
    obtain ⟨root', hset, h⟩ := bind_eq_ok.mp h
    obtain ⟨hfit, p, hp, rfl⟩ := setLeaf_eq_ok.mp hset
    have hgrown := growing_alterAt (.leaf hleaf hfit) (readable_of_parse? hp) hes
    rw [Path.set_eq_alterAt p (ne_table_of_isLeaf hleaf)] at h
    obtain ⟨hroot, hrest⟩ := ih (fun l hl => hls l (List.mem_cons_of_mem leaf hl)) hgrown.growing h
    exact ⟨hroot, List.forall_mem_cons.mpr ⟨hfit, hrest⟩⟩

/-! Building on -/

/-- The leaves of a part, at the end of any path, do there what `build` does. -/
def Builds (build : Document → Document) (d : Document) : Prop :=
  ∀ s head steps, Path.Spelled s head steps → ∀ root,
    setLeaves root (d.leaves s) = .ok (alterAt build (.child head :: steps) root)

/-- Out of nothing, the leaves make the tree they are from. -/
def Regrows (d : Document) : Prop := ∃ build, build .null = d ∧ Builds build d

theorem regrows_of_isLeaf (hleaf : d.isLeaf = true) (hfit : ∀ n, d = .int n → n ≤ largest) : Regrows d := by
  refine ⟨fun _ => d, rfl, fun s head steps hs root => ?_⟩
  rw [leaves_of_isLeaf hleaf, setLeaves_singleton]
  exact setLeaf_of_spelled hleaf hfit hs root

theorem Path.Spelled.forward (h : Path.Spelled s head steps) : Forward (.child head :: steps) := by
  intro index hmem
  obtain heq | hmem := List.mem_cons.mp hmem
  · exact nomatch heq
  · exact (h.2.1 _ hmem).1

theorem Builds.item {i : Nat} (h : Builds build d) (hi : (i : Int) ≤ largest) (hs : Path.Spelled s head steps)
    (root : Document) :
    setLeaves root (d.leaves (s ++ s!"[{i}]")) =
      .ok (alterAt (alterAt build [.element i]) (.child head :: steps) root) := by
  rw [h _ _ _ (hs.element hi), ← alterAt_append]
  rfl

theorem alterAt_next (ds : List Document) (build : Document → Document) :
    alterAt build [.element ds.length] (.list ds) = .list (ds ++ [build .null]) := by
  have hfill : ds.length + 1 - ds.length = 1 := by omega
  simp [alterAt, position, hfill, List.modify_eq_take_drop]

/-- Elements go after those that are there. -/
theorem builds_items (i : Nat) (hlen : i + ds.length ≤ largest + 1) (hds : ∀ d ∈ ds, Regrows d) :
    ∃ build, (∀ before, before.length = i → build (.list before) = .list (before ++ ds)) ∧
      ∀ s head steps, Path.Spelled s head steps → ∀ change root,
        setLeaves (alterAt change (.child head :: steps) root) (leavesOfItems s i ds) =
          .ok (alterAt (build ∘ change) (.child head :: steps) root) := by
  induction ds generalizing i with
  | nil => exact ⟨id, fun before _ => by simp, fun s head steps hs change root => rfl⟩
  | cons d ds ih =>
    rw [List.length_cons] at hlen
    obtain ⟨first, hfirst, hd⟩ := hds d List.mem_cons_self
    obtain ⟨rest, hrest, hbuilds⟩ := ih (i + 1) (by omega) fun e he => hds e (List.mem_cons_of_mem d he)
    refine ⟨rest ∘ alterAt first [.element i], fun before hbefore => ?_, fun s head steps hs change root => ?_⟩
    · subst hbefore
      rw [Function.comp_apply, alterAt_next, hfirst, hrest _ (by simp)]
      simp
    · rw [leavesOfItems, setLeaves_append, hd.item (by omega) hs, alterAt_alterAt hs.forward]
      exact hbuilds s head steps hs _ root

/-- Where the entries of a table are set: at the end of a path, or at the root. -/
def Holds (s : String) (p : List Step) : Prop :=
  Forward p ∧ ∀ key, Plain key → ∃ head steps, Path.Spelled (if s.isEmpty then key else s ++ "." ++ key) head steps ∧
    .child head :: steps = p ++ [.child key]

theorem holds_root : Holds "" [] := ⟨nofun, fun key hkey => ⟨key, [], Path.spelled_self hkey, rfl⟩⟩

theorem Path.Spelled.holds (h : Path.Spelled s head steps) : Holds s (.child head :: steps) := by
  refine ⟨h.forward, fun key hkey => ⟨head, steps ++ [.child key], ?_, rfl⟩⟩
  rw [if_neg (by simp [h.isEmpty_eq_false])]
  exact h.child hkey

theorem Builds.entry {key : String} (h : Builds build d) (hkey : Plain key) (hs : Holds s p) (root : Document) :
    setLeaves root (d.leaves (if s.isEmpty then key else s ++ "." ++ key)) =
      .ok (alterAt (alterAt build [.child key]) p root) := by
  obtain ⟨head, steps, hspelled, hsteps⟩ := hs.2 key hkey
  rw [h _ _ _ hspelled, hsteps, alterAt_append]

theorem alterAt_absent {key : String} (hkey : Plain key) (habsent : key ∉ es.map (·.1)) (build : Document → Document) :
    alterAt build [.child key] (.table es) = .table (es ++ [(key, build .null)]) := by
  have hnone := lookup?_eq_none_iff.mpr habsent
  simp [alterAt, hkey.lower, hnone, insert_of_absent hnone]

/-- Entries go after those that are there. -/
theorem builds_entries (hplain : ∀ e ∈ es, Plain e.1) (hes : ∀ e ∈ es, Regrows e.2) :
    ∃ build, (∀ before, ((before ++ es).map (·.1)).Nodup → build (.table before) = .table (before ++ es)) ∧
      ∀ s p, Holds s p → ∀ change root,
        setLeaves (alterAt change p root) (leavesOfEntries s es) = .ok (alterAt (build ∘ change) p root) := by
  induction es with
  | nil => exact ⟨id, fun before _ => by simp, fun s p hs change root => rfl⟩
  | cons e es ih =>
    obtain ⟨key, d⟩ := e
    have hkey := hplain _ List.mem_cons_self
    obtain ⟨first, hfirst, hd⟩ := hes _ List.mem_cons_self
    obtain ⟨rest, hrest, hbuilds⟩ :=
      ih (fun e he => hplain e (List.mem_cons_of_mem _ he)) fun e he => hes e (List.mem_cons_of_mem _ he)
    refine ⟨rest ∘ alterAt first [.child key], fun before hbefore => ?_, fun s p hs change root => ?_⟩
    · have habsent : key ∉ before.map (·.1) := by
        rw [List.map_append, List.nodup_append] at hbefore
        exact fun hmem => hbefore.2.2 key hmem key List.mem_cons_self rfl
      rw [List.append_cons] at hbefore
      rw [Function.comp_apply, alterAt_absent hkey habsent, hfirst, hrest _ hbefore]
      simp
    · rw [leavesOfEntries, setLeaves_append, hd.entry hkey hs, alterAt_alterAt hs.1]
      exact hbuilds s p hs _ root

theorem Grown.regrows (h : Grown d) : Regrows d := by
  induction h with
  | leaf hleaf hfit => exact regrows_of_isLeaf hleaf hfit
  | @list ds hne hlen _ ih =>
    obtain ⟨d, ds, rfl⟩ := List.exists_cons_of_ne_nil hne
    rw [List.length_cons] at hlen
    obtain ⟨first, hfirst, hd⟩ := ih d List.mem_cons_self
    obtain ⟨rest, hrest, hbuilds⟩ := builds_items 1 (by omega) fun e he => ih e (List.mem_cons_of_mem d he)
    refine ⟨rest ∘ alterAt first [.element 0], ?_, fun s head steps hs root => ?_⟩
    · exact (congrArg rest (congrArg Document.list (congrArg (· :: []) hfirst))).trans (hrest [d] rfl)
    · rw [leaves, leavesOfItems, setLeaves_append, hd.item (by decide) hs]
      exact hbuilds s head steps hs _ root
  | @table es hne hnodup hplain _ ih =>
    obtain ⟨⟨key, d⟩, es, rfl⟩ := List.exists_cons_of_ne_nil hne
    have hkey := hplain _ List.mem_cons_self
    obtain ⟨first, hfirst, hd⟩ := ih _ List.mem_cons_self
    obtain ⟨rest, hrest, hbuilds⟩ := builds_entries (fun e he => hplain e (List.mem_cons_of_mem _ he))
      fun e he => ih e (List.mem_cons_of_mem _ he)
    refine ⟨rest ∘ alterAt first [.child key], ?_, fun s head steps hs root => ?_⟩
    · have hone : alterAt first [.child key] .null = .table [(key, d)] := by
        simp [alterAt, entries, lookup?_nil, Document.insert, hkey.lower, hfirst]
      rw [Function.comp_apply, hone]
      exact hrest [(key, d)] hnodup
    · rw [leaves, leavesOfEntries, setLeaves_append, hd.entry hkey hs.holds]
      exact hbuilds s _ hs.holds _ root

/-- Every tree that leaves can make is made by its own. -/
theorem setLeaves_leaves (h : Growing (.table es)) : setLeaves (.table []) (leaves "" (.table es)) = .ok (.table es) := by
  obtain ⟨build, hbuild, hbuilds⟩ := builds_entries h.plain fun e he => Grown.regrows (h.entries e he)
  exact (hbuilds "" [] holds_root id (.table [])).trans (congrArg Except.ok (hbuild [] h.nodup))

end Roster.Sources
