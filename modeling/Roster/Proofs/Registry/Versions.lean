import Roster.Proofs.Registry.Invariant
import Roster.Proofs.Registry.Replica

/-! Of which of the members it holds of others a registry knows a version. An update is taken with a version or without one, and
a member whose latest snapshot came without one is held but not known. -/
namespace Roster.Registry

variable {r : Registry} {id : String}

/-- The ids of the members held of others. -/
def remoteIds (r : Registry) : List String := ((r.members none).map (·.id)).filter fun id => !r.isLocal id

theorem mem_map_id_members (h : Stored r) : id ∈ (r.members none).map (·.id) ↔ id ∈ r.entries := by
  simp only [members, Filter.select, Option.all_none, List.filter_true, List.map_map, List.mem_map, Prod.exists,
    Std.ExtTreeMap.mem_toList_iff_getElem?_eq_some, Function.comp_apply]
  constructor
  · rintro ⟨k, e, he, rfl⟩
    rw [h.keyed k e he]
    exact Std.ExtTreeMap.mem_iff_isSome_getElem?.mpr (by rw [he]; rfl)
  · intro hid
    obtain ⟨e, he⟩ := Option.isSome_iff_exists.mp (Std.ExtTreeMap.mem_iff_isSome_getElem?.mp hid)
    exact ⟨id, e, he, h.keyed id e he⟩

theorem mem_remoteIds (h : Stored r) : id ∈ r.remoteIds ↔ r.isLocal id = false ∧ ∃ e, r.entries[id]? = some e := by
  rw [remoteIds, List.mem_filter, mem_map_id_members h, Bool.not_eq_true', Std.ExtTreeMap.mem_iff_isSome_getElem?,
    Option.isSome_iff_exists, and_comm]

theorem mem_knownVersions :
    id ∈ r.knownVersions ↔ r.isLocal id = false ∧ ∃ e, r.entries[id]? = some e ∧ e.version.isSome = true := by
  rw [Std.ExtTreeMap.mem_iff_isSome_getElem?, getElem?_knownVersions]
  cases r.isLocal id with
  | true => cases r.entries[id]? <;> simp
  | false => cases r.entries[id]? <;> simp

/-- What is held of another is the snapshot of the latest update about it, with the version that came along. -/
theorem version_of_latest {i : Nat} {history : List Event} (hopen : (registryAt i history).closed = false)
    (hremote : (registryAt i history).isLocal id = false) {e : Entry} (he : (registryAt i history).entries[id]? = some e) :
    ∃ u, latest? i id history = some (.applyRemote u) ∧ u.kind ≠ .unregister ∧ u.version = e.version := by
  rw [getElem?_entries_registryAt hopen hremote] at he
  obtain ⟨op, hop, hsnapshot⟩ := Option.bind_eq_some_iff.mp he
  obtain ⟨u, m, rfl, hkind, -, rfl⟩ := snapshot?_eq_some.mp hsnapshot
  exact ⟨u, hop, hkind, rfl⟩

/-- At any moment of any run, inside callbacks too, an open registry knows versions of members of others only. It misses
those whose latest update came without a version, so it knows all if and only if there is none of these. -/
theorem known_iff_versioned {moves : List Move} {s : Stage} (hrun : Stage.run {} moves = some s) {i : Nat} {r : Registry}
    (hr : s.registries[i]? = some r) (hopen : r.closed = false) :
    (∀ id ∈ r.knownVersions, id ∈ r.remoteIds) ∧
    (∀ id ∈ r.remoteIds, ∃ u, latest? i id s.history = some (.applyRemote u) ∧ u.kind ≠ .unregister ∧
      (id ∈ r.knownVersions ↔ u.version.isSome = true)) ∧
    ((∀ id, id ∈ r.knownVersions ↔ id ∈ r.remoteIds) ↔
      ∀ id ∈ r.remoteIds, ∀ u, latest? i id s.history = some (.applyRemote u) → u.version.isSome = true) := by
  have hstored : Stored r := by
    rw [(Stage.replayed hrun).eq_registryAt hr]
    exact stored_after _
  have hknown (id : String) (hid : id ∈ r.knownVersions) : id ∈ r.remoteIds := by
    obtain ⟨hremote, e, he, -⟩ := mem_knownVersions.mp hid
    exact (mem_remoteIds hstored).mpr ⟨hremote, e, he⟩
  have hlatest (id : String) (hid : id ∈ r.remoteIds) : ∃ u, latest? i id s.history = some (.applyRemote u) ∧
      u.kind ≠ .unregister ∧ (id ∈ r.knownVersions ↔ u.version.isSome = true) := by
    obtain ⟨hremote, e, he⟩ := (mem_remoteIds hstored).mp hid
    have heq := (Stage.replayed hrun).eq_registryAt hr
    obtain ⟨u, hu, hkind, hversion⟩ := version_of_latest (heq ▸ hopen) (heq ▸ hremote) (heq ▸ he)
    refine ⟨u, hu, hkind, ?_⟩
    rw [hversion, mem_knownVersions]
    simp [hremote, he]
  refine ⟨hknown, hlatest, fun hall id hid u hu => ?_, fun hversioned id => ⟨hknown id, fun hid => ?_⟩⟩
  · obtain ⟨v, hv, -, hiff⟩ := hlatest id hid
    obtain rfl : v = u := Op.applyRemote.inj (Option.some.inj (hv.symm.trans hu))
    exact hiff.mp ((hall id).mpr hid)
  · obtain ⟨u, hu, -, hiff⟩ := hlatest id hid
    exact hiff.mpr (hversioned id hid u hu)

/-- A member is streamed without a version and then with one, beside a member of the client's own. -/
def versionedLater : List Move :=
  [.found, .perform 0 (.applyRemote ⟨"a", .register, some (Member.new "a" "web"), none⟩),
    .perform 0 (.registerLocal (Member.new "b" "mine")),
    .perform 0 (.applyRemote (.ofMetadata (Member.new "a" "web") ⟨"n", 2⟩))]

theorem known_once_versioned :
    ∃ s r, Stage.run {} versionedLater = some s ∧ s.registries[0]? = some r ∧ r.closed = false ∧ r.remoteIds = ["a"] ∧
      (∀ u, latest? 0 "a" s.history = some (.applyRemote u) → u.version.isSome = true) ∧
      ∀ id, id ∈ r.knownVersions ↔ id ∈ r.remoteIds := by
  obtain ⟨s, r, hs, hr, hopen, hremote, hlatest⟩ : ∃ s r, Stage.run {} versionedLater = some s ∧
      s.registries[0]? = some r ∧ r.closed = false ∧ r.remoteIds = ["a"] ∧
      latest? 0 "a" s.history = some (.applyRemote (.ofMetadata (Member.new "a" "web") ⟨"n", 2⟩)) :=
    ⟨_, _, rfl, rfl, rfl, rfl, rfl⟩
  have hversioned (u : Update) (hu : latest? 0 "a" s.history = some (.applyRemote u)) : u.version.isSome = true := by
    obtain rfl := Op.applyRemote.inj (Option.some.inj (hlatest.symm.trans hu))
    rfl
  refine ⟨s, r, hs, hr, hopen, hremote, hversioned, (known_iff_versioned hs hr hopen).2.2.mpr fun id hid u hu => ?_⟩
  rw [hremote, List.mem_singleton] at hid
  exact hversioned u (hid ▸ hu)

/-- Without a version the update is taken all the same. -/
theorem unversioned_unknown :
    ∃ s r, Stage.run {} [.found, .perform 0 (.applyRemote ⟨"a", .register, some (Member.new "a" "web"), none⟩)] = some s ∧
      s.registries[0]? = some r ∧ r.closed = false ∧
      s.history = [.performed 0 (.applyRemote ⟨"a", .register, some (Member.new "a" "web"), none⟩) (.applied none) []] ∧
      r.remoteIds = ["a"] ∧ ¬ ∀ id, id ∈ r.knownVersions ↔ id ∈ r.remoteIds := by
  refine ⟨_, _, rfl, rfl, rfl, rfl, rfl, fun hall => ?_⟩
  have hknown := (hall "a").mpr (List.mem_singleton.mpr rfl)
  obtain ⟨-, e, he, hversion⟩ := mem_knownVersions.mp hknown
  obtain rfl := Option.some.inj he
  exact nomatch hversion

end Roster.Registry
