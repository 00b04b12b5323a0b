import Roster.Proofs.Registry.Moves

/-! What an open registry holds of others. Under an id that is not its client's own it holds the snapshot of the latest
operation that took effect there, as a whole and with its version, or nothing if that operation was a removal. -/
namespace Roster

/-- The update has an id, and a member unless it is a removal. -/
def Update.wellFormed (u : Update) : Bool := u.id ≠ "" && (u.kind = .unregister || u.member.isSome)

namespace Registry

/-- The operation is addressed to the id and takes effect there: a registration of the client's own, the removal of a
member of its own, or a well-formed update that no local member stands in the way of. -/
def Op.settles (r : Registry) (id : String) : Op → Bool
  | .registerLocal m => m.id = id
  | .unregisterLocal i => i = id && r.isLocal id
  | .applyRemote u => u.id = id && u.wellFormed && !r.isLocal id
  | _ => false

/-- The latest operation on a registry that took effect on an id. -/
def latest? (i : Nat) (id : String) : List Event → Option Op
  | [] => none
  | e :: older =>
    match e.opOn? i with
    | some op => if op.settles (registryAt i older) id then some op else latest? i id older
    | none => latest? i id older

/-- The snapshot that a registration or a metadata update brings along. -/
def Op.snapshot? : Op → Option Entry
  | .applyRemote u => if u.kind = .unregister then none else u.member.map fun m => ⟨{ m with id := u.id }, u.version⟩
  | _ => none

theorem snapshot?_eq_some {op : Op} {e : Entry} :
    op.snapshot? = some e ↔ ∃ u m, op = .applyRemote u ∧ u.kind ≠ .unregister ∧ u.member = some m ∧
      (⟨{ m with id := u.id }, u.version⟩ : Entry) = e := by
  cases op with
  | applyRemote u =>
    simp only [Op.snapshot?, Op.applyRemote.injEq]
    by_cases hk : u.kind = .unregister
    · simp only [if_pos hk, reduceCtorEq, false_iff]
      rintro ⟨u, m, rfl, hne, -⟩
      exact hne hk
    · simp only [if_neg hk, Option.map_eq_some_iff]
      constructor
      · rintro ⟨m, hm, he⟩
        exact ⟨u, m, rfl, hk, hm, he⟩
      · rintro ⟨u, m, rfl, -, hm, he⟩
        exact ⟨m, hm, he⟩
  | _ => simp [Op.snapshot?]

/-- An update that took effect on an id is well-formed and addressed to it. -/
theorem latest?_applyRemote {i : Nat} {id : String} {history : List Event} {u : Update}
    (h : latest? i id history = some (.applyRemote u)) : u.id = id ∧ u.wellFormed = true := by
  induction history with
  | nil => exact nomatch h
  | cons e older ih =>
    unfold latest? at h
    split at h
    · split at h
      · next op hop hs =>
        obtain rfl := Option.some.inj h
        obtain ⟨⟨hid, hform⟩, -⟩ : (u.id = id ∧ u.wellFormed = true) ∧ _ := by simpa [Op.settles] using hs
        exact ⟨hid, hform⟩
      · exact ih h
    · exact ih h

/-! One operation, seen from one id -/

section Entries

variable (r : Registry) (id : String)

theorem getElem?_entries_registerLocal {m : Member} (hne : m.id ≠ id) :
    (r.registerLocal m).registry.entries[id]? = r.entries[id]? := by
  unfold registerLocal
  split
  · rfl
  · simp [Std.ExtTreeMap.getElem?_insert, hne]

theorem getElem?_entries_unregisterLocal (i : String) :
    (r.unregisterLocal i).registry.entries[id]? = if i = id ∧ r.isLocal id = true then none else r.entries[id]? := by
  unfold unregisterLocal
  by_cases hi : i = id
  · subst hi
    cases r.isLocal i <;> simp
  · simp only [hi, false_and, if_false]
    split
    · simp [Std.ExtTreeMap.getElem?_erase, hi]
    · rfl

theorem getElem?_entries_updateLocal (i : String) (delta : Keyed String) (hremote : r.isLocal id = false) :
    (r.updateLocal i delta).registry.entries[id]? = r.entries[id]? := by
  unfold updateLocal
  split
  · next hlocal =>
    have hne : i ≠ id := by
      rintro rfl
      exact absurd hlocal (by simp [hremote])
    split
    · simp [Std.ExtTreeMap.getElem?_insert, hne]
    · rfl
  · rfl

theorem getElem?_entries_applyRemote (u : Update) (hopen : r.closed = false) (hremote : r.isLocal id = false) :
    (r.applyRemote u).registry.entries[id]? =
      if (Op.applyRemote u).settles r id = true then (Op.applyRemote u).snapshot? else r.entries[id]? := by
  obtain ⟨target, kind, member, version⟩ := u
  simp only [Op.settles, Op.snapshot?, Update.wellFormed, applyRemote, hopen, hremote]
  by_cases hempty : target = ""
  · simp [hempty]
  by_cases htarget : target = id
  · subst htarget
    cases kind with
    | unregister =>
      by_cases hheld : target ∈ r.entries
      · simp [hempty, hremote, hheld]
      · simp [hempty, hremote, hheld]
    | register => cases member <;> simp [hempty, hremote]
    | metadata => cases member <;> simp [hempty, hremote]
  · have helse : ∀ e : Entry, (r.entries.insert target e)[id]? = r.entries[id]? := by
      intro e
      simp [Std.ExtTreeMap.getElem?_insert, htarget]
    cases r.isLocal target with
    | true => simp [hempty, htarget]
    | false =>
      cases kind with
      | unregister =>
        by_cases hheld : target ∈ r.entries
        · simp [hempty, htarget, hheld, Std.ExtTreeMap.getElem?_erase]
        · simp [hempty, htarget, hheld]
      | register => cases member <;> simp [hempty, htarget, helse]
      | metadata => cases member <;> simp [hempty, htarget, helse]

end Entries

/-- Under an id that stays or becomes remote, an operation leaves its snapshot if it takes effect there, and otherwise what
was there before. -/
theorem getElem?_entries_perform {r : Registry} {op : Op} {id : String} (hopen : (r.perform op).registry.closed = false)
    (hremote : (r.perform op).registry.isLocal id = false) :
    (r.perform op).registry.entries[id]? = if op.settles r id = true then op.snapshot? else r.entries[id]? := by
  rw [closed_perform, Bool.or_eq_false_iff] at hopen
  cases op with
  | registerLocal m =>
    have hboth : r.isLocal id = false ∧ m.id ≠ id := by
      simpa [perform, isLocal_registerLocal, hopen.1] using hremote
    simp [Op.settles, hboth.2, perform, getElem?_entries_registerLocal]
  | unregisterLocal i => simp [Op.settles, Op.snapshot?, perform, getElem?_entries_unregisterLocal]
  | updateLocal i delta =>
    have hid : r.isLocal id = false := (isLocal_updateLocal r i delta id).symm.trans hremote
    simp [Op.settles, perform, getElem?_entries_updateLocal r id i delta hid]
  | applyRemote u =>
    have hid : r.isLocal id = false := (isLocal_applyRemote r u id).symm.trans hremote
    exact getElem?_entries_applyRemote r id u hopen.1 hid
  | subscribe filter => simp [Op.settles, perform, subscribe, hopen.1]
  | unsubscribe n => rfl
  | close => simp at hopen

/-- An id is remote after an operation only if it was before, or if the operation removed the client's own member. -/
theorem isLocal_of_perform {r : Registry} {op : Op} {id : String} (hopen : (r.perform op).registry.closed = false)
    (hremote : (r.perform op).registry.isLocal id = false) : op.settles r id = true ∨ r.isLocal id = false := by
  rw [closed_perform, Bool.or_eq_false_iff] at hopen
  cases op with
  | registerLocal m =>
    simp only [perform, isLocal_registerLocal, Bool.or_eq_false_iff] at hremote
    exact .inr hremote.1
  | unregisterLocal i =>
    cases hid : r.isLocal id with
    | false => exact .inr rfl
    | true =>
      have hi : i = id := by simpa [perform, isLocal_unregisterLocal, hid] using hremote
      exact .inl (by simp [Op.settles, hi, hid])
  | updateLocal i delta => exact .inr ((isLocal_updateLocal r i delta id).symm.trans hremote)
  | applyRemote u => exact .inr ((isLocal_applyRemote r u id).symm.trans hremote)
  | subscribe filter => exact .inr ((isLocal_subscribe r filter id).symm.trans hremote)
  | unsubscribe n => exact .inr hremote
  | close => simp at hopen

/-! Runs -/

theorem getElem?_entries_registryAt {i : Nat} {id : String} {history : List Event}
    (hopen : (registryAt i history).closed = false) (hremote : (registryAt i history).isLocal id = false) :
    (registryAt i history).entries[id]? = (latest? i id history).bind Op.snapshot? := by
  -- An id that an operation makes remote is settled by it, so whenever the induction has to look further back, the id was
  -- remote there too.
  induction history with
  | nil => simp [registryAt_nil, latest?]
  | cons e older ih =>
    unfold latest?
    cases hop : e.opOn? i with
    | none =>
      rw [registryAt_cons_of_none hop] at hopen hremote ⊢
      exact ih hopen hremote
    | some op =>
      rw [registryAt_cons_of_some hop] at hopen hremote ⊢
      rw [getElem?_entries_perform hopen hremote]
      cases hs : op.settles (registryAt i older) id with
      | true => simp [hs]
      | false =>
        have hbefore : (registryAt i older).isLocal id = false := by
          simpa [hs] using isLocal_of_perform hopen hremote
        rw [closed_perform, Bool.or_eq_false_iff] at hopen
        simpa [hs] using ih hopen.1 hbefore

theorem getElem?_knownVersions (r : Registry) (id : String) :
    r.knownVersions[id]? = r.entries[id]?.bind fun e => if r.isLocal id then none else e.version := by
  simp [knownVersions]

theorem exists_member_of_wellFormed {u : Update} (h : u.wellFormed = true) (hkind : u.kind ≠ .unregister) :
    ∃ m, u.member = some m := by
  simp only [Update.wellFormed, decide_eq_false hkind, Bool.false_or, Bool.and_eq_true] at h
  exact Option.isSome_iff_exists.mp h.2

/-- Whatever runs an open registry went through, it holds a member under an id that is not local exactly if the latest
operation to take effect there was a registration or a metadata update from the stream, and then it holds that update's
snapshot under the update's id and knows that update's version. It knows no version but such. -/
theorem replica_holds_latest {moves : List Move} {s : Stage} (hrun : Stage.run {} moves = some s) {i : Nat} {r : Registry}
    (hr : s.registries[i]? = some r) (hopen : r.closed = false) (id : String) :
    (r.isLocal id = false →
      ((r.member? id).isSome = true ↔ ∃ u, latest? i id s.history = some (.applyRemote u) ∧ u.kind ≠ .unregister) ∧
      ∀ u, latest? i id s.history = some (.applyRemote u) → u.kind ≠ .unregister →
        u.id = id ∧ ∃ m, u.member = some m ∧ r.member? id = some { m with id := u.id } ∧
          r.knownVersions[id]? = u.version) ∧
    (r.isLocal id = true → r.knownVersions[id]? = none) ∧
    ∀ v, r.knownVersions[id]? = some v → r.isLocal id = false ∧ ∃ u m, latest? i id s.history = some (.applyRemote u) ∧
      u.kind ≠ .unregister ∧ u.version = some v ∧ u.member = some m ∧ r.member? id = some { m with id := u.id } := by
  obtain rfl := (Stage.replayed hrun).eq_registryAt hr
  have hentry (hremote : (registryAt i s.history).isLocal id = false) (e : Entry) :
      (registryAt i s.history).entries[id]? = some e ↔ ∃ u m, latest? i id s.history = some (.applyRemote u) ∧
        u.kind ≠ .unregister ∧ u.member = some m ∧ (⟨{ m with id := u.id }, u.version⟩ : Entry) = e := by
    rw [getElem?_entries_registryAt hopen hremote, Option.bind_eq_some_iff]
    simp only [snapshot?_eq_some]
    constructor
    · rintro ⟨op, hop, u, m, rfl, hrest⟩
      exact ⟨u, m, hop, hrest⟩
    · rintro ⟨u, m, hu, hrest⟩
      exact ⟨_, hu, u, m, rfl, hrest⟩
  have hheld (hremote : (registryAt i s.history).isLocal id = false) {u : Update}
      (hu : latest? i id s.history = some (.applyRemote u)) (hkind : u.kind ≠ .unregister) :
      ∃ m, u.member = some m ∧ (registryAt i s.history).entries[id]? = some ⟨{ m with id := u.id }, u.version⟩ := by
    obtain ⟨m, hm⟩ := exists_member_of_wellFormed (latest?_applyRemote hu).2 hkind
    exact ⟨m, hm, (hentry hremote _).mpr ⟨u, m, hu, hkind, hm, rfl⟩⟩
  refine ⟨fun hremote => ⟨⟨fun hsome => ?_, ?_⟩, fun u hu hkind => ?_⟩, fun hlocal => ?_, fun v hv => ?_⟩
  · obtain ⟨w, hw⟩ := Option.isSome_iff_exists.mp hsome
    obtain ⟨e, he, -⟩ := Option.map_eq_some_iff.mp hw
    obtain ⟨u, m, hu, hkind, -⟩ := (hentry hremote e).mp he
    exact ⟨u, hu, hkind⟩
  · rintro ⟨u, hu, hkind⟩
    obtain ⟨m, -, he⟩ := hheld hremote hu hkind
    simp [member?, he]
  · obtain ⟨m, hm, he⟩ := hheld hremote hu hkind
    exact ⟨(latest?_applyRemote hu).1, m, hm, by simp [member?, he], by simp [getElem?_knownVersions, he, hremote]⟩
  · simp [getElem?_knownVersions, hlocal]
  · rw [getElem?_knownVersions, Option.bind_eq_some_iff] at hv
    obtain ⟨e, he, hversion⟩ := hv
    cases hremote : (registryAt i s.history).isLocal id with
    | true => simp [hremote] at hversion
    | false =>
      obtain ⟨u, m, hu, hkind, hm, rfl⟩ := (hentry hremote e).mp he
      exact ⟨rfl, u, m, hu, hkind, by simpa [hremote] using hversion, hm, by simp [member?, he]⟩

/-- A member is streamed, taken over, streamed again while it is the client's own, let go and streamed once more under
another id; an update without a member comes last. -/
def takenOver : List Move :=
  [.found, .perform 0 (.applyRemote (.ofRegister (Member.new "a" "web") ⟨"n", 1⟩)),
    .perform 0 (.registerLocal (Member.new "a" "mine")),
    .perform 0 (.applyRemote (.ofMetadata (Member.new "a" "web") ⟨"n", 2⟩)), .perform 0 (.unregisterLocal "a"),
    .perform 0 (.applyRemote ⟨"a", .metadata, some (Member.new "b" "web"), some ⟨"n", 3⟩⟩),
    .perform 0 (.applyRemote ⟨"a", .register, none, some ⟨"n", 4⟩⟩)]

theorem replica_after_takeover :
    ∃ s r, Stage.run {} takenOver = some s ∧ s.registries[0]? = some r ∧ r.closed = false ∧ r.isLocal "a" = false ∧
      latest? 0 "a" s.history =
        some (.applyRemote ⟨"a", .metadata, some (Member.new "b" "web"), some ⟨"n", 3⟩⟩) ∧
      r.member? "a" = some (Member.new "a" "web") ∧ r.knownVersions["a"]? = some ⟨"n", 3⟩ := by
  obtain ⟨s, r, hs, hr, hopen, hremote, hlatest⟩ : ∃ s r, Stage.run {} takenOver = some s ∧ s.registries[0]? = some r ∧
      r.closed = false ∧ r.isLocal "a" = false ∧ latest? 0 "a" s.history =
        some (.applyRemote ⟨"a", .metadata, some (Member.new "b" "web"), some ⟨"n", 3⟩⟩) :=
    ⟨_, _, rfl, rfl, rfl, rfl, rfl⟩
  obtain ⟨-, hstored⟩ := (replica_holds_latest hs hr hopen "a").1 hremote
  obtain ⟨-, m, hm, hmember, hversion⟩ := hstored _ hlatest (by decide)
  obtain rfl := Option.some.inj hm
  exact ⟨s, r, hs, hr, hopen, hremote, hlatest, hmember, hversion⟩

end Registry

end Roster
