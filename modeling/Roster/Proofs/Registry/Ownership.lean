import Mathlib.Data.List.Basic
import Roster.Proofs.Registry.Run

/-! What a client registered itself is its own: updates streamed from the registry neither change it nor show in what the
local operations return. `ownership_immune_to_remote` compares a run with the run in which every streamed update is left
out, and reads each local member off the local operations alone. -/
namespace Roster.Registry

/-! Two registries that differ in remote members only -/

/-- Nothing tells the two registries apart but what they hold of others. -/
structure SameOwn (r q : Registry) : Prop where
  closed : r.closed = q.closed
  isLocal : ∀ id, r.isLocal id = q.isLocal id
  owned : ∀ id, r.owned? id = q.owned? id
  lastSubscriber : r.lastSubscriber = q.lastSubscriber

theorem SameOwn.refl (r : Registry) : SameOwn r r := ⟨rfl, fun _ => rfl, fun _ => rfl, rfl⟩

theorem SameOwn.localMembers {r q : Registry} (h : SameOwn r q) : r.localMembers = q.localMembers := by
  have hids : r.localIds = q.localIds := Std.ExtTreeSet.ext_contains h.isLocal
  simp only [Registry.localMembers, hids]
  apply List.filterMap_congr
  intro id hid
  have hq : q.isLocal id = true := (q.isLocal_iff id).mpr (Std.ExtTreeSet.mem_toList.mp hid)
  have hown := h.owned id
  simpa [owned?, h.isLocal id, hq] using hown

theorem SameOwn.applyRemote {r q : Registry} (h : SameOwn r q) (u : Update) :
    SameOwn (r.perform (.applyRemote u)).registry q where
  closed := by rw [closed_perform]; simpa using h.closed
  isLocal id := (isLocal_applyRemote r u id).trans (h.isLocal id)
  owned id := (owned?_applyRemote r u id).trans (h.owned id)
  lastSubscriber := (lastSubscriber_perform r _).trans h.lastSubscriber

theorem SameOwn.perform {r q : Registry} (h : SameOwn r q) (op : Op) (hop : op.isRemote = false) :
    SameOwn (r.perform op).registry (q.perform op).registry where
  closed := by rw [closed_perform, closed_perform, h.closed]
  isLocal id := by
    cases op with
    | registerLocal m => simp [Registry.perform, isLocal_registerLocal, h.isLocal, h.closed]
    | unregisterLocal i => simp [Registry.perform, isLocal_unregisterLocal, h.isLocal]
    | updateLocal i delta => simp [Registry.perform, isLocal_updateLocal, h.isLocal]
    | applyRemote u => simp [Op.isRemote] at hop
    | subscribe f => simp [Registry.perform, isLocal_subscribe, h.isLocal]
    | unsubscribe n => simp [Registry.perform, isLocal_unsubscribe, h.isLocal]
    | close => simp [Registry.perform, isLocal_close]
  owned id := by
    cases op with
    | registerLocal m => simp [Registry.perform, owned?_registerLocal, h.owned, h.closed]
    | unregisterLocal i => simp [Registry.perform, owned?_unregisterLocal, h.owned]
    | updateLocal i delta => simp [Registry.perform, owned?_updateLocal, h.owned]
    | applyRemote u => simp [Op.isRemote] at hop
    | subscribe f => simp [Registry.perform, owned?_subscribe, h.owned]
    | unsubscribe n => simp [Registry.perform, owned?_unsubscribe, h.owned]
    | close => simp [Registry.perform, owned?_close]
  lastSubscriber := by rw [lastSubscriber_perform, lastSubscriber_perform, h.lastSubscriber, h.closed]

/-- A local update finds its member exactly if the client owns one under the id. -/
theorem reply_updateLocal (r : Registry) (id : String) (delta : Keyed String) :
    (r.updateLocal id delta).reply = .flag (r.owned? id).isSome := by
  unfold updateLocal owned? member?
  split
  · split <;> simp [*]
  · rfl

theorem SameOwn.reply {r q : Registry} (h : SameOwn r q) (op : Op) (hop : op.isRemote = false) :
    (r.perform op).reply = (q.perform op).reply := by
  cases op with
  | registerLocal m =>
    simp only [Registry.perform, Registry.registerLocal]
    split <;> split <;> rfl
  | unregisterLocal id =>
    simp only [Registry.perform, Registry.unregisterLocal, h.isLocal id]
    split <;> rfl
  | updateLocal id delta => simp only [Registry.perform, reply_updateLocal, h.owned id]
  | applyRemote u => simp [Op.isRemote] at hop
  | subscribe f =>
    simp only [Registry.perform, Registry.subscribe, h.closed, h.lastSubscriber]
    split <;> rfl
  | unsubscribe n => rfl
  | close => rfl

/-! Runs with and without the stream -/

/-- A run with what was streamed left out. -/
def withoutRemote (ops : List Op) : List Op := ops.filter (!·.isRemote)

theorem sameOwn_foldl {r q : Registry} (h : SameOwn r q) (ops : List Op) :
    SameOwn (ops.foldl (fun r op => (r.perform op).registry) r)
      ((withoutRemote ops).foldl (fun r op => (r.perform op).registry) q) := by
  induction ops generalizing r q with
  | nil => exact h
  | cons op ops ih =>
    cases hop : op.isRemote with
    | false =>
      simp only [withoutRemote, List.filter_cons, hop, Bool.not_false, if_true, List.foldl_cons]
      exact ih (h.perform op hop)
    | true =>
      simp only [withoutRemote, List.filter_cons, hop, Bool.not_true, Bool.false_eq_true, if_false, List.foldl_cons]
      cases op with
      | applyRemote u => exact ih (h.applyRemote u)
      | _ => simp [Op.isRemote] at hop

theorem outcomes_withoutRemote {r q : Registry} (h : SameOwn r q) (ops : List Op) :
    q.outcomes (withoutRemote ops) = (r.outcomes ops).filter (!·.1.isRemote) := by
  induction ops generalizing r q with
  | nil => rfl
  | cons op ops ih =>
    cases hop : op.isRemote with
    | false =>
      simp only [withoutRemote, List.filter_cons, hop, Bool.not_false, if_true, outcomes, h.reply op hop]
      exact congrArg _ (ih (h.perform op hop))
    | true =>
      simp only [withoutRemote, List.filter_cons, hop, Bool.not_true, Bool.false_eq_true, if_false, outcomes]
      cases op with
      | applyRemote u => exact ih (h.applyRemote u)
      | _ => simp [Op.isRemote] at hop

/-! A local member, read off the run -/

/-- The change an operation asks of the client's own member under an id. -/
def Op.delta? (id : String) : Op → Option (Keyed String)
  | .updateLocal i delta => if i = id then some delta else none
  | _ => none

/-- Operations after which a registration under the id no longer counts. -/
def Op.supersedes (id : String) : Op → Bool
  | .registerLocal m => m.id = id
  | .unregisterLocal i => i = id
  | .close => true
  | _ => false

/-- In a run of an open registry the member was registered, and since then neither registered anew nor unregistered. -/
structure OwnedSince (m : Member) (later ops : List Op) : Prop where
  split : ∃ before, ops = before ++ .registerLocal m :: later
  opened : .close ∉ ops
  kept : ∀ op ∈ later, op.supersedes m.id = false

/-- The changes asked of a member, in order. -/
def deltas (id : String) (ops : List Op) : List (Keyed String) := ops.filterMap (Op.delta? id)

theorem deltas_append_singleton (id : String) (ops : List Op) (op : Op) :
    deltas id (ops ++ [op]) = deltas id ops ++ (op.delta? id).toList := by
  cases h : op.delta? id <;> simp [deltas, h]

/-- A registration counts at the end of a run if it came last, or if it counted before and the last operation keeps it. -/
theorem ownedSince_append_singleton {m : Member} {later ops : List Op} {op : Op} :
    OwnedSince m later (ops ++ [op]) ↔
      (later = [] ∧ op = .registerLocal m ∧ .close ∉ ops) ∨
      ∃ rest, later = rest ++ [op] ∧ OwnedSince m rest ops ∧ op.supersedes m.id = false := by
  constructor
  · rintro ⟨⟨before, hsplit⟩, hopen, hkept⟩
    have hops : .close ∉ ops := fun hc => hopen (List.mem_append_left _ hc)
    induction later using List.reverseRecOn with
    | nil =>
      obtain ⟨rfl, hop⟩ := List.append_inj' hsplit rfl
      exact .inl ⟨rfl, by simpa using hop, hops⟩
    | append_singleton rest last _ =>
      rw [← List.cons_append, ← List.append_assoc] at hsplit
      obtain ⟨hbefore, hlast⟩ := List.append_inj' hsplit rfl
      obtain rfl : op = last := by simpa using hlast
      refine .inr ⟨rest, rfl, ⟨⟨before, hbefore⟩, hops, ?_⟩, hkept op (by simp)⟩
      exact fun o ho => hkept o (List.mem_append_left _ ho)
  · rintro (⟨rfl, rfl, hops⟩ | ⟨rest, rfl, ⟨⟨before, rfl⟩, hops, hkept⟩, hop⟩)
    · exact ⟨⟨ops, rfl⟩, by simpa using hops, by simp⟩
    · refine ⟨⟨before, by simp⟩, ?_, ?_⟩
      · intro hc
        rcases List.mem_append.mp hc with hc | hc
        · exact hops hc
        · obtain rfl : Op.close = op := by simpa using hc
          simp [Op.supersedes] at hop
      · intro o ho
        rcases List.mem_append.mp ho with ho | ho
        · exact hkept o ho
        · obtain rfl : o = op := by simpa using ho
          exact hop

theorem closed_after (ops : List Op) : (after ops).closed = decide (.close ∈ ops) := by
  induction ops using List.reverseRecOn with
  | nil => simp [after_nil]
  | append_singleton ops op ih =>
    rw [after_append_singleton, closed_perform, ih, Bool.eq_iff_iff]
    simp [@eq_comm _ op]

/-- The member that a run's local operations make of the last registration under an id. -/
def Leaves (ops : List Op) (id : String) (w : Member) : Prop :=
  ∃ m later, OwnedSince m later ops ∧ m.id = id ∧ (deltas id later).foldl Member.mergeMetadata m = w

theorem leaves_append_singleton {ops : List Op} {op : Op} {id : String} {w : Member} :
    Leaves (ops ++ [op]) id w ↔
      (op = .registerLocal w ∧ w.id = id ∧ .close ∉ ops) ∨
      (op.supersedes id = false ∧ ∃ v, Leaves ops id v ∧ (op.delta? id).toList.foldl Member.mergeMetadata v = w) := by
  constructor
  · rintro ⟨m, later, hsince, rfl, rfl⟩
    rcases ownedSince_append_singleton.mp hsince with ⟨rfl, hop, hops⟩ | ⟨rest, rfl, hrest, hop⟩
    · exact .inl ⟨hop, rfl, hops⟩
    · refine .inr ⟨hop, _, ⟨m, rest, hrest, rfl, rfl⟩, ?_⟩
      rw [deltas_append_singleton, List.foldl_append]
  · rintro (⟨rfl, rfl, hops⟩ | ⟨hop, _, ⟨m, rest, hrest, rfl, rfl⟩, rfl⟩)
    · exact ⟨w, [], ownedSince_append_singleton.mpr (.inl ⟨rfl, rfl, hops⟩), rfl, rfl⟩
    · refine ⟨m, rest ++ [op], ownedSince_append_singleton.mpr (.inr ⟨rest, rfl, hrest, hop⟩), rfl, ?_⟩
      rw [deltas_append_singleton, List.foldl_append]

theorem Leaves.opened {ops : List Op} {id : String} {w : Member} (h : Leaves ops id w) : .close ∉ ops := by
  obtain ⟨m, later, hsince, -, -⟩ := h
  exact hsince.opened

/-- The client's own member under an id is the one registered last, with all that was asked of it since. -/
theorem owned?_after_iff (ops : List Op) (id : String) (w : Member) :
    (after ops).owned? id = some w ↔ Leaves ops id w := by
  induction ops using List.reverseRecOn generalizing w with
  | nil =>
    constructor
    · intro h
      rw [after_nil, owned?_empty] at h
      exact nomatch h
    · rintro ⟨m, later, ⟨⟨before, hsplit⟩, -, -⟩, -⟩
      simp at hsplit
  | append_singleton ops op ih =>
    rw [after_append_singleton, leaves_append_singleton]
    cases op with
    | registerLocal m =>
      simp only [perform, owned?_registerLocal, closed_after, Op.supersedes, Op.delta?, Option.toList_none,
        List.foldl_nil, exists_eq_right, Op.registerLocal.injEq, decide_eq_false_iff_not]
      by_cases hc : Op.close ∈ ops
      · have hno : ¬ Leaves ops id w := fun h => h.opened hc
        simp [hc, ih, hno]
      · by_cases hm : m.id = id
        · simp only [hc, hm, not_false_eq_true, and_self, if_true, Option.some.injEq, and_true, not_true_eq_false,
            false_and, or_false]
          constructor
          · rintro rfl
            exact ⟨rfl, hm⟩
          · exact fun h => h.1
        · simp only [hc, hm, not_false_eq_true, and_false, if_false, ih, true_and, and_true]
          constructor
          · exact .inr
          · rintro (⟨rfl, h⟩ | h)
            · exact absurd h hm
            · exact h
    | unregisterLocal i =>
      by_cases hi : i = id <;> simp [perform, owned?_unregisterLocal, Op.supersedes, Op.delta?, hi, ih]
    | updateLocal i delta =>
      by_cases hi : i = id <;> simp [perform, owned?_updateLocal, Op.supersedes, Op.delta?, hi, ih]
    | applyRemote u => simp [perform, owned?_applyRemote, Op.supersedes, Op.delta?, ih]
    | subscribe f => simp [perform, owned?_subscribe, Op.supersedes, Op.delta?, ih]
    | unsubscribe n => simp [perform, owned?_unsubscribe, Op.supersedes, Op.delta?, ih]
    | close => simp [perform, owned?_close, Op.supersedes]

/-- Every local id has its member. -/
theorem isLocal_after_iff (ops : List Op) (id : String) :
    (after ops).isLocal id = ((after ops).owned? id).isSome := by
  induction ops using List.reverseRecOn with
  | nil => rfl
  | append_singleton ops op ih =>
    rw [after_append_singleton]
    cases op with
    | registerLocal m =>
      simp only [perform, isLocal_registerLocal, owned?_registerLocal, ih]
      by_cases hm : m.id = id <;> cases (after ops).closed <;> simp [hm]
    | unregisterLocal i =>
      by_cases hi : i = id <;> simp [perform, isLocal_unregisterLocal, owned?_unregisterLocal, hi, ih]
    | updateLocal i delta =>
      by_cases hi : i = id <;> simp [perform, isLocal_updateLocal, owned?_updateLocal, hi, ih]
    | applyRemote u => simp [perform, isLocal_applyRemote, owned?_applyRemote, ih]
    | subscribe f => simp [perform, isLocal_subscribe, owned?_subscribe, ih]
    | unsubscribe n => simp [perform, isLocal_unsubscribe, owned?_unsubscribe, ih]
    | close => simp [perform, isLocal_close, owned?_close]

/-- Merging changes leaves all but the metadata, and of two changes to a key the later one wins. -/
theorem foldl_mergeMetadata (m : Member) (ds : List (Keyed String)) :
    { ds.foldl Member.mergeMetadata m with metadata := m.metadata } = m ∧
      ∀ k : String,
        (ds.foldl Member.mergeMetadata m).metadata[k]? = (ds.reverse.findSome? fun d => d[k]?).or m.metadata[k]? := by
  induction ds using List.reverseRecOn with
  | nil => exact ⟨rfl, fun k => rfl⟩
  | append_singleton ds d ih =>
    simp only [List.foldl_append, List.foldl_cons, List.foldl_nil]
    refine ⟨ih.1, fun k => ?_⟩
    rw [Member.getElem?_mergeMetadata, ih.2 k]
    cases h : d[k]? <;> simp [h]

theorem Leaves.id_eq {ops : List Op} {id : String} {w : Member} (h : Leaves ops id w) : w.id = id := by
  obtain ⟨m, later, -, rfl, rfl⟩ := h
  have hfixed := congrArg Member.id (foldl_mergeMetadata m (deltas m.id later)).1
  exact hfixed

/-- A run shows the client the same members of its own, and returns the same from every local operation, as the run
without the updates streamed in between. Each such member is the one registered last under its id with the changes
asked of it since, in their order; nothing but its metadata differs from what was registered. -/
theorem ownership_immune_to_remote (ops : List Op) :
    (after (withoutRemote ops)).localMembers = (after ops).localMembers ∧
    (∀ id, (after (withoutRemote ops)).isLocal id = (after ops).isLocal id) ∧
    outcomes {} (withoutRemote ops) = (outcomes {} ops).filter (!·.1.isRemote) ∧
    (∀ id, (after ops).isLocal id = true ↔ ∃ w ∈ (after ops).localMembers, w.id = id) ∧
    (∀ w, w ∈ (after ops).localMembers ↔
      ∃ m later, OwnedSince m later ops ∧ (deltas m.id later).foldl Member.mergeMetadata m = w) ∧
    ∀ (m : Member) (ds : List (Keyed String)),
      { ds.foldl Member.mergeMetadata m with metadata := m.metadata } = m ∧
      ∀ k : String,
        (ds.foldl Member.mergeMetadata m).metadata[k]? = (ds.reverse.findSome? fun d => d[k]?).or m.metadata[k]? := by
  have hsame : SameOwn (after ops) (after (withoutRemote ops)) := sameOwn_foldl (.refl {}) ops
  have hlocal : ∀ id, (after ops).isLocal id = true ↔ ∃ w ∈ (after ops).localMembers, w.id = id := by
    intro id
    simp only [isLocal_after_iff, Option.isSome_iff_exists, mem_localMembers]
    constructor
    · rintro ⟨w, hw⟩
      exact ⟨w, ⟨id, hw⟩, ((owned?_after_iff ops id w).mp hw).id_eq⟩
    · rintro ⟨w, ⟨i, hw⟩, rfl⟩
      rw [← ((owned?_after_iff ops i w).mp hw).id_eq] at hw
      exact ⟨w, hw⟩
  have hmember : ∀ w, w ∈ (after ops).localMembers ↔
      ∃ m later, OwnedSince m later ops ∧ (deltas m.id later).foldl Member.mergeMetadata m = w := by
    intro w
    simp only [mem_localMembers, owned?_after_iff, Leaves]
    constructor
    · rintro ⟨id, m, later, hsince, rfl, hw⟩
      exact ⟨m, later, hsince, hw⟩
    · rintro ⟨m, later, hsince, hw⟩
      exact ⟨m.id, m, later, hsince, rfl, hw⟩
  exact ⟨hsame.localMembers.symm, fun id => (hsame.isLocal id).symm, outcomes_withoutRemote (.refl {}) ops,
    hlocal, hmember, foldl_mergeMetadata⟩

end Roster.Registry
