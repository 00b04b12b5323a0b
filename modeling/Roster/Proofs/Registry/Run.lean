import Mathlib.Data.List.Induction
import Roster.Registry

/-! Runs of a registry's operations, and the part of a registry that its own client put there. `owned?` is that part seen
from an id; each operation has one equation through it. -/
namespace Roster

/-- What every step of a run keeps, the run keeps. -/
theorem foldlM_induction {α β : Type} {step : α → β → Option α} {P : α → Prop} {moves : List β} {s t : α}
    (hrun : moves.foldlM step s = some t) (h : P s) (hstep : ∀ u v m, P u → step u m = some v → P v) : P t := by
  induction moves generalizing s with
  | nil => exact Option.some.inj hrun ▸ h
  | cons m moves ih =>
    rw [List.foldlM_cons] at hrun
    obtain ⟨u, hu, hrest⟩ := Option.bind_eq_some_iff.mp hrun
    exact ih hrest (hstep s u m h hu)

namespace Registry

/-- The registry a run of operations leaves, starting from an empty one. -/
def after (ops : List Op) : Registry := ops.foldl (fun r op => (r.perform op).registry) {}

/-- Operations with what they returned. -/
def outcomes (r : Registry) : List Op → List (Op × Reply)
  | [] => []
  | op :: ops => (op, (r.perform op).reply) :: (r.perform op).registry.outcomes ops

def Op.isRemote : Op → Bool
  | .applyRemote _ => true
  | _ => false

/-- The operation changes what is stored. -/
def Op.applies (r : Registry) : Op → Bool
  | .registerLocal _ => !r.closed
  | .unregisterLocal id => r.isLocal id
  | .updateLocal id _ => r.isLocal id
  | .applyRemote u =>
    u.id ≠ "" && !r.closed && !r.isLocal u.id &&
      match u.kind with
      | .unregister => decide (u.id ∈ r.entries)
      | _ => u.member.isSome
  | _ => false

/-- The member held under an id if it is the client's own. -/
def owned? (r : Registry) (id : String) : Option Member :=
  if r.isLocal id then r.member? id else none

theorem owned?_empty (id : String) : owned? {} id = none := by
  simp [owned?, isLocal]

theorem after_nil : after [] = {} := rfl

theorem after_append (ops more : List Op) :
    after (ops ++ more) = more.foldl (fun r op => (r.perform op).registry) (after ops) := by
  simp [after]

theorem after_append_singleton (ops : List Op) (op : Op) :
    after (ops ++ [op]) = ((after ops).perform op).registry := by
  simp [after_append]

@[simp] theorem changed_registry (r : Registry) (reply : Reply) : (r.changed reply).registry = r := rfl

@[simp] theorem changed_reply (r : Registry) (reply : Reply) : (r.changed reply).reply = reply := rfl

@[simp] theorem unchanged_registry (r : Registry) (reply : Reply) : (r.unchanged reply).registry = r := rfl

@[simp] theorem unchanged_reply (r : Registry) (reply : Reply) : (r.unchanged reply).reply = reply := rfl

theorem isLocal_iff (r : Registry) (id : String) : r.isLocal id = true ↔ id ∈ r.localIds :=
  Std.ExtTreeSet.contains_iff_mem

theorem mem_localMembers (r : Registry) (m : Member) :
    m ∈ r.localMembers ↔ ∃ id, r.owned? id = some m := by
  simp only [localMembers, List.mem_filterMap, Std.ExtTreeSet.mem_toList, owned?]
  constructor
  · rintro ⟨id, hid, hm⟩
    exact ⟨id, by rw [if_pos ((r.isLocal_iff id).mpr hid), hm]⟩
  · rintro ⟨id, hm⟩
    split at hm
    · next hid => exact ⟨id, (r.isLocal_iff id).mp hid, hm⟩
    · exact (nomatch hm)

/-! What each operation does to the client's own part -/

/-- A streamed update changes an entry and is announced to all subscribers, or it changes nothing. -/
theorem applyRemote_cases (r : Registry) (u : Update) :
    ((Op.applyRemote u).applies r = true ∧ (r.applyRemote u).reply = .applied none ∧
        ∃ entries, (r.applyRemote u).registry = { r with entries } ∧ (r.applyRemote u).due = r.audience) ∨
      ((Op.applyRemote u).applies r = false ∧ (r.applyRemote u).registry = r ∧ (r.applyRemote u).due = []) := by
  obtain ⟨id, kind, member, version⟩ := u
  unfold applyRemote
  by_cases hid : id = ""
  · rw [if_pos hid]
    exact .inr ⟨by simp [Op.applies, hid], rfl, rfl⟩
  by_cases hskip : (r.closed || r.isLocal id) = true
  · rw [if_neg hid, if_pos hskip]
    refine .inr ⟨?_, rfl, rfl⟩
    rcases Bool.or_eq_true_iff.mp hskip with hc | hl <;> simp [Op.applies, *]
  · rw [if_neg hid, if_neg hskip]
    obtain ⟨hopen, hlocal⟩ : r.closed = false ∧ r.isLocal id = false := by simpa using hskip
    cases kind with
    | unregister =>
      by_cases hheld : id ∈ r.entries
      · simp only [if_pos hheld]
        exact .inl ⟨by simp [Op.applies, hid, hopen, hlocal, hheld], rfl, _, rfl, rfl⟩
      · simp only [if_neg hheld]
        exact .inr ⟨by simp [Op.applies, hheld], rfl, rfl⟩
    | register =>
      cases member with
      | none => exact .inr ⟨by simp [Op.applies], rfl, rfl⟩
      | some m => exact .inl ⟨by simp [Op.applies, hid, hopen, hlocal], rfl, _, rfl, rfl⟩
    | metadata =>
      cases member with
      | none => exact .inr ⟨by simp [Op.applies], rfl, rfl⟩
      | some m => exact .inl ⟨by simp [Op.applies, hid, hopen, hlocal], rfl, _, rfl, rfl⟩

/-- Whatever a streamed update does, it does to the entries. -/
theorem applyRemote_registry (r : Registry) (u : Update) :
    ∃ entries, (r.applyRemote u).registry = { r with entries } := by
  obtain ⟨-, -, entries, hr, -⟩ | ⟨-, hr, -⟩ := applyRemote_cases r u
  · exact ⟨entries, hr⟩
  · exact ⟨r.entries, hr⟩

/-- An update that is refused changes nothing. -/
theorem applyRemote_of_fault {r : Registry} {u : Update} {f : UpdateFault}
    (h : (r.applyRemote u).reply = .applied (some f)) : (r.applyRemote u).registry = r := by
  obtain ⟨-, hreply, -⟩ | ⟨-, hr, -⟩ := applyRemote_cases r u
  · rw [hreply] at h
    exact nomatch h
  · exact hr

theorem updateLocal_registry (r : Registry) (id : String) (delta : Keyed String) :
    ∃ entries, (r.updateLocal id delta).registry = { r with entries } := by
  unfold updateLocal
  split
  · split
    · exact ⟨_, rfl⟩
    · exact ⟨r.entries, rfl⟩
  · exact ⟨r.entries, rfl⟩

theorem closed_perform (r : Registry) (op : Op) :
    (r.perform op).registry.closed = (r.closed || decide (op = .close)) := by
  cases op with
  | registerLocal m =>
    simp only [perform, registerLocal, reduceCtorEq, decide_false, Bool.or_false]
    split <;> rfl
  | unregisterLocal id =>
    simp only [perform, unregisterLocal, reduceCtorEq, decide_false, Bool.or_false]
    split <;> rfl
  | updateLocal id delta =>
    obtain ⟨entries, h⟩ := updateLocal_registry r id delta
    simp [perform, h]
  | applyRemote u =>
    obtain ⟨entries, h⟩ := applyRemote_registry r u
    simp [perform, h]
  | subscribe filter =>
    simp only [perform, subscribe, reduceCtorEq, decide_false, Bool.or_false]
    split <;> rfl
  | unsubscribe subscriber => simp [perform, unsubscribe]
  | close => simp [perform, close]

theorem lastSubscriber_perform (r : Registry) (op : Op) :
    (r.perform op).registry.lastSubscriber =
      match op with
      | .subscribe _ => if r.closed then r.lastSubscriber else r.lastSubscriber + 1
      | _ => r.lastSubscriber := by
  cases op with
  | registerLocal m =>
    simp only [perform, registerLocal]
    split <;> rfl
  | unregisterLocal id =>
    simp only [perform, unregisterLocal]
    split <;> rfl
  | updateLocal id delta =>
    obtain ⟨entries, h⟩ := updateLocal_registry r id delta
    simp [perform, h]
  | applyRemote u =>
    obtain ⟨entries, h⟩ := applyRemote_registry r u
    simp [perform, h]
  | subscribe filter =>
    simp only [perform, subscribe]
    split <;> simp_all
  | unsubscribe subscriber => rfl
  | close => rfl

theorem isLocal_registerLocal (r : Registry) (m : Member) (id : String) :
    (r.registerLocal m).registry.isLocal id = (r.isLocal id || !r.closed && decide (m.id = id)) := by
  unfold registerLocal
  cases r.closed with
  | true => simp
  | false =>
    rw [Bool.eq_iff_iff]
    simp [isLocal_iff, or_comm]

theorem isLocal_unregisterLocal (r : Registry) (member id : String) :
    (r.unregisterLocal member).registry.isLocal id = (r.isLocal id && !decide (member = id)) := by
  unfold unregisterLocal
  rw [Bool.eq_iff_iff]
  split
  · simp [isLocal_iff, and_comm]
  · next h =>
    rw [isLocal_iff] at h
    simp only [unchanged_registry, Bool.and_eq_true, isLocal_iff, Bool.not_eq_true', decide_eq_false_iff_not,
      iff_self_and]
    rintro hid rfl
    exact h hid

theorem isLocal_updateLocal (r : Registry) (member : String) (delta : Keyed String) (id : String) :
    (r.updateLocal member delta).registry.isLocal id = r.isLocal id := by
  obtain ⟨entries, h⟩ := updateLocal_registry r member delta
  rw [h, isLocal, isLocal]

theorem isLocal_applyRemote (r : Registry) (u : Update) (id : String) :
    (r.applyRemote u).registry.isLocal id = r.isLocal id := by
  obtain ⟨entries, h⟩ := applyRemote_registry r u
  rw [h, isLocal, isLocal]

theorem isLocal_subscribe (r : Registry) (filter : Option Filter) (id : String) :
    (r.subscribe filter).registry.isLocal id = r.isLocal id := by
  unfold subscribe
  split <;> rfl

theorem isLocal_unsubscribe (r : Registry) (subscriber : Nat) (id : String) :
    (r.unsubscribe subscriber).registry.isLocal id = r.isLocal id := rfl

theorem isLocal_close (r : Registry) (id : String) : r.close.registry.isLocal id = false := by
  simp [close, isLocal]

theorem owned?_registerLocal (r : Registry) (m : Member) (id : String) :
    (r.registerLocal m).registry.owned? id =
      if r.closed = false ∧ m.id = id then some m else r.owned? id := by
  cases hc : r.closed with
  | true => simp [registerLocal, hc]
  | false =>
    simp only [owned?, isLocal_registerLocal, hc, true_and]
    by_cases hm : m.id = id
    · simp [hm, registerLocal, hc, member?]
    · simp [hm, registerLocal, hc, member?, Std.ExtTreeMap.getElem?_insert]

theorem owned?_unregisterLocal (r : Registry) (member id : String) :
    (r.unregisterLocal member).registry.owned? id = if member = id then none else r.owned? id := by
  by_cases hm : member = id
  · simp [owned?, isLocal_unregisterLocal, hm]
  · simp only [owned?, isLocal_unregisterLocal, hm, decide_false, Bool.not_false, Bool.and_true, if_false]
    congr 1
    unfold unregisterLocal
    split
    · simp [member?, Std.ExtTreeMap.getElem?_erase, hm]
    · rfl

theorem owned?_updateLocal (r : Registry) (member : String) (delta : Keyed String) (id : String) :
    (r.updateLocal member delta).registry.owned? id =
      if member = id then (r.owned? id).map (·.mergeMetadata delta) else r.owned? id := by
  simp only [owned?, isLocal_updateLocal]
  by_cases hm : member = id
  · subst hm
    cases hl : r.isLocal member with
    | false => simp
    | true =>
      simp only [updateLocal, hl, if_true]
      split
      · next e he => simp [member?, he]
      · next he => simp [member?, he]
  · rw [if_neg hm]
    congr 1
    unfold updateLocal
    split
    · split
      · simp [member?, Std.ExtTreeMap.getElem?_insert, hm]
      · rfl
    · rfl

/-- An update about a member of the client's own is ignored; any other leaves the client's own members alone. -/
theorem owned?_applyRemote (r : Registry) (u : Update) (id : String) :
    (r.applyRemote u).registry.owned? id = r.owned? id := by
  simp only [owned?, isLocal_applyRemote]
  cases hl : r.isLocal id with
  | false => rfl
  | true =>
    simp only [if_true]
    by_cases hu : u.id = id
    · unfold applyRemote
      split
      · rfl
      · simp [hu, hl]
    · unfold applyRemote
      split
      · rfl
      · split
        · rfl
        · split
          · split
            · simp [member?, Std.ExtTreeMap.getElem?_erase, hu]
            · rfl
          · rfl
          · simp [member?, Std.ExtTreeMap.getElem?_insert, hu]

theorem owned?_subscribe (r : Registry) (filter : Option Filter) (id : String) :
    (r.subscribe filter).registry.owned? id = r.owned? id := by
  unfold subscribe
  split <;> rfl

theorem owned?_unsubscribe (r : Registry) (subscriber : Nat) (id : String) :
    (r.unsubscribe subscriber).registry.owned? id = r.owned? id := rfl

theorem owned?_close (r : Registry) (id : String) : r.close.registry.owned? id = none := by
  simp [owned?, isLocal_close]

end Registry

end Roster
