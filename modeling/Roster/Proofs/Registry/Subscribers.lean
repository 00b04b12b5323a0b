import Mathlib.Data.List.Nodup
import Mathlib.Data.List.Range
import Roster.Proofs.Registry.Moves
import Roster.Proofs.Registry.Ownership

/-! The subscribers of a registry, read off its history. A subscription makes one, and its reply carries the id. It stays
subscribed until it unsubscribes or the registry closes. `Roll` ties what the registry keeps of its subscribers to that. -/
namespace Roster.Registry

/-- The subscriber an event made. -/
def Event.made? (i : Nat) : Event → Option Subscriber
  | .performed j (.subscribe filter) (.handle (some n)) _ => if j = i then some ⟨n, filter⟩ else none
  | _ => none

/-- The subscribers a registry made, the newest first. -/
def made (i : Nat) (history : List Event) : List Subscriber := history.filterMap (Event.made? i)

/-- The subscriber unsubscribes, or its registry closes. -/
def Event.retires (i n : Nat) : Event → Bool
  | .performed j (.unsubscribe m) _ _ => j = i && m = n
  | .performed j .close _ _ => j = i
  | _ => false

def retired (i n : Nat) (history : List Event) : Bool := history.any (Event.retires i n)

/-- Made by the registry, and neither unsubscribed nor closed out since. -/
def Subscribed (i : Nat) (history : List Event) (sub : Subscriber) : Prop :=
  sub ∈ made i history ∧ retired i sub.id history = false

/-! Operations on members -/

/-- Operations that are about members and not about subscribers. -/
def Op.onMembers : Op → Bool
  | .registerLocal _ | .unregisterLocal _ | .updateLocal _ _ | .applyRemote _ => true
  | _ => false

/-- An operation on members is announced to all subscribers if it changes what is stored, and to nobody if it does not. It
leaves the subscribers themselves alone. -/
theorem perform_onMembers {r : Registry} (hlocal : ∀ id, r.isLocal id = (r.owned? id).isSome) {op : Op}
    (hop : op.onMembers = true) :
    (op.applies r = true ∧ ∃ entries localIds, (r.perform op).registry = { r with entries, localIds } ∧
        (r.perform op).due = r.audience) ∨
      (op.applies r = false ∧ (r.perform op).registry = r ∧ (r.perform op).due = []) := by
  cases op with
  | registerLocal m =>
    simp only [Op.applies, perform, registerLocal]
    cases hc : r.closed with
    | true => exact .inr ⟨rfl, rfl, rfl⟩
    | false => exact .inl ⟨rfl, _, _, rfl, rfl⟩
  | unregisterLocal id =>
    simp only [Op.applies, perform, unregisterLocal]
    cases hl : r.isLocal id with
    | true => exact .inl ⟨rfl, _, _, rfl, rfl⟩
    | false => exact .inr ⟨rfl, rfl, rfl⟩
  | updateLocal id delta =>
    simp only [Op.applies, perform, updateLocal]
    cases hl : r.isLocal id with
    | true =>
      have howned : (r.owned? id).isSome = true := hlocal id ▸ hl
      simp only [if_true]
      cases he : r.entries[id]? with
      | some e => exact .inl ⟨trivial, _, _, rfl, rfl⟩
      | none => simp [owned?, member?, he] at howned
    | false => exact .inr ⟨rfl, rfl, rfl⟩
  | applyRemote u =>
    obtain ⟨ha, -, entries, hr, hd⟩ | ⟨ha, hr, hd⟩ := applyRemote_cases r u
    · exact .inl ⟨ha, entries, r.localIds, hr, hd⟩
    · exact .inr ⟨ha, hr, hd⟩
  | _ => exact absurd hop Bool.false_ne_true

/-- Whom an operation makes due: all subscribers if it changes what is stored, the new subscriber if it makes one, and
otherwise nobody. -/
theorem perform_due {r : Registry} (hlocal : ∀ id, r.isLocal id = (r.owned? id).isSome) (op : Op) :
    (op.applies r = true ∧ (r.perform op).due = r.audience) ∨
      (∃ filter, op = .subscribe filter ∧ r.closed = false ∧
        (r.perform op).reply = .handle (some (r.lastSubscriber + 1)) ∧
        (r.perform op).due = [⟨r.lastSubscriber + 1, filter⟩]) ∨
      (op.applies r = false ∧ (r.perform op).due = [] ∧
        ∀ filter, op = .subscribe filter → r.closed = true ∧ (r.perform op).reply = .handle none) := by
  cases hop : op.onMembers with
  | true =>
    obtain ⟨ha, -, -, -, hd⟩ | ⟨ha, -, hd⟩ := perform_onMembers hlocal hop
    · exact .inl ⟨ha, hd⟩
    · refine .inr (.inr ⟨ha, hd, ?_⟩)
      rintro filter rfl
      exact absurd hop Bool.false_ne_true
  | false =>
    cases op with
    | subscribe filter =>
      simp only [perform, subscribe]
      cases hc : r.closed with
      | true => exact .inr (.inr ⟨rfl, rfl, fun _ _ => ⟨rfl, rfl⟩⟩)
      | false => exact .inr (.inl ⟨filter, rfl, rfl, rfl, rfl⟩)
    | unsubscribe n =>
      refine .inr (.inr ⟨rfl, rfl, ?_⟩)
      rintro filter ⟨⟩
    | close =>
      refine .inr (.inr ⟨rfl, rfl, ?_⟩)
      rintro filter ⟨⟩
    | _ => exact absurd hop.symm Bool.false_ne_true

/-! The roll -/

/-- What a registry keeps of its subscribers is what its history says of them. -/
structure Roll (i : Nat) (r : Registry) (history : List Event) : Prop where
  /-- Ids are given in order, starting from 1, each once. -/
  numbered : (made i history).map (·.id) = (List.range' 1 r.lastSubscriber).reverse
  subscribed : ∀ n sub, r.subscribers[n]? = some sub ↔ sub.id = n ∧ Subscribed i history sub
  silenced : ∀ n, n ∈ r.silenced ↔ (1 ≤ n ∧ n ≤ r.lastSubscriber) ∧ retired i n history = true
  /-- Of an open registry only subscribers that it made retire. -/
  known : ∀ n, retired i n history = true → r.closed = true ∨ n ≤ r.lastSubscriber
  deserted : r.closed = true → r.subscribers = ∅

theorem made_cons (i : Nat) (e : Event) (history : List Event) :
    made i (e :: history) = (e.made? i).toList ++ made i history := by
  cases h : e.made? i <;> simp [made, h]

theorem retired_cons (i n : Nat) (e : Event) (history : List Event) :
    retired i n (e :: history) = (e.retires i n || retired i n history) := rfl

namespace Roll

variable {i : Nat} {r q : Registry} {history : List Event} {e : Event}

theorem mem_ids (h : Roll i r history) {n : Nat} : (∃ sub ∈ made i history, sub.id = n) ↔ 1 ≤ n ∧ n ≤ r.lastSubscriber := by
  have hmem : n ∈ (made i history).map (·.id) ↔ n ∈ (List.range' 1 r.lastSubscriber).reverse := by rw [h.numbered]
  rw [List.mem_map, List.mem_reverse, List.mem_range'_1] at hmem
  rw [hmem]
  omega

theorem nodup_ids (h : Roll i r history) : ((made i history).map (·.id)).Nodup := by
  rw [h.numbered]
  exact List.nodup_reverse.mpr List.nodup_range'

theorem mem_audience (h : Roll i r history) {sub : Subscriber} : sub ∈ r.audience ↔ Subscribed i history sub := by
  simp only [audience, List.mem_map, Prod.exists, Std.ExtTreeMap.mem_toList_iff_getElem?_eq_some, h.subscribed]
  constructor
  · rintro ⟨n, s, ⟨-, hs⟩, rfl⟩
    exact hs
  · intro hs
    exact ⟨sub.id, sub, ⟨rfl, hs⟩, rfl⟩

theorem nodup_audience (h : Roll i r history) : (r.audience.map (·.id)).Nodup := by
  have hkeys : r.audience.map (·.id) = r.subscribers.keys := by
    rw [audience, List.map_map, ← Std.ExtTreeMap.map_fst_toList_eq_keys]
    apply List.map_congr_left
    intro p hp
    have hp' := Std.ExtTreeMap.mem_toList_iff_getElem?_eq_some.mp hp
    exact ((h.subscribed p.1 p.2).mp hp').1
  rw [hkeys]
  exact Std.ExtTreeMap.nodup_keys

/-- Subscribers with one id are one subscriber. -/
theorem eq_of_id (h : Roll i r history) {sub other : Subscriber} (hs : sub ∈ made i history) (ho : other ∈ made i history)
    (hid : sub.id = other.id) : sub = other :=
  List.inj_on_of_nodup_map h.nodup_ids hs ho hid

theorem silenced_iff (h : Roll i r history) {sub : Subscriber} (hs : sub ∈ made i history) :
    sub.id ∈ r.silenced ↔ retired i sub.id history = true := by
  rw [h.silenced, and_iff_right (h.mem_ids.mp ⟨sub, hs, rfl⟩)]

theorem le_of_retired (h : Roll i r history) (hopen : r.closed = false) {n : Nat} (hn : retired i n history = true) :
    n ≤ r.lastSubscriber := by
  obtain hc | hle := h.known n hn
  · rw [hopen] at hc
    exact nomatch hc
  · exact hle

/-- The id given next has not retired before. -/
theorem retired_next (h : Roll i r history) (hopen : r.closed = false) :
    retired i (r.lastSubscriber + 1) history = false := by
  rw [← Bool.not_eq_true]
  intro hret
  have hle := h.le_of_retired hopen hret
  omega

theorem start (i : Nat) : Roll i {} [] where
  numbered := rfl
  subscribed n sub := by simp [Subscribed, made]
  silenced n := by simp [retired]
  known n hn := by simp [retired] at hn
  deserted hc := nomatch hc

/-- An event that is not about subscribers, and a registry that keeps the same of them. -/
theorem frame (h : Roll i r history) (hmade : e.made? i = none) (hretires : ∀ n, e.retires i n = false)
    (hsub : q.subscribers = r.subscribers) (hlast : q.lastSubscriber = r.lastSubscriber)
    (hsil : q.silenced = r.silenced) (hclosed : q.closed = r.closed) : Roll i q (e :: history) := by
  have hm : made i (e :: history) = made i history := by rw [made_cons, hmade]; rfl
  have hr (n : Nat) : retired i n (e :: history) = retired i n history := by rw [retired_cons, hretires]; rfl
  refine ⟨?_, fun n sub => ?_, fun n => ?_, fun n => ?_, fun hc => ?_⟩
  · rw [hm, hlast, h.numbered]
  · rw [hsub, h.subscribed, Subscribed, Subscribed, hm, hr]
  · rw [hsil, hlast, hr, h.silenced]
  · rw [hr, hlast, hclosed]
    exact h.known n
  · rw [hsub, h.deserted (hclosed ▸ hc)]

theorem subscribe (h : Roll i r history) (filter : Option Filter) :
    Roll i (r.subscribe filter).registry
      (.performed i (.subscribe filter) (r.subscribe filter).reply (r.subscribe filter).due :: history) := by
  unfold Registry.subscribe
  cases hopen : r.closed with
  | true => exact h.frame rfl (fun _ => rfl) rfl rfl rfl rfl
  | false =>
    simp only [Bool.false_eq_true, if_false]
    have hmade (due : List Subscriber) :
        made i (.performed i (.subscribe filter) (.handle (some (r.lastSubscriber + 1))) due :: history) =
          ⟨r.lastSubscriber + 1, filter⟩ :: made i history := by
      simp [made_cons, Event.made?]
    have hretired (n : Nat) (due : List Subscriber) :
        retired i n (.performed i (.subscribe filter) (.handle (some (r.lastSubscriber + 1))) due :: history) =
          retired i n history := rfl
    have hold {sub : Subscriber} (hs : sub ∈ made i history) : sub.id ≠ r.lastSubscriber + 1 := by
      have hle := (h.mem_ids.mp ⟨sub, hs, rfl⟩).2
      omega
    refine ⟨?_, fun n sub => ?_, fun n => ?_, fun n => ?_, nofun⟩
    · rw [hmade, List.map_cons, h.numbered, List.range'_concat]
      simp [Nat.add_comm]
    · rw [Std.ExtTreeMap.getElem?_insert, Subscribed, hmade, hretired, List.mem_cons]
      simp only [Nat.compare_eq_eq]
      by_cases hn : r.lastSubscriber + 1 = n
      · subst hn
        rw [if_pos rfl, Option.some.injEq]
        constructor
        · rintro rfl
          exact ⟨rfl, .inl rfl, h.retired_next hopen⟩
        · rintro ⟨hid, rfl | hs, -⟩
          · rfl
          · exact absurd hid (hold hs)
      · rw [if_neg hn, h.subscribed, Subscribed]
        constructor
        · rintro ⟨hid, hs, hret⟩
          exact ⟨hid, .inr hs, hret⟩
        · rintro ⟨hid, rfl | hs, hret⟩
          · exact absurd hid hn
          · exact ⟨hid, hs, hret⟩
    · rw [hretired, h.silenced]
      constructor
      · rintro ⟨⟨hpos, hle⟩, hret⟩
        exact ⟨⟨hpos, Nat.le_succ_of_le hle⟩, hret⟩
      · rintro ⟨⟨hpos, -⟩, hret⟩
        exact ⟨⟨hpos, h.le_of_retired hopen hret⟩, hret⟩
    · exact fun hret => .inr (Nat.le_succ_of_le (h.le_of_retired hopen hret))

theorem unsubscribe (h : Roll i r history) {m : Nat} (hm : (Op.unsubscribe m).permitted r = true) (reply : Reply)
    (due : List Subscriber) :
    Roll i (r.unsubscribe m).registry (.performed i (.unsubscribe m) reply due :: history) := by
  obtain ⟨hpos, hle⟩ : 0 < m ∧ m ≤ r.lastSubscriber := by simpa [Op.permitted] using hm
  have hmade : made i (.performed i (.unsubscribe m) reply due :: history) = made i history := rfl
  have hretired (n : Nat) :
      retired i n (.performed i (.unsubscribe m) reply due :: history) = (decide (m = n) || retired i n history) := by
    simp [retired_cons, Event.retires]
  refine ⟨h.numbered, fun n sub => ?_, fun n => ?_, fun n => ?_, fun hc => ?_⟩
  · simp only [Registry.unsubscribe, unchanged_registry, Std.ExtTreeMap.getElem?_erase, Subscribed, hmade, hretired,
      Nat.compare_eq_eq]
    by_cases hn : m = n
    · subst hn
      simp only [if_true, reduceCtorEq, false_iff]
      rintro ⟨rfl, -, hret⟩
      simp at hret
    · rw [if_neg hn, h.subscribed, Subscribed]
      refine and_congr_right fun hid => ?_
      have hne : decide (m = sub.id) = false := decide_eq_false (hid ▸ hn)
      rw [hne, Bool.false_or]
  · simp only [Registry.unsubscribe, unchanged_registry, Std.ExtTreeSet.mem_insert, Nat.compare_eq_eq, hretired, h.silenced,
      Bool.or_eq_true, decide_eq_true_eq]
    by_cases hn : m = n
    · subst hn
      simp only [true_or, and_true, true_iff]
      exact ⟨hpos, hle⟩
    · simp only [hn, false_or]
  · rw [hretired, Bool.or_eq_true, decide_eq_true_eq]
    rintro (rfl | hret)
    · exact .inr hle
    · exact h.known n hret
  · simp [Registry.unsubscribe, h.deserted hc]

theorem mem_foldl_insert (ids : List Nat) (set : Std.ExtTreeSet Nat) (n : Nat) :
    n ∈ ids.foldl (·.insert ·) set ↔ n ∈ set ∨ n ∈ ids := by
  induction ids generalizing set with
  | nil => simp
  | cons id ids ih =>
    rw [List.foldl_cons, ih, Std.ExtTreeSet.mem_insert, Nat.compare_eq_eq, List.mem_cons]
    simp only [eq_comm, or_assoc, or_left_comm]

theorem close (h : Roll i r history) (reply : Reply) (due : List Subscriber) :
    Roll i r.close.registry (.performed i .close reply due :: history) := by
  have hmade : made i (.performed i .close reply due :: history) = made i history := rfl
  have hretired (n : Nat) : retired i n (.performed i .close reply due :: history) = true := by
    simp [retired_cons, Event.retires]
  refine ⟨h.numbered, fun n sub => ?_, fun n => ?_, fun n _ => .inl rfl, fun _ => rfl⟩
  · simp [Registry.close, Subscribed, hretired]
  · simp only [Registry.close, unchanged_registry, mem_foldl_insert, hretired, and_true, Std.ExtTreeMap.mem_keys]
    constructor
    · rintro (hs | hs)
      · exact ((h.silenced n).mp hs).1
      · obtain ⟨sub, hsub⟩ := Option.isSome_iff_exists.mp (Std.ExtTreeMap.mem_iff_isSome_getElem?.mp hs)
        obtain ⟨hid, hmade, -⟩ := (h.subscribed n sub).mp hsub
        exact h.mem_ids.mp ⟨sub, hmade, hid⟩
    · intro hn
      obtain ⟨sub, hsub, rfl⟩ := h.mem_ids.mpr hn
      -- Whoever had not retired is still in the set, so closing finds it there.
      cases hret : retired i sub.id history with
      | true => exact .inl ((h.silenced_iff hsub).mpr hret)
      | false =>
        have hget : r.subscribers[sub.id]? = some sub := (h.subscribed _ _).mpr ⟨rfl, hsub, hret⟩
        exact .inr (Std.ExtTreeMap.mem_iff_isSome_getElem?.mpr (hget ▸ rfl))

theorem onMembers (h : Roll i r history) (hlocal : ∀ id, r.isLocal id = (r.owned? id).isSome) {op : Op}
    (hop : op.onMembers = true) (reply : Reply) (due : List Subscriber) :
    Roll i (r.perform op).registry (.performed i op reply due :: history) := by
  have hmade : (Event.performed i op reply due).made? i = none := by
    cases op with
    | subscribe filter => exact nomatch hop
    | _ => rfl
  have hretires (n : Nat) : (Event.performed i op reply due).retires i n = false := by
    cases op with
    | unsubscribe m => exact nomatch hop
    | close => exact nomatch hop
    | _ => rfl
  obtain ⟨-, entries, localIds, hr, -⟩ | ⟨-, hr, -⟩ := perform_onMembers hlocal hop
  · rw [hr]
    exact h.frame hmade hretires rfl rfl rfl rfl
  · rw [hr]
    exact h.frame hmade hretires rfl rfl rfl rfl

theorem perform (h : Roll i r history) (hlocal : ∀ id, r.isLocal id = (r.owned? id).isSome) {op : Op}
    (hp : op.permitted r = true) :
    Roll i (r.perform op).registry (.performed i op (r.perform op).reply (r.perform op).due :: history) := by
  cases op with
  | subscribe filter => exact h.subscribe filter
  | unsubscribe m => exact h.unsubscribe hp _ _
  | close => exact h.close _ _
  | _ => exact h.onMembers hlocal rfl _ _

end Roll

theorem isLocal_registryAt (i : Nat) (history : List Event) (id : String) :
    (registryAt i history).isLocal id = ((registryAt i history).owned? id).isSome :=
  isLocal_after_iff _ id

/-- An event that performs nothing on a registry neither makes nor retires a subscriber of it. -/
theorem Event.not_about_of_none {i : Nat} {e : Event} (h : e.opOn? i = none) :
    e.made? i = none ∧ ∀ n, e.retires i n = false := by
  cases e with
  | performed j op reply due =>
    have hne : j ≠ i := fun hij => by simp [Event.opOn?, hij] at h
    constructor
    · unfold Event.made?
      split
      · next heq =>
        obtain ⟨rfl, -⟩ := Event.performed.inj heq
        exact if_neg hne
      · rfl
    · intro n
      cases op <;> simp [Event.retires, hne]
  | _ => exact ⟨rfl, fun _ => rfl⟩

/-- The roll of every registry, at any moment of a genuine history. -/
theorem roll {history : List Event} (h : Genuine history) (i : Nat) : Roll i (registryAt i history) history := by
  induction history with
  | nil => exact Roll.start i
  | cons e history ih =>
    cases hop : e.opOn? i with
    | none =>
      obtain ⟨hmade, hretires⟩ := Event.not_about_of_none hop
      rw [registryAt_cons_of_none hop]
      exact (ih h.2).frame hmade hretires rfl rfl rfl rfl
    | some op' =>
      cases e with
      | performed j op reply due =>
        obtain rfl : j = i := by
          by_contra hne
          simp [Event.opOn?, hne] at hop
        obtain ⟨⟨hp, rfl, rfl⟩, hg⟩ := h
        rw [registryAt_cons_performed]
        exact (ih hg).perform (isLocal_registryAt j history) hp
      | _ => cases hop

end Roster.Registry
