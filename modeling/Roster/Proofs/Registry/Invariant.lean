import Roster.Proofs.Registry.Subscribers

/-! What holds of a registry at any time, also while callbacks that act on it are running: the members it stores, the ids
it counts as its client's own and the subscribers fit together, and once closed it is empty and stays so. -/
namespace Roster.Registry

/-- The stored members fit the local ids. -/
structure Stored (r : Registry) : Prop where
  held : ∀ id, r.isLocal id = true → id ∈ r.entries
  unversioned : ∀ (id : String) (e : Entry), r.isLocal id = true → r.entries[id]? = some e → e.version = none
  keyed : ∀ (id : String) (e : Entry), r.entries[id]? = some e → e.member.id = id
  emptied : r.closed = true → r.entries = ∅ ∧ r.localIds = ∅

/-- The representation invariant of a registry. -/
structure Sound (r : Registry) : Prop extends Stored r where
  active : ∀ (n : Nat) (sub : Subscriber), r.subscribers[n]? = some sub → n ∉ r.silenced
  numbered : ∀ (n : Nat) (sub : Subscriber), r.subscribers[n]? = some sub → sub.id = n ∧ 1 ≤ n ∧ n ≤ r.lastSubscriber
  deserted : r.closed = true → r.subscribers = ∅

namespace Stored

variable {r : Registry}

theorem start : Stored {} := ⟨by simp [isLocal], by simp, by simp, nofun⟩

theorem open_of_local (h : Stored r) {id : String} (hid : r.isLocal id = true) : r.closed = false := by
  by_contra hc
  have hempty := (h.emptied (by simpa using hc)).2
  rw [isLocal_iff, hempty] at hid
  simp at hid

/-- One entry is put in; other ids stay local or remote as they are. -/
theorem put (h : Stored r) (hopen : r.closed = false) {id : String} {e : Entry} {localIds : Std.ExtTreeSet String}
    (hkey : e.member.id = id) (hlocal : ∀ k, k ≠ id → (k ∈ localIds ↔ k ∈ r.localIds))
    (hversion : id ∈ localIds → e.version = none) :
    Stored { r with localIds, entries := r.entries.insert id e } where
  held k hk := by
    rw [Std.ExtTreeMap.mem_insert]
    by_cases hki : k = id
    · exact .inl (by simp [hki])
    · exact .inr (h.held k ((r.isLocal_iff k).mpr ((hlocal k hki).mp ((isLocal_iff _ k).mp hk))))
  unversioned k f hk hf := by
    rw [Std.ExtTreeMap.getElem?_insert] at hf
    split at hf
    · next heq =>
      obtain rfl : id = k := by simpa using heq
      exact Option.some.inj hf ▸ hversion ((isLocal_iff _ id).mp hk)
    · next hne =>
      have hki : k ≠ id := fun hki => hne (by simp [hki])
      exact h.unversioned k f ((r.isLocal_iff k).mpr ((hlocal k hki).mp ((isLocal_iff _ k).mp hk))) hf
  keyed k f hf := by
    rw [Std.ExtTreeMap.getElem?_insert] at hf
    split at hf
    · next heq =>
      obtain rfl : id = k := by simpa using heq
      exact Option.some.inj hf ▸ hkey
    · exact h.keyed k f hf
  emptied hc := by simp [hopen] at hc

/-- One entry is taken out, and its id is not local any more. -/
theorem drop (h : Stored r) (hopen : r.closed = false) {id : String} {localIds : Std.ExtTreeSet String}
    (hgone : id ∉ localIds) (hlocal : ∀ k, k ∈ localIds → k ∈ r.localIds) :
    Stored { r with localIds, entries := r.entries.erase id } where
  held k hk := by
    have hmem : k ∈ localIds := (isLocal_iff _ k).mp hk
    rw [Std.ExtTreeMap.mem_erase]
    refine ⟨fun heq => ?_, h.held k ((r.isLocal_iff k).mpr (hlocal k hmem))⟩
    obtain rfl : id = k := by simpa using heq
    exact hgone hmem
  unversioned k f hk hf := by
    rw [Std.ExtTreeMap.getElem?_erase] at hf
    split at hf
    · exact nomatch hf
    · exact h.unversioned k f ((r.isLocal_iff k).mpr (hlocal k ((isLocal_iff _ k).mp hk))) hf
  keyed k f hf := by
    rw [Std.ExtTreeMap.getElem?_erase] at hf
    split at hf
    · exact nomatch hf
    · exact h.keyed k f hf
  emptied hc := by simp [hopen] at hc

/-- Subscribing and unsubscribing leave what is stored. -/
theorem same (h : Stored r) (subscribers : Std.ExtTreeMap Nat Subscriber) (lastSubscriber : Nat)
    (silenced : Std.ExtTreeSet Nat) : Stored { r with subscribers, lastSubscriber, silenced } :=
  ⟨h.held, h.unversioned, h.keyed, h.emptied⟩

theorem registerLocal (h : Stored r) (m : Member) : Stored (r.registerLocal m).registry := by
  unfold Registry.registerLocal
  cases hopen : r.closed with
  | true => exact h
  | false =>
    have hother (k : String) (hk : k ≠ m.id) : k ∈ r.localIds.insert m.id ↔ k ∈ r.localIds := by
      simp [Std.ExtTreeSet.mem_insert, hk.symm]
    have hput := h.put hopen (e := ⟨m, none⟩) rfl hother fun _ => rfl
    rw [hopen] at hput
    exact hput

theorem unregisterLocal (h : Stored r) (id : String) : Stored (r.unregisterLocal id).registry := by
  unfold Registry.unregisterLocal
  split
  · next hid =>
    refine h.drop (h.open_of_local hid) ?_ fun k hk => ?_
    · simp
    · exact (Std.ExtTreeSet.mem_erase.mp hk).2
  · exact h

theorem updateLocal (h : Stored r) (id : String) (delta : Keyed String) : Stored (r.updateLocal id delta).registry := by
  unfold Registry.updateLocal
  split
  · next hid =>
    split
    · next e he =>
      exact h.put (h.open_of_local hid) (h.keyed id e he) (fun _ _ => Iff.rfl) fun _ => h.unversioned id e hid he
    · exact h
  · exact h

theorem applyRemote (h : Stored r) (u : Update) : Stored (r.applyRemote u).registry := by
  unfold Registry.applyRemote
  split
  · exact h
  · split
    · exact h
    · next hskip =>
      obtain ⟨hopen, hremote⟩ : r.closed = false ∧ r.isLocal u.id = false := by simpa using hskip
      have hgone : u.id ∉ r.localIds := by
        rw [← isLocal_iff, hremote]
        exact Bool.false_ne_true
      split
      · split
        · exact h.drop hopen hgone fun _ hk => hk
        · exact h
      · exact h
      · exact h.put hopen rfl (fun _ _ => Iff.rfl) fun hid => absurd hid hgone

theorem perform (h : Stored r) (op : Op) : Stored (r.perform op).registry := by
  cases op with
  | registerLocal m => exact h.registerLocal m
  | unregisterLocal id => exact h.unregisterLocal id
  | updateLocal id delta => exact h.updateLocal id delta
  | applyRemote u => exact h.applyRemote u
  | subscribe filter =>
    simp only [Registry.perform, Registry.subscribe]
    split
    · exact h
    · exact h.same _ _ _
  | unsubscribe n => exact h.same _ _ _
  | close => exact ⟨by simp [Registry.perform, isLocal_close], by simp [Registry.perform, isLocal_close],
      by simp [Registry.perform, close], fun _ => ⟨rfl, rfl⟩⟩

end Stored

theorem stored_after (ops : List Op) : Stored (after ops) := by
  induction ops using List.reverseRecOn with
  | nil => exact Stored.start
  | append_singleton ops op ih =>
    rw [after_append_singleton]
    exact ih.perform op

theorem Roll.sound {i : Nat} {r : Registry} {history : List Event} (h : Roll i r history) (hstored : Stored r) :
    Sound r where
  toStored := hstored
  active n sub hsub := by
    obtain ⟨rfl, hmade, hretired⟩ := (h.subscribed n sub).mp hsub
    rw [h.silenced_iff hmade, hretired]
    exact Bool.false_ne_true
  numbered n sub hsub := by
    obtain ⟨hid, hmade, -⟩ := (h.subscribed n sub).mp hsub
    exact ⟨hid, h.mem_ids.mp ⟨sub, hmade, hid⟩⟩
  deserted := h.deserted

/-- Closing is for good. -/
theorem closed_registryAt_of_suffix {i : Nat} {older history : List Event} (hs : older <:+ history)
    (hc : (registryAt i older).closed = true) : (registryAt i history).closed = true := by
  obtain ⟨newer, rfl⟩ := hs
  simp only [registryAt, closed_after, decide_eq_true_eq] at hc ⊢
  have hops : performedOn i (newer ++ older) = performedOn i older ++ performedOn i newer := by
    simp [performedOn]
  rw [hops]
  exact List.mem_append_left _ hc

/-- At any moment of any run, inside callbacks too, every registry is sound, no id was given to two subscribers, and
those subscribed have the id they were given. A registry that is closed has nothing in it at any later moment. -/
theorem sound_throughout {moves more : List Move} {s t : Stage} (hrun : Stage.run {} moves = some s)
    (hmore : s.run more = some t) {i : Nat} {r : Registry} (hr : s.registries[i]? = some r) :
    Sound r ∧ ((made i s.history).map (·.id)).Nodup ∧ (∀ sub ∈ r.audience, sub ∈ made i s.history) ∧
      ∃ q, t.registries[i]? = some q ∧ (r.closed = true →
        q.closed = true ∧ q.entries = ∅ ∧ q.localIds = ∅ ∧ q.subscribers = ∅) := by
  have hreplayed := Stage.replayed hrun
  obtain rfl := hreplayed.eq_registryAt hr
  have hroll := roll hreplayed.genuine i
  refine ⟨hroll.sound (stored_after _), hroll.nodup_ids, fun sub hsub => (hroll.mem_audience.mp hsub).1, ?_⟩
  obtain ⟨hlen, hsuffix⟩ := Stage.run_grows hmore
  have hlt : i < t.registries.length := (List.getElem?_eq_some_iff.mp hr).1.trans_le hlen
  have hlater : Stage.Replayed t := Stage.run_induction hmore hreplayed fun _ _ _ hp hs => hp.step hs
  have hq := hlater.eq_registryAt (List.getElem?_eq_getElem hlt)
  refine ⟨_, List.getElem?_eq_getElem hlt, fun hc => ?_⟩
  have hclosed : t.registries[i].closed = true := by
    rw [hq]
    exact closed_registryAt_of_suffix hsuffix hc
  have hsound : Sound t.registries[i] := by
    rw [hq]
    exact (roll hlater.genuine i).sound (stored_after _)
  exact ⟨hclosed, (hsound.emptied hclosed).1, (hsound.emptied hclosed).2, hsound.deserted hclosed⟩

/-- A callback registers a member, and the callback which that brings about hears of one from the stream. -/
def nestedWrites : List Move :=
  [.found, .perform 0 (.subscribe none), .reach 1, .perform 0 (.registerLocal (Member.new "a" "web")), .reach 1,
    .perform 0 (.applyRemote (.ofRegister (Member.new "b" "web") ⟨"n", 1⟩))]

/-- The innermost callback closes the registry. -/
def nestedClose : List Move := nestedWrites ++ [.reach 1, .perform 0 .close]

theorem sound_amid_callbacks :
    ∃ s r t u q, Stage.run {} nestedWrites = some s ∧ s.registries[0]? = some r ∧
      (r.members none).map (·.id) = ["a", "b"] ∧ r.localMembers.map (·.id) = ["a"] ∧ Sound r ∧
      Stage.run {} nestedClose = some t ∧
      t.run [.leave, .perform 0 (.registerLocal (Member.new "c" "web")), .perform 0 (.subscribe none)] = some u ∧
      u.registries[0]? = some q ∧ q.closed = true ∧ q.entries = ∅ ∧ q.localIds = ∅ ∧ q.subscribers = ∅ := by
  obtain ⟨s, r, hs, hr, hall, hlocal⟩ : ∃ s r, Stage.run {} nestedWrites = some s ∧ s.registries[0]? = some r ∧
      (r.members none).map (·.id) = ["a", "b"] ∧ r.localMembers.map (·.id) = ["a"] := ⟨_, _, rfl, rfl, rfl, rfl⟩
  obtain ⟨t, u, r', ht, hr', hclosed, hu⟩ : ∃ t u r', Stage.run {} nestedClose = some t ∧ t.registries[0]? = some r' ∧
      r'.closed = true ∧
      t.run [.leave, .perform 0 (.registerLocal (Member.new "c" "web")), .perform 0 (.subscribe none)] = some u :=
    ⟨_, _, _, rfl, rfl, rfl, rfl⟩
  have hsound : Sound r := (sound_throughout hs (rfl : s.run [] = some s) hr).1
  obtain ⟨-, -, -, q, hq, hempty⟩ := sound_throughout ht hu hr'
  exact ⟨s, r, t, u, q, hs, hr, hall, hlocal, hsound, ht, hu, hq, hempty hclosed⟩

end Roster.Registry
