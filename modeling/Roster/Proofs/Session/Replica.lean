import Roster.Proofs.Registry.Ownership
import Roster.Proofs.Session.Reader.Bounds
import Roster.Proofs.Session.Reader.Order
import Roster.Proofs.Session.Shutdown

/-! The registry of a session is the fold of what its epochs took of their streams, interleaved with the client's own operations.
What is taken of one stream comes in its order; epoch comes after epoch too, unless one reads on after it was told to stop. -/
namespace Roster.Session

def Event.op? : Event → Option Registry.Op
  | .performed op => some op
  | _ => none

/-- The update a registry is handed. -/
def handed? : Registry.Op → Option Update
  | .applyRemote u => some u
  | _ => none

def Item.update? : Item → Option Update
  | .update u => some u
  | .failure _ => none

/-- What was read of a stream. -/
def consumedOf (streams : List Stream) (i : Nat) : List Item := (streams[i]?.map fun t => t.items.take t.taken).getD []

namespace Reader

variable {r r' : Reader}

def performed (r : Reader) : List Registry.Op := (r.log.filterMap Event.op?).reverse

def takings (r : Reader) : List (Nat × Item) := (r.log.filterMap Event.taken?).reverse

def taken (r : Reader) (id : Nat) : List Item := (r.takings.filter (·.1 = id)).map (·.2)

theorem performed_perform (r : Reader) (op : Registry.Op) : (r.perform op).performed = r.performed ++ [op] := List.reverse_cons

theorem takings_took (r : Reader) (id : Nat) (item : Item) : (r.note (.took id item)).takings = r.takings ++ [(id, item)] :=
  List.reverse_cons

theorem registry_perform (h : r.registry = Registry.after r.performed) (op : Registry.Op) :
    (r.perform op).registry = Registry.after (r.perform op).performed := by
  rw [performed_perform, Registry.after_append_singleton, ← h]
  rfl

structure Folded (r : Reader) : Prop where
  store : r.registry = Registry.after r.performed
  handed : r.performed.filterMap handed? = r.takings.filterMap (Item.update? ·.2)

namespace Folded

lemma frame (h : r.Folded) (hregistry : r'.registry = r.registry) (hperformed : r'.performed = r.performed)
    (htakings : r'.takings = r.takings) : r'.Folded where
  store := hregistry ▸ hperformed ▸ h.store
  handed := hperformed ▸ htakings ▸ h.handed

lemma perform (h : r.Folded) {op : Registry.Op} (hop : op.isRemote = false) : (r.perform op).Folded where
  store := registry_perform h.store op
  handed := by
    have hnone : [op].filterMap handed? = [] := by cases op <;> first | rfl | exact nomatch hop
    rw [performed_perform, List.filterMap_append, hnone, List.append_nil]
    exact h.handed

lemma update (h : r.Folded) (id : Nat) (u : Update) : ((r.note (.took id (.update u))).perform (.applyRemote u)).Folded where
  store := registry_perform (r := r.note (.took id (.update u))) h.store (.applyRemote u)
  handed := by
    rw [performed_perform, List.filterMap_append]
    show r.performed.filterMap handed? ++ [u] = (r.note (.took id (.update u))).takings.filterMap (Item.update? ·.2)
    rw [takings_took, List.filterMap_append, h.handed]
    rfl

/-- An item without an update adds nothing. -/
lemma pass (h : r.Folded) (id : Nat) (f : Failure) : (r.note (.took id (.failure f))).Folded where
  store := h.store
  handed := by
    have hnone : [(id, Item.failure f)].filterMap (Item.update? ·.2) = [] := rfl
    rw [takings_took, List.filterMap_append, hnone, List.append_nil]
    exact h.handed

theorem step (h : r.Folded) (hstep : Step r r') : r'.Folded := by
  have hadvance (i : Nat) : (r.setStream i advance).Folded := h.frame rfl rfl rfl
  cases hstep with
  | perform op hop => exact h.perform hop
  | update id i t u hr ht hu => exact (hadvance i).update id u
  | malformed id i t f hr ht hf => exact (hadvance i).pass id _
  | fail id i t f hr ht hf => exact ((hadvance i).pass id f).frame rfl rfl rfl
  | _ => exact h.frame rfl rfl rfl

end Folded

/-- Epochs take what is read of their streams, all of it and in its order. -/
structure Drawn (r : Reader) : Prop where
  read : ∀ x ∈ r.takings, x.1 ∈ r.readings.map (·.1)
  taken : ∀ x ∈ r.readings, r.taken x.1 = consumedOf r.streams x.2

namespace Drawn

lemma frame (h : r.Drawn) (htakings : r'.takings = r.takings) (hreadings : r'.readings = r.readings)
    (hstreams : ∀ x ∈ r.readings, consumedOf r'.streams x.2 = consumedOf r.streams x.2) : r'.Drawn where
  read := htakings ▸ hreadings ▸ h.read
  taken := by
    intro x hx
    rw [hreadings] at hx
    rw [hstreams x hx, ← h.taken x hx, Reader.taken, htakings, Reader.taken]

lemma consumedOf_setStream (r : Reader) (i j : Nat) (f : Stream → Stream) :
    consumedOf (r.setStream i f).streams j =
      if i = j then ((r.streams[j]?.map f).map fun t => t.items.take t.taken).getD [] else consumedOf r.streams j := by
  unfold consumedOf Reader.setStream
  rw [List.getElem?_modify]
  split <;> simp

lemma setStream (h : r.Drawn) (i : Nat) {f : Stream → Stream}
    (hf : ∀ t, r.streams[i]? = some t → (f t).items.take (f t).taken = t.items.take t.taken) : (r.setStream i f).Drawn := by
  refine h.frame rfl rfl fun x _ => ?_
  rw [consumedOf_setStream]
  split
  · next heq =>
    subst heq
    unfold consumedOf
    cases ht : r.streams[x.2]? with
    | none => rfl
    | some t => exact hf t ht
  · rfl

/-- An epoch takes the next item of its stream. -/
lemma take (h : r.Drawn) (hpaired : r.Paired) {id i : Nat} {t : Stream} {item : Item} (hr : (id, .reading i) ∈ r.runners)
    (ht : r.streams[i]? = some t) (hi : t.items[t.taken]? = some item) :
    ((r.setStream i advance).note (.took id item)).Drawn := by
  have htook : ((r.setStream i advance).note (.took id item)).takings = r.takings ++ [(id, item)] := takings_took ..
  have hreading : (id, i) ∈ r.readings := hpaired.reading id i hr
  constructor
  case read =>
    intro x hx
    rw [htook] at hx
    obtain hx | hx := List.mem_append.mp hx
    · exact h.read x hx
    · obtain rfl := List.mem_singleton.mp hx
      exact List.mem_map_of_mem hreading
  case taken =>
    intro x (hx : x ∈ r.readings)
    show _ = consumedOf (r.setStream i advance).streams x.2
    rw [Reader.taken, htook, List.filter_append, List.map_append, consumedOf_setStream]
    show r.taken x.1 ++ _ = _
    rw [h.taken x hx]
    by_cases hid : x.1 = id
    · obtain rfl : x = (id, i) := hpaired.stream_unique hx hreading hid
      have hmine : [(id, item)].filter (·.1 = id) = [(id, item)] := List.filter_eq_self.mpr (by simp)
      rw [if_pos rfl, hmine]
      unfold consumedOf
      rw [ht]
      show t.items.take t.taken ++ [item] = t.items.take (t.taken + 1)
      rw [List.take_add_one, hi]
      rfl
    · have hother : i ≠ x.2 := fun heq => hid (Prod.mk.inj (hpaired.epoch_unique hx hreading heq.symm)).1
      have hnone : [(id, item)].filter (·.1 = x.1) = [] := List.filter_eq_nil_iff.mpr (by simpa using Ne.symm hid)
      rw [if_neg hother, hnone]
      exact List.append_nil _

/-- An epoch that begins to read has taken nothing, and nobody has read of its stream. -/
lemma read_on (h : r.Drawn) (hpaired : r.Paired) (hbounds : r.Bounds) {id call deadline i : Nat} {opened : Nat → Nat → Prop}
    (hq : (id, .opening call deadline) ∈ r.runners) (hi : r.opened call i) :
    Drawn { r.setRunner id (.reading i) with opened, log := .reading id i :: r.log } where
  read := fun x hx => List.mem_cons_of_mem id (h.read x hx)
  taken := by
    intro x hx
    show r.taken x.1 = consumedOf r.streams x.2
    obtain rfl | hx := List.mem_cons.mp (hx : x ∈ (id, i) :: r.readings)
    · have hnone : r.taken id = [] := by
        rw [Reader.taken, List.map_eq_nil_iff, List.filter_eq_nil_iff]
        intro y hy hid
        obtain ⟨z, hz, heq⟩ := List.mem_map.mp (h.read y hy)
        exact hpaired.readings_ne hq nofun nofun hz (heq.trans (of_decide_eq_true hid))
      show r.taken id = consumedOf r.streams i
      rw [hnone]
      unfold consumedOf
      cases ht : r.streams[i]? with
      | none => rfl
      | some t =>
        have hz := hbounds.unread i t ht (hpaired.opened_fresh call i hi)
        show [] = t.items.take t.taken
        rw [hz, List.take_zero]
    · exact h.taken x hx

theorem step (h : r.Drawn) (hpaired : r.Paired) (hbounds : r.Bounds) (hstep : Step r r') : r'.Drawn := by
  cases hstep with
  | accept call opened ho =>
    refine h.frame rfl rfl fun x hx => ?_
    unfold consumedOf
    rw [List.getElem?_append_left (hpaired.streams_lt x hx)]
  | part i f hf => exact h.setStream i fun t _ => by rw [(hf t).1, (hf t).2]
  | send i item => exact h.setStream i fun t ht => List.take_append_of_le_length (hbounds.within i t ht)
  | read id call deadline i opened hq hi ho => exact h.read_on hpaired hbounds hq hi
  | update id i t u hr ht hu => exact (h.take hpaired hr ht hu).frame rfl rfl fun _ _ => rfl
  | malformed id i t f hr ht hf => exact h.take hpaired hr ht hf
  | fail id i t f hr ht hf => exact (h.take hpaired hr ht hf).frame rfl rfl fun _ _ => rfl
  | _ => exact h.frame rfl rfl fun _ _ => rfl

end Drawn

end Reader

/-- What a session's registry went through, oldest first. -/
def performed (s : Session) : List Registry.Op := (s.history.filterMap (·.2.op?)).reverse

/-- The epochs that read a stream, with it, oldest first. -/
def readings (s : Session) : List (Nat × Nat) := (s.history.filterMap (·.2.reading?)).reverse

variable {s : Session}

theorem filterMap_reader_log {β : Type} {f : Event → Option β} (hf : ∀ e, e.read = false → f e = none) (s : Session) :
    s.reader.log.filterMap f = s.history.filterMap (f ·.2) := by
  have hread (e : Event) : (if e.read then f e else none) = f e := by
    split
    · rfl
    · next h => exact (hf e (Bool.not_eq_true _ ▸ h)).symm
  unfold reader
  rw [List.filterMap_filter]
  simp only [hread, List.filterMap_map]
  rfl

theorem performed_reader (s : Session) : s.reader.performed = s.performed :=
  congrArg List.reverse (filterMap_reader_log (fun e _ => by cases e <;> first | rfl | contradiction) s)

theorem takings_reader (s : Session) : s.reader.takings = s.takings :=
  congrArg List.reverse (filterMap_reader_log (fun e _ => by cases e <;> first | rfl | contradiction) s)

theorem readings_reader (s : Session) : s.reader.readings.reverse = s.readings :=
  congrArg List.reverse (filterMap_reader_log (fun e _ => by cases e <;> first | rfl | contradiction) s)

theorem reader_invariants {settings : Settings} {connectivity : Connectivity} {now : Nat} {r : Reader}
    (hsteps : Reader.Steps (start settings connectivity now).reader r) :
    r.Paired ∧ r.Bounds ∧ r.Fenced ∧ r.Drawn ∧ r.Folded := by
  induction hsteps with
  | refl =>
    exact ⟨Reader.paired_start .., Reader.bounds_start .., Reader.fenced_start .., ⟨List.forall_mem_nil _, List.forall_mem_nil _⟩,
      rfl, rfl⟩
  | tail _ hstep ih =>
    obtain ⟨hpaired, hbounds, hfenced, hdrawn, hfolded⟩ := ih
    exact ⟨hpaired.step hstep, hbounds.step hpaired hstep, hfenced.step hpaired hstep, hdrawn.step hpaired hbounds hstep,
      hfolded.step hstep⟩

/-- A malformed update leaves the registry and lets its epoch read on. -/
theorem take_malformed {id i : Nat} {e : Epoch} {t : Stream} {item : Item} (he : s.epoch? id = some e)
    (hr : e.runner = .reading i) (ht : s.streams[i]? = some t) (hi : t.items[t.taken]? = some item)
    (hbad : (∃ f, item = .failure (.update f)) ∨
      ∃ u f, item = .update u ∧ (s.registry.applyRemote u).reply = .applied (some f)) :
    ∃ s', s.step (.take id) = some s' ∧ s'.registry = s.registry ∧ s'.epoch? id = some e := by
  obtain ⟨f, rfl⟩ | ⟨u, f, rfl, hreply⟩ := hbad
  · have hstep : s.step (.take id) = some (s.readOn id i (.failure (.update f))) := by
      show s.take id = _
      unfold take
      rw [he, Option.bind_eq_bind, Option.bind_some, hr]
      dsimp only
      rw [ht, Option.bind_eq_bind, Option.bind_some, hi]
      rfl
    exact ⟨_, hstep, rfl, he⟩
  · have hstep : s.step (.take id) = some ((s.readOn id i (.update u)).apply (.applyRemote u)) := by
      show s.take id = _
      unfold take
      rw [he, Option.bind_eq_bind, Option.bind_some, hr]
      dsimp only
      rw [ht, Option.bind_eq_bind, Option.bind_some, hi]
      rfl
    obtain ⟨history, happly⟩ := apply_eq (s.readOn id i (.update u)) (.applyRemote u)
    refine ⟨_, hstep, ?_, ?_⟩
    · rw [happly]
      exact Registry.applyRemote_of_fault hreply
    · rw [happly]
      exact he

/-- As long as epochs take their turns, what they take is what the first one takes, then the second one, and so on. -/
theorem takings_in_turn (hcontrol : s.watch.Control) (hfenced : s.reader.Fenced) (hturn : s.InTurn) :
    s.takings.filterMap (Item.update? ·.2) = s.epochs.flatMap fun e => (s.taken e.id).filterMap Item.update? := by
  have hids : (s.epochs.map (·.id)).Pairwise (· < ·) := by
    rw [map_id_epochs hcontrol]
    exact List.pairwise_lt_range'
  have hmem (x : Nat × Item) (hx : x ∈ s.takings) : x.1 ∈ s.epochs.map (·.id) := by
    obtain ⟨⟨t, e⟩, hy, he⟩ := List.mem_filterMap.mp (List.mem_reverse.mp hx)
    obtain rfl := of_taken? he
    obtain ⟨e, he, hid⟩ := exists_epoch_of_taken hfenced hy
    exact List.mem_map.mpr ⟨e, he, hid⟩
  have hgroups := eq_flatMap_filter hturn hids hmem
  calc s.takings.filterMap (Item.update? ·.2)
    _ = ((s.epochs.map (·.id)).flatMap fun id => s.takings.filter (·.1 = id)).filterMap (Item.update? ·.2) := by rw [← hgroups]
    _ = s.epochs.flatMap fun e => (s.takings.filter (·.1 = e.id)).filterMap (Item.update? ·.2) := by
      rw [List.flatMap_map, List.filterMap_flatMap]
    _ = s.epochs.flatMap fun e => (s.taken e.id).filterMap Item.update? := by
      refine List.flatMap_congr fun e _ => ?_
      rw [taken, List.filterMap_map]
      rfl

/-- The registry is the fold of all that was performed on it, which the end of the shutdown alone closes. It is handed the updates
among what the epochs took, in that order. Each epoch takes of one stream of its own, all that is read of it and up to nothing
but a failure that ends it. Before an epoch takes an item, all older epochs were told to stop; if they do, epochs take their
turns, and the registry is handed the updates of epoch after epoch. A malformed one leaves the registry, and the stream goes on. -/
theorem replica_folds_streams {settings : Settings} {connectivity : Connectivity} {now : Nat} {moves : List Move}
    (hrun : (start settings connectivity now).run moves = some s) :
    s.registry = Registry.after s.performed ∧ (.close ∈ s.performed ↔ s.closer = .finished) ∧
    s.performed.filterMap handed? = s.takings.filterMap (Item.update? ·.2) ∧
    (∀ x ∈ s.takings, x.1 ∈ s.readings.map (·.1)) ∧
    (s.readings.map (·.1)).Nodup ∧ (s.readings.map (·.2)).Nodup ∧
    (∀ x ∈ s.readings, ∃ t, s.streams[x.2]? = some t ∧ s.taken x.1 = t.items.take t.taken ∧
      ∀ k item, k + 1 < t.taken → t.items[k]? = some item → Reader.Harmless item) ∧
    (∀ t id item earlier, (t, .took id item) :: earlier <:+ s.history →
      ∀ e ∈ s.epochs, e.id < id → ∃ t', (t', .epochCancelled e.id) ∈ earlier) ∧
    (s.Heeded → s.InTurn) ∧ (s.epochs.map (·.id)).Pairwise (· < ·) ∧
    (s.InTurn → s.performed.filterMap handed? = s.epochs.flatMap fun e => (s.taken e.id).filterMap Item.update?) ∧
    (∀ id e i t item, s.epoch? id = some e → e.runner = .reading i → s.streams[i]? = some t →
      t.items[t.taken]? = some item →
      ((∃ f, item = .failure (.update f)) ∨
        ∃ u f, item = .update u ∧ (s.registry.applyRemote u).reply = .applied (some f)) →
      ∃ s', s.step (.take id) = some s' ∧ s'.registry = s.registry ∧ s'.epoch? id = some e) := by
  have hcontrol := (Watch.control_start settings connectivity now).steps (run_watch hrun)
  obtain ⟨hpaired, hbounds, hfenced, hdrawn, hfolded⟩ := reader_invariants (run_reader hrun)
  have hstore : s.registry = Registry.after s.performed := performed_reader s ▸ hfolded.store
  have hhanded : s.performed.filterMap handed? = s.takings.filterMap (Item.update? ·.2) := by
    rw [← performed_reader, ← takings_reader]
    exact hfolded.handed
  refine ⟨hstore, ?closed, hhanded, ?read, ?epochs, ?streams, ?taken, ?told, inTurn_of_heeded hfenced, ?order, ?turns,
    fun id e i t item => take_malformed⟩
  case closed =>
    have hclosed : s.registry.closed = true ↔ s.closer = .finished := (sound_errands hrun).stages.closed
    rw [hstore, Registry.closed_after, decide_eq_true_iff] at hclosed
    exact hclosed
  case read =>
    rw [← takings_reader, ← readings_reader, List.map_reverse]
    exact fun x hx => List.mem_reverse.mpr (hdrawn.read x hx)
  case epochs =>
    rw [← readings_reader, List.map_reverse, List.nodup_reverse]
    exact hpaired.epochs
  case streams =>
    rw [← readings_reader, List.map_reverse, List.nodup_reverse]
    exact hpaired.streams
  case taken =>
    intro x hx
    rw [← readings_reader, List.mem_reverse] at hx
    have hlt : x.2 < s.streams.length := hpaired.streams_lt x hx
    have ht : s.streams[x.2]? = some s.streams[x.2] := List.getElem?_eq_getElem hlt
    refine ⟨s.streams[x.2], ht, ?_, hbounds.cut x.2 _ ht⟩
    have htaken : s.taken x.1 = consumedOf s.streams x.2 := by
      rw [taken, ← takings_reader]
      exact hdrawn.taken x hx
    rw [htaken, consumedOf, ht]
    rfl
  case told => exact fun t id item earlier hsuffix e he hlt => told_of_taken hfenced hsuffix he hlt
  case order =>
    rw [map_id_epochs hcontrol]
    exact List.pairwise_lt_range'
  case turns => exact fun hturn => hhanded.trans (takings_in_turn hcontrol hfenced hturn)

/-- A member appears with a service. -/
def appearing (service : String) : Update := ⟨"a", .register, some (Member.new "a" service), none⟩

/-- The stream of the first epoch ends, and the second epoch reads another one. Each holds a malformed update. -/
def resubscribed : List Move :=
  [.watchStart, .restore 1, .openStream 1, .answer 1 none, .opened 1, .push 0 (.update (appearing "web")),
    .push 0 (.failure (.update .missingId)), .push 0 (.failure .closed), .take 1, .take 1, .take 1, .watchBroken, .elapse 100,
    .watchResume, .restore 2, .openStream 2, .answer 2 none, .opened 2, .push 1 (.update ⟨"", .unregister, none, none⟩), .take 2]

theorem replica_of_two_streams :
    ∃ s, (start {} .ready 0).run resubscribed = some s ∧ s.readings = [(1, 0), (2, 1)] ∧
      s.registry = Registry.after s.performed ∧ s.Heeded ∧ s.InTurn ∧
      s.performed.filterMap handed? = [appearing "web", ⟨"", .unregister, none, none⟩] := by
  obtain ⟨s, hrun, hreadings, hheeded, htaken⟩ : ∃ s, (start {} .ready 0).run resubscribed = some s ∧
      s.readings = [(1, 0), (2, 1)] ∧ s.Heeded ∧
      s.epochs.flatMap (fun e => (s.taken e.id).filterMap Item.update?) = [appearing "web", ⟨"", .unregister, none, none⟩] :=
    ⟨_, rfl, rfl, by unfold Heeded; decide +kernel, rfl⟩
  obtain ⟨hstore, -, -, -, -, -, -, -, hturn, -, hordered, -⟩ := replica_folds_streams hrun
  exact ⟨s, hrun, hreadings, hstore, hheeded, hturn hheeded, (hordered (hturn hheeded)).trans htaken⟩

/-- An update comes for the first epoch as the transport departs. The second epoch takes one of its own stream before the first
epoch goes on. -/
def overtaken : List Move :=
  [.watchStart, .restore 1, .openStream 1, .answer 1 none, .opened 1, .push 0 (.update (appearing "web")),
    .report .disconnected, .watchChange, .report .ready, .watchChange, .restore 2, .openStream 2, .answer 2 none, .opened 2,
    .push 1 (.update (appearing "api")), .take 2, .take 1]

/-- A session takes an update and is closed. -/
def closedDown : List Move :=
  [.watchStart, .restore 1, .openStream 1, .answer 1 none, .opened 1, .push 0 (.update (appearing "web")), .take 1, .close,
    .watchStop, .stopRunner 1, .stopHeart 1, .drained, .answer 2 none, .released]

/-- What an overtaken epoch takes comes last and is kept; and the end of the shutdown keeps nothing. -/
theorem stale_after_overtaking :
    (∃ s, (start {} .ready 0).run overtaken = some s ∧
      s.streams.map (·.items) = [[.update (appearing "web")], [.update (appearing "api")]] ∧ s.readings = [(1, 0), (2, 1)] ∧
      (∀ first second : List Item, first <+: [.update (appearing "web")] → second <+: [.update (appearing "api")] →
        s.performed.filterMap handed? ≠ (first ++ second).filterMap Item.update?) ∧
      s.registry.members none = [Member.new "a" "web"]) ∧
    ∃ s, (start {} .ready 0).run closedDown = some s ∧ s.writings = [] ∧
      s.performed.filterMap handed? = [appearing "web"] ∧
      (Registry.after [.applyRemote (appearing "web")]).members none = [Member.new "a" "web"] ∧
      s.registry.members none = [] := by
  refine ⟨⟨_, rfl, rfl, rfl, fun first second hfirst hsecond hhanded => ?_, rfl⟩, _, rfl, rfl, rfl, rfl, rfl⟩
  have htwo : [appearing "api", appearing "web"] = (first ++ second).filterMap Item.update? := hhanded
  obtain rfl | ⟨rest, rfl, -⟩ := List.prefix_cons_iff.mp hfirst
  · -- The second stream alone is too short.
    have hlength := List.length_filterMap_le Item.update? second
    rw [List.nil_append] at htwo
    rw [← htwo] at hlength
    exact absurd (hlength.trans hsecond.length_le) (by decide)
  · -- The first stream comes first.
    have hhead : appearing "api" = appearing "web" := (List.cons.inj htwo).1
    exact absurd hhead (by decide)

end Roster.Session
