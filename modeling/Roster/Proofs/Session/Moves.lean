import Roster.Proofs.Registry.Run
import Roster.Session.Step

/-! What a move of a session says of the session it starts from and the one it makes: one inversion for each move that is not
always possible. Facts about runs follow these and need not look into the moves again. -/
namespace Roster.Session

variable {s s' : Session} {id : Nat}

theorem guard_bind_eq_some {β : Type} {p : Prop} [Decidable p] {f : Unit → Option β} {b : β} :
    (guard p >>= f) = some b ↔ p ∧ f () = some b := by
  by_cases h : p
  · have hguard : (guard p : Option Unit) = some () := if_pos h
    rw [hguard]
    exact (and_iff_right h).symm
  · have hguard : (guard p : Option Unit) = none := if_neg h
    rw [hguard]
    exact ⟨fun hnone => absurd hnone (Option.some_ne_none b).symm, fun hp => absurd hp.1 h⟩

/-- An operation on the registry changes nothing else but the history. -/
theorem apply_eq (s : Session) (op : Registry.Op) :
    ∃ history, s.apply op = { s with registry := (s.registry.perform op).registry, history } := by
  refine List.foldlRecOn (motive := fun t => ∃ history, t = { s with registry := (s.registry.perform op).registry, history })
    _ _ ?_ fun t ht d _ => ?_
  · exact ⟨_, rfl⟩
  · obtain ⟨history, rfl⟩ := ht
    exact ⟨_, rfl⟩

/-- A table of tasks with one entry changed. -/
def assign {β : Type} (id : Nat) (b : β) (table : List (Nat × β)) : List (Nat × β) :=
  table.map fun t => if t.1 = id then (t.1, b) else t

theorem map_fst_assign {β : Type} (id : Nat) (b : β) (table : List (Nat × β)) :
    (assign id b table).map (·.1) = table.map (·.1) := by
  unfold assign
  rw [List.map_map]
  apply List.map_congr_left
  intro t _
  simp only [Function.comp]
  split <;> rfl

theorem mem_assign {β : Type} {id : Nat} {b : β} {table : List (Nat × β)} {t : Nat × β} (h : t ∈ assign id b table) :
    t = (id, b) ∨ t ∈ table ∧ t.1 ≠ id := by
  obtain ⟨x, hx, rfl⟩ := List.mem_map.mp h
  split
  · next heq => exact .inl (by rw [heq])
  · next hne => exact .inr ⟨hx, hne⟩

theorem mem_assign_of_ne {β : Type} {id : Nat} {b : β} {table : List (Nat × β)} {t : Nat × β} (h : t ∈ table)
    (hne : t.1 ≠ id) : t ∈ assign id b table :=
  List.mem_map.mpr ⟨t, h, if_neg hne⟩

/-- One field of the epochs, when the field is set for one of them. -/
theorem map_assign {β : Type} (epochs : List Epoch) (id : Nat) (b : β) (f : Epoch → Epoch) (g : Epoch → β)
    (hf : ∀ e, (f e).id = e.id ∧ g (f e) = b) :
    (epochs.map fun e => if e.id = id then f e else e).map (fun e => (e.id, g e)) =
      assign id b (epochs.map fun e => (e.id, g e)) := by
  unfold assign
  rw [List.map_map, List.map_map]
  apply List.map_congr_left
  intro e _
  simp only [Function.comp]
  split
  · rw [(hf e).1, (hf e).2]
  · rfl

/-- One field of the epochs, when other fields are set. -/
theorem map_unassigned {β : Type} (epochs : List Epoch) (id : Nat) (f : Epoch → Epoch) (g : Epoch → β)
    (hg : ∀ e, g (f e) = g e) : (epochs.map fun e => if e.id = id then f e else e).map g = epochs.map g := by
  rw [List.map_map]
  apply List.map_congr_left
  intro e _
  simp only [Function.comp]
  split
  · exact hg e
  · rfl

/-! The watcher -/

theorem of_watchStart (h : s.watchStart = some s') : s.watcher = .starting ∧ s' = s.look := by
  unfold watchStart at h
  split at h
  · next hw => exact ⟨hw, (Option.some.inj h).symm⟩
  · exact nomatch h

theorem of_watchChange (h : s.watchChange = some s') :
    s.watcher = .waiting ∧ s.reported = true ∧ s' = s.look := by
  unfold watchChange at h
  split at h
  · next hw => exact ⟨hw.1, hw.2, (Option.some.inj h).symm⟩
  · exact nomatch h

theorem of_watchBroken (h : s.watchBroken = some s') :
    ∃ b rest, s.watcher = .waiting ∧ s.broken = b :: rest ∧
      ((s.live = some b ∧ s' = { { s with broken := rest }.cancelLive with
          watcher := .pausing (s.now + (s.settings.reconnect.delayFor 1).toNat) }) ∨
        (s.live ≠ some b ∧ s' = { s with broken := rest }.look)) := by
  unfold watchBroken at h
  split at h
  · next b rest hw hb =>
    refine ⟨b, rest, hw, hb, ?_⟩
    dsimp only at h
    split at h
    · next hl => exact .inl ⟨hl, (Option.some.inj h).symm⟩
    · next hl => exact .inr ⟨hl, (Option.some.inj h).symm⟩
  · exact nomatch h

theorem of_watchResume (h : s.watchResume = some s') :
    ∃ due, s.watcher = .pausing due ∧ due ≤ s.now ∧ s' = s.look := by
  unfold watchResume at h
  split at h
  · next due hw =>
    split at h
    · next hd => exact ⟨due, hw, hd, (Option.some.inj h).symm⟩
    · exact nomatch h
  · exact nomatch h

theorem of_watchStop (h : s.watchStop = some s') :
    s.cancelled = true ∧ (s.watcher = .waiting ∨ ∃ due, s.watcher = .pausing due) ∧
      s' = { s.cancelLive with watcher := .stopped } := by
  unfold watchStop at h
  split at h
  · next hw hc => exact ⟨hc, .inl hw, (Option.some.inj h).symm⟩
  · next due hw hc => exact ⟨hc, .inr ⟨due, hw⟩, (Option.some.inj h).symm⟩
  · exact nomatch h

/-! The task that reads the updates of an epoch -/

/-- What a reader does when its stream fails or ends. -/
def quitReading (s : Session) (id i : Nat) : Session :=
  ((s.setStream i fun t => { t with reading := false }).setRunner id .stopped).reportBroken id

/-- Moves past the next item of a stream. -/
def readOn (s : Session) (id i : Nat) (item : Item) : Session :=
  (s.setStream i fun t => { t with taken := t.taken + 1 }).note (.took id item)

theorem of_restore (h : s.restore id = some s') :
    ∃ e, s.epoch? id = some e ∧ e.runner = .starting ∧
      s' = (s.beginAll (.epoch id) (s.registry.localMembers.map .register)).1.setRunner id
        (.restoring (s.beginAll (.epoch id) (s.registry.localMembers.map .register)).2) := by
  obtain ⟨e, he, h⟩ := Option.bind_eq_some_iff.mp h
  obtain ⟨hr, h⟩ := guard_bind_eq_some.mp h
  exact ⟨e, he, hr, (Option.some.inj h).symm⟩

theorem of_openStream (h : s.openStream id = some s') :
    ∃ e calls, s.epoch? id = some e ∧ e.runner = .restoring calls ∧ (∀ c ∈ calls, s.answered c = true) ∧
      s' = (((s.settle calls).setHeart id .starting).begin (.epoch id) (.subscribe s.registry.knownVersions)).setRunner
        id (.opening (s.lastCall + 1) (s.now + s.settings.requestTimeoutMs.toNat)) := by
  obtain ⟨e, he, h⟩ := Option.bind_eq_some_iff.mp h
  split at h
  · next calls hr =>
    obtain ⟨ha, h⟩ := guard_bind_eq_some.mp h
    exact ⟨e, calls, he, hr, List.all_eq_true.mp ha, (Option.some.inj h).symm⟩
  · exact nomatch h

theorem of_opened (h : s.opened id = some s') :
    ∃ e call deadline a, s.epoch? id = some e ∧ e.runner = .opening call deadline ∧ s.answer? call = some a ∧
      ((∃ i, a = .opened i ∧ s' = ((s.settle [call]).setRunner id (.reading i)).note (.reading id i)) ∨
        ((∀ i, a ≠ .opened i) ∧ s' = ((s.settle [call]).setRunner id .stopped).reportBroken id)) := by
  obtain ⟨e, he, h⟩ := Option.bind_eq_some_iff.mp h
  split at h
  · next call deadline hr =>
    split at h
    · next i ha => exact ⟨e, call, deadline, _, he, hr, ha, .inl ⟨i, rfl, (Option.some.inj h).symm⟩⟩
    · next a hn ha => exact ⟨e, call, deadline, a, he, hr, ha, .inr ⟨hn, (Option.some.inj h).symm⟩⟩
    · exact nomatch h
  · exact nomatch h

theorem of_openTimeout (h : s.openTimeout id = some s') :
    ∃ e call deadline, s.epoch? id = some e ∧ e.runner = .opening call deadline ∧ deadline ≤ s.now ∧
      s' = ((s.abandon [call]).setRunner id .stopped).reportBroken id := by
  obtain ⟨e, he, h⟩ := Option.bind_eq_some_iff.mp h
  split at h
  · next call deadline hr =>
    obtain ⟨hd, h⟩ := guard_bind_eq_some.mp h
    exact ⟨e, call, deadline, he, hr, hd.1, (Option.some.inj h).symm⟩
  · exact nomatch h

theorem of_take (h : s.take id = some s') :
    ∃ e i t, s.epoch? id = some e ∧ e.runner = .reading i ∧ s.streams[i]? = some t ∧
      ((∃ u, t.items[t.taken]? = some (.update u) ∧
          s' = (s.readOn id i (.update u)).apply (.applyRemote u)) ∨
        (∃ f, t.items[t.taken]? = some (.failure (.update f)) ∧ s' = s.readOn id i (.failure (.update f))) ∨
        (∃ f, t.items[t.taken]? = some (.failure f) ∧ (∀ g, f ≠ .update g) ∧
          s' = (s.readOn id i (.failure f)).quitReading id i) ∨
        (t.items[t.taken]? = none ∧ t.ended = true ∧ s' = s.quitReading id i)) := by
  obtain ⟨e, he, h⟩ := Option.bind_eq_some_iff.mp h
  split at h
  · next i hr =>
    obtain ⟨t, ht, h⟩ := Option.bind_eq_some_iff.mp h
    refine ⟨e, i, t, he, hr, ht, ?_⟩
    dsimp only at h
    split at h
    · next item hi =>
      split at h
      · next u => exact .inl ⟨u, hi, (Option.some.inj h).symm⟩
      · next f => exact .inr (.inl ⟨f, hi, (Option.some.inj h).symm⟩)
      · next f hf => exact .inr (.inr (.inl ⟨f, hi, hf, (Option.some.inj h).symm⟩))
    · next hi =>
      obtain ⟨hended, h⟩ := guard_bind_eq_some.mp h
      exact .inr (.inr (.inr ⟨hi, hended, (Option.some.inj h).symm⟩))
  · exact nomatch h

theorem of_stopRunner (h : s.stopRunner id = some s') :
    ∃ e, s.epoch? id = some e ∧ s.stopping e = true ∧
      ((∃ calls, e.runner = .restoring calls ∧ s' = (s.abandon calls).setRunner id .stopped) ∨
        (∃ call deadline, e.runner = .opening call deadline ∧ s' = (s.abandon [call]).setRunner id .stopped) ∨
        (∃ i, e.runner = .reading i ∧
          s' = (s.setStream i fun t => { t with reading := false }).setRunner id .stopped) ∨
        (e.runner = .starting ∧ s' = s.setRunner id .stopped)) := by
  obtain ⟨e, he, h⟩ := Option.bind_eq_some_iff.mp h
  obtain ⟨hs, h⟩ := guard_bind_eq_some.mp h
  refine ⟨e, he, hs, ?_⟩
  split at h
  · next calls hr => exact .inl ⟨calls, hr, (Option.some.inj h).symm⟩
  · next call deadline hr => exact .inr (.inl ⟨call, deadline, hr, (Option.some.inj h).symm⟩)
  · next i hr => exact .inr (.inr (.inl ⟨i, hr, (Option.some.inj h).symm⟩))
  · next hr => exact .inr (.inr (.inr ⟨hr, (Option.some.inj h).symm⟩))
  · exact nomatch h

/-! The heartbeats of an epoch -/

theorem of_beat (h : s.beat id = some s') :
    ∃ e due, s.epoch? id = some e ∧
      ((e.heart = .starting ∧ due = s.now) ∨ (e.heart = .waiting due ∧ due ≤ s.now)) ∧
      s' = (s.begin (.epoch id) .heartbeat).setHeart id
        (.sending (s.lastCall + 1) (s.now + s.settings.heartbeatTimeoutMs.toNat) (s.nextTick due)) := by
  obtain ⟨e, he, h⟩ := Option.bind_eq_some_iff.mp h
  dsimp only at h
  split at h
  · next hh => exact ⟨e, s.now, he, .inl ⟨hh, rfl⟩, (Option.some.inj h).symm⟩
  · next due hh =>
    split at h
    · next hle => exact ⟨e, due, he, .inr ⟨hh, hle⟩, (Option.some.inj h).symm⟩
    · exact nomatch h
  · exact nomatch h

theorem of_beatAnswered (h : s.beatAnswered id = some s') :
    ∃ e call deadline due a, s.epoch? id = some e ∧ e.heart = .sending call deadline due ∧ s.answer? call = some a ∧
      ((∃ f, a = .failed f ∧ s' = ((s.settle [call]).setHeart id .stopped).reportBroken id) ∨
        ((∀ f, a ≠ .failed f) ∧ s' = (s.settle [call]).setHeart id (.waiting due))) := by
  obtain ⟨e, he, h⟩ := Option.bind_eq_some_iff.mp h
  split at h
  · next call deadline due hh =>
    split at h
    · next f ha => exact ⟨e, call, deadline, due, _, he, hh, ha, .inl ⟨f, rfl, (Option.some.inj h).symm⟩⟩
    · next a hn ha => exact ⟨e, call, deadline, due, a, he, hh, ha, .inr ⟨hn, (Option.some.inj h).symm⟩⟩
    · exact nomatch h
  · exact nomatch h

theorem of_beatTimeout (h : s.beatTimeout id = some s') :
    ∃ e call deadline due, s.epoch? id = some e ∧ e.heart = .sending call deadline due ∧ deadline ≤ s.now ∧
      s' = ((s.abandon [call]).setHeart id .stopped).reportBroken id := by
  obtain ⟨e, he, h⟩ := Option.bind_eq_some_iff.mp h
  split at h
  · next call deadline due hh =>
    obtain ⟨hd, h⟩ := guard_bind_eq_some.mp h
    exact ⟨e, call, deadline, due, he, hh, hd.1, (Option.some.inj h).symm⟩
  · exact nomatch h

theorem of_stopHeart (h : s.stopHeart id = some s') :
    ∃ e, s.epoch? id = some e ∧ s.stopping e = true ∧
      ((∃ call deadline due, e.heart = .sending call deadline due ∧ s' = (s.abandon [call]).setHeart id .stopped) ∨
        ((e.heart = .starting ∨ ∃ due, e.heart = .waiting due) ∧ s' = s.setHeart id .stopped)) := by
  obtain ⟨e, he, h⟩ := Option.bind_eq_some_iff.mp h
  obtain ⟨hs, h⟩ := guard_bind_eq_some.mp h
  refine ⟨e, he, hs, ?_⟩
  split at h
  · next call deadline due hh => exact .inl ⟨call, deadline, due, hh, (Option.some.inj h).symm⟩
  · next hh => exact .inr ⟨.inl hh, (Option.some.inj h).symm⟩
  · next due hh => exact .inr ⟨.inr ⟨due, hh⟩, (Option.some.inj h).symm⟩
  · exact nomatch h
  · exact nomatch h

/-! Writes and the shutdown -/

theorem of_proceed (h : s.proceed id = some s') :
    ∃ w call a, s.writing? id = some w ∧ s.answer? call = some a ∧
      ((w.progress = .sending call ∧
          ((∃ code reason, a = .failed (.rejected code reason) ∧
              s' = (s.settle [call]).returnWrite id (.error (.rejected code reason))) ∨
            ((∀ code reason, a ≠ .failed (.rejected code reason)) ∧
              s' = (s.settle [call]).effectWrite id w.write))) ∨
        (w.progress = .undoing call ∧ s' = (s.settle [call]).returnWrite id (.error .closed))) := by
  obtain ⟨w, hw, h⟩ := Option.bind_eq_some_iff.mp h
  split at h
  · next call hp =>
    split at h
    · exact nomatch h
    · next code reason ha =>
      exact ⟨w, call, _, hw, ha, .inl ⟨hp, .inl ⟨code, reason, rfl, (Option.some.inj h).symm⟩⟩⟩
    · next a hn ha => exact ⟨w, call, a, hw, ha, .inl ⟨hp, .inr ⟨hn, (Option.some.inj h).symm⟩⟩⟩
  · next call hp =>
    obtain ⟨ha, h⟩ := guard_bind_eq_some.mp h
    obtain ⟨a, ha⟩ := Option.isSome_iff_exists.mp ha
    exact ⟨w, call, a, hw, ha, .inr ⟨hp, (Option.some.inj h).symm⟩⟩
  · exact nomatch h

theorem of_afterDrain (h : s.afterDrain = some s') :
    s.closer = .draining ∧ s.drained = true ∧
      ((s.registry.localMembers = [] ∧ s' = s.release) ∨
        (s.registry.localMembers ≠ [] ∧
          s' = { (s.beginAll .closer (s.registry.localMembers.map fun m => .unregister m.id)).1 with
            closer := .unregistering (s.beginAll .closer (s.registry.localMembers.map fun m => .unregister m.id)).2
              (s.now + s.settings.closeTimeoutMs.toNat) })) := by
  unfold afterDrain at h
  split at h
  · next hd =>
    refine ⟨hd.1, hd.2, ?_⟩
    dsimp only at h
    split at h
    · next he => exact .inl ⟨by simpa using he, (Option.some.inj h).symm⟩
    · next he =>
      refine .inr ⟨by simpa using he, ?_⟩
      rw [List.map_map] at h
      exact (Option.some.inj h).symm
  · exact nomatch h

theorem of_unregistered (h : s.unregistered = some s') :
    ∃ calls deadline, s.closer = .unregistering calls deadline ∧ (∀ c ∈ calls, s.answered c = true) ∧
      s' = (s.settle calls).release := by
  unfold unregistered at h
  split at h
  · next calls deadline hc =>
    split at h
    · next ha => exact ⟨calls, deadline, hc, List.all_eq_true.mp ha, (Option.some.inj h).symm⟩
    · exact nomatch h
  · exact nomatch h

theorem of_graceOver (h : s.graceOver = some s') :
    ∃ calls deadline, s.closer = .unregistering calls deadline ∧ deadline ≤ s.now ∧
      s' = (s.abandon calls).release := by
  unfold graceOver at h
  split at h
  · next calls deadline hc =>
    split at h
    · next hd => exact ⟨calls, deadline, hc, hd.1, (Option.some.inj h).symm⟩
    · exact nomatch h
  · exact nomatch h

theorem of_released (h : s.released = some s') :
    ∃ call, s.closer = .releasing call ∧ s.answered call = true ∧
      s' = { ((s.settle [call]).apply .close).setState .closed with closer := .finished }.note (.closeReturned true) := by
  unfold released at h
  split at h
  · next call hc =>
    split at h
    · next ha => exact ⟨call, hc, ha, (Option.some.inj h).symm⟩
    · exact nomatch h
  · exact nomatch h

/-! The environment -/

/-- A call with its answer put in. -/
def give (s : Session) (id : Nat) (a : Answer) : Session :=
  { s with calls := s.calls.map fun (c : Call) => if c.id = id then { c with answer := some a } else c }.note (.answered id a)

theorem of_answer {failure : Option Failure} (h : s.answer id failure = some s') :
    ∃ c, s.call? id = some c ∧ c.answer = none ∧
      ((∃ f, failure = some f ∧ s' = s.give id (.failed f)) ∨
        (∃ known, failure = none ∧ c.request = .subscribe known ∧
          s' = { s with streams := s.streams ++ [({} : Stream)] }.give id (.opened s.streams.length)) ∨
        (failure = none ∧ c.request = .close ∧ s' = { s with connectivity := .closed, reported := true }.give id .done) ∨
        (failure = none ∧ (∀ known, c.request ≠ .subscribe known) ∧ c.request ≠ .close ∧ s' = s.give id .done)) := by
  obtain ⟨c, hc, hrest⟩ := Option.bind_eq_some_iff.mp h
  obtain ⟨ha, hgiven⟩ := guard_bind_eq_some.mp hrest
  refine ⟨c, hc, by simpa using ha, ?_⟩
  clear h hrest
  dsimp only at hgiven
  split at hgiven
  · next f => exact .inl ⟨f, rfl, (Option.some.inj hgiven).symm⟩
  · next known hr => exact .inr (.inl ⟨known, rfl, hr, (Option.some.inj hgiven).symm⟩)
  · next hr => exact .inr (.inr (.inl ⟨rfl, hr, (Option.some.inj hgiven).symm⟩))
  · next hs hcl => exact .inr (.inr (.inr ⟨rfl, hs, hcl, (Option.some.inj hgiven).symm⟩))

theorem of_push {i : Nat} {item : Item} (h : s.push i item = some s') :
    ∃ t, s.streams[i]? = some t ∧ t.reading = true ∧ t.ended = false ∧
      s' = s.setStream i fun t => { t with items := t.items ++ [item] } := by
  obtain ⟨t, ht, h⟩ := Option.bind_eq_some_iff.mp h
  obtain ⟨hg, h⟩ := guard_bind_eq_some.mp h
  exact ⟨t, ht, hg.1, by simpa using hg.2, (Option.some.inj h).symm⟩

/-! Runs -/

theorem run_cons (s : Session) (m : Move) (moves : List Move) :
    s.run (m :: moves) = (s.step m).bind fun t => t.run moves :=
  List.foldlM_cons

theorem run_append {t : Session} {moves more : List Move} (h : s.run moves = some t) (hmore : t.run more = some s') :
    s.run (moves ++ more) = some s' := by
  rw [run, List.foldlM_append]
  exact Option.bind_eq_some_iff.mpr ⟨t, h, hmore⟩

/-- What every move keeps, a run keeps. -/
theorem run_induction {P : Session → Prop} {moves : List Move} (hrun : s.run moves = some s') (h : P s)
    (hstep : ∀ t t' m, P t → t.step m = some t' → P t') : P s' :=
  foldlM_induction hrun h hstep

/-- What comes to hold in a run comes with some move of it. -/
theorem exists_step_of_run {P : Session → Prop} {moves : List Move} (hrun : s.run moves = some s') (hs : ¬P s) (hs' : P s') :
    ∃ before m after t t', moves = before ++ m :: after ∧ s.run before = some t ∧ ¬P t ∧ t.step m = some t' ∧ P t' ∧
      t'.run after = some s' := by
  induction moves generalizing s with
  | nil => exact absurd (Option.some.inj hrun ▸ hs') hs
  | cons m moves ih =>
    rw [run_cons] at hrun
    obtain ⟨v, hstep, hrest⟩ := Option.bind_eq_some_iff.mp hrun
    by_cases hv : P v
    · exact ⟨[], m, moves, s, v, rfl, rfl, hs, hstep, hv, hrest⟩
    · obtain ⟨before, n, after, t, t', rfl, hbefore, ht⟩ := ih hrest hv
      refine ⟨m :: before, n, after, t, t', rfl, ?_, ht⟩
      rw [run_cons, hstep]
      exact hbefore

/-- The sessions a run passes through. -/
def visits (s : Session) : List Move → List Session
  | [] => [s]
  | m :: moves =>
    s :: match s.step m with
      | some t => t.visits moves
      | none => []

theorem visits_cons {m : Move} (h : s.step m = some s') (moves : List Move) : s.visits (m :: moves) = s :: s'.visits moves := by
  rw [visits, h]

theorem visits_eq_cons (s : Session) (moves : List Move) : ∃ later, s.visits moves = s :: later := by
  cases moves <;> exact ⟨_, rfl⟩

theorem mem_visits_self (s : Session) (moves : List Move) : s ∈ s.visits moves := by
  obtain ⟨later, hvisits⟩ := visits_eq_cons s moves
  exact hvisits ▸ List.mem_cons_self

theorem mem_visits_append {before : List Move} (hrun : s.run before = some s') (after : List Move) :
    s' ∈ s.visits (before ++ after) := by
  induction before generalizing s with
  | nil =>
    obtain rfl := Option.some.inj hrun
    exact mem_visits_self s after
  | cons m before ih =>
    rw [run_cons] at hrun
    obtain ⟨t, ht, hrest⟩ := Option.bind_eq_some_iff.mp hrun
    rw [List.cons_append, visits_cons ht]
    exact List.mem_cons_of_mem s (ih hrest)

theorem mem_visits {moves : List Move} (hrun : s.run moves = some s') : s' ∈ s.visits moves := by
  simpa using mem_visits_append hrun []

/-- A run goes on from each session it passes through. -/
theorem run_of_mem_visits {t : Session} {moves : List Move} (hrun : s.run moves = some s') (ht : t ∈ s.visits moves) :
    ∃ before after, s.run before = some t ∧ t.run after = some s' ∧ ∀ x ∈ t.visits after, x ∈ s.visits moves := by
  induction moves generalizing s with
  | nil =>
    obtain rfl := List.mem_singleton.mp ht
    exact ⟨[], [], rfl, hrun, fun x hx => hx⟩
  | cons m moves ih =>
    obtain ⟨u, hstep, hrest⟩ := Option.bind_eq_some_iff.mp ((run_cons s m moves).symm.trans hrun)
    rw [visits_cons hstep] at ht ⊢
    obtain rfl | ht := List.mem_cons.mp ht
    · exact ⟨[], m :: moves, rfl, hrun, fun x hx => visits_cons hstep moves ▸ hx⟩
    · obtain ⟨before, after, hbefore, hafter, hvisited⟩ := ih hrest ht
      refine ⟨m :: before, after, ?_, hafter, fun x hx => List.mem_cons_of_mem s (hvisited x hx)⟩
      rw [run_cons, hstep]
      exact hbefore

/-- What holds at first and is kept by every move on the way holds of all sessions on the way. -/
theorem forall_visits {P : Session → Prop} {moves : List Move} (h : P s)
    (hstep : ∀ x ∈ s.visits moves, ∀ m x', P x → x.step m = some x' → P x') : ∀ x ∈ s.visits moves, P x := by
  induction moves generalizing s with
  | nil => exact fun x hx => List.mem_singleton.mp hx ▸ h
  | cons m moves ih =>
    intro x hx
    rw [visits] at hx hstep
    obtain rfl | hx := List.mem_cons.mp hx
    · exact h
    · cases hm : s.step m with
      | none =>
        rw [hm] at hx
        exact absurd hx List.not_mem_nil
      | some t =>
        rw [hm] at hx hstep
        exact ih (hstep s List.mem_cons_self m t h hm) (fun y hy => hstep y (List.mem_cons_of_mem s hy)) x hx

end Roster.Session
