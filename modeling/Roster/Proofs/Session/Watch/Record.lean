import Roster.Proofs.Session.Watch.Control

/-! The order and the times of what the watcher did. Unless the transport departed from ready, a pause lies between the end of
an epoch and the next one. -/
namespace Roster.Session.Watch

variable {w w' : Watch}

/-- No departure of the transport was published. -/
def Quiet (log : List (Nat × Event)) : Prop := ∀ x ∈ log, ∀ c, x.2 = .state c → c = .ready

/-- A broken report of an epoch that began at a time, and then its end. -/
def Ended (log : List (Nat × Event)) (id began ended : Nat) : Prop :=
  ∃ reported, (reported, .epochBroke id) ∈ log ∧ (ended, .epochCancelled id) ∈ log ∧ began ≤ reported ∧ reported ≤ ended

structure Record (w : Watch) : Prop where
  past : ∀ x ∈ w.log, x.1 ≤ w.now
  begun : w.log.filterMap (·.2.epochBegun?) = (List.range' 1 w.lastEpoch).reverse
  reported : ∀ id ∈ w.broken, ∀ later t earlier, w.log = later ++ (t, .epochBegan id) :: earlier →
    ∃ reported, (reported, .epochBroke id) ∈ later ∧ t ≤ reported ∧ reported ≤ w.now
  /-- Unless the transport departed, an epoch is live, or its pause is over or still awaited. -/
  pending : ∀ id later t earlier, w.log = later ++ (t, .epochBegan id) :: earlier → Quiet later →
    w.watcher = .stopped ∨ w.live = some id ∨
      ∃ ended, Ended later id t ended ∧
        (ended + w.pause ≤ w.now ∨ ∃ due, w.watcher = .pausing due ∧ ended + w.pause ≤ due)
  /-- Unless the transport departed, an epoch begins a pause after the end of an earlier one. -/
  paused : ∀ id id' later t between t' earlier,
    w.log = later ++ (t', .epochBegan id') :: (between ++ (t, .epochBegan id) :: earlier) → Quiet between →
      ∃ ended, Ended between id t ended ∧ ended + w.pause ≤ t'

lemma Ended.cons {log : List (Nat × Event)} {id began ended : Nat} (h : Ended log id began ended) (x : Nat × Event) :
    Ended (x :: log) id began ended := by
  obtain ⟨t, hb, hc, hle⟩ := h
  exact ⟨t, List.mem_cons_of_mem x hb, List.mem_cons_of_mem x hc, hle⟩

lemma Quiet.tail {x : Nat × Event} {log : List (Nat × Event)} (h : Quiet (x :: log)) : Quiet log :=
  fun y hy => h y (List.mem_cons_of_mem x hy)

/-- Where an epoch began in a log that gained an event. -/
lemma split_cons {x y : Nat × Event} {log later earlier : List (Nat × Event)} (h : x :: log = later ++ y :: earlier) :
    (later = [] ∧ x = y ∧ log = earlier) ∨ ∃ later', later = x :: later' ∧ log = later' ++ y :: earlier := by
  cases later with
  | nil => exact .inl ⟨rfl, List.cons.inj h⟩
  | cons z later =>
    obtain ⟨rfl, hlog⟩ := List.cons.inj h
    exact .inr ⟨later, rfl, hlog⟩

/-- The same in a log that gained an event of another kind. -/
lemma split_note {e : Event} {t t' id : Nat} {log later earlier : List (Nat × Event)} (he : e.epochBegun? = none)
    (h : (t, e) :: log = later ++ (t', .epochBegan id) :: earlier) :
    ∃ later', later = (t, e) :: later' ∧ log = later' ++ (t', .epochBegan id) :: earlier := by
  obtain ⟨-, hx, -⟩ | h := split_cons h
  · obtain rfl := (Prod.mk.inj hx).2
    exact nomatch he
  · exact h

namespace Record

lemma note (h : w.Record) {e : Event} (he : e.epochBegun? = none) : (w.note e).Record where
  past := by
    intro x hx
    obtain rfl | hx := List.mem_cons.mp hx
    · exact Nat.le_refl w.now
    · exact h.past x hx
  begun := by
    have hcons : (w.note e).log.filterMap (·.2.epochBegun?) = w.log.filterMap (·.2.epochBegun?) :=
      List.filterMap_cons_none he
    exact hcons.trans h.begun
  reported := by
    intro id hid later t earlier hlog
    obtain ⟨later, rfl, hrest⟩ := split_note he hlog
    obtain ⟨t', hmem, hle⟩ := h.reported id hid later t earlier hrest
    exact ⟨t', List.mem_cons_of_mem _ hmem, hle⟩
  pending := by
    intro id later t earlier hlog hquiet
    obtain ⟨later, rfl, hrest⟩ := split_note he hlog
    obtain hw | hl | ⟨ended, hended, hdue⟩ := h.pending id later t earlier hrest hquiet.tail
    · exact .inl hw
    · exact .inr (.inl hl)
    · exact .inr (.inr ⟨ended, hended.cons _, hdue⟩)
  paused := by
    intro id id' later t between t' earlier hlog hquiet
    obtain ⟨later, rfl, hrest⟩ := split_note he hlog
    exact h.paused id id' later t between t' earlier hrest hquiet

lemma publish (h : w.Record) (c : Connectivity) : (w.publish c).Record := by
  unfold Watch.publish
  split
  · exact h
  · have hset : Record { w with published := c } := ⟨h.past, h.begun, h.reported, h.pending, h.paused⟩
    exact hset.note rfl

/-- The watcher acts: whatever it waited for is over. -/
lemma awaken (h : w.Record) (ha : w.Awake) (reported : Bool) : Record { w with reported, watcher := .waiting } where
  past := h.past
  begun := h.begun
  reported := h.reported
  pending := by
    intro id later t earlier hlog hquiet
    obtain hw | hl | ⟨ended, hended, hnow | ⟨due, hw, hdue⟩⟩ := h.pending id later t earlier hlog hquiet
    · exact absurd hw (Control.awake_ne_stopped ha)
    · exact .inr (.inl hl)
    · exact .inr (.inr ⟨ended, hended, .inl hnow⟩)
    · cases ha with
      | starting ha => exact absurd (hw.symm.trans ha) nofun
      | waiting ha => exact absurd (hw.symm.trans ha) nofun
      | resumed due' ha hle =>
        have hnow : ended + w.pause ≤ w.now := by
          rw [hw, Watcher.pausing.injEq] at ha
          omega
        exact .inr (.inr ⟨ended, hended, .inl hnow⟩)
  paused := h.paused

lemma elapse (h : w.Record) (ms : Nat) : Record { w with now := w.now + ms } where
  past := fun x hx => Nat.le_add_right_of_le (h.past x hx)
  begun := h.begun
  reported := by
    intro id hid later t earlier hlog
    obtain ⟨t', hmem, hle, hnow⟩ := h.reported id hid later t earlier hlog
    exact ⟨t', hmem, hle, Nat.le_add_right_of_le hnow⟩
  pending := by
    intro id later t earlier hlog hquiet
    obtain hw | hl | ⟨ended, hended, hnow | hdue⟩ := h.pending id later t earlier hlog hquiet
    · exact .inl hw
    · exact .inr (.inl hl)
    · exact .inr (.inr ⟨ended, hended, .inl (Nat.le_add_right_of_le hnow)⟩)
    · exact .inr (.inr ⟨ended, hended, .inr hdue⟩)
  paused := h.paused

lemma broke (h : w.Record) (id : Nat) : Record ({ w with broken := w.broken ++ [id] }.note (.epochBroke id)) := by
  have hnote := h.note (e := .epochBroke id) rfl
  refine ⟨hnote.past, hnote.begun, ?_, hnote.pending, hnote.paused⟩
  intro b hb later t earlier hlog
  obtain hb | hb := List.mem_append.mp hb
  · exact hnote.reported b hb later t earlier hlog
  · obtain rfl := List.mem_singleton.mp hb
    obtain ⟨later', rfl, hrest⟩ := split_note rfl hlog
    have hbegan : t ≤ w.now := h.past (t, .epochBegan b) (hrest ▸ List.mem_append_right _ List.mem_cons_self)
    exact ⟨w.now, List.mem_cons_self, hbegan, Nat.le_refl w.now⟩

lemma pause (h : w.Record) {id : Nat} {rest : List Nat} (hw : w.watcher = .waiting) (hb : w.broken = id :: rest)
    (hl : w.live = some id) :
    Record { ({ w with broken := rest } : Watch).cancelLive with watcher := .pausing (w.now + w.pause) } := by
  rw [cancelLive_of_some (w := { w with broken := rest }) hl]
  have hnote := h.note (e := .epochCancelled id) rfl
  refine ⟨hnote.past, hnote.begun, fun b hmem => hnote.reported b (hb ▸ List.mem_cons_of_mem id hmem), ?_, hnote.paused⟩
  intro e later t earlier hlog hquiet
  obtain ⟨later', rfl, hrest⟩ := split_note rfl hlog
  obtain hstop | hlive | ⟨ended, hended, hnow | ⟨due, hdue, -⟩⟩ := h.pending e later' t earlier hrest hquiet.tail
  · exact absurd (hw.symm.trans hstop) nofun
  · obtain rfl : id = e := Option.some.inj (hl.symm.trans hlive)
    -- The report was made after the epoch began, since an epoch is not reported before.
    obtain ⟨t', hmem, hle, hnow⟩ := h.reported id (hb ▸ List.mem_cons_self) later' t earlier hrest
    have hended : Ended ((w.now, .epochCancelled id) :: later') id t w.now :=
      ⟨t', List.mem_cons_of_mem _ hmem, List.mem_cons_self, hle, hnow⟩
    exact .inr (.inr ⟨w.now, hended, .inr ⟨_, rfl, Nat.le_refl _⟩⟩)
  · exact .inr (.inr ⟨ended, hended.cons _, .inl hnow⟩)
  · exact absurd (hw.symm.trans hdue) nofun

lemma publish_watcher (w : Watch) (c : Connectivity) (watcher : Watcher) :
    { w.publish c with watcher } = ({ w with watcher } : Watch).publish c := by
  unfold Watch.publish
  split <;> rfl

/-- The next epoch begins; the pause of an earlier one is over. -/
lemma began (h : w.Record) (hw : w.watcher = .waiting) (hl : w.live = none) (hknown : ∀ id ∈ w.broken, id ≤ w.lastEpoch)
    (tokens : List (Nat × Bool)) :
    Record ({ w with lastEpoch := w.lastEpoch + 1, live := some (w.lastEpoch + 1), tokens }.note
      (.epochBegan (w.lastEpoch + 1))) where
  past := by
    intro x hx
    obtain rfl | hx := List.mem_cons.mp hx
    · exact Nat.le_refl w.now
    · exact h.past x hx
  begun := by
    have hcons : ((w.now, Event.epochBegan (w.lastEpoch + 1)) :: w.log).filterMap (·.2.epochBegun?) =
        (w.lastEpoch + 1) :: w.log.filterMap (·.2.epochBegun?) := rfl
    have hrange : List.range' 1 (w.lastEpoch + 1) = List.range' 1 w.lastEpoch ++ [w.lastEpoch + 1] := by
      rw [List.range'_1_concat, Nat.add_comm]
    refine hcons.trans ?_
    rw [h.begun]
    exact List.reverse_concat.symm.trans (congrArg List.reverse hrange.symm)
  reported := by
    intro id hid later t earlier hlog
    obtain ⟨rfl, hx, -⟩ | ⟨later', rfl, hrest⟩ := split_cons hlog
    · have hid' : w.lastEpoch + 1 = id := Event.epochBegan.inj (Prod.mk.inj hx).2
      have hle := hknown id hid
      omega
    · obtain ⟨t', hmem, hle⟩ := h.reported id hid later' t earlier hrest
      exact ⟨t', List.mem_cons_of_mem _ hmem, hle⟩
  pending := by
    intro id later t earlier hlog hquiet
    obtain ⟨rfl, hx, -⟩ | ⟨later', rfl, hrest⟩ := split_cons hlog
    · have hid : w.lastEpoch + 1 = id := Event.epochBegan.inj (Prod.mk.inj hx).2
      exact .inr (.inl (congrArg some hid))
    · obtain hstop | hlive | ⟨ended, hended, hnow | ⟨due, hdue, -⟩⟩ := h.pending id later' t earlier hrest hquiet.tail
      · exact .inl hstop
      · exact absurd (hl.symm.trans hlive) nofun
      · exact .inr (.inr ⟨ended, hended.cons _, .inl hnow⟩)
      · exact absurd (hw.symm.trans hdue) nofun
  paused := by
    intro id id' later t between t' earlier hlog hquiet
    obtain ⟨rfl, hx, hrest⟩ | ⟨later', rfl, hrest⟩ := split_cons hlog
    · obtain rfl : w.now = t' := (Prod.mk.inj hx).1
      -- The new epoch begins while none is live, so the earlier one has ended and its pause is over.
      obtain hstop | hlive | ⟨ended, hended, hnow | ⟨due, hdue, -⟩⟩ := h.pending id between t earlier hrest hquiet
      · exact absurd (hw.symm.trans hstop) nofun
      · exact absurd (hl.symm.trans hlive) nofun
      · exact ⟨ended, hended, hnow⟩
      · exact absurd (hw.symm.trans hdue) nofun
    · exact h.paused id id' later' t between t' earlier hrest hquiet

lemma begin (h : w.Record) (hcontrol : w.Control) (ha : w.Awake) (hl : w.live = none) :
    Record { ({ w with reported := false } : Watch).beginEpoch with watcher := .waiting } := by
  have hready := (h.awaken ha false).publish .ready
  rw [← publish_watcher { w with reported := false }] at hready
  unfold beginEpoch
  dsimp only [Watch.note]
  rw [publish_eq] at hready ⊢
  exact hready.began rfl hl hcontrol.known _

/-- The watcher leaves a live epoch for another state of the transport, which it publishes. -/
lemma depart (h : w.Record) (hcontrol : w.Control) (ha : w.Awake) (hr : w.connectivity ≠ .ready) :
    Record { ({ w with reported := false } : Watch).cancelLive.publish w.connectivity with watcher := .waiting } := by
  obtain hl | ⟨id, hl⟩ := Option.eq_none_or_eq_some w.live
  · rw [cancelLive_of_none (w := { w with reported := false }) hl, publish_watcher]
    exact (h.awaken ha false).publish w.connectivity
  · have hready := (hcontrol.attended (by rw [hl]; exact nofun)).2
    have hchange : w.published ≠ w.connectivity ∧ w.published ≠ .closed := by
      rw [hready]
      exact ⟨hr.symm, nofun⟩
    have hnote := (h.note (e := .epochCancelled id) rfl).note (e := .state w.connectivity) rfl
    rw [cancelLive_of_some (w := { w with reported := false }) hl, publish_of_ne]
    rotate_left
    · exact hchange.1
    · exact hchange.2
    refine ⟨hnote.past, hnote.begun, hnote.reported, ?_, hnote.paused⟩
    intro e later t earlier hlog hquiet
    obtain ⟨later', rfl, -⟩ := split_note rfl hlog
    exact absurd (hquiet _ List.mem_cons_self w.connectivity rfl) hr

lemma leave (h : w.Record) (reported : Bool) :
    Record { ({ w with reported } : Watch).cancelLive with watcher := .stopped } := by
  obtain hl | ⟨id, hl⟩ := Option.eq_none_or_eq_some w.live
  · rw [cancelLive_of_none (w := { w with reported }) hl]
    exact ⟨h.past, h.begun, h.reported, fun _ _ _ _ _ _ => .inl rfl, h.paused⟩
  · have hnote := h.note (e := .epochCancelled id) rfl
    rw [cancelLive_of_some (w := { w with reported }) hl]
    exact ⟨hnote.past, hnote.begun, hnote.reported, fun _ _ _ _ _ _ => .inl rfl, hnote.paused⟩

theorem step (h : w.Record) (hcontrol : w.Control) (hstep : Step w w') : w'.Record := by
  cases hstep with
  | elapse ms => exact h.elapse ms
  | report c => exact ⟨h.past, h.begun, h.reported, h.pending, h.paused⟩
  | cancel => exact ⟨h.past, h.begun, h.reported, h.pending, h.paused⟩
  | shut hc => exact ⟨h.past, h.begun, h.reported, h.pending, h.paused⟩
  | drain c hc hw => exact ⟨h.past, h.begun, h.reported, h.pending, h.paused⟩
  | unwind c hp hc => exact ⟨h.past, h.begun, h.reported, h.pending, h.paused⟩
  | closed hp =>
    have hclosed := h.publish .closed
    exact ⟨hclosed.past, hclosed.begun, hclosed.reported, hclosed.pending, hclosed.paused⟩
  | broke id hid => exact h.broke id
  | stale id rest hw hb hl =>
    exact ⟨h.past, h.begun, fun b hmem => h.reported b (hb ▸ List.mem_cons_of_mem id hmem), h.pending, h.paused⟩
  | pause id rest hw hb hl => exact h.pause hw hb hl
  | keep id ha hc hl => exact h.awaken ha false
  | begin ha hc hl => exact h.begin hcontrol ha hl
  | depart ha hr hc => exact h.depart hcontrol ha hr
  | finish ha hc => exact h.leave false
  | quit hc hw => exact h.leave w.reported

end Record

theorem Record.steps (h : w.Record) (hcontrol : w.Control) (hsteps : Relation.ReflTransGen Step w w') : w'.Record := by
  induction hsteps with
  | refl => exact h
  | tail hsteps hstep ih => exact ih.step (hcontrol.steps hsteps) hstep

theorem record_start (settings : Settings) (connectivity : Connectivity) (now : Nat) :
    (start settings connectivity now).watch.Record where
  past := nofun
  begun := rfl
  reported := nofun
  pending := fun _ _ _ _ h => absurd h.symm (List.append_ne_nil_of_right_ne_nil _ (List.cons_ne_nil _ _))
  paused := fun _ _ _ _ _ _ _ h => absurd h.symm (List.append_ne_nil_of_right_ne_nil _ (List.cons_ne_nil _ _))

lemma Step.pause_eq (h : Step w w') : w'.pause = w.pause := by
  cases h with
  | closed h => rw [publish_eq]
  | pause id rest h hb hl => rw [cancelLive_eq]
  | begin ha hc hl =>
    unfold beginEpoch
    dsimp only [Watch.note]
    rw [publish_eq]
  | depart ha hr hc => rw [publish_eq, cancelLive_eq]
  | finish ha hc => rw [cancelLive_eq]
  | quit hc hw => rw [cancelLive_eq]
  | _ => rfl

theorem pause_steps (h : Relation.ReflTransGen Step w w') : w'.pause = w.pause := by
  induction h with
  | refl => rfl
  | tail _ hstep ih => exact hstep.pause_eq.trans ih

end Roster.Session.Watch
