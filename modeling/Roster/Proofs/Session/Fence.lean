import Roster.Proofs.Backoff
import Roster.Proofs.Session.Watch.Record

/-! At most one epoch of a session is live, and epochs are fenced by their ids: only a report of the live epoch ends it, and a
pause follows. -/
namespace Roster.Session

namespace Watch

variable {w w' : Watch}

lemma mem_publish {c : Connectivity} {t id : Nat} (h : (t, Event.epochBegan id) ∈ (w.publish c).log) :
    (t, Event.epochBegan id) ∈ w.log := by
  unfold publish at h
  split at h
  · exact h
  · exact (List.mem_cons.mp h).resolve_left fun hx => nomatch (Prod.mk.inj hx).2

lemma mem_cancelLive {t id : Nat} (h : (t, Event.epochBegan id) ∈ w.cancelLive.log) :
    (t, Event.epochBegan id) ∈ w.log := by
  unfold cancelLive at h
  split at h
  · exact h
  · exact (List.mem_cons.mp h).resolve_left fun hx => nomatch (Prod.mk.inj hx).2

/-- Only a watcher that is awake begins an epoch. -/
lemma Step.began {t id : Nat} (hstep : Step w w') (h : (t, Event.epochBegan id) ∈ w'.log) :
    (t, Event.epochBegan id) ∈ w.log ∨ w.Awake ∧ t = w.now := by
  cases hstep with
  | closed => exact .inl (mem_publish h)
  | broke b hb => exact .inl ((List.mem_cons.mp h).resolve_left fun hx => nomatch (Prod.mk.inj hx).2)
  | pause b rest hw hb hl => exact .inl (mem_cancelLive (w := { w with broken := rest }) h)
  | begin ha hc hl =>
    obtain hx | hold := List.mem_cons.mp h
    · refine .inr ⟨ha, (Prod.mk.inj hx).1.trans ?_⟩
      rw [publish_eq]
    · exact .inl (mem_publish (w := { w with reported := false }) hold)
  | depart ha hr hc => exact .inl (mem_cancelLive (w := { w with reported := false }) (mem_publish h))
  | finish ha hc => exact .inl (mem_cancelLive (w := { w with reported := false }) h)
  | quit hc hw => exact .inl (mem_cancelLive h)
  | _ => exact .inl h

/-- The watcher pauses until a time, stopped, or the time has come. -/
def Held (w : Watch) (due : Nat) : Prop := w.watcher = .pausing due ∨ w.watcher = .stopped ∨ due ≤ w.now

lemma Held.awake {due : Nat} (h : w.Held due) (ha : w.Awake) : due ≤ w.now := by
  obtain hp | hs | hnow := h
  · cases ha with
    | starting ha => exact absurd (hp.symm.trans ha) nofun
    | waiting ha => exact absurd (hp.symm.trans ha) nofun
    | resumed due' ha hle => exact Watcher.pausing.inj (hp.symm.trans ha) ▸ hle
  · exact absurd hs (Control.awake_ne_stopped ha)
  · exact hnow

lemma Held.step {due : Nat} (h : w.Held due) (hstep : Step w w') : w'.Held due := by
  have hpast (ha : w.Awake) : due ≤ w.now := h.awake ha
  cases hstep with
  | elapse ms =>
    obtain hp | hs | hnow := h
    · exact .inl hp
    · exact .inr (.inl hs)
    · exact .inr (.inr (Nat.le_add_right_of_le hnow))
  | closed hc =>
    unfold Held
    rw [publish_eq]
    exact h
  | pause id rest hw hb hl =>
    unfold Held
    rw [cancelLive_eq]
    exact .inr (.inr (hpast (.waiting hw)))
  | keep id ha hc hl => exact .inr (.inr (hpast ha))
  | begin ha hc hl =>
    unfold Held beginEpoch
    dsimp only [Watch.note]
    rw [publish_eq]
    exact .inr (.inr (hpast ha))
  | depart ha hr hc =>
    unfold Held
    rw [publish_eq, cancelLive_eq]
    exact .inr (.inr (hpast ha))
  | finish ha hc => exact .inr (.inl rfl)
  | quit hc hw => exact .inr (.inl rfl)
  | _ => exact h

theorem Held.steps (due : Nat) (h : w.Held due) (hsteps : Relation.ReflTransGen Step w w') :
    w'.Held due ∧ ∀ t id, (t, Event.epochBegan id) ∈ w'.log → (t, Event.epochBegan id) ∈ w.log ∨ due ≤ t := by
  induction hsteps with
  | refl => exact ⟨h, fun t id hx => .inl hx⟩
  | tail _ hstep ih =>
    obtain ⟨hheld, hbegan⟩ := ih
    refine ⟨hheld.step hstep, ?_⟩
    intro t id hx
    obtain hold | ⟨ha, rfl⟩ := hstep.began hx
    · exact hbegan t id hold
    · exact .inr (hheld.awake ha)

end Watch

variable {s s' : Session}

lemma cancelLive_of_none (h : s.live = none) : s.cancelLive = s := by
  unfold cancelLive
  rw [h]

/-- Without news, a watcher that waits finds nothing to do. -/
theorem look_of_settled (h : s.watch.Control) (hw : s.watcher = .waiting) (hr : s.reported = false) : s.look = s := by
  have hsame : ({ s with reported := false } : Session) = s := by rw [← hr]
  have hwaiting : ({ s with watcher := .waiting } : Session) = s := by rw [← hw]
  unfold look
  rw [hsame]
  dsimp only
  split
  · next hc =>
    obtain ⟨-, hl⟩ | ⟨hnr, -⟩ := h.settled hw hr
    · have hsome : ¬ s.live.isNone = true := mt Option.isNone_iff_eq_none.mp hl
      rw [if_neg hsome]
      exact hwaiting
    · exact absurd hc hnr
  · next hc =>
    obtain ⟨hready, -⟩ | ⟨-, hnc, -⟩ := h.settled hw hr
    · exact absurd (hready.symm.trans hc) nofun
    · exact absurd hc hnc
  · next hnr hnc =>
    obtain ⟨hready, -⟩ | ⟨-, -, hl, hp⟩ := h.settled hw hr
    · exact absurd hready hnr
    · have hset : s.setState s.connectivity = s := if_pos (.inl hp)
      rw [cancelLive_of_none hl, hset]
      exact hwaiting

theorem watchBroken_of_stale (h : s.watch.Control) {id : Nat} {rest : List Nat} (hw : s.watcher = .waiting)
    (hb : s.broken = id :: rest) (hl : s.live ≠ some id) :
    s.step .watchBroken =
      if s.reported then ({ s with broken := rest } : Session).step .watchChange else some { s with broken := rest } := by
  have hstep : s.step .watchBroken = some ({ s with broken := rest } : Session).look := by
    show s.watchBroken = _
    unfold watchBroken
    simp only [hw, hb]
    exact if_neg hl
  rw [hstep]
  split
  · next hr =>
    have hchange : ({ s with broken := rest } : Session).watcher = .waiting ∧
        ({ s with broken := rest } : Session).reported = true := ⟨hw, hr⟩
    exact (if_pos hchange).symm
  · next hr =>
    have hcontrol := h.step (.stale s.watch id rest hw hb hl)
    have hlook := look_of_settled (s := { s with broken := rest }) hcontrol hw (Bool.not_eq_true _ ▸ hr)
    rw [hlook]

theorem mem_watch_log {x : Nat × Event} (hx : x.2.watched = true) : x ∈ s.watch.log ↔ x ∈ s.history := by
  unfold watch
  rw [List.mem_filter]
  exact and_iff_left hx

theorem length_uncancelled (h : s.watch.Control) : (s.epochs.filter fun e => !e.cancelled).length ≤ 1 := by
  have hsub : ((s.epochs.filter fun e => !e.cancelled).map (·.id)).Nodup := by
    have hnodup : (s.epochs.map (·.id)).Nodup := map_id_epochs h ▸ List.nodup_range'
    exact hnodup.sublist (List.filter_sublist.map _)
  cases hlist : s.epochs.filter fun e => !e.cancelled with
  | nil => exact Nat.zero_le 1
  | cons e rest =>
    have hlive (d : Epoch) (hd : d ∈ e :: rest) : s.live = some d.id := by
      rw [← hlist, List.mem_filter] at hd
      exact live_of_uncancelled h hd.1 (by simpa using hd.2)
    cases rest with
    | nil => exact Nat.le_refl 1
    | cons d rest =>
      have hsame : e.id = d.id :=
        Option.some.inj ((hlive e List.mem_cons_self).symm.trans (hlive d (List.mem_cons_of_mem e List.mem_cons_self)))
      rw [hlist, List.map_cons, List.map_cons, hsame] at hsub
      exact absurd List.mem_cons_self (List.nodup_cons.mp hsub).1

theorem watchBroken_of_live (h : s.watch.Control) {id : Nat} {rest : List Nat} (hw : s.watcher = .waiting)
    (hb : s.broken = id :: rest) (hl : s.live = some id) :
    ∃ s', s.step .watchBroken = some s' ∧ s'.live = none ∧ (∀ e ∈ s'.epochs, e.cancelled = true) ∧
      ∀ moves s'', s'.run moves = some s'' → ∀ t e, (t, .epochBegan e) ∈ s''.history →
        (t, .epochBegan e) ∈ s.history ∨ s.now + (s.settings.reconnect.delayFor 1).toNat ≤ t := by
  have hstep : s.step .watchBroken = some { ({ s with broken := rest } : Session).cancelLive with
      watcher := .pausing (s.now + (s.settings.reconnect.delayFor 1).toNat) } := by
    show s.watchBroken = _
    unfold watchBroken
    simp only [hw, hb]
    exact if_pos hl
  have hpause := step_pause s id rest hw hb hl
  have hcontrol := h.step hpause
  refine ⟨_, hstep, ?_, ?_, ?_⟩
  · exact hcontrol.dead nofun
  · intro e he
    by_contra hc
    have hlive := live_of_uncancelled hcontrol he (Bool.not_eq_true _ ▸ hc)
    exact absurd ((hcontrol.dead nofun).symm.trans hlive) nofun
  · intro moves s'' hrun t e hmem
    have hsteps := Watch.Held.steps (s.now + (s.settings.reconnect.delayFor 1).toNat) (.inl rfl) (run_watch hrun)
    obtain hold | hdue := hsteps.2 t e ((mem_watch_log rfl).mpr hmem)
    · have hcancel : (t, Event.epochBegan e) ∈ ({ s with broken := rest } : Session).cancelLive.watch.log := hold
      rw [watch_cancelLive] at hcancel
      have hmem : (t, Event.epochBegan e) ∈ s.watch.log :=
        Watch.mem_cancelLive (w := ({ s with broken := rest } : Session).watch) hcancel
      exact .inl ((mem_watch_log rfl).mp hmem)
    · exact .inr hdue

/-- At most one epoch lives, and epochs begin with increasing numbers. A failure is heard of the living epoch alone: it ends, the
others were ended before, and no epoch begins until the positive pause is over. The same pause lies between two epochs when no
departure was published in between. -/
theorem epochs_fenced_by_id {settings : Settings} {connectivity : Connectivity} {now : Nat} {moves : List Move}
    (hvalid : settings.validate = .ok ()) (hrun : (start settings connectivity now).run moves = some s) :
    (s.epochs.filter fun e => !e.cancelled).length ≤ 1 ∧
    (s.epochs.map (·.id)).Pairwise (· < ·) ∧
    s.history.filterMap (·.2.epochBegun?) = (s.epochs.map (·.id)).reverse ∧
    (∀ e ∈ s.epochs, e.cancelled = false → s.live = some e.id) ∧
    (∀ id, s.live = some id → s.published = .ready) ∧
    (∀ id rest, s.watcher = .waiting → s.broken = id :: rest → s.live ≠ some id →
      s.step .watchBroken =
        if s.reported then ({ s with broken := rest } : Session).step .watchChange
        else some { s with broken := rest }) ∧
    0 < settings.reconnect.delayFor 1 ∧
    (∀ id rest, s.watcher = .waiting → s.broken = id :: rest → s.live = some id →
      ∃ s', s.step .watchBroken = some s' ∧ s'.live = none ∧ (∀ e ∈ s'.epochs, e.cancelled = true) ∧
        ∀ moves s'', s'.run moves = some s'' → ∀ t e, (t, .epochBegan e) ∈ s''.history →
          (t, .epochBegan e) ∈ s.history ∨ s.now + (settings.reconnect.delayFor 1).toNat ≤ t) ∧
    (∀ id id' later t between t' earlier,
      s.history = later ++ (t', .epochBegan id') :: (between ++ (t, .epochBegan id) :: earlier) → Watch.Quiet between →
        ∃ ended, Watch.Ended between id t ended ∧ ended + (settings.reconnect.delayFor 1).toNat ≤ t') := by
  have hwatch := run_watch hrun
  have hcontrol := (Watch.control_start settings connectivity now).steps hwatch
  have hrecord := (Watch.record_start settings connectivity now).steps (Watch.control_start settings connectivity now) hwatch
  have hpause : (s.settings.reconnect.delayFor 1).toNat = (settings.reconnect.delayFor 1).toNat :=
    Watch.pause_steps hwatch
  have hids := map_id_epochs hcontrol
  refine ⟨length_uncancelled hcontrol, ?increase, ?begun, fun e he hc => live_of_uncancelled hcontrol he hc, ?ready,
    fun id rest hw hb hl => watchBroken_of_stale hcontrol hw hb hl, Settings.delayFor_one_pos hvalid, ?live, ?paused⟩
  case increase =>
    rw [hids]
    exact List.pairwise_lt_range'
  case begun =>
    rw [hids]
    refine Eq.trans ?_ hrecord.begun
    have hbegins (e : Event) : (if e.watched then e.epochBegun? else none) = e.epochBegun? := by cases e <;> rfl
    rw [show s.watch.log = s.history.filter (·.2.watched) from rfl, List.filterMap_filter]
    simp only [hbegins]
  case ready =>
    intro id hl
    have hlive : s.watch.live ≠ none := by
      rw [show s.watch.live = some id from hl]
      exact nofun
    exact (hcontrol.attended hlive).2
  case live =>
    intro id rest hw hb hl
    rw [← hpause]
    exact watchBroken_of_live hcontrol hw hb hl
  case paused =>
    intro id id' later t between t' earlier hhistory hquiet
    have hlog : s.watch.log = later.filter (·.2.watched) ++ (t', .epochBegan id') ::
        (between.filter (·.2.watched) ++ (t, .epochBegan id) :: earlier.filter (·.2.watched)) := by
      unfold watch
      rw [hhistory]
      simp [Event.watched]
    obtain ⟨ended, ⟨reported, hb, hc, hle⟩, hdue⟩ := hrecord.paused id id' _ t _ t' _ hlog
      fun x hx => hquiet x (List.mem_filter.mp hx).1
    have hended : Watch.Ended between id t ended :=
      ⟨reported, (List.mem_filter.mp hb).1, (List.mem_filter.mp hc).1, hle⟩
    rw [← hpause]
    exact ⟨ended, hended, hdue⟩

/-- A subscribe fails, and the epoch is replaced a pause later. -/
theorem fenced_restart :
    ∃ s, (start {} .ready 0).run [.watchStart, .restore 1, .openStream 1, .answer 1 (some .closed), .opened 1, .watchBroken,
        .elapse 100, .watchResume] = some s ∧
      ({} : Settings).validate = .ok () ∧ s.live = some 2 ∧ s.published = .ready ∧
      (s.epochs.filter fun e => !e.cancelled).length ≤ 1 ∧ s.epochs.map (·.id) = [1, 2] := by
  have hvalid : ({} : Settings).validate = .ok () := rfl
  have hrun : (start {} .ready 0).run [.watchStart, .restore 1, .openStream 1, .answer 1 (some .closed), .opened 1,
      .watchBroken, .elapse 100, .watchResume] = some _ := rfl
  obtain ⟨hone, -, -, -, hready, -⟩ := epochs_fenced_by_id hvalid hrun
  exact ⟨_, hrun, hvalid, rfl, hready 2 rfl, hone, rfl⟩

end Roster.Session
