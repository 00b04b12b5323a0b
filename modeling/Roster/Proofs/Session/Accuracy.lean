import Roster.Proofs.Session.Watch.Control

/-! When a client shows the state its transport is in. The watcher looks at the transport again on every report, but not while it
pauses after a broken epoch: ready is then shown until the pause is over, also when the transport has left ready. -/
namespace Roster.Session

/-- A task of the client makes the move; the others are left to the environment, the application and the clock. -/
def Move.ofTask : Move → Bool
  | .elapse _ | .report _ | .answer _ _ | .push _ _ | .finish _ => false
  | .write _ | .close | .drop | .subscribe _ | .unsubscribe _ => false
  | _ => true

/-- No task can go on before time passes, or the environment or the application does something. -/
def Blocked (s : Session) : Prop := ∀ m : Move, m.ofTask = true → s.step m = none

def epochMoves (id : Nat) : List Move :=
  [.restore id, .openStream id, .opened id, .openTimeout id, .take id, .stopRunner id, .beat id, .beatAnswered id,
    .beatTimeout id, .stopHeart id]

def sessionMoves : List Move :=
  [.watchStart, .watchChange, .watchBroken, .watchResume, .watchStop, .drained, .unregistered, .graceOver, .released]

/-- The moves of the tasks there are. -/
def taskMoves (s : Session) : List Move :=
  sessionMoves ++ s.epochs.flatMap (epochMoves ·.id) ++ s.writings.map (.proceed ·.id)

variable {s s' : Session} {m : Move} {moves : List Move}

theorem ofTask_of_mem_taskMoves (hm : m ∈ s.taskMoves) : m.ofTask = true := by
  have hsession : sessionMoves.all Move.ofTask = true := rfl
  have hepoch (id : Nat) : (epochMoves id).all Move.ofTask = true := rfl
  obtain hm | hm := List.mem_append.mp hm
  · obtain hm | hm := List.mem_append.mp hm
    · exact List.all_eq_true.mp hsession m hm
    · obtain ⟨e, -, hm⟩ := List.mem_flatMap.mp hm
      exact List.all_eq_true.mp (hepoch e.id) m hm
  · obtain ⟨w, -, rfl⟩ := List.mem_map.mp hm
    rfl

theorem mem_taskMoves_of_epoch {id : Nat} (he : ∃ e, s.epoch? id = some e) (hm : m ∈ epochMoves id) : m ∈ s.taskMoves := by
  obtain ⟨e, he⟩ := he
  have hid : e.id = id := by simpa using List.find?_some he
  have hmem : m ∈ s.epochs.flatMap (epochMoves ·.id) :=
    List.mem_flatMap.mpr ⟨e, List.mem_of_find?_eq_some he, hid ▸ hm⟩
  exact List.mem_append_left _ (List.mem_append_right _ hmem)

/-- A move of a task is a move of a task there is. -/
theorem mem_taskMoves (hm : m.ofTask = true) (h : s.step m = some s') : m ∈ s.taskMoves := by
  have hepoch {id : Nat} {f : Epoch → Option Session} (h : (s.epoch? id >>= f) = some s') : ∃ e, s.epoch? id = some e := by
    obtain ⟨e, he, -⟩ := Option.bind_eq_some_iff.mp h
    exact ⟨e, he⟩
  cases m with
  | restore id | openStream id | opened id | openTimeout id | take id | stopRunner id | beat id | beatAnswered id
  | beatTimeout id | stopHeart id => exact mem_taskMoves_of_epoch (hepoch h) (by simp [epochMoves])
  | proceed id =>
    obtain ⟨w, hw, -⟩ := Option.bind_eq_some_iff.mp h
    have hid : w.id = id := by simpa using List.find?_some hw
    exact List.mem_append_right _ (List.mem_map.mpr ⟨w, List.mem_of_find?_eq_some hw, by rw [hid]⟩)
  | elapse | report | answer | push | finish | write | close | drop | subscribe | unsubscribe => exact nomatch hm
  | _ => simp [taskMoves, sessionMoves]

theorem blocked_iff : s.Blocked ↔ ∀ m ∈ s.taskMoves, s.step m = none := by
  refine ⟨fun h m hm => h m (ofTask_of_mem_taskMoves hm), fun h m hm => ?_⟩
  cases hstep : s.step m with
  | none => rfl
  | some s' => exact hstep.symm.trans (h m (mem_taskMoves hm hstep))

instance (s : Session) : Decidable s.Blocked := decidable_of_iff _ blocked_iff.symm

/-! What the watcher has acted on -/

namespace Watch

variable {w w' : Watch}

lemma Control.accurate (h : w.Control) (hw : w.watcher = .waiting) (hr : w.reported = false) : w.published = w.connectivity := by
  obtain ⟨hc, hl⟩ | ⟨-, -, -, hp⟩ := h.settled hw hr
  · rw [hc]
    exact (h.attended hl).2
  · exact hp

/-- A pause is never longer than it was meant to be. -/
def Timely (w : Watch) : Prop := ∀ due, w.watcher = .pausing due → due ≤ w.now + w.pause

lemma Step.timely (h : Step w w') (ht : w.Timely) : w'.Timely := by
  cases h with
  | elapse ms =>
    intro due hd
    have hle : due ≤ w.now + w.pause := ht due hd
    show due ≤ w.now + ms + w.pause
    omega
  | closed hp =>
    rw [publish_eq]
    exact ht
  | pause id rest hw hb hl =>
    rw [cancelLive_eq]
    intro due hd
    cases hd
    exact Nat.le_refl _
  | keep | begin | depart | finish | quit => exact nofun
  | _ => exact ht

lemma timely_of_steps (hsteps : Relation.ReflTransGen Step w w') (ht : w.Timely) : w'.Timely := by
  induction hsteps with
  | refl => exact ht
  | tail _ hstep ih => exact hstep.timely ih

/-- The watcher stops for a reason. -/
lemma Step.stops (h : Step w w') (hw : w.watcher ≠ .stopped) (hw' : w'.watcher = .stopped) :
    w.connectivity = .closed ∨ w.cancelled = true := by
  cases h with
  | finish ha hc => exact .inl hc
  | quit hc _ => exact .inr hc
  | closed hp => exact absurd (by rwa [publish_eq] at hw') hw
  | pause | keep | begin | depart => exact nomatch hw'
  | _ => exact absurd hw' hw

lemma Turn.stops (h : Turn w w') (hw : w.watcher ≠ .stopped) (hw' : w'.watcher = .stopped) :
    w.connectivity = .closed ∨ w.cancelled = true := by
  cases h with
  | rest => exact absurd hw' hw
  | step hstep => exact hstep.stops hw hw'
  | skip id rest _ _ _ hstep => exact hstep.stops hw hw'

end Watch

theorem watcher_of_blocked (h : s.Blocked) :
    s.watcher ≠ .starting ∧ (s.watcher = .waiting → s.reported = false) ∧ ∀ due, s.watcher = .pausing due → s.now < due := by
  have hstart : s.watchStart = none := h .watchStart rfl
  have hchange : s.watchChange = none := h .watchChange rfl
  have hresume : s.watchResume = none := h .watchResume rfl
  unfold watchStart at hstart
  unfold watchChange at hchange
  unfold watchResume at hresume
  refine ⟨fun hw => ?_, fun hw => ?_, fun due hw => ?_⟩
  · rw [if_pos hw] at hstart
    exact nomatch hstart
  · by_contra hr
    rw [if_pos ⟨hw, by simpa using hr⟩] at hchange
    exact nomatch hchange
  · by_contra hdue
    rw [hw] at hresume
    dsimp only at hresume
    rw [if_pos (Nat.le_of_not_lt hdue)] at hresume
    exact nomatch hresume

/-- Looking at a transport that is not closed, the watcher goes on to wait for reports. -/
theorem look_of_not_closed (h : s.connectivity ≠ .closed) :
    s.look.watcher = .waiting ∧ s.look.reported = false ∧ s.look.connectivity = s.connectivity := by
  have hstate (t : Session) (c : Connectivity) :
      (t.setState c).reported = t.reported ∧ (t.setState c).connectivity = t.connectivity := by
    unfold setState
    split <;> exact ⟨rfl, rfl⟩
  have hcancel (t : Session) : t.cancelLive.reported = t.reported ∧ t.cancelLive.connectivity = t.connectivity := by
    unfold cancelLive
    split <;> exact ⟨rfl, rfl⟩
  unfold look
  dsimp only
  split
  · split
    · exact ⟨rfl, hstate { s with reported := false } .ready⟩
    · exact ⟨rfl, rfl, rfl⟩
  · next hc => exact absurd hc h
  · obtain ⟨hr, hc⟩ := hstate ({ s with reported := false } : Session).cancelLive s.connectivity
    obtain ⟨hr', hc'⟩ := hcancel { s with reported := false }
    exact ⟨rfl, hr.trans hr', hc.trans hc'⟩

theorem published_look (hcontrol : s.watch.Control) (ha : s.watch.Awake) (h : s.connectivity ≠ .closed) :
    s.look.published = s.look.connectivity := by
  obtain ⟨hw, hr, -⟩ := look_of_not_closed h
  exact (hcontrol.step (step_look s ha)).accurate hw hr

theorem run_resume {due ms : Nat} (hw : s.watcher = .pausing due) (hms : due ≤ s.now + ms) :
    s.run [.elapse ms, .watchResume] = some ({ s with now := s.now + ms } : Session).look := by
  have hresume : ({ s with now := s.now + ms } : Session).watchResume = some ({ s with now := s.now + ms } : Session).look := by
    unfold watchResume
    rw [hw]
    exact if_pos hms
  calc
    _ = ({ s with now := s.now + ms } : Session).run [.watchResume] := run_cons s (.elapse ms) [.watchResume]
    _ = ({ s with now := s.now + ms } : Session).watchResume.bind fun t => t.run [] := run_cons _ .watchResume []
    _ = some ({ s with now := s.now + ms } : Session).look := by rw [hresume]; rfl

variable {settings : Settings} {connectivity : Connectivity} {now : Nat}

theorem not_stopped_of_run (hrun : (start settings connectivity now).run moves = some s)
    (hnever : ∀ t ∈ (start settings connectivity now).visits moves, t.connectivity ≠ .closed) (hopen : s.cancelled = false) :
    s.watcher ≠ .stopped := by
  intro hw
  obtain ⟨before, m, after, t, t', rfl, hbefore, ht, hstep, ht', hrest⟩ :=
    exists_step_of_run (P := fun t => t.watcher = .stopped) hrun nofun hw
  obtain hclosed | hcancelled := (turn_watch hstep).stops ht ht'
  · exact hnever t (mem_visits_append hbefore _) hclosed
  · have hbegun : t.watch.cancelled = false :=
      Watch.uncancelled_of_steps ((step_watch hstep).trans (run_watch hrest)) hopen
    exact nomatch hcancelled.symm.trans hbegun

/-- Where nothing can go on by itself, an open client shows the state of its transport, which was never closed, unless it left
ready while the watcher pauses after a broken epoch. Then ready is shown for the rest of the pause, and the state of the
transport after it. -/
theorem accurate_iff_not_left (hrun : (start settings connectivity now).run moves = some s)
    (hnever : ∀ t ∈ (start settings connectivity now).visits moves, t.connectivity ≠ .closed) (hopen : s.cancelled = false)
    (hblocked : s.Blocked) :
    (s.published = s.connectivity ↔ ∀ due, s.watcher = .pausing due → s.connectivity = .ready) ∧
    ∀ due, s.watcher = .pausing due →
      s.published = .ready ∧ s.now < due ∧ due ≤ s.now + (s.settings.reconnect.delayFor 1).toNat ∧
      ∀ ms, due ≤ s.now + ms → ∃ t, s.run [.elapse ms, .watchResume] = some t ∧ t.connectivity = s.connectivity ∧
        t.published = s.connectivity := by
  have hcontrol : s.watch.Control := (Watch.control_start settings connectivity now).steps (run_watch hrun)
  obtain ⟨hstarting, hseen, hdue⟩ := watcher_of_blocked hblocked
  -- While the watcher pauses ready is shown, so the two agree then just if the transport is ready.
  refine ⟨⟨fun heq due hw => ?left, fun hstays => ?accurate⟩, fun due hw => ?pausing⟩
  case left =>
    rw [← heq]
    exact hcontrol.pausing due hw
  case accurate =>
    cases hw : s.watcher with
    | starting => exact absurd hw hstarting
    -- It waits and there is no news, so it has acted on what the transport reported last.
    | waiting => exact hcontrol.accurate hw (hseen hw)
    | pausing due => exact (hcontrol.pausing due hw).trans (hstays due hw).symm
    | stopped => exact absurd hw (not_stopped_of_run hrun hnever hopen)
  case pausing =>
    have htimely : s.watch.Timely := Watch.timely_of_steps (run_watch hrun) nofun
    refine ⟨hcontrol.pausing due hw, hdue due hw, htimely due hw, fun ms hms => ?_⟩
    have hnow : ({ s with now := s.now + ms } : Session).watch.Control := hcontrol.step (.elapse s.watch ms)
    have hlast : s.connectivity ≠ .closed := hnever s (mem_visits hrun)
    obtain ⟨-, -, hc⟩ := look_of_not_closed (s := { s with now := s.now + ms }) hlast
    exact ⟨_, run_resume hw hms, hc, (published_look hnow (.resumed due hw hms) hlast).trans hc⟩

def settledIn : List Move :=
  [.watchStart, .restore 1, .openStream 1, .answer 1 none, .opened 1, .beat 1, .answer 2 none, .beatAnswered 1]

/-- The connection is lost, and the watcher sees it. -/
def lostInSight : List Move := settledIn ++ [.report .disconnected, .watchChange, .stopRunner 1, .stopHeart 1]

/-- The stream of the epoch ends, and then the connection is lost. -/
def lostInPause : List Move := settledIn ++ [.finish 0, .take 1, .watchBroken, .stopHeart 1, .report .disconnected]

theorem accurate_in_sight_and_after_pause :
    (∃ s, (start {} .ready 0).run lostInSight = some s ∧
      (∀ t ∈ (start {} .ready 0).visits lostInSight, t.connectivity ≠ .closed) ∧ s.cancelled = false ∧ s.Blocked ∧
      s.watcher = .waiting ∧ s.connectivity = .disconnected ∧ s.published = s.connectivity) ∧
    ∃ s, (start {} .ready 0).run lostInPause = some s ∧
      (∀ t ∈ (start {} .ready 0).visits lostInPause, t.connectivity ≠ .closed) ∧ s.cancelled = false ∧ s.Blocked ∧
      s.watcher = .pausing 100 ∧ s.connectivity = .disconnected ∧
      ∃ t, s.run [.elapse 100, .watchResume] = some t ∧ t.published = s.connectivity := by
  obtain ⟨s, hs, hopen, hblocked, hw, hc⟩ : ∃ s, (start {} .ready 0).run lostInSight = some s ∧ s.cancelled = false ∧
      s.Blocked ∧ s.watcher = .waiting ∧ s.connectivity = .disconnected := ⟨_, rfl, rfl, by decide, rfl, rfl⟩
  obtain ⟨u, hu, hopen', hblocked', hw', hnow, hc'⟩ : ∃ u, (start {} .ready 0).run lostInPause = some u ∧
      u.cancelled = false ∧ u.Blocked ∧ u.watcher = .pausing 100 ∧ u.now = 0 ∧ u.connectivity = .disconnected :=
    ⟨_, rfl, rfl, by decide, rfl, rfl, rfl⟩
  have hnever : ∀ t ∈ (start {} .ready 0).visits lostInSight, t.connectivity ≠ .closed := by decide
  have hnever' : ∀ t ∈ (start {} .ready 0).visits lostInPause, t.connectivity ≠ .closed := by decide
  have hseen := (accurate_iff_not_left hs hnever hopen hblocked).1.mpr fun due hd => nomatch hw.symm.trans hd
  obtain ⟨-, -, -, hresumed⟩ := (accurate_iff_not_left hu hnever' hopen' hblocked').2 100 hw'
  obtain ⟨t, ht, -, hp⟩ := hresumed 100 (by omega)
  exact ⟨⟨s, hs, hnever, hopen, hblocked, hw, hc, hseen⟩, u, hu, hnever', hopen', hblocked', hw', hc', t, ht, hp⟩

/-- Until the pause is over the loss does not show. -/
theorem ready_shown_after_loss :
    ∃ s, (start {} .ready 0).run lostInPause = some s ∧
      (∀ t ∈ (start {} .ready 0).visits lostInPause, t.connectivity ≠ .closed) ∧ s.closing = false ∧ s.cancelled = false ∧
      s.Blocked ∧ s.published = .ready ∧ s.connectivity = .disconnected ∧ ¬s.published = s.connectivity :=
  ⟨_, rfl, by decide, rfl, rfl, by decide, rfl, rfl, nofun⟩

end Roster.Session
