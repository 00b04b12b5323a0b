import Mathlib.Data.List.Destutter
import Roster.Client
import Roster.Proofs.Session.Watch.Control

/-! What the connection state callback is told. A move either leaves the shown state and the callback alone, or shows another
state and tells the callback so; closed is shown last. What is told is thus what a run shows, without its repetitions. -/
namespace Roster.Session

/-- The state that an event tells the callback. -/
def Event.told? : Event → Option Connectivity
  | .state c => some c
  | _ => none

/-- What the callback was told, oldest first. -/
def told (history : List (Nat × Event)) : List Connectivity := history.reverse.filterMap (·.2.told?)

/-- What a session shows before the first move of a run and after each move. -/
def shown (s : Session) (moves : List Move) : List Connectivity := (s.visits moves).map (·.published)

structure WellFormed (states : List Connectivity) : Prop where
  starts : states.head? = some .connecting
  changes : states.IsChain (· ≠ ·)
  /-- Closed is told last, if at all. -/
  final : .closed ∉ states.dropLast

theorem told_append (newer older : List (Nat × Event)) : told (newer ++ older) = told older ++ told newer := by
  unfold told
  rw [List.reverse_append, List.filterMap_append]

theorem told_eq_nil {history : List (Nat × Event)} (h : ∀ x ∈ history, ∀ c, x.2 ≠ .state c) : told history = [] := by
  refine List.filterMap_eq_nil_iff.mpr fun x hx => ?_
  have hne := h x (List.mem_reverse.mp hx)
  cases he : x.2 with
  | state c => exact absurd he (hne c)
  | _ => rfl

/-- All that is told is in the watcher's part of the history. -/
theorem told_watch (s : Session) : told s.watch.log = told s.history := by
  have hwatched (x : Nat × Event) : (if x.2.watched then x.2.told? else none) = x.2.told? := by
    cases x.2 <;> rfl
  show (s.history.filter (·.2.watched)).reverse.filterMap (·.2.told?) = _
  rw [List.filterMap_reverse, List.filterMap_filter]
  simp only [hwatched]
  exact (List.filterMap_reverse ..).symm

namespace Watch

variable {w w' v : Watch}

/-- Nothing is shown from one to the other, or the same as before. -/
def Unshown (w w' : Watch) : Prop :=
  w'.published = w.published ∧ ∃ events, w'.log = events ++ w.log ∧ ∀ x ∈ events, ∀ c, x.2 ≠ .state c

theorem unshown_of_eq (hp : w'.published = w.published) (hlog : w'.log = w.log) : Unshown w w' :=
  ⟨hp, [], hlog, fun _ hx => absurd hx List.not_mem_nil⟩

theorem Unshown.refl (w : Watch) : Unshown w w := unshown_of_eq rfl rfl

theorem Unshown.trans {w'' : Watch} (h : Unshown w w') (h' : Unshown w' w'') : Unshown w w'' := by
  obtain ⟨hp, events, hlog, hevents⟩ := h
  obtain ⟨hp', events', hlog', hevents'⟩ := h'
  refine ⟨hp'.trans hp, events' ++ events, by rw [hlog', hlog, List.append_assoc], fun x hx => ?_⟩
  exact (List.mem_append.mp hx).elim (hevents' x) (hevents x)

theorem unshown_of_log {time : Nat} {e : Event} (hp : w'.published = w.published) (hlog : w'.log = (time, e) :: w.log)
    (he : ∀ c, e ≠ .state c) : Unshown w w' :=
  ⟨hp, [(time, e)], hlog, by simpa using he⟩

theorem unshown_cancelLive (w : Watch) : Unshown w w.cancelLive := by
  unfold cancelLive
  split
  · exact .refl w
  · exact unshown_of_log rfl rfl (by simp)

/-- Another state is shown from then on, and told. -/
def Showed (w w' : Watch) (c : Connectivity) : Prop :=
  w.published ≠ .closed ∧ w.published ≠ c ∧ w'.published = c ∧ told w'.log = told w.log ++ [c]

theorem Unshown.told_eq (h : Unshown w w') : told w'.log = told w.log := by
  obtain ⟨-, events, hlog, hevents⟩ := h
  rw [hlog, told_append, told_eq_nil hevents, List.append_nil]

theorem publish_cases (w : Watch) (c : Connectivity) : w.publish c = w ∨ Showed w (w.publish c) c := by
  by_cases h : w.published = c ∨ w.published = .closed
  · exact .inl (if_pos h)
  · obtain ⟨hne, hopen⟩ := not_or.mp h
    rw [publish_of_ne hne hopen]
    exact .inr ⟨hopen, hne, rfl, told_append [(w.now, .state c)] w.log⟩

theorem Showed.of_unshown {c : Connectivity} (h : Unshown w v) (h' : Showed v w' c) : Showed w w' c := by
  obtain ⟨hopen, hne, hp, htold⟩ := h'
  rw [h.1] at hopen hne
  exact ⟨hopen, hne, hp, by rw [htold, h.told_eq]⟩

theorem Showed.unshown {c : Connectivity} (h : Showed w v c) (h' : Unshown v w') : Showed w w' c := by
  obtain ⟨hopen, hne, hp, htold⟩ := h
  exact ⟨hopen, hne, h'.1.trans hp, by rw [h'.told_eq, htold]⟩

/-- Publishing amid steps that show nothing. -/
theorem showed_of_publish {c : Connectivity} (h : Unshown w v) (h' : Unshown (v.publish c) w') :
    Unshown w w' ∨ ∃ c, Showed w w' c := by
  obtain hsame | hshowed := publish_cases v c
  · rw [hsame] at h'
    exact .inl (h.trans h')
  · exact .inr ⟨c, (hshowed.of_unshown h).unshown h'⟩

/-- A step shows nothing new, or shows and tells one state. -/
theorem Step.unshown_or_showed (h : Step w w') : Unshown w w' ∨ ∃ c, Showed w w' c := by
  cases h with
  | closed _ => exact showed_of_publish (v := w) (.refl w) (unshown_of_eq rfl rfl)
  | broke id _ => exact .inl (unshown_of_log rfl rfl (by simp))
  | pause id rest _ _ _ => exact .inl (unshown_cancelLive { w with broken := rest })
  | begin _ _ _ =>
    refine showed_of_publish (v := { w with reported := false }) (c := .ready) (unshown_of_eq rfl rfl) ?_
    exact unshown_of_log rfl rfl (by simp)
  | depart _ _ _ => exact showed_of_publish (unshown_cancelLive { w with reported := false }) (unshown_of_eq rfl rfl)
  | finish _ _ => exact .inl (unshown_cancelLive { w with reported := false })
  | quit _ _ => exact .inl (unshown_cancelLive w)
  | _ => exact .inl (unshown_of_eq rfl rfl)

/-- Closed is shown for good. -/
theorem Step.unshown (h : Step w w') (hp : w.published = .closed) : Unshown w w' := by
  obtain hunshown | ⟨c, hopen, -⟩ := h.unshown_or_showed
  · exact hunshown
  · exact absurd hp hopen

theorem unshown_of_steps (hsteps : Relation.ReflTransGen Step w w') (hp : w.published = .closed) : Unshown w w' := by
  induction hsteps with
  | refl => exact .refl w
  | tail _ hstep ih => exact ih.trans (hstep.unshown (ih.1.trans hp))

theorem Turn.unshown_or_showed (h : Turn w w') : Unshown w w' ∨ ∃ c, Showed w w' c := by
  cases h with
  | rest => exact .inl (.refl w)
  | step hstep => exact hstep.unshown_or_showed
  | skip id rest _ _ _ hstep => exact hstep.unshown_or_showed

end Watch

variable {s s' t : Session} {m : Move} {moves : List Move}

/-- A move shows another state and tells the callback so, or does neither. -/
theorem told_step (h : s.step m = some s') :
    (s'.published = s.published ∧ told s'.history = told s.history) ∨
      (s.published ≠ .closed ∧ s.published ≠ s'.published ∧ told s'.history = told s.history ++ [s'.published]) := by
  rw [← told_watch s, ← told_watch s']
  obtain hunshown | ⟨c, hopen, hne, rfl, htold⟩ := (turn_watch h).unshown_or_showed
  · exact .inl ⟨hunshown.1, hunshown.told_eq⟩
  · exact .inr ⟨hopen, hne, htold⟩

/-- A run tells, one after the other, the states it shows after the first. -/
theorem told_run (hrun : s.run moves = some t) :
    ∃ later, (s.shown moves).destutter (· ≠ ·) = s.published :: later ∧ told t.history = told s.history ++ later := by
  induction moves generalizing s with
  | nil =>
    obtain rfl := Option.some.inj hrun
    exact ⟨[], List.destutter_singleton .., (List.append_nil _).symm⟩
  | cons m moves ih =>
    rw [run_cons] at hrun
    obtain ⟨u, hstep, hrest⟩ := Option.bind_eq_some_iff.mp hrun
    obtain ⟨later, hlater, htold⟩ := ih hrest
    obtain ⟨rest, hvisits⟩ := visits_eq_cons u moves
    rw [shown, hvisits, List.map_cons, List.destutter_cons'] at hlater
    rw [shown, visits_cons hstep, hvisits, List.map_cons, List.map_cons, List.destutter_cons']
    -- The state shown first stands in front, so only whether the move shows another one matters.
    obtain ⟨hsame, hquiet⟩ | ⟨-, hne, htell⟩ := told_step hstep
    · refine ⟨later, ?_, by rw [htold, hquiet]⟩
      rw [List.destutter'_cons_neg _ (not_not.mpr hsame.symm), ← hsame]
      exact hlater
    · refine ⟨u.published :: later, ?_, by rw [htold, htell, List.append_assoc]; rfl⟩
      rw [List.destutter'_cons_pos _ hne, hlater]

/-- The state shown is the one told last, and those told before it were open. -/
theorem closed_told_last (hquiet : told s.history = []) (hrun : s.run moves = some t) :
    ∃ front, s.published :: told t.history = front ++ [t.published] ∧ .closed ∉ front := by
  refine run_induction (P := fun u => ∃ front, s.published :: told u.history = front ++ [u.published] ∧ .closed ∉ front) hrun
    ⟨[], by rw [hquiet]; rfl, List.not_mem_nil⟩ ?_
  rintro u u' m ⟨front, hfront, hopen⟩ hstep
  obtain ⟨hsame, hsilent⟩ | ⟨hu, -, htell⟩ := told_step hstep
  · exact ⟨front, by rw [hsilent, hsame, hfront], hopen⟩
  · refine ⟨front ++ [u.published], by rw [htell, ← List.cons_append, hfront], ?_⟩
    intro hmem
    obtain hmem | hmem := List.mem_append.mp hmem
    · exact hopen hmem
    · exact hu (List.mem_singleton.mp hmem).symm

theorem told_eq_destutter (hquiet : told s.history = []) (hrun : s.run moves = some t) :
    s.published :: told t.history = (s.shown moves).destutter (· ≠ ·) := by
  obtain ⟨later, hlater, htold⟩ := told_run hrun
  rw [hlater, htold, hquiet, List.nil_append]

theorem wellFormed_told (hconnecting : s.published = .connecting) (hquiet : told s.history = []) (hrun : s.run moves = some t) :
    WellFormed (.connecting :: told t.history) where
  starts := rfl
  changes := by
    rw [← hconnecting, told_eq_destutter hquiet hrun]
    exact List.isChain_destutter (· ≠ ·) (s.shown moves)
  final := by
    obtain ⟨front, hfront, hopen⟩ := closed_told_last hquiet hrun
    rw [← hconnecting, hfront, List.dropLast_concat]
    exact hopen

theorem wellFormed_refused : WellFormed [.connecting, .disconnected] where
  starts := rfl
  changes := List.isChain_pair.mpr nofun
  final := by decide

variable {settings : Settings} {order : List String} {outcome : Nat → String → Attempt} {connectivity : Connectivity}

theorem connect_of_invalid {f : SettingsFault} (h : settings.validate = .error f) :
    settings.connect order outcome connectivity = ⟨.error (.config (.invalid f)), [], [], 0⟩ := by
  rw [Settings.connect, h]

theorem connect_of_valid (h : settings.validate = .ok ()) :
    (∃ f, (settings.connect order outcome connectivity).result = .error f ∧
      (settings.connect order outcome connectivity).states = [.connecting, .disconnected]) ∨
    ∃ seed now, (settings.connect order outcome connectivity).result = .ok (seed, start settings connectivity now) ∧
      (settings.connect order outcome connectivity).states = [.connecting] := by
  rw [Settings.connect, h]
  dsimp only
  split
  · exact .inl ⟨_, rfl, rfl⟩
  · exact .inr ⟨_, _, rfl, rfl⟩

/-- Settings that are not valid are refused before anything is told or tried. Otherwise what is told is well formed: it is
connecting and disconnected when no session comes of it, and else, at any time, what the session has shown so far. -/
theorem reports_wellFormed (settings : Settings) (order : List String) (outcome : Nat → String → Attempt)
    (connectivity : Connectivity) :
    let c := settings.connect order outcome connectivity
    (∀ f, settings.validate = .error f → c.result = .error (.config (.invalid f)) ∧ c.states = [] ∧ c.tried = []) ∧
    (settings.validate = .ok () →
      (∀ f, c.result = .error f → c.states = [.connecting, .disconnected] ∧ WellFormed c.states) ∧
      ∀ seed s, c.result = .ok (seed, s) → ∀ moves t, s.run moves = some t →
        WellFormed (c.states ++ told t.history) ∧ c.states ++ told t.history = (s.shown moves).destutter (· ≠ ·)) := by
  intro c
  refine ⟨fun f hf => ?invalid, fun hvalid => ?valid⟩
  case invalid =>
    have hc : c = ⟨.error (.config (.invalid f)), [], [], 0⟩ := connect_of_invalid hf
    rw [hc]
    exact ⟨rfl, rfl, rfl⟩
  case valid =>
    obtain ⟨f, hresult, hstates⟩ | ⟨seed, now, hresult, hstates⟩ :
        (∃ f, c.result = .error f ∧ c.states = [.connecting, .disconnected]) ∨
          ∃ seed now, c.result = .ok (seed, start settings connectivity now) ∧ c.states = [.connecting] :=
      connect_of_valid hvalid
    · rw [hresult, hstates]
      exact ⟨fun _ _ => ⟨rfl, wellFormed_refused⟩, fun _ _ h => nomatch h⟩
    · rw [hresult, hstates]
      refine ⟨fun _ h => (nomatch h), fun seed' s hs moves t hrun => ?_⟩
      obtain rfl := (Prod.mk.inj (Except.ok.inj hs)).2
      exact ⟨wellFormed_told rfl rfl hrun, told_eq_destutter rfl hrun⟩

/-- The connection is lost while the watcher pauses after a broken epoch, and reported lost again; then it comes back, and the
client is closed. -/
def lostTwice : List Move :=
  [.watchStart, .restore 1, .openStream 1, .answer 1 none, .opened 1, .finish 0, .take 1, .watchBroken, .report .disconnected,
    .elapse 5000, .watchResume, .report .disconnected, .watchChange, .report .ready, .watchChange, .close, .watchStop,
    .stopHeart 1, .stopRunner 2, .drained, .answer 2 none, .released, .report .ready]

theorem told_lostTwice :
    (Settings.validate { connectTimeoutMs := 0 } = .error (.notPositive .connectTimeout) ∧
      (Settings.connect { connectTimeoutMs := 0 } ["s1"] (fun _ _ => .answers 0) .ready).states = []) ∧
    (Settings.validate {} = .ok () ∧ (Settings.connect {} [] (fun _ _ => .hangs) .ready).result = .error .noSeeds ∧
      WellFormed (Settings.connect {} [] (fun _ _ => .hangs) .ready).states) ∧
    ∃ s t, (Settings.connect {} ["s1"] (fun _ _ => .answers 0) .ready).result = .ok ("s1", s) ∧ s.run lostTwice = some t ∧
      told t.history = [.ready, .disconnected, .ready, .closed] ∧ WellFormed (.connecting :: told t.history) ∧
      .connecting :: told t.history = (s.shown lostTwice).destutter (· ≠ ·) := by
  obtain ⟨s, t, hs, ht, htold⟩ : ∃ s t, (Settings.connect {} ["s1"] (fun _ _ => .answers 0) .ready).result = .ok ("s1", s) ∧
      s.run lostTwice = some t ∧ told t.history = [.ready, .disconnected, .ready, .closed] := ⟨_, _, rfl, rfl, rfl⟩
  have hvalid : Settings.validate {} = .ok () := rfl
  refine ⟨⟨rfl, ((reports_wellFormed _ _ _ _).1 _ rfl).2.1⟩, ⟨hvalid, rfl, ?_⟩, s, t, hs, ht, htold, ?_⟩
  · exact (((reports_wellFormed _ _ _ _).2 hvalid).1 .noSeeds rfl).2
  · exact ((reports_wellFormed _ _ _ _).2 hvalid).2 "s1" s hs lostTwice t ht

end Roster.Session
