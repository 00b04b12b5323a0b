import Roster.Proofs.Session.Closing

/-! What a close that returns has waited for. The first close shuts the session down and returns once that is done; any other returns
at once, also while the first is still at work, and then callbacks may begin after it. -/
namespace Roster.Session

/-- The event begins a callback of the application. -/
def Event.callsBack : Event → Bool
  | .notified _ _ | .state _ => true
  | _ => false

/-- The close that shuts the session down has returned. -/
def Over (history : List (Nat × Event)) : Prop := ∃ time, (time, .closeReturned true) ∈ history

variable {s s' t u : Session} {m : Move} {moves : List Move} {settings : Settings} {connectivity : Connectivity} {now : Nat}

/-! When closed is shown -/

/-- Only the end of the shutdown shows closed. -/
theorem Watch.Step.finished_of_closed {w w' : Watch} (h : Step w w') (hopen : w.published ≠ .closed) (hc : w'.published = .closed) :
    w'.closer = .finished := by
  cases h with
  | closed _ => rfl
  | pause id rest _ _ _ => exact absurd ((unshown_cancelLive { w with broken := rest }).1.symm.trans hc) hopen
  | begin _ _ _ =>
    have hready : (({ w with reported := false } : Watch).publish .ready).published = .ready := published_publish _ _ hopen
    exact nomatch hready.symm.trans hc
  | depart _ _ hconnected =>
    have hstill := (unshown_cancelLive { w with reported := false }).1
    have hshown := published_publish ({ w with reported := false } : Watch).cancelLive w.connectivity (by rwa [hstill])
    exact absurd (hshown.symm.trans hc) hconnected
  | finish _ _ => exact absurd ((unshown_cancelLive { w with reported := false }).1.symm.trans hc) hopen
  | quit _ _ => exact absurd ((unshown_cancelLive w).1.symm.trans hc) hopen
  | _ => exact absurd hc hopen

theorem Watch.Turn.finished_of_closed {w w' : Watch} (h : Turn w w') (hopen : w.published ≠ .closed) (hc : w'.published = .closed) :
    w'.closer = .finished := by
  cases h with
  | rest => exact absurd hc hopen
  | step hstep => exact hstep.finished_of_closed hopen hc
  | skip id rest _ _ _ hstep => exact hstep.finished_of_closed hopen hc

theorem finished_stays (hsound : s.errands.Sound) (h : s.step m = some s') (hf : s.closer = .finished) : s'.closer = .finished := by
  obtain heq | hstep := step_errands h
  · exact (congrArg Errands.closer heq).trans hf
  · obtain ⟨hc, -⟩ | ⟨hc, -⟩ | ⟨hc, -⟩ | ⟨calls, deadline, hc, -⟩ | ⟨call, hc, -⟩ := Errands.closer_asks_of_step hsound.stages hstep
    · exact hc.trans hf
    all_goals exact nomatch hc.symm.trans hf

theorem finished_of_shown (hrun : (start settings connectivity now).run moves = some u) (hp : u.published = .closed) :
    u.closer = .finished := by
  have hboth : u.errands.Sound ∧ (u.published = .closed → u.closer = .finished) := by
    refine run_induction (P := fun v => v.errands.Sound ∧ (v.published = .closed → v.closer = .finished)) hrun
      ⟨errands_start settings connectivity now, nofun⟩ ?_
    rintro v v' m ⟨hsound, hv⟩ hstep
    refine ⟨hsound.mayStep (step_errands hstep), fun hc => ?_⟩
    by_cases hopen : v.published = .closed
    · exact finished_stays hsound hstep (hv hopen)
    · exact (turn_watch hstep).finished_of_closed hopen hc
  exact hboth.2 hp

/-- The step that ends the shutdown tells that the session is closed. -/
theorem tells_of_released (hopen : s.published ≠ .closed) (h : s.released = some s') :
    ∃ rest, s'.history = (s'.now, .closeReturned true) :: (s'.now, .state .closed) :: rest := by
  obtain ⟨call, -, -, rfl⟩ := of_released h
  obtain ⟨history, happly⟩ := apply_eq (s.settle [call]) .close
  rw [happly, setState, if_neg (by simpa [settle] using hopen)]
  exact ⟨history, rfl⟩

/-! Returns -/

variable {newer older : List (Nat × Event)} {time : Nat} {performed : Bool}

/-- Since the shutdown was over, no callback has begun. -/
theorem quiet_of_over (hrun : (start settings connectivity now).run moves = some u)
    (hsplit : u.history = newer ++ older) (hover : Over older) : ∀ x ∈ newer, x.2.callsBack = false := by
  obtain ⟨instant, hmem⟩ := hover
  obtain ⟨late, early, rfl⟩ := List.append_of_mem hmem
  rw [← List.append_assoc] at hsplit
  have hshown := (closed_of_returned hrun hsplit).2
  have hsilent := (sound_errands hrun).stages.silent _ _ (log_of_history rfl hsplit)
  intro x hx
  have hx : x ∈ newer ++ late := List.mem_append_left late hx
  obtain ⟨instant, e⟩ := x
  cases e with
  | state c => exact absurd rfl (hshown _ hx c)
  | notified n members =>
    exact absurd (List.mem_filter.mpr ⟨List.mem_map_of_mem hx, rfl⟩) (hsilent n members)
  | _ => rfl

/-- Of two neighbours the second is on the side of the first, unless the line is drawn between them. -/
theorem mem_of_split {α : Type} {xs ys zs ws : List α} {a b y : α} (h : xs ++ a :: b :: ys = zs ++ y :: ws) (ha : a ∉ y :: ws)
    (hb : b ≠ y) : b ∈ zs := by
  rw [List.append_cons, List.append_eq_append_iff] at h
  obtain ⟨as, rfl, hsplit⟩ | ⟨bs, hsplit, hws⟩ := h
  · cases as with
    | nil => exact absurd (List.cons.inj hsplit).1 hb
    | cons c as =>
      obtain ⟨rfl, -⟩ := List.cons.inj hsplit
      simp
  · obtain rfl | ⟨bs, c, rfl⟩ := bs.eq_nil_or_concat
    · exact absurd (List.cons.inj hws).1.symm hb
    · rw [List.concat_eq_append] at hsplit hws
      rw [← List.append_assoc] at hsplit
      obtain ⟨-, hlast⟩ := List.append_inj' hsplit rfl
      refine absurd ?_ ha
      rw [hws, ← hlast]
      simp

/-- A shutdown that was over only later has told so since. -/
theorem told_since (hrun : (start settings connectivity now).run moves = some u)
    (hreturned : u.history = newer ++ (time, .closeReturned performed) :: older)
    (hearly : ¬Over ((time, .closeReturned performed) :: older)) (hf : u.closer = .finished) :
    ∃ instant, (instant, .state .closed) ∈ newer := by
  obtain ⟨before, after, v, v', hbefore, hnot, hstep, hafter⟩ := exists_released hrun hf
  obtain ⟨rest, hrest⟩ := tells_of_released (fun hp => hnot (finished_of_shown hbefore hp)) hstep
  obtain ⟨late, hlate⟩ := history_run hafter
  rw [hlate, hrest] at hreturned
  exact ⟨v'.now, mem_of_split hreturned (fun hmem => hearly ⟨_, hmem⟩) (by simp)⟩

/-- As long as the shutdown is not over, a new subscriber is called back. -/
theorem calls_back_of_subscribe (hsound : s.errands.Sound) (hc : s.closer ≠ .finished) :
    (s.apply (.subscribe none)).history =
      [(s.now, .notified (s.registry.lastSubscriber + 1) (s.registry.members none)), (s.now, .performed (.subscribe none))] ++
        s.history := by
  have hopen : s.registry.closed = false := by
    rw [← Bool.not_eq_true]
    exact fun hclosed => hc (hsound.stages.closed.mp hclosed)
  have hdue : (s.registry.perform (.subscribe none)).deliveries = [(s.registry.lastSubscriber + 1, s.registry.members none)] := by
    simp [Registry.perform, Registry.subscribe, hopen, Registry.Effect.deliveries, Registry.members]
  unfold apply
  dsimp only
  rw [history_deliver, hdue]
  rfl

/-- After a close has returned no callback begins any more, whatever comes, exactly if it was the close that shuts down or that one
had returned before. Where it was not, the end of the shutdown is told after the close has returned. -/
theorem quiet_after_close_iff (hrun : (start settings connectivity now).run moves = some u)
    (hreturned : u.history = newer ++ (time, .closeReturned performed) :: older) :
    ((∀ more v later, u.run more = some v → v.history = later ++ u.history → ∀ x ∈ later ++ newer, x.2.callsBack = false) ↔
      performed = true ∨ Over older) ∧
    (¬(performed = true ∨ Over older) → Over u.history → ∃ instant, (instant, .state .closed) ∈ newer) := by
  have hover : performed = true ∨ Over older ↔ Over ((time, .closeReturned performed) :: older) := by
    simp [Over, exists_or, eq_comm]
  rw [hover]
  refine ⟨⟨fun hquiet => ?_, fun hearly more v later hmore hlater => ?_⟩, fun hearly hlate => ?_⟩
  · -- If the shutdown is over by now it has told so since; if not, it does not keep a new subscriber from being called back.
    by_contra hearly
    by_cases hf : u.closer = .finished
    · obtain ⟨instant, hmem⟩ := told_since hrun hreturned hearly hf
      exact nomatch hquiet [] u [] rfl rfl _ hmem
    · have hmore : u.run [.subscribe none] = some (u.apply (.subscribe none)) := rfl
      exact nomatch hquiet _ _ _ hmore (calls_back_of_subscribe (sound_errands hrun) hf) _ List.mem_cons_self
  · refine quiet_of_over (run_append hrun hmore) ?_ hearly
    rw [hlater, hreturned, List.append_assoc]
  · exact told_since hrun hreturned hearly (finished_of_returned (sound_errands hrun) hlate)

/-- The second close comes while the first waits for the tasks, the third when all is over. -/
def overlappingCloses : List Move :=
  [.watchStart, .close, .close, .stopRunner 1, .watchStop, .drained, .answer 1 none, .released, .close]

theorem overlapping_closes_return :
    ∃ u newer older, (start {} .ready 0).run overlappingCloses = some u ∧
      u.history = (0, .closeReturned false) :: newer ++ (0, .closeReturned false) :: older ∧
      (∀ more v later, u.run more = some v → v.history = later ++ u.history → ∀ x ∈ later, x.2.callsBack = false) ∧
      ∃ instant, (instant, .state .closed) ∈ (0, .closeReturned false) :: newer := by
  obtain ⟨u, newer, older, hrun, hnewer, hearly, hreturned⟩ : ∃ u newer older, (start {} .ready 0).run overlappingCloses = some u ∧
      newer = [(0, .closeReturned true), (0, .state .closed), (0, .performed .close), (0, .answered 1 .done),
        (0, .called 1 .closer .close), (0, .epochCancelled 1)] ∧
      older = [(0, .epochBegan 1), (0, .state .ready)] ∧
      u.history = (0, .closeReturned false) :: newer ++ (0, .closeReturned false) :: older :=
    ⟨_, _, _, rfl, rfl, rfl, rfl⟩
  have hover : Over (newer ++ (0, .closeReturned false) :: older) := ⟨0, by simp [hnewer]⟩
  have hlast : u.history = [] ++ (0, .closeReturned false) :: (newer ++ (0, .closeReturned false) :: older) := hreturned
  have hthird := (quiet_after_close_iff hrun hlast).1.mpr (.inr hover)
  have hsecond := (quiet_after_close_iff hrun hreturned).2 (by simp [Over, hearly]) ⟨0, by simp [hreturned, hnewer]⟩
  refine ⟨u, newer, older, hrun, hreturned, fun more v later hmore hlater x hx => ?_, hsecond⟩
  exact hthird more v later hmore hlater x (List.mem_append_left [] hx)

/-- The second close returned, and after it the application was told that the session is closed. -/
theorem told_after_close_returned :
    ∃ u newer older, (start {} .ready 0).run overlappingCloses = some u ∧ u.history = newer ++ (0, .closeReturned false) :: older ∧
      older = [(0, .epochBegan 1), (0, .state .ready)] ∧ ∃ x ∈ newer, x.2.callsBack = true :=
  ⟨_, [(0, .closeReturned false), (0, .closeReturned true), (0, .state .closed), (0, .performed .close), (0, .answered 1 .done),
    (0, .called 1 .closer .close), (0, .epochCancelled 1)], _, rfl, rfl, rfl, (0, .state .closed), by simp, rfl⟩

end Roster.Session
