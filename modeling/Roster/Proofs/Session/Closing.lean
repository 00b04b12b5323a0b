import Roster.Proofs.Session.Course
import Roster.Proofs.Session.Reports
import Roster.Proofs.Session.Writes

/-! Close is complete and final. The shutdown waits for the background tasks, asks once for the unregistration of each member that
is still local, and then lets the transport go; what it leaves is closed and empty and begins nothing any more. -/
namespace Roster

namespace Registry

/-- Closed, with nothing left. -/
structure Emptied (r : Registry) : Prop where
  closed : r.closed = true
  entries : r.entries = ∅
  locals : r.localIds = ∅
  subscribers : r.subscribers = ∅

variable {r : Registry}

theorem Emptied.perform (h : r.Emptied) (op : Op) : (r.perform op).registry.Emptied := by
  have hlocal (id : String) : r.isLocal id = false := by simp [isLocal, h.locals]
  have hsame : op = .close ∨ (∃ n, op = .unsubscribe n) ∨ (r.perform op).registry = r := by
    cases op with
    | registerLocal m => simp [Registry.perform, registerLocal, h.closed]
    | unregisterLocal id => simp [Registry.perform, unregisterLocal, hlocal]
    | updateLocal id delta => simp [Registry.perform, updateLocal, hlocal]
    | applyRemote u =>
      rcases applyRemote_cases r u with ⟨ha, -⟩ | ⟨-, hr, -⟩
      · simp [Op.applies, h.closed] at ha
      · exact .inr (.inr hr)
    | subscribe filter => simp [Registry.perform, subscribe, h.closed]
    | unsubscribe n => exact .inr (.inl ⟨n, rfl⟩)
    | close => exact .inl rfl
  rcases hsame with rfl | ⟨n, rfl⟩ | hsame
  · exact ⟨rfl, rfl, rfl, rfl⟩
  · exact ⟨h.closed, h.entries, h.locals, by simp [Registry.perform, unsubscribe, h.subscribers]⟩
  · rwa [hsame]

theorem Emptied.foldl (h : r.Emptied) (ops : List Op) : (ops.foldl (fun r op => (r.perform op).registry) r).Emptied := by
  induction ops generalizing r with
  | nil => exact h
  | cons op ops ih => exact ih (h.perform op)

/-- Only closing closes a registry, and it leaves nothing. -/
theorem emptied_after (ops : List Op) (hc : (after ops).closed = true) : (after ops).Emptied := by
  induction ops using List.reverseRecOn with
  | nil => simp [after_nil] at hc
  | append_singleton ops op ih =>
    rw [after_append_singleton] at hc ⊢
    rw [closed_perform, Bool.or_eq_true, decide_eq_true_eq] at hc
    rcases hc with hc | rfl
    · exact (ih hc).perform op
    · exact ⟨rfl, rfl, rfl, rfl⟩

end Registry

namespace Session

/-! What the watcher does after it has stopped, and the session after it shows closed -/

namespace Watch

variable {w w' : Watch}

theorem Step.stopped (h : Step w w') (hw : w.watcher = .stopped) : w'.watcher = .stopped := by
  have hasleep (ha : w.Awake) : False := Control.awake_ne_stopped ha hw
  cases h with
  | closed _ =>
    rw [publish_eq]
    exact hw
  | stale id rest hwait _ _ => simp [hw] at hwait
  | pause id rest hwait _ _ => simp [hw] at hwait
  | keep id ha _ _ => exact (hasleep ha).elim
  | begin ha _ _ => exact (hasleep ha).elim
  | depart ha _ _ => exact (hasleep ha).elim
  | finish ha _ => exact (hasleep ha).elim
  | quit _ _ => rfl
  | _ => exact hw

theorem stopped_of_steps (hsteps : Relation.ReflTransGen Step w w') (hw : w.watcher = .stopped) : w'.watcher = .stopped := by
  induction hsteps with
  | refl => exact hw
  | tail _ hstep ih => exact hstep.stopped ih

end Watch

variable {s s' u : Session} {m : Move} {moves : List Move} {id : Nat} {c : Course}

theorem shown_of_run (hrun : s.run moves = some u) (hp : s.published = .closed) {newer : List (Nat × Event)}
    (hnewer : u.history = newer ++ s.history) : u.published = .closed ∧ ∀ x ∈ newer, ∀ c, x.2 ≠ .state c := by
  obtain ⟨hpublished, events, hlog, hevents⟩ := Watch.unshown_of_steps (run_watch hrun) hp
  refine ⟨hpublished.trans hp, fun x hx c hc => ?_⟩
  have hsplit : u.watch.log = newer.filter (·.2.watched) ++ s.watch.log := by
    show u.history.filter (·.2.watched) = _
    rw [hnewer, List.filter_append]
    rfl
  have hmem : x ∈ newer.filter (·.2.watched) := List.mem_filter.mpr ⟨hx, by simp [hc, Event.watched]⟩
  rw [List.append_cancel_right (hsplit.symm.trans hlog)] at hmem
  exact hevents x hmem c hc

/-! What the epochs do after their tasks have stopped -/

/-- The epoch has no task that runs. -/
def Course.AtRest (c : Course) : Prop :=
  (c.runner = none ∨ c.runner = some .stopped) ∧ (c.heart = none ∨ c.heart = some .absent ∨ c.heart = some .stopped)

/-- An epoch at rest stays as it is, and none begins once the watcher has stopped. -/
theorem Course.Turn.eq_of_atRest (h : Course.Turn s id m c) (hw : s.watcher = .stopped) (hr : (s.course id).AtRest) :
    c = s.course id := by
  obtain ⟨hrunner, hheart⟩ := hr
  cases h with
  | rest => rfl
  | begin ha _ => exact absurd hw (Watch.Control.awake_ne_stopped ha)
  | restore hs => simp [hs] at hrunner
  | resume calls deadline hs _ => simp [hs] at hrunner
  | run old new hs ho _ => simp [hs, ho] at hrunner
  | beat deadline next hh => rcases hh with hh | ⟨due, hh⟩ <;> simp [hh] at hheart
  | pulse old new hh ho _ => simp [hh, ho] at hheart

theorem stopped_of_drained (hd : s.drained = true) : s.watcher = .stopped := by
  rw [drained, Bool.and_eq_true] at hd
  simpa using hd.1

theorem atRest_of_drained (hd : s.drained = true) (id : Nat) : (s.course id).AtRest := by
  rw [drained, Bool.and_eq_true] at hd
  cases he : s.epoch? id with
  | none => simp [Course.AtRest, course, he]
  | some e =>
    have hrest : e.atRest = true := List.all_eq_true.mp hd.2 e (List.mem_of_find?_eq_some he)
    simp only [Epoch.atRest, Bool.and_eq_true, Bool.or_eq_true, decide_eq_true_eq] at hrest
    simp [Course.AtRest, course, he, hrest.1, hrest.2.symm]

theorem course_of_drained (hd : s.drained = true) (hrun : s.run moves = some u) (id : Nat) : u.course id = s.course id := by
  have hboth : u.watcher = .stopped ∧ u.course id = s.course id := by
    refine run_induction (P := fun v => v.watcher = .stopped ∧ v.course id = s.course id) hrun ⟨stopped_of_drained hd, rfl⟩ ?_
    rintro v v' m ⟨hw, hc⟩ hstep
    have hturn : Course.Turn v id m (v'.course id) := turn_of_step hstep
    have hrest : (v.course id).AtRest := hc ▸ atRest_of_drained hd id
    exact ⟨Watch.stopped_of_steps (step_watch hstep) hw, (hturn.eq_of_atRest hw hrest).trans hc⟩
  exact hboth.2

/-- Once the tasks have stopped no epoch makes a call. -/
theorem uncalled_of_drained (hd : s.drained = true) (hrun : s.run moves = some u) {newer : List (Nat × Event)}
    (hnewer : u.history = newer ++ s.history) {x : Nat × Event} (hx : x ∈ newer) (call id : Nat) (request : Request) :
    x.2 ≠ .called call (.epoch id) request := by
  obtain ⟨time, e⟩ := x
  rintro rfl
  have hasked : asked (.epoch id) newer ++ asked (.epoch id) s.history = asked (.epoch id) s.history := by
    rw [← asked_append, ← hnewer]
    exact congrArg Course.asked (course_of_drained hd hrun id)
  have hmem : (call, request) ∈ asked (.epoch id) newer := mem_asked hx
  rw [List.append_left_eq_self.mp hasked] at hmem
  simp at hmem

/-! How far the shutdown is -/

theorem closer_apply (s : Session) (op : Registry.Op) : (s.apply op).closer = s.closer := congrArg (·.2.2) (posts_apply s op)

theorem closer_returnWrite (s : Session) (k : Nat) (result : Except Failure Unit) : (s.returnWrite k result).closer = s.closer := rfl

theorem closer_effectWrite (s : Session) (k : Nat) (w : Write) : (s.effectWrite k w).closer = s.closer := by
  unfold effectWrite
  split
  · next member =>
    dsimp only
    split
    · show ((s.apply (.registerLocal member)).apply (.unregisterLocal member.id)).closer = s.closer
      rw [closer_apply, closer_apply]
    · rw [closer_returnWrite, closer_apply]
  · rw [closer_returnWrite, closer_apply]
  · rw [closer_returnWrite, closer_apply]

/-- What moves the shutdown: it begins, it takes its list when the tasks have stopped, and past that it goes on to its end. -/
theorem closer_of_move (h : s.step m = some s') :
    s'.closer = s.closer ∨ s'.closer = .draining ∨ (m = .drained ∧ s'.closer ≠ .finished) ∨
      (s.closer.past = true ∧ (s'.closer = .finished → m = .released)) := by
  cases m with
  | write w =>
    obtain rfl := Option.some.inj h
    left
    unfold startWrite
    dsimp only
    split <;> rfl
  | proceed k =>
    left
    obtain ⟨w, call, a, -, -, ⟨-, ⟨code, reason, -, rfl⟩ | ⟨-, rfl⟩⟩ | ⟨-, rfl⟩⟩ := of_proceed h
    · rfl
    · exact closer_effectWrite (s.settle [call]) k w.write
    · rfl
  | close =>
    obtain rfl := Option.some.inj h
    unfold startClose
    split
    · exact .inl rfl
    · exact .inr (.inl rfl)
  | drained =>
    obtain ⟨-, -, ⟨-, rfl⟩ | ⟨-, rfl⟩⟩ := of_afterDrain h <;> exact .inr (.inr (.inl ⟨rfl, nofun⟩))
  | unregistered =>
    obtain ⟨calls, deadline, hc, -, rfl⟩ := of_unregistered h
    exact .inr (.inr (.inr ⟨by rw [hc]; rfl, nofun⟩))
  | graceOver =>
    obtain ⟨calls, deadline, hc, -, rfl⟩ := of_graceOver h
    exact .inr (.inr (.inr ⟨by rw [hc]; rfl, nofun⟩))
  | released =>
    obtain ⟨call, hc, -, -⟩ := of_released h
    exact .inr (.inr (.inr ⟨by rw [hc]; rfl, fun _ => rfl⟩))
  | _ => exact .inl (congrArg (·.2.2) (posts_of_step h rfl))

theorem past_of_move (h : s.step m = some s') (hp : s'.closer.past = true) : s.closer.past = true ∨ m = .drained := by
  rcases closer_of_move h with hc | hc | ⟨hm, -⟩ | ⟨hpast, -⟩
  · exact .inl (hc ▸ hp)
  · simp [hc, Closer.past] at hp
  · exact .inr hm
  · exact .inl hpast

theorem finished_of_move (h : s.step m = some s') (hf : s'.closer = .finished) : s.closer = .finished ∨ m = .released := by
  rcases closer_of_move h with hc | hc | ⟨-, hc⟩ | ⟨-, hm⟩
  · exact .inl (hc ▸ hf)
  · simp [hc] at hf
  · exact absurd hf hc
  · exact .inr (hm hf)

/-! What the shutdown asks for -/

namespace Errands

variable {d d' : Errands} {caller : Caller} {block : List (Nat × Request)}

/-- The registry moves by its own operations. -/
theorem registry_of_step (hstep : Step d d') :
    ∃ ops : List Registry.Op, d'.registry = ops.foldl (fun r op => (r.perform op).registry) d.registry := by
  cases hstep with
  | perform op _ => exact ⟨[op], rfl⟩
  | turn id gone held requests _ _ => exact ⟨[], registry_beginAll (d.settle gone) (.epoch id) requests⟩
  | register w m call _ _ _ => exact ⟨[.registerLocal m], rfl⟩
  | undo w m call _ _ _ => exact ⟨[.registerLocal m, .unregisterLocal m.id], rfl⟩
  | update w member delta call result _ _ => exact ⟨[.updateLocal member delta], rfl⟩
  | unregister w member call _ _ => exact ⟨[.unregisterLocal member], rfl⟩
  | drain deadline _ => exact ⟨[], registry_beginAll d .closer _⟩
  | finish call _ => exact ⟨[.close], rfl⟩
  | _ => exact ⟨[], rfl⟩

/-- All that a caller asked of the transport, newest first. -/
def asked (d : Errands) (caller : Caller) : List (Nat × Request) := d.log.filterMap (·.askedBy? caller)

theorem asked_of_log {events : List Event} (hlog : d'.log = events ++ d.log) (he : ∀ e ∈ events, e.askedBy? caller = none) :
    d'.asked caller = d.asked caller := by
  have hnone : events.filterMap (·.askedBy? caller) = [] := List.filterMap_eq_nil_iff.mpr he
  rw [asked, hlog, List.filterMap_append, hnone]
  rfl

@[simp] theorem asked_settle (d : Errands) (ids : List Nat) : (d.settle ids).asked caller = d.asked caller := rfl

@[simp] theorem asked_hold (d : Errands) (id : Nat) (calls : List Nat) : (d.hold id calls).asked caller = d.asked caller := rfl

@[simp] theorem asked_enter (d : Errands) (w : Write) (p : Progress) : (d.enter w p).asked caller = d.asked caller := rfl

@[simp] theorem asked_setProgress (d : Errands) (k : Nat) (p : Progress) : (d.setProgress k p).asked caller = d.asked caller := rfl

@[simp] theorem asked_give (d : Errands) (id : Nat) (a : Answer) : (d.give id a).asked caller = d.asked caller := rfl

@[simp] theorem asked_returnWrite (d : Errands) (k : Nat) (result : Except Failure Unit) :
    (d.returnWrite k result).asked caller = d.asked caller := rfl

@[simp] theorem asked_perform (d : Errands) (op : Registry.Op) : (d.perform op).asked caller = d.asked caller := by
  refine asked_of_log rfl fun e he => ?_
  obtain ⟨n, members, rfl⟩ := of_mem_notified he
  rfl

theorem asked_begin_other (d : Errands) {asker : Caller} (h : asker ≠ caller) (request : Request) :
    (d.begin asker request).asked caller = d.asked caller := by
  have hlog : (d.begin asker request).log = [.called (d.lastCall + 1) asker request] ++ d.log := rfl
  exact asked_of_log hlog (by simp [Event.askedBy?, h])

theorem asked_beginAll_other (d : Errands) {asker : Caller} (h : asker ≠ caller) (requests : List Request) :
    (d.beginAll asker requests).asked caller = d.asked caller := by
  obtain ⟨events, hlog, -, honly⟩ := log_beginAll d asker requests
  refine asked_of_log hlog fun e he => ?_
  obtain ⟨c, r, rfl⟩ := honly e he
  exact if_neg h

/-- The shutdown asks for the list when it takes it and for the close after that, and for nothing else. -/
theorem closer_asks_of_step (h : d.Stages) (hstep : Step d d') :
    (d'.closer = d.closer ∧ d'.asked .closer = d.asked .closer) ∨
      (d.closer = .idle ∧ d'.closer = .draining ∧ d'.asked .closer = d.asked .closer) ∨
      (d.closer = .draining ∧ d'.closer.past = true) ∨
      (∃ calls deadline, d.closer = .unregistering calls deadline ∧ d'.closer = .releasing (d.lastCall + 1) ∧
        d'.asked .closer = (d.lastCall + 1, .close) :: d.asked .closer) ∨
      (∃ call, d.closer = .releasing call ∧ d'.closer = .finished ∧ d'.asked .closer = d.asked .closer) := by
  have hwrite (k : Nat) : Caller.write k ≠ .closer := nofun
  cases hstep with
  | perform op _ => exact .inl ⟨rfl, by simp⟩
  | turn id gone held requests _ _ =>
    refine .inl ⟨closer_beginAll (d.settle gone) (.epoch id) requests, ?_⟩
    rw [asked_hold, asked_beginAll_other _ (show Caller.epoch id ≠ .closer from nofun), asked_settle]
  | answer id k a _ _ => exact .inl ⟨rfl, by simp⟩
  | refuse w f => exact .inl ⟨rfl, rfl⟩
  | write w _ => exact .inl ⟨rfl, by rw [asked_enter, asked_begin_other _ (hwrite _)]⟩
  | reject w call code reason k _ _ _ _ => exact .inl ⟨rfl, by simp⟩
  | register w m call _ _ _ => exact .inl ⟨rfl, by simp⟩
  | undo w m call _ _ _ => exact .inl ⟨rfl, by rw [asked_setProgress, asked_begin_other _ (hwrite _)]; simp⟩
  | update w member delta call result _ _ => exact .inl ⟨rfl, by simp⟩
  | unregister w member call _ _ => exact .inl ⟨rfl, by simp⟩
  | undone w call _ _ => exact .inl ⟨rfl, by simp⟩
  | shut hopen => exact .inr (.inl ⟨h.idle hopen, rfl, rfl⟩)
  | skip hc _ => exact .inr (.inr (.inl ⟨hc, rfl⟩))
  | drain deadline hc => exact .inr (.inr (.inl ⟨hc, rfl⟩))
  | unwind calls deadline hc => exact .inr (.inr (.inr (.inl ⟨calls, deadline, hc, rfl, rfl⟩)))
  | finish call hc =>
    refine .inr (.inr (.inr (.inr ⟨call, hc, rfl, ?_⟩)))
    exact asked_perform (d.settle [call]) .close

/-- Before the tasks have stopped the shutdown asks for nothing. -/
def Unasked (d : Errands) : Prop := d.closer.past = false → d.asked .closer = []

theorem Unasked.step (h : d.Unasked) (hstages : d.Stages) (hstep : Step d d') : d'.Unasked := by
  intro hpast
  rcases closer_asks_of_step hstages hstep with ⟨hc, ha⟩ | ⟨hc, -, ha⟩ | ⟨-, hc⟩ | ⟨calls, deadline, -, hc, -⟩ | ⟨call, -, hc, -⟩
  · rw [ha]
    exact h (hc ▸ hpast)
  · rw [ha]
    exact h (by rw [hc]; rfl)
  · simp [hc] at hpast
  all_goals simp [hc, Closer.past] at hpast

/-- The shutdown has asked for the list, and for the close if it is past the list. -/
def Listed (block : List (Nat × Request)) (d : Errands) : Prop :=
  ((∃ calls deadline, d.closer = .unregistering calls deadline) ∧ d.asked .closer = block) ∨
    ((d.closer = .finished ∨ ∃ call, d.closer = .releasing call) ∧ ∃ call, d.asked .closer = (call, .close) :: block)

theorem Listed.step (h : d.Listed block) (hstages : d.Stages) (hstep : Step d d') : d'.Listed block := by
  have hpast : d.closer.past = true := by
    rcases h with ⟨⟨calls, deadline, hc⟩, -⟩ | ⟨hc | ⟨call, hc⟩, -⟩ <;> rw [hc] <;> rfl
  rcases closer_asks_of_step hstages hstep with ⟨hc, ha⟩ | ⟨hc, -, -⟩ | ⟨hc, -⟩ | ⟨calls, deadline, hc, hc', ha⟩ | ⟨call, hc, hc', ha⟩
  · rw [Listed, hc, ha]
    exact h
  · simp [hc, Closer.past] at hpast
  · simp [hc, Closer.past] at hpast
  · rcases h with ⟨-, hblock⟩ | ⟨hother, -⟩
    · exact .inr ⟨.inr ⟨_, hc'⟩, _, ha.trans (congrArg _ hblock)⟩
    · simp [hc] at hother
  · rcases h with ⟨hother, -⟩ | ⟨-, call, hblock⟩
    · simp [hc] at hother
    · exact .inr ⟨.inl hc', call, ha.trans hblock⟩

end Errands

theorem asked_errands (s : Session) (caller : Caller) : s.errands.asked caller = asked caller s.history := by
  show ((s.history.map (·.2)).filter Event.errand).filterMap (·.askedBy? caller) = s.history.filterMap (·.2.askedBy? caller)
  rw [List.filterMap_filter, List.filterMap_map]
  refine List.filterMap_congr fun x _ => ?_
  obtain ⟨time, e⟩ := x
  cases e with
  | closeReturned performed => exact ite_self none
  | _ => rfl

variable {settings : Settings} {connectivity : Connectivity} {now : Nat}

theorem registry_of_run (hrun : (start settings connectivity now).run moves = some s) :
    ∃ ops, s.registry = Registry.after ops := by
  refine run_induction (P := fun v => ∃ ops, v.registry = Registry.after ops) hrun ⟨[], rfl⟩ ?_
  rintro v v' m ⟨ops, hv⟩ hstep
  rcases step_errands hstep with hsame | hstep
  · exact ⟨ops, (congrArg Errands.registry hsame).trans hv⟩
  · obtain ⟨more, hmore⟩ := Errands.registry_of_step hstep
    have hbefore : v.errands.registry = Registry.after ops := hv
    refine ⟨ops ++ more, ?_⟩
    rw [Registry.after_append, ← hbefore]
    exact hmore

/-! After close has returned -/

/-- The step that ends the shutdown shows closed and notes once that close returns. -/
theorem returned_of_released (hsound : s.errands.Sound) (h : s.released = some s') :
    s'.published = .closed ∧ ∃ time rest, s'.history = (time, .closeReturned true) :: rest ∧
      ∀ time, (time, .closeReturned true) ∉ rest := by
  obtain ⟨call, hc, -, rfl⟩ := of_released h
  refine ⟨?_, _, _, rfl, fun time hmem => ?_⟩
  · show (((s.settle [call]).apply .close).setState .closed).published = .closed
    unfold setState
    split
    · next hp => exact hp.elim id id
    · rfl
  · have hlog : .closeReturned true ∈ (((s.settle [call]).apply .close).setState .closed).errands.log :=
      (mem_log rfl).mpr ⟨time, hmem⟩
    rw [errands_setState, errands_apply, errands_settle] at hlog
    have hbefore : .closeReturned true ∈ s.errands.log := hlog
    have hfinished : s.closer = .finished := hsound.stages.returned hbefore
    simp [hc] at hfinished

theorem subset_of_split {α : Type} {xs ys zs ws : List α} {x : α} (h : xs ++ x :: ys = zs ++ ws) (hx : x ∉ ws) : xs ⊆ zs := by
  rcases List.append_eq_append_iff.mp h with ⟨as, rfl, -⟩ | ⟨bs, -, rfl⟩
  · exact List.subset_append_left xs as
  · exact absurd (List.mem_append_right bs List.mem_cons_self) hx

theorem finished_of_noted (hrun : (start settings connectivity now).run moves = some u) {newer older : List (Nat × Event)}
    {time : Nat} (hreturned : u.history = newer ++ (time, .closeReturned true) :: older) : u.closer = .finished := by
  refine finished_of_returned (sound_errands hrun) ⟨time, ?_⟩
  rw [hreturned]
  exact List.mem_append_right newer List.mem_cons_self

/-- A shutdown that is over has ended with a step of the run. -/
theorem exists_released (hrun : (start settings connectivity now).run moves = some u) (hf : u.closer = .finished) :
    ∃ before after v v', (start settings connectivity now).run before = some v ∧ v.closer ≠ .finished ∧
      v.released = some v' ∧ v'.run after = some u := by
  obtain ⟨before, m, after, v, v', -, hbefore, hnot, hstep, hv', hafter⟩ :=
    exists_step_of_run (P := fun v => v.closer = .finished) hrun (by simp [start]) hf
  obtain rfl := (finished_of_move hstep hv').resolve_left hnot
  exact ⟨before, after, v, v', hbefore, hnot, hstep, hafter⟩

/-- Closed is shown, and nothing is shown after close has returned. -/
theorem closed_of_returned (hrun : (start settings connectivity now).run moves = some u) {newer older : List (Nat × Event)}
    {time : Nat} (hreturned : u.history = newer ++ (time, .closeReturned true) :: older) :
    u.published = .closed ∧ ∀ x ∈ newer, ∀ c, x.2 ≠ .state c := by
  obtain ⟨before, after, v, v', hbefore, -, hstep, hafter⟩ := exists_released hrun (finished_of_noted hrun hreturned)
  obtain ⟨hpublished, instant, rest, hnoted, honce⟩ := returned_of_released (sound_errands hbefore) hstep
  obtain ⟨late, hlate⟩ := history_run hafter
  obtain ⟨hclosed, hquiet⟩ := shown_of_run hafter hpublished hlate
  have hsplit : newer ++ (time, .closeReturned true) :: older = (late ++ [(instant, .closeReturned true)]) ++ rest := by
    rw [← hreturned, hlate, hnoted, List.append_assoc]
    rfl
  refine ⟨hclosed, fun x hx c => ?_⟩
  rcases List.mem_append.mp (subset_of_split hsplit (honce time) hx) with hmem | hmem
  · exact hquiet x hmem c
  · rw [List.mem_singleton.mp hmem]
    simp

/-- When the shutdown takes its list it asks for the unregistrations, or for the close if there are none. -/
theorem listed_of_drained (hnone : asked .closer s.history = []) (h : s.afterDrain = some s') :
    s'.errands.Listed (s.nextCalls (s.registry.localMembers.map fun m => .unregister m.id)) := by
  obtain ⟨-, -, ⟨hempty, rfl⟩ | ⟨-, rfl⟩⟩ := of_afterDrain h
  · refine .inr ⟨.inr ⟨s.lastCall + 1, rfl⟩, s.lastCall + 1, ?_⟩
    rw [asked_errands, hempty]
    show asked .closer (s.begin .closer .close).history = _
    rw [asked_begin, hnone]
    rfl
  · refine .inl ⟨⟨_, _, rfl⟩, ?_⟩
    rw [asked_errands]
    show asked .closer (s.beginAll .closer _).1.history = _
    rw [asked_beginAll, hnone, List.append_nil]

/-- A shutdown that is over took its list when the tasks had stopped. It had asked for nothing before, and asked for the list and
then for the close. -/
theorem drained_of_finished (hrun : (start settings connectivity now).run moves = some u) (hf : u.closer = .finished) :
    ∃ before after d, moves = before ++ .drained :: after ∧ (start settings connectivity now).run before = some d ∧
      d.run (.drained :: after) = some u ∧ d.closer = .draining ∧ d.drained = true ∧ asked .closer d.history = [] ∧
      ∃ call, asked .closer u.history =
        (call, .close) :: d.nextCalls (d.registry.localMembers.map fun m => .unregister m.id) := by
  obtain ⟨before, m, after, d, d', rfl, hbefore, hnot, hstep, hpast, hafter⟩ :=
    exists_step_of_run (P := fun v => v.closer.past = true) hrun (by simp [start, Closer.past]) (by rw [hf]; rfl)
  obtain rfl := (past_of_move hstep hpast).resolve_left hnot
  obtain ⟨hdraining, hdrained, -⟩ := of_afterDrain hstep
  have hunasked : d.errands.Unasked :=
    kept_of_run (fun _ _ hd hu hmove => hu.step hd.stages hmove) (errands_start settings connectivity now) (fun _ => rfl) hbefore
  have hnone : asked .closer d.history = [] := by
    rw [← asked_errands]
    exact hunasked (show d.closer.past = false by rw [hdraining]; rfl)
  have hlisted : u.errands.Listed (d.nextCalls (d.registry.localMembers.map fun m => .unregister m.id)) :=
    kept_of_run (P := Errands.Listed _) (fun _ _ hd hl hmove => hl.step hd.stages hmove)
      ((sound_errands hbefore).mayStep (step_errands hstep)) (listed_of_drained hnone hstep) hafter
  refine ⟨before, after, d, rfl, hbefore, ?_, hdraining, hdrained, hnone, ?_⟩
  · rw [run_cons, hstep]
    exact hafter
  · rcases hlisted with ⟨⟨calls, deadline, hother⟩, -⟩ | ⟨-, call, hasked⟩
    · have hnone : u.closer = .unregistering calls deadline := hother
      simp [hf] at hnone
    · exact ⟨call, (asked_errands u .closer).symm.trans hasked⟩

/-- What is left of a session after its shutdown. The tasks had stopped in `d`, which is where the shutdown took its list, and
`newer` is what was noted since close returned. -/
structure ClosedDown (newer : List (Nat × Event)) (d u : Session) : Prop where
  published : u.published = .closed
  /-- The registry is empty, and stays so whatever is done to it. -/
  emptied : ∀ ops : List Registry.Op, (ops.foldl (fun r op => (r.perform op).registry) u.registry).Emptied
  /-- No callback and no call of an epoch has begun. -/
  quiet : ∀ x ∈ newer, (∀ n members, x.2 ≠ .notified n members) ∧ (∀ c, x.2 ≠ .state c) ∧
    ∀ call id request, x.2 ≠ .called call (.epoch id) request
  drained : d.drained = true
  owned : ∀ m, m ∈ d.registry.localMembers ↔ d.registry.isLocal m.id = true ∧ d.registry.member? m.id = some m
  distinct : (d.registry.localMembers.map (·.id)).Nodup
  /-- Each of them was unregistered by one call, and then the transport was closed; the shutdown asked for nothing else. -/
  unregistered : ∃ call, asked .closer u.history =
    (call, .close) :: d.nextCalls (d.registry.localMembers.map fun m => .unregister m.id)
  /-- All this came after the last call of an epoch. -/
  last : asked .closer d.history = [] ∧ ∃ rest, u.history = rest ++ d.history ∧
    ∀ x ∈ rest, ∀ call id request, x.2 ≠ .called call (.epoch id) request
  refuses : ∀ w, u.step (.write w) = some (u.refuse w .closed)

/-- In every run, once the close that shuts down has returned, the session is closed down for good. -/
theorem close_complete_and_final (hrun : (start settings connectivity now).run moves = some u)
    {newer older : List (Nat × Event)} {time : Nat} (hreturned : u.history = newer ++ (time, .closeReturned true) :: older) :
    ∃ before after d, moves = before ++ .drained :: after ∧ (start settings connectivity now).run before = some d ∧
      d.run (.drained :: after) = some u ∧ ClosedDown newer d u := by
  have hsound := sound_errands hrun
  have hfinished := finished_of_noted hrun hreturned
  obtain ⟨before, after, d, rfl, hbefore, hlater, hdraining, hdrained, hnone, hasked⟩ := drained_of_finished hrun hfinished
  have hstages := (sound_errands hbefore).stages
  obtain ⟨rest, hrest⟩ := history_run hlater
  have huncalled (x : Nat × Event) (hx : x ∈ rest) (call id : Nat) (request : Request) :
      x.2 ≠ .called call (.epoch id) request := uncalled_of_drained hdrained hlater hrest hx call id request
  have hsince : newer ⊆ rest := by
    refine subset_of_split (hreturned.symm.trans hrest) fun hmem => ?_
    have hearly : d.closer = .finished := finished_of_returned (sound_errands hbefore) ⟨time, hmem⟩
    simp [hdraining] at hearly
  obtain ⟨hpublished, hunshown⟩ := closed_of_returned hrun hreturned
  refine ⟨before, after, d, rfl, hbefore, hlater, ?_⟩
  refine { published := hpublished, emptied := ?emptied, quiet := ?quiet, drained := hdrained,
           owned := hstages.stored.mem_localMembers_iff, distinct := hstages.stored.nodup_localMembers,
           unregistered := hasked, last := ⟨hnone, rest, hrest, huncalled⟩, refuses := ?refuses }
  case emptied =>
    obtain ⟨ops, hops⟩ := registry_of_run hrun
    have hclosed : u.registry.closed = true := hsound.stages.closed.mpr hfinished
    rw [hops] at hclosed ⊢
    exact (Registry.emptied_after ops hclosed).foldl
  case quiet =>
    refine fun x hx => ⟨?_, hunshown x hx, huncalled x (hsince hx)⟩
    intro n members heq
    refine hsound.stages.silent _ _ (log_of_history rfl hreturned) n members ?_
    exact List.mem_filter.mpr ⟨heq ▸ List.mem_map_of_mem hx, rfl⟩
  case refuses =>
    have hbegun : u.errands.closer ≠ .idle := by
      rw [show u.errands.closer = .finished from hfinished]
      simp
    have hclosing : u.closing = true := hsound.stages.closing_of_closer hbegun
    exact fun w => congrArg some (startWrite_of_refusal (refusal_of_closing hclosing w))

/-- Close comes while an epoch waits for its stream, and the server does not answer the unregistration in time. -/
def closedPastGrace : List Move :=
  [.watchStart, .write (.register (Member.new "a" "web")), .answer 1 none, .proceed 0, .restore 1, .answer 2 none, .openStream 1,
    .close, .stopRunner 1, .stopHeart 1, .watchStop, .drained, .elapse 60000, .graceOver, .answer 5 none, .released]

/-- The transport and the application do not know yet. -/
def usedLate : List Move := [.report .ready, .subscribe none, .write (.unregister "a")]

theorem closed_down_past_grace :
    ∃ u newer older before after d, (start {} .ready 0).run (closedPastGrace ++ usedLate) = some u ∧
      u.history = newer ++ (60000, .closeReturned true) :: older ∧
      newer = [(60000, .wrote 1 (.error .closed)), (60000, .performed (.subscribe none))] ∧
      asked .closer u.history = [(5, .close), (4, .unregister "a")] ∧
      closedPastGrace ++ usedLate = before ++ .drained :: after ∧ (start {} .ready 0).run before = some d ∧ ClosedDown newer d u := by
  obtain ⟨u, newer, older, hu, hreturned, hnewer, hasked⟩ : ∃ u newer older,
      (start {} .ready 0).run (closedPastGrace ++ usedLate) = some u ∧
      u.history = newer ++ (60000, .closeReturned true) :: older ∧
      newer = [(60000, .wrote 1 (.error .closed)), (60000, .performed (.subscribe none))] ∧
      asked .closer u.history = [(5, .close), (4, .unregister "a")] :=
    ⟨_, [(60000, .wrote 1 (.error .closed)), (60000, .performed (.subscribe none))], _, rfl, rfl, rfl, rfl⟩
  obtain ⟨before, after, d, hsplit, hd, -, hdown⟩ := close_complete_and_final hu hreturned
  exact ⟨u, newer, older, before, after, d, hu, hreturned, hnewer, hasked, hsplit, hd, hdown⟩

end Session

end Roster
