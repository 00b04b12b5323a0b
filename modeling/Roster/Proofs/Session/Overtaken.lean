import Roster.Proofs.Session.Errands.Debts
import Roster.Proofs.Session.History

/-! Registrations that meet a shutdown. A registration that was answered and not refused is owed an unregistration until
somebody asks for one: close, which unregisters what is still local when the tasks have stopped, or the registration itself,
when it finds that close began meanwhile. -/
namespace Roster.Session

variable {s t u : Session} {w : Writing} {m : Member} {call c k : Nat} {moves : List Move}

/-! Runs -/

/-- What one step keeps until it notes an event of some kind, a run keeps until then. -/
theorem notes_or_of_run {P : Errands → Prop} {E : Event → Prop}
    (hstep : ∀ d d' : Errands, d.Sound → P d → d.Step d' → d.Notes d' E ∨ P d') (hsound : s.errands.Sound) (h : P s.errands)
    (hrun : s.run moves = some t) : s.errands.Notes t.errands E ∨ P t.errands := by
  have hall : t.errands.Sound ∧ (∃ events, t.errands.log = events ++ s.errands.log) ∧
      (s.errands.Notes t.errands E ∨ P t.errands) := by
    refine run_induction (P := fun v => v.errands.Sound ∧ (∃ events, v.errands.log = events ++ s.errands.log) ∧
      (s.errands.Notes v.errands E ∨ P v.errands)) hrun ⟨hsound, ⟨[], rfl⟩, .inr h⟩ fun v v' x ⟨hv, ⟨events, hlog⟩, hkept⟩ hx => ?_
    obtain hsame | hmove := step_errands hx
    · exact hsame ▸ ⟨hv, ⟨events, hlog⟩, hkept⟩
    obtain ⟨more, hmore⟩ := Errands.log_of_step hmove
    have hlog' : v'.errands.log = (more ++ events) ++ s.errands.log := by rw [hmore, hlog, List.append_assoc]
    refine ⟨hv.step hmove, ⟨_, hlog'⟩, ?_⟩
    obtain ⟨noted, hnoted, e, he, hE⟩ | hP := hkept
    · refine .inl ⟨more ++ noted, ?_, e, List.mem_append_right _ he, hE⟩
      rw [hmore, hnoted, List.append_assoc]
    · obtain ⟨noted, hnoted, e, he, hE⟩ | hP := hstep _ _ hv hP hmove
      · refine .inl ⟨noted ++ events, ?_, e, List.mem_append_left _ he, hE⟩
        rw [hnoted, hlog, List.append_assoc]
      · exact .inr hP
  exact hall.2.2

/-- The same of what one step keeps for good. -/
theorem kept_of_run {P : Errands → Prop} (hstep : ∀ d d' : Errands, d.Sound → P d → d.Step d' → P d')
    (hsound : s.errands.Sound) (h : P s.errands) (hrun : s.run moves = some t) : P t.errands := by
  obtain ⟨noted, -, e, -, he⟩ | hP :=
    notes_or_of_run (E := fun _ => False) (fun d d' hd hP hmove => .inr (hstep d d' hd hP hmove)) hsound h hrun
  · exact he.elim
  · exact hP

theorem sound_of_run (hsound : s.errands.Sound) (hrun : s.run moves = some t) : t.errands.Sound :=
  kept_of_run (P := Errands.Sound) (fun _ _ hd _ hmove => hd.step hmove) hsound hsound hrun

theorem kept_errands {settings : Settings} {connectivity : Connectivity} {now : Nat}
    (hrun : (start settings connectivity now).run moves = some s) : s.errands.Kept :=
  kept_of_run (fun _ _ hd hk hmove => hk.step hd hmove) (errands_start settings connectivity now)
    (fun _ newer _ _ hlog => absurd hlog (by simp [errands, start])) hrun

/-! The history and the record -/

theorem mem_log {e : Event} (he : e.errand = true) : e ∈ s.errands.log ↔ ∃ time, (time, e) ∈ s.history := by
  show e ∈ (s.history.map (·.2)).filter Event.errand ↔ _
  rw [List.mem_filter, List.mem_map, and_iff_left he]
  constructor
  · rintro ⟨⟨time, _⟩, hx, rfl⟩
    exact ⟨time, hx⟩
  · rintro ⟨time, hx⟩
    exact ⟨_, hx, rfl⟩

theorem log_of_history {newer older : List (Nat × Event)} {time : Nat} {e : Event} (he : e.errand = true)
    (hs : s.history = newer ++ (time, e) :: older) :
    s.errands.log = (newer.map (·.2)).filter Event.errand ++ e :: (older.map (·.2)).filter Event.errand := by
  show (s.history.map (·.2)).filter Event.errand = _
  rw [hs, List.map_append, List.filter_append, List.map_cons, List.filter_cons_of_pos he]

/-- What was noted in a run is in the part of the history that the run added. -/
theorem history_of_notes {E : Event → Prop} (h : s.errands.Notes t.errands E) (hrun : s.run moves = some t) :
    ∃ newer, t.history = newer ++ s.history ∧ ∃ x ∈ newer, E x.2 := by
  obtain ⟨newer, hnewer⟩ := history_run hrun
  obtain ⟨events, hlog, e, he, hE⟩ := h
  have hsplit : (newer.map (·.2)).filter Event.errand ++ s.errands.log = events ++ s.errands.log := by
    rw [← hlog]
    show _ = (t.history.map (·.2)).filter Event.errand
    rw [hnewer, List.map_append, List.filter_append]
    rfl
  rw [← List.append_cancel_right hsplit, List.mem_filter, List.mem_map] at he
  obtain ⟨⟨x, hx, rfl⟩, -⟩ := he
  exact ⟨newer, hnewer, x, hx, hE⟩

/-! Writes go on -/

theorem writing?_of_mem (h : s.errands.Accounts) (hw : w ∈ s.writings) : s.writing? w.id = some w := by
  cases hfound : s.writing? w.id with
  | none => exact absurd rfl (of_decide_eq_false (Bool.not_eq_true _ ▸ List.find?_eq_none.mp hfound w hw))
  | some x =>
    have hid : x.id = w.id := by simpa using List.find?_some hfound
    rw [h.same_write (List.mem_of_find?_eq_some hfound) hw hid]

theorem answered_of_call {x : Call} {a : Answer} (hx : s.call? c = some x) (ha : x.answer = some a) : s.answer? c = some a := by
  unfold answer?
  rw [hx]
  exact ha

/-- With its answer in, a registration that close has overtaken can go on, and takes itself back. -/
theorem proceed_of_accepted (hsound : s.errands.Sound) (h : s.errands.Accepted w call) (hm : w.write = .register m)
    (hc : s.closing = true) :
    ∃ t, s.step (.proceed w.id) = some t ∧ ∃ c, { w with progress := .undoing c } ∈ t.writings := by
  obtain ⟨x, a, hx, hxa, hr⟩ := h.answer
  have hstep : s.step (.proceed w.id) = some ((s.settle [call]).effectWrite w.id w.write) := by
    show s.proceed w.id = _
    unfold proceed
    rw [writing?_of_mem hsound.accounts h.mem, Option.bind_eq_bind, Option.bind_some, h.sending]
    dsimp only
    rw [answered_of_call hx hxa]
    split
    · next hnone => exact nomatch hnone
    · next code reason heq => exact absurd (Option.some.inj heq) (hr code reason)
    · rfl
  refine ⟨_, hstep, ?_⟩
  have hmem : w ∈ ((((s.settle [call]).apply (.registerLocal m)).apply (.unregisterLocal m.id)).begin (.write w.id)
      (.unregister m.id)).errands.writings := by
    rw [errands_begin, errands_apply, errands_apply, errands_settle]
    exact h.mem
  have hclosing : ((s.settle [call]).apply (.registerLocal m)).closing = true := by
    obtain ⟨history, heq⟩ := apply_eq (s.settle [call]) (.registerLocal m)
    rw [heq]
    exact hc
  have heffect : ∃ c, (s.settle [call]).effectWrite w.id w.write = ((((s.settle [call]).apply (.registerLocal m)).apply
      (.unregisterLocal m.id)).begin (.write w.id) (.unregister m.id)).setProgress w.id (.undoing c) := by
    rw [hm]
    exact ⟨_, if_pos hclosing⟩
  obtain ⟨c, heffect⟩ := heffect
  rw [heffect]
  exact ⟨c, Errands.mem_setProgress.mpr (.inl ⟨w, hmem, rfl, rfl⟩)⟩

/-- A registration that takes itself back returns when its call is answered. -/
theorem proceed_of_undoing (hsound : s.errands.Sound) (hw : w ∈ s.writings) (hp : w.progress = .undoing c)
    (ha : s.answered c = true) :
    ∃ t, s.step (.proceed w.id) = some t ∧ (s.now, .wrote w.id (.error .closed)) ∈ t.history := by
  refine ⟨(s.settle [c]).returnWrite w.id (.error .closed), ?_, List.mem_cons_self⟩
  show s.proceed w.id = _
  unfold proceed
  rw [writing?_of_mem hsound.accounts hw, Option.bind_eq_bind, Option.bind_some, hp]
  exact guard_bind_eq_some.mpr ⟨ha, rfl⟩

/-- A call that is not answered can be. -/
theorem answer_of_pending {x : Call} (hx : s.call? c = some x) (hn : x.answer = none) :
    ∃ t, s.step (.answer c none) = some t ∧ t.answered c = true ∧ t.writings = s.writings := by
  have hstep : ∃ t, s.answer c none = some t := by
    obtain ⟨id, caller, request, given⟩ := x
    obtain rfl : given = none := hn
    unfold answer
    rw [hx]
    cases request <;> exact ⟨_, rfl⟩
  obtain ⟨t, ht⟩ := hstep
  obtain ⟨y, a, hy, -, -, hview⟩ := step_answer_errands ht
  have hwritings : t.writings = s.writings := congrArg Errands.writings hview
  have hid : y.id = c := by simpa using List.find?_some hy
  have hgiven : t.errands.calls c = some { y with answer := some a } := by
    rw [hview]
    exact Errands.calls_give.mpr ⟨y, hy, (if_pos hid).symm⟩
  have hanswer : t.answer? c = some a := answered_of_call hgiven rfl
  exact ⟨t, ht, Option.isSome_iff_exists.mpr ⟨a, hanswer⟩, hwritings⟩

/-- A step of the write itself, or an answer without a failure. -/
def Move.serves (k : Nat) : Move → Prop
  | .proceed id => id = k
  | .answer _ failure => failure = none
  | _ => False

/-- Such moves are enough for the write to return that the client is closed. -/
def CanReturnClosed (s : Session) (k : Nat) : Prop :=
  ∃ own t, (∀ x ∈ own, x.serves k) ∧ s.run own = some t ∧ ∃ time, (time, .wrote k (.error .closed)) ∈ t.history

theorem CanReturnClosed.of_step {x : Move} (hx : x.serves k) (hstep : s.step x = some t) (h : t.CanReturnClosed k) :
    s.CanReturnClosed k := by
  obtain ⟨own, u, hown, hrun, hnoted⟩ := h
  refine ⟨x :: own, u, List.forall_mem_cons.mpr ⟨hx, hown⟩, ?_, hnoted⟩
  rw [run_cons, hstep]
  exact hrun

theorem canReturnClosed_of_undoing (hsound : s.errands.Sound) (hw : w ∈ s.writings) (hp : w.progress = .undoing c) :
    s.CanReturnClosed w.id := by
  have hproceed {v : Session} (hv : v.errands.Sound) (hw : w ∈ v.writings) (ha : v.answered c = true) :
      v.CanReturnClosed w.id := by
    obtain ⟨t, hstep, hnoted⟩ := proceed_of_undoing hv hw hp ha
    exact .of_step (x := .proceed w.id) rfl hstep ⟨[], t, nofun, rfl, _, hnoted⟩
  obtain ⟨x, hx, -, -⟩ := hsound.accounts.writing w hw c _ (Errands.Accounts.awaits_undoing hp)
  cases ha : x.answer with
  | none =>
    obtain ⟨t, hstep, hanswered, hwritings⟩ := answer_of_pending hx ha
    exact .of_step (x := .answer c none) rfl hstep (hproceed (hsound.mayStep (step_errands hstep)) (hwritings ▸ hw) hanswered)
  | some a => exact hproceed hsound hw (Option.isSome_iff_exists.mpr ⟨a, answered_of_call hx ha⟩)

theorem canReturnClosed_of_overtaken (hsound : s.errands.Sound) (h : s.errands.Overtaken w call)
    (hm : w.write = .register m) : s.CanReturnClosed w.id := by
  obtain haccepted | ⟨c, hundoing⟩ | hdone := h.stage
  · obtain ⟨t, hstep, c, hundoing⟩ := proceed_of_accepted hsound haccepted hm h.shut
    have hsoundt := hsound.mayStep (step_errands hstep)
    exact .of_step (x := .proceed w.id) rfl hstep
      (canReturnClosed_of_undoing (w := { w with progress := .undoing c }) hsoundt hundoing rfl)
  · exact canReturnClosed_of_undoing (w := { w with progress := .undoing c }) hsound hundoing rfl
  · obtain ⟨time, hnoted⟩ := (mem_log rfl).mp (hsound.accounts.noted _ hdone _ rfl)
    exact ⟨[], s, nofun, rfl, time, hnoted⟩

/-! Registrations and the shutdown -/

/-- The server answers the call of a registration, and does not reject it. -/
def Admits (s t : Session) (k : Nat) (m : Member) : Prop :=
  ∃ call x failure, s.call? call = some x ∧ x.caller = .write k ∧ x.request = .register m ∧
    (∀ code reason, failure ≠ some (.rejected code reason)) ∧ s.step (.answer call failure) = some t

/-- What becomes of registrations when the client is closed. Close is the one that shuts down; one that comes later returns at
once and waits for nothing. -/
structure Unleaked (s : Session) : Prop where
  /-- No member is left once close has returned. -/
  empty : ∀ time, (time, .closeReturned true) ∈ s.history → ∀ id, s.registry.member? id = none ∧ s.registry.isLocal id = false
  /-- No callback begins once close has returned. -/
  silent : ∀ newer time older, s.history = newer ++ (time, .closeReturned true) :: older →
    ∀ x ∈ newer, ∀ n members, x.2 ≠ .notified n members
  /-- A member that was taken up is given back after its answer, by the time that both calls have returned. An unregistration
  that the application itself had under way then may have asked earlier. -/
  unregistered : ∀ k m t moves u, s.Admits t k m → (∀ w ∈ s.writings, w.inFlight = true → w.write ≠ .unregister m.id) →
    t.run moves = some u → (∃ time result, (time, .wrote k result) ∈ u.history) →
    (∃ time, (time, .closeReturned true) ∈ u.history) → ∃ newer, u.history = newer ++ t.history ∧ ∃ x ∈ newer, x.2.Asks m.id
  /-- If close had begun before the answer, the registration returns that the client is closed, and nothing else. -/
  overtaken : ∀ k m t moves u, s.Admits t k m → s.closing = true → t.run moves = some u →
    (∀ time result, (time, .wrote k result) ∈ u.history → result = .error .closed) ∧ u.CanReturnClosed k
  /-- If the registration had returned Ok before close begins, it is close that gives the member back, provided that the
  application has not taken it away since and that no write adding or taking it away is under way. -/
  handed : ∀ k m newer time older t moves u, s.closing = false → s.history = newer ++ (time, .wrote k (.ok ())) :: older →
    (∃ w ∈ s.writings, w.id = k ∧ w.write = .register m) →
    (∀ w ∈ s.writings, w.write = .unregister m.id → ∀ time, (time, .wrote w.id (.ok ())) ∉ newer) →
    (∀ w ∈ s.writings, w.inFlight = true → w.write.moves m.id = false) →
    s.step .close = some t → t.run moves = some u → (∃ time, (time, .closeReturned true) ∈ u.history) →
    ∃ newer, u.history = newer ++ t.history ∧ ∃ x ∈ newer, x.2.CloserAsks m.id

/-- The answer finds a registration that waits for it, and changes nothing but the call. -/
theorem accepted_of_admits (hsound : s.errands.Sound) (h : s.Admits t k m) :
    ∃ w call, w.id = k ∧ w.write = .register m ∧ t.errands.Accepted w call ∧ t.writings = s.writings ∧ t.closing = s.closing := by
  obtain ⟨call, x, failure, hx, hcaller, hrequest, hfailure, hstep⟩ := h
  obtain ⟨y, a, hy, -, ha, hview⟩ := step_answer_errands hstep
  obtain rfl := Option.some.inj (hx.symm.trans hy)
  obtain ⟨w, hw, hid, hawaits⟩ := hsound.accounts.owed call x k hx hcaller
  rw [hrequest] at hawaits
  have hwrite : w.progress = .sending call ∧ w.write = .register m := by
    cases hp : w.progress with
    | sending c =>
      obtain ⟨rfl, hw⟩ := Prod.mk.inj (Option.some.inj ((Errands.Accounts.awaits_sending hp).symm.trans hawaits))
      refine ⟨rfl, ?_⟩
      cases hwrite : w.write with
      | register n =>
        rw [hwrite] at hw
        rw [Request.register.inj hw]
      | updateMetadata member delta =>
        rw [hwrite] at hw
        exact nomatch hw
      | unregister member =>
        rw [hwrite] at hw
        exact nomatch hw
    | undoing c => exact nomatch (Errands.Accounts.awaits_undoing hp).symm.trans hawaits
    | done result => exact absurd hp (Errands.Accounts.not_done hawaits result)
  have hcalls : t.errands.calls call = some { x with answer := some a } := by
    rw [hview]
    exact Errands.calls_give.mpr ⟨x, hx, (if_pos (hsound.accounts.known call x hx).1).symm⟩
  refine ⟨w, call, hid, hwrite.2, ⟨?_, hwrite.1, _, a, hcalls, rfl, ?_⟩, congrArg Errands.writings hview,
    congrArg Errands.closing hview⟩
  · rw [hview]
    exact hw
  · rintro code reason rfl
    exact hfailure code reason (ha _ rfl)

theorem finished_of_returned (hsound : s.errands.Sound) (h : ∃ time, (time, .closeReturned true) ∈ s.history) :
    s.errands.closer = .finished :=
  hsound.stages.returned ((mem_log rfl).mpr h)

/-- The debt that comes with the answer is paid by the time both have returned. -/
theorem asks_of_admits (hsound : s.errands.Sound) (h : s.Admits t k m)
    (hwanted : ∀ w ∈ s.writings, w.inFlight = true → w.write ≠ .unregister m.id) (hrun : t.run moves = some u)
    (hwrote : ∃ time result, (time, .wrote k result) ∈ u.history)
    (hreturned : ∃ time, (time, .closeReturned true) ∈ u.history) :
    ∃ newer, u.history = newer ++ t.history ∧ ∃ x ∈ newer, x.2.Asks m.id := by
  obtain ⟨w, call, rfl, hm, haccepted, hwritings, -⟩ := accepted_of_admits hsound h
  obtain ⟨_, _, _, _, _, _, _, hstep⟩ := h
  have hsoundt := hsound.mayStep (step_errands hstep)
  have hsoundu := sound_of_run hsoundt hrun
  have howing : t.errands.Owing w call m := ⟨fun x hx => hwanted x (hwritings ▸ hx), .inl haccepted⟩
  refine history_of_notes ?_ hrun
  obtain hasks | howing := notes_or_of_run (P := fun d => d.Owing w call m) (fun d d' hd ho hmove => ho.step hd hm hmove)
    hsoundt howing hrun
  · exact hasks
  · obtain haccepted | ⟨-, hpast⟩ := howing.ours
    · obtain ⟨time, result, hwrote⟩ := hwrote
      obtain ⟨x, hx, hid, hp⟩ := hsoundu.accounts.returned w.id result ((mem_log rfl).mpr ⟨time, hwrote⟩)
      obtain rfl := hsoundu.accounts.same_write hx haccepted.mem hid
      exact nomatch hp.symm.trans haccepted.sending
    · rw [finished_of_returned hsoundu hreturned] at hpast
      exact nomatch hpast

theorem closed_of_admits (hsound : s.errands.Sound) (h : s.Admits t k m) (hc : s.closing = true)
    (hrun : t.run moves = some u) :
    (∀ time result, (time, .wrote k result) ∈ u.history → result = .error .closed) ∧ u.CanReturnClosed k := by
  obtain ⟨w, call, rfl, hm, haccepted, -, hclosing⟩ := accepted_of_admits hsound h
  obtain ⟨_, _, _, _, _, _, _, hstep⟩ := h
  have hsoundt := hsound.mayStep (step_errands hstep)
  have hsoundu := sound_of_run hsoundt hrun
  have hovertaken : u.errands.Overtaken w call :=
    kept_of_run (P := fun d => d.Overtaken w call) (fun d d' hd ho hmove => ho.step hd hm hmove) hsoundt
      ⟨hclosing.trans hc, .inl haccepted⟩ hrun
  exact ⟨fun time result hwrote => hovertaken.result hsoundu ((mem_log rfl).mpr ⟨time, hwrote⟩),
    canReturnClosed_of_overtaken hsoundu hovertaken hm⟩

/-- What is local when close begins, with no write about it under way, is for close to give back. -/
theorem closer_asks_of_local {id : String} (hsound : s.errands.Sound) (hopen : s.closing = false)
    (hlocal : s.registry.isLocal id = true) (hsettled : ∀ w ∈ s.writings, w.inFlight = true → w.write.moves id = false)
    (hstep : s.step .close = some t) (hrun : t.run moves = some u)
    (hreturned : ∃ time, (time, .closeReturned true) ∈ u.history) :
    ∃ newer, u.history = newer ++ t.history ∧ ∃ x ∈ newer, x.2.CloserAsks id := by
  have hsoundt := hsound.mayStep (step_errands hstep)
  have hclose : t = { s with closing := true, cancelled := true, closer := .draining } := by
    have hclose : s.startClose = t := Option.some.inj hstep
    rw [← hclose, startClose, if_neg (by rw [hopen]; exact nofun)]
  have hleaving : t.errands.Leaving id := by
    rw [hclose]
    exact ⟨rfl, rfl, hlocal, hsettled⟩
  refine history_of_notes ?_ hrun
  obtain hasks | hleaving := notes_or_of_run (P := fun d => d.Leaving id) (fun d d' hd hl hmove => hl.step hd hmove) hsoundt
    hleaving hrun
  · exact hasks
  · have hfinished := finished_of_returned (sound_of_run hsoundt hrun) hreturned
    exact nomatch hfinished.symm.trans hleaving.draining

/-- However a session got where it is, no registration outlives its shutdown. -/
theorem registration_never_leaks {settings : Settings} {connectivity : Connectivity} {now : Nat}
    (hrun : (start settings connectivity now).run moves = some s) : Unleaked s := by
  have hsound := sound_errands hrun
  refine { empty := ?empty, silent := ?silent, unregistered := ?unregistered, overtaken := ?overtaken, handed := ?handed }
  case empty =>
    intro time hreturned id
    have hclosed := hsound.stages.closed.mpr (finished_of_returned hsound ⟨time, hreturned⟩)
    exact hsound.stages.stored.empty_of_closed hclosed id
  case silent =>
    rintro newer time older hhistory ⟨instant, e⟩ hx n members rfl
    refine hsound.stages.silent _ _ (log_of_history rfl hhistory) n members ?_
    exact List.mem_filter.mpr ⟨List.mem_map_of_mem hx, rfl⟩
  case unregistered =>
    intro k m t moves u hadmits hwanted hlater hwrote hreturned
    exact asks_of_admits hsound hadmits hwanted hlater hwrote hreturned
  case overtaken =>
    intro k m t moves u hadmits hc hlater
    exact closed_of_admits hsound hadmits hc hlater
  case handed =>
    intro k m newer time older t moves u hopen hhistory ⟨w, hw, hid, hm⟩ hkept hsettled hstep hlater hreturned
    refine closer_asks_of_local hsound hopen ?_ hsettled hstep hlater hreturned
    refine kept_errands hrun hopen _ _ k (log_of_history rfl hhistory) w hw hid m hm fun x hx hgone hmem => ?_
    obtain ⟨⟨instant, _⟩, hx', rfl⟩ := List.mem_map.mp (List.mem_filter.mp hmem).1
    exact hkept x hx hgone instant hx'

/-- One registration has returned, another is under way. -/
def oneOfTwo : List Move :=
  [.watchStart, .write (.register (Member.new "a" "web")), .answer 1 none, .proceed 0, .write (.register (Member.new "b" "web"))]

/-- The tasks stop, and close takes its list of members to unregister. -/
def listTaken : List Move := [.stopRunner 1, .watchStop, .drained]

/-- The rest of the shutdown, and of the other registration. -/
def bothReturn : List Move :=
  [.proceed 1, .answer 3 none, .unregistered, .answer 5 none, .released, .answer 4 none, .proceed 1]

/-- The second registration has its answer when the list is taken, and returns after close did. -/
theorem registration_answered_late :
    ∃ s t d v u newer newer', (start {} .ready 0).run oneOfTwo = some s ∧ s.step .close = some t ∧ t.run listTaken = some d ∧
      d.step (.answer 2 (some (.unavailable "down"))) = some v ∧ v.run bothReturn = some u ∧
      u.history = newer ++ t.history ∧ (∃ x ∈ newer, x.2.CloserAsks "a") ∧
      u.history = newer' ++ v.history ∧ (∃ x ∈ newer', x.2.Asks "b") ∧
      (∀ time result, (time, .wrote 1 result) ∈ u.history → result = .error .closed) ∧ Unleaked u := by
  obtain ⟨s, t, d, v, u, hs, ht, hd, hv, hu, hdrun, hurun, hlater, hopen, hhistory, hwritings, hclosing, hcall, hdwritings,
      hwrote, hreturned⟩ : ∃ s t d v u, (start {} .ready 0).run oneOfTwo = some s ∧ s.step .close = some t ∧
      t.run listTaken = some d ∧ d.step (.answer 2 (some (.unavailable "down"))) = some v ∧ v.run bothReturn = some u ∧
      (start {} .ready 0).run (oneOfTwo ++ .close :: listTaken) = some d ∧
      (start {} .ready 0).run (oneOfTwo ++ .close :: listTaken ++ .answer 2 (some (.unavailable "down")) :: bothReturn) = some u ∧
      t.run (listTaken ++ .answer 2 (some (.unavailable "down")) :: bothReturn) = some u ∧ s.closing = false ∧
      s.history = [(0, .called 2 (.write 1) (.register (Member.new "b" "web")))] ++ (0, .wrote 0 (.ok ())) :: s.history.drop 2 ∧
      s.writings = [⟨0, .register (Member.new "a" "web"), .done (.ok ())⟩, ⟨1, .register (Member.new "b" "web"), .sending 2⟩] ∧
      d.closing = true ∧ d.call? 2 = some { id := 2, caller := .write 1, request := .register (Member.new "b" "web") } ∧
      d.writings = s.writings ∧ u.history[0]? = some (0, .wrote 1 (.error .closed)) ∧
      u.history[2]? = some (0, .closeReturned true) :=
    ⟨_, _, _, _, _, rfl, rfl, rfl, rfl, rfl, rfl, rfl, rfl, rfl, rfl, rfl, rfl, rfl, rfl, rfl, rfl⟩
  have hreturned := List.mem_of_getElem? hreturned
  have hwrote := List.mem_of_getElem? hwrote
  have hadmits : d.Admits v 1 (Member.new "b" "web") :=
    ⟨2, _, some (.unavailable "down"), hcall, rfl, rfl, by simp, hv⟩
  obtain ⟨newer, hnewer, hcloser⟩ := (registration_never_leaks hs).handed 0 (Member.new "a" "web") _ 0 _ t _ u hopen hhistory
    (by simp [hwritings]) (by simp [hwritings]) (by simp [hwritings, Writing.inFlight, Write.moves, Member.new]) ht hlater
    ⟨0, hreturned⟩
  obtain ⟨newer', hnewer', hasks⟩ := (registration_never_leaks hdrun).unregistered 1 (Member.new "b" "web") v _ u hadmits
    (by simp [hdwritings, hwritings]) hu ⟨0, _, hwrote⟩ ⟨0, hreturned⟩
  have hclosed := ((registration_never_leaks hdrun).overtaken 1 (Member.new "b" "web") v _ u hadmits hclosing hu).1
  exact ⟨s, t, d, v, u, newer, newer', hs, ht, hd, hv, hu, hnewer, hcloser, hnewer', hasks, hclosed,
    registration_never_leaks hurun⟩

end Roster.Session
