import Roster.Proofs.Session.Closing
import Roster.Proofs.Session.Errands.Record
import Roster.Proofs.Session.Outage

/-! Removals that meet an epoch. An epoch registers the members again that were local when it began, and the transport may answer
these calls after an unregister that the application asked for meanwhile. -/
namespace Roster.Session

/-- The write registers the member. -/
def Write.adds (id : String) : Write → Bool
  | .register m => m.id = id
  | _ => false

/-- A registration of the member by the application is under way. -/
def registering (s : Session) (id : String) : Bool := s.writings.any fun w => w.inFlight && w.write.adds id

namespace Errands

variable {d d' : Errands} {id : String} {k : Nat}

def Quiet (d : Errands) (id : String) : Prop := ∀ w ∈ d.writings, w.inFlight = true → w.write.adds id = false

/-- A member becomes local by a registration that was under way. -/
theorem local_before_step (hquiet : d.Quiet id) (hstep : Step d d') (hl : d'.registry.isLocal id = true) :
    d.registry.isLocal id = true := by
  have hother {w : Writing} {m : Member} {call : Nat} (h : d.Accepted w call) (hm : w.write = .register m) : m.id ≠ id := by
    intro hid
    have hadds := hquiet w h.mem h.inFlight
    rw [hm] at hadds
    exact of_decide_eq_false hadds hid
  have hregister {m : Member} (hid : m.id ≠ id) (hl : (d.registry.registerLocal m).registry.isLocal id = true) :
      d.registry.isLocal id = true := by
    rw [Registry.isLocal_registerLocal, decide_eq_false hid, Bool.and_false, Bool.or_false] at hl
    exact hl
  have hunregister {r : Registry} {member : String} (hl : (r.unregisterLocal member).registry.isLocal id = true) :
      r.isLocal id = true := by
    rw [Registry.isLocal_unregisterLocal] at hl
    exact (Bool.and_eq_true_iff.mp hl).1
  cases hstep with
  | perform op hop => exact (isLocal_foreign hop d.registry id).symm.trans hl
  | turn e gone held requests _ _ =>
    exact (congrArg (·.isLocal id) (registry_beginAll (d.settle gone) (.epoch e) requests)).symm.trans hl
  | register w m call hm haccepted _ => exact hregister (hother haccepted hm) hl
  | undo w m call hm haccepted _ => exact hregister (hother haccepted hm) (hunregister hl)
  | update w member delta call result _ _ => exact (Registry.isLocal_updateLocal d.registry member delta id).symm.trans hl
  | unregister w member call _ _ => exact hunregister hl
  | drain deadline _ => exact (congrArg (·.isLocal id) (registry_beginAll d .closer _)).symm.trans hl
  | finish call _ => exact nomatch (Registry.isLocal_close d.registry id).symm.trans hl
  | _ => exact hl

/-- The write takes the member away, and has done so once it has returned Ok. -/
structure Removing (d : Errands) (k : Nat) (id : String) : Prop where
  ours : ∃ w ∈ d.writings, w.id = k ∧ w.write = .unregister id
  gone : .wrote k (.ok ()) ∈ d.log → d.registry.isLocal id = false

theorem Removing.step (h : d.Removing k id) (hquiet : d.Quiet id) (hsound : d.Sound) (hstep : Step d d') : d'.Removing k id := by
  obtain ⟨w, hw, rfl, hremoves⟩ := h.ours
  constructor
  case ours =>
    obtain ⟨u, hu, hid, hwrite⟩ := write_of_step hsound.accounts hw hstep
    exact ⟨u, hu, hid, hwrite.trans hremoves⟩
  case gone =>
    intro hreturned
    obtain ⟨events, hlog⟩ := log_of_step hstep
    rw [hlog] at hreturned
    obtain hnow | hbefore := List.mem_append.mp hreturned
    · obtain ⟨u, hu, hid, -, hgone⟩ := local_of_ok hsound hstep hlog hnow
      obtain rfl := hsound.accounts.same_write hu hw hid
      exact hgone id hremoves
    · rw [← Bool.not_eq_true]
      exact fun hl => nomatch (h.gone hbefore).symm.trans (local_before_step hquiet hstep hl)

theorem removing_of_sending (hsound : d.Sound) {w : Writing} (hw : w ∈ d.writings) (hremoves : w.write = .unregister id)
    {call : Nat} (hsending : w.progress = .sending call) : d.Removing w.id id := by
  refine ⟨⟨w, hw, rfl, hremoves⟩, fun hreturned => ?_⟩
  obtain ⟨u, hu, hid, hdone⟩ := hsound.accounts.returned w.id (.ok ()) hreturned
  obtain rfl := hsound.accounts.same_write hu hw hid
  exact nomatch hdone.symm.trans hsending

/-- While no registration by the application is under way, only epochs have one in flight. -/
theorem epoch_of_flying (hsound : d.Sound) (hrecorded : d.Recorded) (hquiet : d.Quiet id) {c : Nat} {x : Call} {m : Member}
    (hx : d.calls c = some x) (hr : x.request = .register m) (hid : m.id = id) : ∃ e, x.caller = .epoch e := by
  cases hcaller : x.caller with
  | epoch e => exact ⟨e, rfl⟩
  | write n =>
    obtain ⟨w, hw, -, hawaits⟩ := hsound.accounts.owed c x n hx hcaller
    rw [hr] at hawaits
    cases hp : w.progress with
    | sending call =>
      have hsame := (Accounts.awaits_sending hp).symm.trans hawaits
      have hadds := hquiet w hw (by rw [Writing.inFlight, hp])
      cases hwrite : w.write with
      | register n =>
        rw [hwrite] at hsame hadds
        obtain rfl := Request.register.inj (Prod.mk.inj (Option.some.inj hsame)).2
        exact absurd hid (of_decide_eq_false hadds)
      | _ =>
        rw [hwrite] at hsame
        cases hsame
    | undoing call => cases (Accounts.awaits_undoing hp).symm.trans hawaits
    | done result => exact absurd hp (Accounts.not_done hawaits result)
  | closer =>
    have hcalled := hrecorded.flying c x hx
    rw [hcaller, hr] at hcalled
    exact absurd hcalled (hrecorded.shutdown c m)

end Errands

variable {s t u v x : Session} {moves : List Move} {id : String} {k call : Nat} {settings : Settings} {connectivity : Connectivity}
  {now : Nat}

theorem quiet_of_not_registering (h : s.registering id = false) : s.errands.Quiet id := by
  intro w hw hf
  rw [← Bool.not_eq_true]
  intro hadds
  have hany : s.registering id = true := List.any_eq_true.mpr ⟨w, hw, by rw [hf, hadds]; rfl⟩
  exact nomatch h.symm.trans hany

/-! The sessions a run passes through -/

/-- What is noted in a run is noted by a move from some session on the way. -/
theorem exists_visit_of_noted (hrun : t.run moves = some v) {newer : List (Nat × Event)} (hnewer : v.history = newer ++ t.history)
    {y : Nat × Event} (hy : y ∈ newer) :
    ∃ before x m x' noted, t.run before = some x ∧ x ∈ t.visits moves ∧ x.step m = some x' ∧ x'.history = noted ++ x.history ∧
      y ∈ noted := by
  induction moves generalizing t newer with
  | nil =>
    obtain rfl := Option.some.inj hrun
    rw [List.self_eq_append_left.mp hnewer] at hy
    exact nomatch hy
  | cons m moves ih =>
    rw [run_cons] at hrun
    obtain ⟨t', hstep, hrest⟩ := Option.bind_eq_some_iff.mp hrun
    obtain ⟨noted, hnoted⟩ := history_step hstep
    obtain ⟨later, hlater⟩ := history_run hrest
    have hsplit : newer ++ t.history = (later ++ noted) ++ t.history := by
      rw [← hnewer, hlater, ← hnoted, List.append_assoc]
    obtain rfl := List.append_cancel_right hsplit
    rw [visits, hstep]
    obtain hy | hy := List.mem_append.mp hy
    · obtain ⟨before, x, n, x', noted', hbefore, hx, hfacts⟩ := ih hrest hlater hy
      refine ⟨m :: before, x, n, x', noted', ?_, List.mem_cons_of_mem t hx, hfacts⟩
      rw [run_cons, hstep]
      exact hbefore
    · exact ⟨[], t, m, t', noted, rfl, List.mem_cons_self, hstep, hnoted.symm, hy⟩

/-! Calls and answers in the history -/

theorem called_same (h : s.errands.Recorded) {c time time' : Nat} {caller caller' : Caller} {r r' : Request}
    (hr : (time, .called c caller r) ∈ s.history) (hr' : (time', .called c caller' r') ∈ s.history) :
    caller = caller' ∧ r = r' :=
  h.same c caller r caller' r' ((mem_log rfl).mpr ⟨time, hr⟩) ((mem_log rfl).mpr ⟨time', hr'⟩)

/-- What is answered was asked before, in one way. -/
theorem requestOf?_of_answered (h : s.errands.Recorded) {newer older : List (Nat × Event)} {time began c : Nat} {a : Answer}
    {caller : Caller} {r : Request} (hs : s.history = newer ++ (time, .answered c a) :: older)
    (hr : (began, .called c caller r) ∈ s.history) : requestOf? older c = some r := by
  have holder {y : Nat × Event} (hy : y ∈ older) : y ∈ s.history :=
    hs ▸ List.mem_append_right newer (List.mem_cons_of_mem _ hy)
  obtain ⟨asker, r', hcalled⟩ := h.begun _ c a _ (log_of_history rfl hs)
  obtain ⟨⟨time', e⟩, hmem, rfl⟩ := List.mem_map.mp (List.mem_filter.mp hcalled).1
  obtain ⟨-, rfl⟩ := called_same h hr (holder hmem)
  exact requestOf?_of_called ⟨time', asker, hmem⟩ fun time'' asker' r'' hmem' => (called_same h hr (holder hmem')).2.symm

/-- The call of a write that is waiting is on record, and no answer to it is. -/
theorem called_of_sending (hsound : s.errands.Sound) (hrecorded : s.errands.Recorded) {w : Writing} (hw : w ∈ s.writings)
    (hsending : w.progress = .sending call) (hpending : s.answered call = false) :
    (∃ time caller, (time, .called call caller w.write.request) ∈ s.history) ∧
      ∀ time a, (time, .answered call a) ∉ s.history := by
  obtain ⟨y, hy, -, hrequest⟩ := hsound.accounts.writing w hw call _ (Errands.Accounts.awaits_sending hsending)
  obtain ⟨began, hasked⟩ := (mem_log rfl).mp (hrecorded.flying call y hy)
  refine ⟨⟨began, y.caller, hrequest ▸ hasked⟩, fun time a hmem => ?_⟩
  have hgiven := (hrecorded.given call y hy a).mp ((mem_log rfl).mpr ⟨time, hmem⟩)
  have hanswered : s.answered call = true := Option.isSome_iff_exists.mpr ⟨_, answered_of_call hy hgiven⟩
  exact nomatch hpending.symm.trans hanswered

/-- An epoch registers members that are local then, and no others. -/
theorem Course.Turn.registers {e : Nat} {m : Move} {c : Course} (h : Course.Turn s e m c) :
    ∃ requests, c.asked = requests ++ (s.course e).asked ∧
      ∀ y ∈ requests, ∀ new, y.2 = .register new → new ∈ s.registry.localMembers := by
  cases h with
  | restore _ =>
    refine ⟨_, rfl, fun y hy new hnew => ?_⟩
    obtain ⟨member, hmember, heq⟩ := List.mem_map.mp (request_of_mem_nextCalls hy)
    obtain rfl := Request.register.inj (heq.trans hnew)
    exact hmember
  | resume calls deadline _ _ => exact ⟨[_], rfl, by simp⟩
  | beat deadline next _ => exact ⟨[_], rfl, by simp⟩
  | _ => exact ⟨[], rfl, nofun⟩

theorem local_of_called (hstored : s.registry.Stored) {m : Move} (hstep : s.step m = some t) {noted : List (Nat × Event)}
    (hnoted : t.history = noted ++ s.history) {time c e : Nat} {new : Member}
    (h : (time, .called c (.epoch e) (.register new)) ∈ noted) : s.registry.isLocal new.id = true := by
  have hturn : Course.Turn s e m (t.course e) := turn_of_step hstep
  obtain ⟨requests, hrequests, hlocal⟩ := hturn.registers
  have hasked : asked (.epoch e) noted ++ asked (.epoch e) s.history = requests ++ asked (.epoch e) s.history := by
    rw [← asked_append, ← hnoted]
    exact hrequests
  have hmem := hlocal _ (List.append_cancel_right hasked ▸ mem_asked h) new rfl
  exact ((hstored.mem_localMembers_iff new).mp hmem).1

/-- The calls noted as answered by a move were in flight. -/
theorem flying_of_noted {m : Move} (hstep : s.step m = some t) {noted : List (Nat × Event)}
    (hnoted : t.history = noted ++ s.history) {time c : Nat} {a : Answer} (h : (time, .answered c a) ∈ noted) :
    ∃ y, s.errands.calls c = some y := by
  have hlog : t.errands.log = (noted.map (·.2)).filter Event.errand ++ s.errands.log := by
    show (t.history.map (·.2)).filter Event.errand = _
    rw [hnoted, List.map_append, List.filter_append]
    rfl
  have hmem : .answered c a ∈ (noted.map (·.2)).filter Event.errand := List.mem_filter.mpr ⟨List.mem_map_of_mem h, rfl⟩
  obtain hsame | hmove := step_errands hstep
  · rw [hsame, List.self_eq_append_left] at hlog
    rw [hlog] at hmem
    exact nomatch hmem
  · exact Errands.flying_of_answered hmove hlog hmem

/-! Removals -/

/-- A registration of the member by an epoch that was answered Ok after every unregister of it that was. -/
structure Late (history : List (Nat × Event)) (id : String) (call : Nat) : Prop where
  asked : ∃ time e m, (time, .called call (.epoch e) (.register m)) ∈ history ∧ m.id = id
  last : ∃ newer time older, history = newer ++ (time, .answered call .done) :: older ∧
    ∀ time' c, (time', .answered c .done) ∈ newer → ∀ began caller, (began, .called c caller (.unregister id)) ∉ history

theorem Late.mem_served (h : Late s.history id call) (hrecorded : s.errands.Recorded) : id ∈ served (exchanges s.history) := by
  obtain ⟨began, e, m, hasked, hid⟩ := h.asked
  obtain ⟨newer, time, older, hs, hlast⟩ := h.last
  refine mem_served_exchanges_iff.mpr ⟨newer, time, call, older, m, hs, requestOf?_of_answered hrecorded hs hasked, hid, ?_⟩
  rintro newest time' c rest rfl hr
  obtain ⟨began', caller, hmem⟩ := called_of_requestOf? hr
  refine hlast time' c (List.mem_append_right newest List.mem_cons_self) began' caller ?_
  rw [hs, List.append_assoc]
  exact List.mem_append_right newest (List.mem_cons_of_mem _ hmem)

/-- What becomes of a member that write `k` of the application takes away by call `call`, in a run on which it registers the member
no more. -/
structure Withdrawn (t : Session) (moves : List Move) (v : Session) (k : Nat) (id : String) : Prop where
  /-- The server holds the member when a registration by an epoch came late, and not otherwise. -/
  held : id ∈ served (exchanges v.history) ↔ ∃ call, Late v.history id call
  /-- Such a registration had begun before unregister returned. -/
  begun : ∀ x ∈ t.visits moves, (∃ time, (time, .wrote k (.ok ())) ∈ x.history) → ∀ call, Late v.history id call →
    ∃ time e m, (time, .called call (.epoch e) (.register m)) ∈ x.history ∧ m.id = id

/-- A registration of the member that is answered on the way is an epoch's. -/
theorem epoch_of_answered (hrun : t.run moves = some v) (hrecorded : v.errands.Recorded)
    (hall : ∀ x ∈ t.visits moves, x.errands.Sound ∧ x.errands.Recorded ∧ x.errands.Quiet id) {newer : List (Nat × Event)}
    (hnewer : v.history = newer ++ t.history) {time began c : Nat} {a : Answer} {caller : Caller} {m : Member}
    (ha : (time, .answered c a) ∈ newer) (hcalled : (began, .called c caller (.register m)) ∈ v.history) (hid : m.id = id) :
    ∃ e, caller = .epoch e := by
  obtain ⟨before, x, n, x', noted, -, hx, hstep, hnoted, hmem⟩ := exists_visit_of_noted hrun hnewer ha
  obtain ⟨hsound, hrecordedx, hquiet⟩ := hall x hx
  obtain ⟨y, hy⟩ := flying_of_noted hstep hnoted hmem
  obtain ⟨-, after, -, hafter, -⟩ := run_of_mem_visits hrun hx
  obtain ⟨time', hflying⟩ := (mem_log rfl).mp (hrecordedx.flying c y hy)
  obtain ⟨later, hlater⟩ := history_run hafter
  obtain ⟨rfl, hr⟩ := called_same hrecorded hcalled (hlater ▸ List.mem_append_right later hflying)
  exact Errands.epoch_of_flying hsound hrecordedx hquiet hy hr.symm hid

/-- Once unregister has returned, no epoch begins to register the member. -/
theorem uncalled_of_returned (hrun : t.run moves = some v)
    (hall : ∀ x ∈ t.visits moves, x.errands.Sound ∧ x.errands.Removing k id) (hx : x ∈ t.visits moves)
    (hreturned : ∃ time, (time, .wrote k (.ok ())) ∈ x.history) {time c e : Nat} {m : Member}
    (hcalled : (time, .called c (.epoch e) (.register m)) ∈ v.history) (hid : m.id = id) :
    (time, .called c (.epoch e) (.register m)) ∈ x.history := by
  obtain ⟨-, after, -, hafter, hvisits⟩ := run_of_mem_visits hrun hx
  obtain ⟨later, hlater⟩ := history_run hafter
  rw [hlater] at hcalled
  refine (List.mem_append.mp hcalled).resolve_left fun hlate => ?_
  obtain ⟨between, y, n, y', noted, hbetween, hy, hstep, hnoted, hmem⟩ := exists_visit_of_noted hafter hlater hlate
  obtain ⟨hsound, hremoving⟩ := hall y (hvisits y hy)
  obtain ⟨newer, hnewer⟩ := history_run hbetween
  obtain ⟨returned, hwrote⟩ := hreturned
  have hgone := hremoving.gone ((mem_log rfl).mpr ⟨returned, hnewer ▸ List.mem_append_right newer hwrote⟩)
  have hlocal := local_of_called hsound.stages.stored hstep hnoted hmem
  rw [hid] at hlocal
  exact nomatch hgone.symm.trans hlocal

/-- What the server holds after an unregister was answered Ok is owed to a registration that was answered after it. -/
theorem registered_after_removal (h : s.errands.Recorded) {began : Nat} {caller : Caller}
    (hasked : (began, .called call caller (.unregister id)) ∈ s.history) {answered : Nat}
    (hok : (answered, .answered call .done) ∈ s.history) (hheld : id ∈ served (exchanges s.history)) :
    ∃ newer time c between oldest registered asker m,
      s.history = newer ++ (time, .answered c .done) :: (between ++ (answered, .answered call .done) :: oldest) ∧
      (registered, .called c asker (.register m)) ∈ s.history ∧ m.id = id ∧
      ∀ time' c', (time', .answered c' .done) ∈ newer → ∀ began caller, (began, .called c' caller (.unregister id)) ∉ s.history := by
  obtain ⟨newer, time, c, older, m, hs, hr, hid, huntaken⟩ := mem_served_exchanges_iff.mp hheld
  have hlast : ∀ time' c', (time', .answered c' .done) ∈ newer →
      ∀ began caller, (began, .called c' caller (.unregister id)) ∉ s.history := by
    intro time' c' hmem began caller hcalled
    obtain ⟨newest, rest, rfl⟩ := List.append_of_mem hmem
    rw [List.append_assoc] at hs
    exact huntaken newest time' c' rest rfl (requestOf?_of_answered h hs hcalled)
  obtain ⟨registered, asker, hcalled⟩ := called_of_requestOf? hr
  have hregistered : (registered, .called c asker (.register m)) ∈ s.history :=
    hs ▸ List.mem_append_right newer (List.mem_cons_of_mem _ hcalled)
  have holder : (answered, .answered call .done) ∈ older := by
    rw [hs] at hok
    obtain hnew | hok := List.mem_append.mp hok
    · exact absurd hasked (hlast answered call hnew began caller)
    · obtain heq | hok := List.mem_cons.mp hok
      · obtain ⟨rfl, -⟩ := Event.answered.inj (Prod.mk.inj heq).2
        exact nomatch (called_same h hasked hregistered).2
      · exact hok
  obtain ⟨between, oldest, rfl⟩ := List.append_of_mem holder
  exact ⟨newer, time, c, between, oldest, registered, asker, m, hs, hregistered, hid, hlast⟩

/-- However the transport orders its answers, what keeps a member at the server that the application took away is a registration by
an epoch: one that began while the member was still local and was answered after the unregister. -/
theorem held_after_removal_iff_late {before : List Move} (hbefore : (start settings connectivity now).run before = some t)
    {w : Writing} (hw : w ∈ t.writings) (hremoves : w.write = .unregister id) (hsending : w.progress = .sending call)
    (hpending : t.answered call = false) (hrun : t.run moves = some v) (hquiet : ∀ x ∈ t.visits moves, x.registering id = false)
    (hok : ∃ time, (time, .answered call .done) ∈ v.history) : Withdrawn t moves v w.id id := by
  have hsound := sound_errands hbefore
  have hrecorded := recorded_of_run hbefore
  have hremoving := Errands.removing_of_sending hsound hw hremoves hsending
  have hall : ∀ x ∈ t.visits moves, x.errands.Sound ∧ x.errands.Recorded ∧ x.errands.Removing w.id id := by
    refine forall_visits ⟨hsound, hrecorded, hremoving⟩ fun x hx m x' ⟨hs, hr, hm⟩ hstep => ?_
    obtain hsame | hmove := step_errands hstep
    · exact hsame ▸ ⟨hs, hr, hm⟩
    · exact ⟨hs.step hmove, hr.step hs.accounts.toFiled hmove, hm.step (quiet_of_not_registering (hquiet x hx)) hs hmove⟩
  have hrecordedv : v.errands.Recorded := (hall v (mem_visits hrun)).2.1
  obtain ⟨added, hadded⟩ := history_run hrun
  obtain ⟨⟨began, caller, hasked⟩, hunanswered⟩ := called_of_sending hsound hrecorded hw hsending hpending
  rw [hremoves] at hasked
  refine ⟨⟨fun hheld => ?late, fun ⟨c, hlate⟩ => hlate.mem_served hrecordedv⟩, ?begun⟩
  case late =>
    obtain ⟨answered, hok⟩ := hok
    obtain ⟨newer, time, c, between, oldest, registered, asker, m, hv, hregistered, hid, hlast⟩ :=
      registered_after_removal hrecordedv (hadded ▸ List.mem_append_right added hasked) hok hheld
    have hsplit : (newer ++ (time, .answered c .done) :: between) ++ (answered, .answered call .done) :: oldest =
        added ++ t.history := by
      rw [← hadded, hv, List.append_assoc]
      rfl
    have hin : (time, .answered c .done) ∈ added :=
      subset_of_split hsplit (hunanswered answered _) (List.mem_append_right newer List.mem_cons_self)
    obtain ⟨e, rfl⟩ := epoch_of_answered hrun hrecordedv
      (fun x hx => ⟨(hall x hx).1, (hall x hx).2.1, quiet_of_not_registering (hquiet x hx)⟩) hadded hin hregistered hid
    exact ⟨c, ⟨registered, e, m, hregistered, hid⟩, newer, time, _, hv, hlast⟩
  case begun =>
    intro x hx hreturned c hlate
    obtain ⟨began, e, m, hcalled, hid⟩ := hlate.asked
    refine ⟨began, e, m, ?_, hid⟩
    exact uncalled_of_returned hrun (fun x hx => ⟨(hall x hx).1, (hall x hx).2.2⟩) hx hreturned hcalled hid

/-- A member is registered and then lost sight of by the server. The next epoch has just asked to register it again when the
application asks to unregister it. -/
def bothAsked : List Move :=
  [.watchStart, .restore 1, .openStream 1, .write (.register (Member.new "a" "web")), .answer 2 none, .proceed 0,
    .report .disconnected, .watchChange, .stopRunner 1, .report .ready, .watchChange, .restore 2, .write (.unregister "a")]

/-- The registration is answered first. -/
def inOrder : List Move := [.answer 3 none, .answer 4 none, .proceed 1]

theorem removal_answered_last :
    ∃ t v, (start {} .ready 0).run bothAsked = some t ∧ t.run inOrder = some v ∧ Withdrawn t inOrder v 1 "a" ∧
      "a" ∉ served (exchanges v.history) := by
  obtain ⟨t, v, ht, hv, hwritings, hpending, hquiet, hanswered, hheld⟩ : ∃ t v, (start {} .ready 0).run bothAsked = some t ∧
      t.run inOrder = some v ∧
      t.writings = [⟨0, .register (Member.new "a" "web"), .done (.ok ())⟩, ⟨1, .unregister "a", .sending 4⟩] ∧
      t.answered 4 = false ∧ ((t.visits inOrder).all fun x => !x.registering "a") = true ∧
      v.history[2]? = some (0, .answered 4 .done) ∧ (served (exchanges v.history))["a"]? = none :=
    ⟨_, _, rfl, rfl, rfl, rfl, rfl, rfl, rfl⟩
  have hw : ⟨1, .unregister "a", .sending 4⟩ ∈ t.writings := hwritings ▸ List.mem_cons_of_mem _ List.mem_cons_self
  have hwithdrawn : Withdrawn t inOrder v 1 "a" :=
    held_after_removal_iff_late ht hw rfl rfl hpending hv (fun x hx => by simpa using List.all_eq_true.mp hquiet x hx)
      ⟨0, List.mem_of_getElem? hanswered⟩
  refine ⟨t, v, ht, hv, hwithdrawn, fun hmem => ?_⟩
  rw [Std.ExtTreeMap.mem_iff_isSome_getElem?, hheld] at hmem
  exact nomatch hmem

/-- Both calls are answered Ok, the registration last: the server ends up with a member that nobody registers any more. -/
theorem registration_answered_last :
    ∃ s, (start {} .ready 0).run (bothAsked ++ [.answer 4 none, .proceed 1, .answer 3 none]) = some s ∧
      s.writings = [⟨0, .register (Member.new "a" "web"), .done (.ok ())⟩, ⟨1, .unregister "a", .done (.ok ())⟩] ∧
      (0, .called 3 (.epoch 2) (.register (Member.new "a" "web"))) ∈ s.history ∧ (0, .answered 3 .done) ∈ s.history ∧
      (0, .called 4 (.write 1) (.unregister "a")) ∈ s.history ∧ (0, .answered 4 .done) ∈ s.history ∧
      s.registry.localMembers = [] ∧ (served (exchanges s.history))["a"]? = some (Member.new "a" "web") := by
  obtain ⟨s, hrun, hwritings, hregistering, hregistered, hremoving, hremoved, hlocal, hheld⟩ : ∃ s,
      (start {} .ready 0).run (bothAsked ++ [.answer 4 none, .proceed 1, .answer 3 none]) = some s ∧
      s.writings = [⟨0, .register (Member.new "a" "web"), .done (.ok ())⟩, ⟨1, .unregister "a", .done (.ok ())⟩] ∧
      s.history[5]? = some (0, .called 3 (.epoch 2) (.register (Member.new "a" "web"))) ∧
      s.history[0]? = some (0, .answered 3 .done) ∧ s.history[4]? = some (0, .called 4 (.write 1) (.unregister "a")) ∧
      s.history[3]? = some (0, .answered 4 .done) ∧ s.registry.localMembers = [] ∧
      (served (exchanges s.history))["a"]? = some (Member.new "a" "web") :=
    ⟨_, rfl, rfl, rfl, rfl, rfl, rfl, rfl, rfl⟩
  exact ⟨s, hrun, hwritings, List.mem_of_getElem? hregistering, List.mem_of_getElem? hregistered,
    List.mem_of_getElem? hremoving, List.mem_of_getElem? hremoved, hlocal, hheld⟩

end Roster.Session
