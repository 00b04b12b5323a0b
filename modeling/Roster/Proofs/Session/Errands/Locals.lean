import Roster.Proofs.Session.Ledger
import Roster.Proofs.Session.Shutdown

/-! What one step does to the client's own members: which of them stay local, which writes are under way, and who asks the
server to take a member away. -/
namespace Roster.Session

/-- The write adds the member or takes it away. -/
def Write.moves (id : String) : Write → Bool
  | .register m => m.id = id
  | .unregister member => member = id
  | .updateMetadata _ _ => false

/-- The server is asked to take the member away. -/
def Event.Asks (id : String) (e : Event) : Prop := ∃ call caller, e = .called call caller (.unregister id)

def Event.CloserAsks (id : String) (e : Event) : Prop := ∃ call, e = .called call .closer (.unregister id)

namespace Errands

variable {d d' : Errands} {w : Writing} {call k : Nat} {m : Member} {id : String} {E : Event → Prop}

/-! The record -/

/-- An event of the kind was noted from one to the other. -/
def Notes (d d' : Errands) (E : Event → Prop) : Prop := ∃ events, d'.log = events ++ d.log ∧ ∃ e ∈ events, E e

theorem Notes.mono {F : Event → Prop} (h : Notes d d' E) (hle : ∀ e, E e → F e) : Notes d d' F := by
  obtain ⟨events, hlog, e, hmem, he⟩ := h
  exact ⟨events, hlog, e, hmem, hle e he⟩

theorem notes_begin {e : Errands} (hlog : ∃ events, e.log = events ++ d.log) {caller : Caller} {request : Request}
    (hE : E (.called (e.lastCall + 1) caller request)) : Notes d (e.begin caller request) E := by
  obtain ⟨events, hlog⟩ := hlog
  exact ⟨_ :: events, congrArg (_ :: ·) hlog, _, List.mem_cons_self, hE⟩

theorem log_of_step (hstep : Step d d') : ∃ events, d'.log = events ++ d.log := by
  cases hstep with
  | perform op _ => exact ⟨_, rfl⟩
  | turn e gone held requests _ _ =>
    obtain ⟨events, hlog, -⟩ := log_beginAll (d.settle gone) (.epoch e) requests
    exact ⟨events, hlog⟩
  | answer c k a _ _ => exact ⟨[_], rfl⟩
  | refuse v f => exact ⟨[_], rfl⟩
  | write v _ => exact ⟨[_], rfl⟩
  | reject u c code reason k _ _ _ _ => exact ⟨[_], rfl⟩
  | register u m c _ _ _ => exact ⟨_ :: _, rfl⟩
  | undo u m c _ _ _ => exact ⟨_ :: (_ ++ _), congrArg _ (List.append_assoc _ _ _).symm⟩
  | update u member delta c result _ _ => exact ⟨_ :: _, rfl⟩
  | unregister u member c _ _ => exact ⟨_ :: _, rfl⟩
  | undone u c _ _ => exact ⟨[_], rfl⟩
  | shut _ => exact ⟨[], rfl⟩
  | skip _ _ => exact ⟨[_], rfl⟩
  | drain deadline _ =>
    obtain ⟨events, hlog, -⟩ := log_beginAll d .closer (d.registry.localMembers.map fun m => .unregister m.id)
    exact ⟨events, hlog⟩
  | unwind calls deadline _ => exact ⟨[_], rfl⟩
  | finish c _ => exact ⟨[_], rfl⟩

/-! The shutdown -/

theorem writings_beginAll (d : Errands) (caller : Caller) (requests : List Request) :
    (d.beginAll caller requests).writings = d.writings := by rw [beginAll_eq]

theorem registry_beginAll (d : Errands) (caller : Caller) (requests : List Request) :
    (d.beginAll caller requests).registry = d.registry := by rw [beginAll_eq]

theorem closer_beginAll (d : Errands) (caller : Caller) (requests : List Request) :
    (d.beginAll caller requests).closer = d.closer := by rw [beginAll_eq]

theorem closing_beginAll (d : Errands) (caller : Caller) (requests : List Request) :
    (d.beginAll caller requests).closing = d.closing := by rw [beginAll_eq]

theorem closing_of_step (hstep : Step d d') (hc : d.closing = true) : d'.closing = true := by
  cases hstep with
  | turn id gone held requests _ _ => exact (closing_beginAll (d.settle gone) (.epoch id) requests).trans hc
  | shut _ => rfl
  | drain deadline _ => exact (closing_beginAll d .closer _).trans hc
  | _ => exact hc

/-- The shutdown begins, stays where it is, or has asked for whatever was still local. -/
theorem closer_of_step (hstep : Step d d') :
    d'.closer = d.closer ∨ (d.closing = false ∧ d'.closer = .draining) ∨
      (∀ m ∈ d.registry.localMembers, Notes d d' (Event.CloserAsks m.id)) ∨ d.closer.past = true := by
  cases hstep with
  | turn id gone held requests _ _ => exact .inl (closer_beginAll (d.settle gone) (.epoch id) requests)
  | shut hopen => exact .inr (.inl ⟨hopen, rfl⟩)
  | skip _ hnone => exact .inr (.inr (.inl (hnone ▸ nofun)))
  | drain deadline _ =>
    obtain ⟨events, hlog, hmade, -⟩ := log_beginAll d .closer (d.registry.localMembers.map fun m => .unregister m.id)
    refine .inr (.inr (.inl fun m hm => ?_))
    obtain ⟨c, hc⟩ := hmade (.unregister m.id) (List.mem_map_of_mem hm)
    exact ⟨events, hlog, _, hc, c, rfl⟩
  | unwind calls deadline hc => exact .inr (.inr (.inr (by rw [hc]; rfl)))
  | finish call hc => exact .inr (.inr (.inr (by rw [hc]; rfl)))
  | _ => exact .inl rfl

/-! Local members and writes under way -/

/-- A registration that close has overtaken gives the member back at once. -/
theorem notes_undo (d : Errands) (w : Writing) (m : Member) (call : Nat) :
    Notes d (((((d.settle [call]).perform (.registerLocal m)).perform (.unregisterLocal m.id)).begin (.write w.id)
      (.unregister m.id)).setProgress w.id (.undoing (d.lastCall + 1))) (Event.Asks m.id) :=
  notes_begin (e := ((d.settle [call]).perform (.registerLocal m)).perform (.unregisterLocal m.id))
    ⟨_ ++ _, (List.append_assoc _ _ _).symm⟩ ⟨_, _, rfl⟩

theorem isLocal_foreign {op : Registry.Op} (hop : op.foreign = true) (r : Registry) (id : String) :
    (r.perform op).registry.isLocal id = r.isLocal id := by
  cases op with
  | applyRemote u => exact Registry.isLocal_applyRemote r u id
  | subscribe filter => exact Registry.isLocal_subscribe r filter id
  | unsubscribe n => exact Registry.isLocal_unsubscribe r n id
  | _ => exact nomatch hop

/-- As long as close has not begun, whoever registers is local. -/
theorem Sound.isLocal_registered (h : d.Sound) (hopen : d.closing = false) (m : Member) :
    (d.registry.perform (.registerLocal m)).registry.isLocal m.id = true := by
  have hclosed : d.registry.closed = false := by
    rw [← Bool.not_eq_true, h.stages.closed, h.stages.idle hopen]
    exact nofun
  refine (Registry.isLocal_registerLocal d.registry m m.id).trans ?_
  rw [hclosed]
  simp

theorem Accepted.inFlight (h : d.Accepted w call) : w.inFlight = true := by
  rw [Writing.inFlight, h.sending]

/-- A member stays local unless it is unregistered, its registration is taken back or the shutdown ends. -/
theorem local_of_step (hl : d.registry.isLocal id = true) (hstep : Step d d') :
    d'.registry.isLocal id = true ∨
      (∃ w ∈ d.writings, w.inFlight = true ∧ w.write = .unregister id ∧ Notes d d' (· = .wrote w.id (.ok ()))) ∨
      (d.closing = true ∧ (∃ w ∈ d.writings, w.inFlight = true ∧ w.write.moves id = true) ∧ Notes d d' (Event.Asks id)) ∨
      d.closer.past = true := by
  cases hstep with
  | perform op hop => exact .inl ((isLocal_foreign hop d.registry id).trans hl)
  | turn e gone held requests _ _ =>
    have hsame := registry_beginAll (d.settle gone) (.epoch e) requests
    exact .inl ((congrArg (·.isLocal id) hsame).trans hl)
  | register w m call _ _ _ =>
    refine .inl ((Registry.isLocal_registerLocal d.registry m id).trans ?_)
    rw [hl, Bool.true_or]
  | undo w m call hm haccepted hc =>
    by_cases hid : m.id = id
    · refine .inr (.inr (.inl ⟨hc, ⟨w, haccepted.mem, haccepted.inFlight, ?_⟩, hid ▸ notes_undo d w m call⟩))
      rw [hm]
      exact decide_eq_true hid
    · left
      refine (Registry.isLocal_unregisterLocal _ m.id id).trans ?_
      rw [decide_eq_false hid, Bool.not_false, Bool.and_true]
      refine (Registry.isLocal_registerLocal d.registry m id).trans ?_
      rw [hl, Bool.true_or]
  | update w member delta call result _ _ => exact .inl ((Registry.isLocal_updateLocal d.registry member delta id).trans hl)
  | unregister w member call hm haccepted =>
    by_cases hid : member = id
    · exact .inr (.inl ⟨w, haccepted.mem, haccepted.inFlight, hid ▸ hm, _ :: _, rfl, _, List.mem_cons_self, rfl⟩)
    · refine .inl ((Registry.isLocal_unregisterLocal d.registry member id).trans ?_)
      rw [hl, decide_eq_false hid]
      rfl
  | drain deadline _ =>
    have hsame := registry_beginAll d .closer (d.registry.localMembers.map fun m => .unregister m.id)
    exact .inl ((congrArg (·.isLocal id) hsame).trans hl)
  | finish call hc => exact .inr (.inr (.inr (by rw [hc]; rfl)))
  | _ => exact .inl hl

/-- A write that is under way after a step was so before, or begins with it. -/
theorem under_way_of_step (h : d.Accounts) (hstep : Step d d') (hw : w ∈ d'.writings) (hf : w.inFlight = true) :
    (∃ old ∈ d.writings, old.id = w.id ∧ old.write = w.write ∧ old.inFlight = true) ∨
      (d.closing = false ∧ Notes d d' fun e => ∃ c caller, e = .called c caller w.write.request) := by
  have hreturned {u : Nat} {result : Except Failure Unit} {e : Errands} (he : e.writings = d.writings)
      (hw : w ∈ (e.setProgress u (.done result)).writings) :
      ∃ old ∈ d.writings, old.id = w.id ∧ old.write = w.write ∧ old.inFlight = true := by
    obtain ⟨old, -, -, rfl⟩ | ⟨hw, -⟩ := mem_setProgress.mp hw
    · exact nomatch hf
    · exact ⟨w, he ▸ hw, rfl, rfl, hf⟩
  cases hstep with
  | turn e gone held requests _ _ =>
    have hsame := writings_beginAll (d.settle gone) (.epoch e) requests
    exact .inl ⟨w, hsame ▸ hw, rfl, rfl, hf⟩
  | refuse write f =>
    obtain hw | hw := List.mem_append.mp hw
    · exact .inl ⟨w, hw, rfl, rfl, hf⟩
    · rw [List.mem_singleton.mp hw] at hf
      exact nomatch hf
  | write write hopen =>
    obtain hw | hw := List.mem_append.mp hw
    · exact .inl ⟨w, hw, rfl, rfl, hf⟩
    · rw [List.mem_singleton.mp hw]
      exact .inr ⟨hopen, [_], rfl, _, List.mem_singleton_self _, _, _, rfl⟩
  | reject u call code reason k _ _ _ _ => exact .inl (hreturned rfl hw)
  | register u m call _ _ _ => exact .inl (hreturned rfl hw)
  | undo u m call hm haccepted _ =>
    obtain ⟨old, hold, hid, rfl⟩ | ⟨hw, -⟩ := mem_setProgress.mp hw
    · obtain rfl := h.same_write hold haccepted.mem hid
      exact .inl ⟨old, hold, rfl, rfl, haccepted.inFlight⟩
    · exact .inl ⟨w, hw, rfl, rfl, hf⟩
  | update u member delta call result _ _ => exact .inl (hreturned rfl hw)
  | unregister u member call _ _ => exact .inl (hreturned rfl hw)
  | undone u call _ _ => exact .inl (hreturned rfl hw)
  | drain deadline _ =>
    have hsame := writings_beginAll d .closer (d.registry.localMembers.map fun m => .unregister m.id)
    exact .inl ⟨w, hsame ▸ hw, rfl, rfl, hf⟩
  | _ => exact .inl ⟨w, hw, rfl, rfl, hf⟩

/-! Writes that stay and writes that return -/

/-- A write stays as it is, but for its own step. -/
theorem writing_of_step (h : d.Accounts) (hw : w ∈ d.writings) (hstep : Step d d') :
    w ∈ d'.writings ∨ (∃ c p, w.progress = .sending c ∧ { w with progress := p } ∈ d'.writings) ∨
      (∃ c, w.progress = .undoing c ∧ { w with progress := .done (.error .closed) } ∈ d'.writings) := by
  have hset {u : Writing} {c : Nat} (p : Progress) {e : Errands} (he : e.writings = d.writings) (hu : u ∈ d.writings)
      (hp : u.progress = .sending c) :
      w ∈ (e.setProgress u.id p).writings ∨
        (∃ c p', w.progress = .sending c ∧ { w with progress := p' } ∈ (e.setProgress u.id p).writings) := by
    by_cases hid : w.id = u.id
    · obtain rfl := h.same_write hw hu hid
      exact .inr ⟨c, p, hp, mem_setProgress.mpr (.inl ⟨w, he.symm ▸ hw, rfl, rfl⟩)⟩
    · exact .inl (mem_setProgress.mpr (.inr ⟨he.symm ▸ hw, hid⟩))
  cases hstep with
  | turn e gone held requests _ _ =>
    exact .inl ((writings_beginAll (d.settle gone) (.epoch e) requests).symm ▸ hw)
  | refuse v f => exact .inl (List.mem_append_left _ hw)
  | write v _ => exact .inl (List.mem_append_left _ hw)
  | reject u c code reason k hu hp _ _ => exact (hset _ rfl hu hp).imp_right .inl
  | register u m c _ haccepted _ => exact (hset _ rfl haccepted.mem haccepted.sending).imp_right .inl
  | undo u m c _ haccepted _ => exact (hset _ rfl haccepted.mem haccepted.sending).imp_right .inl
  | update u member delta c result _ haccepted => exact (hset _ rfl haccepted.mem haccepted.sending).imp_right .inl
  | unregister u member c _ haccepted => exact (hset _ rfl haccepted.mem haccepted.sending).imp_right .inl
  | undone u c hu hp =>
    by_cases hid : w.id = u.id
    · obtain rfl := h.same_write hw hu hid
      exact .inr (.inr ⟨c, hp, mem_setProgress.mpr (.inl ⟨w, hw, rfl, rfl⟩)⟩)
    · exact .inl (mem_setProgress.mpr (.inr ⟨hw, hid⟩))
  | drain deadline _ =>
    exact .inl ((writings_beginAll d .closer (d.registry.localMembers.map fun m => .unregister m.id)).symm ▸ hw)
  | _ => exact .inl hw

theorem write_of_step (h : d.Accounts) (hw : w ∈ d.writings) (hstep : Step d d') :
    ∃ u ∈ d'.writings, u.id = w.id ∧ u.write = w.write := by
  obtain hw | ⟨c, p, -, hw⟩ | ⟨c, -, hw⟩ := writing_of_step h hw hstep
  · exact ⟨w, hw, rfl, rfl⟩
  · exact ⟨_, hw, rfl, rfl⟩
  · exact ⟨_, hw, rfl, rfl⟩

/-- A registration returns Ok in the step that makes its member local, an unregistration in the one that takes it away. -/
theorem local_of_ok (h : d.Sound) (hstep : Step d d') {events : List Event} (hlog : d'.log = events ++ d.log)
    (hk : .wrote k (.ok ()) ∈ events) :
    ∃ w ∈ d.writings, w.id = k ∧ (∀ m, w.write = .register m → d'.registry.isLocal m.id = true) ∧
      ∀ id, w.write = .unregister id → d'.registry.isLocal id = false := by
  have hnone (noted : List Event) (hnoted : d'.log = noted ++ d.log) (hnot : .wrote k (.ok ()) ∉ noted) : False := by
    rw [List.append_cancel_right (hnoted.symm.trans hlog)] at hnot
    exact hnot hk
  have hone {u : Nat} {result : Except Failure Unit} (rest : List Event)
      (hnoted : d'.log = (.wrote u result :: rest) ++ d.log) (hrest : .wrote k (.ok ()) ∉ rest) : u = k ∧ result = .ok () := by
    rw [← List.append_cancel_right (hnoted.symm.trans hlog)] at hk
    obtain heq | hk := List.mem_cons.mp hk
    · obtain ⟨rfl, rfl⟩ := Event.wrote.inj heq
      exact ⟨rfl, rfl⟩
    · exact absurd hk hrest
  cases hstep with
  | perform op _ => exact (hnone _ rfl not_wrote_of_notified).elim
  | turn e gone held requests _ _ =>
    obtain ⟨noted, hnoted, -, honly⟩ := log_beginAll (d.settle gone) (.epoch e) requests
    refine (hnone _ hnoted fun hmem => ?_).elim
    obtain ⟨c, r, heq⟩ := honly _ hmem
    exact nomatch heq
  | answer c x a _ _ => exact (hnone [_] rfl (by simp)).elim
  | refuse v f => exact nomatch (hone [] rfl List.not_mem_nil).2
  | write v _ => exact (hnone [_] rfl (by simp)).elim
  | reject u c code reason x _ _ _ _ => exact nomatch (hone [] rfl List.not_mem_nil).2
  | register u m c hm haccepted hopen =>
    obtain ⟨rfl, -⟩ := hone _ rfl not_wrote_of_notified
    refine ⟨u, haccepted.mem, rfl, fun m' hm' => ?_, fun id hid => nomatch hm.symm.trans hid⟩
    obtain rfl := Write.register.inj (hm.symm.trans hm')
    exact h.isLocal_registered hopen m
  | undo u m c _ _ _ =>
    refine (hnone (_ :: (_ ++ _)) (congrArg _ (List.append_assoc _ _ _).symm) fun hmem => ?_).elim
    obtain hmem | hmem := List.mem_append.mp ((List.mem_cons.mp hmem).resolve_left nofun)
    · exact not_wrote_of_notified hmem
    · exact not_wrote_of_notified hmem
  | update u member delta c result hu haccepted =>
    obtain ⟨rfl, -⟩ := hone _ rfl not_wrote_of_notified
    exact ⟨u, haccepted.mem, rfl, fun m hm => (nomatch hu.symm.trans hm), fun id hid => nomatch hu.symm.trans hid⟩
  | unregister u member c hu haccepted =>
    obtain ⟨rfl, -⟩ := hone _ rfl not_wrote_of_notified
    refine ⟨u, haccepted.mem, rfl, fun m hm => (nomatch hu.symm.trans hm), fun id hid => ?_⟩
    obtain rfl := Write.unregister.inj (hu.symm.trans hid)
    refine (Registry.isLocal_unregisterLocal d.registry member member).trans ?_
    simp
  | undone u c _ _ => exact nomatch (hone [] rfl List.not_mem_nil).2
  | shut _ => exact (hnone [] rfl List.not_mem_nil).elim
  | skip _ _ => exact (hnone [_] rfl (by simp)).elim
  | drain deadline _ =>
    obtain ⟨noted, hnoted, -, honly⟩ := log_beginAll d .closer (d.registry.localMembers.map fun m => .unregister m.id)
    refine (hnone _ hnoted fun hmem => ?_).elim
    obtain ⟨c, r, heq⟩ := honly _ hmem
    exact nomatch heq
  | unwind calls deadline _ => exact (hnone [_] rfl (by simp)).elim
  | finish c _ => exact (hnone [_] rfl (by simp)).elim

/-! A registration that was answered -/

/-- Until its own step, an accepted registration stays so. Then its member becomes local, or an unregistration is asked for. -/
theorem Accepted.step (h : d.Accepted w call) (hsound : d.Sound) (hm : w.write = .register m) (hstep : Step d d') :
    d'.Accepted w call ∨ (d.closing = false ∧ d'.registry.isLocal m.id = true ∧ d'.closer = d.closer) ∨
      (d.closing = true ∧ Notes d d' (Event.Asks m.id) ∧ ∃ c, { w with progress := .undoing c } ∈ d'.writings) := by
  obtain ⟨k, a, hk, hka, hr⟩ := h.answer
  have hawaits := Accounts.awaits_sending h.sending
  -- The call stays in flight, since nobody else waits for it.
  have hstay (hmem : w ∈ d'.writings) (hcalls : d'.calls call = some k) : d'.Accepted w call :=
    ⟨hmem, h.sending, k, a, hcalls, hka, hr⟩
  have hother {u : Writing} {c : Nat} {r : Request} (hu : u ∈ d.writings) (hne : w.id ≠ u.id)
      (hua : u.awaits = some (c, r)) : call ∉ [c] := by
    rw [List.mem_singleton]
    exact hsound.accounts.not_awaited_by_other h.mem hu hne hawaits hua
  have hreturned {u : Writing} {c : Nat} {r : Request} (hu : u ∈ d.writings) (hua : u.awaits = some (c, r))
      (hne : w.id ≠ u.id) {e : Errands} (hw : e.writings = d.writings) (hc : e.calls = d.calls)
      (result : Except Failure Unit) : ((e.settle [c]).returnWrite u.id result).Accepted w call := by
    refine ⟨mem_setProgress.mpr (.inr ⟨?_, hne⟩), h.sending, k, a, calls_settle.mpr ⟨?_, hother hu hne hua⟩, hka, hr⟩
    · exact hw.symm ▸ h.mem
    · rw [hc]
      exact hk
  have howner {u : Writing} (hu : u ∈ d.writings) (hid : w.id = u.id) : w = u := hsound.accounts.same_write h.mem hu hid
  cases hstep with
  | perform op _ => exact .inl (hstay h.mem hk)
  | turn id gone held requests hgone _ =>
    refine .inl (hstay ?_ (calls_beginAll_old (calls_settle.mpr ⟨hk, ?_⟩) (.epoch id) requests))
    · exact (writings_beginAll (d.settle gone) (.epoch id) requests).symm ▸ h.mem
    · exact hsound.accounts.not_awaited_by_epoch hgone h.mem hawaits
  | answer id x b hx hn =>
    refine .inl (hstay h.mem (calls_give.mpr ⟨k, hk, (if_neg fun hid => ?_).symm⟩))
    obtain rfl : call = id := (hsound.accounts.known call k hk).1.symm.trans hid
    obtain rfl := Option.some.inj (hk.symm.trans hx)
    exact nomatch hn.symm.trans hka
  | refuse v f => exact .inl (hstay (List.mem_append_left _ h.mem) hk)
  | write v _ => exact .inl (hstay (List.mem_append_left _ h.mem) (calls_begin_old hk _ _))
  | reject u c code reason x hu hp hx hxa =>
    by_cases hid : w.id = u.id
    · obtain rfl := howner hu hid
      obtain rfl := Progress.sending.inj (h.sending.symm.trans hp)
      obtain rfl := Option.some.inj (hk.symm.trans hx)
      exact absurd (Option.some.inj (hka.symm.trans hxa)) (hr code reason)
    · exact .inl (hreturned hu (Accounts.awaits_sending hp) hid rfl rfl _)
  | register u m' c hm' haccepted hopen =>
    by_cases hid : w.id = u.id
    · obtain rfl := howner haccepted.mem hid
      obtain rfl := Write.register.inj (hm.symm.trans hm')
      exact .inr (.inl ⟨hopen, hsound.isLocal_registered hopen m, rfl⟩)
    · exact .inl (hreturned (e := d.perform (.registerLocal m')) haccepted.mem (Accounts.awaits_sending haccepted.sending) hid
        rfl rfl _)
  | undo u m' c hm' haccepted hc =>
    by_cases hid : w.id = u.id
    · obtain rfl := howner haccepted.mem hid
      obtain rfl := Write.register.inj (hm.symm.trans hm')
      exact .inr (.inr ⟨hc, notes_undo d w m call, _, mem_setProgress.mpr (.inl ⟨w, haccepted.mem, rfl, rfl⟩)⟩)
    · refine .inl (hstay (mem_setProgress.mpr (.inr ⟨h.mem, hid⟩)) (calls_begin_old (calls_settle.mpr ⟨hk, ?_⟩) _ _))
      exact hother haccepted.mem hid (Accounts.awaits_sending haccepted.sending)
  | update u member delta c result hu haccepted =>
    by_cases hid : w.id = u.id
    · rw [howner haccepted.mem hid, hu] at hm
      exact nomatch hm
    · exact .inl (hreturned (e := d.perform (.updateLocal member delta)) haccepted.mem
        (Accounts.awaits_sending haccepted.sending) hid rfl rfl _)
  | unregister u member c hu haccepted =>
    by_cases hid : w.id = u.id
    · rw [howner haccepted.mem hid, hu] at hm
      exact nomatch hm
    · exact .inl (hreturned (e := d.perform (.unregisterLocal member)) haccepted.mem
        (Accounts.awaits_sending haccepted.sending) hid rfl rfl _)
  | undone u c hu hp =>
    by_cases hid : w.id = u.id
    · rw [howner hu hid] at h
      exact nomatch hp.symm.trans h.sending
    · exact .inl (hreturned hu (Accounts.awaits_undoing hp) hid rfl rfl _)
  | shut _ => exact .inl (hstay h.mem hk)
  | skip _ _ => exact .inl (hstay h.mem (calls_begin_old hk _ _))
  | drain deadline _ =>
    refine .inl (hstay ?_ (calls_beginAll_old hk _ _))
    exact (writings_beginAll d .closer _).symm ▸ h.mem
  | unwind calls deadline hc =>
    refine .inl (hstay h.mem (calls_begin_old (calls_settle.mpr ⟨hk, ?_⟩) _ _))
    refine hsound.accounts.not_awaited_by_closer (fun c hmem => ?_) h.mem hawaits
    rw [hc]
    exact hmem
  | finish c hc =>
    refine .inl (hstay h.mem (calls_settle.mpr ⟨hk, ?_⟩))
    refine hsound.accounts.not_awaited_by_closer (fun x hmem => ?_) h.mem hawaits
    rw [hc]
    exact hmem

end Errands

end Roster.Session
