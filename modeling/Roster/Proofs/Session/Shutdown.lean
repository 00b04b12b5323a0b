import Roster.Proofs.Registry.Notification
import Roster.Proofs.Session.Errands.Accounts

/-! How far a shutdown has come. The registry is open until the shutdown is over and closed from then on, so no subscriber's
callback begins after close has returned. -/
namespace Roster

namespace Registry

theorem Stored.isLocal_eq {r : Registry} (h : Stored r) (id : String) : r.isLocal id = (r.owned? id).isSome := by
  unfold owned?
  cases hl : r.isLocal id with
  | false => rfl
  | true =>
    have hheld := h.held id hl
    rw [if_pos rfl, member?, Option.isSome_map]
    exact (Std.ExtTreeMap.mem_iff_isSome_getElem?.mp hheld).symm

/-- Local members are listed under their ids. -/
theorem Stored.mem_localMembers {r : Registry} (h : Stored r) {id : String} (hl : r.isLocal id = true) :
    ∃ m ∈ r.localMembers, m.id = id := by
  have howned : (r.owned? id).isSome = true := h.isLocal_eq id ▸ hl
  obtain ⟨m, hm⟩ := Option.isSome_iff_exists.mp howned
  refine ⟨m, (r.mem_localMembers m).mpr ⟨id, hm⟩, ?_⟩
  rw [owned?, if_pos hl] at hm
  obtain ⟨e, he, rfl⟩ := Option.map_eq_some_iff.mp hm
  exact h.keyed id e he

theorem Stored.mem_localMembers_iff {r : Registry} (h : Stored r) (m : Member) :
    m ∈ r.localMembers ↔ r.isLocal m.id = true ∧ r.member? m.id = some m := by
  rw [r.mem_localMembers]
  constructor
  · rintro ⟨id, hid⟩
    obtain ⟨hl, hm⟩ := Option.ite_none_right_eq_some.mp hid
    obtain ⟨e, he, rfl⟩ := Option.map_eq_some_iff.mp hm
    have hkey : e.member.id = id := h.keyed id e he
    rw [hkey]
    exact ⟨hl, hm⟩
  · rintro ⟨hl, hm⟩
    exact ⟨m.id, by rw [owned?, if_pos hl, hm]⟩

/-- Every local member is listed, once. -/
theorem Stored.map_id_localMembers {r : Registry} (h : Stored r) : r.localMembers.map (·.id) = r.localIds.toList := by
  have hid : ∀ id ∈ r.localIds.toList, (r.member? id).map (·.id) = some id := by
    intro id hmem
    have hheld := h.held id ((r.isLocal_iff id).mpr (Std.ExtTreeSet.mem_toList.mp hmem))
    obtain ⟨e, he⟩ := Option.isSome_iff_exists.mp (Std.ExtTreeMap.mem_iff_isSome_getElem?.mp hheld)
    rw [member?, he]
    exact congrArg some (h.keyed id e he)
  rw [localMembers, List.map_filterMap, List.filterMap_congr hid]
  exact List.filterMap_some

theorem Stored.nodup_localMembers {r : Registry} (h : Stored r) : (r.localMembers.map (·.id)).Nodup := by
  rw [h.map_id_localMembers]
  refine Std.ExtTreeSet.distinct_toList.imp fun {x y} hne heq => hne ?_
  rw [heq]
  exact Std.ReflCmp.compare_self

/-- A closed registry has nobody to tell. -/
theorem Stored.deliveries_of_closed {r : Registry} (h : Stored r) (hc : r.closed = true) (op : Op) :
    (r.perform op).deliveries = [] := by
  have hdue : (r.perform op).due = [] := by
    obtain ⟨ha, -⟩ | ⟨filter, -, hopen, -⟩ | ⟨-, hdue, -⟩ := perform_due h.isLocal_eq op
    · rw [applies_of_closed h hc] at ha
      exact nomatch ha
    · exact nomatch hc.symm.trans hopen
    · exact hdue
  rw [Effect.deliveries, hdue]
  rfl

theorem Stored.empty_of_closed {r : Registry} (h : Stored r) (hc : r.closed = true) (id : String) :
    r.member? id = none ∧ r.isLocal id = false := by
  obtain ⟨hentries, hlocals⟩ := h.emptied hc
  constructor
  · rw [member?, hentries]
    rfl
  · rw [isLocal, hlocals]
    rfl

end Registry

namespace Session

/-- The event says neither that a callback began nor that close returned. -/
def Event.plain : Event → Bool
  | .notified _ _ | .closeReturned true => false
  | _ => true

/-- Since close returned, no subscriber's callback began. -/
def Silent (log : List Event) : Prop :=
  ∀ newer older, log = newer ++ .closeReturned true :: older → ∀ n members, .notified n members ∉ newer

theorem Silent.plain {log events : List Event} (h : Silent log) (he : ∀ e ∈ events, e.plain = true) :
    Silent (events ++ log) := by
  intro newer older heq n members hmem
  have hnew : .notified n members ∉ events := fun hnew => nomatch (he (.notified n members) hnew)
  obtain ⟨rest, rfl, hrest⟩ | ⟨rest, rfl, -⟩ := List.append_eq_append_iff.mp heq
  · obtain hmem | hmem := List.mem_append.mp hmem
    · exact hnew hmem
    · exact h rest older hrest n members hmem
  · exact hnew (List.mem_append_left _ hmem)

theorem silent_of_open {log : List Event} (h : .closeReturned true ∉ log) : Silent log := by
  rintro newer older rfl
  exact absurd (List.mem_append_right newer List.mem_cons_self) h

namespace Errands

variable {d d' : Errands}

/-- What a stage of the shutdown means. -/
structure Stages (d : Errands) : Prop where
  stored : d.registry.Stored
  idle : d.closing = false → d.closer = .idle
  closed : d.registry.closed = true ↔ d.closer = .finished
  returned : .closeReturned true ∈ d.log → d.closer = .finished
  silent : Silent d.log

namespace Stages

theorem perform (h : d.Stages) {op : Registry.Op} (hop : op ≠ .close) : (d.perform op).Stages where
  stored := h.stored.perform op
  idle := h.idle
  closed := by
    show (d.registry.perform op).registry.closed = true ↔ d.closer = .finished
    rw [Registry.closed_perform, decide_eq_false hop, Bool.or_false, h.closed]
  returned := by
    intro hmem
    obtain hmem | hmem := List.mem_append.mp hmem
    · obtain ⟨n, members, heq⟩ := of_mem_notified hmem
      exact nomatch heq
    · exact h.returned hmem
  silent := by
    by_cases hc : d.registry.closed = true
    · show Silent (_ ++ d.log)
      rw [h.stored.deliveries_of_closed hc]
      exact h.silent
    · refine silent_of_open fun hmem => ?_
      obtain hmem | hmem := List.mem_append.mp hmem
      · obtain ⟨n, members, heq⟩ := of_mem_notified hmem
        exact nomatch heq
      · exact hc (h.closed.mpr (h.returned hmem))

/-- The stage and the registry stay, and what is noted is plain. -/
theorem plain (h : d.Stages) (hregistry : d'.registry = d.registry) (hclosing : d'.closing = d.closing)
    (hcloser : d'.closer = d.closer) {events : List Event} (hlog : d'.log = events ++ d.log)
    (he : ∀ e ∈ events, e.plain = true) : d'.Stages where
  stored := hregistry ▸ h.stored
  idle := by rw [hclosing, hcloser]; exact h.idle
  closed := by rw [hregistry, hcloser]; exact h.closed
  returned := by
    rw [hlog, hcloser]
    intro hmem
    obtain hmem | hmem := List.mem_append.mp hmem
    · exact nomatch he _ hmem
    · exact h.returned hmem
  silent := hlog ▸ h.silent.plain he

/-- The shutdown goes on, and is not over. -/
theorem advance (h : d.Stages) (hc : d.closer ≠ .finished) {closing : Bool} {closer : Closer} (hidle : closing = true)
    (hcloser : closer ≠ .finished) : Stages { d with closing, closer } where
  stored := h.stored
  idle := fun hopen => nomatch hidle.symm.trans hopen
  closed := ⟨fun hclosed => absurd (h.closed.mp hclosed) hc, fun hf => absurd hf hcloser⟩
  returned := fun hmem => absurd (h.returned hmem) hc
  silent := h.silent

theorem closing_of_closer (h : d.Stages) (hc : d.closer ≠ .idle) : d.closing = true := by
  rw [← Bool.not_eq_false]
  exact fun hopen => hc (h.idle hopen)

theorem finish (h : d.Stages) (hc : d.closer ≠ .finished) (hclosing : d.closing = true) :
    Stages ({ d.perform .close with closer := .finished }.note (.closeReturned true)) where
  stored := h.stored.perform .close
  idle := fun hopen => nomatch hclosing.symm.trans hopen
  closed := by
    refine ⟨fun _ => rfl, fun _ => ?_⟩
    exact (Registry.closed_perform d.registry .close).trans (by simp)
  returned := fun _ => rfl
  silent := by
    intro newer older heq n members hmem
    have heq : .closeReturned true :: d.log = newer ++ .closeReturned true :: older := heq
    cases newer with
    | nil => exact nomatch hmem
    | cons e newer =>
      obtain ⟨-, hlog⟩ := List.cons.inj heq
      exact hc (h.returned (hlog ▸ List.mem_append_right _ List.mem_cons_self))

theorem release (h : d.Stages) (hc : d.closer ≠ .finished) (hclosing : d.closing = true) : d.release.Stages := by
  have hbegin : (d.begin .closer .close).Stages :=
    h.plain rfl rfl rfl (show _ = [Event.called (d.lastCall + 1) .closer .close] ++ d.log from rfl) (by simp [Event.plain])
  have hrelease := hbegin.advance hc hclosing (show Closer.releasing (d.lastCall + 1) ≠ .finished from nofun)
  exact hrelease

theorem step (h : d.Stages) (hstep : Step d d') : d'.Stages := by
  cases hstep with
  | perform op hop => exact h.perform (by rintro rfl; exact nomatch hop)
  | turn id gone held requests _ _ =>
    obtain ⟨events, hlog, -, honly⟩ := log_beginAll (d.settle gone) (.epoch id) requests
    refine h.plain ?_ ?_ ?_ hlog fun e he => ?_
    · show ((d.settle gone).beginAll (.epoch id) requests).registry = _
      rw [beginAll_eq]
      rfl
    · show ((d.settle gone).beginAll (.epoch id) requests).closing = _
      rw [beginAll_eq]
      rfl
    · show ((d.settle gone).beginAll (.epoch id) requests).closer = _
      rw [beginAll_eq]
      rfl
    · obtain ⟨c, r, rfl⟩ := honly e he
      rfl
  | answer id k a _ _ => exact h.plain rfl rfl rfl (show _ = [Event.answered id a] ++ d.log from rfl) (by simp [Event.plain])
  | refuse w f =>
    exact h.plain rfl rfl rfl (show _ = [Event.wrote d.writings.length (.error f)] ++ d.log from rfl) (by simp [Event.plain])
  | write w _ =>
    exact h.plain rfl rfl rfl (show _ = [Event.called (d.lastCall + 1) (.write d.writings.length) w.request] ++ d.log from rfl)
      (by simp [Event.plain])
  | reject w call code reason k _ _ _ _ =>
    exact h.plain rfl rfl rfl (show _ = [Event.wrote w.id (.error (.rejected code reason))] ++ d.log from rfl)
      (by simp [Event.plain])
  | register w m call _ _ _ =>
    exact (h.perform (show Registry.Op.registerLocal m ≠ .close from nofun)).plain rfl rfl rfl
      (show _ = [Event.wrote w.id (.ok ())] ++ _ from rfl) (by simp [Event.plain])
  | undo w m call _ _ _ =>
    have hregister : (d.perform (.registerLocal m)).Stages := h.perform nofun
    have hunregister : ((d.perform (.registerLocal m)).perform (.unregisterLocal m.id)).Stages := hregister.perform nofun
    exact hunregister.plain rfl rfl rfl
      (show _ = [Event.called (d.lastCall + 1) (.write w.id) (.unregister m.id)] ++ _ from rfl) (by simp [Event.plain])
  | update w member delta call result _ _ =>
    have hupdate : (d.perform (.updateLocal member delta)).Stages := h.perform nofun
    exact hupdate.plain rfl rfl rfl (show _ = [Event.wrote w.id result] ++ _ from rfl) (by simp [Event.plain])
  | unregister w member call _ _ =>
    have hunregister : (d.perform (.unregisterLocal member)).Stages := h.perform nofun
    exact hunregister.plain rfl rfl rfl (show _ = [Event.wrote w.id (.ok ())] ++ _ from rfl) (by simp [Event.plain])
  | undone w call _ _ =>
    exact h.plain rfl rfl rfl (show _ = [Event.wrote w.id (.error .closed)] ++ d.log from rfl) (by simp [Event.plain])
  | shut hopen =>
    have hidle := h.idle hopen
    exact h.advance (by rw [hidle]; exact nofun) rfl nofun
  | skip hc _ => exact h.release (by rw [hc]; exact nofun) (h.closing_of_closer (by rw [hc]; exact nofun))
  | drain deadline hc =>
    have hclosing := h.closing_of_closer (by rw [hc]; exact nofun)
    obtain ⟨events, hlog, -, honly⟩ := log_beginAll d .closer (d.registry.localMembers.map fun m => .unregister m.id)
    have hall : Stages { d with log := events ++ d.log } := h.plain rfl rfl rfl rfl fun e he => by
      obtain ⟨c, r, rfl⟩ := honly e he
      rfl
    have hnext := hall.advance (by rw [hc]; exact nofun) hclosing
      (show Closer.unregistering (d.next d.registry.localMembers.length) deadline ≠ .finished from nofun)
    rw [beginAll_eq, hlog]
    exact { hnext with }
  | unwind calls deadline hc =>
    have hsettle : (d.settle calls).Stages := { h with }
    exact hsettle.release (by show d.closer ≠ _; rw [hc]; exact nofun) (h.closing_of_closer (by rw [hc]; exact nofun))
  | finish call hc =>
    have hsettle : (d.settle [call]).Stages := { h with }
    exact hsettle.finish (by show d.closer ≠ _; rw [hc]; exact nofun) (h.closing_of_closer (by rw [hc]; exact nofun))

end Stages

end Errands

/-- What holds of the errands of a session at any time. -/
structure Errands.Sound (d : Errands) : Prop where
  accounts : d.Accounts
  stages : d.Stages

theorem Errands.Sound.step {d d' : Errands} (h : d.Sound) (hstep : Errands.Step d d') : d'.Sound :=
  ⟨h.accounts.step hstep, h.stages.step hstep⟩

theorem Errands.Sound.mayStep {d d' : Errands} (h : d.Sound) (hstep : Errands.MayStep d d') : d'.Sound := by
  obtain rfl | hstep := hstep
  · exact h
  · exact h.step hstep

theorem errands_start (settings : Settings) (connectivity : Connectivity) (now : Nat) :
    (start settings connectivity now).errands.Sound := by
  have hcalls (c : Nat) (k : Call) : (start settings connectivity now).errands.calls c ≠ some k := (Option.some_ne_none k).symm
  have htasks (id c : Nat) : c ∉ (start settings connectivity now).errands.tasks id := List.not_mem_nil
  have hwritings (w : Writing) : w ∉ (start settings connectivity now).errands.writings := List.not_mem_nil
  have hlog (e : Event) : e ∉ (start settings connectivity now).errands.log := List.not_mem_nil
  refine ⟨{ known := ?_, tasks := ?_, closer := ?_, numbered := rfl, writing := ?_, owed := ?_, returned := ?_, noted := ?_ },
    { stored := Registry.Stored.start, idle := fun _ => rfl, closed := ⟨nofun, nofun⟩, returned := ?_,
      silent := silent_of_open List.not_mem_nil }⟩
  · exact fun c k hk => absurd hk (hcalls c k)
  · exact fun id c hc => absurd hc (htasks id c)
  · exact fun c hc => absurd hc List.not_mem_nil
  · exact fun w hw => absurd hw (hwritings w)
  · exact fun c k _ hk => absurd hk (hcalls c k)
  · exact fun _ _ hmem => absurd hmem (hlog _)
  · exact fun w hw => absurd hw (hwritings w)
  · exact fun hmem => absurd hmem (hlog _)

/-- The errands are sound in every run. -/
theorem sound_errands {settings : Settings} {connectivity : Connectivity} {now : Nat} {moves : List Move} {s : Session}
    (h : (start settings connectivity now).run moves = some s) : s.errands.Sound :=
  run_induction (P := fun u => u.errands.Sound) h (errands_start settings connectivity now) fun _ _ _ hu hs => hu.mayStep (step_errands hs)

end Session

end Roster
