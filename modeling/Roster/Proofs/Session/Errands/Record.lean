import Roster.Proofs.Session.Shutdown

/-! The record of calls: each has a number of its own, is on record while it is in flight and is answered once, after it began.
`calls_of_step` says once what a step does to calls; the rest follows from it. -/
namespace Roster.Session

namespace Errands

variable {d d' e : Errands}

/-- Answers may be taken up and other things noted, but no call begins or is answered. -/
structure Hushed (d d' : Errands) : Prop where
  last : d'.lastCall = d.lastCall
  calls : ∀ c k, d'.calls c = some k → d.calls c = some k
  log : ∃ events, d'.log = events ++ d.log ∧ ∀ x ∈ events, x.ofCall = false

namespace Hushed

theorem refl (d : Errands) : Hushed d d := ⟨rfl, fun _ _ hk => hk, [], rfl, nofun⟩

theorem trans (h : Hushed d e) (h' : Hushed e d') : Hushed d d' := by
  obtain ⟨events, hlog, he⟩ := h.log
  obtain ⟨more, hmore, hm⟩ := h'.log
  refine ⟨h'.last.trans h.last, fun c k hk => h.calls c k (h'.calls c k hk), more ++ events, ?_, fun x hx => ?_⟩
  · rw [hmore, hlog, List.append_assoc]
  · exact (List.mem_append.mp hx).elim (hm x) (he x)

theorem settle (d : Errands) (ids : List Nat) : Hushed d (d.settle ids) :=
  ⟨rfl, fun _ _ hk => (calls_settle.mp hk).1, [], rfl, nofun⟩

theorem note (h : Hushed d d') {x : Event} (hx : x.ofCall = false) : Hushed d (d'.note x) :=
  h.trans ⟨rfl, fun _ _ hk => hk, [x], rfl, by simpa using hx⟩

theorem perform (h : Hushed d d') (op : Registry.Op) : Hushed d (d'.perform op) := by
  refine h.trans ⟨rfl, fun _ _ hk => hk, _, rfl, fun x hx => ?_⟩
  obtain ⟨n, members, rfl⟩ := of_mem_notified hx
  rfl

/-- What is neither about calls nor on record may change. -/
theorem frame (h : Hushed d d') (hlast : e.lastCall = d'.lastCall) (hcalls : e.calls = d'.calls) (hlog : e.log = d'.log) :
    Hushed d e :=
  h.trans ⟨hlast, fun _ _ hk => hcalls ▸ hk, [], hlog, nofun⟩

theorem returnWrite (h : Hushed d d') (id : Nat) (result : Except Failure Unit) : Hushed d (d'.returnWrite id result) :=
  note (h.frame (e := d'.setProgress id (.done result)) rfl rfl rfl) rfl

end Hushed

/-- The shutdown never registers. -/
def Allowed (caller : Caller) (requests : List Request) : Prop := caller = .closer → ∀ m, .register m ∉ requests

/-- A step answers one call, or begins some on behalf of one caller. -/
theorem calls_of_step (hstep : Step d d') :
    (∃ c k a, d.calls c = some k ∧ k.answer = none ∧ d' = d.give c a) ∨
      ∃ e caller requests, Hushed d e ∧ Allowed caller requests ∧ Hushed (e.beginAll caller requests) d' := by
  have hnone (h : Hushed d d') : ∃ e caller requests, Hushed d e ∧ Allowed caller requests ∧
      Hushed (e.beginAll caller requests) d' := ⟨d, .closer, [], .refl d, fun _ _ => List.not_mem_nil, h⟩
  cases hstep with
  | perform op _ => exact .inr (hnone (.perform (.refl d) op))
  | turn id gone held requests _ _ => exact .inr ⟨_, .epoch id, requests, .settle d gone, nofun, .frame (.refl _) rfl rfl rfl⟩
  | answer c k a hk hn => exact .inl ⟨c, k, a, hk, hn, rfl⟩
  | refuse w f =>
    refine .inr (hnone (.note ?_ rfl))
    exact .frame (.refl d) rfl rfl rfl
  | write w _ => exact .inr ⟨d, .write d.writings.length, [w.request], .refl d, nofun, .frame (.refl _) rfl rfl rfl⟩
  | reject w call code reason k _ _ _ _ => exact .inr (hnone (.returnWrite (.settle d [call]) w.id _))
  | register w m call _ _ _ => exact .inr (hnone (.returnWrite (.perform (.settle d [call]) _) w.id _))
  | undo w m call _ _ _ =>
    refine .inr ⟨_, .write w.id, [.unregister m.id], ?_, nofun, .frame (.refl _) rfl rfl rfl⟩
    exact .perform (.perform (.settle d [call]) (.registerLocal m)) (.unregisterLocal m.id)
  | update w member delta call result _ _ => exact .inr (hnone (.returnWrite (.perform (.settle d [call]) _) w.id _))
  | unregister w member call _ _ => exact .inr (hnone (.returnWrite (.perform (.settle d [call]) _) w.id _))
  | undone w call _ _ => exact .inr (hnone (.returnWrite (.settle d [call]) w.id _))
  | shut _ => exact .inr (hnone (.frame (.refl d) rfl rfl rfl))
  | skip _ _ => exact .inr ⟨d, .closer, [.close], .refl d, by simp [Allowed], .frame (.refl _) rfl rfl rfl⟩
  | drain deadline _ =>
    exact .inr ⟨d, .closer, d.registry.localMembers.map fun m => .unregister m.id, .refl d, by simp [Allowed],
      .frame (.refl _) rfl rfl rfl⟩
  | unwind calls deadline _ =>
    exact .inr ⟨_, .closer, [.close], .settle d calls, by simp [Allowed], .frame (.refl _) rfl rfl rfl⟩
  | finish call _ =>
    refine .inr (hnone (.note ?_ rfl))
    exact .frame (.perform (.settle d [call]) .close) rfl rfl rfl

structure Recorded (d : Errands) : Prop where
  flying : ∀ c k, d.calls c = some k → .called c k.caller k.request ∈ d.log
  known : ∀ c caller r, .called c caller r ∈ d.log → c ≤ d.lastCall
  same : ∀ c caller r caller' r', .called c caller r ∈ d.log → .called c caller' r' ∈ d.log → caller = caller' ∧ r = r'
  begun : ∀ newer c a older, d.log = newer ++ .answered c a :: older → ∃ caller r, .called c caller r ∈ older
  given : ∀ c k, d.calls c = some k → ∀ a, .answered c a ∈ d.log ↔ k.answer = some a
  shutdown : ∀ c m, .called c .closer (.register m) ∉ d.log

namespace Recorded

theorem hush (h : d.Recorded) (hd : Hushed d d') : d'.Recorded := by
  obtain ⟨events, hlog, he⟩ := hd.log
  have hold {x : Event} (hx : x ∈ d'.log) (hcall : x.ofCall = true) : x ∈ d.log := by
    rw [hlog] at hx
    exact (List.mem_append.mp hx).resolve_left fun hnew => nomatch hcall.symm.trans (he x hnew)
  constructor
  case flying => exact fun c k hk => hlog ▸ List.mem_append_right events (h.flying c k (hd.calls c k hk))
  case known => exact fun c caller r hx => hd.last ▸ h.known c caller r (hold hx rfl)
  case same => exact fun c caller r caller' r' hx hx' => h.same c caller r caller' r' (hold hx rfl) (hold hx' rfl)
  case begun =>
    intro newer c a older heq
    obtain ⟨rest, rfl, hrest⟩ | ⟨rest, rfl, hrest⟩ := List.append_eq_append_iff.mp (hlog.symm.trans heq)
    · exact h.begun rest c a older hrest
    · cases rest with
      | nil => exact h.begun [] c a older hrest.symm
      | cons x rest =>
        obtain ⟨rfl, -⟩ := List.cons.inj hrest
        exact nomatch he (.answered c a) (List.mem_append_right newer List.mem_cons_self)
  case given =>
    intro c k hk a
    rw [← h.given c k (hd.calls c k hk) a]
    exact ⟨fun hx => hold hx rfl, fun hx => hlog ▸ List.mem_append_right events hx⟩
  case shutdown => exact fun c m hx => h.shutdown c m (hold hx rfl)

theorem begin (h : d.Recorded) {caller : Caller} {request : Request} (hallowed : Allowed caller [request]) :
    (d.begin caller request).Recorded := by
  have hfresh {asker : Caller} {r : Request} (hx : .called (d.lastCall + 1) asker r ∈ d.log) : False :=
    Nat.not_succ_le_self _ (h.known _ asker r hx)
  have hcases {c : Nat} {asker : Caller} {r : Request} (hx : .called c asker r ∈ (d.begin caller request).log) :
      c = d.lastCall + 1 ∧ asker = caller ∧ r = request ∨ .called c asker r ∈ d.log := by
    obtain heq | hx := List.mem_cons.mp hx
    · exact .inl (Event.called.inj heq)
    · exact .inr hx
  constructor
  case flying =>
    intro c k hk
    obtain hk | ⟨rfl, rfl⟩ := of_calls_begin hk
    · exact List.mem_cons_of_mem _ (h.flying c k hk)
    · exact List.mem_cons_self
  case known =>
    intro c asker r hx
    obtain ⟨rfl, -, -⟩ | hx := hcases hx
    · exact Nat.le_refl _
    · exact Nat.le_succ_of_le (h.known c asker r hx)
  case same =>
    intro c asker r asker' r' hx hx'
    obtain ⟨hc, hasker, hr⟩ | hold := hcases hx <;> obtain ⟨hc', hasker', hr'⟩ | hold' := hcases hx'
    · exact ⟨hasker.trans hasker'.symm, hr.trans hr'.symm⟩
    · exact (hfresh (hc ▸ hold')).elim
    · exact (hfresh (hc' ▸ hold)).elim
    · exact h.same c asker r asker' r' hold hold'
  case begun =>
    intro newer c a older heq
    cases newer with
    | nil => exact nomatch (List.cons.inj heq).1
    | cons x newer => exact h.begun newer c a older (List.cons.inj heq).2
  case given =>
    intro c k hk a
    have hlog : .answered c a ∈ (d.begin caller request).log ↔ .answered c a ∈ d.log :=
      List.mem_cons.trans (or_iff_right nofun)
    obtain hk | ⟨rfl, rfl⟩ := of_calls_begin hk
    · exact hlog.trans (h.given c k hk a)
    · refine hlog.trans ⟨fun hx => ?_, nofun⟩
      obtain ⟨newer, older, hsplit⟩ := List.append_of_mem hx
      obtain ⟨asker, r, hcalled⟩ := h.begun newer _ a older hsplit
      exact (hfresh (hsplit ▸ List.mem_append_right newer (List.mem_cons_of_mem _ hcalled))).elim
  case shutdown =>
    intro c m hx
    obtain ⟨-, hcaller, rfl⟩ | hx := hcases hx
    · exact hallowed hcaller.symm m (List.mem_singleton_self _)
    · exact h.shutdown c m hx

theorem beginAll (h : d.Recorded) {caller : Caller} {requests : List Request} (hallowed : Allowed caller requests) :
    (d.beginAll caller requests).Recorded := by
  induction requests generalizing d with
  | nil => exact h
  | cons r rs ih =>
    refine ih (h.begin fun hc m hm => ?_) fun hc m hm => hallowed hc m (List.mem_cons_of_mem r hm)
    exact hallowed hc m (List.mem_singleton.mp hm ▸ List.mem_cons_self)

theorem give (h : d.Recorded) (hfiled : d.Filed) {c : Nat} {k : Call} (hk : d.calls c = some k) (hn : k.answer = none)
    (a : Answer) : (d.give c a).Recorded := by
  have hold {n : Nat} {asker : Caller} {r : Request} (hx : .called n asker r ∈ (d.give c a).log) : .called n asker r ∈ d.log :=
    (List.mem_cons.mp hx).resolve_left nofun
  constructor
  case flying =>
    intro n x hx
    obtain ⟨old, hx, -, hcaller, hrequest⟩ := of_calls_give hx
    rw [hcaller, hrequest]
    exact List.mem_cons_of_mem _ (h.flying n old hx)
  case known => exact fun n asker r hx => h.known n asker r (hold hx)
  case same => exact fun n asker r asker' r' hx hx' => h.same n asker r asker' r' (hold hx) (hold hx')
  case begun =>
    intro newer n b older heq
    cases newer with
    | nil =>
      obtain ⟨hanswered, rfl⟩ := List.cons.inj heq
      obtain ⟨rfl, -⟩ := Event.answered.inj hanswered
      exact ⟨_, _, h.flying _ k hk⟩
    | cons x newer => exact h.begun newer n b older (List.cons.inj heq).2
  case given =>
    intro n x hx b
    obtain ⟨old, hbefore, rfl⟩ := calls_give.mp hx
    have hgiven := h.given n old hbefore b
    have hid : old.id = n := (hfiled.known n old hbefore).1
    by_cases hc : n = c
    · subst hc
      obtain rfl := Option.some.inj (hbefore.symm.trans hk)
      rw [hn] at hgiven
      have hold : .answered n b ∉ d.log := fun hmem => nomatch hgiven.mp hmem
      refine List.mem_cons.trans ((or_iff_left hold).trans ?_)
      rw [if_pos hid]
      simp [eq_comm]
    · rw [if_neg (hid.symm ▸ hc), ← hgiven]
      exact List.mem_cons.trans (or_iff_right fun heq => hc (Event.answered.inj heq).1)
  case shutdown => exact fun n m hx => h.shutdown n m (hold hx)

theorem step (h : d.Recorded) (hfiled : d.Filed) (hstep : Step d d') : d'.Recorded := by
  obtain ⟨c, k, a, hk, hn, rfl⟩ | ⟨e, caller, requests, hbefore, hallowed, hafter⟩ := calls_of_step hstep
  · exact h.give hfiled hk hn a
  · exact ((h.hush hbefore).beginAll hallowed).hush hafter

end Recorded

/-- An answer noted in a step is the answer to a call in flight. -/
theorem flying_of_answered (hstep : Step d d') {events : List Event} (hlog : d'.log = events ++ d.log) {c : Nat} {a : Answer}
    (h : .answered c a ∈ events) : ∃ k, d.calls c = some k := by
  obtain ⟨n, k, b, hk, -, rfl⟩ | ⟨e, caller, requests, hbefore, -, hafter⟩ := calls_of_step hstep
  · have hevents : events ++ d.log = [.answered n b] ++ d.log := hlog.symm
    rw [List.append_cancel_right hevents, List.mem_singleton] at h
    obtain ⟨rfl, -⟩ := Event.answered.inj h
    exact ⟨k, hk⟩
  · obtain ⟨first, hfirst, hfirst'⟩ := hbefore.log
    obtain ⟨calls, hcalls, -, honly⟩ := log_beginAll e caller requests
    obtain ⟨last, hlast, hlast'⟩ := hafter.log
    have hevents : events ++ d.log = (last ++ (calls ++ first)) ++ d.log := by
      rw [← hlog, hlast, hcalls, hfirst, List.append_assoc, List.append_assoc]
    rw [List.append_cancel_right hevents, List.mem_append, List.mem_append] at h
    rcases h with h | h | h
    · exact nomatch hlast' _ h
    · obtain ⟨_, _, heq⟩ := honly _ h
      exact nomatch heq
    · exact nomatch hfirst' _ h

end Errands

theorem recorded_of_run {settings : Settings} {connectivity : Connectivity} {now : Nat} {moves : List Move} {s : Session}
    (hrun : (start settings connectivity now).run moves = some s) : s.errands.Recorded := by
  have hstart : (start settings connectivity now).errands.Recorded := by
    constructor
    case flying => exact fun c k hk => nomatch hk
    case known => exact fun c caller r hx => nomatch hx
    case same => exact fun c caller r caller' r' hx => nomatch hx
    case begun => exact fun newer c a older heq => by simp [errands, start] at heq
    case given => exact fun c k hk => nomatch hk
    case shutdown => exact fun c m hx => nomatch hx
  have hboth : s.errands.Sound ∧ s.errands.Recorded := by
    refine run_induction (P := fun v => v.errands.Sound ∧ v.errands.Recorded) hrun
      ⟨errands_start settings connectivity now, hstart⟩ fun v v' m ⟨hv, hr⟩ hmove => ?_
    obtain hsame | hstep := step_errands hmove
    · exact hsame ▸ ⟨hv, hr⟩
    · exact ⟨hv.step hstep, hr.step hv.accounts.toFiled hstep⟩
  exact hboth.2

end Roster.Session
