import Roster.Proofs.Session.Errands.Locals

/-! What is kept from one step to the next until somebody asks the server to take a member away, and what a registration that
close has overtaken can still return. -/
namespace Roster.Session

namespace Errands

variable {d d' : Errands} {w : Writing} {call k : Nat} {m : Member} {id : String}

/-! What one step keeps -/

/-- The member is this client's to unregister, with nobody asking the server yet: its registration has its answer, or it is
local and the shutdown has not looked. -/
structure Owing (d : Errands) (w : Writing) (call : Nat) (m : Member) : Prop where
  /-- The application is not about to take the member away for an earlier reason. -/
  wanted : ∀ u ∈ d.writings, u.inFlight = true → u.write ≠ .unregister m.id
  ours : d.Accepted w call ∨ (d.registry.isLocal m.id = true ∧ d.closer.past = false)

theorem Owing.step (h : d.Owing w call m) (hsound : d.Sound) (hm : w.write = .register m) (hstep : Step d d') :
    Notes d d' (Event.Asks m.id) ∨ d'.Owing w call m := by
  have hidle (hopen : d.closing = false) : d.closer.past = false := by
    rw [hsound.stages.idle hopen]
    rfl
  -- Another unregistration that begins asks the server itself.
  have hwanted : Notes d d' (Event.Asks m.id) ∨ ∀ u ∈ d'.writings, u.inFlight = true → u.write ≠ .unregister m.id := by
    by_contra hno
    obtain ⟨hquiet, hall⟩ := not_or.mp hno
    refine hall fun u hu hf heq => ?_
    obtain ⟨old, hold, -, hwrite, hof⟩ | ⟨-, hbegan⟩ := under_way_of_step hsound.accounts hstep hu hf
    · exact h.wanted old hold hof (hwrite.trans heq)
    · refine hquiet (hbegan.mono ?_)
      rintro e ⟨c, caller, rfl⟩
      exact ⟨c, caller, by rw [heq]; rfl⟩
  have hours : Notes d d' (Event.Asks m.id) ∨ d'.Accepted w call ∨
      (d'.registry.isLocal m.id = true ∧ d'.closer.past = false) := by
    obtain haccepted | ⟨hl, hp⟩ := h.ours
    · obtain hstill | ⟨hopen, hlocal, hcloser⟩ | ⟨-, hasks, -⟩ := haccepted.step hsound hm hstep
      · exact .inr (.inl hstill)
      · exact .inr (.inr ⟨hlocal, hcloser ▸ hidle hopen⟩)
      · exact .inl hasks
    · obtain hlocal | ⟨u, hu, hf, heq, -⟩ | ⟨-, -, hasks⟩ | hpast := local_of_step hl hstep
      · obtain hcloser | ⟨-, hcloser⟩ | hall | hpast := closer_of_step hstep
        · exact .inr (.inr ⟨hlocal, hcloser ▸ hp⟩)
        · exact .inr (.inr ⟨hlocal, hcloser ▸ rfl⟩)
        · obtain ⟨x, hx, hid⟩ := hsound.stages.stored.mem_localMembers hl
          refine .inl ((hall x hx).mono ?_)
          rintro e ⟨c, rfl⟩
          exact ⟨c, .closer, by rw [hid]⟩
        · exact nomatch hp.symm.trans hpast
      · exact absurd heq (h.wanted u hu hf)
      · exact .inl hasks
      · exact nomatch hp.symm.trans hpast
  obtain hasks | hwanted := hwanted
  · exact .inl hasks
  · exact hours.imp_right fun hours => ⟨hwanted, hours⟩

/-- Close has begun, with a local member that no write is about. -/
structure Leaving (d : Errands) (id : String) : Prop where
  draining : d.closer = .draining
  shut : d.closing = true
  here : d.registry.isLocal id = true
  settled : ∀ u ∈ d.writings, u.inFlight = true → u.write.moves id = false

theorem Leaving.step (h : d.Leaving id) (hsound : d.Sound) (hstep : Step d d') :
    Notes d d' (Event.CloserAsks id) ∨ d'.Leaving id := by
  have hpast : d.closer.past ≠ true := by
    rw [h.draining]
    exact nofun
  have hlocal : d'.registry.isLocal id = true := by
    obtain hlocal | ⟨u, hu, hf, heq, -⟩ | ⟨-, ⟨u, hu, hf, hmoves⟩, -⟩ | hp := local_of_step h.here hstep
    · exact hlocal
    · have hmoves := h.settled u hu hf
      rw [heq] at hmoves
      exact absurd rfl (of_decide_eq_false hmoves)
    · exact nomatch (h.settled u hu hf).symm.trans hmoves
    · exact absurd hp hpast
  have hsettled : ∀ u ∈ d'.writings, u.inFlight = true → u.write.moves id = false := by
    intro u hu hf
    obtain ⟨old, hold, -, hwrite, hof⟩ | ⟨hopen, -⟩ := under_way_of_step hsound.accounts hstep hu hf
    · exact hwrite ▸ h.settled old hold hof
    · exact nomatch h.shut.symm.trans hopen
  obtain hcloser | ⟨hopen, -⟩ | hall | hp := closer_of_step hstep
  · exact .inr ⟨hcloser.trans h.draining, closing_of_step hstep h.shut, hlocal, hsettled⟩
  · exact nomatch h.shut.symm.trans hopen
  · obtain ⟨x, hx, rfl⟩ := hsound.stages.stored.mem_localMembers h.here
    exact .inl (hall x hx)
  · exact absurd hp hpast

/-- Close has begun before a registration takes up its answer. From here on the registration can only return that the client is
closed. -/
structure Overtaken (d : Errands) (w : Writing) (call : Nat) : Prop where
  shut : d.closing = true
  stage : d.Accepted w call ∨ (∃ c, { w with progress := .undoing c } ∈ d.writings) ∨
    { w with progress := .done (.error .closed) } ∈ d.writings

theorem Overtaken.step (h : d.Overtaken w call) (hsound : d.Sound) (hm : w.write = .register m) (hstep : Step d d') :
    d'.Overtaken w call := by
  refine ⟨closing_of_step hstep h.shut, ?_⟩
  obtain haccepted | ⟨c, hundoing⟩ | hdone := h.stage
  · obtain hstill | ⟨hopen, -⟩ | ⟨-, -, hundoing⟩ := haccepted.step hsound hm hstep
    · exact .inl hstill
    · exact nomatch h.shut.symm.trans hopen
    · exact .inr (.inl hundoing)
  · obtain hstill | ⟨x, p, hp, -⟩ | ⟨x, -, hdone⟩ := writing_of_step hsound.accounts hundoing hstep
    · exact .inr (.inl ⟨c, hstill⟩)
    · exact nomatch hp
    · exact .inr (.inr hdone)
  · obtain hstill | ⟨x, p, hp, -⟩ | ⟨x, hp, -⟩ := writing_of_step hsound.accounts hdone hstep
    · exact .inr (.inr hstill)
    · exact nomatch hp
    · exact nomatch hp

theorem Overtaken.result (h : d.Overtaken w call) (hsound : d.Sound) {result : Except Failure Unit}
    (hmem : .wrote w.id result ∈ d.log) : result = .error .closed := by
  obtain ⟨u, hu, hid, hp⟩ := hsound.accounts.returned w.id result hmem
  obtain haccepted | ⟨c, hundoing⟩ | hdone := h.stage
  · obtain rfl := hsound.accounts.same_write hu haccepted.mem hid
    exact nomatch hp.symm.trans haccepted.sending
  · obtain rfl := hsound.accounts.same_write hu hundoing hid
    exact nomatch hp
  · obtain rfl := hsound.accounts.same_write hu hdone hid
    exact (Progress.done.inj hp).symm

/-- Before close begins, the member of a registration that has returned Ok is local, unless the application has taken it away
since. -/
def Kept (d : Errands) : Prop :=
  d.closing = false → ∀ newer older k, d.log = newer ++ .wrote k (.ok ()) :: older → ∀ w ∈ d.writings, w.id = k →
    ∀ m, w.write = .register m → (∀ u ∈ d.writings, u.write = .unregister m.id → .wrote u.id (.ok ()) ∉ newer) →
      d.registry.isLocal m.id = true

theorem Kept.step (h : d.Kept) (hsound : d.Sound) (hstep : Step d d') : d'.Kept := by
  intro hopen' newer older k hlog w' hw' hid m hm hothers
  have hsound' := hsound.step hstep
  have hopen : d.closing = false := by
    rw [← Bool.not_eq_true]
    exact fun hc => nomatch hopen'.symm.trans (closing_of_step hstep hc)
  obtain ⟨events, hevents⟩ := log_of_step hstep
  -- Ok is returned in this very step, or was before.
  have hsplit : .wrote k (.ok ()) ∈ events ∨ ∃ rest, newer = events ++ rest ∧ d.log = rest ++ .wrote k (.ok ()) :: older := by
    obtain ⟨rest, hnewer, hrest⟩ | ⟨rest, rfl, hrest⟩ := List.append_eq_append_iff.mp (hevents.symm.trans hlog)
    · exact .inr ⟨rest, hnewer, hrest⟩
    · cases rest with
      | nil => exact .inr ⟨[], by simp, hrest.symm⟩
      | cons e rest =>
        obtain ⟨rfl, -⟩ := List.cons.inj hrest
        exact .inl (List.mem_append_right _ List.mem_cons_self)
  obtain hnow | ⟨rest, rfl, hbefore⟩ := hsplit
  · obtain ⟨w, hw, hwid, hlocal, -⟩ := local_of_ok hsound hstep hevents hnow
    obtain ⟨u, hu, huid, hwrite⟩ := write_of_step hsound.accounts hw hstep
    obtain rfl := hsound'.accounts.same_write hu hw' (huid.trans (hwid.trans hid.symm))
    exact hlocal m (hwrite.symm.trans hm)
  · have hreturned : .wrote k (.ok ()) ∈ d.log := hbefore ▸ List.mem_append_right _ List.mem_cons_self
    obtain ⟨w, hw, hwid, -⟩ := hsound.accounts.returned k (.ok ()) hreturned
    obtain ⟨u, hu, huid, hwrite⟩ := write_of_step hsound.accounts hw hstep
    obtain rfl := hsound'.accounts.same_write hu hw' (huid.trans (hwid.trans hid.symm))
    have hothers' {x : Writing} (hx : x ∈ d.writings) (hgone : x.write = .unregister m.id) :
        .wrote x.id (.ok ()) ∉ events ++ rest := by
      obtain ⟨y, hy, hyid, hywrite⟩ := write_of_step hsound.accounts hx hstep
      exact hyid ▸ hothers y hy (hywrite.trans hgone)
    have hlocal := h hopen rest older k hbefore w hw hwid m (hwrite.symm.trans hm) fun x hx hgone hmem =>
      hothers' hx hgone (List.mem_append_right _ hmem)
    obtain hlocal | ⟨x, hx, -, hgone, noted, hnoted, e, he, rfl⟩ | ⟨hshut, -⟩ | hpast := local_of_step hlocal hstep
    · exact hlocal
    · obtain rfl := List.append_cancel_right (hnoted.symm.trans hevents)
      exact absurd (List.mem_append_left _ he) (hothers' hx hgone)
    · exact nomatch hopen.symm.trans hshut
    · rw [hsound.stages.idle hopen] at hpast
      exact nomatch hpast

end Errands

end Roster.Session
