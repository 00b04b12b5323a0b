import Roster.Link
import Roster.Proofs.Registry.Run

/-! How the connectivity of a link moves, over every interleaving of checks, answers, ends of streams and close. Only a loss
takes it from ready, only a passed check brings it back; closed is final, and a probe that gave up leaves it lost. -/
namespace Roster

theorem Failure.isRejection_ofStatus (s : Status) : (Failure.ofStatus s).isRejection = !s.code.undecided := by
  unfold Failure.ofStatus
  cases s.code.undecided <;> rfl

namespace Link

variable {l l' : Link} {m : Move} {moves : List Move}

/-- The move shows that the connection does not work: a failed check, an answer without a decision of the registry, or the end
of a stream. -/
def Move.loses : Move → Bool
  | .probed passed => !passed
  | .answered (some s) => s.code.undecided
  | .terminated => true
  | _ => false

/-! One move -/

theorem of_probed {passed : Bool} (h : l.step (.probed passed) = some l') : l.probe.running = true ∧ l' = l.probed passed := by
  obtain ⟨hr, h⟩ := Option.ite_none_right_eq_some.mp h
  exact ⟨hr, (Option.some.inj h).symm⟩

theorem of_stopped (h : l.step .stopped = some l') :
    l.cancelled = true ∧ l' = { l with probe := { l.probe with running := false } } := by
  obtain ⟨⟨hc, -⟩, h⟩ := Option.ite_none_right_eq_some.mp h
  exact ⟨hc, (Option.some.inj h).symm⟩

theorem of_closed (h : l.step .closed = some l') :
    l.cancelled = true ∧ l.probe.running = false ∧ l' = { l with connectivity := .closed } := by
  obtain ⟨⟨hc, hr⟩, h⟩ := Option.ite_none_right_eq_some.mp h
  exact ⟨hc, by simpa using hr, (Option.some.inj h).symm⟩

theorem answered_of_decided {s : Status} (h : s.code.undecided = false) : l.answered (some s) = l := by
  simp [answered, Failure.isRejection_ofStatus, h]

theorem answered_of_undecided {s : Status} (h : s.code.undecided = true) : l.answered (some s) = l.markLost := by
  simp [answered, Failure.isRejection_ofStatus, h]

/-- An answer moves nothing but the connectivity. -/
theorem answered_eq (l : Link) (status : Option Status) :
    l.answered status = { l with connectivity := (l.answered status).connectivity } := by
  cases status with
  | none => rfl
  | some s =>
    cases hu : s.code.undecided with
    | true => rw [answered_of_undecided hu]; rfl
    | false => rw [answered_of_decided hu]

/-- All that a move does to the connectivity. -/
theorem connectivity_of_step (h : l.step m = some l') :
    l'.connectivity =
      if m = .closed then .closed
      else if m = .probed true then l.connectivity.restored
      else if m.loses then l.connectivity.lost
      else l.connectivity := by
  cases m with
  | probed passed =>
    obtain ⟨-, rfl⟩ := of_probed h
    cases passed <;> rfl
  | answered status =>
    obtain rfl := Option.some.inj h
    cases status with
    | none => rfl
    | some s =>
      cases hu : s.code.undecided with
      | true =>
        rw [answered_of_undecided hu]
        simp [markLost, Move.loses, hu]
      | false =>
        rw [answered_of_decided hu]
        simp [Move.loses, hu]
  | terminated =>
    obtain rfl := Option.some.inj h
    rfl
  | close =>
    obtain rfl := Option.some.inj h
    rfl
  | stopped =>
    obtain ⟨-, rfl⟩ := of_stopped h
    rfl
  | closed =>
    obtain ⟨-, -, rfl⟩ := of_closed h
    rfl

/-- A probe that has stopped does not check again. -/
theorem running_of_step (h : l.step m = some l') (hr : l.probe.running = false) : l'.probe.running = false := by
  cases m with
  | probed passed => exact nomatch hr.symm.trans (of_probed h).1
  | answered status =>
    obtain rfl := Option.some.inj h
    rw [answered_eq]
    exact hr
  | stopped =>
    obtain ⟨-, rfl⟩ := of_stopped h
    rfl
  | closed =>
    obtain ⟨-, -, rfl⟩ := of_closed h
    exact hr
  | _ =>
    obtain rfl := Option.some.inj h
    exact hr

/-- A link told to close stays so, and only close tells it. -/
theorem cancelled_of_step (h : l.step m = some l') : l'.cancelled = true ↔ m = .close ∨ l.cancelled = true := by
  cases m with
  | probed passed =>
    obtain ⟨-, rfl⟩ := of_probed h
    simp [probed]
  | answered status =>
    obtain rfl := Option.some.inj h
    rw [answered_eq]
    simp
  | terminated =>
    obtain rfl := Option.some.inj h
    simp [markLost]
  | close =>
    obtain rfl := Option.some.inj h
    simp
  | stopped =>
    obtain ⟨-, rfl⟩ := of_stopped h
    simp
  | closed =>
    obtain ⟨-, -, rfl⟩ := of_closed h
    simp

/-! Runs -/

/-- What a link shows fits what its probe does. -/
structure Sound (l : Link) : Prop where
  begun : l.connectivity ≠ .connecting
  closed : l.connectivity = .closed → l.cancelled = true ∧ l.probe.running = false

theorem Sound.step (h : l.Sound) (hstep : l.step m = some l') : l'.Sound where
  begun := by
    rw [connectivity_of_step hstep]
    cases hc : l.connectivity with
    | connecting => exact absurd hc h.begun
    | _ => split_ifs <;> exact nofun
  closed := by
    intro hclosed
    by_cases hm : m = .closed
    · subst hm
      obtain ⟨hc, hr, rfl⟩ := of_closed hstep
      exact ⟨hc, hr⟩
    · have hbefore : l.connectivity = .closed := by
        rw [connectivity_of_step hstep, if_neg hm] at hclosed
        cases hc : l.connectivity with
        | closed => rfl
        | _ =>
          rw [hc] at hclosed
          split_ifs at hclosed <;> exact nomatch hclosed
      obtain ⟨hc, hr⟩ := h.closed hbefore
      exact ⟨(cancelled_of_step hstep).mpr (.inr hc), running_of_step hstep hr⟩

theorem sound_of_run {clientId : String} {settings : Settings} (hrun : run { clientId, settings } moves = some l) : l.Sound :=
  foldlM_induction hrun ⟨nofun, nofun⟩ fun _ _ _ h hstep => h.step hstep

theorem told_of_run (hrun : l.run moves = some l') (hc : l'.cancelled = true) : l.cancelled = true ∨ .close ∈ moves := by
  induction moves generalizing l with
  | nil => exact .inl (Option.some.inj hrun ▸ hc)
  | cons m moves ih =>
    rw [run, List.foldlM_cons] at hrun
    obtain ⟨u, hu, hrest⟩ := Option.bind_eq_some_iff.mp hrun
    obtain hu' | hmem := ih hrest
    · obtain rfl | hl := (cancelled_of_step hu).mp hu'
      · exact .inr List.mem_cons_self
      · exact .inl hl
    · exact .inr (List.mem_cons_of_mem m hmem)

/-- Closed for good. -/
theorem closed_of_run (hrun : l.run moves = some l') (hc : l.connectivity = .closed) : l'.connectivity = .closed := by
  refine foldlM_induction (P := fun u => u.connectivity = .closed) hrun hc fun u v m hu hstep => ?_
  rw [connectivity_of_step hstep, hu]
  split_ifs <;> rfl

/-- Without its probe, a link that is not ready does not become so. -/
theorem not_ready_of_run (hrun : l.run moves = some l') (hr : l.probe.running = false) (hc : l.connectivity ≠ .ready) :
    l'.connectivity ≠ .ready := by
  have hall : l'.probe.running = false ∧ l'.connectivity ≠ .ready := by
    refine foldlM_induction (P := fun u => u.probe.running = false ∧ u.connectivity ≠ .ready) hrun ⟨hr, hc⟩
      fun u v m ⟨hu, hn⟩ hstep => ⟨running_of_step hstep hu, ?_⟩
    have hm : m ≠ .probed true := by
      rintro rfl
      exact nomatch hu.symm.trans (of_probed hstep).1
    rw [connectivity_of_step hstep, if_neg hm]
    cases hready : u.connectivity with
    | ready => exact absurd hready hn
    | _ => split_ifs <;> exact nofun
  exact hall.2

/-! The connectivity as a state machine -/

/-- What can still become of the connectivity of a link. -/
structure Governed (l : Link) : Prop where
  /-- A ready link is lost by the moves that show a loss, and by no other. -/
  lost : l.connectivity = .ready → ∀ m l', l.step m = some l' → (l'.connectivity = .disconnected ↔ m.loses = true)
  /-- Losses can come at any time, failed checks as long as the probe runs. -/
  heard : ∀ m, m.loses = true → (m = .probed false → l.probe.running = true) → ∃ l', l.step m = some l'
  /-- A lost link is restored by a check that passes, and by nothing else. -/
  restored : l.connectivity = .disconnected → ∀ m l', l.step m = some l' → (l'.connectivity = .ready ↔ m = .probed true)
  /-- What was not closed becomes so by the last move of close, and by nothing else. -/
  closes : l.connectivity ≠ .closed → ∀ m l', l.step m = some l' → (l'.connectivity = .closed ↔ m = .closed)
  /-- Closed for good, also when an answer, the end of a stream or the outcome of a check comes late. -/
  final : l.connectivity = .closed →
    (∀ moves l', l.run moves = some l' → l'.connectivity = .closed) ∧ (∀ status, l.step (.answered status) = some l) ∧
      l.step .terminated = some l ∧ ∀ passed, l.step (.probed passed) = none ∧ (l.probed passed).connectivity = .closed
  /-- A refusal is a decision of the registry, and changes nothing. -/
  refused : ∀ s, (Failure.ofStatus s).isRejection = true → l.step (.answered (some s)) = some l
  /-- When a failed check makes the probe give up, the link is never ready again. -/
  givenUp : ∀ l', l.step (.probed false) = some l' → l'.probe.running = false →
    ∀ moves l'', l'.run moves = some l'' → l''.connectivity ≠ .ready

theorem Sound.governed (h : l.Sound) : l.Governed where
  lost := by
    intro hc m l' hstep
    rw [connectivity_of_step hstep, hc]
    by_cases hm : m = .closed
    · rw [if_pos hm, hm]
      exact ⟨nofun, nofun⟩
    by_cases hp : m = .probed true
    · rw [if_neg hm, if_pos hp, hp]
      exact ⟨nofun, nofun⟩
    · rw [if_neg hm, if_neg hp]
      cases m.loses <;> simp [Connectivity.lost]
  heard := by
    intro m hloses hrunning
    cases m with
    | probed passed =>
      cases passed with
      | false => exact ⟨_, if_pos (hrunning rfl)⟩
      | true => exact nomatch hloses
    | answered status => exact ⟨_, rfl⟩
    | terminated => exact ⟨_, rfl⟩
    | _ => exact nomatch hloses
  restored := by
    intro hc m l' hstep
    rw [connectivity_of_step hstep, hc]
    by_cases hm : m = .closed
    · rw [if_pos hm, hm]
      exact ⟨nofun, nofun⟩
    by_cases hp : m = .probed true
    · rw [if_neg hm, if_pos hp]
      exact iff_of_true rfl hp
    · rw [if_neg hm, if_neg hp]
      refine iff_of_false ?_ hp
      split_ifs <;> exact nofun
  closes := by
    intro hc m l' hstep
    rw [connectivity_of_step hstep]
    by_cases hm : m = .closed
    · exact iff_of_true (if_pos hm) hm
    · rw [if_neg hm]
      refine iff_of_false ?_ hm
      cases hl : l.connectivity with
      | closed => exact absurd hl hc
      | _ => split_ifs <;> exact nofun
  final := by
    intro hc
    have hlost : l.connectivity.lost = l.connectivity := by rw [hc]; rfl
    have hmark : l.markLost = l := by rw [markLost, hlost]
    refine ⟨fun moves l' hrun => closed_of_run hrun hc, fun status => ?_, congrArg some hmark, fun passed => ⟨?_, ?_⟩⟩
    · refine congrArg some ?_
      cases status with
      | none => rfl
      | some s =>
        cases hu : s.code.undecided with
        | true => exact (answered_of_undecided hu).trans hmark
        | false => exact answered_of_decided hu
    · exact if_neg (by rw [(h.closed hc).2]; exact Bool.false_ne_true)
    · unfold probed
      rw [hc]
      cases passed <;> rfl
  refused := by
    intro s hs
    exact congrArg some (answered_of_decided (by simpa [Failure.isRejection_ofStatus] using hs))
  givenUp := by
    intro l' hstep hr moves l'' hrun
    refine not_ready_of_run hrun hr ?_
    rw [connectivity_of_step hstep]
    cases hc : l.connectivity with
    | connecting => exact absurd hc h.begun
    | _ => exact nofun

/-- The connectivity of a link is governed as described in every run, and is closed only after close was called. -/
theorem connectivity_governed {clientId : String} {settings : Settings}
    (hrun : run { clientId, settings } moves = some l) : l.Governed ∧ (l.connectivity = .closed → .close ∈ moves) := by
  have hsound := sound_of_run hrun
  refine ⟨hsound.governed, fun hc => ?_⟩
  exact (told_of_run hrun (hsound.closed hc).1).resolve_left nofun

/-- A refusal, a loss and a recovery. -/
def recovering : List Move :=
  [.answered (some ⟨.notFound, "no such member"⟩), .answered (some ⟨.unavailable, "down"⟩), .probed true]

/-- A probe with one retry gives up at the next failed check; then the link is closed. -/
theorem governed_to_the_end :
    ∃ l l' u, run { clientId := "a", settings := { reconnect := { maxRetries := 1 } } } recovering = some l ∧
      l.connectivity = .ready ∧ l.step (.probed false) = some l' ∧ l'.connectivity = .disconnected ∧
      (∀ moves v, l'.run moves = some v → v.connectivity ≠ .ready) ∧ l'.run [.close, .closed] = some u ∧
      (∀ moves v, u.run moves = some v → v.connectivity = .closed) ∧ Governed u := by
  obtain ⟨l, l', u, hl, hready, hstep, hstopped, hclose, hclosed, hu⟩ : ∃ l l' u,
      run { clientId := "a", settings := { reconnect := { maxRetries := 1 } } } recovering = some l ∧
      l.connectivity = .ready ∧ l.step (.probed false) = some l' ∧ l'.probe.running = false ∧
      l'.run [.close, .closed] = some u ∧ u.connectivity = .closed ∧
      run { clientId := "a", settings := { reconnect := { maxRetries := 1 } } }
        (recovering ++ [.probed false, .close, .closed]) = some u :=
    ⟨_, _, _, rfl, rfl, rfl, rfl, rfl, rfl, rfl⟩
  have hgoverned := (connectivity_governed hl).1
  have hlost := (hgoverned.lost hready (.probed false) l' hstep).mpr rfl
  have hend := (connectivity_governed hu).1
  exact ⟨l, l', u, hl, hready, hstep, hlost, hgoverned.givenUp l' hstep hstopped, hclose, (hend.final hclosed).1, hend⟩

end Link

end Roster
