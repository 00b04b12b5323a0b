import Roster.Proofs.Link

/-! How a probe goes about its checks. What it waits, and whether it goes on, depends on how many checks failed in a row, and on
nothing else that happens to the link: it gives up with the check that is the first to fail as often as its policy allows. -/
namespace Roster

namespace Probe

variable {b : Backoff} {s : Settings} {p : Probe} {past : List Bool}

/-- How many checks failed since one passed. -/
def streak (outcomes : List Bool) : Nat := (outcomes.reverse.takeWhile (!·)).length

@[simp] theorem streak_nil : streak [] = 0 := rfl

theorem streak_append_singleton (past : List Bool) (passed : Bool) :
    streak (past ++ [passed]) = if passed then 0 else streak past + 1 := by
  cases passed <;> simp [streak]

/-- The last check is the first to complete as many failures in a row as there are retries. -/
structure GivesUp (b : Backoff) (outcomes : List Bool) : Prop where
  limited : b.maxRetries ≠ 0
  completed : streak outcomes = b.maxRetries.toNat
  first : ∀ n < outcomes.length, streak (outcomes.take n) < b.maxRetries.toNat

/-- No check has used up the retries. -/
def Spared (b : Backoff) (outcomes : List Bool) : Prop :=
  b.maxRetries ≠ 0 → ∀ n ≤ outcomes.length, streak (outcomes.take n) < b.maxRetries.toNat

theorem spared_nil : Spared b [] := by
  intro hlimited n _
  have hpos : 0 < b.maxRetries.toNat := by
    rw [Nat.pos_iff_ne_zero]
    exact fun h => hlimited (UInt64.toNat_inj.mp h)
  simpa using hpos

theorem Spared.streak_lt (h : Spared b past) (hlimited : b.maxRetries ≠ 0) : streak past < b.maxRetries.toNat := by
  simpa using h hlimited past.length (Nat.le_refl _)

theorem Spared.not_givesUp (h : Spared b past) : ¬ GivesUp b past := fun hup =>
  absurd hup.completed (Nat.ne_of_lt (h.streak_lt hup.limited))

theorem Spared.givesUp_iff (h : Spared b past) (passed : Bool) :
    GivesUp b (past ++ [passed]) ↔ b.maxRetries ≠ 0 ∧ streak (past ++ [passed]) = b.maxRetries.toNat := by
  refine ⟨fun hup => ⟨hup.limited, hup.completed⟩, fun ⟨hlimited, hcompleted⟩ => ⟨hlimited, hcompleted, fun n hn => ?_⟩⟩
  have hle : n ≤ past.length := Nat.le_of_lt_succ (by simpa using hn)
  rw [List.take_append_of_le_length hle]
  exact h hlimited n hle

theorem Spared.append_singleton {passed : Bool} (h : Spared b past) (hup : ¬ GivesUp b (past ++ [passed])) :
    Spared b (past ++ [passed]) := by
  intro hlimited n hn
  by_cases hle : n ≤ past.length
  · rw [List.take_append_of_le_length hle]
    exact h hlimited n hle
  · have hall : (past ++ [passed]).length ≤ n := by simp; omega
    have hne : streak (past ++ [passed]) ≠ b.maxRetries.toNat := fun he =>
      hup ((h.givesUp_iff passed).mpr ⟨hlimited, he⟩)
    have hlt := h.streak_lt hlimited
    rw [List.take_of_length_le hall]
    rw [streak_append_singleton] at hne ⊢
    split at hne <;> simp_all <;> omega

/-- A probe that gives up does so only once. -/
theorem not_givesUp_take {outcomes : List Bool} {n : Nat} (h : ¬ GivesUp b outcomes → Spared b outcomes)
    (hn : n < outcomes.length) : ¬ GivesUp b (outcomes.take n) := by
  intro hup
  refine absurd hup.completed (Nat.ne_of_lt ?_)
  by_cases hlast : GivesUp b outcomes
  · exact hlast.first n hn
  · exact h hlast hup.limited n (Nat.le_of_lt hn)

/-- While the retries are not used up, a check uses them up exactly if the policy calls its failures exhausting. -/
theorem Spared.exhausted_iff (h : Spared b past) :
    b.exhausted (UInt64.ofNat (streak past + 1)) = true ↔ b.maxRetries ≠ 0 ∧ streak past + 1 = b.maxRetries.toNat := by
  simp only [Backoff.exhausted, Bool.and_eq_true, bne_iff_ne, decide_eq_true_eq]
  refine and_congr_right fun hlimited => ?_
  have hlt := h.streak_lt hlimited
  have hfits : streak past + 1 < UInt64.size := Nat.lt_of_le_of_lt (Nat.succ_le_of_lt hlt) b.maxRetries.toNat_lt
  rw [UInt64.le_iff_toNat_le, UInt64.toNat_ofNat_of_lt' hfits]
  omega

/-- What a check makes of a probe that goes on so far. -/
theorem Spared.checked (h : Spared b past) (hfailures : p.failures = streak past) (hrunning : p.running = true)
    (passed : Bool) :
    (p.checked b passed).failures = streak (past ++ [passed]) ∧
      ((p.checked b passed).running = false ↔ GivesUp b (past ++ [passed])) := by
  cases passed with
  | true =>
    refine ⟨by simp [Probe.checked, streak_append_singleton], iff_of_false (by simp [Probe.checked, hrunning]) fun hup => ?_⟩
    have hnone : 0 = b.maxRetries.toNat := by simpa [streak_append_singleton] using hup.completed
    exact hup.limited (UInt64.toNat_inj.mp hnone.symm)
  | false =>
    refine ⟨by simp [Probe.checked, streak_append_singleton, hfailures], ?_⟩
    rw [h.givesUp_iff, streak_append_singleton, if_neg Bool.false_ne_true, ← h.exhausted_iff]
    simp [Probe.checked, hrunning, hfailures]

/-! The loop of checks -/

/-- What the policy has a probe wait after so many failures in a row. -/
def pause (s : Settings) : Nat → UInt64
  | 0 => s.healthCheckIntervalMs
  | k + 1 => s.reconnect.delayFor (UInt64.ofNat (k + 1))

theorem waitMs_eq (s : Settings) (p : Probe) : p.waitMs s = pause s p.failures := by
  unfold waitMs
  cases p.failures <;> rfl

theorem run_of_stopped (s : Settings) (hstopped : p.running = false) (outcomes : List Bool) : p.run s outcomes = ([], p) := by
  cases outcomes <;> simp [run, hstopped]

/-- From wherever a probe goes on, it waits as the policy says before each check, and the first check that uses up the retries is
its last. -/
theorem run_of_spared (h : Spared s.reconnect past) (hfailures : p.failures = streak past) (hrunning : p.running = true)
    (outcomes : List Bool) :
    ∃ n ≤ outcomes.length,
      (p.run s outcomes).1 = (List.range n).map (fun k => pause s (streak (past ++ outcomes.take k))) ∧
      ((p.run s outcomes).2.running = false ↔ GivesUp s.reconnect (past ++ outcomes.take n)) ∧
      (n < outcomes.length → GivesUp s.reconnect (past ++ outcomes.take n)) := by
  induction outcomes generalizing p past with
  | nil => exact ⟨0, Nat.le_refl 0, by simp [run], by simp [run, hrunning, h.not_givesUp], by simp⟩
  | cons passed rest ih =>
    obtain ⟨hnext, hstops⟩ := h.checked hfailures hrunning passed
    have hrun : p.run s (passed :: rest) =
        (pause s (streak past) :: ((p.checked s.reconnect passed).run s rest).1, ((p.checked s.reconnect passed).run s rest).2) := by
      simp [run, hrunning, waitMs_eq, hfailures]
    rw [hrun]
    cases hgoes : (p.checked s.reconnect passed).running with
    | false =>
      have hup : GivesUp s.reconnect (past ++ [passed]) := hstops.mp hgoes
      refine ⟨1, by simp, by simp [run_of_stopped s hgoes, List.range_one], ?_, fun _ => by simpa using hup⟩
      simp [run_of_stopped s hgoes, hgoes, hup]
    | true =>
      have hspared : Spared s.reconnect (past ++ [passed]) := h.append_singleton fun hup => by simp [hstops.mpr hup] at hgoes
      obtain ⟨n, hn, hwaits, hlast, hcut⟩ := ih hspared hnext hgoes
      refine ⟨n + 1, by simpa using hn, ?_, by simpa using hlast, fun hlt => by simpa using hcut (by simpa using hlt)⟩
      simp [hwaits, List.range_succ_eq_map, Function.comp_def]

end Probe

namespace Link

open Probe (streak pause Spared GivesUp)

variable {settings : Settings} {l l' : Link} {m : Move} {moves : List Move}

def Move.outcome? : Move → Option Bool
  | .probed passed => some passed
  | _ => none

/-- The outcomes of the checks among all that happened to a link. -/
def checks (moves : List Move) : List Bool := moves.filterMap Move.outcome?

theorem checks_append_singleton (moves : List Move) (m : Move) :
    checks (moves ++ [m]) = checks moves ++ m.outcome?.toList := by
  cases h : m.outcome? <;> simp [checks, h]

/-- Only checks and being told to stop act on the probe. -/
theorem of_other (h : l.step m = some l') (hcheck : m.outcome? = none) (hstop : m ≠ .stopped) :
    ∃ connectivity cancelled, l' = { l with connectivity, cancelled } := by
  cases m with
  | probed passed => simp [Move.outcome?] at hcheck
  | answered status =>
    obtain rfl := Option.some.inj h
    exact ⟨_, l.cancelled, answered_eq l status⟩
  | stopped => exact absurd rfl hstop
  | closed =>
    obtain ⟨-, -, rfl⟩ := of_closed h
    exact ⟨_, _, rfl⟩
  | terminated =>
    obtain rfl := Option.some.inj h
    exact ⟨_, _, rfl⟩
  | close =>
    obtain rfl := Option.some.inj h
    exact ⟨_, _, rfl⟩

theorem ready_probed_iff (hopen : l.connectivity ≠ .closed) (passed : Bool) :
    (l.probed passed).connectivity = .ready ↔ passed = true := by
  cases hc : l.connectivity with
  | closed => exact absurd hc hopen
  | _ => cases passed <;> simp [probed, hc, Connectivity.lost, Connectivity.restored]

/-- The probe of a link is where the checks among its moves brought it, unless it was stopped. -/
structure Probed (settings : Settings) (moves : List Move) (l : Link) : Prop where
  configured : l.settings = settings
  failures : l.probe.failures = streak (checks moves)
  spared : ¬ GivesUp settings.reconnect (checks moves) → Spared settings.reconnect (checks moves)
  stopped : l.probe.running = false ↔ GivesUp settings.reconnect (checks moves) ∨ .stopped ∈ moves
  told : .stopped ∈ moves → l.cancelled = true

theorem Probed.not_stopped (h : Probed settings moves l) (hrunning : l.probe.running = true) :
    Spared settings.reconnect (checks moves) ∧ .stopped ∉ moves := by
  have hnone : ¬ (GivesUp settings.reconnect (checks moves) ∨ .stopped ∈ moves) := fun hs => by
    simp [h.stopped.mpr hs] at hrunning
  exact ⟨h.spared fun hup => hnone (.inl hup), fun hmem => hnone (.inr hmem)⟩

/-- What is neither a check nor the stop of the probe. -/
theorem Probed.other (h : Probed settings moves l) (hstep : l.step m = some l') (hcheck : m.outcome? = none)
    (hstop : m ≠ .stopped) : Probed settings (moves ++ [m]) l' := by
  have hchecks : checks (moves ++ [m]) = checks moves := by simp [checks_append_singleton, hcheck]
  have hmem : .stopped ∈ moves ++ [m] ↔ .stopped ∈ moves := by simp [hstop.symm]
  have htold (hm : .stopped ∈ moves ++ [m]) : l'.cancelled = true :=
    (cancelled_of_step hstep).mpr (.inr (h.told (hmem.mp hm)))
  obtain ⟨connectivity, cancelled, rfl⟩ := of_other hstep hcheck hstop
  refine ⟨h.configured, ?_, ?_, ?_, htold⟩
  · rw [hchecks]
    exact h.failures
  · rw [hchecks]
    exact h.spared
  · rw [hchecks, hmem]
    exact h.stopped

theorem Probed.check {passed : Bool} (h : Probed settings moves l) (hstep : l.step (.probed passed) = some l') :
    Probed settings (moves ++ [.probed passed]) l' := by
  obtain ⟨hrunning, rfl⟩ := of_probed hstep
  obtain rfl := h.configured
  have hchecks : checks (moves ++ [.probed passed]) = checks moves ++ [passed] := checks_append_singleton moves _
  have hmem : .stopped ∈ moves ++ [.probed passed] ↔ .stopped ∈ moves := by simp
  obtain ⟨hspared, hnone⟩ := h.not_stopped hrunning
  obtain ⟨hfailures, hstops⟩ := hspared.checked h.failures hrunning passed
  refine ⟨rfl, by rw [hchecks]; exact hfailures, ?_, ?_, fun hm => absurd (hmem.mp hm) hnone⟩
  · rw [hchecks]
    exact hspared.append_singleton
  · rw [hchecks, hmem, or_iff_left hnone]
    exact hstops

theorem Probed.stop (h : Probed settings moves l) (hstep : l.step .stopped = some l') :
    Probed settings (moves ++ [.stopped]) l' := by
  obtain ⟨hcancelled, rfl⟩ := of_stopped hstep
  have hchecks : checks (moves ++ [.stopped]) = checks moves := by simp [checks_append_singleton, Move.outcome?]
  exact ⟨h.configured, by rw [hchecks]; exact h.failures, by rw [hchecks]; exact h.spared, by simp, fun _ => hcancelled⟩

theorem Probed.step (h : Probed settings moves l) (hstep : l.step m = some l') : Probed settings (moves ++ [m]) l' := by
  cases m with
  | probed passed => exact h.check hstep
  | stopped => exact h.stop hstep
  | answered status => exact h.other hstep rfl (by simp)
  | terminated => exact h.other hstep rfl (by simp)
  | close => exact h.other hstep rfl (by simp)
  | closed => exact h.other hstep rfl (by simp)

theorem probed_of_run {clientId : String} (hrun : run { clientId, settings } moves = some l) : Probed settings moves l := by
  induction moves using List.reverseRecOn generalizing l with
  | nil =>
    obtain rfl := Option.some.inj hrun
    have hspared : Spared settings.reconnect (checks []) := Probe.spared_nil
    exact ⟨rfl, rfl, fun _ => hspared, iff_of_false (by simp) (by simpa using hspared.not_givesUp), by simp⟩
  | append_singleton moves m ih =>
    rw [run, List.foldlM_append] at hrun
    obtain ⟨u, hu, hlast⟩ := Option.bind_eq_some_iff.mp hrun
    exact (ih hu).step (by simpa using hlast)

/-- Whatever the outcomes of its checks, a probe waits the interval before the first one and after each that passed, and what
its policy says after each that failed. It makes all checks up to the one that gives up, and only that one ends it. Among
answers, ends of streams and close it is the same probe: these count for nothing in what it waits and in when it gives up, and
nothing else ends it but being told to stop. Each check leaves the link ready if and only if it passed. -/
theorem probe_paced_by_policy (settings : Settings) (clientId : String) :
    (∀ outcomes, ∃ n ≤ outcomes.length,
      (Probe.run settings {} outcomes).1 = (List.range n).map (fun k => pause settings (streak (outcomes.take k))) ∧
      ((Probe.run settings {} outcomes).2.running = false ↔ GivesUp settings.reconnect (outcomes.take n)) ∧
      (n < outcomes.length → GivesUp settings.reconnect (outcomes.take n))) ∧
    ∀ moves l, run { clientId, settings } moves = some l →
      (Probe.run settings {} (checks moves)).1 =
        (List.range (checks moves).length).map (fun k => pause settings (streak ((checks moves).take k))) ∧
      l.probe.waitMs l.settings = pause settings (streak (checks moves)) ∧
      (l.probe.running = false ↔ GivesUp settings.reconnect (checks moves) ∨ .stopped ∈ moves) ∧
      (.stopped ∈ moves → .close ∈ moves) ∧
      (l.probe.running = true → ∀ passed, ∃ l', l.step (.probed passed) = some l' ∧
        (l'.probe.running = false ↔ GivesUp settings.reconnect (checks moves ++ [passed])) ∧
        l.connectivity ≠ .closed ∧ (l'.connectivity = .ready ↔ passed = true)) := by
  have hloop (outcomes : List Bool) := Probe.run_of_spared (p := {}) (Probe.spared_nil (b := settings.reconnect)) rfl rfl outcomes
  simp only [List.nil_append] at hloop
  refine ⟨hloop, fun moves l hrun => ?_⟩
  have h := probed_of_run hrun
  refine ⟨?_, by rw [Probe.waitMs_eq, h.configured, h.failures], h.stopped, fun hmem => ?_, fun hrunning passed => ?_⟩
  · obtain ⟨n, hn, hwaits, -, hcut⟩ := hloop (checks moves)
    obtain rfl : n = (checks moves).length := Nat.le_antisymm hn <| Nat.not_lt.mp fun hlt =>
      Probe.not_givesUp_take h.spared hlt (hcut hlt)
    exact hwaits
  · exact (told_of_run hrun (h.told hmem)).resolve_left (by simp)
  · have hstep : l.step (.probed passed) = some (l.probed passed) := if_pos hrunning
    have hnext : Probed settings (moves ++ [.probed passed]) (l.probed passed) := h.step hstep
    have hnone : .stopped ∉ moves := (h.not_stopped hrunning).2
    have hopen : l.connectivity ≠ .closed := fun hclosed => by simp [((sound_of_run hrun).closed hclosed).2] at hrunning
    have hends := hnext.stopped
    simp only [checks_append_singleton, Move.outcome?, Option.toList_some, List.mem_append, List.mem_singleton, reduceCtorEq,
      hnone, or_false] at hends
    exact ⟨_, hstep, hends, hopen, ready_probed_iff hopen passed⟩

def twoRetries : Settings := { reconnect := { maxRetries := 2 } }

/-- Failed checks and a failed call, but no two failed checks in a row. -/
def troubled : List Move := [.probed false, .probed true, .answered (some ⟨.unavailable, "down"⟩), .probed false]

/-- The next failed check is the second in a row, at which the probe gives up. -/
theorem second_in_a_row_ends_probe :
    (Probe.run twoRetries {} (checks troubled)).1 = [1000, 100, 1000] ∧
      ∃ l l', run { clientId := "a", settings := twoRetries } troubled = some l ∧ l.step (.probed false) = some l' ∧
        l.probe.running = true ∧ l'.probe.running = false ∧ l'.connectivity ≠ .ready := by
  obtain ⟨l, hrun, hgoes⟩ : ∃ l, run { clientId := "a", settings := twoRetries } troubled = some l ∧ l.probe.running = true :=
    ⟨_, rfl, rfl⟩
  obtain ⟨hwaits, -, -, -, hcheck⟩ := (probe_paced_by_policy twoRetries "a").2 troubled l hrun
  obtain ⟨l', hstep, hends, -, hready⟩ := hcheck hgoes false
  have hup : GivesUp twoRetries.reconnect (checks troubled ++ [false]) := ⟨by decide, by decide, by decide⟩
  exact ⟨hwaits.trans (by decide), l, l', hrun, hstep, hgoes, hends.mpr hup, fun h => by simp [hready] at h⟩

end Link

end Roster
