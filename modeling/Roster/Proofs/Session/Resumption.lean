import Roster.Proofs.Registry.Replica
import Roster.Proofs.Session.Course
import Roster.Proofs.Session.Errands.Record
import Roster.Proofs.Session.History

/-! How an epoch comes to its subscribe call: it first registers the client's own members again, and every answer is in before
it asks for the stream or sends a heartbeat. -/
namespace Roster.Session

variable {settings : Settings} {connectivity : Connectivity} {now : Nat} {moves : List Move}
variable {s t u : Session} {id : Nat} {m : Move} {c : Course}

/-- An answer that has come is on record. -/
theorem answered_on_record (hrun : (start settings connectivity now).run moves = some s) {call : Nat}
    (ha : s.answered call = true) : ∃ time a, (time, .answered call a) ∈ s.history := by
  obtain ⟨a, ha⟩ := Option.isSome_iff_exists.mp ha
  obtain ⟨k, hk, hka⟩ := Option.bind_eq_some_iff.mp ha
  have hlog : .answered call a ∈ s.errands.log := ((recorded_of_run hrun).given call k hk a).mpr hka
  obtain ⟨⟨time, e⟩, hmem, rfl⟩ := List.mem_map.mp (List.mem_filter.mp hlog).1
  exact ⟨time, a, hmem⟩

/-! The stages of an epoch -/

/-- Before it restores, an epoch asks for nothing. -/
def Course.Fresh (c : Course) : Prop :=
  c.runner = none ∨ c.runner = some .starting → c.asked = [] ∧ (c.heart = none ∨ c.heart = some .absent)

/-- While it waits for its registrations, an epoch has asked for nothing else. -/
def Course.Restoring (calls : List Nat) (registrations : List (Nat × Request)) (c : Course) : Prop :=
  ∃ r, c.runner = some r ∧ r ≠ .starting ∧
    ∀ held, r = .restoring held → held = calls ∧ (c.heart = none ∨ c.heart = some .absent) ∧ c.asked = registrations

/-- Once it has asked for the stream, an epoch asks for nothing but heartbeats. -/
def Course.Resumed (before : List (Nat × Request)) (c : Course) : Prop :=
  (∃ r, c.runner = some r ∧ r ≠ .starting ∧ ∀ held, r ≠ .restoring held) ∧
    ∃ beats, c.asked = beats ++ before ∧ ∀ x ∈ beats, x.2 = .heartbeat

namespace Course.Turn

theorem fresh (h : Turn s id m c) (hf : (s.course id).Fresh) : c.Fresh := by
  cases h with
  | rest => exact hf
  | begin ha hnone => exact fun _ => ⟨(hf (.inl hnone)).1, .inr rfl⟩
  | restore hr => intro hc; simp at hc
  | resume calls deadline hr ha => intro hc; simp at hc
  | run old new hr ho hn =>
    intro hc
    rcases hn with rfl | ⟨i, rfl⟩ <;> simp at hc
  | beat deadline next hh =>
    intro hc
    have habsent := (hf hc).2
    rcases hh with hh | ⟨due, hh⟩ <;> simp [hh] at habsent
  | pulse old new hh ho hn =>
    intro hc
    have habsent := (hf hc).2
    rw [hh] at habsent
    simp [ho.1] at habsent

theorem restoring {calls : List Nat} {registrations : List (Nat × Request)} (h : Turn s id m c)
    (hr : (s.course id).Restoring calls registrations) : c.Restoring calls registrations := by
  obtain ⟨r, hrunner, hstarted, hheld⟩ := hr
  cases h with
  | rest => exact ⟨r, hrunner, hstarted, hheld⟩
  | begin ha hnone => simp [hnone] at hrunner
  | restore hs => exact absurd (Option.some.inj (hrunner.symm.trans hs)) hstarted
  | resume calls' deadline _ _ => exact ⟨_, rfl, by simp, by simp⟩
  | run old new _ _ hn =>
    refine ⟨new, rfl, ?_, ?_⟩ <;> rcases hn with rfl | ⟨i, rfl⟩ <;> simp
  | beat deadline next hh =>
    refine ⟨r, hrunner, hstarted, fun held hrh => ?_⟩
    have habsent := (hheld held hrh).2.1
    rcases hh with hh | ⟨due, hh⟩ <;> simp [hh] at habsent
  | pulse old new hh ho _ =>
    refine ⟨r, hrunner, hstarted, fun held hrh => ?_⟩
    have habsent := (hheld held hrh).2.1
    simp [hh, ho.1] at habsent

theorem resumed {before : List (Nat × Request)} (h : Turn s id m c) (hr : (s.course id).Resumed before) : c.Resumed before := by
  obtain ⟨⟨r, hrunner, hstarted, hheld⟩, beats, hasked, hbeats⟩ := hr
  cases h with
  | rest => exact ⟨⟨r, hrunner, hstarted, hheld⟩, beats, hasked, hbeats⟩
  | begin ha hnone => simp [hnone] at hrunner
  | restore hs => exact absurd (Option.some.inj (hrunner.symm.trans hs)) hstarted
  | resume calls deadline hs _ => exact absurd (Option.some.inj (hrunner.symm.trans hs)) (hheld calls)
  | run old new _ _ hn =>
    refine ⟨⟨new, rfl, ?_, ?_⟩, beats, hasked, hbeats⟩ <;> rcases hn with rfl | ⟨i, rfl⟩ <;> simp
  | beat deadline next _ =>
    refine ⟨⟨r, hrunner, hstarted, hheld⟩, (s.lastCall + 1, .heartbeat) :: beats, ?_, ?_⟩
    · exact congrArg _ hasked
    · simpa using hbeats
  | pulse old new _ _ _ => exact ⟨⟨r, hrunner, hstarted, hheld⟩, beats, hasked, hbeats⟩

/-- Only a restore makes an epoch wait for registrations. -/
theorem of_restoring (h : Turn s id m c) (hs : ¬∃ calls, (s.course id).runner = some (.restoring calls)) {calls : List Nat}
    (hc : c.runner = some (.restoring calls)) :
    m = .restore id ∧ (s.course id).runner = some .starting ∧
      calls = (List.range s.registry.localMembers.length).map (s.lastCall + 1 + ·) ∧ c.heart = (s.course id).heart ∧
      c.asked = s.nextCalls (s.registry.localMembers.map .register) ++ (s.course id).asked := by
  cases h with
  | rest => exact absurd ⟨calls, hc⟩ hs
  | begin _ _ => simp at hc
  | restore hr => exact ⟨rfl, hr, by simpa using hc.symm, rfl, rfl⟩
  | resume calls deadline _ _ => simp at hc
  | run old new _ _ hn => rcases hn with rfl | ⟨i, rfl⟩ <;> simp at hc
  | beat deadline next _ => exact absurd ⟨calls, hc⟩ hs
  | pulse old new _ _ _ => exact absurd ⟨calls, hc⟩ hs

/-- An epoch asks for the stream when every answer it waited for is in. -/
theorem of_subscribe (h : Turn s id m c) {call : Nat} {known : Keyed Version}
    (hs : (call, .subscribe known) ∉ (s.course id).asked) (hc : (call, .subscribe known) ∈ c.asked) :
    m = .openStream id ∧ known = s.registry.knownVersions ∧ call = s.lastCall + 1 ∧ c.Resumed c.asked ∧
      c.asked = (call, .subscribe known) :: (s.course id).asked ∧
      ∃ calls, (s.course id).runner = some (.restoring calls) ∧ ∀ x ∈ calls, s.answered x = true := by
  cases h with
  | rest => exact absurd hc hs
  | begin _ _ => exact absurd hc hs
  | restore _ =>
    have hnew := (List.mem_append.mp hc).resolve_right hs
    obtain ⟨m, -, heq⟩ := List.mem_map.mp (request_of_mem_nextCalls hnew)
    simp at heq
  | resume calls deadline hr ha =>
    have hnew : (call, .subscribe known) = (s.lastCall + 1, Request.subscribe s.registry.knownVersions) :=
      (List.mem_cons.mp hc).resolve_right hs
    obtain ⟨rfl, hknown⟩ := Prod.mk.inj hnew
    obtain rfl := Request.subscribe.inj hknown
    exact ⟨rfl, rfl, rfl, ⟨⟨_, rfl, by simp, by simp⟩, [], rfl, by simp⟩, rfl, calls, hr, ha⟩
  | run _ _ _ _ _ => exact absurd hc hs
  | beat deadline next _ =>
    have hnew := (List.mem_cons.mp hc).resolve_right hs
    simp at hnew
  | pulse _ _ _ _ _ => exact absurd hc hs

end Course.Turn

/-! Resumption -/

/-- An epoch took its snapshot of the client's own members in `r` and asked for the stream in `t`, on the way to `u`. -/
structure Resumption (id call time : Nat) (known : Keyed Version) (r t u : Session) : Prop where
  owned : ∀ m, m ∈ r.registry.localMembers ↔ r.registry.isLocal m.id = true ∧ r.registry.member? m.id = some m
  distinct : (r.registry.localMembers.map (·.id)).Nodup
  /-- Each of them was registered by one call, as it was in the snapshot; the epoch had asked for nothing else. -/
  restored : asked (.epoch id) t.history = r.nextCalls (r.registry.localMembers.map .register)
  answered : ∀ x ∈ asked (.epoch id) t.history, ∃ noted a, (noted, .answered x.1 a) ∈ t.history
  subscribed : ∃ t', t.step (.openStream id) = some t' ∧
    t'.history = (time, .called call (.epoch id) (.subscribe known)) :: t.history
  /-- Heartbeats alone follow. -/
  afterwards : ∃ beats, asked (.epoch id) u.history = beats ++ (call, .subscribe known) :: asked (.epoch id) t.history ∧
    ∀ x ∈ beats, x.2 = .heartbeat
  current : known = t.registry.knownVersions
  foreign : ∀ member, t.registry.isLocal member = true → known[member]? = none
  versioned : ∀ member e, t.registry.entries[member]? = some e → t.registry.isLocal member = false → known[member]? = e.version

theorem fresh_of_run (hrun : (start settings connectivity now).run moves = some s) (id : Nat) : (s.course id).Fresh :=
  run_induction (P := fun v => (v.course id).Fresh) hrun (fun _ => ⟨rfl, .inl rfl⟩) fun _ _ _ hv hmove =>
    (turn_of_step hmove).fresh hv

theorem resumed_of_run {before : List (Nat × Request)} (hrun : s.run moves = some u) (h : (s.course id).Resumed before) :
    (u.course id).Resumed before :=
  run_induction (P := fun v => (v.course id).Resumed before) hrun h fun _ _ _ hv hmove => (turn_of_step hmove).resumed hv

/-- An epoch that waits for registrations began them at one moment, and has done nothing since. -/
theorem restore_of_restoring (hrun : (start settings connectivity now).run moves = some t) {calls : List Nat}
    (hcalls : (t.course id).runner = some (.restoring calls)) :
    ∃ before between r, moves = before ++ .restore id :: between ∧ (start settings connectivity now).run before = some r ∧
      r.run (.restore id :: between) = some t ∧
      calls = (List.range r.registry.localMembers.length).map (r.lastCall + 1 + ·) ∧
      asked (.epoch id) t.history = r.nextCalls (r.registry.localMembers.map .register) := by
  obtain ⟨before, n, between, r, r', rfl, hbefore, hnot, hstep, ⟨held, hheld⟩, hbetween⟩ :=
    exists_step_of_run (P := fun v => ∃ calls, (v.course id).runner = some (.restoring calls)) hrun (by simp [course, start, epoch?])
      ⟨calls, hcalls⟩
  have hturn : Course.Turn r id n (r'.course id) := turn_of_step hstep
  obtain ⟨rfl, hstarting, hids, hheart, hasked⟩ := hturn.of_restoring hnot hheld
  obtain ⟨hnone, habsent⟩ := fresh_of_run hbefore id (.inr hstarting)
  rw [hnone, List.append_nil] at hasked
  have hrestoring : (r'.course id).Restoring held (r.nextCalls (r.registry.localMembers.map .register)) := by
    refine ⟨_, hheld, by simp, fun x hx => ?_⟩
    exact ⟨(Runner.restoring.inj hx).symm, hheart ▸ habsent, hasked⟩
  have hrest : (t.course id).Restoring held (r.nextCalls (r.registry.localMembers.map .register)) :=
    run_induction (P := fun v => (v.course id).Restoring held _) hbetween hrestoring fun _ _ _ hv hmove =>
      (turn_of_step hmove).restoring hv
  obtain ⟨runner, hrunner, -, hkept⟩ := hrest
  obtain ⟨rfl, -, hblock⟩ := hkept calls (Option.some.inj (hrunner.symm.trans hcalls))
  refine ⟨before, between, r, rfl, hbefore, ?_, hids, hblock⟩
  rw [run_cons, hstep]
  exact hbetween

/-- In every run, whenever an epoch asks for the stream it has registered the client's own members again, once each and as they
were at one earlier moment, and every answer has come. It tells the server the versions it knows at that time. -/
theorem resumes_when_restored (hrun : (start settings connectivity now).run moves = some u) {time call id : Nat}
    {known : Keyed Version} (hcalled : (time, .called call (.epoch id) (.subscribe known)) ∈ u.history) :
    ∃ before between after r t, moves = before ++ .restore id :: (between ++ .openStream id :: after) ∧
      (start settings connectivity now).run before = some r ∧ r.run (.restore id :: between) = some t ∧
      t.run (.openStream id :: after) = some u ∧ Resumption id call time known r t u := by
  obtain ⟨earlier, n, after, t, t', rfl, hearlier, hnot, hstep, hmem, hafter⟩ :=
    exists_step_of_run (P := fun v => (call, .subscribe known) ∈ (v.course id).asked) hrun (by simp [course, start, asked])
      (mem_asked hcalled)
  have hturn : Course.Turn t id n (t'.course id) := turn_of_step hstep
  obtain ⟨rfl, rfl, rfl, hresumed, hasked, calls, hcalls, hanswered⟩ := hturn.of_subscribe hnot hmem
  obtain ⟨before, between, r, rfl, hbefore, hbetween, rfl, hblock⟩ := restore_of_restoring hearlier hcalls
  have hstored : r.registry.Stored := (sound_errands hbefore).stages.stored
  obtain ⟨-, beats, hbeats, honly⟩ := resumed_of_run hafter hresumed
  have hids (x : Nat × Request) (hx : x ∈ asked (.epoch id) t.history) :
      x.1 ∈ (List.range r.registry.localMembers.length).map (r.lastCall + 1 + ·) := by
    rw [hblock] at hx
    simpa using id_of_mem_nextCalls hx
  have hhistory : t'.history = (t.now, .called (t.lastCall + 1) (.epoch id) (.subscribe t.registry.knownVersions)) :: t.history := by
    obtain ⟨e, calls, -, -, -, rfl⟩ := of_openStream hstep
    rfl
  -- The call is made once, so what was noted of it was noted here.
  have htime : time = t.now := by
    obtain ⟨newer, hnewer⟩ := history_run hafter
    have hsplit : asked (.epoch id) newer ++ (t'.course id).asked = beats ++ (t'.course id).asked := by
      rw [← hbeats]
      exact (asked_append _ _ _).symm.trans (congrArg _ hnewer.symm)
    rw [hnewer, hhistory] at hcalled
    rcases List.mem_append.mp hcalled with hlate | hcalled
    · have hbeat := honly _ (List.append_cancel_right hsplit ▸ mem_asked hlate)
      simp at hbeat
    · rcases List.mem_cons.mp hcalled with heq | hearly
      · exact congrArg Prod.fst heq
      · exact absurd (mem_asked hearly) hnot
  refine ⟨before, between, after, r, t, by simp, hbefore, hbetween, ?_, ?_⟩
  · rw [run_cons, hstep]
    exact hafter
  · exact {
      owned := hstored.mem_localMembers_iff
      distinct := hstored.nodup_localMembers
      restored := hblock
      answered := fun x hx => answered_on_record hearlier (hanswered x.1 (hids x hx))
      subscribed := ⟨t', hstep, htime ▸ hhistory⟩
      afterwards := ⟨beats, hasked ▸ hbeats, honly⟩
      current := rfl
      foreign := fun member hl => by simp [Registry.getElem?_knownVersions, hl]
      versioned := fun member e he hl => by simp [Registry.getElem?_knownVersions, he, hl] }

/-- A member is streamed to the first epoch and one is registered, then the transport reconnects. The server refuses nothing, but
cannot be reached when the second epoch registers the client's member again. -/
def reconnected : List Move :=
  [.watchStart, .restore 1, .openStream 1, .answer 1 none, .opened 1,
    .push 0 (.update (.ofRegister (Member.new "b" "web") ⟨"n", 1⟩)), .take 1,
    .write (.register (Member.new "a" "mine")), .answer 2 none, .proceed 0,
    .report .disconnected, .watchChange, .stopRunner 1, .stopHeart 1, .report .ready, .watchChange,
    .restore 2, .answer 3 (some (.unavailable "down")), .openStream 2, .beat 2]

theorem second_epoch_resumes :
    ∃ u known before between after r t, (start {} .ready 0).run reconnected = some u ∧ known["b"]? = some ⟨"n", 1⟩ ∧
      reconnected = before ++ .restore 2 :: (between ++ .openStream 2 :: after) ∧ (start {} .ready 0).run before = some r ∧
      r.run (.restore 2 :: between) = some t ∧ t.run (.openStream 2 :: after) = some u ∧ Resumption 2 4 0 known r t u := by
  obtain ⟨u, known, hu, hcalled, hknown⟩ : ∃ u known, (start {} .ready 0).run reconnected = some u ∧
      u.history[1]? = some (0, .called 4 (.epoch 2) (.subscribe known)) ∧ known["b"]? = some ⟨"n", 1⟩ :=
    ⟨_, _, rfl, rfl, by decide +kernel⟩
  obtain ⟨before, between, after, r, t, hsplit, hr, ht, hlast, hresumption⟩ :=
    resumes_when_restored hu (List.mem_of_getElem? hcalled)
  exact ⟨u, known, before, between, after, r, t, hu, hknown, hsplit, hr, ht, hlast, hresumption⟩

end Roster.Session
