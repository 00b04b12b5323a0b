import Roster.Proofs.Session.Errands

/-! The accounts of a session, open or not: a call has one task that waits for it, which alone takes up its answer, and a write
is on record as returned when it has returned. -/
namespace Roster.Session

/-- The member a write is about. -/
def Write.member : Write → String
  | .register m => m.id
  | .updateMetadata id _ => id
  | .unregister id => id

/-- The call a write waits for, and what it asked. -/
def Writing.awaits (w : Writing) : Option (Nat × Request) :=
  match w.progress with
  | .sending call => some (call, w.write.request)
  | .undoing call => some (call, .unregister w.write.member)
  | .done _ => none

namespace Errands

variable {d d' : Errands}

/-- Calls have numbers of their own, and what the tasks of an epoch or the shutdown wait for is theirs. -/
structure Filed (d : Errands) : Prop where
  known : ∀ c k, d.calls c = some k → k.id = c ∧ c ≤ d.lastCall
  tasks : ∀ id, ∀ c ∈ d.tasks id, c ≤ d.lastCall ∧ ∀ k, d.calls c = some k → k.caller = .epoch id
  closer : ∀ c ∈ d.closer.awaited, c ≤ d.lastCall ∧ ∀ k, d.calls c = some k → k.caller = .closer

structure Accounts (d : Errands) : Prop extends Filed d where
  numbered : d.writings.map (·.id) = List.range d.writings.length
  writing : ∀ w ∈ d.writings, ∀ c r, w.awaits = some (c, r) → ∃ k, d.calls c = some k ∧ k.caller = .write w.id ∧ k.request = r
  owed : ∀ c k id, d.calls c = some k → k.caller = .write id → ∃ w ∈ d.writings, w.id = id ∧ w.awaits = some (c, k.request)
  returned : ∀ id result, .wrote id result ∈ d.log → ∃ w ∈ d.writings, w.id = id ∧ w.progress = .done result
  noted : ∀ w ∈ d.writings, ∀ result, w.progress = .done result → .wrote w.id result ∈ d.log

/-! Calls -/

theorem calls_settle {ids : List Nat} {c : Nat} {k : Call} : (d.settle ids).calls c = some k ↔ d.calls c = some k ∧ c ∉ ids := by
  show (if c ∈ ids then none else d.calls c) = some k ↔ _
  split
  · next hc => simp [hc]
  · next hc => simp [hc]

theorem calls_give {id c : Nat} {a : Answer} {k : Call} :
    (d.give id a).calls c = some k ↔
      ∃ old, d.calls c = some old ∧ k = if old.id = id then { old with answer := some a } else old := by
  show (d.calls c).map _ = some k ↔ _
  rw [Option.map_eq_some_iff]
  simp only [eq_comm]

/-- What beginning calls does to the rest. -/
theorem beginAll_eq (d : Errands) (caller : Caller) (requests : List Request) :
    d.beginAll caller requests = { d with
      calls := (d.beginAll caller requests).calls
      lastCall := d.lastCall + requests.length
      log := (d.beginAll caller requests).log } := by
  induction requests generalizing d with
  | nil => rfl
  | cons r rs ih =>
    have hrest := ih (d.begin caller r)
    have hlast : (d.begin caller r).lastCall + rs.length = d.lastCall + (rs.length + 1) := Nat.succ_add_eq_add_succ _ _
    rw [hlast] at hrest
    exact hrest

theorem mem_next {n c : Nat} : c ∈ d.next n ↔ d.lastCall < c ∧ c ≤ d.lastCall + n := by
  simp only [next, List.mem_map, List.mem_range]
  constructor
  · rintro ⟨i, hi, rfl⟩
    omega
  · rintro ⟨hlt, hle⟩
    exact ⟨c - (d.lastCall + 1), by omega, by omega⟩

/-- A call in flight was there before, or is the new one. -/
theorem of_calls_begin {caller : Caller} {request : Request} {c : Nat} {k : Call}
    (hk : (d.begin caller request).calls c = some k) :
    d.calls c = some k ∨ (c = d.lastCall + 1 ∧ k = { id := d.lastCall + 1, caller, request }) := by
  obtain hold | ⟨-, hnew⟩ := Option.or_eq_some_iff.mp hk
  · exact .inl hold
  · split at hnew
    · next heq => exact .inr ⟨heq.symm, (Option.some.inj hnew).symm⟩
    · exact nomatch hnew

theorem calls_begin_old {c : Nat} {k : Call} (hk : d.calls c = some k) (caller : Caller) (request : Request) :
    (d.begin caller request).calls c = some k := by
  show (d.calls c).or _ = _
  rw [hk]
  rfl

theorem calls_beginAll_old {c : Nat} {k : Call} (hk : d.calls c = some k) (caller : Caller) (requests : List Request) :
    (d.beginAll caller requests).calls c = some k := by
  induction requests generalizing d with
  | nil => exact hk
  | cons r rs ih => exact ih (calls_begin_old hk caller r)

/-- What is waited for next belongs to who began it. -/
theorem caller_of_next {caller : Caller} {requests : List Request} (hknown : ∀ c k, d.calls c = some k → c ≤ d.lastCall) {c : Nat}
    (hc : c ∈ d.next requests.length) {k : Call} (hk : (d.beginAll caller requests).calls c = some k) : k.caller = caller := by
  obtain ⟨hlt, hle⟩ := mem_next.mp hc
  induction requests generalizing d with
  | nil => exact absurd hle (by simpa using hlt)
  | cons r rs ih =>
    by_cases hfirst : c = d.lastCall + 1
    · have hnone : d.calls c = none := by
        rw [Option.eq_none_iff_forall_ne_some]
        intro x hx
        exact absurd (hknown c x hx) (by omega)
      have hnew : (d.begin caller r).calls c = some { id := d.lastCall + 1, caller, request := r } := by
        show (d.calls c).or _ = _
        rw [hnone, if_pos hfirst.symm]
        rfl
      obtain rfl := Option.some.inj ((calls_beginAll_old hnew caller rs).symm.trans hk)
      rfl
    · have hlt : (d.begin caller r).lastCall < c := by
        show d.lastCall + 1 < c
        omega
      have hle : c ≤ (d.begin caller r).lastCall + rs.length := by
        show c ≤ d.lastCall + 1 + rs.length
        rw [List.length_cons] at hle
        omega
      refine ih (fun x y hxy => ?_) (mem_next.mpr ⟨hlt, hle⟩) hk hlt hle
      obtain hold | ⟨rfl, -⟩ := of_calls_begin hxy
      · exact Nat.le_succ_of_le (hknown x y hold)
      · exact Nat.le_refl _

/-- Every call that begins is on record. -/
theorem log_beginAll (d : Errands) (caller : Caller) (requests : List Request) :
    ∃ events, (d.beginAll caller requests).log = events ++ d.log ∧ (∀ r ∈ requests, ∃ c, .called c caller r ∈ events) ∧
      ∀ e ∈ events, ∃ c r, e = .called c caller r := by
  induction requests generalizing d with
  | nil => exact ⟨[], rfl, nofun, nofun⟩
  | cons r rs ih =>
    obtain ⟨events, hlog, hmade, honly⟩ := ih (d.begin caller r)
    refine ⟨events ++ [.called (d.lastCall + 1) caller r], ?_, fun x hx => ?_, fun e he => ?_⟩
    · rw [List.append_assoc]
      exact hlog
    · obtain rfl | hx := List.mem_cons.mp hx
      · exact ⟨d.lastCall + 1, List.mem_append_right _ (List.mem_singleton_self _)⟩
      · obtain ⟨c, hc⟩ := hmade x hx
        exact ⟨c, List.mem_append_left _ hc⟩
    · obtain he | he := List.mem_append.mp he
      · exact honly e he
      · exact ⟨_, _, List.mem_singleton.mp he⟩

/-! Writes -/

theorem Accounts.same_write (h : d.Accounts) {w w' : Writing} (hw : w ∈ d.writings) (hw' : w' ∈ d.writings)
    (hid : w.id = w'.id) : w = w' := by
  have hnodup : (d.writings.map (·.id)).Nodup := h.numbered ▸ List.nodup_range
  exact List.inj_on_of_nodup_map hnodup hw hw' hid

theorem mem_setProgress {id : Nat} {p : Progress} {w : Writing} :
    w ∈ (d.setProgress id p).writings ↔
      (∃ old ∈ d.writings, old.id = id ∧ w = { old with progress := p }) ∨ w ∈ d.writings ∧ w.id ≠ id := by
  simp only [setProgress, List.mem_map]
  constructor
  · rintro ⟨old, hold, rfl⟩
    split
    · next hid => exact .inl ⟨old, hold, hid, rfl⟩
    · next hne => exact .inr ⟨hold, hne⟩
  · rintro (⟨old, hold, hid, rfl⟩ | ⟨hw, hne⟩)
    · exact ⟨old, hold, if_pos hid⟩
    · exact ⟨w, hw, if_neg hne⟩

/-- Only the task that waits for a call takes it up. -/
theorem Accounts.not_awaited_by_epoch (h : d.Accounts) {id : Nat} {gone : List Nat} (hgone : ∀ c ∈ gone, c ∈ d.tasks id)
    {w : Writing} (hw : w ∈ d.writings) {c : Nat} {r : Request} (ha : w.awaits = some (c, r)) : c ∉ gone := by
  intro hc
  obtain ⟨k, hk, hcaller, -⟩ := h.writing w hw c r ha
  exact nomatch hcaller.symm.trans ((h.tasks id c (hgone c hc)).2 k hk)

theorem Accounts.not_awaited_by_closer (h : d.Accounts) {gone : List Nat} (hgone : ∀ c ∈ gone, c ∈ d.closer.awaited)
    {w : Writing} (hw : w ∈ d.writings) {c : Nat} {r : Request} (ha : w.awaits = some (c, r)) : c ∉ gone := by
  intro hc
  obtain ⟨k, hk, hcaller, -⟩ := h.writing w hw c r ha
  exact nomatch hcaller.symm.trans ((h.closer c (hgone c hc)).2 k hk)

theorem Accounts.not_awaited_by_other (h : d.Accounts) {w w' : Writing} (hw : w ∈ d.writings) (hw' : w' ∈ d.writings)
    (hne : w.id ≠ w'.id) {c c' : Nat} {r r' : Request} (ha : w.awaits = some (c, r)) (ha' : w'.awaits = some (c', r')) :
    c ≠ c' := by
  rintro rfl
  obtain ⟨k, hk, hcaller, -⟩ := h.writing w hw c r ha
  obtain ⟨k', hk', hcaller', -⟩ := h.writing w' hw' c r' ha'
  obtain rfl := Option.some.inj (hk.symm.trans hk')
  exact hne (Caller.write.inj (hcaller.symm.trans hcaller'))

theorem of_mem_notified {deliveries : List (Nat × List Member)} {e : Event}
    (he : e ∈ (deliveries.map fun x => Event.notified x.1 x.2).reverse) : ∃ n members, e = .notified n members := by
  rw [List.mem_reverse, List.mem_map] at he
  obtain ⟨x, -, rfl⟩ := he
  exact ⟨x.1, x.2, rfl⟩

/-- A callback that begins is not a write that returns. -/
theorem not_wrote_of_notified {deliveries : List (Nat × List Member)} {k : Nat} {result : Except Failure Unit} :
    .wrote k result ∉ (deliveries.map fun x => Event.notified x.1 x.2).reverse := by
  intro he
  obtain ⟨n, members, heq⟩ := of_mem_notified he
  exact nomatch heq

/-! What each part of a step keeps -/

theorem Filed.begin (h : d.Filed) (caller : Caller) (request : Request) : (d.begin caller request).Filed := by
  have hkept {c : Nat} {task : Caller} (hold : c ≤ d.lastCall ∧ ∀ k, d.calls c = some k → k.caller = task) :
      c ≤ d.lastCall + 1 ∧ ∀ k, (d.begin caller request).calls c = some k → k.caller = task := by
    refine ⟨Nat.le_succ_of_le hold.1, fun k hk => ?_⟩
    obtain hk | ⟨rfl, -⟩ := of_calls_begin hk
    · exact hold.2 k hk
    · exact absurd hold.1 (Nat.not_succ_le_self _)
  refine ⟨fun c k hk => ?_, fun id c hc => hkept (h.tasks id c hc), fun c hc => hkept (h.closer c hc)⟩
  obtain hk | ⟨rfl, rfl⟩ := of_calls_begin hk
  · exact ⟨(h.known c k hk).1, Nat.le_succ_of_le (h.known c k hk).2⟩
  · exact ⟨rfl, Nat.le_refl _⟩

theorem Filed.settle (h : d.Filed) (ids : List Nat) : (d.settle ids).Filed where
  known := fun c k hk => h.known c k (calls_settle.mp hk).1
  tasks := fun id c hc => ⟨(h.tasks id c hc).1, fun k hk => (h.tasks id c hc).2 k (calls_settle.mp hk).1⟩
  closer := fun c hc => ⟨(h.closer c hc).1, fun k hk => (h.closer c hc).2 k (calls_settle.mp hk).1⟩

/-- An answer does not change whose call it is. -/
theorem of_calls_give {id c : Nat} {a : Answer} {k : Call} (hk : (d.give id a).calls c = some k) :
    ∃ old, d.calls c = some old ∧ k.id = old.id ∧ k.caller = old.caller ∧ k.request = old.request := by
  obtain ⟨old, hold, rfl⟩ := calls_give.mp hk
  refine ⟨old, hold, ?_⟩
  split <;> exact ⟨rfl, rfl, rfl⟩

theorem Filed.give (h : d.Filed) (id : Nat) (a : Answer) : (d.give id a).Filed := by
  refine ⟨fun c k hk => ?_, fun e c hc => ⟨(h.tasks e c hc).1, fun k hk => ?_⟩, fun c hc => ⟨(h.closer c hc).1, fun k hk => ?_⟩⟩
  · obtain ⟨old, hold, hid, -, -⟩ := of_calls_give hk
    exact hid ▸ h.known c old hold
  · obtain ⟨old, hold, -, hcaller, -⟩ := of_calls_give hk
    exact hcaller.trans ((h.tasks e c hc).2 old hold)
  · obtain ⟨old, hold, -, hcaller, -⟩ := of_calls_give hk
    exact hcaller.trans ((h.closer c hc).2 old hold)

namespace Accounts

/-- Events that are not about writes leave the record of those. -/
theorem record (h : d.Accounts) {events : List Event} (he : ∀ e ∈ events, ∀ id result, e ≠ .wrote id result) :
    Accounts { d with log := events ++ d.log } := by
  refine { h with
    returned := fun id result hmem => ?_
    noted := fun w hw result hr => List.mem_append_right _ (h.noted w hw result hr) }
  obtain hmem | hmem := List.mem_append.mp hmem
  · exact absurd rfl (he _ hmem id result)
  · exact h.returned id result hmem

theorem perform (h : d.Accounts) (op : Registry.Op) : (d.perform op).Accounts := by
  have hdeliveries : ∀ e ∈ ((d.registry.perform op).deliveries.map fun x => Event.notified x.1 x.2).reverse,
      ∀ id result, e ≠ .wrote id result := by
    rintro e he id result rfl
    exact not_wrote_of_notified he
  exact { h.record hdeliveries with }

/-- An epoch or the shutdown begins a call. -/
theorem begin (h : d.Accounts) {caller : Caller} (hcaller : ∀ id, caller ≠ .write id) (request : Request) :
    (d.begin caller request).Accounts where
  toFiled := h.toFiled.begin caller request
  numbered := h.numbered
  writing := by
    intro w hw c r ha
    obtain ⟨k, hk, hrest⟩ := h.writing w hw c r ha
    exact ⟨k, calls_begin_old hk caller request, hrest⟩
  owed := by
    intro c k id hk hid
    obtain hk | ⟨-, rfl⟩ := of_calls_begin hk
    · exact h.owed c k id hk hid
    · exact absurd hid (hcaller id)
  returned := fun id result hmem => h.returned id result ((List.mem_cons.mp hmem).resolve_left nofun)
  noted := fun w hw result hr => List.mem_cons_of_mem _ (h.noted w hw result hr)

theorem beginAll (h : d.Accounts) {caller : Caller} (hcaller : ∀ id, caller ≠ .write id) (requests : List Request) :
    (d.beginAll caller requests).Accounts := by
  induction requests generalizing d with
  | nil => exact h
  | cons r rs ih => exact ih (h.begin hcaller r)

/-- Answers are taken up that no write waits for. -/
theorem settle (h : d.Accounts) {ids : List Nat}
    (hfree : ∀ w ∈ d.writings, ∀ c r, w.awaits = some (c, r) → c ∉ ids) : (d.settle ids).Accounts where
  toFiled := h.toFiled.settle ids
  numbered := h.numbered
  writing := by
    intro w hw c r ha
    obtain ⟨k, hk, hrest⟩ := h.writing w hw c r ha
    exact ⟨k, calls_settle.mpr ⟨hk, hfree w hw c r ha⟩, hrest⟩
  owed := fun c k id hk hid => h.owed c k id (calls_settle.mp hk).1 hid
  returned := h.returned
  noted := h.noted

theorem give (h : d.Accounts) (id : Nat) (a : Answer) : (d.give id a).Accounts where
  toFiled := h.toFiled.give id a
  numbered := h.numbered
  writing := by
    intro w hw c r ha
    obtain ⟨k, hk, hcaller, hrequest⟩ := h.writing w hw c r ha
    refine ⟨_, calls_give.mpr ⟨k, hk, rfl⟩, ?_, ?_⟩ <;> split <;> assumption
  owed := by
    intro c k e hk hid
    obtain ⟨old, hold, -, hcaller, hrequest⟩ := of_calls_give hk
    rw [hrequest]
    exact h.owed c old e hold (hcaller.symm.trans hid)
  returned := fun e result hmem => h.returned e result ((List.mem_cons.mp hmem).resolve_left nofun)
  noted := fun w hw result hr => List.mem_cons_of_mem _ (h.noted w hw result hr)

theorem hold (h : d.Accounts) {id : Nat} {calls : List Nat}
    (hc : ∀ c ∈ calls, c ≤ d.lastCall ∧ ∀ k, d.calls c = some k → k.caller = .epoch id) : (d.hold id calls).Accounts := by
  refine { h with tasks := fun e c hmem => ?_ }
  have hmem : c ∈ if e = id then calls else d.tasks e := hmem
  split at hmem
  · next he => exact he ▸ hc c hmem
  · exact h.tasks e c hmem

theorem setCloser (h : d.Accounts) {closer : Closer}
    (hc : ∀ c ∈ closer.awaited, c ≤ d.lastCall ∧ ∀ k, d.calls c = some k → k.caller = .closer) : Accounts { d with closer } :=
  { h with closer := hc }

/-! Writes that begin, turn and end -/

theorem not_done {w : Writing} {c : Nat} {r : Request} (ha : w.awaits = some (c, r)) (result : Except Failure Unit) :
    w.progress ≠ .done result := by
  intro hp
  unfold Writing.awaits at ha
  rw [hp] at ha
  exact nomatch ha

theorem refuse (h : d.Accounts) (w : Write) (f : Failure) :
    ((d.enter w (.done (.error f))).note (.wrote d.writings.length (.error f))).Accounts := by
  refine { h with numbered := ?numbered, writing := ?writing, owed := ?owed, returned := ?returned, noted := ?noted }
  case numbered =>
    show (d.writings ++ [_]).map _ = List.range (d.writings ++ [_]).length
    rw [List.map_append, h.numbered, List.length_append, List.length_singleton, List.range_succ]
    rfl
  case writing =>
    intro x hx c r ha
    obtain hx | hx := List.mem_append.mp hx
    · exact h.writing x hx c r ha
    · rw [List.mem_singleton.mp hx] at ha
      exact nomatch ha
  case owed =>
    intro c k id hk hid
    obtain ⟨x, hx, hrest⟩ := h.owed c k id hk hid
    exact ⟨x, List.mem_append_left _ hx, hrest⟩
  case returned =>
    intro id result hmem
    obtain heq | hmem := List.mem_cons.mp hmem
    · obtain ⟨rfl, rfl⟩ := Event.wrote.inj heq
      exact ⟨_, List.mem_append_right _ (List.mem_singleton_self _), rfl, rfl⟩
    · obtain ⟨x, hx, hrest⟩ := h.returned id result hmem
      exact ⟨x, List.mem_append_left _ hx, hrest⟩
  case noted =>
    intro x hx result hr
    obtain hx | hx := List.mem_append.mp hx
    · exact List.mem_cons_of_mem _ (h.noted x hx result hr)
    · rw [List.mem_singleton.mp hx] at hr ⊢
      rw [Progress.done.inj hr]
      exact List.mem_cons_self

theorem write (h : d.Accounts) (w : Write) :
    ((d.begin (.write d.writings.length) w.request).enter w (.sending (d.lastCall + 1))).Accounts := by
  have hfiled := h.toFiled.begin (.write d.writings.length) w.request
  have hnew : (d.begin (.write d.writings.length) w.request).calls (d.lastCall + 1) =
      some { id := d.lastCall + 1, caller := .write d.writings.length, request := w.request } := by
    have hnone : d.calls (d.lastCall + 1) = none := by
      rw [Option.eq_none_iff_forall_ne_some]
      exact fun k hk => Nat.not_succ_le_self _ (h.known _ k hk).2
    show (d.calls _).or _ = _
    rw [hnone, if_pos rfl]
    rfl
  refine { hfiled with numbered := ?numbered, writing := ?writing, owed := ?owed, returned := ?returned, noted := ?noted }
  case numbered =>
    show (d.writings ++ [_]).map _ = List.range (d.writings ++ [_]).length
    rw [List.map_append, h.numbered, List.length_append, List.length_singleton, List.range_succ]
    rfl
  case writing =>
    intro x hx c r ha
    obtain hx | hx := List.mem_append.mp hx
    · obtain ⟨k, hk, hrest⟩ := h.writing x hx c r ha
      exact ⟨k, calls_begin_old hk _ _, hrest⟩
    · rw [List.mem_singleton.mp hx] at ha ⊢
      obtain ⟨rfl, rfl⟩ := Prod.mk.inj (Option.some.inj ha)
      exact ⟨_, hnew, rfl, rfl⟩
  case owed =>
    intro c k id hk hid
    obtain hk | ⟨rfl, rfl⟩ := of_calls_begin hk
    · obtain ⟨x, hx, hrest⟩ := h.owed c k id hk hid
      exact ⟨x, List.mem_append_left _ hx, hrest⟩
    · exact ⟨_, List.mem_append_right _ (List.mem_singleton_self _), Caller.write.inj hid, rfl⟩
  case returned =>
    intro id result hmem
    obtain ⟨x, hx, hrest⟩ := h.returned id result ((List.mem_cons.mp hmem).resolve_left nofun)
    exact ⟨x, List.mem_append_left _ hx, hrest⟩
  case noted =>
    intro x hx result hr
    obtain hx | hx := List.mem_append.mp hx
    · exact List.mem_cons_of_mem _ (h.noted x hx result hr)
    · rw [List.mem_singleton.mp hx] at hr
      exact nomatch hr

theorem map_id_setProgress (d : Errands) (id : Nat) (p : Progress) :
    (d.setProgress id p).writings.map (·.id) = d.writings.map (·.id) := by
  show (d.writings.map _).map _ = _
  rw [List.map_map]
  refine List.map_congr_left fun w _ => ?_
  simp only [Function.comp]
  split <;> rfl

theorem numbered_setProgress (h : d.Accounts) (id : Nat) (p : Progress) :
    (d.setProgress id p).writings.map (·.id) = List.range (d.setProgress id p).writings.length := by
  rw [map_id_setProgress, h.numbered]
  exact congrArg List.range (List.length_map _).symm

/-- A write takes up its answer and returns. -/
theorem return_ (h : d.Accounts) {w : Writing} (hw : w ∈ d.writings) {call : Nat} {r : Request}
    (ha : w.awaits = some (call, r)) (result : Except Failure Unit) :
    ((d.settle [call]).returnWrite w.id result).Accounts := by
  refine { h.toFiled.settle [call] with
    numbered := h.numbered_setProgress w.id _, writing := ?writing, owed := ?owed, returned := ?returned, noted := ?noted }
  case writing =>
    intro x hx c q hxa
    obtain ⟨old, -, -, rfl⟩ | ⟨hx, hne⟩ := mem_setProgress.mp hx
    · exact nomatch hxa
    · obtain ⟨k, hk, hrest⟩ := h.writing x hx c q hxa
      exact ⟨k, calls_settle.mpr ⟨hk, by simpa using h.not_awaited_by_other hx hw hne hxa ha⟩, hrest⟩
  case owed =>
    intro c k id hk hid
    obtain ⟨hk, hc⟩ := calls_settle.mp hk
    obtain ⟨x, hx, hxid, hxa⟩ := h.owed c k id hk hid
    refine ⟨x, mem_setProgress.mpr (.inr ⟨hx, fun hsame => ?_⟩), hxid, hxa⟩
    obtain rfl := h.same_write hx hw hsame
    obtain ⟨rfl, -⟩ := Prod.mk.inj (Option.some.inj (hxa.symm.trans ha))
    exact hc (List.mem_singleton_self _)
  case returned =>
    intro id result' hmem
    obtain heq | hmem := List.mem_cons.mp hmem
    · obtain ⟨rfl, rfl⟩ := Event.wrote.inj heq
      exact ⟨_, mem_setProgress.mpr (.inl ⟨w, hw, rfl, rfl⟩), rfl, rfl⟩
    · obtain ⟨x, hx, hxid, hxp⟩ := h.returned id result' hmem
      refine ⟨x, mem_setProgress.mpr (.inr ⟨hx, fun hsame => ?_⟩), hxid, hxp⟩
      obtain rfl := h.same_write hx hw hsame
      exact not_done ha _ hxp
  case noted =>
    intro x hx result' hr
    obtain ⟨old, -, hid, rfl⟩ | ⟨hx, -⟩ := mem_setProgress.mp hx
    · rw [← Progress.done.inj hr, hid]
      exact List.mem_cons_self
    · exact List.mem_cons_of_mem _ (h.noted x hx result' hr)

/-- A registration takes up its answer and asks for the contrary. -/
theorem undo (h : d.Accounts) {w : Writing} (hw : w ∈ d.writings) {call : Nat} {r : Request}
    (ha : w.awaits = some (call, r)) :
    (((d.settle [call]).begin (.write w.id) (.unregister w.write.member)).setProgress w.id
      (.undoing (d.lastCall + 1))).Accounts := by
  have hnone : (d.settle [call]).calls (d.lastCall + 1) = none := by
    rw [Option.eq_none_iff_forall_ne_some]
    exact fun k hk => Nat.not_succ_le_self _ (h.known _ k (calls_settle.mp hk).1).2
  have hnew : ((d.settle [call]).begin (.write w.id) (.unregister w.write.member)).calls (d.lastCall + 1) =
      some { id := d.lastCall + 1, caller := .write w.id, request := .unregister w.write.member } := by
    show ((d.settle [call]).calls _).or _ = _
    rw [hnone]
    exact if_pos rfl
  refine { (h.toFiled.settle [call]).begin (.write w.id) (.unregister w.write.member) with
    numbered := h.numbered_setProgress w.id _, writing := ?writing, owed := ?owed, returned := ?returned, noted := ?noted }
  case writing =>
    intro x hx c q hxa
    obtain ⟨old, hold, hid, rfl⟩ | ⟨hx, hne⟩ := mem_setProgress.mp hx
    · obtain rfl := h.same_write hold hw hid
      obtain ⟨rfl, rfl⟩ := Prod.mk.inj (Option.some.inj hxa)
      exact ⟨_, hnew, rfl, rfl⟩
    · obtain ⟨k, hk, hrest⟩ := h.writing x hx c q hxa
      have hk' : (d.settle [call]).calls c = some k :=
        calls_settle.mpr ⟨hk, by simpa using h.not_awaited_by_other hx hw hne hxa ha⟩
      exact ⟨k, calls_begin_old hk' _ _, hrest⟩
  case owed =>
    intro c k id hk hid
    obtain hk | ⟨rfl, rfl⟩ := of_calls_begin hk
    · obtain ⟨hk, hc⟩ := calls_settle.mp hk
      obtain ⟨x, hx, hxid, hxa⟩ := h.owed c k id hk hid
      refine ⟨x, mem_setProgress.mpr (.inr ⟨hx, fun hsame => ?_⟩), hxid, hxa⟩
      obtain rfl := h.same_write hx hw hsame
      obtain ⟨rfl, -⟩ := Prod.mk.inj (Option.some.inj (hxa.symm.trans ha))
      exact hc (List.mem_singleton_self _)
    · exact ⟨_, mem_setProgress.mpr (.inl ⟨w, hw, rfl, rfl⟩), Caller.write.inj hid, rfl⟩
  case returned =>
    intro id result hmem
    obtain ⟨x, hx, hxid, hxp⟩ := h.returned id result ((List.mem_cons.mp hmem).resolve_left nofun)
    refine ⟨x, mem_setProgress.mpr (.inr ⟨hx, fun hsame => ?_⟩), hxid, hxp⟩
    obtain rfl := h.same_write hx hw hsame
    exact not_done ha _ hxp
  case noted =>
    intro x hx result hr
    obtain ⟨old, -, hid, rfl⟩ | ⟨hx, -⟩ := mem_setProgress.mp hx
    · exact nomatch hr
    · exact List.mem_cons_of_mem _ (h.noted x hx result hr)

theorem release (h : d.Accounts) : d.release.Accounts := by
  have hbegin : (d.begin .closer .close).Accounts := h.begin (by simp) .close
  refine { hbegin with closer := fun c hc => ?_ }
  obtain rfl := List.mem_singleton.mp hc
  refine ⟨Nat.le_refl _, fun k hk => ?_⟩
  exact caller_of_next (fun c k hk => (h.known c k hk).2) (mem_next.mpr ⟨Nat.lt_succ_self _, Nat.le_refl _⟩)
    (show (d.beginAll .closer [.close]).calls _ = some k from hk)

theorem turn (h : d.Accounts) {id : Nat} {gone held : List Nat} {requests : List Request}
    (hgone : ∀ c ∈ gone, c ∈ d.tasks id) (hheld : ∀ c ∈ held, c ∈ d.tasks id ∨ c ∈ d.next requests.length) :
    (((d.settle gone).beginAll (.epoch id) requests).hold id held).Accounts := by
  have hsettle : (d.settle gone).Accounts := h.settle fun w hw c r ha => h.not_awaited_by_epoch hgone hw ha
  have hall : ((d.settle gone).beginAll (.epoch id) requests).Accounts := hsettle.beginAll (by simp) requests
  refine hall.hold fun c hc => ?_
  obtain hc | hc := hheld c hc
  · refine hall.tasks id c ?_
    rw [beginAll_eq]
    exact hc
  · refine ⟨?_, fun k hk => caller_of_next (fun c k hk => (hsettle.known c k hk).2) hc hk⟩
    rw [beginAll_eq]
    exact (mem_next.mp hc).2

theorem drain (h : d.Accounts) (requests : List Request) (deadline : Nat) :
    Accounts { d.beginAll .closer requests with closer := .unregistering (d.next requests.length) deadline } := by
  have hall : (d.beginAll .closer requests).Accounts := h.beginAll (by simp) requests
  refine hall.setCloser fun c hc => ⟨?_, fun k hk => caller_of_next (fun c k hk => (h.known c k hk).2) hc hk⟩
  rw [beginAll_eq]
  exact (mem_next.mp hc).2

theorem awaits_sending {w : Writing} {call : Nat} (hp : w.progress = .sending call) :
    w.awaits = some (call, w.write.request) := by
  unfold Writing.awaits
  rw [hp]

theorem awaits_undoing {w : Writing} {call : Nat} (hp : w.progress = .undoing call) :
    w.awaits = some (call, .unregister w.write.member) := by
  unfold Writing.awaits
  rw [hp]

theorem step (h : d.Accounts) (hstep : Step d d') : d'.Accounts := by
  cases hstep with
  | perform op _ => exact h.perform op
  | turn id gone held requests hgone hheld => exact h.turn hgone hheld
  | answer id k a _ _ => exact h.give id a
  | refuse w f => exact h.refuse w f
  | write w _ => exact h.write w
  | reject w call code reason k hw hp _ _ => exact h.return_ hw (awaits_sending hp) _
  | register w m call hm haccepted _ => exact (h.perform _).return_ haccepted.mem (awaits_sending haccepted.sending) _
  | undo w m call hm haccepted _ =>
    have hundo := ((h.perform (.registerLocal m)).perform (.unregisterLocal m.id)).undo haccepted.mem
      (awaits_sending haccepted.sending)
    rw [hm] at hundo
    exact hundo
  | update w member delta call result hm haccepted =>
    exact (h.perform _).return_ haccepted.mem (awaits_sending haccepted.sending) _
  | unregister w member call hm haccepted =>
    exact (h.perform _).return_ haccepted.mem (awaits_sending haccepted.sending) _
  | undone w call hw hp => exact h.return_ hw (awaits_undoing hp) _
  | shut _ => exact { h with closer := nofun }
  | skip _ _ => exact h.release
  | drain deadline _ =>
    have hdrain := h.drain (d.registry.localMembers.map fun m => .unregister m.id) deadline
    rwa [List.length_map] at hdrain
  | unwind calls deadline hc =>
    refine (h.settle fun w hw c r ha => h.not_awaited_by_closer (fun c hmem => ?_) hw ha).release
    rw [hc]
    exact hmem
  | finish call hc =>
    have hsettle : (d.settle [call]).Accounts := by
      refine h.settle fun w hw c r ha => h.not_awaited_by_closer (fun c hmem => ?_) hw ha
      rw [hc]
      exact hmem
    have hclosed : Accounts { (d.settle [call]).perform .close with closer := .finished } :=
      (hsettle.perform .close).setCloser nofun
    have hevent : ∀ e ∈ [Event.closeReturned true], ∀ id result, e ≠ .wrote id result := by simp
    exact hclosed.record hevent

end Accounts

end Errands

end Roster.Session
