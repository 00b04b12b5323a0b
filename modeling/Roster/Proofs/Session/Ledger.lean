import Roster.Proofs.Session.Desk

/-! The books of an open session: calls have ids of their own, tasks wait for calls they made, and a call that changes what
the server holds belongs to a write or to an epoch that registers the members again. -/
namespace Roster.Session

/-- A write that has not returned. -/
def Writing.inFlight (w : Writing) : Bool :=
  match w.progress with
  | .done _ => false
  | _ => true

namespace Desk

variable {d d' : Desk}

/-- Writes overlap neither each other nor an epoch that registers the members again. -/
structure Apart (d : Desk) : Prop where
  one : ∀ w ∈ d.writings, ∀ w' ∈ d.writings, w.inFlight = true → w'.inFlight = true → w = w'
  idle : ∀ w ∈ d.writings, w.inFlight = true → ∀ id calls, (id, .restoring calls) ∉ d.runners

structure Books (d : Desk) : Prop where
  opened : d.closed = false
  fresh : ∀ c r, d.requested c = some r → c ≤ d.lastCall
  asked : ∀ c k, d.calls c = some k → k.id = c ∧ d.requested c = some k.request
  ids : (d.runners.map (·.1)).Nodup
  restoring : ∀ id calls, (id, .restoring calls) ∈ d.runners → ∀ c ∈ calls, c ≤ d.lastCall
  /-- Several epochs may register the members at once, each with calls of its own. -/
  disjoint : ∀ id id' calls calls', (id, .restoring calls) ∈ d.runners → (id', .restoring calls') ∈ d.runners →
    ∀ c ∈ calls, c ∈ calls' → id = id'
  opening : ∀ id c deadline, (id, .opening c deadline) ∈ d.runners → ∃ known, d.requested c = some (.subscribe known)
  beating : ∀ id c deadline due, (id, .sending c deadline due) ∈ d.hearts → d.requested c = some .heartbeat
  writing : ∀ w ∈ d.writings, ∀ c, w.progress = .sending c → d.requested c = some w.write.request
  calm : ∀ w ∈ d.writings, ∀ c, w.progress ≠ .undoing c

/-- Who a call that changes what the server holds belongs to. -/
def Owned (d : Desk) : Prop :=
  ∀ c k, d.calls c = some k → Writes k.request = true →
    (∃ w ∈ d.writings, w.progress = .sending c) ∨ ∃ id calls, (id, .restoring calls) ∈ d.runners ∧ c ∈ calls

namespace Books

lemma same_runner (h : d.Books) {id : Nat} {q q' : Runner} (hq : (id, q) ∈ d.runners) (hq' : (id, q') ∈ d.runners) :
    q = q' :=
  (Prod.mk.inj (List.inj_on_of_nodup_map h.ids hq hq' rfl)).2

lemma requested_begin (h : d.Books) {c : Nat} {r : Request} (hc : d.requested c = some r) (caller : Caller)
    (request : Request) : (d.begin caller request).requested c = some r := by
  have hle := h.fresh c r hc
  exact (if_neg (by omega)).trans hc

/-- A call in flight was there before, or is the new one. -/
lemma of_calls_begin {caller : Caller} {request : Request} {c : Nat} {k : Call}
    (hk : (d.begin caller request).calls c = some k) :
    d.calls c = some k ∨ c = d.lastCall + 1 ∧ k = { id := d.lastCall + 1, caller, request } := by
  obtain hold | ⟨-, hnew⟩ := Option.or_eq_some_iff.mp hk
  · exact .inl hold
  · split at hnew
    · next heq => exact .inr ⟨heq.symm, (Option.some.inj hnew).symm⟩
    · exact nomatch hnew

lemma calls_fresh (h : d.Books) : d.calls (d.lastCall + 1) = none := by
  rw [Option.eq_none_iff_forall_ne_some]
  intro k hk
  have hle := h.fresh _ _ (h.asked _ k hk).2
  omega

lemma calls_begin_new (h : d.Books) (caller : Caller) (request : Request) :
    (d.begin caller request).calls (d.lastCall + 1) = some { id := d.lastCall + 1, caller, request } := by
  show (d.calls (d.lastCall + 1)).or _ = _
  rw [h.calls_fresh, if_pos rfl]
  rfl

lemma calls_begin_old {c : Nat} {k : Call} (hk : d.calls c = some k) (caller : Caller) (request : Request) :
    (d.begin caller request).calls c = some k := by
  show (d.calls c).or _ = _
  rw [hk]
  rfl

lemma begin (h : d.Books) (caller : Caller) (request : Request) : (d.begin caller request).Books where
  opened := h.opened
  fresh := by
    intro c r hr
    by_cases hc : d.lastCall + 1 = c
    · exact Nat.le_of_eq hc.symm
    · have hold : d.requested c = some r := (if_neg hc).symm.trans hr
      exact Nat.le_succ_of_le (h.fresh c r hold)
  asked := by
    intro c k hk
    obtain hold | ⟨rfl, rfl⟩ := of_calls_begin hk
    · exact ⟨(h.asked c k hold).1, h.requested_begin (h.asked c k hold).2 caller request⟩
    · exact ⟨rfl, if_pos rfl⟩
  ids := h.ids
  restoring := fun id calls hr c hc => Nat.le_succ_of_le (h.restoring id calls hr c hc)
  disjoint := h.disjoint
  opening := by
    intro id c deadline hr
    obtain ⟨known, hc⟩ := h.opening id c deadline hr
    exact ⟨known, h.requested_begin hc caller request⟩
  beating := fun id c deadline due hh => h.requested_begin (h.beating id c deadline due hh) caller request
  writing := fun w hw c hc => h.requested_begin (h.writing w hw c hc) caller request
  calm := h.calm

lemma settle (h : d.Books) (ids : List Nat) : (d.settle ids).Books := by
  refine { h with asked := ?_ }
  intro c k hk
  have hk : (if c ∈ ids then none else d.calls c) = some k := hk
  split at hk
  · exact nomatch hk
  · exact h.asked c k hk

lemma of_calls_give {id c : Nat} {a : Answer} {k : Call} (hk : (d.give id a).calls c = some k) :
    ∃ old, d.calls c = some old ∧ k = if old.id = id then { old with answer := some a } else old := by
  obtain ⟨old, hold, rfl⟩ := Option.map_eq_some_iff.mp hk
  exact ⟨old, hold, rfl⟩

lemma give (h : d.Books) (id : Nat) (a : Answer) : (d.give id a).Books := by
  refine { h with asked := ?_ }
  intro c k hk
  obtain ⟨old, hold, rfl⟩ := of_calls_give hk
  split <;> exact h.asked c old hold

lemma setRunner (h : d.Books) {id : Nat} {runner : Runner}
    (hopening : ∀ c deadline, runner = .opening c deadline → ∃ known, d.requested c = some (.subscribe known))
    (hrestoring : ∀ calls, runner = .restoring calls → ∀ c ∈ calls, c ≤ d.lastCall ∧
      ∀ e calls', (e, .restoring calls') ∈ d.runners → c ∉ calls') :
    (d.setRunner id runner).Books := by
  refine { h with ids := ?ids, restoring := ?restoring, disjoint := ?disjoint, opening := ?opening }
  case ids =>
    have hids : (d.setRunner id runner).runners.map (·.1) = d.runners.map (·.1) := map_fst_assign ..
    rw [hids]
    exact h.ids
  case restoring =>
    intro e calls he c hc
    obtain heq | ⟨he, -⟩ := mem_assign he
    · exact (hrestoring calls (Prod.mk.inj heq).2.symm c hc).1
    · exact h.restoring e calls he c hc
  case disjoint =>
    intro e e' calls calls' he he' c hc hc'
    obtain heq | ⟨he, -⟩ := mem_assign he
    · obtain heq' | ⟨he', -⟩ := mem_assign he'
      · exact (Prod.mk.inj heq).1.trans (Prod.mk.inj heq').1.symm
      · exact absurd hc' ((hrestoring calls (Prod.mk.inj heq).2.symm c hc).2 e' calls' he')
    · obtain heq' | ⟨he', -⟩ := mem_assign he'
      · exact absurd hc ((hrestoring calls' (Prod.mk.inj heq').2.symm c hc').2 e calls he)
      · exact h.disjoint e e' calls calls' he he' c hc hc'
  case opening =>
    intro e c deadline he
    obtain heq | ⟨he, -⟩ := mem_assign he
    · exact hopening c deadline (Prod.mk.inj heq).2.symm
    · exact h.opening e c deadline he

lemma setHeart (h : d.Books) {id : Nat} {heart : Heart}
    (hbeating : ∀ c deadline due, heart = .sending c deadline due → d.requested c = some .heartbeat) :
    (d.setHeart id heart).Books := by
  refine { h with beating := ?_ }
  intro e c deadline due he
  obtain heq | ⟨he, -⟩ := mem_assign he
  · exact hbeating c deadline due (Prod.mk.inj heq).2.symm
  · exact h.beating e c deadline due he

/-- A write that has returned waits for no call. -/
lemma of_mem_setProgress {id : Nat} {result : Except Failure Unit} {w : Writing}
    (hw : w ∈ (d.setProgress id (.done result)).writings) : (∃ r, w.progress = .done r) ∨ w ∈ d.writings ∧ w.id ≠ id := by
  obtain ⟨old, hold, rfl⟩ := List.mem_map.mp hw
  split
  · exact .inl ⟨result, rfl⟩
  · next hne => exact .inr ⟨hold, hne⟩

lemma setProgress (h : d.Books) (id : Nat) (result : Except Failure Unit) :
    (d.setProgress id (.done result)).Books := by
  refine { h with writing := ?writing, calm := ?calm }
  case writing =>
    intro w hw c hc
    obtain ⟨r, hr⟩ | ⟨hw, -⟩ := of_mem_setProgress hw
    · exact nomatch hr.symm.trans hc
    · exact h.writing w hw c hc
  case calm =>
    intro w hw c hc
    obtain ⟨r, hr⟩ | ⟨hw, -⟩ := of_mem_setProgress hw
    · exact nomatch hr.symm.trans hc
    · exact h.calm w hw c hc

lemma own (h : d.Books) (owned : String → Option Member) : Books { d with owned } :=
  ⟨h.opened, h.fresh, h.asked, h.ids, h.restoring, h.disjoint, h.opening, h.beating, h.writing, h.calm⟩

lemma enter (h : d.Books) {w : Writing} (hc : ∀ c, w.progress = .sending c → d.requested c = some w.write.request)
    (hu : ∀ c, w.progress ≠ .undoing c) : Books { d with writings := d.writings ++ [w] } := by
  refine { h with writing := ?writing, calm := ?calm }
  case writing =>
    intro x hx c hxc
    obtain hx | hx := List.mem_append.mp hx
    · exact h.writing x hx c hxc
    · obtain rfl := List.mem_singleton.mp hx
      exact hc c hxc
  case calm =>
    intro x hx
    obtain hx | hx := List.mem_append.mp hx
    · exact h.calm x hx
    · obtain rfl := List.mem_singleton.mp hx
      exact hu

lemma epoch (h : d.Books) {id : Nat} (hid : ∀ t ∈ d.runners, t.1 ≠ id) :
    Books { d with runners := d.runners ++ [(id, .starting)], hearts := d.hearts ++ [(id, .absent)] } := by
  have hmem {t : Nat × Runner} (ht : t ∈ d.runners ++ [(id, .starting)]) (hne : t.2 ≠ .starting) : t ∈ d.runners := by
    obtain ht | ht := List.mem_append.mp ht
    · exact ht
    · exact absurd (by rw [List.mem_singleton.mp ht]) hne
  refine { h with ids := ?ids, restoring := ?restoring, disjoint := ?disjoint, opening := ?opening, beating := ?beating }
  case ids =>
    show (List.map (·.1) (d.runners ++ [(id, Runner.starting)])).Nodup
    rw [List.map_append, List.nodup_append]
    refine ⟨h.ids, List.nodup_singleton _, ?_⟩
    intro a ha b hb
    obtain ⟨t, ht, rfl⟩ := List.mem_map.mp ha
    rw [List.map_singleton, List.mem_singleton] at hb
    exact hb ▸ hid t ht
  case restoring => exact fun e calls he => h.restoring e calls (hmem he nofun)
  case disjoint => exact fun e e' calls calls' he he' => h.disjoint e e' calls calls' (hmem he nofun) (hmem he' nofun)
  case opening => exact fun e c deadline he => h.opening e c deadline (hmem he nofun)
  case beating =>
    intro e c deadline due he
    obtain he | he := List.mem_append.mp he
    · exact h.beating e c deadline due he
    · exact nomatch (Prod.mk.inj (List.mem_singleton.mp he)).2

end Books

/-- The calls that register some members, one after the other. -/
structure Registering (d d' : Desk) (ms : List Member) (calls : List Nat) : Prop where
  books : d'.Books
  frame : d' = { d with calls := d'.calls, lastCall := d'.lastCall, requested := d'.requested }
  kept : ∀ c r, d.requested c = some r → d'.requested c = some r
  asked : ∀ c ∈ calls, ∃ m ∈ ms, d'.requested c = some (.register m)
  each : ∀ m ∈ ms, ∃ c ∈ calls, ∃ k, d'.calls c = some k ∧ k.request = .register m ∧ k.answer = none
  later : ∀ c ∈ calls, d.lastCall < c
  old : ∀ c k, d.calls c = some k → d'.calls c = some k
  new : ∀ c k, d'.calls c = some k → d.calls c = some k ∨ c ∈ calls

/-- The epoch then waits for these calls. -/
lemma Registering.mem_runners {ms : List Member} {calls : List Nat} (h : Registering d d' ms calls) {id : Nat} {q : Runner}
    (hq : (id, q) ∈ d.runners) : (id, .restoring calls) ∈ (d'.setRunner id (.restoring calls)).runners := by
  unfold Desk.setRunner
  rw [h.frame]
  exact List.mem_map.mpr ⟨(id, q), hq, if_pos rfl⟩

lemma Registering.mem_runners_of_ne {ms : List Member} {calls : List Nat} (h : Registering d d' ms calls) {id e : Nat}
    {q runner : Runner} (hq : (e, q) ∈ d.runners) (hne : e ≠ id) : (e, q) ∈ (d'.setRunner id runner).runners := by
  unfold Desk.setRunner
  rw [h.frame]
  exact mem_assign_of_ne hq hne

lemma Registering.writings_eq {ms : List Member} {calls : List Nat} (h : Registering d d' ms calls) :
    d'.writings = d.writings := by
  rw [h.frame]

theorem Books.register (h : d.Books) (id : Nat) (ms : List Member) :
    Registering d (ms.foldl (fun d m => d.begin (.epoch id) (.register m)) d) ms
      ((List.range ms.length).map (d.lastCall + 1 + ·)) := by
  induction ms generalizing d with
  | nil => exact ⟨h, rfl, fun _ _ hc => hc, nofun, nofun, nofun, fun _ _ hk => hk, fun _ _ hk => .inl hk⟩
  | cons m ms ih =>
    have hrest := ih (h.begin (.epoch id) (.register m))
    have hcalls : (List.range (m :: ms).length).map (d.lastCall + 1 + ·) =
        (d.lastCall + 1) :: (List.range ms.length).map (d.lastCall + 1 + 1 + ·) := by
      rw [List.length_cons, List.range_succ_eq_map, List.map_cons, List.map_map]
      congr 1
      apply List.map_congr_left
      intro n _
      simp only [Function.comp]
      omega
    rw [List.foldl_cons, hcalls]
    constructor
    case books => exact hrest.books
    case frame => exact hrest.frame
    case kept => exact fun c r hc => hrest.kept c r (h.requested_begin hc _ _)
    case asked =>
      intro c hc
      obtain rfl | hc := List.mem_cons.mp hc
      · exact ⟨m, List.mem_cons_self, hrest.kept _ _ (if_pos rfl)⟩
      · obtain ⟨m', hm', hr⟩ := hrest.asked c hc
        exact ⟨m', List.mem_cons_of_mem m hm', hr⟩
    case each =>
      intro m' hm'
      obtain rfl | hm' := List.mem_cons.mp hm'
      · exact ⟨d.lastCall + 1, List.mem_cons_self, _, hrest.old _ _ (h.calls_begin_new _ _), rfl, rfl⟩
      · obtain ⟨c, hc, k, hk⟩ := hrest.each m' hm'
        exact ⟨c, List.mem_cons_of_mem _ hc, k, hk⟩
    case later =>
      intro c hc
      obtain rfl | hc := List.mem_cons.mp hc
      · exact Nat.lt_succ_self d.lastCall
      · exact Nat.lt_of_succ_lt (hrest.later c hc)
    case old => exact fun c k hk => hrest.old c k (Books.calls_begin_old hk _ _)
    case new =>
      intro c k hk
      obtain hk | hc := hrest.new c k hk
      · obtain hk | ⟨rfl, -⟩ := Books.of_calls_begin hk
        · exact .inl hk
        · exact .inr List.mem_cons_self
      · exact .inr (List.mem_cons_of_mem _ hc)

theorem Books.step (h : d.Books) (hstep : Step d d') : d'.Books := by
  cases hstep with
  | epoch id hid => exact h.epoch hid
  | restore id ms hr hms =>
    have hregistering := h.register id ms
    refine hregistering.books.setRunner (fun c deadline => nofun) fun calls heq c hc => ?_
    obtain rfl := Runner.restoring.inj heq
    constructor
    · obtain ⟨m, -, hasked⟩ := hregistering.asked c hc
      exact hregistering.books.fresh c _ hasked
    · intro e calls' he hold
      rw [hregistering.frame] at he
      exact absurd (h.restoring e calls' he c hold) (Nat.not_le_of_lt (hregistering.later c hc))
  | subscribe id calls known deadline hr =>
    have hheart : ((d.settle calls).setHeart id .starting).Books := (h.settle calls).setHeart fun c deadline due => nofun
    refine (hheart.begin (.epoch id) (.subscribe known)).setRunner (fun c _ hc => ⟨known, ?_⟩) fun calls => nofun
    rw [← (Runner.opening.inj hc).1]
    exact if_pos rfl
  | endRestoring id calls hr => exact (h.settle calls).setRunner (fun c deadline => nofun) fun calls => nofun
  | endOpening id call deadline runner hr hrunner =>
    obtain rfl | ⟨i, rfl⟩ := hrunner
    · exact (h.settle [call]).setRunner (fun c deadline => nofun) fun calls => nofun
    · exact (h.settle [call]).setRunner (fun c deadline => nofun) fun calls => nofun
  | endRunner id runner hr hrunner => exact h.setRunner (fun c deadline => nofun) fun calls => nofun
  | beat id deadline due =>
    refine (h.begin (.epoch id) .heartbeat).setHeart fun c _ _ hc => ?_
    rw [← (Heart.sending.inj hc).1]
    exact if_pos rfl
  | endBeat id call deadline due heart hh hheart =>
    obtain rfl | ⟨due, rfl⟩ := hheart
    · exact (h.settle [call]).setHeart fun c deadline due => nofun
    · exact (h.settle [call]).setHeart fun c deadline due => nofun
  | endHeart id => exact h.setHeart fun c deadline due => nofun
  | write id w =>
    refine (h.begin (.write id) w.request).enter (fun c hc => ?_) fun c => nofun
    rw [← Progress.sending.inj hc]
    exact if_pos rfl
  | refuse id w result => exact h.enter (fun c => nofun) fun c => nofun
  | reject w call result hw hp => exact (h.settle [call]).setProgress w.id result
  | effect w call k a result hw hp hk ha hr => exact ((h.settle [call]).setProgress w.id result).own _
  | answer id k a hk hn ha => exact h.give id a

lemma Apart.same_write (h : d.Apart) {w w' : Writing} {c c' : Nat} (hw : w ∈ d.writings) (hw' : w' ∈ d.writings)
    (hc : w.progress = .sending c) (hc' : w'.progress = .sending c') : w = w' :=
  h.one w hw w' hw' (by rw [Writing.inFlight, hc]) (by rw [Writing.inFlight, hc'])

lemma Apart.none_restoring (h : d.Apart) {w : Writing} {c : Nat} (hw : w ∈ d.writings) (hc : w.progress = .sending c)
    (id : Nat) (calls : List Nat) : (id, .restoring calls) ∉ d.runners :=
  h.idle w hw (by rw [Writing.inFlight, hc]) id calls

namespace Owned

lemma of_calls_settle {ids : List Nat} {c : Nat} {k : Call} (hk : (d.settle ids).calls c = some k) :
    d.calls c = some k ∧ c ∉ ids := by
  have hk : (if c ∈ ids then none else d.calls c) = some k := hk
  split at hk
  · exact nomatch hk
  · next hc => exact ⟨hk, hc⟩

/-- A task that does not register the members may change. -/
lemma setRunner (h : d.Owned) (hbooks : d.Books) {id : Nat} {q runner : Runner} (hq : (id, q) ∈ d.runners)
    (hr : ∀ calls, q ≠ .restoring calls) : (d.setRunner id runner).Owned := by
  intro c k hk hwrites
  obtain hw | ⟨e, calls, he, hc⟩ := h c k hk hwrites
  · exact .inl hw
  · refine .inr ⟨e, calls, mem_assign_of_ne he ?_, hc⟩
    rintro rfl
    exact hr calls (hbooks.same_runner hq he)

/-- A task that registers the members takes its calls with it. -/
lemma endRestoring (h : d.Owned) (hbooks : d.Books) {id : Nat} {calls : List Nat} (hr : (id, .restoring calls) ∈ d.runners)
    (runner : Runner) : ((d.settle calls).setRunner id runner).Owned := by
  intro c k hk hwrites
  obtain ⟨hk, hne⟩ := of_calls_settle (d := d) hk
  obtain hw | ⟨e, calls', he, hc⟩ := h c k hk hwrites
  · exact .inl hw
  · refine .inr ⟨e, calls', mem_assign_of_ne he ?_, hc⟩
    rintro rfl
    obtain rfl := Runner.restoring.inj (hbooks.same_runner hr he)
    exact hne hc

lemma settle (h : d.Owned) (ids : List Nat) : (d.settle ids).Owned :=
  fun c k hk hwrites => h c k (of_calls_settle hk).1 hwrites

lemma begin (h : d.Owned) (caller : Caller) {request : Request} (hrequest : Writes request = false) :
    (d.begin caller request).Owned := by
  intro c k hk hwrites
  obtain hk | ⟨-, rfl⟩ := Books.of_calls_begin hk
  · exact h c k hk hwrites
  · exact absurd (hrequest.symm.trans hwrites) Bool.false_ne_true

/-- A write that returns takes its call with it. -/
lemma endWrite (h : d.Owned) (hapart : d.Apart) {w : Writing} {call : Nat} (hw : w ∈ d.writings)
    (hp : w.progress = .sending call) (result : Except Failure Unit) :
    ((d.settle [call]).setProgress w.id (.done result)).Owned := by
  intro c k hk hwrites
  obtain ⟨hk, hne⟩ := of_calls_settle (d := d) hk
  obtain ⟨w', hw', hc⟩ | ⟨e, calls, he, -⟩ := h c k hk hwrites
  · obtain rfl := hapart.same_write hw hw' hp hc
    have hsame : call = c := Progress.sending.inj (hp.symm.trans hc)
    exact absurd (List.mem_singleton.mpr hsame.symm) hne
  · exact absurd he (hapart.none_restoring hw hp e calls)

theorem step (h : d.Owned) (hbooks : d.Books) (hapart : d.Apart) (hstep : Step d d') : d'.Owned := by
  cases hstep with
  | epoch id hid =>
    intro c k hk hwrites
    obtain hw | ⟨e, calls, he, hc⟩ := h c k hk hwrites
    · exact .inl hw
    · exact .inr ⟨e, calls, List.mem_append_left _ he, hc⟩
  | restore id ms hr hms =>
    have hregistering := hbooks.register id ms
    intro c k hk hwrites
    obtain hk | hc := hregistering.new c k hk
    · obtain ⟨w, hw, hp⟩ | ⟨e, calls, he, hc⟩ := h c k hk hwrites
      · exact .inl ⟨w, hregistering.writings_eq ▸ hw, hp⟩
      · have hne : e ≠ id := by
          rintro rfl
          exact nomatch hbooks.same_runner hr he
        exact .inr ⟨e, calls, hregistering.mem_runners_of_ne he hne, hc⟩
    · exact .inr ⟨id, _, hregistering.mem_runners hr, hc⟩
  | subscribe id calls known deadline hr =>
    have hend := endRestoring h hbooks hr (.opening (d.lastCall + 1) deadline)
    exact begin (d := (d.settle calls).setRunner id (.opening (d.lastCall + 1) deadline)) hend (.epoch id) rfl
  | endRestoring id calls hr => exact endRestoring h hbooks hr .stopped
  | endOpening id call deadline runner hr hrunner => exact setRunner (settle h [call]) (hbooks.settle [call]) hr nofun
  | endRunner id runner hr hrunner =>
    refine setRunner h hbooks hr fun calls => ?_
    obtain rfl | ⟨i, rfl⟩ := hrunner <;> exact nofun
  | beat id deadline due => exact begin h (.epoch id) rfl
  | endBeat id call deadline due heart hh hheart => exact settle h [call]
  | endHeart id => exact h
  | write id w =>
    intro c k hk hwrites
    obtain hk | ⟨rfl, rfl⟩ := Books.of_calls_begin hk
    · obtain ⟨x, hx, hp⟩ | howner := h c k hk hwrites
      · exact .inl ⟨x, List.mem_append_left _ hx, hp⟩
      · exact .inr howner
    · exact .inl ⟨_, List.mem_append_right _ (List.mem_singleton_self _), rfl⟩
  | refuse id w result =>
    intro c k hk hwrites
    obtain ⟨x, hx, hp⟩ | howner := h c k hk hwrites
    · exact .inl ⟨x, List.mem_append_left _ hx, hp⟩
    · exact .inr howner
  | reject w call result hw hp =>
    obtain hp | ⟨hp, -⟩ := hp
    · exact absurd hp (hbooks.calm w hw call)
    · exact endWrite h hapart hw hp result
  | effect w call k a result hw hp hk ha hr => exact endWrite h hapart hw hp result
  | answer id k a hk hn ha =>
    intro c x hx hwrites
    obtain ⟨old, hold, rfl⟩ := Books.of_calls_give hx
    refine h c old hold ?_
    split at hwrites <;> exact hwrites

end Owned

end Desk

end Roster.Session
