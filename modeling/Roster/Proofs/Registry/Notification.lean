import Roster.Proofs.Registry.Invariant
import Roster.Proofs.Registry.Turns

/-! How subscribers hear of what happens. A change is due to everyone subscribed at that moment and a subscription to the
subscriber it makes. Whoever is due has one turn, in which its callback begins with what is stored by then, unless it has
been unsubscribed or closed out before. Nothing is assumed of the callbacks: they may do anything in between. -/
namespace Roster.Registry

/-! What a history and a stack say -/

/-- A callback begins for a subscriber of that moment, with what its filter selects then, and an earlier operation made it
due. One is passed over only after it was retired, and only for a change. -/
def Event.Told (older : List Event) : Event → Prop
  | .began i n cause members =>
    ∃ sub, sub.id = n ∧ Subscribed i older sub ∧ members = (registryAt i older).members sub.filter ∧
      ∃ op reply due before, .performed i op reply due :: before <:+ older ∧ before.length = cause ∧ sub ∈ due
  | .passedOver i n cause =>
    retired i n older = true ∧ ∃ op reply due before, .performed i op reply due :: before <:+ older ∧
      before.length = cause ∧ op.applies (registryAt i before) = true ∧ n ∈ due.map (·.id)
  | _ => True

/-- The fan-out of a change, which made due whoever is still owed a turn. -/
def Frame.Spreads (history : List Event) : Frame → Prop
  | .fanout i cause due =>
    due ≠ [] ∧ ∃ op reply all older, .performed i op reply all :: older <:+ history ∧ older.length = cause ∧
      due.Sublist all ∧ op.applies (registryAt i older) = true
  | .callback _ _ => True

/-- The fan-out of a subscription that was made just now. -/
def Frame.Greets (history : List Event) : Frame → Prop
  | .fanout i cause due =>
    ∃ sub, due = [sub] ∧ Subscribed i history sub ∧
      ∃ op reply older, .performed i op reply due :: older <:+ history ∧ older.length = cause
  | .callback _ _ => False

/-- What was told is right, and what is in progress will be. A new subscriber is greeted before anything else happens, so
only the innermost fan-out can be that of a subscription. -/
structure Honest (s : Stage) : Prop extends s.Replayed where
  told : Throughout Event.Told s.history
  top : ∀ f ∈ s.stack.head?, f.Spreads s.history ∨ f.Greets s.history
  below : ∀ f ∈ s.stack.tail, f.Spreads s.history

theorem Frame.Spreads.mono {f : Frame} {older history : List Event} (h : f.Spreads older) (hs : older <:+ history) :
    f.Spreads history := by
  cases f with
  | callback i n => trivial
  | fanout i cause due =>
    obtain ⟨hne, op, reply, all, before, hperformed, hrest⟩ := h
    exact ⟨hne, op, reply, all, before, hperformed.trans hs, hrest⟩

theorem made_mono {i : Nat} {older history : List Event} (hs : older <:+ history) {sub : Subscriber}
    (h : sub ∈ made i older) : sub ∈ made i history := by
  obtain ⟨newer, rfl⟩ := hs
  rw [made, List.filterMap_append]
  exact List.mem_append_right _ h

section Due

variable {i : Nat} {op : Op} {reply : Reply} {due : List Subscriber} {older history : List Event}

/-- Whom an operation of a genuine history made due. -/
theorem due_cases (h : Event.Genuine older (.performed i op reply due)) :
    (op.applies (registryAt i older) = true ∧ due = (registryAt i older).audience) ∨
      (∃ filter, op = .subscribe filter ∧ (registryAt i older).closed = false ∧
        reply = .handle (some ((registryAt i older).lastSubscriber + 1)) ∧
        due = [⟨(registryAt i older).lastSubscriber + 1, filter⟩]) ∨
      (op.applies (registryAt i older) = false ∧ due = [] ∧
        ∀ filter, op = .subscribe filter → (registryAt i older).closed = true ∧ reply = .handle none) := by
  obtain ⟨-, rfl, rfl⟩ := h
  exact perform_due (isLocal_registryAt i older) op

theorem mem_due (h : Genuine (.performed i op reply due :: older)) {sub : Subscriber} :
    sub ∈ due ↔ (op.applies (registryAt i older) = true ∧ Subscribed i older sub) ∨
      (op = .subscribe sub.filter ∧ reply = .handle (some sub.id)) := by
  obtain ⟨ha, rfl⟩ | ⟨filter, rfl, -, rfl, rfl⟩ | ⟨ha, rfl, hno⟩ := due_cases h.1
  · rw [(roll h.2 i).mem_audience]
    constructor
    · exact fun hs => .inl ⟨ha, hs⟩
    · rintro (⟨-, hs⟩ | ⟨rfl, -⟩)
      · exact hs
      · exact nomatch ha
  · rw [List.mem_singleton]
    constructor
    · rintro rfl
      exact .inr ⟨rfl, rfl⟩
    · rintro (⟨ha, -⟩ | ⟨hfilter, hid⟩)
      · exact nomatch ha
      · obtain rfl := Op.subscribe.inj hfilter
        rw [Option.some.inj (Reply.handle.inj hid)]
  · constructor
    · exact fun hs => nomatch hs
    · rintro (⟨ha', -⟩ | ⟨hop, hreply⟩)
      · rw [ha] at ha'
        exact nomatch ha'
      · rw [(hno _ hop).2] at hreply
        exact nomatch hreply

theorem nodup_due (h : Genuine (.performed i op reply due :: older)) : (due.map (·.id)).Nodup := by
  obtain ⟨-, rfl⟩ | ⟨filter, -, -, -, rfl⟩ | ⟨-, rfl, -⟩ := due_cases h.1
  · exact (roll h.2 i).nodup_audience
  · exact List.nodup_singleton _
  · exact List.nodup_nil

/-- Whoever is due was made by the registry. -/
theorem made_of_due (h : Genuine history) (hs : .performed i op reply due :: older <:+ history) {sub : Subscriber}
    (hsub : sub ∈ due) : sub ∈ made i history := by
  refine made_mono hs ?_
  rw [made_cons]
  obtain ⟨-, hsubscribed⟩ | ⟨rfl, rfl⟩ := (mem_due (h.suffix hs)).mp hsub
  · exact List.mem_append_right _ hsubscribed.1
  · simp [Event.made?]

end Due

/-! Moves -/

namespace Honest

variable {s t : Stage}

/-- A fan-out announces an operation that made due whoever it owes a turn. -/
theorem announced (h : Honest s) {i cause : Nat} {due : List Subscriber} {rest : List Frame}
    (hstack : s.stack = .fanout i cause due :: rest) {sub : Subscriber} (hsub : sub ∈ due) :
    ∃ op reply all older, .performed i op reply all :: older <:+ s.history ∧ older.length = cause ∧ sub ∈ all ∧
      (op.applies (registryAt i older) = true ∨ Subscribed i s.history sub) := by
  obtain ⟨-, op, reply, all, older, hs, hlen, hsublist, ha⟩ | ⟨sub', rfl, hsubscribed, op, reply, older, hs, hlen⟩ :=
    h.top _ (by rw [hstack]; rfl)
  · exact ⟨op, reply, all, older, hs, hlen, hsublist.subset hsub, .inl ha⟩
  · obtain rfl := List.mem_singleton.mp hsub
    exact ⟨op, reply, _, older, hs, hlen, hsub, .inr hsubscribed⟩

/-- Once a turn is given, what is left on the stack is about changes. -/
theorem spreads_rest (h : Honest s) {i cause : Nat} {due : List Subscriber} {rest : List Frame}
    (hstack : s.stack = .fanout i cause due :: rest) {sub : Subscriber} (hsub : sub ∈ due) {f : Frame}
    (hf : f ∈ Stage.pushDue i cause (due.erase sub) rest) : f.Spreads s.history := by
  obtain ⟨hne, rfl⟩ | hf := Stage.mem_pushDue.mp hf
  · obtain ⟨-, op, reply, all, older, hs, hlen, hsublist, ha⟩ | ⟨sub', rfl, -⟩ := h.top _ (by rw [hstack]; rfl)
    · exact ⟨hne, op, reply, all, older, hs, hlen, List.erase_sublist.trans hsublist, ha⟩
    · obtain rfl := List.mem_singleton.mp hsub
      simp at hne
  · exact h.below f (by rw [hstack]; exact hf)

/-- While code outside runs, all fan-outs in progress are about changes. -/
theorem spreads_idle (h : Honest s) (hidle : s.idle = true) {f : Frame} (hf : f ∈ s.stack) : f.Spreads s.history := by
  unfold Stage.idle at hidle
  split at hidle
  · next hstack =>
    rw [hstack] at hf
    exact nomatch hf
  · next i n rest hstack =>
    rw [hstack] at hf
    rcases List.mem_cons.mp hf with rfl | hf
    · trivial
    · exact h.below f (by rw [hstack]; exact hf)
  · exact nomatch hidle

theorem perform (h : Honest s) {i : Nat} {op : Op} (hs : s.step (.perform i op) = some t) : Honest t := by
  have ht : t.Replayed := h.toReplayed.step hs
  obtain ⟨r, hidle, hget, -, rfl⟩ := Stage.of_perform hs
  obtain rfl := h.eq_registryAt hget
  have hold {f : Frame} (hf : f ∈ s.stack) := (h.spreads_idle hidle hf).mono (List.suffix_cons (.performed i op
    ((registryAt i s.history).perform op).reply ((registryAt i s.history).perform op).due) s.history)
  -- Code outside was running, so no greeting is in progress but the one this operation may start.
  refine ⟨ht, ⟨trivial, h.told⟩, fun f hf => ?_, fun f hf => ?_⟩
  · obtain ⟨hne, rfl⟩ | hf := Stage.mem_pushDue.mp (List.mem_of_mem_head? hf)
    · obtain ⟨ha, -⟩ | ⟨filter, rfl, hopen, hreply, hdue⟩ | ⟨-, hdue, -⟩ := due_cases ht.genuine.1
      · exact .inl ⟨hne, op, _, _, s.history, List.suffix_rfl, rfl, List.Sublist.refl _, ha⟩
      · refine .inr ⟨_, hdue, ⟨?_, ?_⟩, _, _, s.history, List.suffix_rfl, rfl⟩
        · simp [made_cons, hreply, Event.made?]
        · exact (roll h.genuine i).retired_next hopen
      · exact absurd hdue hne
    · exact .inl (hold hf)
  · unfold Stage.pushDue at hf
    split at hf
    · exact hold (List.mem_of_mem_tail hf)
    · exact hold hf

theorem step {m : Move} (h : Honest s) (hs : s.step m = some t) : Honest t := by
  have ht : t.Replayed := h.toReplayed.step hs
  cases m with
  | found =>
    obtain ⟨-, rfl⟩ := Stage.of_found hs
    exact ⟨ht, h.told, h.top, h.below⟩
  | perform i op => exact h.perform hs
  | reach n =>
    obtain ⟨i, cause, due, rest, sub, r, hstack, hsub, rfl, hget, hturn⟩ := Stage.of_reach hs
    obtain rfl := h.eq_registryAt hget
    obtain ⟨op, reply, all, older, hperformed, hlen, hall, hwhy⟩ := h.announced hstack hsub
    have hmade : sub ∈ made i s.history := made_of_due h.genuine hperformed hall
    have hsilenced := (roll h.genuine i).silenced_iff hmade
    obtain ⟨hgone, rfl⟩ | ⟨hthere, rfl⟩ := hturn
    · have hretired := hsilenced.mp hgone
      -- A new subscriber is greeted before it can retire, so this is not its greeting.
      have ha : op.applies (registryAt i older) = true := by
        refine hwhy.resolve_right fun hsubscribed => ?_
        rw [hsubscribed.2] at hretired
        exact nomatch hretired
      have hrest {f : Frame} (hf : f ∈ Stage.pushDue i cause (due.erase sub) rest) :=
        (h.spreads_rest hstack hsub hf).mono (List.suffix_cons (.passedOver i sub.id cause) s.history)
      refine ⟨ht, ⟨⟨hretired, op, reply, all, older, hperformed, hlen, ha, List.mem_map_of_mem hall⟩, h.told⟩, ?_, ?_⟩
      · exact fun f hf => .inl (hrest (List.mem_of_mem_head? hf))
      · exact fun f hf => hrest (List.mem_of_mem_tail hf)
    · have hsubscribed : Subscribed i s.history sub :=
        ⟨hmade, by rw [← Bool.not_eq_true, ← hsilenced]; exact hthere⟩
      refine ⟨ht, ⟨⟨sub, rfl, hsubscribed, rfl, op, reply, all, older, hperformed, hlen, hall⟩, h.told⟩, ?_, ?_⟩
      · intro f hf
        obtain rfl := Option.some.inj hf
        exact .inl trivial
      · intro f hf
        exact (h.spreads_rest hstack hsub hf).mono (List.suffix_cons _ _)
  | leave =>
    obtain ⟨i, n, rest, hstack, rfl⟩ := Stage.of_leave hs
    have hrest {f : Frame} (hf : f ∈ rest) : f.Spreads (.left i n :: s.history) :=
      (h.below f (by rw [hstack]; exact hf)).mono (List.suffix_cons _ _)
    refine ⟨ht, ⟨trivial, h.told⟩, ?_, ?_⟩
    · exact fun f hf => .inl (hrest (List.mem_of_mem_head? hf))
    · exact fun f hf => hrest (List.mem_of_mem_tail hf)

end Honest

theorem honest {moves : List Move} {s : Stage} (h : Stage.run {} moves = some s) : Honest s := by
  refine Stage.run_induction h ?_ fun _ _ _ hu hs => hu.step hs
  exact ⟨Stage.replayed (rfl : Stage.run {} [] = some {}), trivial, nofun, nofun⟩

/-! What a run tells -/

/-- How the subscribers of a registry are served in a run, up to the moment it has come to. -/
structure Served (i : Nat) (s : Stage) : Prop where
  /-- What the history makes of the registry is the registry there is. -/
  current : ∀ r, s.registries[i]? = some r → r = registryAt i s.history
  /-- A change is due, once, to whoever is subscribed at that moment, and a subscription to the subscriber it makes. -/
  due : ∀ op reply due older, .performed i op reply due :: older <:+ s.history →
    (due.map (·.id)).Nodup ∧ ∀ sub, sub ∈ due ↔
      (op.applies (registryAt i older) = true ∧ Subscribed i older sub) ∨
        (op = .subscribe sub.filter ∧ reply = .handle (some sub.id))
  /-- Whoever is due has one turn on account of the operation, and nobody else has one. -/
  turn : ∀ op reply due older, .performed i op reply due :: older <:+ s.history → ∀ n,
    begun i n older.length s.history + passed i n older.length s.history + pending i n older.length s.stack =
      if n ∈ due.map (·.id) then 1 else 0
  /-- The innermost fan-out owes someone a turn and can turn to anyone it owes one, so no turn stays out. -/
  onward : ∀ cause due rest, s.stack = .fanout i cause due :: rest →
    due ≠ [] ∧ ∀ sub ∈ due, ∃ t, s.step (.reach sub.id) = some t
  /-- A new subscriber is not passed over. -/
  greeted : ∀ filter reply due older, .performed i (.subscribe filter) reply due :: older <:+ s.history →
    (registryAt i older).closed = false → ∃ n, reply = .handle (some n) ∧
      begun i n older.length s.history + pending i n older.length s.stack = 1
  /-- On a closed registry, and where nothing is changed and nobody subscribes, no callback begins. -/
  silent : ∀ op reply due older, .performed i op reply due :: older <:+ s.history →
    ((registryAt i older).closed = true ∨ (op.applies (registryAt i older) = false ∧ ∀ filter, op ≠ .subscribe filter)) →
      due = [] ∧ ∀ n, begun i n older.length s.history = 0
  /-- A callback begins in a turn that an operation made due, if its subscriber is subscribed by then, and receives what is
  stored by then as far as its filter selects it. -/
  began : ∀ n cause members older, .began i n cause members :: older <:+ s.history →
    ∃ sub, sub.id = n ∧ Subscribed i older sub ∧ members = (registryAt i older).members sub.filter ∧
      ∃ op reply due before, .performed i op reply due :: before <:+ older ∧ before.length = cause ∧ sub ∈ due
  /-- Only who unsubscribed, or was subscribed to a registry that closed, is passed over. -/
  passed : ∀ n cause older, .passedOver i n cause :: older <:+ s.history → retired i n older = true

theorem applies_of_closed {r : Registry} (h : Stored r) (hc : r.closed = true) (op : Op) : op.applies r = false := by
  have hlocal (id : String) : r.isLocal id = false := by
    rw [← Bool.not_eq_true]
    intro hid
    rw [h.open_of_local hid] at hc
    exact nomatch hc
  cases op <;> simp [Op.applies, hc, hlocal]

theorem due_of_closed {i : Nat} {op : Op} {reply : Reply} {due : List Subscriber} {older : List Event}
    (h : Event.Genuine older (.performed i op reply due)) (hc : (registryAt i older).closed = true) : due = [] := by
  obtain ⟨ha, -⟩ | ⟨filter, -, hopen, -⟩ | ⟨-, hdue, -⟩ := due_cases h
  · have hstored : Stored (registryAt i older) := stored_after _
    rw [applies_of_closed hstored hc] at ha
    exact nomatch ha
  · rw [hc] at hopen
    exact nomatch hopen
  · exact hdue

/-- Nobody is passed over on account of an operation that changes nothing. -/
theorem passed_eq_zero {s : Stage} (h : Honest s) {i n : Nat} {op : Op} {reply : Reply} {due : List Subscriber}
    {older : List Event} (hs : .performed i op reply due :: older <:+ s.history)
    (ha : op.applies (registryAt i older) = false) : passed i n older.length s.history = 0 := by
  rw [passed, List.countP_eq_zero]
  intro e he hpasses
  obtain ⟨later, earlier, hsplit⟩ := List.append_of_mem he
  have hsuffix : e :: earlier <:+ s.history := ⟨later, hsplit.symm⟩
  cases e with
  | passedOver j m cause =>
    obtain ⟨⟨rfl, rfl⟩, rfl⟩ : (j = i ∧ m = n) ∧ cause = older.length := by simpa [Event.passes] using hpasses
    obtain ⟨-, op', reply', due', before, hperformed, hlen, ha', -⟩ := h.told.of_suffix hsuffix
    obtain ⟨hop, rfl⟩ := eq_of_length (hperformed.trans ((List.suffix_cons _ _).trans hsuffix)) hs hlen
    obtain ⟨-, rfl, -⟩ := Event.performed.inj hop
    rw [ha] at ha'
    exact absurd ha' Bool.false_ne_true
  | _ => exact absurd hpasses Bool.false_ne_true

/-- Every invocation, at any depth of nesting, is the one turn of a subscriber that an operation made due, and every turn
due is had, unless it is still to come or the subscriber is gone when its turn comes. -/
theorem notification_exact {moves : List Move} {s : Stage} (hrun : Stage.run {} moves = some s) (i : Nat) :
    Served i s := by
  have hhonest := honest hrun
  have hdue {op : Op} {reply : Reply} {due : List Subscriber} {older : List Event}
      (hs : .performed i op reply due :: older <:+ s.history) : Genuine (.performed i op reply due :: older) :=
    hhonest.genuine.suffix hs
  have hturn {op : Op} {reply : Reply} {due : List Subscriber} {older : List Event}
      (hs : .performed i op reply due :: older <:+ s.history) (n : Nat) :
      begun i n older.length s.history + passed i n older.length s.history + pending i n older.length s.stack =
        if n ∈ due.map (·.id) then 1 else 0 := by
    rw [balanced hrun i n older.length, dueAt_of_suffix hs]
    exact (nodup_due (hdue hs)).count
  refine ⟨fun r hr => hhonest.eq_registryAt hr, fun op reply due older hs => ?_, fun op reply due older hs => hturn hs,
    fun cause due rest hstack => ⟨?_, fun sub hsub => ?_⟩, fun filter reply due older hs hopen => ?_,
    fun op reply due older hs hnone => ?_, ?_, ?_⟩
  · exact ⟨nodup_due (hdue hs), fun sub => mem_due (hdue hs)⟩
  · obtain ⟨hne, -⟩ | ⟨sub, rfl, -⟩ := hhonest.top _ (by rw [hstack]; rfl)
    · exact hne
    · exact List.cons_ne_nil _ _
  · obtain ⟨op, reply, all, older, hs, -⟩ := hhonest.announced hstack hsub
    have hlt : i < s.registries.length := hhonest.placed i op (mem_performedOn hs)
    exact Stage.reach_possible hstack hsub (List.getElem?_eq_getElem hlt)
  · obtain ⟨ha, -⟩ | ⟨filter', -, -, rfl, rfl⟩ | ⟨-, -, hno⟩ := due_cases (hdue hs).1
    · exact nomatch ha
    · have hone := hturn hs ((registryAt i older).lastSubscriber + 1)
      rw [passed_eq_zero hhonest hs rfl] at hone
      exact ⟨_, rfl, by simpa using hone⟩
    · rw [(hno filter rfl).1] at hopen
      exact nomatch hopen
  · have hempty : due = [] := by
      rcases hnone with hc | ⟨ha, hno⟩
      · exact due_of_closed (hdue hs).1 hc
      · rw [List.eq_nil_iff_forall_not_mem]
        intro sub hsub
        obtain ⟨ha', -⟩ | ⟨hop, -⟩ := (mem_due (hdue hs)).mp hsub
        · rw [ha] at ha'
          exact nomatch ha'
        · exact hno _ hop
    refine ⟨hempty, fun n => ?_⟩
    have hzero := hturn hs n
    rw [hempty, List.map_nil, if_neg List.not_mem_nil] at hzero
    omega
  · exact fun n cause members older hs => hhonest.told.of_suffix hs
  · exact fun n cause older hs => (hhonest.told.of_suffix hs).1

/-- There are two subscribers when a member is registered. The callback of the first ends the subscription of the second
and registers another member, before the second had its turn. -/
def nestedUnsubscribe : List Move :=
  [.found, .perform 0 (.subscribe none), .reach 1, .leave, .perform 0 (.subscribe none), .reach 2, .leave,
    .perform 0 (.registerLocal (Member.new "a" "web")), .reach 1, .perform 0 (.unsubscribe 2),
    .perform 0 (.registerLocal (Member.new "b" "web")), .reach 1, .leave, .leave, .reach 2]

theorem notified_amid_callbacks :
    ∃ s, Stage.run {} nestedUnsubscribe = some s ∧ s.stack = [] ∧
      s.history.filterMap (fun | .began _ n cause members => some (n, cause, members.map (·.id)) | _ => none) =
        [(1, 9, ["a", "b"]), (1, 6, ["a"]), (2, 3, []), (1, 0, [])] ∧
      passed 0 2 6 s.history = 1 ∧ Served 0 s := by
  obtain ⟨s, hs, hstack, hbegan, hpassed⟩ : ∃ s, Stage.run {} nestedUnsubscribe = some s ∧ s.stack = [] ∧
      s.history.filterMap (fun | .began _ n cause members => some (n, cause, members.map (·.id)) | _ => none) =
        [(1, 9, ["a", "b"]), (1, 6, ["a"]), (2, 3, []), (1, 0, [])] ∧ passed 0 2 6 s.history = 1 :=
    ⟨_, rfl, rfl, rfl, rfl⟩
  exact ⟨s, hs, hstack, hbegan, hpassed, notification_exact hs 0⟩

end Roster.Registry
