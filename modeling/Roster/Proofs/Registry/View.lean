import Roster.Proofs.Registry.Notification

/-! What subscribers saw last. A subscriber whose view of the members is out of date is owed a turn by some fan-out in
progress, and gets to see what is stored when the turn comes. So once nothing is in progress every view is up to date. -/
namespace Roster.Registry

/-- The members passed to the invocation of a callback that began last. -/
def lastTold (i n : Nat) : List Event → Option (List Member)
  | [] => none
  | .began j m _ members :: older => if j = i ∧ m = n then some members else lastTold i n older
  | _ :: older => lastTold i n older

/-- A subscriber saw what is stored, or a fan-out in progress will come to it. -/
def Attended (i : Nat) (s : Stage) (sub : Subscriber) : Prop :=
  lastTold i sub.id s.history = some ((registryAt i s.history).members sub.filter) ∨
    ∃ cause due, .fanout i cause due ∈ s.stack ∧ sub ∈ due

def AllAttended (s : Stage) : Prop := ∀ i sub, Subscribed i s.history sub → Attended i s sub

variable {s t : Stage}

theorem fanout_mem_pushDue {i cause : Nat} {due : List Subscriber} {stack : List Frame} {sub : Subscriber}
    (h : sub ∈ due) : .fanout i cause due ∈ Stage.pushDue i cause due stack :=
  Stage.mem_pushDue.mpr (.inl ⟨List.ne_nil_of_mem h, rfl⟩)

/-- Who is subscribed after an event was so before, unless the event made it. -/
theorem Subscribed.of_cons {i : Nat} {e : Event} {older : List Event} {sub : Subscriber}
    (h : Subscribed i (e :: older) sub) : e.made? i = some sub ∨ Subscribed i older sub := by
  obtain ⟨hmade, hretired⟩ := h
  rw [made_cons, List.mem_append, Option.mem_toList] at hmade
  rw [retired_cons, Bool.or_eq_false_iff] at hretired
  exact hmade.imp id fun hold => ⟨hold, hretired.2⟩

/-- Only a change, or closing, shows in what is stored. -/
theorem members_perform {r : Registry} (hlocal : ∀ id, r.isLocal id = (r.owned? id).isSome) {op : Op}
    (ha : op.applies r = false) (hop : op ≠ .close) (filter : Option Filter) :
    (r.perform op).registry.members filter = r.members filter := by
  cases hmembers : op.onMembers with
  | true =>
    obtain ⟨ha', -⟩ | ⟨-, hr, -⟩ := perform_onMembers hlocal hmembers
    · rw [ha] at ha'
      exact nomatch ha'
    · rw [hr]
  | false =>
    cases op with
    | subscribe f =>
      simp only [perform, subscribe]
      split <;> rfl
    | unsubscribe n => rfl
    | close => exact absurd rfl hop
    | _ => exact absurd hmembers.symm Bool.false_ne_true

/-- A subscriber made by an event is due at once. -/
theorem due_of_made {i j : Nat} {op : Op} {reply : Reply} {due : List Subscriber} {older : List Event}
    (h : Genuine (.performed j op reply due :: older)) {sub : Subscriber}
    (hmade : (Event.performed j op reply due).made? i = some sub) : j = i ∧ sub ∈ due := by
  unfold Event.made? at hmade
  split at hmade
  · next heq =>
    obtain ⟨rfl, rfl, rfl, rfl⟩ := Event.performed.inj heq
    split at hmade
    · next hj =>
      obtain rfl := Option.some.inj hmade
      exact ⟨hj, (mem_due h).mpr (.inr ⟨rfl, rfl⟩)⟩
    · exact nomatch hmade
  · exact nomatch hmade

/-- An event that neither performs anything nor tells the subscriber leaves it attended, if it stays owed what it was. -/
theorem Attended.note {i : Nat} {sub : Subscriber} (h : Attended i s sub) {e : Event} {stack : List Frame}
    {registries : List Registry} (hnone : e.opOn? i = none)
    (htold : lastTold i sub.id (e :: s.history) = lastTold i sub.id s.history)
    (howed : (∃ cause due, .fanout i cause due ∈ s.stack ∧ sub ∈ due) → ∃ cause due, .fanout i cause due ∈ stack ∧ sub ∈ due) :
    Attended i ⟨registries, stack, e :: s.history⟩ sub := by
  unfold Attended at h ⊢
  rw [htold, registryAt_cons_of_none hnone]
  exact h.imp id howed

/-- A turn given to one subscriber is not taken from another. -/
theorem still_owed {i j cause : Nat} {due : List Subscriber} {rest : List Frame} {sub other : Subscriber}
    (hstack : s.stack = .fanout j cause due :: rest) (hne : ¬ (j = i ∧ other = sub))
    (h : ∃ c d, .fanout i c d ∈ s.stack ∧ sub ∈ d) :
    ∃ c d, .fanout i c d ∈ Stage.pushDue j cause (due.erase other) rest ∧ sub ∈ d := by
  obtain ⟨c, d, hf, hd⟩ := h
  rw [hstack] at hf
  rcases List.mem_cons.mp hf with heq | hf
  · obtain ⟨rfl, rfl, rfl⟩ := Frame.fanout.inj heq
    have hsub : sub ∈ d.erase other := (List.mem_erase_of_ne fun heq => hne ⟨rfl, heq.symm⟩).mpr hd
    exact ⟨c, _, fanout_mem_pushDue hsub, hsub⟩
  · exact ⟨c, d, Stage.mem_pushDue.mpr (.inr hf), hd⟩

namespace AllAttended

theorem perform (h : AllAttended s) (hr : s.Replayed) {j : Nat} {op : Op} (hs : s.step (.perform j op) = some t) :
    AllAttended t := by
  have ht : Genuine t.history := (hr.step hs).genuine
  obtain ⟨r, -, hget, -, rfl⟩ := Stage.of_perform hs
  obtain rfl := hr.eq_registryAt hget
  intro i sub hsub
  obtain hmade | hold := hsub.of_cons
  · obtain ⟨rfl, hdue⟩ := due_of_made ht hmade
    exact .inr ⟨_, _, fanout_mem_pushDue hdue, hdue⟩
  · by_cases hji : j = i
    · subst hji
      cases ha : op.applies (registryAt j s.history) with
      | true =>
        have hdue := (mem_due ht).mpr (.inl ⟨ha, hold⟩)
        exact .inr ⟨_, _, fanout_mem_pushDue hdue, hdue⟩
      | false =>
        -- Closing shows in what is stored without being announced, but leaves nobody subscribed.
        have hop : op ≠ .close := by
          rintro rfl
          have hretired := hsub.2
          simp [retired_cons, Event.retires] at hretired
        obtain htold | ⟨cause, due, hf, hdue⟩ := h j sub hold
        · refine .inl ?_
          rw [registryAt_cons_performed, members_perform (isLocal_registryAt j s.history) ha hop]
          exact htold
        · exact .inr ⟨cause, due, Stage.mem_pushDue.mpr (.inr hf), hdue⟩
    · have hother (reply : Reply) (due : List Subscriber) : (Event.performed j op reply due).opOn? i = none := if_neg hji
      refine (h i sub hold).note (hother _ _) rfl ?_
      rintro ⟨cause, due, hf, hdue⟩
      exact ⟨cause, due, Stage.mem_pushDue.mpr (.inr hf), hdue⟩

theorem reach (h : AllAttended s) (hhonest : Honest s) {n : Nat} (hs : s.step (.reach n) = some t) : AllAttended t := by
  obtain ⟨j, cause, due, rest, other, r, hstack, hother, rfl, hget, hturn⟩ := Stage.of_reach hs
  obtain rfl := hhonest.eq_registryAt hget
  have hroll := roll hhonest.genuine j
  obtain ⟨op, reply, all, older, hperformed, -, hall, -⟩ := hhonest.announced hstack hother
  have hmade : other ∈ made j s.history := made_of_due hhonest.genuine hperformed hall
  -- Only the one whose turn it is loses what it is owed, and it is either retired or told what is stored.
  obtain ⟨hgone, rfl⟩ | ⟨-, rfl⟩ := hturn
  · intro i sub hsub
    have hold : Subscribed i s.history sub := hsub.of_cons.resolve_left nofun
    refine (h i sub hold).note rfl rfl (still_owed hstack ?_)
    rintro ⟨rfl, rfl⟩
    have hretired := (hroll.silenced_iff hmade).mp hgone
    rw [hold.2] at hretired
    exact nomatch hretired
  · intro i sub hsub
    have hold : Subscribed i s.history sub := hsub.of_cons.resolve_left nofun
    by_cases hturn : j = i ∧ other.id = sub.id
    · obtain ⟨rfl, hid⟩ := hturn
      obtain rfl := hroll.eq_of_id hmade hold.1 hid
      refine .inl ?_
      rw [registryAt_cons_of_none rfl]
      exact if_pos ⟨rfl, rfl⟩
    · refine (h i sub hold).note rfl (if_neg hturn) fun howed => ?_
      have hne : ¬ (j = i ∧ other = sub) := fun heq => hturn ⟨heq.1, congrArg Subscriber.id heq.2⟩
      obtain ⟨c, d, hf, hd⟩ := still_owed hstack hne howed
      exact ⟨c, d, List.mem_cons_of_mem _ hf, hd⟩

theorem step {m : Move} (h : AllAttended s) (hhonest : Honest s) (hs : s.step m = some t) : AllAttended t := by
  cases m with
  | found =>
    obtain ⟨-, rfl⟩ := Stage.of_found hs
    exact h
  | perform j op => exact h.perform hhonest.toReplayed hs
  | reach n => exact h.reach hhonest hs
  | leave =>
    obtain ⟨j, n, rest, hstack, rfl⟩ := Stage.of_leave hs
    intro i sub hsub
    refine (h i sub (hsub.of_cons.resolve_left nofun)).note rfl rfl ?_
    rintro ⟨cause, due, hf, hdue⟩
    rw [hstack] at hf
    exact ⟨cause, due, (List.mem_cons.mp hf).resolve_left nofun, hdue⟩

end AllAttended

theorem allAttended {moves : List Move} (h : Stage.run {} moves = some s) : AllAttended s := by
  have hboth : AllAttended s ∧ Honest s := by
    refine Stage.run_induction (P := fun s => AllAttended s ∧ Honest s) h ?_ fun u v m hu hs => ?_
    · exact ⟨nofun, honest (rfl : Stage.run {} [] = some {})⟩
    · exact ⟨hu.1.step hu.2 hs, hu.2.step hs⟩
  exact hboth.1

/-- When nothing is in progress, whoever is subscribed was last told what is stored, as far as its filter selects it. -/
theorem no_stale_view {moves : List Move} (hrun : Stage.run {} moves = some s) (hdone : s.stack = []) {i : Nat}
    {r : Registry} (hr : s.registries[i]? = some r) {sub : Subscriber} (hsub : Subscribed i s.history sub) :
    lastTold i sub.id s.history = some (r.members sub.filter) := by
  obtain rfl := (Stage.replayed hrun).eq_registryAt hr
  obtain htold | ⟨cause, due, hf, -⟩ := allAttended hrun i sub hsub
  · exact htold
  · rw [hdone] at hf
    exact nomatch hf

/-- There are two subscribers when a member is registered. The callback of the first registers another member, which the
second hears of before its turn for the first member comes. -/
def nestedRegister : List Move :=
  [.found, .perform 0 (.subscribe none), .reach 1, .leave, .perform 0 (.subscribe none), .reach 2, .leave,
    .perform 0 (.registerLocal (Member.new "a" "web")), .reach 1, .perform 0 (.registerLocal (Member.new "b" "web")),
    .reach 2, .leave, .reach 1, .leave, .leave, .reach 2, .leave]

theorem view_after_nested_register :
    ∃ s r, Stage.run {} nestedRegister = some s ∧ s.stack = [] ∧ s.registries[0]? = some r ∧
      (r.members none).map (·.id) = ["a", "b"] ∧ Subscribed 0 s.history ⟨2, none⟩ ∧
      lastTold 0 2 s.history = some (r.members none) := by
  obtain ⟨s, r, hs, hstack, hr, hids, hmade, hretired⟩ : ∃ s r, Stage.run {} nestedRegister = some s ∧ s.stack = [] ∧
      s.registries[0]? = some r ∧ (r.members none).map (·.id) = ["a", "b"] ∧
      made 0 s.history = [⟨2, none⟩, ⟨1, none⟩] ∧ retired 0 2 s.history = false :=
    ⟨_, _, rfl, rfl, rfl, rfl, rfl, rfl⟩
  have hsubscribed : Subscribed 0 s.history ⟨2, none⟩ := ⟨hmade ▸ List.mem_cons_self, hretired⟩
  exact ⟨s, r, hs, hstack, hr, hids, hsubscribed, no_stale_view hs hstack hr hsubscribed⟩

end Roster.Registry
