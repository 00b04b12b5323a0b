import Roster.Proofs.Registry.Moves

/-! Turns in fan-outs. An operation owes one turn to each subscriber it makes due, and every turn is begun, passed over or
still owed by a fan-out in progress, whatever callbacks do in between. Operations are told apart by their place in the
history, the number of events before them. -/
namespace Roster.Registry

/-- A subscriber's callback begins, on account of the operation at a place. -/
def Event.begins (i n cause : Nat) : Event → Bool
  | .began j m c _ => j = i && m = n && c = cause
  | _ => false

/-- A subscriber is passed over in the fan-out of the operation at a place. -/
def Event.passes (i n cause : Nat) : Event → Bool
  | .passedOver j m c => j = i && m = n && c = cause
  | _ => false

def begun (i n cause : Nat) (history : List Event) : Nat := history.countP (Event.begins i n cause)

def passed (i n cause : Nat) (history : List Event) : Nat := history.countP (Event.passes i n cause)

/-- How many turns a frame owes to a subscriber, on account of the operation at a place. -/
def Frame.owes (i n cause : Nat) : Frame → Nat
  | .fanout j c due => if j = i ∧ c = cause then (due.map (·.id)).count n else 0
  | .callback _ _ => 0

/-- How many turns are owed to a subscriber altogether, on account of the operation at a place. -/
def pending (i n cause : Nat) : List Frame → Nat
  | [] => 0
  | f :: stack => f.owes i n cause + pending i n cause stack

/-- Whom the operation at a place made due. -/
def dueAt (i cause : Nat) : List Event → List Nat
  | [] => []
  | .performed j _ _ due :: older => if j = i ∧ older.length = cause then due.map (·.id) else dueAt i cause older
  | _ :: older => dueAt i cause older

/-- Every turn due is accounted for. -/
def Balanced (s : Stage) : Prop :=
  ∀ i n cause, begun i n cause s.history + passed i n cause s.history + pending i n cause s.stack =
    (dueAt i cause s.history).count n

section Places

variable {i n cause : Nat}

/-- Nothing has happened yet at a place to come. -/
theorem dueAt_of_length_le {history : List Event} (h : history.length ≤ cause) : dueAt i cause history = [] := by
  induction history with
  | nil => rfl
  | cons e older ih =>
    rw [List.length_cons] at h
    have hne : older.length ≠ cause := by omega
    cases e with
    | performed j op reply due =>
      rw [dueAt, if_neg fun heq => hne heq.2]
      exact ih (by omega)
    | _ => exact ih (by omega)

theorem dueAt_of_suffix {op : Op} {reply : Reply} {due : List Subscriber} {older history : List Event}
    (h : .performed i op reply due :: older <:+ history) : dueAt i older.length history = due.map (·.id) := by
  induction history with
  | nil => exact absurd (List.suffix_nil.mp h) (List.cons_ne_nil _ _)
  | cons e history ih =>
    rcases List.suffix_cons_iff.mp h with heq | hrest
    · obtain ⟨rfl, rfl⟩ := List.cons.inj heq
      simp [dueAt]
    · have hlen := hrest.length_le
      rw [List.length_cons] at hlen
      have hne : history.length ≠ older.length := by omega
      cases e with
      | performed j op' reply' due' =>
        rw [dueAt, if_neg fun heq => hne heq.2]
        exact ih hrest
      | _ => exact ih hrest

/-- Two events at one place are one event. -/
theorem eq_of_length {e e' : Event} {older older' history : List Event} (h : e :: older <:+ history)
    (h' : e' :: older' <:+ history) (hlen : older.length = older'.length) : e = e' ∧ older = older' := by
  have hle : (e :: older).length ≤ (e' :: older').length := by simp [hlen]
  have hsame := (List.suffix_of_suffix_length_le h h' hle).eq_of_length (by simp [hlen])
  exact List.cons.inj hsame

end Places

section Counts

variable (i n cause : Nat)

theorem pending_cons (f : Frame) (stack : List Frame) :
    pending i n cause (f :: stack) = f.owes i n cause + pending i n cause stack := rfl

/-- A fan-out with nobody left is as good as gone. -/
theorem pending_pushDue (j c : Nat) (due : List Subscriber) (stack : List Frame) :
    pending i n cause (Stage.pushDue j c due stack) =
      (Frame.fanout j c due).owes i n cause + pending i n cause stack := by
  unfold Stage.pushDue
  split
  · next hempty =>
    rw [List.isEmpty_iff.mp hempty]
    simp [Frame.owes]
  · rfl

/-- Whoever has its turn is owed one less. -/
theorem owes_erase {j c : Nat} {due : List Subscriber} {sub : Subscriber} (h : sub ∈ due) :
    (Frame.fanout j c due).owes i n cause =
      (Frame.fanout j c (due.erase sub)).owes i n cause + if j = i ∧ sub.id = n ∧ c = cause then 1 else 0 := by
  by_cases hplace : j = i ∧ c = cause
  · have hcount : (due.map (·.id)).count n = ((due.erase sub).map (·.id)).count n + if sub.id = n then 1 else 0 := by
      rw [((List.perm_cons_erase h).map (·.id)).count_eq, List.map_cons, List.count_cons]
      simp
    simp [Frame.owes, hplace, hcount]
  · have hnot : ¬ (j = i ∧ sub.id = n ∧ c = cause) := fun hall => hplace ⟨hall.1, hall.2.2⟩
    simp [Frame.owes, hplace, hnot]

theorem begun_cons (e : Event) (history : List Event) :
    begun i n cause (e :: history) = begun i n cause history + if e.begins i n cause = true then 1 else 0 :=
  List.countP_cons ..

theorem passed_cons (e : Event) (history : List Event) :
    passed i n cause (e :: history) = passed i n cause history + if e.passes i n cause = true then 1 else 0 :=
  List.countP_cons ..

end Counts

namespace Balanced

variable {s t : Stage}

theorem perform (h : Balanced s) (j : Nat) (op : Op) (reply : Reply) (due : List Subscriber)
    (registries : List Registry) :
    Balanced ⟨registries, Stage.pushDue j s.history.length due s.stack, .performed j op reply due :: s.history⟩ := by
  intro i n cause
  have hb : begun i n cause (.performed j op reply due :: s.history) = begun i n cause s.history := begun_cons ..
  have hp : passed i n cause (.performed j op reply due :: s.history) = passed i n cause s.history := passed_cons ..
  have hold := h i n cause
  rw [hb, hp, pending_pushDue, dueAt]
  by_cases hplace : j = i ∧ s.history.length = cause
  · -- The place is the one being taken, so no turn was accounted for there before.
    rw [dueAt_of_length_le hplace.2.le, List.count_nil] at hold
    simp only [Frame.owes, if_pos hplace]
    omega
  · simp only [Frame.owes, if_neg hplace]
    omega

/-- The fan-out on top gives one of its subscribers its turn, and the turn is noted. -/
theorem turn (h : Balanced s) {j c : Nat} {due : List Subscriber} {rest : List Frame} {sub : Subscriber} {e : Event}
    (hstack : s.stack = .fanout j c due :: rest) (hsub : sub ∈ due)
    (hnoted : ∀ i n cause, (if e.begins i n cause = true then 1 else 0) + (if e.passes i n cause = true then 1 else 0) =
      if j = i ∧ sub.id = n ∧ c = cause then 1 else 0)
    (hplace : ∀ i cause, dueAt i cause (e :: s.history) = dueAt i cause s.history) (i n cause : Nat) :
    begun i n cause (e :: s.history) + passed i n cause (e :: s.history) +
      pending i n cause (Stage.pushDue j c (due.erase sub) rest) = (dueAt i cause (e :: s.history)).count n := by
  have hold := h i n cause
  have hnoted := hnoted i n cause
  rw [hstack, pending_cons, owes_erase i n cause hsub] at hold
  rw [hplace, begun_cons, passed_cons, pending_pushDue]
  omega

theorem step {m : Move} (h : Balanced s) (hs : s.step m = some t) : Balanced t := by
  cases m with
  | found =>
    obtain ⟨-, rfl⟩ := Stage.of_found hs
    exact h
  | perform j op =>
    obtain ⟨r, -, -, -, rfl⟩ := Stage.of_perform hs
    exact h.perform j op _ _ _
  | reach m =>
    obtain ⟨j, c, due, rest, sub, r, hstack, hsub, rfl, -, ⟨-, rfl⟩ | ⟨-, rfl⟩⟩ := Stage.of_reach hs
    · refine h.turn hstack hsub (fun i n cause => ?_) fun _ _ => rfl
      simp [Event.begins, Event.passes, and_assoc]
    · intro i n cause
      have hturn := h.turn hstack hsub (e := .began j sub.id c (r.members sub.filter))
        (fun i n cause => by simp [Event.begins, Event.passes, and_assoc]) (fun _ _ => rfl) i n cause
      rw [pending_cons]
      simpa [Frame.owes] using hturn
  | leave =>
    obtain ⟨j, m, rest, hstack, rfl⟩ := Stage.of_leave hs
    intro i n cause
    have hold := h i n cause
    rw [hstack, pending_cons] at hold
    rw [begun_cons, passed_cons]
    simpa [Event.begins, Event.passes, Frame.owes, dueAt] using hold

end Balanced

theorem balanced {moves : List Move} {s : Stage} (h : Stage.run {} moves = some s) : Balanced s :=
  Stage.run_induction h (fun _ _ _ => rfl) fun _ _ _ hb hs => hb.step hs

end Roster.Registry
