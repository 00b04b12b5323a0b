import Mathlib.Data.List.Infix
import Roster.Registry.Stage
import Roster.Proofs.Registry.Run

/-! Runs of registries whose callbacks act on them. A history is listed newest first, so what happened before an event is
the rest of the list. However deep operations nest, a registry is what the operations performed on it make of an empty
one: `registryAt` reads it off the history, and a genuine history is one in which every operation had the effect it has
on the registry of that moment. -/
namespace Roster.Registry

/-! Histories -/

/-- The operation an event performed on a registry. -/
def Event.opOn? (i : Nat) : Event → Option Op
  | .performed j op _ _ => if j = i then some op else none
  | _ => none

/-- The operations performed on a registry, in their order. -/
def performedOn (i : Nat) (history : List Event) : List Op := history.reverse.filterMap (Event.opOn? i)

/-- A registry as its history made it. -/
def registryAt (i : Nat) (history : List Event) : Registry := after (performedOn i history)

/-- The operation did what it does on the registry it met. -/
def Event.Genuine (older : List Event) : Event → Prop
  | .performed i op reply due =>
    op.permitted (registryAt i older) = true ∧ ((registryAt i older).perform op).reply = reply ∧
      ((registryAt i older).perform op).due = due
  | _ => True

/-- Something holds of every event and what came before it. -/
def Throughout (P : List Event → Event → Prop) : List Event → Prop
  | [] => True
  | e :: older => P older e ∧ Throughout P older

abbrev Genuine (history : List Event) : Prop := Throughout Event.Genuine history

theorem performedOn_cons (i : Nat) (e : Event) (history : List Event) :
    performedOn i (e :: history) = performedOn i history ++ (e.opOn? i).toList := by
  cases h : e.opOn? i <;> simp [performedOn, h]

theorem registryAt_nil (i : Nat) : registryAt i [] = {} := rfl

theorem registryAt_cons_of_none {i : Nat} {e : Event} (h : e.opOn? i = none) (history : List Event) :
    registryAt i (e :: history) = registryAt i history := by
  simp [registryAt, performedOn_cons, h]

theorem registryAt_cons_of_some {i : Nat} {e : Event} {op : Op} (h : e.opOn? i = some op) (history : List Event) :
    registryAt i (e :: history) = ((registryAt i history).perform op).registry := by
  simp [registryAt, performedOn_cons, h, after_append_singleton]

theorem registryAt_cons_performed (i : Nat) (op : Op) (reply : Reply) (due : List Subscriber) (history : List Event) :
    registryAt i (.performed i op reply due :: history) = ((registryAt i history).perform op).registry := by
  have hop : (Event.performed i op reply due).opOn? i = some op := if_pos rfl
  exact registryAt_cons_of_some hop history

theorem Throughout.of_suffix {P : List Event → Event → Prop} {e : Event} {older history : List Event}
    (h : Throughout P history) (hs : e :: older <:+ history) : P older e := by
  induction history with
  | nil => exact absurd (List.suffix_nil.mp hs) (List.cons_ne_nil e older)
  | cons x history ih =>
    rcases List.suffix_cons_iff.mp hs with heq | hs
    · obtain ⟨rfl, rfl⟩ := List.cons.inj heq
      exact h.1
    · exact ih h.2 hs

theorem Throughout.suffix {P : List Event → Event → Prop} {older history : List Event} (h : Throughout P history)
    (hs : older <:+ history) : Throughout P older := by
  induction history with
  | nil => exact List.suffix_nil.mp hs ▸ trivial
  | cons x history ih =>
    rcases List.suffix_cons_iff.mp hs with rfl | hs
    · exact h
    · exact ih h.2 hs

theorem mem_performedOn {i : Nat} {op : Op} {reply : Reply} {due : List Subscriber} {older history : List Event}
    (hs : .performed i op reply due :: older <:+ history) : op ∈ performedOn i history := by
  rw [performedOn, List.mem_filterMap]
  exact ⟨_, List.mem_reverse.mpr (hs.subset List.mem_cons_self), if_pos rfl⟩

namespace Stage

variable {s t : Stage}

/-! Moves -/

/-- A fan-out stays in progress as long as it owes someone a turn. -/
theorem mem_pushDue {i cause : Nat} {due : List Subscriber} {stack : List Frame} {f : Frame} :
    f ∈ pushDue i cause due stack ↔ (due ≠ [] ∧ f = .fanout i cause due) ∨ f ∈ stack := by
  cases due with
  | nil => simp [pushDue]
  | cons sub due => simp [pushDue]

theorem of_found (h : s.step .found = some t) :
    s.idle = true ∧ t = { s with registries := s.registries ++ [{}] } := by
  simp only [step] at h
  split at h
  · next hidle => exact ⟨hidle, (Option.some.inj h).symm⟩
  · exact nomatch h

theorem of_perform {i : Nat} {op : Op} (h : s.step (.perform i op) = some t) :
    ∃ r, s.idle = true ∧ s.registries[i]? = some r ∧ op.permitted r = true ∧
      t = {
        registries := s.registries.set i (r.perform op).registry
        stack := pushDue i s.history.length (r.perform op).due s.stack
        history := .performed i op (r.perform op).reply (r.perform op).due :: s.history } := by
  simp only [step] at h
  split at h
  · next r hidle hr =>
    split at h
    · next hp => exact ⟨r, hidle, hr, hp, (Option.some.inj h).symm⟩
    · exact nomatch h
  · exact nomatch h

/-- A fan-out turns to one of those it owes a turn: the callback begins, unless the subscriber is gone. -/
theorem of_reach {n : Nat} (h : s.step (.reach n) = some t) :
    ∃ i cause due rest sub r, s.stack = .fanout i cause due :: rest ∧ sub ∈ due ∧ sub.id = n ∧
      s.registries[i]? = some r ∧
      ((n ∈ r.silenced ∧ t = { s with
          stack := pushDue i cause (due.erase sub) rest
          history := .passedOver i n cause :: s.history }) ∨
        (n ∉ r.silenced ∧ t = { s with
          stack := .callback i n :: pushDue i cause (due.erase sub) rest
          history := .began i n cause (r.members sub.filter) :: s.history })) := by
  simp only [step] at h
  split at h
  · next i cause due rest hstack =>
    split at h
    · next sub r hsub hr =>
      have hid : sub.id = n := by simpa using List.find?_some hsub
      refine ⟨i, cause, due, rest, sub, r, hstack, List.mem_of_find?_eq_some hsub, hid, hr, ?_⟩
      split at h
      · next hs => exact .inl ⟨hs, (Option.some.inj h).symm⟩
      · next hs => exact .inr ⟨hs, (Option.some.inj h).symm⟩
    · exact nomatch h
  · exact nomatch h

theorem of_leave (h : s.step .leave = some t) :
    ∃ i n rest, s.stack = .callback i n :: rest ∧ t = { s with stack := rest, history := .left i n :: s.history } := by
  simp only [step] at h
  split at h
  · next i n rest hstack => exact ⟨i, n, rest, hstack, (Option.some.inj h).symm⟩
  · exact nomatch h

theorem perform_possible {i : Nat} {op : Op} {r : Registry} (hidle : s.idle = true) (hr : s.registries[i]? = some r)
    (hp : op.permitted r = true) : ∃ t, s.step (.perform i op) = some t := by
  simp only [step, hidle, hr, if_pos hp]
  exact ⟨_, rfl⟩

/-- The innermost fan-out can turn to anyone that it still owes a turn. -/
theorem reach_possible {i cause : Nat} {due : List Subscriber} {rest : List Frame} {sub : Subscriber} {r : Registry}
    (hstack : s.stack = .fanout i cause due :: rest) (hsub : sub ∈ due) (hr : s.registries[i]? = some r) :
    ∃ t, s.step (.reach sub.id) = some t := by
  have hfind : (due.find? (·.id = sub.id)).isSome = true := List.find?_isSome.mpr ⟨sub, hsub, decide_eq_true rfl⟩
  obtain ⟨found, hfound⟩ := Option.isSome_iff_exists.mp hfind
  simp only [step, hstack, hfound, hr]
  split
  · exact ⟨_, rfl⟩
  · exact ⟨_, rfl⟩

/-! Runs -/

/-- What every move keeps, a run keeps. -/
theorem run_induction {P : Stage → Prop} {moves : List Move} (hrun : s.run moves = some t) (h : P s)
    (hstep : ∀ u v m, P u → u.step m = some v → P v) : P t :=
  foldlM_induction hrun h hstep

/-- The registries are those of the history, and the history is genuine. -/
structure Replayed (s : Stage) : Prop where
  registries : ∀ i, s.registries.getD i {} = registryAt i s.history
  placed : ∀ i op, op ∈ performedOn i s.history → i < s.registries.length
  genuine : Genuine s.history

theorem Replayed.eq_registryAt (h : Replayed s) {i : Nat} {r : Registry} (hr : s.registries[i]? = some r) :
    r = registryAt i s.history := by
  rw [← h.registries i, List.getD_eq_getElem?_getD, hr, Option.getD_some]

/-- An event that performs nothing leaves the registries. -/
theorem Replayed.note (h : Replayed s) {e : Event} (he : ∀ i, e.opOn? i = none) (stack : List Frame) :
    Replayed { s with stack, history := e :: s.history } where
  registries i := by rw [registryAt_cons_of_none (he i), h.registries i]
  placed i op hop := by
    rw [performedOn_cons, he i, Option.toList_none, List.append_nil] at hop
    exact h.placed i op hop
  genuine := by
    refine ⟨?_, h.genuine⟩
    cases e with
    | performed i op reply due => simpa [Event.opOn?] using he i
    | _ => trivial

theorem Replayed.step {m : Move} (h : Replayed s) (hs : s.step m = some t) : Replayed t := by
  cases m with
  | found =>
    obtain ⟨-, rfl⟩ := of_found hs
    refine ⟨fun i => ?_, fun i op hop => ?_, h.genuine⟩
    · rw [← h.registries i]
      simp only [List.getD_eq_getElem?_getD, List.getElem?_append]
      split
      · rfl
      · next hlen =>
        rw [List.getElem?_eq_none (Nat.le_of_not_lt hlen)]
        cases i - s.registries.length <;> rfl
    · rw [List.length_append]
      exact Nat.lt_add_right _ (h.placed i op hop)
  | perform i op =>
    obtain ⟨r, -, hr, hp, rfl⟩ := of_perform hs
    obtain rfl := h.eq_registryAt hr
    have hlen : i < s.registries.length := (List.getElem?_eq_some_iff.mp hr).1
    have hother {j : Nat} (hij : ¬ i = j) (reply : Reply) (due : List Subscriber) :
        (Event.performed i op reply due).opOn? j = none := if_neg hij
    refine ⟨fun j => ?_, fun j op' hop' => ?_, ⟨hp, rfl, rfl⟩, h.genuine⟩
    · by_cases hij : i = j
      · subst hij
        rw [registryAt_cons_performed, List.getD_eq_getElem?_getD, List.getElem?_set_self hlen, Option.getD_some]
      · rw [registryAt_cons_of_none (hother hij _ _), ← h.registries j, List.getD_eq_getElem?_getD,
          List.getElem?_set_ne hij, List.getD_eq_getElem?_getD]
    · rw [List.length_set]
      by_cases hij : i = j
      · exact hij ▸ hlen
      · rw [performedOn_cons, hother hij, Option.toList_none, List.append_nil] at hop'
        exact h.placed j op' hop'
  | reach n =>
    obtain ⟨i, cause, due, rest, sub, r, -, -, -, -, ⟨-, rfl⟩ | ⟨-, rfl⟩⟩ := of_reach hs
    · exact h.note (fun _ => rfl) _
    · exact h.note (fun _ => rfl) _
  | leave =>
    obtain ⟨i, n, rest, -, rfl⟩ := of_leave hs
    exact h.note (fun _ => rfl) _

theorem replayed {moves : List Move} (h : run {} moves = some s) : Replayed s :=
  run_induction h ⟨fun _ => rfl, nofun, trivial⟩ fun _ _ _ hp hs => hp.step hs

/-- A run only adds registries, and events at the near end of the history. -/
theorem run_grows {moves : List Move} (h : s.run moves = some t) :
    s.registries.length ≤ t.registries.length ∧ s.history <:+ t.history := by
  refine run_induction (P := fun u => s.registries.length ≤ u.registries.length ∧ s.history <:+ u.history) h
    ⟨Nat.le_refl _, List.suffix_rfl⟩ fun u v m hu hs => ?_
  cases m with
  | found =>
    obtain ⟨-, rfl⟩ := of_found hs
    exact ⟨hu.1.trans (by simp), hu.2⟩
  | perform i op =>
    obtain ⟨r, -, -, -, rfl⟩ := of_perform hs
    exact ⟨hu.1.trans (by simp), hu.2.trans (List.suffix_cons _ _)⟩
  | reach n =>
    obtain ⟨i, cause, due, rest, sub, r, -, -, -, -, ⟨-, rfl⟩ | ⟨-, rfl⟩⟩ := of_reach hs
    · exact ⟨hu.1, hu.2.trans (List.suffix_cons _ _)⟩
    · exact ⟨hu.1, hu.2.trans (List.suffix_cons _ _)⟩
  | leave =>
    obtain ⟨i, n, rest, -, rfl⟩ := of_leave hs
    exact ⟨hu.1, hu.2.trans (List.suffix_cons _ _)⟩

end Stage

end Roster.Registry
