import Mathlib.Data.List.Basic
import Roster.Proofs.Registry.Notification
import Roster.Registry.Program

/-! How subscriptions end. A subscriber is done with once its handle was used up, its registry closed or its registry was
released, and from then on its callback does not begin, whatever was in progress at that moment. `Orderly` ties the handles of
a program to the subscribers of its registries, so that a handle reaches its own subscriber and nobody else. -/
namespace Roster.Registry

theorem retired_mono {i n : Nat} {older history : List Event} (hs : older <:+ history) (h : retired i n older = true) :
    retired i n history = true := by
  obtain ⟨newer, rfl⟩ := hs
  rw [retired, List.any_append, Bool.or_eq_true]
  exact .inr h

/-- The number of a subscriber, seen from one registry. -/
def Handle.of? (i : Nat) (h : Handle) : Option Nat := if h.registry = i then h.subscriber else none

namespace Stage

variable {s t : Stage}

/-- What is in progress after a move was so before, or is the fan-out of an operation performed now. -/
theorem frame_of_step {m : Move} (h : s.step m = some t) {f : Frame} (hf : f ∈ t.stack) :
    (∃ g ∈ s.stack, g.registry = f.registry) ∨ ∃ op, m = .perform f.registry op := by
  cases m with
  | found =>
    obtain ⟨-, rfl⟩ := of_found h
    exact .inl ⟨f, hf, rfl⟩
  | perform i op =>
    obtain ⟨r, -, -, -, rfl⟩ := of_perform h
    obtain ⟨-, rfl⟩ | hold := mem_pushDue.mp hf
    · exact .inr ⟨op, rfl⟩
    · exact .inl ⟨f, hold, rfl⟩
  | reach n =>
    obtain ⟨i, cause, due, rest, sub, r, hstack, -, -, -, hturn⟩ := of_reach h
    have htop : ∃ g ∈ s.stack, g.registry = i := ⟨_, hstack ▸ List.mem_cons_self, rfl⟩
    have hrest (hf : f ∈ pushDue i cause (due.erase sub) rest) : ∃ g ∈ s.stack, g.registry = f.registry := by
      obtain ⟨-, rfl⟩ | hold := mem_pushDue.mp hf
      · exact htop
      · exact ⟨f, hstack ▸ List.mem_cons_of_mem _ hold, rfl⟩
    obtain ⟨-, rfl⟩ | ⟨-, rfl⟩ := hturn
    · exact .inl (hrest hf)
    · rcases List.mem_cons.mp hf with rfl | hf
      · exact .inl htop
      · exact .inl (hrest hf)
  | leave =>
    obtain ⟨i, n, rest, hstack, rfl⟩ := of_leave h
    exact .inl ⟨f, hstack ▸ List.mem_cons_of_mem _ hf, rfl⟩

/-- A callback begins only within a fan-out of its registry, and only if the subscriber has not retired. -/
theorem began_of_step (h : Honest s) {m : Move} (hs : s.step m = some t) :
    ∃ newer, t.history = newer ++ s.history ∧ ∀ i n cause members, .began i n cause members ∈ newer →
      retired i n s.history = false ∧ ∃ f ∈ s.stack, f.registry = i := by
  have ht : Honest t := h.step hs
  cases m with
  | found =>
    obtain ⟨-, rfl⟩ := of_found hs
    exact ⟨[], rfl, nofun⟩
  | perform i op =>
    obtain ⟨r, -, -, -, rfl⟩ := of_perform hs
    exact ⟨[_], rfl, by simp⟩
  | reach n =>
    obtain ⟨i, cause, due, rest, sub, r, hstack, -, -, -, ⟨-, rfl⟩ | ⟨-, rfl⟩⟩ := of_reach hs
    · exact ⟨[_], rfl, by simp⟩
    · refine ⟨[_], rfl, fun j k c members hmem => ?_⟩
      obtain ⟨rfl, rfl, -, -⟩ := Event.began.inj (List.mem_singleton.mp hmem)
      obtain ⟨sub', rfl, hsubscribed, -⟩ := ht.told.1
      exact ⟨hsubscribed.2, _, hstack ▸ List.mem_cons_self, rfl⟩
  | leave =>
    obtain ⟨i, n, rest, -, rfl⟩ := of_leave hs
    exact ⟨[_], rfl, by simp⟩

end Stage

namespace Program

variable {p q : Program} {i n handle : Nat}

/-- The handle at this position was made for this subscriber, whether the program still has it or not. -/
def Grants (p : Program) (handle i n : Nat) : Prop := ∃ held, p.handles[handle]? = some ⟨i, some n, held⟩

/-- Nothing can make the callback of the subscriber begin any more. -/
def Done (p : Program) (i n : Nat) : Prop := retired i n p.stage.history = true ∨ i ∈ p.released

/-- The acts that end a subscription. -/
def endings (handle i : Nat) : List Act := [.unsubscribe handle, .move (.perform i .close), .release i]

/-! Acts -/

theorem of_move {m : Move} (h : p.step (.move m) = some q) :
    p.allows m = true ∧ ∃ stage, p.stage.step m = some stage ∧
      q = { p with stage, handles := p.handles ++ issued p.stage m } := by
  simp only [step] at h
  split at h
  · next hallowed =>
    obtain ⟨stage, hstage, rfl⟩ := Option.map_eq_some_iff.mp h
    exact ⟨hallowed, stage, hstage, rfl⟩
  · exact nomatch h

theorem held?_eq_some {h : Handle} : p.held? handle = some h ↔ p.handles[handle]? = some h ∧ h.held = true := by
  rw [held?, Option.filter_eq_some_iff]

/-- An unsubscription performs the operation, unless there is no subscriber or no registry any more. -/
theorem of_unsubscribe (h : p.step (.unsubscribe handle) = some q) :
    ∃ hd, p.held? handle = some hd ∧
      ((∃ n stage, hd.subscriber = some n ∧ hd.registry ∉ p.released ∧
          p.stage.step (.perform hd.registry (.unsubscribe n)) = some stage ∧ q = { p.spend handle with stage }) ∨
        ((hd.subscriber = none ∨ hd.registry ∈ p.released) ∧ q = p.spend handle)) := by
  simp only [step] at h
  split at h
  · next hd hidle hhd =>
    refine ⟨hd, hhd, ?_⟩
    split at h
    · next n hn hthere =>
      obtain ⟨stage, hstage, rfl⟩ := Option.map_eq_some_iff.mp h
      exact .inl ⟨n, stage, hn, by simpa using hthere, hstage, rfl⟩
    · next hnot =>
      refine .inr ⟨?_, (Option.some.inj h).symm⟩
      cases hn : hd.subscriber with
      | none => exact .inl rfl
      | some n => exact .inr (by simpa using hnot n hn)
  · exact nomatch h

theorem of_drop (h : p.step (.drop handle) = some q) : p.stage.idle = true ∧ q = p.spend handle := by
  simp only [step] at h
  split at h
  · next hc => exact ⟨by simpa using (Bool.and_eq_true_iff.mp hc).1, (Option.some.inj h).symm⟩
  · exact nomatch h

theorem of_release (h : p.step (.release i) = some q) :
    i < p.stage.registries.length ∧ (∀ f ∈ p.stage.stack, f.registry ≠ i) ∧
      q = { p with released := i :: p.released } := by
  simp only [step] at h
  split at h
  · next hc =>
    obtain ⟨⟨⟨-, hlt⟩, -⟩, hfree⟩ : ((p.stage.idle = true ∧ i < p.stage.registries.length) ∧ i ∉ p.released) ∧
      ∀ f ∈ p.stage.stack, f.registry ≠ i := by simpa using hc
    exact ⟨hlt, hfree, (Option.some.inj h).symm⟩
  · exact nomatch h

/-- An act makes one move on the stage, or none. -/
theorem stage_of_step {a : Act} (h : p.step a = some q) :
    ((∃ m, p.stage.step m = some q.stage) ∨ q.stage = p.stage) ∧ p.released ⊆ q.released := by
  cases a with
  | move m =>
    obtain ⟨-, stage, hstage, rfl⟩ := of_move h
    exact ⟨.inl ⟨m, hstage⟩, List.Subset.refl _⟩
  | unsubscribe handle =>
    obtain ⟨hd, -, ⟨n, stage, -, -, hstage, rfl⟩ | ⟨-, rfl⟩⟩ := of_unsubscribe h
    · exact ⟨.inl ⟨_, hstage⟩, List.Subset.refl _⟩
    · exact ⟨.inr rfl, List.Subset.refl _⟩
  | drop handle =>
    obtain ⟨-, rfl⟩ := of_drop h
    exact ⟨.inr rfl, List.Subset.refl _⟩
  | release i =>
    obtain ⟨-, -, rfl⟩ := of_release h
    exact ⟨.inr rfl, List.subset_cons_self _ _⟩

/-! Handles and subscribers -/

/-- The handles of each registry, in their order, are those of the subscribers it made, and nothing is in progress in a
registry that was released. -/
structure Orderly (p : Program) : Prop extends Honest p.stage where
  numbered : ∀ i, p.handles.filterMap (Handle.of? i) = ((made i p.stage.history).map (·.id)).reverse
  quiet : ∀ i ∈ p.released, ∀ f ∈ p.stage.stack, f.registry ≠ i

theorem Handle.of?_eq_some {h : Handle} : h.of? i = some n ↔ ∃ held, h = ⟨i, some n, held⟩ := by
  obtain ⟨j, subscriber, held⟩ := h
  simp only [Handle.of?, Handle.mk.injEq]
  constructor
  · intro hof
    split at hof
    · next hj => exact ⟨held, hj, hof, rfl⟩
    · exact nomatch hof
  · rintro ⟨-, rfl, rfl, -⟩
    exact if_pos rfl

theorem grants_iff : p.Grants handle i n ↔ ∃ hd, p.handles[handle]? = some hd ∧ hd.of? i = some n := by
  simp only [Grants, Handle.of?_eq_some]
  constructor
  · rintro ⟨held, h⟩
    exact ⟨_, h, held, rfl⟩
  · rintro ⟨_, h, held, rfl⟩
    exact ⟨held, h⟩

theorem filterMap_modify {α β : Type} {f : α → Option β} {g : α → α} (hfg : ∀ a, f (g a) = f a) (l : List α) (k : Nat) :
    (l.modify k g).filterMap f = l.filterMap f := by
  induction l generalizing k with
  | nil => cases k <;> rfl
  | cons a l ih =>
    cases k with
    | zero => simp [List.filterMap_cons, hfg]
    | succ k => simp [List.filterMap_cons, ih]

theorem numbered_spend (p : Program) (handle i : Nat) :
    (p.spend handle).handles.filterMap (Handle.of? i) = p.handles.filterMap (Handle.of? i) := by
  have hof (h : Handle) : Handle.of? i { h with held := false } = h.of? i := rfl
  exact filterMap_modify hof _ _

/-- Spending a handle does not change whose it was. -/
theorem grants_spend {spent : Nat} : (p.spend spent).Grants handle i n ↔ p.Grants handle i n := by
  simp only [grants_iff, spend, List.getElem?_modify, Option.map_eq_map, Option.map_eq_some_iff]
  constructor
  · rintro ⟨_, ⟨hd, hget, rfl⟩, hof⟩
    refine ⟨hd, hget, ?_⟩
    split at hof <;> exact hof
  · rintro ⟨hd, hget, hof⟩
    refine ⟨_, ⟨hd, hget, rfl⟩, ?_⟩
    split <;> exact hof

/-- The handle an operation returns is that of the subscriber it made. -/
theorem issued_perform {s : Stage} {j : Nat} {op : Op} {r : Registry} (hr : s.registries[j]? = some r)
    (due : List Subscriber) (i : Nat) :
    (issued s (.perform j op)).filterMap (Handle.of? i) =
      ((Event.performed j op (r.perform op).reply due).made? i).toList.map (·.id) := by
  cases op with
  | subscribe filter =>
    simp only [issued, List.getD_eq_getElem?_getD, hr, Option.getD_some, perform, Registry.subscribe]
    by_cases hj : j = i
    · cases r.closed <;> simp [Handle.of?, Event.made?, Reply.subscriber?, unchanged, hj]
    · cases r.closed <;> simp [Handle.of?, Event.made?, Reply.subscriber?, unchanged, hj]
  | _ => rfl

namespace Orderly

/-- A subscriber that a registry made has one handle. -/
theorem grants_iff_made (h : Orderly p) : (∃ handle, p.Grants handle i n) ↔ ∃ sub ∈ made i p.stage.history, sub.id = n := by
  have hmem : n ∈ p.handles.filterMap (Handle.of? i) ↔ n ∈ ((made i p.stage.history).map (·.id)).reverse := by
    rw [h.numbered]
  rw [List.mem_reverse, List.mem_map, List.mem_filterMap] at hmem
  rw [← hmem]
  simp only [grants_iff, List.mem_iff_getElem?]
  constructor
  · rintro ⟨handle, hd, hget, hof⟩
    exact ⟨hd, ⟨handle, hget⟩, hof⟩
  · rintro ⟨hd, ⟨handle, hget⟩, hof⟩
    exact ⟨handle, hd, hget, hof⟩

theorem grants_unique (h : Orderly p) {other : Nat} (hg : p.Grants handle i n) (ho : p.Grants other i n) :
    handle = other := by
  have hnodup : (p.handles.filterMap (Handle.of? i)).Nodup := by
    rw [h.numbered]
    exact List.nodup_reverse.mpr (roll h.genuine i).nodup_ids
  rw [List.Nodup, List.pairwise_filterMap, List.pairwise_iff_getElem] at hnodup
  obtain ⟨hd, hget, hof⟩ := grants_iff.mp hg
  obtain ⟨od, oget, oof⟩ := grants_iff.mp ho
  obtain ⟨hlt, rfl⟩ := List.getElem?_eq_some_iff.mp hget
  obtain ⟨olt, rfl⟩ := List.getElem?_eq_some_iff.mp oget
  rcases Nat.lt_trichotomy handle other with hord | heq | hord
  · exact absurd rfl (hnodup _ _ hlt olt hord n hof n oof)
  · exact heq
  · exact absurd rfl (hnodup _ _ olt hlt hord n oof n hof)

theorem move (h : Orderly p) {m : Move} (hs : p.step (.move m) = some q) : Orderly q := by
  obtain ⟨hallowed, stage, hstage, rfl⟩ := of_move hs
  refine ⟨h.toHonest.step hstage, fun i => ?_, fun i hi f hf => ?_⟩
  · rw [List.filterMap_append, h.numbered]
    cases m with
    | found =>
      obtain ⟨-, rfl⟩ := Stage.of_found hstage
      exact List.append_nil _
    | perform j op =>
      obtain ⟨r, -, hr, -, rfl⟩ := Stage.of_perform hstage
      rw [issued_perform hr, made_cons, List.map_append, List.reverse_append]
      cases (Event.performed j op (r.perform op).reply (r.perform op).due).made? i <;> rfl
    | reach n =>
      obtain ⟨j, cause, due, rest, sub, r, -, -, -, -, ⟨-, rfl⟩ | ⟨-, rfl⟩⟩ := Stage.of_reach hstage
      · exact List.append_nil _
      · exact List.append_nil _
    | leave =>
      obtain ⟨j, n, rest, -, rfl⟩ := Stage.of_leave hstage
      exact List.append_nil _
  · obtain ⟨g, hg, hgf⟩ | ⟨op, rfl⟩ := Stage.frame_of_step hstage hf
    · exact hgf ▸ h.quiet i hi g hg
    · rintro rfl
      cases op <;> simp [allows, hi] at hallowed

theorem spend (h : Orderly p) (handle : Nat) : Orderly (p.spend handle) :=
  ⟨h.toHonest, fun i => (numbered_spend p handle i).trans (h.numbered i), h.quiet⟩

theorem step {a : Act} (h : Orderly p) (hs : p.step a = some q) : Orderly q := by
  cases a with
  | move m => exact h.move hs
  | unsubscribe handle =>
    obtain ⟨hd, -, ⟨n, stage, -, hthere, hstage, rfl⟩ | ⟨-, rfl⟩⟩ := of_unsubscribe hs
    · refine ⟨h.toHonest.step hstage, fun i => ?_, fun i hi f hf => ?_⟩
      · obtain ⟨r, -, -, -, rfl⟩ := Stage.of_perform hstage
        exact (h.spend handle).numbered i
      · obtain ⟨g, hg, hgf⟩ | ⟨op, hop⟩ := Stage.frame_of_step hstage hf
        · exact hgf ▸ h.quiet i hi g hg
        · rintro rfl
          exact hthere ((Move.perform.inj hop).1 ▸ hi)
    · exact h.spend handle
  | drop handle =>
    obtain ⟨-, rfl⟩ := of_drop hs
    exact h.spend handle
  | release i =>
    obtain ⟨-, hfree, rfl⟩ := of_release hs
    refine ⟨h.toHonest, h.numbered, fun j hj => ?_⟩
    rcases List.mem_cons.mp hj with rfl | hj
    · exact hfree
    · exact h.quiet j hj

end Orderly

theorem orderly {acts : List Act} (h : run {} acts = some p) : Orderly p := by
  refine foldlM_induction h ?_ fun _ _ _ ho hs => ho.step hs
  exact ⟨honest (rfl : Stage.run {} [] = some {}), fun _ => rfl, nofun⟩

/-! What ends a subscription -/

theorem Grants.step {a : Act} (hg : p.Grants handle i n) (hs : p.step a = some q) : q.Grants handle i n := by
  cases a with
  | move m =>
    obtain ⟨-, stage, -, rfl⟩ := of_move hs
    obtain ⟨held, hget⟩ := hg
    exact ⟨held, List.getElem?_append_left (List.getElem?_eq_some_iff.mp hget).1 ▸ hget⟩
  | unsubscribe k =>
    obtain ⟨hd, -, ⟨m, stage, -, -, -, rfl⟩ | ⟨-, rfl⟩⟩ := of_unsubscribe hs
    · exact grants_spend.mpr hg
    · exact grants_spend.mpr hg
  | drop k =>
    obtain ⟨-, rfl⟩ := of_drop hs
    exact grants_spend.mpr hg
  | release j =>
    obtain ⟨-, -, rfl⟩ := of_release hs
    exact hg

theorem done_move {m : Move} (hs : p.step (.move m) = some q) :
    q.Done i n ↔ p.Done i n ∨ .move m ∈ endings handle i := by
  obtain ⟨hallowed, stage, hstage, rfl⟩ := of_move hs
  simp only [Done, endings]
  cases m with
  | found =>
    obtain ⟨-, rfl⟩ := Stage.of_found hstage
    simp
  | perform j op =>
    obtain ⟨r, -, -, -, rfl⟩ := Stage.of_perform hstage
    simp only [retired_cons]
    cases op with
    | unsubscribe k => exact nomatch hallowed
    | close => by_cases hj : j = i <;> simp [Event.retires, hj]
    | _ => simp [Event.retires]
  | reach k =>
    obtain ⟨j, cause, due, rest, sub, r, -, -, -, -, ⟨-, rfl⟩ | ⟨-, rfl⟩⟩ := Stage.of_reach hstage
    · simp [retired_cons, Event.retires]
    · simp [retired_cons, Event.retires]
  | leave =>
    obtain ⟨j, k, rest, -, rfl⟩ := Stage.of_leave hstage
    simp [retired_cons, Event.retires]

/-- A handle ends its own subscription, whatever number other subscribers have in other registries. -/
theorem done_unsubscribe (h : Orderly p) {k : Nat} (hs : p.step (.unsubscribe k) = some q) (hg : p.Grants handle i n) :
    q.Done i n ↔ p.Done i n ∨ k = handle := by
  obtain ⟨hd, hheld, hcase⟩ := of_unsubscribe hs
  obtain ⟨hget, -⟩ := held?_eq_some.mp hheld
  have hown (hk : k = handle) : hd.registry = i ∧ hd.subscriber = some n := by
    obtain ⟨held, hget'⟩ := hg
    rw [hk, hget'] at hget
    obtain rfl := Option.some.inj hget
    exact ⟨rfl, rfl⟩
  obtain ⟨m, stage, hm, -, hstage, rfl⟩ | ⟨hnone, rfl⟩ := hcase
  · have hother (hj : hd.registry = i) (hn : m = n) : k = handle := by
      refine h.grants_unique ?_ hg
      exact grants_iff.mpr ⟨hd, hget, by rw [Handle.of?, if_pos hj, hm, hn]⟩
    obtain ⟨r, -, -, -, rfl⟩ := Stage.of_perform hstage
    have hretires : (Event.performed hd.registry (.unsubscribe m) (r.perform (.unsubscribe m)).reply
        (r.perform (.unsubscribe m)).due).retires i n = true ↔ k = handle := by
      simp only [Event.retires, Bool.and_eq_true, decide_eq_true_eq]
      refine ⟨fun hboth => hother hboth.1 hboth.2, fun hk => ⟨(hown hk).1, ?_⟩⟩
      exact Option.some.inj (hm.symm.trans (hown hk).2)
    simp only [Done, retired_cons, Bool.or_eq_true, hretires, spend]
    tauto
  · constructor
    · exact .inl
    · rintro (hdone | hk)
      · exact hdone
      · -- Without a subscriber, or with its registry released, the handle has nothing left to end.
        obtain ⟨rfl, hn⟩ := hown hk
        refine hnone.elim (fun hno => ?_) .inr
        exact absurd (hn.symm.trans hno) (Option.some_ne_none n)

theorem done_step (h : Orderly p) {a : Act} (hs : p.step a = some q) (hg : p.Grants handle i n) :
    q.Done i n ↔ p.Done i n ∨ a ∈ endings handle i := by
  cases a with
  | move m => exact done_move hs
  | unsubscribe k =>
    rw [done_unsubscribe h hs hg]
    simp [endings]
  | drop k =>
    obtain ⟨-, rfl⟩ := of_drop hs
    simp [Done, endings, spend]
  | release j =>
    obtain ⟨-, -, rfl⟩ := of_release hs
    simp only [Done, endings, List.mem_cons, reduceCtorEq, Act.release.injEq, List.not_mem_nil]
    rw [eq_comm]
    tauto

/-- A subscriber is done with if it was before, or an act of the run ended its subscription. -/
theorem done_run {acts : List Act} (h : Orderly p) (hrun : p.run acts = some q) (hg : p.Grants handle i n) :
    q.Done i n ↔ p.Done i n ∨ ∃ a ∈ acts, a ∈ endings handle i := by
  induction acts generalizing p with
  | nil =>
    obtain rfl := Option.some.inj hrun
    simp
  | cons a acts ih =>
    rw [run, List.foldlM_cons] at hrun
    obtain ⟨u, hu, hrest⟩ := Option.bind_eq_some_iff.mp hrun
    rw [ih (h.step hu) hrest (hg.step hu), done_step h hu hg]
    simp [or_assoc]

/-! What follows -/

/-- From one program to a later one no callback of the subscriber begins. -/
def Silent (i n : Nat) (p q : Program) : Prop :=
  ∃ newer, q.stage.history = newer ++ p.stage.history ∧ ∀ cause members, .began i n cause members ∉ newer

theorem Done.step (hdone : p.Done i n) (h : Orderly p) {a : Act} (hs : p.step a = some q) : q.Done i n ∧ Silent i n p q := by
  obtain ⟨⟨m, hm⟩ | hsame, hreleased⟩ := stage_of_step hs
  · obtain ⟨newer, hnewer, hbegan⟩ := Stage.began_of_step h.toHonest hm
    refine ⟨hdone.imp (retired_mono ⟨newer, hnewer.symm⟩) fun hi => hreleased hi, newer, hnewer, fun cause members hmem => ?_⟩
    obtain ⟨hretired, f, hf, hfi⟩ := hbegan i n cause members hmem
    rcases hdone with hdone | hi
    · rw [hdone] at hretired
      exact nomatch hretired
    · exact h.quiet i hi f hf hfi
  · exact ⟨hdone.imp (hsame ▸ id) fun hi => hreleased hi, [], by simp [hsame], by simp⟩

theorem Done.silent (hdone : p.Done i n) (h : Orderly p) {acts : List Act} (hrun : p.run acts = some q) :
    Silent i n p q := by
  refine (foldlM_induction (P := fun u => Orderly u ∧ u.Done i n ∧ Silent i n p u) hrun ?_ ?_).2.2
  · exact ⟨h, hdone, [], rfl, by simp⟩
  · rintro u v a ⟨hu, hud, newer, hnewer, hsilent⟩ hs
    obtain ⟨hvd, later, hlater, hlsilent⟩ := hud.step hu hs
    refine ⟨hu.step hs, hvd, later ++ newer, by rw [hlater, hnewer, List.append_assoc], fun cause members hmem => ?_⟩
    rcases List.mem_append.mp hmem with hmem | hmem
    · exact hlsilent cause members hmem
    · exact hsilent cause members hmem

theorem Orderly.mem_audience (h : Orderly p) {sub : Subscriber} :
    sub ∈ p.audience i ↔ sub ∈ made i p.stage.history ∧ ¬ p.Done i sub.id := by
  have hroll : Roll i (p.stage.registries.getD i {}) p.stage.history := h.registries i ▸ roll h.genuine i
  unfold audience Done
  by_cases hreleased : i ∈ p.released
  · simp [hreleased]
  · rw [if_neg (by simpa using hreleased), hroll.mem_audience, Subscribed]
    simp [hreleased]

theorem made_of_run {acts : List Act} (hrun : p.run acts = some q) {sub : Subscriber} (hsub : sub ∈ made i p.stage.history) :
    sub ∈ made i q.stage.history := by
  refine foldlM_induction (P := fun u => sub ∈ made i u.stage.history) hrun hsub fun u v a hu hs => ?_
  obtain ⟨⟨m, hm⟩ | hsame, -⟩ := stage_of_step hs
  · have hone : u.stage.run [m] = some v.stage := by simp [Stage.run, hm]
    exact made_mono (Stage.run_grows hone).2 hu
  · exact hsame ▸ hu

end Program

/-- How subscriptions end, from a moment of a program on. The acts named may stand anywhere, so also in a callback, its own or
another's, inside fan-outs that still owe the subscriber a turn. -/
structure Final (p : Program) : Prop where
  /-- Once it is unsubscribed, a subscriber's callback never begins again. -/
  unsubscribed : ∀ handle i n q, p.Grants handle i n → p.step (.unsubscribe handle) = some q → ∀ more u, q.run more = some u →
    Program.Silent i n q u
  /-- Once a registry is closed, no callback of it begins again. -/
  closed : ∀ i q, p.step (.move (.perform i .close)) = some q → ∀ more u, q.run more = some u →
    ∀ n, Program.Silent i n q u
  /-- A subscriber has its handle, and only that one. -/
  handle : ∀ i sub, sub ∈ p.audience i → ∃! handle, p.Grants handle i sub.id
  /-- A subscriber stays subscribed until that handle is used up, its registry is closed or its registry is released. Other
  handles do nothing to it, of other registries too, and neither does dropping its own. -/
  stays : ∀ i sub handle, sub ∈ p.audience i → p.Grants handle i sub.id → ∀ more u, p.run more = some u →
    (sub ∈ u.audience i ↔ ∀ a ∈ more, a ∉ Program.endings handle i)
  /-- Whenever code of the program runs, it can give up a handle it has and close a registry it can reach. -/
  possible : p.stage.idle = true →
    (∀ handle hd, p.held? handle = some hd →
      (∃ q, p.step (.unsubscribe handle) = some q) ∧ ∃ q, p.step (.drop handle) = some q) ∧
    ∀ i, i < p.stage.registries.length → i ∉ p.released → ∃ q, p.step (.move (.perform i .close)) = some q

namespace Program

variable {p : Program}

/-- What a subscriber's registry needs to take its unsubscription. -/
theorem Orderly.permitted (h : Orderly p) {i n : Nat} {sub : Subscriber} (hsub : sub ∈ made i p.stage.history)
    (hn : sub.id = n) : ∃ r, p.stage.registries[i]? = some r ∧ (Op.unsubscribe n).permitted r = true := by
  obtain ⟨hpos, hle⟩ := (roll h.genuine i).mem_ids.mp ⟨sub, hsub, hn⟩
  obtain ⟨e, he, hmade⟩ := List.mem_filterMap.mp hsub
  obtain ⟨op, hop⟩ : ∃ op, e.opOn? i = some op := by
    by_contra hnone
    have hno : e.opOn? i = none := Option.eq_none_iff_forall_ne_some.mpr fun op hop => hnone ⟨op, hop⟩
    rw [(Event.not_about_of_none hno).1] at hmade
    exact nomatch hmade
  have hlt : i < p.stage.registries.length :=
    h.placed i op (List.mem_filterMap.mpr ⟨e, List.mem_reverse.mpr he, hop⟩)
  refine ⟨_, List.getElem?_eq_getElem hlt, ?_⟩
  rw [h.eq_registryAt (List.getElem?_eq_getElem hlt)]
  simp [Op.permitted, Nat.lt_of_succ_le hpos, hle]

theorem Orderly.unsubscribe_possible (h : Orderly p) (hidle : p.stage.idle = true) {handle : Nat} {hd : Handle}
    (hheld : p.held? handle = some hd) : ∃ q, p.step (.unsubscribe handle) = some q := by
  simp only [Program.step, hidle, hheld]
  split
  · next n hn hthere =>
    obtain ⟨hget, -⟩ := held?_eq_some.mp hheld
    have hgrants : p.Grants handle hd.registry n :=
      grants_iff.mpr ⟨hd, hget, by rw [Handle.of?, if_pos rfl, hn]⟩
    obtain ⟨sub, hsub, hid⟩ := h.grants_iff_made.mp ⟨handle, hgrants⟩
    obtain ⟨r, hr, hp⟩ := h.permitted hsub hid
    obtain ⟨stage, hstage⟩ := Stage.perform_possible hidle hr hp
    exact ⟨_, by rw [hstage]; rfl⟩
  · exact ⟨_, rfl⟩

end Program

/-- In every run, and at every moment of it, ending a subscription ends it for good, and ends no other. -/
theorem subscription_end_final {acts : List Act} {p : Program} (hrun : Program.run {} acts = some p) : Final p := by
  have h := Program.orderly hrun
  refine ⟨fun handle i n q hg hs more u hmore => ?_, fun i q hs more u hmore n => ?_, fun i sub hsub => ?_,
    fun i sub handle hsub hg more u hmore => ?_, fun hidle => ⟨fun handle hd hheld => ⟨?_, ?_⟩, fun i hlt hthere => ?_⟩⟩
  · have hdone : q.Done i n := (Program.done_step h hs hg).mpr (.inr (by simp [Program.endings]))
    exact hdone.silent (h.step hs) hmore
  · have hdone : q.Done i n := by
      obtain ⟨-, stage, hstage, rfl⟩ := Program.of_move hs
      obtain ⟨r, -, -, -, rfl⟩ := Stage.of_perform hstage
      exact .inl (by simp [retired_cons, Event.retires])
    exact hdone.silent (h.step hs) hmore
  · obtain ⟨hmade, -⟩ := h.mem_audience.mp hsub
    obtain ⟨handle, hg⟩ := h.grants_iff_made.mpr ⟨sub, hmade, rfl⟩
    exact ⟨handle, hg, fun other ho => h.grants_unique ho hg⟩
  · obtain ⟨hmade, hnot⟩ := h.mem_audience.mp hsub
    have hu : Program.Orderly u := foldlM_induction hmore h fun _ _ _ ho hs => ho.step hs
    rw [hu.mem_audience, and_iff_right (Program.made_of_run hmore hmade), Program.done_run h hmore hg]
    simp only [hnot, false_or, not_exists, not_and]
  · exact h.unsubscribe_possible hidle hheld
  · simp only [Program.step, hidle, hheld]
    exact ⟨_, rfl⟩
  · obtain ⟨stage, hstage⟩ := Stage.perform_possible hidle (List.getElem?_eq_getElem hlt) (rfl : Op.permitted _ .close = true)
    simp only [Program.step, hstage]
    rw [if_pos (by simpa [Program.allows] using hthere)]
    exact ⟨_, rfl⟩

/-- Two subscribers of one registry and the first of another, whose number is that of the first of the former. The handle of
the second is dropped. Its callback is then reached in a change, and again in a change made by itself. -/
def twiceReached : List Act :=
  [.move .found, .move .found,
    .move (.perform 0 (.subscribe none)), .move (.reach 1), .move .leave,
    .move (.perform 0 (.subscribe none)), .move (.reach 2), .move .leave,
    .move (.perform 1 (.subscribe none)), .move (.reach 1), .move .leave, .drop 1,
    .move (.perform 0 (.registerLocal (Member.new "a" "web"))), .move (.reach 2),
    .move (.perform 0 (.registerLocal (Member.new "b" "web"))), .move (.reach 2)]

/-- Both fan-outs still owe the first subscriber a turn when its handle is used up. It is passed over in both. -/
theorem ended_amid_fanouts :
    ∃ p q u, Program.run {} twiceReached = some p ∧ p.step (.unsubscribe 0) = some q ∧
      q.run [.move .leave, .move (.reach 1), .move .leave, .move (.reach 1)] = some u ∧
      pending 0 1 9 q.stage.stack = 1 ∧ pending 0 1 11 q.stage.stack = 1 ∧ u.stage.stack = [] ∧
      passed 0 1 9 u.stage.history = 1 ∧ passed 0 1 11 u.stage.history = 1 ∧
      (u.audience 0).map (·.id) = [2] ∧ (u.audience 1).map (·.id) = [1] ∧ Final p := by
  obtain ⟨p, q, u, hp, hq, hu, hrest⟩ : ∃ p q u, Program.run {} twiceReached = some p ∧ p.step (.unsubscribe 0) = some q ∧
      q.run [.move .leave, .move (.reach 1), .move .leave, .move (.reach 1)] = some u ∧
      pending 0 1 9 q.stage.stack = 1 ∧ pending 0 1 11 q.stage.stack = 1 ∧ u.stage.stack = [] ∧
      passed 0 1 9 u.stage.history = 1 ∧ passed 0 1 11 u.stage.history = 1 ∧
      (u.audience 0).map (·.id) = [2] ∧ (u.audience 1).map (·.id) = [1] :=
    ⟨_, _, _, rfl, rfl, rfl, rfl, rfl, rfl, rfl, rfl, rfl, rfl⟩
  obtain ⟨houter, hinner, hstack, hpassed, hpassed', hfirst, hsecond⟩ := hrest
  exact ⟨p, q, u, hp, hq, hu, houter, hinner, hstack, hpassed, hpassed', hfirst, hsecond, subscription_end_final hp⟩

end Roster.Registry
