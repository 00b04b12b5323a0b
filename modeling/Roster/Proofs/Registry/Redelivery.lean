import Roster.Proofs.Registry.Ownership
import Roster.Proofs.Registry.Replica

/-! Operations that come again or in another order. An operation about a member reads and writes only what the registry holds
under that member's id, so operations about different ids can change places. Of the updates about one id the last well-formed
one counts, so what was delivered once can be delivered again. -/
namespace Roster.Registry

/-! What a registry holds under one id -/

structure Cell where
  own : Bool
  entry : Option Entry

def cell (r : Registry) (id : String) : Cell := ⟨r.isLocal id, r.entries[id]?⟩

/-- All that is not held under an id. -/
def frame (r : Registry) : Registry := { r with entries := ∅, localIds := ∅ }

/-- The id of the member an operation is about. -/
def Op.target? : Op → Option String
  | .registerLocal m => some m.id
  | .unregisterLocal id => some id
  | .updateLocal id _ => some id
  | .applyRemote u => some u.id
  | _ => none

variable {r q : Registry} {op : Op} {t id : String}

theorem eq_of_cells (hframe : r.frame = q.frame) (hcells : ∀ id, r.cell id = q.cell id) : r = q := by
  obtain ⟨entries, localIds, subscribers, lastSubscriber, silenced, closed⟩ := r
  obtain ⟨entries', localIds', subscribers', lastSubscriber', silenced', closed'⟩ := q
  obtain rfl : entries = entries' :=
    Std.ExtTreeMap.ext_getElem? fun id => congrArg Cell.entry (hcells id)
  obtain rfl : localIds = localIds' :=
    Std.ExtTreeSet.ext_contains fun id => congrArg Cell.own (hcells id)
  simpa [frame] using hframe

theorem closed_of_frame (h : r.frame = q.frame) : r.closed = q.closed := by
  have hclosed := congrArg Registry.closed h
  exact hclosed

theorem target?_applyRemote (u : Update) : (Op.applyRemote u).target? = some u.id := rfl

theorem frame_perform (ht : op.target? = some t) : (r.perform op).registry.frame = r.frame := by
  cases op with
  | registerLocal m =>
    simp only [perform, registerLocal]
    split <;> rfl
  | unregisterLocal i =>
    simp only [perform, unregisterLocal]
    split <;> rfl
  | updateLocal i delta =>
    obtain ⟨entries, h⟩ := updateLocal_registry r i delta
    simp [perform, h, frame]
  | applyRemote u =>
    obtain ⟨entries, h⟩ := applyRemote_registry r u
    simp [perform, h, frame]
  | _ => simp [Op.target?] at ht

/-- An operation about one member writes nothing under another id. -/
theorem cell_perform_of_ne (ht : op.target? = some t) (hne : t ≠ id) : (r.perform op).registry.cell id = r.cell id := by
  cases op with
  | registerLocal m =>
    obtain rfl := Option.some.inj ht
    simp [cell, perform, isLocal_registerLocal, getElem?_entries_registerLocal r id hne, hne]
  | unregisterLocal i =>
    obtain rfl := Option.some.inj ht
    simp [cell, perform, isLocal_unregisterLocal, getElem?_entries_unregisterLocal, hne]
  | updateLocal i delta =>
    obtain rfl := Option.some.inj ht
    simp only [cell, perform, isLocal_updateLocal, Cell.mk.injEq, true_and]
    unfold updateLocal
    split
    · split
      · simp [Std.ExtTreeMap.getElem?_insert, hne]
      · rfl
    · rfl
  | applyRemote u =>
    obtain rfl := Option.some.inj ht
    simp only [cell, perform, isLocal_applyRemote, Cell.mk.injEq, true_and]
    unfold applyRemote
    split
    · rfl
    · split
      · rfl
      · split
        · split
          · simp [Std.ExtTreeMap.getElem?_erase, hne]
          · rfl
        · rfl
        · simp [Std.ExtTreeMap.getElem?_insert, hne]
  | _ => simp [Op.target?] at ht

/-- The update takes effect under the id. -/
def takes (r : Registry) (id : String) (u : Update) : Bool := !r.closed && (Op.applyRemote u).settles r id

/-- An update that takes effect leaves its snapshot, any other leaves what was there. -/
theorem cell_applyRemote (r : Registry) (u : Update) (id : String) :
    (r.applyRemote u).registry.cell id = if r.takes id u then ⟨false, (Op.applyRemote u).snapshot?⟩ else r.cell id := by
  by_cases hid : u.id = id
  · subst hid
    by_cases hopen : r.closed = false ∧ r.isLocal u.id = false
    · obtain ⟨hc, hl⟩ := hopen
      simp only [cell, isLocal_applyRemote, getElem?_entries_applyRemote r u.id u hc hl, takes, hc, hl]
      cases (Op.applyRemote u).settles r u.id <;> simp
    · have htakes : r.takes u.id u = false := by
        rw [Bool.eq_false_iff]
        intro h
        have heffect : r.closed = false ∧ u.wellFormed = true ∧ r.isLocal u.id = false := by
          simpa [takes, Op.settles] using h
        exact hopen ⟨heffect.1, heffect.2.2⟩
      obtain ⟨happlies, -⟩ | ⟨-, hr, -⟩ := applyRemote_cases r u
      · rw [Op.applies, Bool.and_eq_true, Bool.and_eq_true, Bool.and_eq_true, Bool.not_eq_true', Bool.not_eq_true'] at happlies
        exact absurd ⟨happlies.1.1.2, happlies.1.2⟩ hopen
      · rw [hr, htakes]
        rfl
  · have hother : (r.applyRemote u).registry.cell id = r.cell id := cell_perform_of_ne (target?_applyRemote u) hid
    simp [takes, Op.settles, hid, hother]

theorem getElem?_entries_updateLocal_self (r : Registry) (id : String) (delta : Keyed String) :
    (r.updateLocal id delta).registry.entries[id]? =
      if r.isLocal id then r.entries[id]?.map fun e => { e with member := e.member.mergeMetadata delta }
      else r.entries[id]? := by
  unfold updateLocal
  split
  · split
    · next e he => simp [he]
    · next he => simp [he]
  · rfl

/-- What an operation writes under the id of its member it reads off there. -/
theorem cell_perform_congr (ht : op.target? = some t) (hclosed : r.closed = q.closed) (hcell : r.cell t = q.cell t) :
    (r.perform op).registry.cell t = (q.perform op).registry.cell t := by
  obtain ⟨hlocal, hentry⟩ := Cell.mk.inj hcell
  cases op with
  | registerLocal m =>
    obtain rfl := Option.some.inj ht
    cases hq : q.closed with
    | true => simp [perform, registerLocal, hclosed, hq, hcell]
    | false => simp [cell, perform, registerLocal, hclosed, hq, isLocal]
  | unregisterLocal i =>
    obtain rfl := Option.some.inj ht
    simp [cell, perform, isLocal_unregisterLocal, getElem?_entries_unregisterLocal, hlocal, hentry]
  | updateLocal i delta =>
    obtain rfl := Option.some.inj ht
    simp [cell, perform, isLocal_updateLocal, getElem?_entries_updateLocal_self, hlocal, hentry]
  | applyRemote u =>
    obtain rfl := Option.some.inj ht
    simp [perform, cell_applyRemote, takes, Op.settles, hclosed, hlocal, hcell]
  | _ => simp [Op.target?] at ht

/-- What an operation about one member returns it reads off under the member's id, too. -/
theorem reply_perform_congr (ht : op.target? = some t) (hclosed : r.closed = q.closed) (hcell : r.cell t = q.cell t) :
    (r.perform op).reply = (q.perform op).reply := by
  obtain ⟨hlocal, hentry⟩ := Cell.mk.inj hcell
  cases op with
  | registerLocal m =>
    simp only [perform, registerLocal]
    split <;> split <;> rfl
  | unregisterLocal i =>
    obtain rfl := Option.some.inj ht
    simp only [perform, unregisterLocal, hlocal]
    split <;> rfl
  | updateLocal i delta =>
    obtain rfl := Option.some.inj ht
    simp [perform, reply_updateLocal, owned?, member?, hlocal, hentry]
  | applyRemote u =>
    obtain rfl := Option.some.inj ht
    have hheld : u.id ∈ r.entries ↔ u.id ∈ q.entries := by
      simp only [Std.ExtTreeMap.mem_iff_isSome_getElem?, hentry]
    simp only [perform, applyRemote, hclosed, hlocal, hheld]
    split
    · rfl
    · split
      · rfl
      · split
        · split <;> rfl
        · rfl
        · rfl
  | _ => simp [Op.target?] at ht

/-- Operations about different members can change places. -/
theorem perform_comm {x y : Op} {a b : String} (hx : x.target? = some a) (hy : y.target? = some b) (hne : a ≠ b) :
    ((r.perform x).registry.perform y).registry = ((r.perform y).registry.perform x).registry ∧
      ((r.perform x).registry.perform y).reply = (r.perform y).reply ∧
      ((r.perform y).registry.perform x).reply = (r.perform x).reply := by
  have hxframe := frame_perform (r := r) hx
  have hyframe := frame_perform (r := r) hy
  have hxclosed : (r.perform x).registry.closed = r.closed := closed_of_frame hxframe
  have hyclosed : (r.perform y).registry.closed = r.closed := closed_of_frame hyframe
  have hxcell : (r.perform x).registry.cell b = r.cell b := cell_perform_of_ne hx hne
  have hycell : (r.perform y).registry.cell a = r.cell a := cell_perform_of_ne hy hne.symm
  refine ⟨eq_of_cells ?_ fun id => ?_, reply_perform_congr hy hxclosed hxcell, reply_perform_congr hx hyclosed hycell⟩
  · rw [frame_perform hy, hxframe, frame_perform hx, hyframe]
  · by_cases ha : a = id
    · subst ha
      rw [cell_perform_of_ne hy hne.symm, cell_perform_congr hx hyclosed hycell]
    by_cases hb : b = id
    · subst hb
      rw [cell_perform_congr hy hxclosed hxcell, cell_perform_of_ne hx hne]
    · rw [cell_perform_of_ne hy hb, cell_perform_of_ne hx ha, cell_perform_of_ne hx ha, cell_perform_of_ne hy hb]

/-! Several operations -/

def performAll (r : Registry) (ops : List Op) : Registry := ops.foldl (fun r op => (r.perform op).registry) r

theorem performAll_append (r : Registry) (ops more : List Op) :
    r.performAll (ops ++ more) = (r.performAll ops).performAll more := by
  simp [performAll]

theorem outcomes_append (r : Registry) (ops more : List Op) :
    r.outcomes (ops ++ more) = r.outcomes ops ++ (r.performAll ops).outcomes more := by
  induction ops generalizing r with
  | nil => rfl
  | cons op ops ih => simp [outcomes, performAll, ih]

/-- Updates leave open and closed as it is, and whose members are whose. -/
theorem takes_applyAll (r : Registry) (us : List Update) (id : String) (u : Update) :
    (r.performAll (us.map .applyRemote)).takes id u = r.takes id u := by
  induction us generalizing r with
  | nil => rfl
  | cons v us ih =>
    have hclosed : (r.applyRemote v).registry.closed = r.closed := closed_of_frame (frame_perform (target?_applyRemote v))
    refine (ih _).trans ?_
    simp [takes, Op.settles, perform, isLocal_applyRemote, hclosed]

/-- Of the updates that take effect under an id the last one counts. -/
theorem cell_applyAll (r : Registry) (us : List Update) (id : String) :
    (r.performAll (us.map .applyRemote)).cell id =
      (us.reverse.find? (r.takes id)).elim (r.cell id) fun u => ⟨false, (Op.applyRemote u).snapshot?⟩ := by
  induction us using List.reverseRecOn with
  | nil => rfl
  | append_singleton us u ih =>
    simp only [List.map_append, List.map_cons, List.map_nil, performAll_append, List.reverse_append, List.reverse_cons,
      List.reverse_nil, List.nil_append, List.cons_append, List.find?_cons]
    refine (cell_applyRemote _ u id).trans ?_
    rw [takes_applyAll, ih]
    cases r.takes id u <;> rfl

theorem length_outcomes (r : Registry) (ops : List Op) : (r.outcomes ops).length = ops.length := by
  induction ops generalizing r with
  | nil => rfl
  | cons op ops ih => simp [outcomes, ih]

theorem frame_applyAll (r : Registry) (us : List Update) : (r.performAll (us.map .applyRemote)).frame = r.frame := by
  induction us generalizing r with
  | nil => rfl
  | cons u us ih => exact (ih _).trans (frame_perform (target?_applyRemote u))

/-- What was delivered once changes nothing when it is delivered again, all of it in the same order. -/
theorem applyAll_applyAll (r : Registry) (us : List Update) :
    (r.performAll (us.map .applyRemote)).performAll (us.map .applyRemote) = r.performAll (us.map .applyRemote) := by
  refine eq_of_cells (frame_applyAll _ us) fun id => ?_
  have htakes : (r.performAll (us.map .applyRemote)).takes id = r.takes id := funext (takes_applyAll r us id)
  rw [cell_applyAll, htakes, cell_applyAll]
  cases us.reverse.find? (r.takes id) <;> rfl

/-! Runs in which subscribers only listen -/

def Move.opOn? (i : Nat) : Move → Option Op
  | .perform j op => if j = i then some op else none
  | _ => none

/-- The operations that moves ask of a registry, by whomever. -/
def asked (i : Nat) (moves : List Move) : List Op := moves.filterMap (Move.opOn? i)

def Event.answer? (i : Nat) : Event → Option (Op × Reply)
  | .performed j op reply _ => if j = i then some (op, reply) else none
  | _ => none

/-- The operations performed on a registry with what they returned, in their order. -/
def answers (i : Nat) (history : List Event) : List (Op × Reply) := history.reverse.filterMap (Event.answer? i)

namespace Stage

variable {s t u : Stage} {i : Nat}

/-- The stage can come from the one to the other with these operations on a registry and no more, so that no subscriber
writes to it, and with these results. -/
def Leads (s : Stage) (i : Nat) (ops : List Op) (results : List (Op × Reply)) (t : Stage) : Prop :=
  ∃ moves events, s.run moves = some t ∧ asked i moves = ops ∧ t.history = events ++ s.history ∧ answers i events = results

theorem registries_step {m : Move} (h : s.step m = some t) (hr : s.registries[i]? = some r) :
    t.registries[i]? = some (r.performAll (m.opOn? i).toList) ∧
      ∃ events, t.history = events ++ s.history ∧ answers i events = r.outcomes (m.opOn? i).toList := by
  cases m with
  | found =>
    obtain ⟨-, rfl⟩ := of_found h
    refine ⟨?_, [], rfl, rfl⟩
    rw [List.getElem?_append_left (List.getElem?_eq_some_iff.mp hr).1]
    exact hr
  | perform j op =>
    obtain ⟨q, -, hq, -, rfl⟩ := of_perform h
    refine ⟨?_, [_], rfl, ?_⟩
    · by_cases hj : j = i
      · subst hj
        obtain rfl := Option.some.inj (hq.symm.trans hr)
        simp [Move.opOn?, performAll, List.getElem?_set_self (List.getElem?_eq_some_iff.mp hq).1]
      · simpa [Move.opOn?, hj, performAll, List.getElem?_set_ne hj] using hr
    · by_cases hj : j = i
      · subst hj
        obtain rfl := Option.some.inj (hq.symm.trans hr)
        simp [Move.opOn?, answers, Event.answer?, outcomes]
      · simp [Move.opOn?, answers, Event.answer?, outcomes, hj]
  | reach n =>
    obtain ⟨j, cause, due, rest, sub, q, -, -, -, -, ⟨-, rfl⟩ | ⟨-, rfl⟩⟩ := of_reach h
    · exact ⟨hr, [_], rfl, rfl⟩
    · exact ⟨hr, [_], rfl, rfl⟩
  | leave =>
    obtain ⟨j, n, rest, -, rfl⟩ := of_leave h
    exact ⟨hr, [_], rfl, rfl⟩

/-- A registry is what the operations asked of it make of it, however they are nested, and so are their results. -/
theorem registries_run {moves : List Move} (h : s.run moves = some t) (hr : s.registries[i]? = some r) :
    t.registries[i]? = some (r.performAll (asked i moves)) ∧
      ∃ events, t.history = events ++ s.history ∧ answers i events = r.outcomes (asked i moves) := by
  induction moves generalizing s r with
  | nil =>
    obtain rfl := Option.some.inj h
    exact ⟨hr, [], rfl, rfl⟩
  | cons m moves ih =>
    rw [run, List.foldlM_cons] at h
    obtain ⟨v, hv, hrest⟩ := Option.bind_eq_some_iff.mp h
    obtain ⟨hvr, older, hvh, holder⟩ := registries_step hv hr
    obtain ⟨htr, newer, hth, hnewer⟩ := ih hrest hvr
    have hasked : asked i (m :: moves) = (m.opOn? i).toList ++ asked i moves := by
      cases hm : m.opOn? i <;> simp [asked, hm]
    refine ⟨by rw [hasked, performAll_append, htr], newer ++ older, by simp [hth, hvh], ?_⟩
    rw [hasked, outcomes_append, ← holder, ← hnewer]
    simp [answers]

theorem Leads.result {ops : List Op} {results : List (Op × Reply)} (h : s.Leads i ops results t)
    (hr : s.registries[i]? = some r) : t.registries[i]? = some (r.performAll ops) ∧ results = r.outcomes ops := by
  obtain ⟨moves, events, hrun, rfl, hhistory, rfl⟩ := h
  obtain ⟨ht, events', hhistory', hanswers⟩ := registries_run hrun hr
  obtain rfl : events = events' := List.append_cancel_right (hhistory.symm.trans hhistory')
  exact ⟨ht, hanswers⟩

theorem run_append {moves more : List Move} (h : s.run moves = some t) (hmore : t.run more = some u) :
    s.run (moves ++ more) = some u := by
  rw [run, List.foldlM_append]
  exact Option.bind_eq_some_iff.mpr ⟨t, h, hmore⟩

theorem asked_append (i : Nat) (moves more : List Move) : asked i (moves ++ more) = asked i moves ++ asked i more := by
  simp [asked]

/-- The innermost fan-out gives its next subscriber a turn, who only listens. -/
theorem exists_run_turn {cause : Nat} {sub : Subscriber} {due : List Subscriber} {rest : List Frame}
    (hstack : s.stack = .fanout i cause (sub :: due) :: rest) (hr : s.registries[i]? = some r) :
    ∃ moves t, s.run moves = some t ∧ (∀ j, asked j moves = []) ∧ t.stack = pushDue i cause due rest ∧
      t.registries = s.registries := by
  by_cases hsilent : sub.id ∈ r.silenced
  · refine ⟨[.reach sub.id], {
      s with stack := pushDue i cause due rest, history := .passedOver i sub.id cause :: s.history },
      ?_, fun j => rfl, rfl, rfl⟩
    simp [run, step, hstack, hr, hsilent]
  · refine ⟨[.reach sub.id, .leave], {
      s with
      stack := pushDue i cause due rest
      history := .left i sub.id :: .began i sub.id cause (r.members sub.filter) :: s.history },
      ?_, fun j => rfl, rfl, rfl⟩
    simp [run, step, hstack, hr, hsilent]

theorem leads_of_run {moves : List Move} (h : s.run moves = some t) (hr : s.registries[i]? = some r) :
    s.Leads i (asked i moves) (r.outcomes (asked i moves)) t := by
  obtain ⟨-, events, hhistory, hanswers⟩ := registries_run h hr
  exact ⟨moves, events, h, rfl, hhistory, hanswers⟩

/-- A fan-out comes to its end without any operation. -/
theorem exists_run_drained {cause : Nat} {due : List Subscriber} {rest : List Frame}
    (hstack : s.stack = pushDue i cause due rest) (hr : s.registries[i]? = some r) :
    ∃ moves t, s.run moves = some t ∧ (∀ j, asked j moves = []) ∧ t.stack = rest ∧ t.registries = s.registries := by
  induction due generalizing s with
  | nil => exact ⟨[], s, rfl, fun j => rfl, hstack, rfl⟩
  | cons sub due ih =>
    obtain ⟨first, u, hfirst, haskedFirst, hu, huregistries⟩ := exists_run_turn hstack hr
    obtain ⟨more, t, hmore, haskedMore, ht, htregistries⟩ := ih hu (huregistries ▸ hr)
    exact ⟨first ++ more, t, run_append hfirst hmore, fun j => by rw [asked_append, haskedFirst, haskedMore, List.append_nil],
      ht, htregistries.trans huregistries⟩

theorem stack_of_perform (h : s.step (.perform i op) = some t) (hr : s.registries[i]? = some r) :
    t.stack = pushDue i s.history.length (r.perform op).due s.stack ∧ t.registries[i]? = some (r.perform op).registry := by
  obtain ⟨q, -, hq, -, rfl⟩ := of_perform h
  obtain rfl := Option.some.inj (hq.symm.trans hr)
  exact ⟨rfl, List.getElem?_set_self (List.getElem?_eq_some_iff.mp hr).1⟩

/-- Operations about members can be performed one after the other, each of them after the fan-out of the one before. -/
theorem exists_run_asked {ops : List Op} (hidle : s.idle = true) (hr : s.registries[i]? = some r)
    (hops : ∀ op ∈ ops, op.target? ≠ none) :
    ∃ moves t, s.run moves = some t ∧ asked i moves = ops := by
  induction ops generalizing s r with
  | nil => exact ⟨[], s, rfl, rfl⟩
  | cons op ops ih =>
    have hpermitted : op.permitted r = true := by
      cases op with
      | unsubscribe n => exact absurd rfl (hops _ List.mem_cons_self)
      | _ => rfl
    obtain ⟨v, hv⟩ := perform_possible hidle hr hpermitted
    obtain ⟨hvstack, hvr⟩ := stack_of_perform hv hr
    obtain ⟨drain, w, hdrain, haskedDrain, hwstack, hwregistries⟩ := exists_run_drained hvstack hvr
    have hwidle : w.idle = true := by
      rw [idle, hwstack]
      exact hidle
    obtain ⟨more, t, hmore, rfl⟩ := ih hwidle (hwregistries ▸ hvr) fun op h => hops op (List.mem_cons_of_mem _ h)
    have hrun : s.run (.perform i op :: (drain ++ more)) = some t := by
      rw [run, List.foldlM_cons, hv]
      exact run_append hdrain hmore
    refine ⟨_, t, hrun, ?_⟩
    have hcons : asked i (.perform i op :: (drain ++ more)) = op :: asked i (drain ++ more) := by simp [asked, Move.opOn?]
    rw [hcons, asked_append, haskedDrain, List.nil_append]

end Stage

/-- Whatever a registry holds, and with subscribers that only listen: streamed updates that are delivered again, all of them in
the same order, leave it as it was after the first time, and two operations about different members that follow one another can
change places without a change to it or to their results. All of them can be performed in such a way. -/
theorem redelivery_and_reordering_harmless {s : Stage} {i : Nat} {r : Registry} (hr : s.registries[i]? = some r) :
    (∀ (us : List Update) once twice t u, s.Leads i (us.map .applyRemote) once t →
      s.Leads i (us.map .applyRemote ++ us.map .applyRemote) twice u →
      ∃ q, t.registries[i]? = some q ∧ u.registries[i]? = some q) ∧
    (∀ x y a b, x.target? = some a → y.target? = some b → a ≠ b → ∀ before later straight swapped t u,
      s.Leads i (before ++ x :: y :: later) straight t → s.Leads i (before ++ y :: x :: later) swapped u →
      (∃ q, t.registries[i]? = some q ∧ u.registries[i]? = some q) ∧
      ∃ older xr yr newer, older.length = before.length ∧ straight = older ++ (x, xr) :: (y, yr) :: newer ∧
        swapped = older ++ (y, yr) :: (x, xr) :: newer) ∧
    ∀ ops, (∀ op ∈ ops, op.target? ≠ none) → s.idle = true → ∃ results t, s.Leads i ops results t := by
  refine ⟨fun us once twice t u honce htwice => ?_, fun x y a b hx hy hne before later straight swapped t u hstraight hswapped => ?_,
    fun ops hops hidle => ?_⟩
  · obtain ⟨ht, -⟩ := honce.result hr
    obtain ⟨hu, -⟩ := htwice.result hr
    rw [performAll_append, applyAll_applyAll] at hu
    exact ⟨_, ht, hu⟩
  · obtain ⟨ht, rfl⟩ := hstraight.result hr
    obtain ⟨hu, rfl⟩ := hswapped.result hr
    obtain ⟨hsame, hyreply, hxreply⟩ := perform_comm (r := r.performAll before) hx hy hne
    have hall : r.performAll (before ++ y :: x :: later) = r.performAll (before ++ x :: y :: later) := by
      rw [performAll_append, performAll_append]
      exact congrArg (performAll · later) hsame.symm
    refine ⟨⟨_, ht, hall ▸ hu⟩, r.outcomes before, _, _, _, length_outcomes r before, outcomes_append r before _, ?_⟩
    rw [outcomes_append, outcomes, outcomes, hsame, hxreply, ← hyreply]
  · obtain ⟨moves, t, hrun, rfl⟩ := Stage.exists_run_asked hidle hr hops
    exact ⟨_, t, Stage.leads_of_run hrun hr⟩

/-- A member of the client's own, and one who listens to all changes. -/
def beforehand : List Move :=
  [.found, .perform 0 (.registerLocal (Member.new "own" "web")), .perform 0 (.subscribe none), .reach 1, .leave]

/-- Streamed: a member comes, one of the client's own is said to go, a member is left out, another member comes and goes. -/
def streamed : List Update :=
  [.ofRegister (Member.new "a" "web") ⟨"n", 1⟩, .ofUnregister "own" none, ⟨"a", .metadata, none, some ⟨"n", 2⟩⟩,
    .ofRegister (Member.new "b" "web") ⟨"n", 3⟩, .ofUnregister "b" none]

/-- An operation of which the one who listens hears. -/
def heard (op : Op) : List Move := [.perform 0 op, .reach 1, .leave]

/-- The updates are performed; three of them change something. -/
def delivered : List Move :=
  heard (.applyRemote (.ofRegister (Member.new "a" "web") ⟨"n", 1⟩)) ++
    [.perform 0 (.applyRemote (.ofUnregister "own" none)), .perform 0 (.applyRemote ⟨"a", .metadata, none, some ⟨"n", 2⟩⟩)] ++
    heard (.applyRemote (.ofRegister (Member.new "b" "web") ⟨"n", 3⟩)) ++ heard (.applyRemote (.ofUnregister "b" none))

/-- Twice delivered, "a" is there once; and whether "c" is registered before or after "own" is let go makes no difference. -/
theorem delivered_twice_and_swapped :
    ∃ s r t u v w, Stage.run {} beforehand = some s ∧ s.registries[0]? = some r ∧ s.run delivered = some t ∧
      s.run (delivered ++ delivered) = some u ∧ t.registries[0]? = u.registries[0]? ∧
      s.run (heard (.registerLocal (Member.new "c" "web")) ++ heard (.unregisterLocal "own")) = some v ∧
      s.run (heard (.unregisterLocal "own") ++ heard (.registerLocal (Member.new "c" "web"))) = some w ∧
      v.registries[0]? = w.registries[0]? := by
  obtain ⟨s, r, t, u, v, w, hs, hr, ht, hu, hv, hw⟩ : ∃ s r t u v w, Stage.run {} beforehand = some s ∧
      s.registries[0]? = some r ∧ s.run delivered = some t ∧ s.run (delivered ++ delivered) = some u ∧
      s.run (heard (.registerLocal (Member.new "c" "web")) ++ heard (.unregisterLocal "own")) = some v ∧
      s.run (heard (.unregisterLocal "own") ++ heard (.registerLocal (Member.new "c" "web"))) = some w :=
    ⟨_, _, _, _, _, _, rfl, rfl, rfl, rfl, rfl, rfl⟩
  obtain ⟨hdelivered, hordered, -⟩ := redelivery_and_reordering_harmless hr
  obtain ⟨q, htq, huq⟩ := hdelivered streamed _ _ t u (Stage.leads_of_run ht hr) (Stage.leads_of_run hu hr)
  obtain ⟨⟨p, hvp, hwp⟩, -⟩ := hordered (.registerLocal (Member.new "c" "web")) (.unregisterLocal "own") "c" "own" rfl rfl
    (by decide) [] [] _ _ v w (Stage.leads_of_run hv hr) (Stage.leads_of_run hw hr)
  exact ⟨s, r, t, u, v, w, hs, hr, ht, hu, htq.trans huq.symm, hv, hw, hvp.trans hwp.symm⟩

end Roster.Registry
