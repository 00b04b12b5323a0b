import Roster.Proofs.Session.Errands

/-! The course of one epoch: its two tasks and what they asked of the transport. `Course.Turn` lists what can become of it in a
move, and in which; `turn_of_step` shows that there is nothing else. -/
namespace Roster.Session

/-- The call by which a caller asks for something. -/
def Event.askedBy? (caller : Caller) : Event → Option (Nat × Request)
  | .called call asker request => if asker = caller then some (call, request) else none
  | _ => none

/-- All that a caller asked of the transport, newest first. -/
def asked (caller : Caller) (history : List (Nat × Event)) : List (Nat × Request) :=
  history.filterMap (·.2.askedBy? caller)

structure Course where
  runner : Option Runner
  heart : Option Heart
  asked : List (Nat × Request)

def course (s : Session) (id : Nat) : Course where
  runner := (s.epoch? id).map (·.runner)
  heart := (s.epoch? id).map (·.heart)
  asked := asked (.epoch id) s.history

/-- Several calls, newest first; their ids follow the last one. -/
def nextCalls (s : Session) (requests : List Request) : List (Nat × Request) :=
  (((List.range requests.length).map (s.lastCall + 1 + ·)).zip requests).reverse

inductive Course.Turn (s : Session) (id : Nat) : Move → Course → Prop
  | rest {m : Move} : Turn s id m (s.course id)
  | begin {m : Move} (ha : s.watch.Awake) (h : (s.course id).runner = none) :
      Turn s id m { s.course id with runner := some .starting, heart := some .absent }
  | restore (h : (s.course id).runner = some .starting) :
      Turn s id (.restore id) { s.course id with
        runner := some (.restoring ((List.range s.registry.localMembers.length).map (s.lastCall + 1 + ·)))
        asked := s.nextCalls (s.registry.localMembers.map .register) ++ (s.course id).asked }
  | resume (calls : List Nat) (deadline : Nat) (h : (s.course id).runner = some (.restoring calls))
      (ha : ∀ c ∈ calls, s.answered c = true) :
      Turn s id (.openStream id) ⟨some (.opening (s.lastCall + 1) deadline), some .starting,
        (s.lastCall + 1, .subscribe s.registry.knownVersions) :: (s.course id).asked⟩
  | run {m : Move} (old new : Runner) (h : (s.course id).runner = some old) (ho : old ≠ .stopped)
      (hn : new = .stopped ∨ ∃ i, new = .reading i) : Turn s id m { s.course id with runner := some new }
  | beat (deadline next : Nat)
      (h : (s.course id).heart = some .starting ∨ ∃ due, (s.course id).heart = some (.waiting due)) :
      Turn s id (.beat id) { s.course id with
        heart := some (.sending (s.lastCall + 1) deadline next)
        asked := (s.lastCall + 1, .heartbeat) :: (s.course id).asked }
  | pulse {m : Move} (old new : Heart) (h : (s.course id).heart = some old) (ho : old ≠ .absent ∧ old ≠ .stopped)
      (hn : new = .stopped ∨ ∃ due, new = .waiting due) : Turn s id m { s.course id with heart := some new }

variable {s s' : Session} {id j : Nat} {caller : Caller}

/-! What the session's own operations do to the course of an epoch -/

theorem asked_note (s : Session) (caller : Caller) (e : Event) :
    asked caller (s.note e).history = (e.askedBy? caller).toList ++ asked caller s.history := by
  show List.filterMap _ ((s.now, e) :: s.history) = _
  rw [List.filterMap_cons]
  cases e.askedBy? caller <;> rfl

theorem asked_append (caller : Caller) (newer older : List (Nat × Event)) :
    asked caller (newer ++ older) = asked caller newer ++ asked caller older := List.filterMap_append

theorem mem_asked {time call : Nat} {request : Request} {history : List (Nat × Event)}
    (h : (time, .called call caller request) ∈ history) : (call, request) ∈ asked caller history :=
  List.mem_filterMap.mpr ⟨_, h, by simp [Event.askedBy?]⟩

theorem asked_begin (s : Session) (caller : Caller) (request : Request) :
    asked caller (s.begin caller request).history = (s.lastCall + 1, request) :: asked caller s.history := by
  have hasked := asked_note s caller (.called (s.lastCall + 1) caller request)
  rw [Event.askedBy?, if_pos rfl] at hasked
  exact hasked

@[simp] theorem course_note {e : Event} (s : Session) (h : e.askedBy? (.epoch id) = none) : (s.note e).course id = s.course id := by
  have hasked := asked_note s (.epoch id) e
  rw [h] at hasked
  exact congrArg (Course.mk _ _) hasked

@[simp] theorem course_setState (s : Session) (c : Connectivity) : (s.setState c).course id = s.course id := by
  unfold setState
  split
  · rfl
  · exact course_note _ rfl

@[simp] theorem course_apply (s : Session) (op : Registry.Op) : (s.apply op).course id = s.course id := by
  refine List.foldlRecOn (motive := fun t : Session => t.course id = s.course id) _ _ ?_ fun t ht d _ => ?_
  · exact course_note _ rfl
  · rw [course_note t rfl]
    exact ht

theorem course_begin_own (s : Session) (request : Request) :
    (s.begin (.epoch id) request).course id =
      { s.course id with asked := (s.lastCall + 1, request) :: (s.course id).asked } :=
  congrArg (Course.mk _ _) (asked_begin s (.epoch id) request)

theorem course_begin_other (s : Session) (h : caller ≠ .epoch id) (request : Request) :
    (s.begin caller request).course id = s.course id :=
  course_note { s with lastCall := s.lastCall + 1, calls := s.calls ++ [{ id := s.lastCall + 1, caller, request }] } (if_neg h)

theorem nextCalls_cons (s : Session) (caller : Caller) (r : Request) (rs : List Request) :
    s.nextCalls (r :: rs) = (s.begin caller r).nextCalls rs ++ [(s.lastCall + 1, r)] := by
  have hids : (List.range (rs.length + 1)).map (s.lastCall + 1 + ·) =
      (s.lastCall + 1) :: (List.range rs.length).map (s.lastCall + 1 + 1 + ·) := by
    rw [List.range_succ_eq_map, List.map_cons, List.map_map]
    refine congrArg (_ :: ·) (List.map_congr_left fun i _ => ?_)
    simp only [Function.comp]
    omega
  unfold nextCalls
  rw [List.length_cons, hids, List.zip_cons_cons, List.reverse_cons]
  rfl

theorem asked_beginAll (s : Session) (caller : Caller) (requests : List Request) :
    asked caller (s.beginAll caller requests).1.history = s.nextCalls requests ++ asked caller s.history := by
  unfold beginAll
  dsimp only
  induction requests generalizing s with
  | nil => rfl
  | cons r rs ih =>
    rw [List.foldl_cons, ih, asked_begin, nextCalls_cons s caller, List.append_assoc]
    rfl

theorem request_of_mem_nextCalls {requests : List Request} {x : Nat × Request} (h : x ∈ s.nextCalls requests) :
    x.2 ∈ requests :=
  (List.of_mem_zip (List.mem_reverse.mp h)).2

theorem id_of_mem_nextCalls {requests : List Request} {x : Nat × Request} (h : x ∈ s.nextCalls requests) :
    x.1 ∈ (List.range requests.length).map (s.lastCall + 1 + ·) :=
  (List.of_mem_zip (List.mem_reverse.mp h)).1

theorem course_beginAll_own (s : Session) (requests : List Request) :
    (s.beginAll (.epoch id) requests).1.course id =
      { s.course id with asked := s.nextCalls requests ++ (s.course id).asked } := by
  unfold course
  rw [epoch?_beginAll, asked_beginAll]

theorem course_beginAll_other (s : Session) (h : caller ≠ .epoch id) (requests : List Request) :
    (s.beginAll caller requests).1.course id = s.course id :=
  List.foldlRecOn (motive := fun t : Session => t.course id = s.course id) _ _ rfl fun t ht r _ =>
    (course_begin_other t h r).trans ht

@[simp] theorem course_settle (s : Session) (ids : List Nat) : (s.settle ids).course id = s.course id := rfl

@[simp] theorem course_setStream (s : Session) (i : Nat) (f : Stream → Stream) : (s.setStream i f).course id = s.course id := rfl

@[simp] theorem course_abandon (s : Session) (ids : List Nat) : (s.abandon ids).course id = s.course id := by
  refine List.foldlRecOn (motive := fun t : Session => t.course id = s.course id) _ _ rfl fun t ht c _ => ?_
  rw [course_note _ rfl, ← ht]
  split <;> rfl

@[simp] theorem course_returnWrite (s : Session) (k : Nat) (result : Except Failure Unit) :
    (s.returnWrite k result).course id = s.course id :=
  course_note (s.setProgress k (.done result)) rfl

@[simp] theorem course_reportBroken (s : Session) (j : Nat) : (s.reportBroken j).course id = s.course id :=
  course_note { s with broken := s.broken ++ [j] } rfl

@[simp] theorem course_readOn (s : Session) (j i : Nat) (item : Item) : (s.readOn j i item).course id = s.course id :=
  course_note (s.setStream i fun t => { t with taken := t.taken + 1 }) rfl

@[simp] theorem course_give (s : Session) (c : Nat) (a : Answer) : (s.give c a).course id = s.course id :=
  course_note { s with calls := s.calls.map fun (k : Call) => if k.id = c then { k with answer := some a } else k } rfl

@[simp] theorem course_release (s : Session) : s.release.course id = s.course id :=
  course_begin_other s (show Caller.closer ≠ .epoch id from nofun) .close

/-! Epochs -/

theorem course_setEpoch_other (s : Session) (h : id ≠ j) {f : Epoch → Epoch} (hf : ∀ e, (f e).id = e.id) :
    (s.setEpoch j f).course id = s.course id := by
  have hepoch : (s.setEpoch j f).epoch? id = s.epoch? id := (epoch?_setEpoch s j id hf).trans (if_neg h)
  unfold course
  rw [hepoch]
  rfl

theorem course_setEpoch_own {e : Epoch} (he : s.epoch? id = some e) {f : Epoch → Epoch} (hf : ∀ e, (f e).id = e.id) :
    (s.setEpoch id f).course id = ⟨some (f e).runner, some (f e).heart, (s.course id).asked⟩ := by
  have hepoch : (s.setEpoch id f).epoch? id = some (f e) := by rw [epoch?_setEpoch s id id hf, if_pos rfl, he]; rfl
  unfold course
  rw [hepoch]
  rfl

theorem course_of_epoch {e : Epoch} (he : s.epoch? id = some e) :
    s.course id = ⟨some e.runner, some e.heart, (s.course id).asked⟩ := by
  unfold course
  rw [he]
  rfl

theorem course_setEpoch_same (s : Session) (j : Nat) {f : Epoch → Epoch}
    (hf : ∀ e, (f e).id = e.id ∧ (f e).runner = e.runner ∧ (f e).heart = e.heart) :
    (s.setEpoch j f).course id = s.course id := by
  unfold course
  rw [epoch?_setEpoch s j id fun e => (hf e).1]
  split
  · cases s.epoch? id with
    | none => rfl
    | some e =>
      rw [Option.map_some, Option.map_some, Option.map_some, (hf e).2.1, (hf e).2.2]
      rfl
  · rfl

@[simp] theorem course_cancelLive (s : Session) : s.cancelLive.course id = s.course id := by
  unfold cancelLive
  split
  · rfl
  · rw [course_note _ rfl]
    exact course_setEpoch_same { s with live := none } _ fun _ => ⟨rfl, rfl, rfl⟩

theorem course_beginEpoch (s : Session) (id : Nat) :
    s.beginEpoch.course id = s.course id ∨ (s.course id).runner = none ∧
      s.beginEpoch.course id = { s.course id with runner := some .starting, heart := some .absent } := by
  have hasked : (s.beginEpoch.course id).asked = (s.course id).asked := by
    have hset : (s.setState .ready).course id = s.course id := course_setState s .ready
    exact (asked_note _ (.epoch id) (.epochBegan (s.lastEpoch + 1))).trans (congrArg Course.asked hset)
  have hepochs : (s.setState .ready).epochs = s.epochs := by
    unfold setState
    split <;> rfl
  have hepoch : s.beginEpoch.epoch? id = (s.epoch? id).or (if s.lastEpoch + 1 = id then some { id := s.lastEpoch + 1 } else none) := by
    show ((s.setState .ready).epochs ++ [({ id := s.lastEpoch + 1 } : Epoch)]).find? (·.id = id) = _
    rw [hepochs, List.find?_append, List.find?_singleton]
    simp only [decide_eq_true_eq]
    rfl
  have hview : s.beginEpoch.course id =
      ⟨(s.beginEpoch.epoch? id).map (·.runner), (s.beginEpoch.epoch? id).map (·.heart), (s.course id).asked⟩ :=
    congrArg (Course.mk _ _) hasked
  rw [hview, hepoch]
  cases he : s.epoch? id with
  | some e => exact .inl (by rw [course_of_epoch he]; rfl)
  | none =>
    rw [Option.none_or]
    split
    · exact .inr ⟨by unfold course; rw [he]; rfl, rfl⟩
    · exact .inl (by unfold course; rw [he])

namespace Course.Turn

theorem rest_of_eq (m : Move) {c : Course} (h : c = s.course id) : Turn s id m c := h ▸ .rest

end Course.Turn

theorem turn_look {t : Session} (ht : t.course id = s.course id) (m : Move) (ha : s.watch.Awake) :
    Course.Turn s id m (t.look.course id) := by
  have hbegin : Course.Turn s id m (({ t with reported := false } : Session).beginEpoch.course id) := by
    obtain hsame | ⟨hnone, hnew⟩ := course_beginEpoch { t with reported := false } id
    · exact .rest_of_eq m (hsame.trans ht)
    · have hnew : ({ t with reported := false } : Session).beginEpoch.course id =
          { t.course id with runner := some .starting, heart := some .absent } := hnew
      rw [hnew, ht]
      exact .begin ha (ht ▸ hnone)
  have hdepart : ({ t with reported := false } : Session).cancelLive.course id = s.course id :=
    (course_cancelLive { t with reported := false }).trans ht
  have hset (c : Connectivity) : (({ t with reported := false } : Session).cancelLive.setState c).course id = s.course id := by
    rw [course_setState, hdepart]
  unfold look
  dsimp only
  split
  · split
    · exact hbegin
    · exact .rest_of_eq m ht
  · exact .rest_of_eq m hdepart
  · exact .rest_of_eq m (hset _)

/-! The tasks of the epoch itself -/

theorem course_setRunner {e : Epoch} (he : s.epoch? id = some e) (r : Runner) :
    (s.setRunner id r).course id = { s.course id with runner := some r } := by
  have hset := course_setEpoch_own he (f := fun e => { e with runner := r }) fun _ => rfl
  rw [setRunner, hset, course_of_epoch he]

theorem course_setHeart {e : Epoch} (he : s.epoch? id = some e) (h : Heart) :
    (s.setHeart id h).course id = { s.course id with heart := some h } := by
  have hset := course_setEpoch_own he (f := fun e => { e with heart := h }) fun _ => rfl
  rw [setHeart, hset, course_of_epoch he]

theorem runner_course {e : Epoch} (he : s.epoch? id = some e) : (s.course id).runner = some e.runner := by
  rw [course_of_epoch he]

theorem heart_course {e : Epoch} (he : s.epoch? id = some e) : (s.course id).heart = some e.heart := by
  rw [course_of_epoch he]

theorem turn_restore (h : s.restore id = some s') : Course.Turn s id (.restore id) (s'.course id) := by
  obtain ⟨e, he, hr, rfl⟩ := of_restore h
  have hcalls : (s.beginAll (.epoch id) (s.registry.localMembers.map .register)).2 =
      (List.range s.registry.localMembers.length).map (s.lastCall + 1 + ·) := by
    unfold beginAll
    rw [List.length_map]
  rw [course_setRunner ((epoch?_beginAll s _ _ id).trans he), course_beginAll_own, hcalls]
  exact .restore (by rw [runner_course he, hr])

theorem turn_openStream (h : s.openStream id = some s') : Course.Turn s id (.openStream id) (s'.course id) := by
  obtain ⟨e, calls, he, hr, ha, rfl⟩ := of_openStream h
  have hsettle : (s.settle calls).epoch? id = some e := he
  have hheart : ((s.settle calls).setHeart id .starting).epoch? id = some { e with heart := .starting } := by
    have hset := epoch?_setEpoch (s.settle calls) id id (f := fun e => { e with heart := .starting }) fun _ => rfl
    rw [if_pos rfl, hsettle] at hset
    exact hset
  have hbegin : (((s.settle calls).setHeart id .starting).begin (.epoch id) (.subscribe s.registry.knownVersions)).epoch? id =
      some { e with heart := .starting } := hheart
  rw [course_setRunner hbegin, course_begin_own, course_setHeart hsettle, course_settle]
  exact .resume calls _ (by rw [runner_course he, hr]) ha

theorem turn_run {m : Move} {e : Epoch} (he : s.epoch? id = some e) {t : Session} (ht : t.course id = s.course id)
    (hepoch : t.epoch? id = some e) {r : Runner} (ho : e.runner ≠ .stopped) (hr : r = .stopped ∨ ∃ i, r = .reading i) :
    Course.Turn s id m ((t.setRunner id r).course id) := by
  rw [course_setRunner hepoch, ht]
  exact .run e.runner r (runner_course he) ho hr

theorem turn_pulse {m : Move} {e : Epoch} (he : s.epoch? id = some e) {t : Session} (ht : t.course id = s.course id)
    (hepoch : t.epoch? id = some e) {h : Heart} (ho : e.heart ≠ .absent ∧ e.heart ≠ .stopped)
    (hh : h = .stopped ∨ ∃ due, h = .waiting due) : Course.Turn s id m ((t.setHeart id h).course id) := by
  rw [course_setHeart hepoch, ht]
  exact .pulse e.heart h (heart_course he) ho hh

theorem turn_opened (h : s.opened id = some s') : Course.Turn s id (.opened id) (s'.course id) := by
  obtain ⟨e, call, deadline, a, he, hr, -, ⟨i, -, rfl⟩ | ⟨-, rfl⟩⟩ := of_opened h
  · rw [course_note _ rfl]
    exact turn_run he rfl he (by rw [hr]; exact nofun) (.inr ⟨i, rfl⟩)
  · rw [course_reportBroken]
    exact turn_run he rfl he (by rw [hr]; exact nofun) (.inl rfl)

theorem turn_quitReading {m : Move} {t : Session} {e : Epoch} {i : Nat} (he : s.epoch? id = some e)
    (hr : e.runner = .reading i) (ht : t.course id = s.course id) (hepoch : t.epoch? id = some e) :
    Course.Turn s id m ((t.quitReading id i).course id) := by
  unfold quitReading
  rw [course_reportBroken]
  have hset : (t.setStream i fun t => { t with reading := false }).epoch? id = some e := hepoch
  exact turn_run he ht hset (by rw [hr]; exact nofun) (.inl rfl)

theorem turn_take (h : s.take id = some s') : Course.Turn s id (.take id) (s'.course id) := by
  obtain ⟨e, i, t, he, hr, -, ⟨u, -, rfl⟩ | ⟨f, -, rfl⟩ | ⟨f, -, -, rfl⟩ | ⟨-, -, rfl⟩⟩ := of_take h
  · exact .rest_of_eq _ (by rw [course_apply, course_readOn])
  · exact .rest_of_eq _ (course_readOn s id i _)
  · exact turn_quitReading he hr (course_readOn s id i _) he
  · exact turn_quitReading he hr rfl he

theorem turn_stopRunner (h : s.stopRunner id = some s') : Course.Turn s id (.stopRunner id) (s'.course id) := by
  obtain ⟨e, he, -, ⟨calls, hr, rfl⟩ | ⟨call, deadline, hr, rfl⟩ | ⟨i, hr, rfl⟩ | ⟨hr, rfl⟩⟩ := of_stopRunner h
  · exact turn_run he (course_abandon s calls) ((epoch?_abandon s calls id).trans he) (by rw [hr]; exact nofun) (.inl rfl)
  · exact turn_run he (course_abandon s [call]) ((epoch?_abandon s [call] id).trans he) (by rw [hr]; exact nofun) (.inl rfl)
  · have hset : (s.setStream i fun t => { t with reading := false }).epoch? id = some e := he
    exact turn_run he (course_setStream s i _) hset (by rw [hr]; exact nofun) (.inl rfl)
  · exact turn_run he rfl he (by rw [hr]; exact nofun) (.inl rfl)

theorem turn_beat (h : s.beat id = some s') : Course.Turn s id (.beat id) (s'.course id) := by
  obtain ⟨e, due, he, hh, rfl⟩ := of_beat h
  have hbegin : (s.begin (.epoch id) .heartbeat).epoch? id = some e := he
  rw [course_setHeart hbegin, course_begin_own]
  refine .beat _ _ ?_
  rw [heart_course he]
  obtain ⟨hh, -⟩ | ⟨hh, -⟩ := hh
  · exact .inl (congrArg some hh)
  · exact .inr ⟨due, congrArg some hh⟩

theorem turn_beatAnswered (h : s.beatAnswered id = some s') : Course.Turn s id (.beatAnswered id) (s'.course id) := by
  obtain ⟨e, call, deadline, due, a, he, hh, -, ⟨f, -, rfl⟩ | ⟨-, rfl⟩⟩ := of_beatAnswered h
  · rw [course_reportBroken]
    exact turn_pulse he rfl he (by rw [hh]; exact ⟨nofun, nofun⟩) (.inl rfl)
  · exact turn_pulse he rfl he (by rw [hh]; exact ⟨nofun, nofun⟩) (.inr ⟨due, rfl⟩)

theorem turn_beatTimeout (h : s.beatTimeout id = some s') : Course.Turn s id (.beatTimeout id) (s'.course id) := by
  obtain ⟨e, call, deadline, due, he, hh, -, rfl⟩ := of_beatTimeout h
  rw [course_reportBroken]
  exact turn_pulse he (course_abandon s [call]) ((epoch?_abandon s [call] id).trans he) (by rw [hh]; exact ⟨nofun, nofun⟩)
    (.inl rfl)

theorem turn_stopHeart (h : s.stopHeart id = some s') : Course.Turn s id (.stopHeart id) (s'.course id) := by
  obtain ⟨e, he, -, ⟨call, deadline, due, hh, rfl⟩ | ⟨hh, rfl⟩⟩ := of_stopHeart h
  · exact turn_pulse he (course_abandon s [call]) ((epoch?_abandon s [call] id).trans he) (by rw [hh]; exact ⟨nofun, nofun⟩)
      (.inl rfl)
  · refine turn_pulse he rfl he ?_ (.inl rfl)
    obtain hh | ⟨due, hh⟩ := hh <;> rw [hh] <;> exact ⟨nofun, nofun⟩

theorem turn_openTimeout (h : s.openTimeout id = some s') : Course.Turn s id (.openTimeout id) (s'.course id) := by
  obtain ⟨e, call, deadline, he, hr, -, rfl⟩ := of_openTimeout h
  rw [course_reportBroken]
  exact turn_run he (course_abandon s [call]) ((epoch?_abandon s [call] id).trans he) (by rw [hr]; exact nofun) (.inl rfl)

/-! Moves -/

/-- The epoch whose tasks move. -/
def Move.epoch? : Move → Option Nat
  | .restore id | .openStream id | .opened id | .openTimeout id | .take id | .stopRunner id => some id
  | .beat id | .beatAnswered id | .beatTimeout id | .stopHeart id => some id
  | _ => none

theorem turn_of_own {m : Move} (h : s.step m = some s') (hm : m.epoch? = some id) : Course.Turn s id m (s'.course id) := by
  cases m with
  | restore => obtain rfl := Option.some.inj hm; exact turn_restore h
  | openStream => obtain rfl := Option.some.inj hm; exact turn_openStream h
  | opened => obtain rfl := Option.some.inj hm; exact turn_opened h
  | openTimeout => obtain rfl := Option.some.inj hm; exact turn_openTimeout h
  | take => obtain rfl := Option.some.inj hm; exact turn_take h
  | stopRunner => obtain rfl := Option.some.inj hm; exact turn_stopRunner h
  | beat => obtain rfl := Option.some.inj hm; exact turn_beat h
  | beatAnswered => obtain rfl := Option.some.inj hm; exact turn_beatAnswered h
  | beatTimeout => obtain rfl := Option.some.inj hm; exact turn_beatTimeout h
  | stopHeart => obtain rfl := Option.some.inj hm; exact turn_stopHeart h
  | _ => exact nomatch hm

theorem course_setRunner_other (s : Session) (hj : id ≠ j) (r : Runner) : (s.setRunner j r).course id = s.course id :=
  course_setEpoch_other s hj fun _ => rfl

theorem course_setHeart_other (s : Session) (hj : id ≠ j) (h : Heart) : (s.setHeart j h).course id = s.course id :=
  course_setEpoch_other s hj fun _ => rfl

theorem course_quitReading_other (s : Session) (hj : id ≠ j) (i : Nat) : (s.quitReading j i).course id = s.course id := by
  unfold quitReading
  rw [course_reportBroken, course_setRunner_other _ hj, course_setStream]

theorem course_of_other {m : Move} (h : s.step m = some s') (hm : m.epoch? = some j) (hj : id ≠ j) :
    s'.course id = s.course id := by
  have hcaller : Caller.epoch j ≠ .epoch id := fun heq => hj (Caller.epoch.inj heq).symm
  cases m with
  | restore =>
    obtain rfl := Option.some.inj hm
    obtain ⟨e, -, -, rfl⟩ := of_restore h
    rw [course_setRunner_other _ hj, course_beginAll_other s hcaller]
  | openStream =>
    obtain rfl := Option.some.inj hm
    obtain ⟨e, calls, -, -, -, rfl⟩ := of_openStream h
    rw [course_setRunner_other _ hj, course_begin_other _ hcaller, course_setHeart_other _ hj, course_settle]
  | opened =>
    obtain rfl := Option.some.inj hm
    obtain ⟨e, call, deadline, a, -, -, -, ⟨i, -, rfl⟩ | ⟨-, rfl⟩⟩ := of_opened h
    · rw [course_note _ rfl, course_setRunner_other _ hj, course_settle]
    · rw [course_reportBroken, course_setRunner_other _ hj, course_settle]
  | openTimeout =>
    obtain rfl := Option.some.inj hm
    obtain ⟨e, call, deadline, -, -, -, rfl⟩ := of_openTimeout h
    rw [course_reportBroken, course_setRunner_other _ hj, course_abandon]
  | take =>
    obtain rfl := Option.some.inj hm
    obtain ⟨e, i, t, -, -, -, ⟨u, -, rfl⟩ | ⟨f, -, rfl⟩ | ⟨f, -, -, rfl⟩ | ⟨-, -, rfl⟩⟩ := of_take h
    · rw [course_apply, course_readOn]
    · rw [course_readOn]
    · rw [course_quitReading_other _ hj, course_readOn]
    · rw [course_quitReading_other _ hj]
  | stopRunner =>
    obtain rfl := Option.some.inj hm
    obtain ⟨e, -, -, ⟨calls, -, rfl⟩ | ⟨call, deadline, -, rfl⟩ | ⟨i, -, rfl⟩ | ⟨-, rfl⟩⟩ := of_stopRunner h <;>
      simp only [course_setRunner_other _ hj, course_abandon, course_setStream]
  | beat =>
    obtain rfl := Option.some.inj hm
    obtain ⟨e, due, -, -, rfl⟩ := of_beat h
    rw [course_setHeart_other _ hj, course_begin_other _ hcaller]
  | beatAnswered =>
    obtain rfl := Option.some.inj hm
    obtain ⟨e, call, deadline, due, a, -, -, -, ⟨f, -, rfl⟩ | ⟨-, rfl⟩⟩ := of_beatAnswered h
    · rw [course_reportBroken, course_setHeart_other _ hj, course_settle]
    · rw [course_setHeart_other _ hj, course_settle]
  | beatTimeout =>
    obtain rfl := Option.some.inj hm
    obtain ⟨e, call, deadline, due, -, -, -, rfl⟩ := of_beatTimeout h
    rw [course_reportBroken, course_setHeart_other _ hj, course_abandon]
  | stopHeart =>
    obtain rfl := Option.some.inj hm
    obtain ⟨e, -, -, ⟨call, deadline, due, -, rfl⟩ | ⟨-, rfl⟩⟩ := of_stopHeart h <;>
      simp only [course_setHeart_other _ hj, course_abandon]
  | _ => exact nomatch hm

theorem course_startWrite (s : Session) (w : Write) : (s.startWrite w).course id = s.course id := by
  unfold startWrite
  dsimp only
  split
  · exact course_note { s with writings := _ } rfl
  · exact course_begin_other s (by simp) w.request

theorem course_effectWrite (s : Session) (k : Nat) (w : Write) : (s.effectWrite k w).course id = s.course id := by
  unfold effectWrite
  dsimp only
  split
  · split
    · show ((((s.apply _).apply _).begin (.write k) _).course id) = _
      rw [course_begin_other _ (by simp), course_apply, course_apply]
    · rw [course_returnWrite, course_apply]
  · rw [course_returnWrite, course_apply]
  · rw [course_returnWrite, course_apply]

theorem course_proceed {k : Nat} (h : s.proceed k = some s') : s'.course id = s.course id := by
  obtain ⟨w, call, a, -, -, ⟨-, ⟨code, reason, -, rfl⟩ | ⟨-, rfl⟩⟩ | ⟨-, rfl⟩⟩ := of_proceed h
  · rw [course_returnWrite, course_settle]
  · rw [course_effectWrite, course_settle]
  · rw [course_returnWrite, course_settle]

theorem course_answer {call : Nat} {failure : Option Failure} (h : s.answer call failure = some s') :
    s'.course id = s.course id := by
  obtain ⟨k, -, -, ⟨f, -, rfl⟩ | ⟨known, -, -, rfl⟩ | ⟨-, -, rfl⟩ | ⟨-, -, -, rfl⟩⟩ := of_answer h
  · exact course_give s call _
  · exact course_give { s with streams := s.streams ++ [({} : Stream)] } call _
  · exact course_give { s with connectivity := .closed, reported := true } call _
  · exact course_give s call _

/-- What a move can make of an epoch. -/
theorem turn_of_step {m : Move} (h : s.step m = some s') : Course.Turn s id m (s'.course id) := by
  cases hm : m.epoch? with
  | some j =>
    obtain rfl | hj := eq_or_ne id j
    · exact turn_of_own h hm
    · exact .rest_of_eq m (course_of_other h hm hj)
  | none =>
    cases m with
    | watchStart =>
      obtain ⟨hw, rfl⟩ := of_watchStart h
      exact turn_look rfl _ (.starting hw)
    | watchChange =>
      obtain ⟨hw, -, rfl⟩ := of_watchChange h
      exact turn_look rfl _ (.waiting hw)
    | watchBroken =>
      obtain ⟨b, rest, hw, -, ⟨-, rfl⟩ | ⟨-, rfl⟩⟩ := of_watchBroken h
      · exact .rest_of_eq _ (course_cancelLive { s with broken := rest })
      · exact turn_look (s := s) (t := { s with broken := rest }) rfl _ (.waiting hw)
    | watchResume =>
      obtain ⟨due, hw, hd, rfl⟩ := of_watchResume h
      exact turn_look rfl _ (.resumed due hw hd)
    | watchStop =>
      obtain ⟨-, -, rfl⟩ := of_watchStop h
      exact .rest_of_eq _ (course_cancelLive s)
    | elapse | report | finish | drop => obtain rfl := Option.some.inj h; exact .rest
    | push =>
      obtain ⟨t, -, -, -, rfl⟩ := of_push h
      exact .rest
    | answer => exact .rest_of_eq _ (course_answer h)
    | write w =>
      obtain rfl := Option.some.inj h
      exact .rest_of_eq _ (course_startWrite s w)
    | close =>
      obtain rfl := Option.some.inj h
      refine .rest_of_eq _ ?_
      unfold startClose
      split
      · exact course_note s rfl
      · rfl
    | subscribe | unsubscribe =>
      obtain rfl := Option.some.inj h
      exact .rest_of_eq _ (course_apply s _)
    | proceed => exact .rest_of_eq _ (course_proceed h)
    | drained =>
      obtain ⟨-, -, ⟨-, rfl⟩ | ⟨-, rfl⟩⟩ := of_afterDrain h
      · exact .rest_of_eq _ (course_release s)
      · exact .rest_of_eq _ (course_beginAll_other s (show Caller.closer ≠ .epoch id from nofun) _)
    | unregistered =>
      obtain ⟨calls, deadline, -, -, rfl⟩ := of_unregistered h
      exact .rest_of_eq _ (course_release (s.settle calls))
    | graceOver =>
      obtain ⟨calls, deadline, -, -, rfl⟩ := of_graceOver h
      exact .rest_of_eq _ ((course_release _).trans (course_abandon s calls))
    | released =>
      obtain ⟨call, -, -, rfl⟩ := of_released h
      refine .rest_of_eq _ ?_
      rw [course_note _ rfl]
      show ((((s.settle [call]).apply .close).setState .closed).course id) = _
      rw [course_setState, course_apply, course_settle]
    | _ => exact nomatch hm

end Roster.Session
