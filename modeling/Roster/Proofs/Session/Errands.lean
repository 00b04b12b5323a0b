import Roster.Proofs.Session.Desk

/-! The part of a session that writes and shuts down, as a machine of its own, whether the session is open or not: the writes,
the stages of the shutdown, the calls in flight and which task waits for which. `Errands.Step` lists what can happen to that
part; `step_errands` shows that a move does one such step, or nothing to it. -/
namespace Roster

/-- The operation is not about the client's own members. -/
def Registry.Op.foreign : Registry.Op → Bool
  | .applyRemote _ | .subscribe _ | .unsubscribe _ => true
  | _ => false

namespace Session

/-- Events about calls, writes, subscribers and the shutdown. -/
def Event.errand : Event → Bool
  | .called _ _ _ | .answered _ _ | .wrote _ _ | .notified _ _ | .closeReturned true => true
  | _ => false

/-! The calls a task waits for -/

def Runner.awaited : Runner → List Nat
  | .restoring calls => calls
  | .opening call _ => [call]
  | _ => []

def Heart.awaited : Heart → List Nat
  | .sending call _ _ => [call]
  | _ => []

def Epoch.awaited (e : Epoch) : List Nat := e.runner.awaited ++ e.heart.awaited

def Closer.awaited : Closer → List Nat
  | .unregistering calls _ => calls
  | .releasing call => [call]
  | _ => []

@[ext]
structure Errands where
  registry : Registry
  closing : Bool
  closer : Closer
  writings : List Writing
  calls : Nat → Option Call
  lastCall : Nat
  /-- The calls that the tasks of an epoch wait for. -/
  tasks : Nat → List Nat
  /-- Newest first. -/
  log : List Event

def errands (s : Session) : Errands where
  registry := s.registry
  closing := s.closing
  closer := s.closer
  writings := s.writings
  calls := s.call?
  lastCall := s.lastCall
  tasks := fun id => (s.epoch? id).elim [] Epoch.awaited
  log := (s.history.map (·.2)).filter Event.errand

namespace Errands

variable (d : Errands)

def note (e : Event) : Errands := { d with log := e :: d.log }

def perform (op : Registry.Op) : Errands :=
  { d with
    registry := (d.registry.perform op).registry
    log := ((d.registry.perform op).deliveries.map fun x => Event.notified x.1 x.2).reverse ++ d.log }

def begin (caller : Caller) (request : Request) : Errands :=
  { d with
    lastCall := d.lastCall + 1
    calls := fun c => (d.calls c).or (if d.lastCall + 1 = c then some { id := d.lastCall + 1, caller, request } else none)
    log := .called (d.lastCall + 1) caller request :: d.log }

def beginAll (caller : Caller) (requests : List Request) : Errands := requests.foldl (fun d r => d.begin caller r) d

/-- The ids of the next calls. -/
def next (n : Nat) : List Nat := (List.range n).map (d.lastCall + 1 + ·)

def settle (ids : List Nat) : Errands := { d with calls := fun c => if c ∈ ids then none else d.calls c }

def give (id : Nat) (a : Answer) : Errands :=
  { d with
    calls := fun c => (d.calls c).map fun k => if k.id = id then { k with answer := some a } else k
    log := .answered id a :: d.log }

/-- The tasks of an epoch turn to other calls. -/
def hold (id : Nat) (calls : List Nat) : Errands := { d with tasks := fun e => if e = id then calls else d.tasks e }

def enter (w : Write) (p : Progress) : Errands := { d with writings := d.writings ++ [⟨d.writings.length, w, p⟩] }

def setProgress (id : Nat) (p : Progress) : Errands :=
  { d with writings := d.writings.map fun w => if w.id = id then { w with progress := p } else w }

def returnWrite (id : Nat) (result : Except Failure Unit) : Errands := (d.setProgress id (.done result)).note (.wrote id result)

def release : Errands := { d.begin .closer .close with closer := .releasing (d.lastCall + 1) }

/-- A write has the answer to its call, and was not refused. -/
structure Accepted (w : Writing) (call : Nat) : Prop where
  mem : w ∈ d.writings
  sending : w.progress = .sending call
  answer : ∃ k a, d.calls call = some k ∧ k.answer = some a ∧ ∀ code reason, a ≠ .failed (.rejected code reason)

inductive Step : Errands → Errands → Prop
  | perform (d : Errands) (op : Registry.Op) (h : op.foreign = true) : Step d (d.perform op)
  /-- The tasks of an epoch give up calls they waited for and begin others. -/
  | turn (d : Errands) (id : Nat) (gone held : List Nat) (requests : List Request) (hgone : ∀ c ∈ gone, c ∈ d.tasks id)
      (hheld : ∀ c ∈ held, c ∈ d.tasks id ∨ c ∈ d.next requests.length) :
      Step d (((d.settle gone).beginAll (.epoch id) requests).hold id held)
  | answer (d : Errands) (id : Nat) (k : Call) (a : Answer) (hk : d.calls id = some k) (hn : k.answer = none) :
      Step d (d.give id a)
  | refuse (d : Errands) (w : Write) (f : Failure) :
      Step d ((d.enter w (.done (.error f))).note (.wrote d.writings.length (.error f)))
  | write (d : Errands) (w : Write) (h : d.closing = false) :
      Step d ((d.begin (.write d.writings.length) w.request).enter w (.sending (d.lastCall + 1)))
  | reject (d : Errands) (w : Writing) (call : Nat) (code : StatusCode) (reason : String) (k : Call)
      (hw : w ∈ d.writings) (hp : w.progress = .sending call) (hk : d.calls call = some k)
      (ha : k.answer = some (.failed (.rejected code reason))) :
      Step d ((d.settle [call]).returnWrite w.id (.error (.rejected code reason)))
  | register (d : Errands) (w : Writing) (m : Member) (call : Nat) (hm : w.write = .register m) (h : d.Accepted w call)
      (ho : d.closing = false) :
      Step d (((d.settle [call]).perform (.registerLocal m)).returnWrite w.id (.ok ()))
  /-- Close has begun meanwhile. -/
  | undo (d : Errands) (w : Writing) (m : Member) (call : Nat) (hm : w.write = .register m) (h : d.Accepted w call)
      (hc : d.closing = true) :
      Step d (((((d.settle [call]).perform (.registerLocal m)).perform (.unregisterLocal m.id)).begin (.write w.id)
        (.unregister m.id)).setProgress w.id (.undoing (d.lastCall + 1)))
  | update (d : Errands) (w : Writing) (member : String) (delta : Keyed String) (call : Nat)
      (result : Except Failure Unit) (hm : w.write = .updateMetadata member delta) (h : d.Accepted w call) :
      Step d (((d.settle [call]).perform (.updateLocal member delta)).returnWrite w.id result)
  | unregister (d : Errands) (w : Writing) (member : String) (call : Nat) (hm : w.write = .unregister member)
      (h : d.Accepted w call) :
      Step d (((d.settle [call]).perform (.unregisterLocal member)).returnWrite w.id (.ok ()))
  | undone (d : Errands) (w : Writing) (call : Nat) (hw : w ∈ d.writings) (hp : w.progress = .undoing call) :
      Step d ((d.settle [call]).returnWrite w.id (.error .closed))
  | shut (d : Errands) (h : d.closing = false) : Step d { d with closing := true, closer := .draining }
  | skip (d : Errands) (h : d.closer = .draining) (hnone : d.registry.localMembers = []) : Step d d.release
  | drain (d : Errands) (deadline : Nat) (h : d.closer = .draining) :
      Step d { d.beginAll .closer (d.registry.localMembers.map fun m => .unregister m.id) with
        closer := .unregistering (d.next d.registry.localMembers.length) deadline }
  | unwind (d : Errands) (calls : List Nat) (deadline : Nat) (h : d.closer = .unregistering calls deadline) :
      Step d (d.settle calls).release
  | finish (d : Errands) (call : Nat) (h : d.closer = .releasing call) :
      Step d ({ (d.settle [call]).perform .close with closer := .finished }.note (.closeReturned true))

/-- Nothing, or one step. -/
def MayStep (d d' : Errands) : Prop := d' = d ∨ Step d d'

end Errands

variable {s s' : Session}

/-! What the session's own operations do to that part -/

theorem errands_note (s : Session) (e : Event) :
    (s.note e).errands = if e.errand then s.errands.note e else s.errands := by
  cases h : e.errand with
  | true => exact Errands.ext rfl rfl rfl rfl rfl rfl rfl (List.filter_cons_of_pos h)
  | false => exact Errands.ext rfl rfl rfl rfl rfl rfl rfl (List.filter_cons_of_neg (Bool.not_eq_true _ ▸ h))

@[simp] theorem errands_note_of_not_errand {e : Event} (s : Session) (h : e.errand = false) :
    (s.note e).errands = s.errands := by
  rw [errands_note, h]
  rfl

@[simp] theorem errands_setState (s : Session) (c : Connectivity) : (s.setState c).errands = s.errands := by
  unfold setState
  split
  · rfl
  · exact errands_note_of_not_errand _ rfl

theorem errands_deliver (s : Session) (deliveries : List (Nat × List Member)) :
    (deliveries.foldl (fun s x => s.note (.notified x.1 x.2)) s).errands = { s.errands with
      log := (deliveries.map fun x => Event.notified x.1 x.2).reverse ++ s.errands.log } := by
  induction deliveries generalizing s with
  | nil => rfl
  | cons x deliveries ih =>
    have hnote : (s.note (.notified x.1 x.2)).errands = s.errands.note (.notified x.1 x.2) := errands_note s _
    rw [List.foldl_cons, ih, hnote, List.map_cons, List.reverse_cons, List.append_assoc]
    rfl

@[simp] theorem errands_apply (s : Session) (op : Registry.Op) : (s.apply op).errands = s.errands.perform op := by
  unfold apply
  dsimp only
  rw [errands_deliver, errands_note_of_not_errand _ rfl]
  rfl

@[simp] theorem errands_begin (s : Session) (caller : Caller) (request : Request) :
    (s.begin caller request).errands = s.errands.begin caller request :=
  Errands.ext rfl rfl rfl rfl (congrArg Desk.calls (desk_begin s caller request)) rfl rfl rfl

@[simp] theorem errands_beginAll (s : Session) (caller : Caller) (requests : List Request) :
    (s.beginAll caller requests).1.errands = s.errands.beginAll caller requests := by
  unfold beginAll Errands.beginAll
  dsimp only
  induction requests generalizing s with
  | nil => rfl
  | cons r rs ih => rw [List.foldl_cons, List.foldl_cons, ih, errands_begin]

@[simp] theorem errands_settle (s : Session) (ids : List Nat) : (s.settle ids).errands = s.errands.settle ids :=
  Errands.ext rfl rfl rfl rfl (congrArg Desk.calls (desk_settle s ids)) rfl rfl rfl

@[simp] theorem errands_setStream (s : Session) (i : Nat) (f : Stream → Stream) : (s.setStream i f).errands = s.errands := rfl

@[simp] theorem errands_abandon (s : Session) (ids : List Nat) : (s.abandon ids).errands = s.errands.settle ids := by
  refine List.foldlRecOn (motive := fun t : Session => t.errands = s.errands.settle ids) _ _ (errands_settle s ids)
    fun t ht c _ => ?_
  rw [errands_note_of_not_errand _ rfl, ← ht]
  split <;> rfl

@[simp] theorem errands_setProgress (s : Session) (id : Nat) (p : Progress) :
    (s.setProgress id p).errands = s.errands.setProgress id p := rfl

@[simp] theorem errands_returnWrite (s : Session) (id : Nat) (result : Except Failure Unit) :
    (s.returnWrite id result).errands = s.errands.returnWrite id result := by
  unfold returnWrite
  rw [errands_note]
  rfl

@[simp] theorem errands_release (s : Session) : s.release.errands = s.errands.release := by
  unfold release Errands.release
  rw [← errands_begin]
  rfl

@[simp] theorem errands_reportBroken (s : Session) (id : Nat) : (s.reportBroken id).errands = s.errands := by
  unfold reportBroken
  rw [errands_note_of_not_errand _ rfl]
  rfl

@[simp] theorem errands_readOn (s : Session) (id i : Nat) (item : Item) : (s.readOn id i item).errands = s.errands := by
  unfold readOn
  rw [errands_note_of_not_errand _ rfl, errands_setStream]

theorem errands_give (s : Session) (id : Nat) (a : Answer) : (s.give id a).errands = s.errands.give id a :=
  Errands.ext rfl rfl rfl rfl (congrArg Desk.calls (desk_give s id a)) rfl rfl rfl

/-! Epochs -/

theorem epoch?_setEpoch (s : Session) (id j : Nat) {f : Epoch → Epoch} (hf : ∀ e, (f e).id = e.id) :
    (s.setEpoch id f).epoch? j = if j = id then (s.epoch? j).map f else s.epoch? j := by
  have hsame : ((fun e : Epoch => decide (e.id = j)) ∘ fun e => if e.id = id then f e else e) = fun e => decide (e.id = j) := by
    funext e
    simp only [Function.comp]
    split
    · rw [hf]
    · rfl
  show (s.epochs.map fun e => if e.id = id then f e else e).find? (·.id = j) = _
  rw [List.find?_map, hsame]
  show (s.epoch? j).map _ = _
  cases he : s.epoch? j with
  | none => simp
  | some e =>
    have hid : e.id = j := by simpa using List.find?_some he
    rw [Option.map_some, hid]
    split <;> rfl

/-- A change of an epoch changes which calls its tasks wait for. -/
theorem errands_setEpoch {id : Nat} {e : Epoch} (he : s.epoch? id = some e) {f : Epoch → Epoch} (hf : ∀ e, (f e).id = e.id) :
    (s.setEpoch id f).errands = s.errands.hold id (f e).awaited := by
  refine Errands.ext rfl rfl rfl rfl rfl rfl (funext fun j => ?_) rfl
  show ((s.setEpoch id f).epoch? j).elim [] Epoch.awaited = if j = id then _ else (s.epoch? j).elim [] Epoch.awaited
  rw [epoch?_setEpoch s id j hf]
  split
  · next hj => rw [hj, he]; rfl
  · rfl

theorem errands_setRunner {id : Nat} {e : Epoch} (he : s.epoch? id = some e) (r : Runner) :
    (s.setRunner id r).errands = s.errands.hold id (r.awaited ++ e.heart.awaited) :=
  errands_setEpoch he fun _ => rfl

theorem errands_setHeart {id : Nat} {e : Epoch} (he : s.epoch? id = some e) (h : Heart) :
    (s.setHeart id h).errands = s.errands.hold id (e.runner.awaited ++ h.awaited) :=
  errands_setEpoch he fun _ => rfl

theorem errands_unchanged_setEpoch (s : Session) (id : Nat) {f : Epoch → Epoch}
    (hf : ∀ e, (f e).id = e.id ∧ (f e).awaited = e.awaited) : (s.setEpoch id f).errands = s.errands := by
  refine Errands.ext rfl rfl rfl rfl rfl rfl (funext fun j => ?_) rfl
  show ((s.setEpoch id f).epoch? j).elim [] Epoch.awaited = (s.epoch? j).elim [] Epoch.awaited
  rw [epoch?_setEpoch s id j fun e => (hf e).1]
  split
  · cases s.epoch? j with
    | none => rfl
    | some e => exact (hf e).2
  · rfl

@[simp] theorem errands_cancelLive (s : Session) : s.cancelLive.errands = s.errands := by
  unfold cancelLive
  split
  · rfl
  · rw [errands_note_of_not_errand _ rfl]
    exact errands_unchanged_setEpoch { s with live := none } _ fun _ => ⟨rfl, rfl⟩

/-- The tasks of a new epoch wait for nothing yet. -/
@[simp] theorem errands_beginEpoch (s : Session) : s.beginEpoch.errands = s.errands := by
  unfold beginEpoch
  dsimp only
  rw [errands_note_of_not_errand _ rfl, ← errands_setState s .ready]
  refine Errands.ext rfl rfl rfl rfl rfl rfl (funext fun j => ?_) rfl
  show (((s.setState .ready).epochs ++ [({ id := s.lastEpoch + 1 } : Epoch)]).find? (·.id = j)).elim [] Epoch.awaited =
    ((s.setState .ready).epochs.find? (·.id = j)).elim [] Epoch.awaited
  rw [List.find?_append]
  cases (s.setState .ready).epochs.find? (·.id = j) with
  | some e => rfl
  | none =>
    rw [Option.none_or, List.find?_singleton]
    split <;> rfl

theorem errands_look (s : Session) : s.look.errands = s.errands := by
  have hdepart : ({ s with reported := false } : Session).cancelLive.errands = s.errands :=
    errands_cancelLive { s with reported := false }
  have hset (c : Connectivity) : (({ s with reported := false } : Session).cancelLive.setState c).errands = s.errands := by
    rw [errands_setState, hdepart]
  unfold look
  dsimp only
  split
  · split
    · exact errands_beginEpoch { s with reported := false }
    · rfl
  · exact hdepart
  · exact hset _

/-! The tasks of an epoch -/

theorem mem_tasks {id : Nat} {e : Epoch} (he : s.epoch? id = some e) {c : Nat} :
    c ∈ s.errands.tasks id ↔ c ∈ e.runner.awaited ∨ c ∈ e.heart.awaited := by
  have htasks : s.errands.tasks id = e.awaited := by
    show (s.epoch? id).elim [] Epoch.awaited = e.awaited
    rw [he]
    rfl
  rw [htasks, Epoch.awaited, List.mem_append]

theorem epoch?_beginAll (s : Session) (caller : Caller) (requests : List Request) (id : Nat) :
    (s.beginAll caller requests).1.epoch? id = s.epoch? id :=
  List.foldlRecOn (motive := fun t : Session => t.epoch? id = s.epoch? id) _ _ rfl fun _ ht _ _ => ht

theorem epoch?_abandon (s : Session) (ids : List Nat) (id : Nat) : (s.abandon ids).epoch? id = s.epoch? id := by
  refine List.foldlRecOn (motive := fun t : Session => t.epoch? id = s.epoch? id) _ _ rfl fun t ht c _ => ?_
  rw [← ht]
  split <;> rfl

/-- A task that makes no call and gives up those it waited for. -/
theorem step_turn {id : Nat} {gone held : List Nat} (hgone : ∀ c ∈ gone, c ∈ s.errands.tasks id)
    (hheld : ∀ c ∈ held, c ∈ s.errands.tasks id) : Errands.Step s.errands ((s.errands.settle gone).hold id held) :=
  .turn s.errands id gone held [] hgone fun c hc => .inl (hheld c hc)

theorem settle_nil (d : Errands) : d.settle [] = d := by
  have hcalls : (d.settle []).calls = d.calls := by
    funext c
    have hnone : (if c ∈ [] then none else d.calls c) = d.calls c := if_neg List.not_mem_nil
    exact hnone
  exact Errands.ext rfl rfl rfl rfl hcalls rfl rfl rfl

theorem step_restore_errands {id : Nat} (h : s.restore id = some s') : Errands.Step s.errands s'.errands := by
  obtain ⟨e, he, hr, rfl⟩ := of_restore h
  rw [errands_setRunner ((epoch?_beginAll s _ _ id).trans he), errands_beginAll, ← settle_nil s.errands]
  refine .turn s.errands id [] _ _ nofun fun c hc => ?_
  obtain hc | hc := List.mem_append.mp hc
  · refine .inr ?_
    rwa [Runner.awaited, beginAll] at hc
  · exact .inl ((mem_tasks he).mpr (.inr hc))

theorem step_openStream_errands {id : Nat} (h : s.openStream id = some s') : Errands.Step s.errands s'.errands := by
  obtain ⟨e, calls, he, hr, -, rfl⟩ := of_openStream h
  have hsettle : (s.settle calls).epoch? id = some e := he
  have hheart : ((s.settle calls).setHeart id .starting).epoch? id = some { e with heart := .starting } := by
    have hset := epoch?_setEpoch (s.settle calls) id id (f := fun e => { e with heart := .starting }) fun _ => rfl
    rw [if_pos rfl, hsettle] at hset
    exact hset
  have hbegin : (((s.settle calls).setHeart id .starting).begin (.epoch id) (.subscribe s.registry.knownVersions)).epoch? id =
      some { e with heart := .starting } := hheart
  have hview : ((((s.errands.settle calls).hold id (e.runner.awaited ++ Heart.starting.awaited)).begin (.epoch id)
      (.subscribe s.registry.knownVersions)).hold id [s.lastCall + 1]) =
      ((s.errands.settle calls).beginAll (.epoch id) [.subscribe s.registry.knownVersions]).hold id [s.lastCall + 1] := by
    refine Errands.ext rfl rfl rfl rfl rfl rfl (funext fun j => ?_) rfl
    show (if j = id then _ else if j = id then _ else s.errands.tasks j) = if j = id then _ else s.errands.tasks j
    split <;> rfl
  rw [errands_setRunner hbegin, errands_begin, errands_setHeart hsettle, errands_settle]
  refine hview ▸ .turn s.errands id calls _ _ (fun c hc => ?_) fun c hc => .inr ?_
  · rw [mem_tasks he, hr]
    exact .inl hc
  · exact hc

theorem step_beat_errands {id : Nat} (h : s.beat id = some s') : Errands.Step s.errands s'.errands := by
  obtain ⟨e, due, he, -, rfl⟩ := of_beat h
  have hbegin : (s.begin (.epoch id) .heartbeat).epoch? id = some e := he
  rw [errands_setHeart hbegin, errands_begin, ← settle_nil s.errands]
  refine .turn s.errands id [] _ [.heartbeat] nofun fun c hc => ?_
  obtain hc | hc := List.mem_append.mp hc
  · exact .inl ((mem_tasks he).mpr (.inl hc))
  · exact .inr hc

/-- A task of an epoch that stops, or goes on without calls. -/
theorem step_endRunner {id : Nat} {e : Epoch} (he : s.epoch? id = some e) {gone : List Nat} (hgone : ∀ c ∈ gone, c ∈ e.runner.awaited)
    {r : Runner} (hr : r.awaited = []) :
    Errands.Step s.errands ((s.errands.settle gone).hold id (r.awaited ++ e.heart.awaited)) := by
  refine step_turn (fun c hc => (mem_tasks he).mpr (.inl (hgone c hc))) fun c hc => ?_
  rw [hr] at hc
  exact (mem_tasks he).mpr (.inr hc)

theorem step_endHeart {id : Nat} {e : Epoch} (he : s.epoch? id = some e) {gone : List Nat} (hgone : ∀ c ∈ gone, c ∈ e.heart.awaited)
    {h : Heart} (hh : h.awaited = []) :
    Errands.Step s.errands ((s.errands.settle gone).hold id (e.runner.awaited ++ h.awaited)) := by
  refine step_turn (fun c hc => (mem_tasks he).mpr (.inr (hgone c hc))) fun c hc => ?_
  rw [hh, List.append_nil] at hc
  exact (mem_tasks he).mpr (.inl hc)

theorem step_quitReading_errands {id i : Nat} {e : Epoch} (he : s.epoch? id = some e) :
    Errands.Step s.errands (s.quitReading id i).errands := by
  have hset : (s.setStream i fun t => { t with reading := false }).epoch? id = some e := he
  unfold quitReading
  rw [errands_reportBroken, errands_setRunner hset, errands_setStream, ← settle_nil s.errands]
  exact step_endRunner he (List.forall_mem_nil _) rfl

theorem mayStep_take_errands {id : Nat} (h : s.take id = some s') : Errands.MayStep s.errands s'.errands := by
  obtain ⟨e, i, t, he, -, -, ⟨u, -, rfl⟩ | ⟨f, -, rfl⟩ | ⟨f, -, -, rfl⟩ | ⟨-, -, rfl⟩⟩ := of_take h
  · right
    rw [errands_apply, errands_readOn]
    exact .perform s.errands (.applyRemote u) rfl
  · exact .inl (errands_readOn s id i _)
  · right
    have hread : (s.readOn id i (.failure f)).epoch? id = some e := he
    have hstep := step_quitReading_errands (i := i) hread
    rwa [errands_readOn] at hstep
  · exact .inr (step_quitReading_errands he)

theorem step_stopRunner_errands {id : Nat} (h : s.stopRunner id = some s') : Errands.Step s.errands s'.errands := by
  obtain ⟨e, he, -, ⟨calls, hr, rfl⟩ | ⟨call, deadline, hr, rfl⟩ | ⟨i, hr, rfl⟩ | ⟨hr, rfl⟩⟩ := of_stopRunner h
  · rw [errands_setRunner ((epoch?_abandon s calls id).trans he), errands_abandon]
    exact step_endRunner he (hr ▸ fun c hc => hc) rfl
  · rw [errands_setRunner ((epoch?_abandon s [call] id).trans he), errands_abandon]
    exact step_endRunner he (hr ▸ fun c hc => hc) rfl
  · have hset : (s.setStream i fun t => { t with reading := false }).epoch? id = some e := he
    rw [errands_setRunner hset, errands_setStream, ← settle_nil s.errands]
    exact step_endRunner he (List.forall_mem_nil _) rfl
  · rw [errands_setRunner he, ← settle_nil s.errands]
    exact step_endRunner he (List.forall_mem_nil _) rfl

theorem step_stopHeart_errands {id : Nat} (h : s.stopHeart id = some s') : Errands.Step s.errands s'.errands := by
  obtain ⟨e, he, -, ⟨call, deadline, due, hh, rfl⟩ | ⟨-, rfl⟩⟩ := of_stopHeart h
  · rw [errands_setHeart ((epoch?_abandon s [call] id).trans he), errands_abandon]
    exact step_endHeart he (hh ▸ fun c hc => hc) rfl
  · rw [errands_setHeart he, ← settle_nil s.errands]
    exact step_endHeart he (List.forall_mem_nil _) rfl

/-! Writes and the shutdown -/

theorem step_write_errands (s : Session) (w : Write) : Errands.Step s.errands (s.startWrite w).errands := by
  unfold startWrite
  dsimp only
  split
  · next f _ =>
    rw [errands_note]
    exact .refuse s.errands w f
  · next hno =>
    have hopen : s.closing = false := by
      unfold refusal at hno
      split at hno
      · exact nomatch hno
      · next hc => exact Bool.not_eq_true _ ▸ hc
    have hbegin := errands_begin s (.write s.writings.length) w.request
    have hwrite := Errands.Step.write s.errands w hopen
    rw [← show s.writings.length = s.errands.writings.length from rfl, ← hbegin] at hwrite
    exact hwrite

theorem step_proceed_errands {id : Nat} (h : s.proceed id = some s') : Errands.Step s.errands s'.errands := by
  obtain ⟨w, call, a, hw, ha, hcases⟩ := of_proceed h
  obtain rfl : w.id = id := by simpa using List.find?_some hw
  have hmem : w ∈ s.errands.writings := List.mem_of_find?_eq_some hw
  obtain ⟨k, hk, hka⟩ := Option.bind_eq_some_iff.mp ha
  obtain ⟨hp, ⟨code, reason, rfl, rfl⟩ | ⟨hr, rfl⟩⟩ | ⟨hp, rfl⟩ := hcases
  · rw [errands_returnWrite, errands_settle]
    exact .reject s.errands w call code reason k hmem hp hk hka
  · have haccepted : s.errands.Accepted w call := ⟨hmem, hp, k, a, hk, hka, hr⟩
    unfold effectWrite
    split
    · next m hm =>
      dsimp only
      obtain ⟨history, heq⟩ := apply_eq (s.settle [call]) (.registerLocal m)
      have hclosing : ((s.settle [call]).apply (.registerLocal m)).closing = s.closing := by rw [heq]; rfl
      rw [hclosing]
      split
      · next hc =>
        have hlast : ((((s.settle [call]).apply (.registerLocal m)).apply (.unregisterLocal m.id)).begin (.write w.id)
            (.unregister m.id)).lastCall = s.lastCall + 1 := by
          obtain ⟨history', heq'⟩ := apply_eq ((s.settle [call]).apply (.registerLocal m)) (.unregisterLocal m.id)
          rw [heq', heq]
          rfl
        rw [hlast, errands_setProgress, errands_begin, errands_apply, errands_apply, errands_settle]
        exact .undo s.errands w m call hm haccepted hc
      · next hc =>
        rw [errands_returnWrite, errands_apply, errands_settle]
        exact .register s.errands w m call hm haccepted (Bool.not_eq_true _ ▸ hc)
    · next member delta hm =>
      dsimp only
      rw [errands_returnWrite, errands_apply, errands_settle]
      exact .update s.errands w member delta call _ hm haccepted
    · next member hm =>
      rw [errands_returnWrite, errands_apply, errands_settle]
      exact .unregister s.errands w member call hm haccepted
  · rw [errands_returnWrite, errands_settle]
    exact .undone s.errands w call hmem hp

theorem step_afterDrain_errands (h : s.afterDrain = some s') : Errands.Step s.errands s'.errands := by
  obtain ⟨hc, -, ⟨hnone, rfl⟩ | ⟨-, rfl⟩⟩ := of_afterDrain h
  · rw [errands_release]
    exact .skip s.errands hc hnone
  · have hall := errands_beginAll s .closer (s.registry.localMembers.map fun m => .unregister m.id)
    have hids : (s.beginAll .closer (s.registry.localMembers.map fun m => Request.unregister m.id)).2 =
        s.errands.next s.registry.localMembers.length := by
      unfold beginAll
      rw [List.length_map]
      rfl
    have hdrain := Errands.Step.drain s.errands (s.now + s.settings.closeTimeoutMs.toNat) hc
    rw [← show s.registry = s.errands.registry from rfl, ← hall, ← hids] at hdrain
    exact hdrain

theorem step_released_errands (h : s.released = some s') : Errands.Step s.errands s'.errands := by
  obtain ⟨call, hc, -, rfl⟩ := of_released h
  have hview : (((s.settle [call]).apply .close).setState .closed).errands = (s.errands.settle [call]).perform .close := by
    rw [errands_setState, errands_apply, errands_settle]
  have hstep := Errands.Step.finish s.errands call hc
  rw [← hview] at hstep
  rw [errands_note]
  exact hstep

theorem step_answer_errands {id : Nat} {failure : Option Failure} (h : s.answer id failure = some s') :
    ∃ k a, s.errands.calls id = some k ∧ k.answer = none ∧ (∀ f, a = .failed f → failure = some f) ∧
      s'.errands = s.errands.give id a := by
  obtain ⟨k, hk, hn, ⟨f, rfl, rfl⟩ | ⟨known, -, -, rfl⟩ | ⟨-, -, rfl⟩ | ⟨-, -, -, rfl⟩⟩ := of_answer h
  · exact ⟨k, .failed f, hk, hn, fun g hg => by rw [Answer.failed.inj hg], errands_give s id _⟩
  · exact ⟨k, .opened s.streams.length, hk, hn, nofun,
      errands_give { s with streams := s.streams ++ [({} : Stream)] } id _⟩
  · exact ⟨k, .done, hk, hn, nofun, errands_give { s with connectivity := .closed, reported := true } id _⟩
  · exact ⟨k, .done, hk, hn, nofun, errands_give s id _⟩

/-- A move is one step of this machine, or none. -/
theorem step_errands {m : Move} (h : s.step m = some s') : Errands.MayStep s.errands s'.errands := by
  cases m with
  | elapse ms =>
    obtain rfl := Option.some.inj h
    exact .inl rfl
  | report c =>
    obtain rfl := Option.some.inj h
    exact .inl rfl
  | answer call failure =>
    obtain ⟨k, a, hk, hn, -, hview⟩ := step_answer_errands h
    rw [hview]
    exact .inr (.answer s.errands call k a hk hn)
  | push i item =>
    obtain ⟨t, -, -, -, rfl⟩ := of_push h
    exact .inl rfl
  | finish i =>
    obtain rfl := Option.some.inj h
    exact .inl rfl
  | write w =>
    obtain rfl := Option.some.inj h
    exact .inr (step_write_errands s w)
  | close =>
    obtain rfl := Option.some.inj h
    unfold startClose
    split
    · exact .inl (errands_note_of_not_errand s rfl)
    · next hc => exact .inr (.shut s.errands (Bool.not_eq_true _ ▸ hc : s.closing = false))
  | drop =>
    obtain rfl := Option.some.inj h
    exact .inl rfl
  | subscribe f =>
    obtain rfl := Option.some.inj h
    rw [errands_apply]
    exact .inr (.perform s.errands (.subscribe f) rfl)
  | unsubscribe n =>
    obtain rfl := Option.some.inj h
    rw [errands_apply]
    exact .inr (.perform s.errands (.unsubscribe n) rfl)
  | watchStart =>
    obtain ⟨-, rfl⟩ := of_watchStart h
    exact .inl (errands_look s)
  | watchChange =>
    obtain ⟨-, -, rfl⟩ := of_watchChange h
    exact .inl (errands_look s)
  | watchBroken =>
    obtain ⟨b, rest, -, -, ⟨-, rfl⟩ | ⟨-, rfl⟩⟩ := of_watchBroken h
    · exact .inl (errands_cancelLive { s with broken := rest })
    · exact .inl (errands_look { s with broken := rest })
  | watchResume =>
    obtain ⟨due, -, -, rfl⟩ := of_watchResume h
    exact .inl (errands_look s)
  | watchStop =>
    obtain ⟨-, -, rfl⟩ := of_watchStop h
    exact .inl (errands_cancelLive s)
  | restore id => exact .inr (step_restore_errands h)
  | openStream id => exact .inr (step_openStream_errands h)
  | opened id =>
    right
    obtain ⟨e, call, deadline, a, he, hr, -, ⟨i, -, rfl⟩ | ⟨-, rfl⟩⟩ := of_opened h
    · have hsettle : (s.settle [call]).epoch? id = some e := he
      rw [errands_note_of_not_errand _ rfl, errands_setRunner hsettle, errands_settle]
      exact step_endRunner he (hr ▸ fun c hc => hc) rfl
    · have hsettle : (s.settle [call]).epoch? id = some e := he
      rw [errands_reportBroken, errands_setRunner hsettle, errands_settle]
      exact step_endRunner he (hr ▸ fun c hc => hc) rfl
  | openTimeout id =>
    right
    obtain ⟨e, call, deadline, he, hr, -, rfl⟩ := of_openTimeout h
    rw [errands_reportBroken, errands_setRunner ((epoch?_abandon s [call] id).trans he), errands_abandon]
    exact step_endRunner he (hr ▸ fun c hc => hc) rfl
  | take id => exact mayStep_take_errands h
  | stopRunner id => exact .inr (step_stopRunner_errands h)
  | beat id => exact .inr (step_beat_errands h)
  | beatAnswered id =>
    right
    obtain ⟨e, call, deadline, due, a, he, hh, -, ⟨f, -, rfl⟩ | ⟨-, rfl⟩⟩ := of_beatAnswered h
    · have hsettle : (s.settle [call]).epoch? id = some e := he
      rw [errands_reportBroken, errands_setHeart hsettle, errands_settle]
      exact step_endHeart he (hh ▸ fun c hc => hc) rfl
    · have hsettle : (s.settle [call]).epoch? id = some e := he
      rw [errands_setHeart hsettle, errands_settle]
      exact step_endHeart he (hh ▸ fun c hc => hc) rfl
  | beatTimeout id =>
    right
    obtain ⟨e, call, deadline, due, he, hh, -, rfl⟩ := of_beatTimeout h
    rw [errands_reportBroken, errands_setHeart ((epoch?_abandon s [call] id).trans he), errands_abandon]
    exact step_endHeart he (hh ▸ fun c hc => hc) rfl
  | stopHeart id => exact .inr (step_stopHeart_errands h)
  | proceed id => exact .inr (step_proceed_errands h)
  | drained => exact .inr (step_afterDrain_errands h)
  | unregistered =>
    obtain ⟨calls, deadline, hc, -, rfl⟩ := of_unregistered h
    rw [errands_release, errands_settle]
    exact .inr (.unwind s.errands calls deadline hc)
  | graceOver =>
    obtain ⟨calls, deadline, hc, -, rfl⟩ := of_graceOver h
    rw [errands_release, errands_abandon]
    exact .inr (.unwind s.errands calls deadline hc)
  | released => exact .inr (step_released_errands h)

end Session

end Roster
