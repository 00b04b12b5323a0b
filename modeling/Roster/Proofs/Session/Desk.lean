import Mathlib.Data.List.Nodup
import Roster.Proofs.Session.Reader
import Roster.Proofs.Session.Server
import Roster.Proofs.Session.Watch.Control

/-! The part of an open session that makes calls, as a machine of its own: what is in flight, for which task, and the members
owned. `Desk.Step` lists what can happen to that part; `step_desk` shows that a move does one such step, or nothing to it. -/
namespace Roster.Session

@[ext]
structure Desk where
  owned : String → Option Member
  closed : Bool
  calls : Nat → Option Call
  lastCall : Nat
  runners : List (Nat × Runner)
  hearts : List (Nat × Heart)
  writings : List Writing
  /-- What every call so far asked for. -/
  requested : Nat → Option Request
  /-- Newest first. -/
  exchanges : List (Request × Answer)

def desk (s : Session) : Desk where
  owned := s.registry.owned?
  closed := s.registry.closed
  calls := s.call?
  lastCall := s.lastCall
  runners := s.epochs.map fun e => (e.id, e.runner)
  hearts := s.epochs.map fun e => (e.id, e.heart)
  writings := s.writings
  requested := requestOf? s.history
  exchanges := exchanges s.history

/-- The members owned when a write took effect. -/
def Write.own (owned : String → Option Member) : Write → String → Option Member
  | .register m, id => if m.id = id then some m else owned id
  | .updateMetadata member delta, id => if member = id then (owned id).map (·.mergeMetadata delta) else owned id
  | .unregister member, id => if member = id then none else owned id

namespace Desk

variable (d : Desk)

def begin (caller : Caller) (request : Request) : Desk :=
  { d with
    lastCall := d.lastCall + 1
    calls := fun c => (d.calls c).or (if d.lastCall + 1 = c then some { id := d.lastCall + 1, caller, request } else none)
    requested := fun c => if d.lastCall + 1 = c then some request else d.requested c }

def settle (ids : List Nat) : Desk := { d with calls := fun c => if c ∈ ids then none else d.calls c }

def give (id : Nat) (a : Answer) : Desk :=
  { d with
    calls := fun c => (d.calls c).map fun k => if k.id = id then { k with answer := some a } else k
    exchanges := match d.requested id with
      | some request => (request, a) :: d.exchanges
      | none => d.exchanges }

def setRunner (id : Nat) (runner : Runner) : Desk :=
  { d with runners := assign id runner d.runners }

def setHeart (id : Nat) (heart : Heart) : Desk :=
  { d with hearts := assign id heart d.hearts }

def setProgress (id : Nat) (p : Progress) : Desk :=
  { d with writings := d.writings.map fun w => if w.id = id then { w with progress := p } else w }

inductive Step : Desk → Desk → Prop
  | epoch (d : Desk) (id : Nat) (h : ∀ t ∈ d.runners, t.1 ≠ id) :
      Step d { d with runners := d.runners ++ [(id, .starting)], hearts := d.hearts ++ [(id, .absent)] }
  | restore (d : Desk) (id : Nat) (ms : List Member) (h : (id, .starting) ∈ d.runners)
      (hms : ∀ m, m ∈ ms ↔ ∃ id, d.owned id = some m) :
      Step d ((ms.foldl (fun d m => d.begin (.epoch id) (.register m)) d).setRunner id
        (.restoring ((List.range ms.length).map (d.lastCall + 1 + ·))))
  | subscribe (d : Desk) (id : Nat) (calls : List Nat) (known : Keyed Version) (deadline : Nat)
      (h : (id, .restoring calls) ∈ d.runners) :
      Step d ((((d.settle calls).setHeart id .starting).begin (.epoch id) (.subscribe known)).setRunner id
        (.opening (d.lastCall + 1) deadline))
  | endRestoring (d : Desk) (id : Nat) (calls : List Nat) (h : (id, .restoring calls) ∈ d.runners) :
      Step d ((d.settle calls).setRunner id .stopped)
  | endOpening (d : Desk) (id call deadline : Nat) (runner : Runner) (h : (id, .opening call deadline) ∈ d.runners)
      (hr : runner = .stopped ∨ ∃ i, runner = .reading i) : Step d ((d.settle [call]).setRunner id runner)
  | endRunner (d : Desk) (id : Nat) (runner : Runner) (h : (id, runner) ∈ d.runners)
      (hr : runner = .starting ∨ ∃ i, runner = .reading i) : Step d (d.setRunner id .stopped)
  | beat (d : Desk) (id deadline due : Nat) :
      Step d ((d.begin (.epoch id) .heartbeat).setHeart id (.sending (d.lastCall + 1) deadline due))
  | endBeat (d : Desk) (id call deadline due : Nat) (heart : Heart) (h : (id, .sending call deadline due) ∈ d.hearts)
      (hh : heart = .stopped ∨ ∃ due, heart = .waiting due) : Step d ((d.settle [call]).setHeart id heart)
  | endHeart (d : Desk) (id : Nat) : Step d (d.setHeart id .stopped)
  | write (d : Desk) (id : Nat) (w : Write) :
      Step d { d.begin (.write id) w.request with writings := d.writings ++ [⟨id, w, .sending (d.lastCall + 1)⟩] }
  | refuse (d : Desk) (id : Nat) (w : Write) (result : Except Failure Unit) :
      Step d { d with writings := d.writings ++ [⟨id, w, .done result⟩] }
  | reject (d : Desk) (w : Writing) (call : Nat) (result : Except Failure Unit) (h : w ∈ d.writings)
      (hw : w.progress = .undoing call ∨ w.progress = .sending call ∧
        ∃ k code reason, d.calls call = some k ∧ k.answer = some (.failed (.rejected code reason))) :
      Step d ((d.settle [call]).setProgress w.id (.done result))
  | effect (d : Desk) (w : Writing) (call : Nat) (k : Call) (a : Answer) (result : Except Failure Unit) (h : w ∈ d.writings)
      (hw : w.progress = .sending call) (hk : d.calls call = some k) (ha : k.answer = some a)
      (hr : ∀ code reason, a ≠ .failed (.rejected code reason)) :
      Step d { (d.settle [call]).setProgress w.id (.done result) with owned := w.write.own d.owned }
  | answer (d : Desk) (id : Nat) (k : Call) (a : Answer) (hk : d.calls id = some k) (hn : k.answer = none)
      (ha : ∀ i, a = .opened i → ∃ known, k.request = .subscribe known) : Step d (d.give id a)

end Desk

variable {s s' : Session}

/-! What the session's own operations do to that part -/

/-- Events that a call begins or is answered. -/
def Event.ofCall : Event → Bool
  | .called _ _ _ | .answered _ _ => true
  | _ => false

@[simp] theorem desk_note_of_silent {e : Event} (s : Session) (h : e.ofCall = false) : (s.note e).desk = s.desk := by
  cases e <;> first | rfl | exact nomatch h

@[simp] theorem desk_setState (s : Session) (c : Connectivity) : (s.setState c).desk = s.desk := by
  unfold setState
  split
  · rfl
  · exact desk_note_of_silent _ rfl

theorem desk_apply (s : Session) (op : Registry.Op) :
    (s.apply op).desk = { s.desk with
      owned := (s.registry.perform op).registry.owned?, closed := (s.registry.perform op).registry.closed } := by
  refine List.foldlRecOn (motive := fun t : Session => t.desk = { s.desk with
    owned := (s.registry.perform op).registry.owned?, closed := (s.registry.perform op).registry.closed }) _ _ rfl
    fun t ht d _ => ?_
  rw [desk_note_of_silent t rfl]
  exact ht

@[simp] theorem desk_begin (s : Session) (caller : Caller) (request : Request) :
    (s.begin caller request).desk = s.desk.begin caller request := by
  have hcalls : (s.begin caller request).call? = (s.desk.begin caller request).calls := by
    funext c
    unfold call?
    show (s.calls ++ [({ id := s.lastCall + 1, caller, request } : Call)]).find? (·.id = c) = _
    rw [List.find?_append, List.find?_singleton]
    simp only [decide_eq_true_eq]
    rfl
  exact Desk.ext rfl rfl hcalls rfl rfl rfl rfl rfl rfl

@[simp] theorem desk_beginAll (s : Session) (caller : Caller) (requests : List Request) :
    (s.beginAll caller requests).1.desk = requests.foldl (fun d r => d.begin caller r) s.desk := by
  unfold beginAll
  dsimp only
  induction requests generalizing s with
  | nil => rfl
  | cons r rs ih => rw [List.foldl_cons, List.foldl_cons, ih, desk_begin]

@[simp] theorem desk_settle (s : Session) (ids : List Nat) : (s.settle ids).desk = s.desk.settle ids := by
  have hcalls : (s.settle ids).call? = (s.desk.settle ids).calls := by
    funext c
    show (s.calls.filter fun c => !ids.contains c.id).find? (·.id = c) = if c ∈ ids then none else s.call? c
    rw [List.find?_filter]
    split
    · next hc =>
      rw [List.find?_eq_none]
      intro k _ hk
      simp only [decide_eq_true_eq, Bool.not_eq_true', List.contains_eq_mem, decide_eq_false_iff_not] at hk
      exact hk.1 (hk.2 ▸ hc)
    · next hc =>
      unfold call?
      congr 1
      funext k
      by_cases hk : k.id = c
      · simp [hk, hc]
      · simp [hk]
  exact Desk.ext rfl rfl hcalls rfl rfl rfl rfl rfl rfl

@[simp] theorem desk_setStream (s : Session) (i : Nat) (f : Stream → Stream) : (s.setStream i f).desk = s.desk := rfl

@[simp] theorem desk_abandon (s : Session) (ids : List Nat) : (s.abandon ids).desk = s.desk.settle ids := by
  refine List.foldlRecOn (motive := fun t : Session => t.desk = s.desk.settle ids) _ _ (desk_settle s ids) fun t ht c _ => ?_
  rw [desk_note_of_silent _ rfl, ← ht]
  split <;> rfl

theorem desk_setEpoch (s : Session) (id : Nat) (f : Epoch → Epoch)
    (hf : ∀ e, (f e).id = e.id ∧ (f e).runner = e.runner ∧ (f e).heart = e.heart) : (s.setEpoch id f).desk = s.desk := by
  refine Desk.ext rfl rfl rfl rfl ?_ ?_ rfl rfl rfl
  · exact map_unassigned s.epochs id f _ fun e => by rw [(hf e).1, (hf e).2.1]
  · exact map_unassigned s.epochs id f _ fun e => by rw [(hf e).1, (hf e).2.2]

@[simp] theorem desk_setRunner (s : Session) (id : Nat) (runner : Runner) :
    (s.setRunner id runner).desk = s.desk.setRunner id runner := by
  refine Desk.ext rfl rfl rfl rfl ?_ ?_ rfl rfl rfl
  · exact map_assign s.epochs id runner (fun e => { e with runner }) (·.runner) fun _ => ⟨rfl, rfl⟩
  · exact map_unassigned s.epochs id (fun e => { e with runner }) _ fun _ => rfl

@[simp] theorem desk_setHeart (s : Session) (id : Nat) (heart : Heart) :
    (s.setHeart id heart).desk = s.desk.setHeart id heart := by
  refine Desk.ext rfl rfl rfl rfl ?_ ?_ rfl rfl rfl
  · exact map_unassigned s.epochs id (fun e => { e with heart }) _ fun _ => rfl
  · exact map_assign s.epochs id heart (fun e => { e with heart }) (·.heart) fun _ => ⟨rfl, rfl⟩

@[simp] theorem desk_setProgress (s : Session) (id : Nat) (p : Progress) :
    (s.setProgress id p).desk = s.desk.setProgress id p := rfl

@[simp] theorem desk_returnWrite (s : Session) (id : Nat) (result : Except Failure Unit) :
    (s.returnWrite id result).desk = s.desk.setProgress id (.done result) := by
  unfold returnWrite
  rw [desk_note_of_silent _ rfl, desk_setProgress]

@[simp] theorem desk_reportBroken (s : Session) (id : Nat) : (s.reportBroken id).desk = s.desk := by
  unfold reportBroken
  rw [desk_note_of_silent _ rfl]
  rfl

@[simp] theorem desk_readOn (s : Session) (id i : Nat) (item : Item) : (s.readOn id i item).desk = s.desk := by
  unfold readOn
  rw [desk_note_of_silent _ rfl, desk_setStream]

@[simp] theorem desk_quitReading (s : Session) (id i : Nat) : (s.quitReading id i).desk = s.desk.setRunner id .stopped := by
  unfold quitReading
  rw [desk_reportBroken, desk_setRunner, desk_setStream]

theorem desk_give (s : Session) (id : Nat) (a : Answer) : (s.give id a).desk = s.desk.give id a := by
  have hcalls : (s.give id a).call? = (s.desk.give id a).calls := by
    funext c
    show (s.calls.map fun k => if k.id = id then { k with answer := some a } else k).find? (·.id = c) =
      (s.calls.find? (·.id = c)).map _
    rw [List.find?_map]
    have hsame : ((fun k : Call => decide (k.id = c)) ∘ fun k => if k.id = id then { k with answer := some a } else k) =
        fun k => decide (k.id = c) := by
      funext k
      simp only [Function.comp]
      split <;> rfl
    rw [hsame]
  refine Desk.ext rfl rfl hcalls rfl rfl rfl rfl rfl ?_
  rfl

@[simp] theorem desk_cancelLive (s : Session) : s.cancelLive.desk = s.desk := by
  unfold cancelLive
  split
  · rfl
  · rw [desk_note_of_silent _ rfl]
    exact desk_setEpoch { s with live := none } _ _ fun _ => ⟨rfl, rfl, rfl⟩

theorem step_beginEpoch_desk (s : Session) (h : s.epochs.map (·.id) = List.range' 1 s.lastEpoch) :
    Desk.Step s.desk s.beginEpoch.desk := by
  have hview : s.beginEpoch.desk = { s.desk with
      runners := s.desk.runners ++ [(s.lastEpoch + 1, .starting)]
      hearts := s.desk.hearts ++ [(s.lastEpoch + 1, .absent)] } := by
    unfold beginEpoch
    dsimp only
    rw [desk_note_of_silent _ rfl, ← desk_setState s .ready]
    simp [desk]
    rfl
  rw [hview]
  refine .epoch s.desk (s.lastEpoch + 1) ?_
  intro t ht
  obtain ⟨e, he, rfl⟩ := List.mem_map.mp ht
  have hid : e.id ∈ List.range' 1 s.lastEpoch := h ▸ List.mem_map.mpr ⟨e, he, rfl⟩
  rw [List.mem_range'_1] at hid
  dsimp only
  omega

/-- Nothing, or one step. -/
def Desk.MayStep (d d' : Desk) : Prop := d' = d ∨ Desk.Step d d'

theorem mayStep_look (s : Session) (h : s.watch.Control) : Desk.MayStep s.desk s.look.desk := by
  have hdepart : ({ s with reported := false } : Session).cancelLive.desk = s.desk :=
    desk_cancelLive { s with reported := false }
  have hset (c : Connectivity) : (({ s with reported := false } : Session).cancelLive.setState c).desk = s.desk := by
    rw [desk_setState, hdepart]
  have hbegin := step_beginEpoch_desk { s with reported := false } (map_id_epochs (s := s) h)
  unfold look
  dsimp only
  split
  · split
    · exact .inr hbegin
    · exact .inl rfl
  · exact .inl hdepart
  · exact .inl (hset _)

theorem mem_desk_runners {id : Nat} {e : Epoch} (h : s.epoch? id = some e) : (id, e.runner) ∈ s.desk.runners :=
  mem_runners h

theorem mem_desk_hearts {id : Nat} {e : Epoch} (h : s.epoch? id = some e) : (id, e.heart) ∈ s.desk.hearts := by
  have hid : e.id = id := by simpa using List.find?_some h
  exact List.mem_map.mpr ⟨e, List.mem_of_find?_eq_some h, by rw [hid]⟩

theorem step_restore_desk {id : Nat} (h : s.restore id = some s') : Desk.Step s.desk s'.desk := by
  obtain ⟨e, he, hr, rfl⟩ := of_restore h
  have hcalls : (s.beginAll (.epoch id) (s.registry.localMembers.map .register)).2 =
      (List.range s.registry.localMembers.length).map (s.desk.lastCall + 1 + ·) := by
    unfold beginAll
    rw [List.length_map]
    rfl
  rw [desk_setRunner, desk_beginAll, List.foldl_map, hcalls]
  exact .restore s.desk id s.registry.localMembers (hr ▸ mem_desk_runners he)
    (Registry.mem_localMembers s.registry)

theorem step_openStream_desk {id : Nat} (h : s.openStream id = some s') : Desk.Step s.desk s'.desk := by
  obtain ⟨e, calls, he, hr, -, rfl⟩ := of_openStream h
  rw [desk_setRunner, desk_begin, desk_setHeart, desk_settle]
  exact .subscribe s.desk id calls _ _ (hr ▸ mem_desk_runners he)

theorem step_write_desk (s : Session) (w : Write) : Desk.Step s.desk (s.startWrite w).desk := by
  unfold startWrite
  dsimp only
  split
  · rw [desk_note_of_silent _ rfl]
    exact .refuse s.desk _ w _
  · have hbegin := desk_begin s (.write s.writings.length) w.request
    have hwrite := Desk.Step.write s.desk s.writings.length w
    rw [← hbegin] at hwrite
    exact hwrite

/-- A write that takes effect in an open session. -/
theorem desk_effectWrite (s : Session) (id : Nat) (w : Write) (hopen : s.closing = false) (hclosed : s.registry.closed = false) :
    ∃ result, (s.effectWrite id w).desk = { s.desk.setProgress id (.done result) with owned := w.own s.desk.owned } := by
  have happly (op : Registry.Op) (hop : op ≠ .close) : (s.apply op).desk =
      { s.desk with owned := (s.registry.perform op).registry.owned? } := by
    rw [desk_apply]
    refine Desk.ext rfl ?_ rfl rfl rfl rfl rfl rfl rfl
    rw [Registry.closed_perform, decide_eq_false hop, Bool.or_false]
    rfl
  unfold effectWrite
  cases w with
  | register m =>
    have hclosing : (s.apply (.registerLocal m)).closing = false := by
      obtain ⟨history, heq⟩ := apply_eq s (.registerLocal m)
      rw [heq]
      exact hopen
    have howned : (s.registry.registerLocal m).registry.owned? = (Write.register m).own s.desk.owned := by
      funext id
      rw [Registry.owned?_registerLocal]
      exact if_congr (and_iff_right hclosed) rfl rfl
    refine ⟨.ok (), ?_⟩
    dsimp only
    rw [hclosing, if_neg Bool.false_ne_true, desk_returnWrite, happly (.registerLocal m) nofun, ← howned]
    rfl
  | updateMetadata member delta =>
    have howned : (s.registry.updateLocal member delta).registry.owned? = (Write.updateMetadata member delta).own s.desk.owned :=
      funext fun id => Registry.owned?_updateLocal s.registry member delta id
    have hview (result : Except Failure Unit) : ((s.apply (.updateLocal member delta)).returnWrite id result).desk =
        { s.desk.setProgress id (.done result) with owned := (Write.updateMetadata member delta).own s.desk.owned } := by
      rw [desk_returnWrite, happly (.updateLocal member delta) nofun, ← howned]
      rfl
    exact ⟨_, hview _⟩
  | unregister member =>
    have howned : (s.registry.unregisterLocal member).registry.owned? = (Write.unregister member).own s.desk.owned :=
      funext fun id => Registry.owned?_unregisterLocal s.registry member id
    refine ⟨.ok (), ?_⟩
    dsimp only
    rw [desk_returnWrite, happly (.unregisterLocal member) nofun, ← howned]
    rfl

theorem step_proceed_desk {id : Nat} (hopen : s.closing = false) (hclosed : s.registry.closed = false)
    (h : s.proceed id = some s') : Desk.Step s.desk s'.desk := by
  obtain ⟨w, call, a, hw, ha, hcases⟩ := of_proceed h
  have hid : w.id = id := by simpa using List.find?_some hw
  have hmem : w ∈ s.desk.writings := List.mem_of_find?_eq_some hw
  obtain ⟨k, hk, hka⟩ := Option.bind_eq_some_iff.mp ha
  subst hid
  obtain ⟨hp, ⟨code, reason, rfl, rfl⟩ | ⟨hr, rfl⟩⟩ | ⟨hp, rfl⟩ := hcases
  · rw [desk_returnWrite, desk_settle]
    exact .reject s.desk w call _ hmem (.inr ⟨hp, k, code, reason, hk, hka⟩)
  · obtain ⟨result, hview⟩ := desk_effectWrite (s.settle [call]) w.id w.write hopen hclosed
    rw [hview, desk_settle]
    exact .effect s.desk w call k a result hmem hp hk hka hr
  · rw [desk_returnWrite, desk_settle]
    exact .reject s.desk w call _ hmem (.inl hp)

theorem step_answer_desk {id : Nat} {failure : Option Failure} (h : s.answer id failure = some s') :
    Desk.Step s.desk s'.desk := by
  obtain ⟨k, hk, hn, hcases⟩ := of_answer h
  obtain ⟨f, -, rfl⟩ | ⟨known, -, hr, rfl⟩ | ⟨-, -, rfl⟩ | ⟨-, -, -, rfl⟩ := hcases
  · rw [desk_give]
    exact .answer s.desk id k _ hk hn nofun
  · rw [desk_give]
    exact .answer s.desk id k _ hk hn fun _ _ => ⟨known, hr⟩
  · rw [desk_give]
    exact .answer s.desk id k _ hk hn nofun
  · rw [desk_give]
    exact .answer s.desk id k _ hk hn nofun

/-- Updates from a stream leave what the client owns. -/
theorem desk_apply_of_owned (s : Session) (op : Registry.Op)
    (howned : (s.registry.perform op).registry.owned? = s.registry.owned?)
    (hop : op ≠ .close) : (s.apply op).desk = s.desk := by
  rw [desk_apply]
  refine Desk.ext howned ?_ rfl rfl rfl rfl rfl rfl rfl
  rw [Registry.closed_perform, decide_eq_false hop, Bool.or_false]
  rfl

theorem mayStep_take {id : Nat} (h : s.take id = some s') : Desk.MayStep s.desk s'.desk := by
  obtain ⟨e, i, t, he, hr, -, hcases⟩ := of_take h
  have hend : Desk.Step s.desk (s.desk.setRunner id .stopped) :=
    .endRunner s.desk id (.reading i) (hr ▸ mem_desk_runners he) (.inr ⟨i, rfl⟩)
  obtain ⟨u, -, rfl⟩ | ⟨f, -, rfl⟩ | ⟨f, -, -, rfl⟩ | ⟨-, -, rfl⟩ := hcases
  · have howned : (s.registry.applyRemote u).registry.owned? = s.registry.owned? :=
      funext fun id => Registry.owned?_applyRemote s.registry u id
    exact .inl ((desk_apply_of_owned (s.readOn id i (.update u)) (.applyRemote u) howned nofun).trans (desk_readOn s id i _))
  · exact .inl (desk_readOn s id i _)
  · right
    rw [desk_quitReading, desk_readOn]
    exact hend
  · right
    rw [desk_quitReading]
    exact hend

/-- A move of a session that stays open is one step of this machine, or none. -/
theorem step_desk {m : Move} (hcontrol : s.watch.Control) (hopen : s.closing = false) (hclosed : s.registry.closed = false)
    (h : s.step m = some s') : Desk.MayStep s.desk s'.desk := by
  have hidle : s.closer = .idle := hcontrol.idle hopen
  cases m with
  | elapse ms =>
    obtain rfl := Option.some.inj h
    exact .inl rfl
  | report c =>
    obtain rfl := Option.some.inj h
    exact .inl rfl
  | answer call failure => exact .inr (step_answer_desk h)
  | push i item =>
    obtain ⟨t, -, -, -, rfl⟩ := of_push h
    exact .inl rfl
  | finish i =>
    obtain rfl := Option.some.inj h
    exact .inl rfl
  | write w =>
    obtain rfl := Option.some.inj h
    exact .inr (step_write_desk s w)
  | close =>
    obtain rfl := Option.some.inj h
    unfold startClose
    split
    · exact .inl (desk_note_of_silent s rfl)
    · exact .inl rfl
  | drop =>
    obtain rfl := Option.some.inj h
    exact .inl rfl
  | subscribe f =>
    obtain rfl := Option.some.inj h
    exact .inl (desk_apply_of_owned s _ (funext fun id => Registry.owned?_subscribe s.registry f id) nofun)
  | unsubscribe n =>
    obtain rfl := Option.some.inj h
    exact .inl (desk_apply_of_owned s _ (funext fun id => Registry.owned?_unsubscribe s.registry n id) nofun)
  | watchStart =>
    obtain ⟨-, rfl⟩ := of_watchStart h
    exact mayStep_look s hcontrol
  | watchChange =>
    obtain ⟨-, -, rfl⟩ := of_watchChange h
    exact mayStep_look s hcontrol
  | watchBroken =>
    obtain ⟨b, rest, hw, hb, ⟨-, rfl⟩ | ⟨hl, rfl⟩⟩ := of_watchBroken h
    · exact .inl (desk_cancelLive { s with broken := rest })
    · exact mayStep_look { s with broken := rest } (hcontrol.step (.stale s.watch b rest hw hb hl))
  | watchResume =>
    obtain ⟨due, -, -, rfl⟩ := of_watchResume h
    exact mayStep_look s hcontrol
  | watchStop =>
    obtain ⟨-, -, rfl⟩ := of_watchStop h
    exact .inl (desk_cancelLive s)
  | restore id => exact .inr (step_restore_desk h)
  | openStream id => exact .inr (step_openStream_desk h)
  | opened id =>
    obtain ⟨e, call, deadline, a, he, hr, -, ⟨i, -, rfl⟩ | ⟨-, rfl⟩⟩ := of_opened h
    · right
      rw [desk_note_of_silent _ rfl, desk_setRunner, desk_settle]
      exact .endOpening s.desk id call deadline _ (hr ▸ mem_desk_runners he) (.inr ⟨i, rfl⟩)
    · right
      rw [desk_reportBroken, desk_setRunner, desk_settle]
      exact .endOpening s.desk id call deadline _ (hr ▸ mem_desk_runners he) (.inl rfl)
  | openTimeout id =>
    obtain ⟨e, call, deadline, he, hr, -, rfl⟩ := of_openTimeout h
    right
    rw [desk_reportBroken, desk_setRunner, desk_abandon]
    exact .endOpening s.desk id call deadline _ (hr ▸ mem_desk_runners he) (.inl rfl)
  | take id => exact mayStep_take h
  | stopRunner id =>
    right
    obtain ⟨e, he, -, ⟨calls, hr, rfl⟩ | ⟨call, deadline, hr, rfl⟩ | ⟨i, hr, rfl⟩ | ⟨hr, rfl⟩⟩ := of_stopRunner h
    · rw [desk_setRunner, desk_abandon]
      exact .endRestoring s.desk id calls (hr ▸ mem_desk_runners he)
    · rw [desk_setRunner, desk_abandon]
      exact .endOpening s.desk id call deadline _ (hr ▸ mem_desk_runners he) (.inl rfl)
    · rw [desk_setRunner, desk_setStream]
      exact .endRunner s.desk id _ (hr ▸ mem_desk_runners he) (.inr ⟨i, rfl⟩)
    · rw [desk_setRunner]
      exact .endRunner s.desk id _ (hr ▸ mem_desk_runners he) (.inl rfl)
  | beat id =>
    obtain ⟨e, due, -, -, rfl⟩ := of_beat h
    right
    rw [desk_setHeart, desk_begin]
    exact .beat s.desk id _ _
  | beatAnswered id =>
    obtain ⟨e, call, deadline, due, a, he, hh, -, ⟨f, -, rfl⟩ | ⟨-, rfl⟩⟩ := of_beatAnswered h
    · right
      rw [desk_reportBroken, desk_setHeart, desk_settle]
      exact .endBeat s.desk id call deadline due _ (hh ▸ mem_desk_hearts he) (.inl rfl)
    · right
      rw [desk_setHeart, desk_settle]
      exact .endBeat s.desk id call deadline due _ (hh ▸ mem_desk_hearts he) (.inr ⟨due, rfl⟩)
  | beatTimeout id =>
    obtain ⟨e, call, deadline, due, he, hh, -, rfl⟩ := of_beatTimeout h
    right
    rw [desk_reportBroken, desk_setHeart, desk_abandon]
    exact .endBeat s.desk id call deadline due _ (hh ▸ mem_desk_hearts he) (.inl rfl)
  | stopHeart id =>
    right
    obtain ⟨e, he, -, ⟨call, deadline, due, hh, rfl⟩ | ⟨-, rfl⟩⟩ := of_stopHeart h
    · rw [desk_setHeart, desk_abandon]
      exact .endBeat s.desk id call deadline due _ (hh ▸ mem_desk_hearts he) (.inl rfl)
    · rw [desk_setHeart]
      exact .endHeart s.desk id
  | proceed id => exact .inr (step_proceed_desk hopen hclosed h)
  | drained =>
    obtain ⟨hc, -⟩ := of_afterDrain h
    exact nomatch hidle.symm.trans hc
  | unregistered =>
    obtain ⟨calls, deadline, hc, -⟩ := of_unregistered h
    exact nomatch hidle.symm.trans hc
  | graceOver =>
    obtain ⟨calls, deadline, hc, -⟩ := of_graceOver h
    exact nomatch hidle.symm.trans hc
  | released =>
    obtain ⟨call, hc, -⟩ := of_released h
    exact nomatch hidle.symm.trans hc

end Roster.Session
