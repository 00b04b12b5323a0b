import Mathlib.Logic.Relation
import Roster.Proofs.Registry.Run
import Roster.Proofs.Session.Moves

/-! The part of a session that reads streams into the registry, as a machine of its own. `Reader.Step` lists what can happen
to that part; `step_reader` shows that a move of the session does nothing else to it. -/
namespace Roster.Session

/-- Events about the registry, who reads which stream, and who is told to stop. -/
def Event.read : Event → Bool
  | .performed _ | .reading _ _ | .took _ _ | .epochCancelled _ => true
  | _ => false

structure Reader where
  registry : Registry
  streams : List Stream
  /-- Calls whose answer opened a stream and was not taken up yet. -/
  opened : Nat → Nat → Prop
  lastEpoch : Nat
  runners : List (Nat × Runner)
  /-- Newest first. -/
  log : List Event

def reader (s : Session) : Reader where
  registry := s.registry
  streams := s.streams
  opened := fun call i => ∃ c ∈ s.calls, c.id = call ∧ c.answer = some (.opened i)
  lastEpoch := s.lastEpoch
  runners := s.epochs.map fun e => (e.id, e.runner)
  log := (s.history.map (·.2)).filter Event.read

namespace Reader

variable (r : Reader)

def note (e : Event) : Reader := { r with log := e :: r.log }

def perform (op : Registry.Op) : Reader :=
  { r with registry := (r.registry.perform op).registry, log := .performed op :: r.log }

def setRunner (id : Nat) (runner : Runner) : Reader :=
  { r with runners := assign id runner r.runners }

def setStream (i : Nat) (f : Stream → Stream) : Reader := { r with streams := r.streams.modify i f }

/-- One more item read. -/
def advance (t : Stream) : Stream := { t with taken := t.taken + 1 }

inductive Step : Reader → Reader → Prop
  | forget (r : Reader) (opened : Nat → Nat → Prop) (h : ∀ c i, opened c i → r.opened c i) : Step r { r with opened }
  | accept (r : Reader) (call : Nat) (opened : Nat → Nat → Prop)
      (h : ∀ c i, opened c i → r.opened c i ∨ c = call ∧ i = r.streams.length) :
      Step r { r with opened, streams := r.streams ++ [{}] }
  | perform (r : Reader) (op : Registry.Op) (h : op.isRemote = false) : Step r (r.perform op)
  /-- One of the two ends of a stream goes away. -/
  | part (r : Reader) (i : Nat) (f : Stream → Stream) (h : ∀ t, (f t).items = t.items ∧ (f t).taken = t.taken) :
      Step r (r.setStream i f)
  | send (r : Reader) (i : Nat) (item : Item) : Step r (r.setStream i fun t => { t with items := t.items ++ [item] })
  /-- An epoch begins when all that were before it have been told to stop. -/
  | epoch (r : Reader) (h : ∀ t ∈ r.runners, .epochCancelled t.1 ∈ r.log) :
      Step r { r with lastEpoch := r.lastEpoch + 1, runners := r.runners ++ [(r.lastEpoch + 1, .starting)] }
  | tell (r : Reader) (id : Nat) : Step r (r.note (.epochCancelled id))
  | restore (r : Reader) (id : Nat) (calls : List Nat) (h : (id, .starting) ∈ r.runners) :
      Step r (r.setRunner id (.restoring calls))
  | ask (r : Reader) (id : Nat) (calls : List Nat) (call deadline : Nat) (h : (id, .restoring calls) ∈ r.runners) :
      Step r (r.setRunner id (.opening call deadline))
  | read (r : Reader) (id call deadline i : Nat) (opened : Nat → Nat → Prop) (h : (id, .opening call deadline) ∈ r.runners)
      (hi : r.opened call i) (ho : ∀ c j, opened c j → r.opened c j ∧ c ≠ call) :
      Step r { r.setRunner id (.reading i) with opened, log := .reading id i :: r.log }
  | update (r : Reader) (id i : Nat) (t : Stream) (u : Update) (h : (id, .reading i) ∈ r.runners)
      (ht : r.streams[i]? = some t) (hu : t.items[t.taken]? = some (.update u)) :
      Step r (((r.setStream i advance).note (.took id (.update u))).perform (.applyRemote u))
  | malformed (r : Reader) (id i : Nat) (t : Stream) (f : UpdateFault) (h : (id, .reading i) ∈ r.runners)
      (ht : r.streams[i]? = some t) (hf : t.items[t.taken]? = some (.failure (.update f))) :
      Step r ((r.setStream i advance).note (.took id (.failure (.update f))))
  | fail (r : Reader) (id i : Nat) (t : Stream) (f : Failure) (h : (id, .reading i) ∈ r.runners)
      (ht : r.streams[i]? = some t) (hf : t.items[t.taken]? = some (.failure f)) :
      Step r (((r.setStream i advance).note (.took id (.failure f))).setRunner id .stopped)
  | stop (r : Reader) (id : Nat) : Step r (r.setRunner id .stopped)

abbrev Steps := Relation.ReflTransGen Step

end Reader

variable {s s' : Session}

/-! What the session's own operations do to that part -/

lemma steps_of_reader_eq (h : s'.reader = s.reader) : Reader.Steps s.reader s'.reader := by
  rw [h]

@[simp] theorem reader_note_of_not_read {e : Event} (s : Session) (h : e.read = false) : (s.note e).reader = s.reader := by
  simp [note, reader, h]

theorem reader_note_of_read {e : Event} (s : Session) (h : e.read = true) : (s.note e).reader = s.reader.note e := by
  simp [note, reader, Reader.note, h]

theorem mem_reader_log {e : Event} (h : e.read = true) : e ∈ s.reader.log ↔ ∃ t, (t, e) ∈ s.history := by
  simp [reader, h]

@[simp] theorem reader_setState (s : Session) (c : Connectivity) : (s.setState c).reader = s.reader := by
  unfold setState
  split
  · rfl
  · exact reader_note_of_not_read _ rfl

@[simp] theorem reader_apply (s : Session) (op : Registry.Op) : (s.apply op).reader = s.reader.perform op := by
  refine List.foldlRecOn (motive := fun t : Session => t.reader = s.reader.perform op) _ _ rfl fun t ht d _ => ?_
  rw [reader_note_of_not_read t rfl]
  exact ht

@[simp] theorem reader_begin (s : Session) (caller : Caller) (request : Request) :
    (s.begin caller request).reader = s.reader := by
  unfold begin
  rw [reader_note_of_not_read _ rfl]
  simp [reader]

@[simp] theorem reader_beginAll (s : Session) (caller : Caller) (requests : List Request) :
    (s.beginAll caller requests).1.reader = s.reader :=
  List.foldlRecOn (motive := fun t : Session => t.reader = s.reader) _ _ rfl fun t ht r _ =>
    (reader_begin t caller r).trans ht

theorem reader_setEpoch (s : Session) (id : Nat) (f : Epoch → Epoch)
    (hf : ∀ e, (f e).id = e.id ∧ (f e).runner = e.runner) : (s.setEpoch id f).reader = s.reader := by
  have hmap := map_unassigned s.epochs id f (fun e => (e.id, e.runner)) fun e => by rw [(hf e).1, (hf e).2]
  unfold setEpoch reader
  simp only [hmap]

@[simp] theorem reader_setHeart (s : Session) (id : Nat) (h : Heart) : (s.setHeart id h).reader = s.reader :=
  reader_setEpoch s id _ fun _ => ⟨rfl, rfl⟩

@[simp] theorem reader_setRunner (s : Session) (id : Nat) (runner : Runner) :
    (s.setRunner id runner).reader = s.reader.setRunner id runner := by
  have hmap := map_assign s.epochs id runner (fun e => { e with runner }) (·.runner) fun _ => ⟨rfl, rfl⟩
  unfold setRunner setEpoch Reader.setRunner reader
  simp only [hmap]

@[simp] theorem reader_setStream (s : Session) (i : Nat) (f : Stream → Stream) :
    (s.setStream i f).reader = s.reader.setStream i f := rfl

@[simp] theorem reader_setProgress (s : Session) (id : Nat) (p : Progress) : (s.setProgress id p).reader = s.reader := rfl

@[simp] theorem reader_returnWrite (s : Session) (id : Nat) (result : Except Failure Unit) :
    (s.returnWrite id result).reader = s.reader := by
  unfold returnWrite
  rw [reader_note_of_not_read _ rfl, reader_setProgress]

@[simp] theorem reader_reportBroken (s : Session) (id : Nat) : (s.reportBroken id).reader = s.reader := by
  unfold reportBroken
  rw [reader_note_of_not_read _ rfl]
  rfl

@[simp] theorem reader_release (s : Session) : s.release.reader = s.reader := by
  unfold release
  rw [← reader_begin s .closer .close]
  rfl

theorem steps_settle (s : Session) (ids : List Nat) : Reader.Steps s.reader (s.settle ids).reader := by
  refine .single (.forget s.reader _ ?_)
  rintro c i ⟨call, hmem, hc⟩
  exact ⟨call, (List.mem_filter.mp hmem).1, hc⟩

theorem steps_part (s : Session) (i : Nat) (f : Stream → Stream) (h : ∀ t, (f t).items = t.items ∧ (f t).taken = t.taken) :
    Reader.Steps s.reader (s.setStream i f).reader :=
  .single (.part s.reader i f h)

theorem steps_abandon (s : Session) (ids : List Nat) : Reader.Steps s.reader (s.abandon ids).reader := by
  refine List.foldlRecOn (motive := fun t : Session => Reader.Steps s.reader t.reader) _ _ (steps_settle s ids)
    fun t ht c _ => ht.trans ?_
  rw [reader_note_of_not_read _ rfl]
  split
  · next i _ => exact steps_part t i _ fun _ => ⟨rfl, rfl⟩
  · exact .refl

theorem steps_stop (s : Session) (id : Nat) : Reader.Steps s.reader (s.setRunner id .stopped).reader := by
  rw [reader_setRunner]
  exact .single (.stop s.reader id)

theorem steps_quitReading (s : Session) (id i : Nat) : Reader.Steps s.reader (s.quitReading id i).reader := by
  unfold quitReading
  rw [reader_reportBroken]
  have hpart := steps_part s i (fun t => { t with reading := false }) fun _ => ⟨rfl, rfl⟩
  exact hpart.trans (steps_stop _ id)

/-- An answer other than a stream. -/
theorem steps_give (s : Session) (id : Nat) {a : Answer} (ha : ∀ i, a ≠ .opened i) :
    Reader.Steps s.reader (s.give id a).reader := by
  unfold give
  rw [reader_note_of_not_read _ rfl]
  refine .single (.forget s.reader _ ?_)
  rintro c i ⟨call, hmem, hid, hc⟩
  obtain ⟨old, hold, rfl⟩ := List.mem_map.mp hmem
  split at hc
  · exact absurd (Option.some.inj hc) (ha i)
  · next hne => exact ⟨old, hold, by rw [if_neg hne] at hid; exact hid, hc⟩

theorem step_accept (s : Session) (id : Nat) :
    Reader.Step s.reader ({ s with streams := s.streams ++ [({} : Stream)] }.give id (.opened s.streams.length)).reader := by
  unfold give
  rw [reader_note_of_not_read _ rfl]
  refine .accept s.reader id _ ?_
  rintro c i ⟨call, hmem, hid, hc⟩
  obtain ⟨old, hold, rfl⟩ := List.mem_map.mp hmem
  split at hc
  · next heq =>
    rw [if_pos heq] at hid
    exact .inr ⟨hid.symm.trans heq, (Answer.opened.inj (Option.some.inj hc)).symm⟩
  · next hne =>
    rw [if_neg hne] at hid
    exact .inl ⟨old, hold, hid, hc⟩

theorem steps_cancelLive (s : Session) : Reader.Steps s.reader s.cancelLive.reader := by
  unfold cancelLive
  split
  · exact .refl
  · next id _ =>
    have hsame := reader_setEpoch { s with live := none } id (fun e => { e with cancelled := true }) fun _ => ⟨rfl, rfl⟩
    rw [reader_note_of_read _ rfl, hsame]
    exact .single (.tell s.reader id)

/-- With no live epoch, all were told to stop. -/
def AllTold (s : Session) : Prop := s.live = none → ∀ e ∈ s.epochs, ∃ t, (t, .epochCancelled e.id) ∈ s.history

theorem step_beginEpoch (s : Session) (h : ∀ e ∈ s.epochs, ∃ t, (t, .epochCancelled e.id) ∈ s.history) :
    Reader.Step s.reader s.beginEpoch.reader := by
  have hview : s.beginEpoch.reader = { s.reader with
      lastEpoch := s.lastEpoch + 1
      runners := s.reader.runners ++ [(s.lastEpoch + 1, .starting)] } := by
    unfold beginEpoch
    dsimp only
    rw [reader_note_of_not_read _ rfl, ← reader_setState s .ready]
    simp [reader]
  rw [hview]
  refine .epoch s.reader fun t ht => ?_
  obtain ⟨e, he, rfl⟩ := List.mem_map.mp ht
  exact (mem_reader_log rfl).mpr (h e he)

theorem steps_look (h : s.AllTold) : Reader.Steps s.reader s.look.reader := by
  have hdepart : Reader.Steps s.reader ({ s with reported := false } : Session).cancelLive.reader :=
    steps_cancelLive { s with reported := false }
  have hset (c : Connectivity) :
      Reader.Steps s.reader (({ s with reported := false } : Session).cancelLive.setState c).reader := by
    rw [reader_setState]
    exact hdepart
  unfold look
  dsimp only
  split
  · split
    · next hl => exact .single (step_beginEpoch { s with reported := false } (h (Option.isNone_iff_eq_none.mp hl)))
    · exact .refl
  · exact hdepart
  · exact hset _

theorem steps_startWrite (s : Session) (w : Write) : Reader.Steps s.reader (s.startWrite w).reader := by
  unfold startWrite
  dsimp only
  split
  · rw [reader_note_of_not_read _ rfl]
    exact .refl
  · exact steps_of_reader_eq (reader_begin s _ _)

theorem steps_apply (s : Session) (op : Registry.Op) (h : op.isRemote = false) :
    Reader.Steps s.reader (s.apply op).reader := by
  rw [reader_apply]
  exact .single (.perform s.reader op h)

theorem steps_effectWrite (s : Session) (id : Nat) (w : Write) : Reader.Steps s.reader (s.effectWrite id w).reader := by
  unfold effectWrite
  cases w with
  | register m =>
    have hregister := steps_apply s (.registerLocal m) rfl
    dsimp only
    split
    · rw [reader_setProgress, reader_begin]
      exact hregister.trans (steps_apply _ (.unregisterLocal m.id) rfl)
    · rw [reader_returnWrite]
      exact hregister
  | updateMetadata member delta =>
    dsimp only
    rw [reader_returnWrite]
    exact steps_apply s _ rfl
  | unregister member =>
    dsimp only
    rw [reader_returnWrite]
    exact steps_apply s _ rfl

theorem mem_runners {id : Nat} {e : Epoch} (h : s.epoch? id = some e) : (id, e.runner) ∈ s.reader.runners := by
  have hid : e.id = id := by simpa using List.find?_some h
  exact List.mem_map.mpr ⟨e, List.mem_of_find?_eq_some h, by rw [hid]⟩

theorem opened_of_answer? {call i : Nat} (h : s.answer? call = some (.opened i)) : s.reader.opened call i := by
  obtain ⟨c, hc, ha⟩ := Option.bind_eq_some_iff.mp h
  have hid : c.id = call := by simpa using List.find?_some hc
  exact ⟨c, List.mem_of_find?_eq_some hc, hid, ha⟩

theorem step_read (s : Session) {id call deadline i : Nat} {e : Epoch} (he : s.epoch? id = some e)
    (hr : e.runner = .opening call deadline) (ha : s.answer? call = some (.opened i)) :
    Reader.Step s.reader (((s.settle [call]).setRunner id (.reading i)).note (.reading id i)).reader := by
  have hview : (((s.settle [call]).setRunner id (.reading i)).note (.reading id i)).reader =
      { s.reader.setRunner id (.reading i) with
        opened := (s.settle [call]).reader.opened, log := .reading id i :: s.reader.log } := by
    have hset := reader_setRunner (s.settle [call]) id (.reading i)
    have hnote (t : Session) : (t.note (.reading id i)).reader = { t.reader with log := .reading id i :: t.reader.log } := rfl
    rw [hnote, hset]
    rfl
  rw [hview]
  refine .read s.reader id call deadline i _ (hr ▸ mem_runners he) (opened_of_answer? ha) ?_
  rintro c j ⟨k, hk, hid, hj⟩
  obtain ⟨hmem, hne⟩ := List.mem_filter.mp hk
  refine ⟨⟨k, hmem, hid, hj⟩, ?_⟩
  rintro rfl
  simp [hid] at hne

theorem steps_take {id : Nat} (h : s.take id = some s') : Reader.Steps s.reader s'.reader := by
  obtain ⟨e, i, t, he, hr, ht, hcases⟩ := of_take h
  have hmem : (id, .reading i) ∈ s.reader.runners := hr ▸ mem_runners he
  have hon (item : Item) : (s.readOn id i item).reader = (s.reader.setStream i Reader.advance).note (.took id item) := by
    unfold readOn
    rw [reader_note_of_read _ rfl]
    rfl
  obtain ⟨u, hu, rfl⟩ | ⟨f, hf, rfl⟩ | ⟨f, hf, -, rfl⟩ | ⟨-, -, rfl⟩ := hcases
  · rw [reader_apply, hon]
    exact .single (.update s.reader id i t u hmem ht hu)
  · rw [hon]
    exact .single (.malformed s.reader id i t f hmem ht hf)
  · -- The reader lets the stream go only after it stopped here; the order does not matter.
    have hview : ((s.readOn id i (.failure f)).quitReading id i).reader =
        (((s.reader.setStream i Reader.advance).note (.took id (.failure f))).setRunner id .stopped).setStream i
          fun t => { t with reading := false } := by
      unfold quitReading
      rw [reader_reportBroken, reader_setRunner, reader_setStream, hon]
      rfl
    rw [hview]
    exact .tail (.single (.fail s.reader id i t f hmem ht hf)) (.part _ i _ fun _ => ⟨rfl, rfl⟩)
  · exact steps_quitReading s id i

/-- A move changes what reads the streams by steps of this machine only. -/
theorem step_reader {m : Move} (htold : s.AllTold) (h : s.step m = some s') : Reader.Steps s.reader s'.reader := by
  cases m with
  | elapse ms =>
    obtain rfl := Option.some.inj h
    exact .refl
  | report c =>
    obtain rfl := Option.some.inj h
    exact .refl
  | answer call failure =>
    obtain ⟨c, -, -, ⟨f, -, rfl⟩ | ⟨known, -, -, rfl⟩ | ⟨-, -, rfl⟩ | ⟨-, -, -, rfl⟩⟩ := of_answer h
    · exact steps_give s call nofun
    · exact .single (step_accept s call)
    · exact steps_give { s with connectivity := .closed, reported := true } call nofun
    · exact steps_give s call nofun
  | push i item =>
    obtain ⟨t, -, -, -, rfl⟩ := of_push h
    exact .single (.send s.reader i item)
  | finish i =>
    obtain rfl := Option.some.inj h
    exact steps_part s i _ fun _ => ⟨rfl, rfl⟩
  | write w =>
    obtain rfl := Option.some.inj h
    exact steps_startWrite s w
  | close =>
    obtain rfl := Option.some.inj h
    unfold startClose
    split
    · exact steps_of_reader_eq (reader_note_of_not_read s rfl)
    · exact .refl
  | drop =>
    obtain rfl := Option.some.inj h
    exact .refl
  | subscribe f =>
    obtain rfl := Option.some.inj h
    exact steps_apply s _ rfl
  | unsubscribe n =>
    obtain rfl := Option.some.inj h
    exact steps_apply s _ rfl
  | watchStart =>
    obtain ⟨-, rfl⟩ := of_watchStart h
    exact steps_look htold
  | watchChange =>
    obtain ⟨-, -, rfl⟩ := of_watchChange h
    exact steps_look htold
  | watchBroken =>
    obtain ⟨b, rest, -, -, ⟨-, rfl⟩ | ⟨-, rfl⟩⟩ := of_watchBroken h
    · exact steps_cancelLive { s with broken := rest }
    · exact steps_look (s := { s with broken := rest }) htold
  | watchResume =>
    obtain ⟨due, -, -, rfl⟩ := of_watchResume h
    exact steps_look htold
  | watchStop =>
    obtain ⟨-, -, rfl⟩ := of_watchStop h
    exact steps_cancelLive s
  | restore id =>
    obtain ⟨e, he, hr, rfl⟩ := of_restore h
    rw [reader_setRunner, reader_beginAll]
    exact .single (.restore s.reader id _ (hr ▸ mem_runners he))
  | openStream id =>
    obtain ⟨e, calls, he, hr, -, rfl⟩ := of_openStream h
    rw [reader_setRunner, reader_begin, reader_setHeart]
    exact (steps_settle s calls).tail (.ask _ id calls _ _ (hr ▸ mem_runners he))
  | opened id =>
    obtain ⟨e, call, deadline, a, he, hr, ha, ⟨i, rfl, rfl⟩ | ⟨-, rfl⟩⟩ := of_opened h
    · exact .single (step_read s he hr ha)
    · rw [reader_reportBroken]
      exact (steps_settle s [call]).trans (steps_stop _ id)
  | openTimeout id =>
    obtain ⟨e, call, deadline, -, -, -, rfl⟩ := of_openTimeout h
    rw [reader_reportBroken]
    exact (steps_abandon s [call]).trans (steps_stop _ id)
  | take id => exact steps_take h
  | stopRunner id =>
    obtain ⟨e, -, -, ⟨calls, -, rfl⟩ | ⟨call, deadline, -, rfl⟩ | ⟨i, -, rfl⟩ | ⟨-, rfl⟩⟩ := of_stopRunner h
    · exact (steps_abandon s calls).trans (steps_stop _ id)
    · exact (steps_abandon s [call]).trans (steps_stop _ id)
    · have hpart := steps_part s i (fun t => { t with reading := false }) fun _ => ⟨rfl, rfl⟩
      exact hpart.trans (steps_stop _ id)
    · exact steps_stop s id
  | beat id =>
    obtain ⟨e, due, -, -, rfl⟩ := of_beat h
    exact steps_of_reader_eq (by simp)
  | beatAnswered id =>
    obtain ⟨e, call, deadline, due, a, -, -, -, ⟨f, -, rfl⟩ | ⟨-, rfl⟩⟩ := of_beatAnswered h
    · rw [reader_reportBroken, reader_setHeart]
      exact steps_settle s [call]
    · rw [reader_setHeart]
      exact steps_settle s [call]
  | beatTimeout id =>
    obtain ⟨e, call, deadline, due, -, -, -, rfl⟩ := of_beatTimeout h
    rw [reader_reportBroken, reader_setHeart]
    exact steps_abandon s [call]
  | stopHeart id =>
    obtain ⟨e, -, -, ⟨call, deadline, due, -, rfl⟩ | ⟨-, rfl⟩⟩ := of_stopHeart h
    · rw [reader_setHeart]
      exact steps_abandon s [call]
    · exact steps_of_reader_eq (reader_setHeart s id .stopped)
  | proceed id =>
    obtain ⟨w, call, a, -, -, ⟨-, ⟨code, reason, -, rfl⟩ | ⟨-, rfl⟩⟩ | ⟨-, rfl⟩⟩ := of_proceed h
    · rw [reader_returnWrite]
      exact steps_settle s [call]
    · exact (steps_settle s [call]).trans (steps_effectWrite _ id w.write)
    · rw [reader_returnWrite]
      exact steps_settle s [call]
  | drained =>
    obtain ⟨-, -, ⟨-, rfl⟩ | ⟨-, rfl⟩⟩ := of_afterDrain h
    · exact steps_of_reader_eq (reader_release s)
    · exact steps_of_reader_eq (reader_beginAll s .closer _)
  | unregistered =>
    obtain ⟨calls, deadline, -, -, rfl⟩ := of_unregistered h
    rw [reader_release]
    exact steps_settle s calls
  | graceOver =>
    obtain ⟨calls, deadline, -, -, rfl⟩ := of_graceOver h
    rw [reader_release]
    exact steps_abandon s calls
  | released =>
    obtain ⟨call, -, -, rfl⟩ := of_released h
    have hclose : (((s.settle [call]).apply .close).setState .closed).reader = (s.settle [call]).reader.perform .close := by
      rw [reader_setState, reader_apply]
    rw [reader_note_of_not_read _ rfl]
    exact (steps_settle s [call]).tail (hclose ▸ .perform _ .close rfl)

end Roster.Session
