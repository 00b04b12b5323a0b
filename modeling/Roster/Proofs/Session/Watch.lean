import Mathlib.Logic.Relation
import Roster.Proofs.Session.Moves

/-! The part of a session that its watcher reads and writes, as a machine of its own. `Watch.Step` lists what can happen to
that part; `step_watch` shows that a move of the session does nothing else to it. -/
namespace Roster.Session

/-- Events about epochs and the published state. -/
def Event.watched : Event → Bool
  | .state _ | .epochBegan _ | .epochCancelled _ | .epochBroke _ => true
  | _ => false

/-- The epoch that begins with an event. -/
def Event.epochBegun? : Event → Option Nat
  | .epochBegan id => some id
  | _ => none

structure Watch where
  /-- How long the watcher pauses after a broken epoch. -/
  pause : Nat
  now : Nat
  connectivity : Connectivity
  reported : Bool
  cancelled : Bool
  closing : Bool
  closer : Closer
  watcher : Watcher
  live : Option Nat
  lastEpoch : Nat
  broken : List Nat
  published : Connectivity
  /-- Each epoch with whether it was cancelled. -/
  tokens : List (Nat × Bool)
  log : List (Nat × Event)

def watch (s : Session) : Watch where
  pause := (s.settings.reconnect.delayFor 1).toNat
  now := s.now
  connectivity := s.connectivity
  reported := s.reported
  cancelled := s.cancelled
  closing := s.closing
  closer := s.closer
  watcher := s.watcher
  live := s.live
  lastEpoch := s.lastEpoch
  broken := s.broken
  published := s.published
  tokens := s.epochs.map fun e => (e.id, e.cancelled)
  log := s.history.filter (·.2.watched)

/-- The background tasks were seen to have stopped. -/
def Closer.past : Closer → Bool
  | .idle | .draining => false
  | _ => true

namespace Watch

variable (w : Watch)

def note (e : Event) : Watch := { w with log := (w.now, e) :: w.log }

def publish (c : Connectivity) : Watch :=
  if w.published = c ∨ w.published = .closed then w else { w with published := c }.note (.state c)

def cancelLive : Watch :=
  match w.live with
  | none => w
  | some id =>
    { w with live := none, tokens := assign id true w.tokens }.note
      (.epochCancelled id)

def beginEpoch : Watch :=
  let id := w.lastEpoch + 1
  let w := w.publish .ready
  { w with lastEpoch := id, live := some id, tokens := w.tokens ++ [(id, false)] }.note (.epochBegan id)

/-- What the watcher waits for is there, or it waits for reports. -/
inductive Awake : Prop
  | starting (h : w.watcher = .starting)
  | waiting (h : w.watcher = .waiting)
  | resumed (due : Nat) (h : w.watcher = .pausing due) (hdue : due ≤ w.now)

inductive Step : Watch → Watch → Prop
  | elapse (w : Watch) (ms : Nat) : Step w { w with now := w.now + ms }
  | report (w : Watch) (c : Connectivity) : Step w { w with connectivity := c, reported := true }
  | cancel (w : Watch) : Step w { w with cancelled := true }
  | shut (w : Watch) (h : w.closing = false) : Step w { w with closing := true, cancelled := true, closer := .draining }
  | drain (w : Watch) (c : Closer) (h : w.closer = .draining) (hw : w.watcher = .stopped) :
      Step w { w with closer := c }
  | unwind (w : Watch) (c : Closer) (h : w.closer.past = true) (hc : c.past = true) : Step w { w with closer := c }
  | closed (w : Watch) (h : w.closer.past = true) : Step w { w.publish .closed with closer := .finished }
  | broke (w : Watch) (id : Nat) (h : id ∈ w.tokens.map (·.1)) :
      Step w ({ w with broken := w.broken ++ [id] }.note (.epochBroke id))
  | stale (w : Watch) (id : Nat) (rest : List Nat) (h : w.watcher = .waiting) (hb : w.broken = id :: rest)
      (hl : w.live ≠ some id) : Step w { w with broken := rest }
  | pause (w : Watch) (id : Nat) (rest : List Nat) (h : w.watcher = .waiting) (hb : w.broken = id :: rest)
      (hl : w.live = some id) :
      Step w { { w with broken := rest }.cancelLive with watcher := .pausing (w.now + w.pause) }
  | keep (w : Watch) (id : Nat) (h : w.Awake) (hc : w.connectivity = .ready) (hl : w.live = some id) :
      Step w { w with reported := false, watcher := .waiting }
  | begin (w : Watch) (h : w.Awake) (hc : w.connectivity = .ready) (hl : w.live = none) :
      Step w { { w with reported := false }.beginEpoch with watcher := .waiting }
  | depart (w : Watch) (h : w.Awake) (hr : w.connectivity ≠ .ready) (hc : w.connectivity ≠ .closed) :
      Step w { { w with reported := false }.cancelLive.publish w.connectivity with watcher := .waiting }
  | finish (w : Watch) (h : w.Awake) (hc : w.connectivity = .closed) :
      Step w { { w with reported := false }.cancelLive with watcher := .stopped }
  | quit (w : Watch) (h : w.cancelled = true) (hw : w.watcher = .waiting ∨ ∃ due, w.watcher = .pausing due) :
      Step w { w.cancelLive with watcher := .stopped }

/-- What a move of the session comes to: at most one step, before which a stale report may be dropped. -/
inductive Turn : Watch → Watch → Prop
  | rest (w : Watch) : Turn w w
  | step {w w' : Watch} (hstep : Step w w') : Turn w w'
  | skip {w w' : Watch} (id : Nat) (rest : List Nat) (h : w.watcher = .waiting) (hb : w.broken = id :: rest)
      (hl : w.live ≠ some id) (hstep : Step { w with broken := rest } w') : Turn w w'

theorem Turn.steps {w w' : Watch} (h : Turn w w') : Relation.ReflTransGen Step w w' := by
  cases h with
  | rest => exact .refl
  | step hstep => exact .single hstep
  | skip id rest hw hb hl hstep => exact .head (.stale w id rest hw hb hl) (.single hstep)

end Watch

/-! What the session's own operations do to that part -/

theorem watch_note (s : Session) (e : Event) :
    (s.note e).watch = if e.watched then s.watch.note e else s.watch := by
  cases h : e.watched <;> simp [note, watch, Watch.note, h]

@[simp] theorem watch_note_of_not_watched {e : Event} (s : Session) (h : e.watched = false) :
    (s.note e).watch = s.watch := by
  simp [watch_note, h]

theorem watch_setState (s : Session) (c : Connectivity) : (s.setState c).watch = s.watch.publish c := by
  unfold setState Watch.publish
  split
  · next h => exact (if_pos h).symm
  · next h =>
    rw [watch_note]
    exact (if_neg h).symm

@[simp] theorem watch_apply (s : Session) (op : Registry.Op) : (s.apply op).watch = s.watch := by
  refine List.foldlRecOn (motive := fun t : Session => t.watch = s.watch) _ _ ?_ fun t ht d _ => ?_
  · rw [watch_note_of_not_watched _ rfl]
    rfl
  · rw [watch_note_of_not_watched t rfl]
    exact ht

@[simp] theorem watch_begin (s : Session) (caller : Caller) (request : Request) :
    (s.begin caller request).watch = s.watch := by
  unfold begin
  rw [watch_note_of_not_watched _ rfl]
  rfl

@[simp] theorem watch_beginAll (s : Session) (caller : Caller) (requests : List Request) :
    (s.beginAll caller requests).1.watch = s.watch :=
  List.foldlRecOn (motive := fun t : Session => t.watch = s.watch) _ _ rfl fun t ht r _ => (watch_begin t caller r).trans ht

@[simp] theorem watch_settle (s : Session) (ids : List Nat) : (s.settle ids).watch = s.watch := rfl

@[simp] theorem watch_setStream (s : Session) (i : Nat) (f : Stream → Stream) : (s.setStream i f).watch = s.watch := rfl

@[simp] theorem watch_setProgress (s : Session) (id : Nat) (p : Progress) : (s.setProgress id p).watch = s.watch := rfl

@[simp] theorem watch_abandon (s : Session) (ids : List Nat) : (s.abandon ids).watch = s.watch := by
  refine List.foldlRecOn (motive := fun t : Session => t.watch = s.watch) _ _ (watch_settle s ids) fun t ht c _ => ?_
  rw [watch_note_of_not_watched _ rfl, ← ht]
  split <;> rfl

theorem watch_setEpoch (s : Session) (id : Nat) (f : Epoch → Epoch)
    (hf : ∀ e, (f e).id = e.id ∧ (f e).cancelled = e.cancelled) : (s.setEpoch id f).watch = s.watch := by
  have hmap := map_unassigned s.epochs id f (fun e => (e.id, e.cancelled)) fun e => by rw [(hf e).1, (hf e).2]
  unfold setEpoch watch
  simp only [hmap]

@[simp] theorem watch_setRunner (s : Session) (id : Nat) (r : Runner) : (s.setRunner id r).watch = s.watch :=
  watch_setEpoch s id _ fun _ => ⟨rfl, rfl⟩

@[simp] theorem watch_setHeart (s : Session) (id : Nat) (h : Heart) : (s.setHeart id h).watch = s.watch :=
  watch_setEpoch s id _ fun _ => ⟨rfl, rfl⟩

@[simp] theorem watch_returnWrite (s : Session) (id : Nat) (r : Except Failure Unit) :
    (s.returnWrite id r).watch = s.watch := by
  unfold returnWrite
  rw [watch_note_of_not_watched _ rfl, watch_setProgress]

@[simp] theorem watch_effectWrite (s : Session) (id : Nat) (w : Write) : (s.effectWrite id w).watch = s.watch := by
  unfold effectWrite
  split
  · dsimp only
    split
    · simp
    · simp
  · simp
  · simp

@[simp] theorem watch_readOn (s : Session) (id i : Nat) (item : Item) : (s.readOn id i item).watch = s.watch := by
  unfold readOn
  rw [watch_note_of_not_watched _ rfl, watch_setStream]

@[simp] theorem watch_give (s : Session) (id : Nat) (a : Answer) : (s.give id a).watch = s.watch := by
  unfold give
  rw [watch_note_of_not_watched _ rfl]
  rfl

theorem watch_startWrite (s : Session) (w : Write) : (s.startWrite w).watch = s.watch := by
  unfold startWrite
  dsimp only
  split
  · rw [watch_note_of_not_watched _ rfl]
    rfl
  · exact watch_begin s _ _

theorem watch_reportBroken (s : Session) (id : Nat) :
    (s.reportBroken id).watch = { s.watch with broken := s.watch.broken ++ [id] }.note (.epochBroke id) := by
  unfold reportBroken
  rw [watch_note]
  rfl

theorem watch_cancelLive (s : Session) : s.cancelLive.watch = s.watch.cancelLive := by
  unfold cancelLive Watch.cancelLive
  split
  · next h => rw [show s.watch.live = none from h]
  · next id h =>
    rw [show s.watch.live = some id from h, watch_note]
    have hmap := map_assign s.epochs id true (fun e => { e with cancelled := true }) (·.cancelled) fun _ => ⟨rfl, rfl⟩
    simp only [Event.watched, if_true, setEpoch, watch, hmap]

theorem watch_beginEpoch (s : Session) : s.beginEpoch.watch = s.watch.beginEpoch := by
  unfold beginEpoch Watch.beginEpoch
  dsimp only
  rw [watch_note, ← watch_setState]
  simp [Event.watched, watch]

theorem step_look (s : Session) (h : s.watch.Awake) : Watch.Step s.watch s.look.watch := by
  have hbegin (hc : s.connectivity = .ready) (hl : s.live = none) :
      Watch.Step s.watch { ({ s with reported := false } : Session).beginEpoch.watch with watcher := .waiting } := by
    rw [watch_beginEpoch]
    exact .begin s.watch h hc hl
  have hfinish (hc : s.connectivity = .closed) :
      Watch.Step s.watch { ({ s with reported := false } : Session).cancelLive.watch with watcher := .stopped } := by
    rw [watch_cancelLive]
    exact .finish s.watch h hc
  have hdepart (hr : s.connectivity ≠ .ready) (hc : s.connectivity ≠ .closed) :
      Watch.Step s.watch { (({ s with reported := false } : Session).cancelLive.setState s.connectivity).watch with
        watcher := .waiting } := by
    rw [watch_setState, watch_cancelLive]
    exact .depart s.watch h hr hc
  unfold look
  dsimp only
  split
  · next hc =>
    by_cases hl : s.live = none
    · rw [if_pos (by rw [hl]; rfl)]
      exact hbegin hc hl
    · obtain ⟨id, hid⟩ := Option.ne_none_iff_exists'.mp hl
      rw [if_neg (by rw [hid]; exact Bool.false_ne_true)]
      exact .keep s.watch id h hc hid
  · next hc => exact hfinish hc
  · next hr hc => exact hdepart hr hc

theorem mem_tokens_of_epoch? {s : Session} {id : Nat} {e : Epoch} (h : s.epoch? id = some e) :
    id ∈ s.watch.tokens.map (·.1) := by
  have hid : e.id = id := by simpa using List.find?_some h
  rw [← hid]
  simpa [watch] using ⟨e, List.mem_of_find?_eq_some h, rfl⟩

theorem step_reportBroken {s t : Session} {id : Nat} {e : Epoch} (he : s.epoch? id = some e)
    (ht : t.watch = s.watch) : Watch.Turn s.watch (t.reportBroken id).watch := by
  rw [watch_reportBroken, ht]
  exact .step (.broke s.watch id (mem_tokens_of_epoch? he))

theorem watch_release (s : Session) :
    s.release.watch = { s.watch with closer := .releasing (s.lastCall + 1) } := by
  unfold release
  rw [← watch_begin s .closer .close]
  rfl

theorem step_released (s : Session) (call : Nat) (h : s.closer = .releasing call) :
    Watch.Step s.watch
      ({ ((s.settle [call]).apply .close).setState .closed with closer := .finished }.note (.closeReturned true)).watch := by
  have hpast : s.watch.closer.past = true := by
    rw [show s.watch.closer = s.closer from rfl, h]
    rfl
  have hview : (((s.settle [call]).apply .close).setState .closed).watch = s.watch.publish .closed := by
    rw [watch_setState, watch_apply, watch_settle]
  have hstep : Watch.Step s.watch
      { (((s.settle [call]).apply .close).setState .closed).watch with closer := .finished } := by
    rw [hview]
    exact .closed s.watch hpast
  rw [watch_note_of_not_watched _ rfl]
  exact hstep

theorem step_afterDrain {s s' : Session} (h : s.afterDrain = some s') : Watch.Step s.watch s'.watch := by
  obtain ⟨hc, hd, hs'⟩ := of_afterDrain h
  have hstopped : s.watcher = .stopped := by
    unfold drained at hd
    rw [Bool.and_eq_true] at hd
    simpa using hd.1
  obtain ⟨-, rfl⟩ | ⟨-, rfl⟩ := hs'
  · rw [watch_release]
    exact .drain s.watch _ hc hstopped
  · have hview := watch_beginAll s .closer (s.registry.localMembers.map fun m => .unregister m.id)
    have hstep (c : Closer) : Watch.Step s.watch
        { (s.beginAll .closer (s.registry.localMembers.map fun m => .unregister m.id)).1.watch with closer := c } := by
      rw [hview]
      exact .drain s.watch c hc hstopped
    exact hstep _

theorem step_pause (s : Session) (id : Nat) (rest : List Nat) (hw : s.watcher = .waiting) (hb : s.broken = id :: rest)
    (hl : s.live = some id) :
    Watch.Step s.watch { { s with broken := rest }.cancelLive with
      watcher := .pausing (s.now + (s.settings.reconnect.delayFor 1).toNat) }.watch := by
  have hstep : Watch.Step s.watch { ({ s with broken := rest } : Session).cancelLive.watch with
      watcher := .pausing (s.now + (s.settings.reconnect.delayFor 1).toNat) } := by
    rw [watch_cancelLive]
    exact .pause s.watch id rest hw hb hl
  exact hstep

theorem step_quit (s : Session) (hc : s.cancelled = true) (hw : s.watcher = .waiting ∨ ∃ due, s.watcher = .pausing due) :
    Watch.Step s.watch { s.cancelLive with watcher := .stopped }.watch := by
  have hstep : Watch.Step s.watch { s.cancelLive.watch with watcher := .stopped } := by
    rw [watch_cancelLive]
    exact .quit s.watch hc hw
  exact hstep

theorem turn_of_eq {w w' : Watch} (h : w' = w) : Watch.Turn w w' := by
  rw [h]
  exact .rest w

/-- A move changes what the watcher reads and writes by the watcher's machine only. -/
theorem turn_watch {s s' : Session} {m : Move} (h : s.step m = some s') : Watch.Turn s.watch s'.watch := by
  cases m with
  | elapse ms =>
    obtain rfl := Option.some.inj h
    exact .step (.elapse s.watch ms)
  | report c =>
    obtain rfl := Option.some.inj h
    exact .step (.report s.watch c)
  | answer call failure =>
    obtain ⟨c, -, -, ⟨f, -, rfl⟩ | ⟨known, -, -, rfl⟩ | ⟨-, -, rfl⟩ | ⟨-, -, -, rfl⟩⟩ := of_answer h
    · exact turn_of_eq (watch_give s call _)
    · exact turn_of_eq (watch_give _ call _)
    · rw [watch_give]; exact .step (.report s.watch .closed)
    · exact turn_of_eq (watch_give s call _)
  | push i item =>
    obtain ⟨t, -, -, -, rfl⟩ := of_push h
    exact turn_of_eq (watch_setStream s i _)
  | finish i =>
    obtain rfl := Option.some.inj h
    exact turn_of_eq (watch_setStream s i _)
  | write w =>
    obtain rfl := Option.some.inj h
    exact turn_of_eq (watch_startWrite s w)
  | close =>
    obtain rfl := Option.some.inj h
    unfold startClose
    split
    · exact turn_of_eq (watch_note_of_not_watched s rfl)
    · next hc => exact .step (.shut s.watch (Bool.not_eq_true _ ▸ hc : s.closing = false))
  | drop =>
    obtain rfl := Option.some.inj h
    exact .step (.cancel s.watch)
  | subscribe f =>
    obtain rfl := Option.some.inj h
    exact turn_of_eq (watch_apply s _)
  | unsubscribe n =>
    obtain rfl := Option.some.inj h
    exact turn_of_eq (watch_apply s _)
  | watchStart =>
    obtain ⟨hw, rfl⟩ := of_watchStart h
    exact .step (step_look s (.starting hw))
  | watchChange =>
    obtain ⟨hw, -, rfl⟩ := of_watchChange h
    exact .step (step_look s (.waiting hw))
  | watchBroken =>
    obtain ⟨b, rest, hw, hb, ⟨hl, rfl⟩ | ⟨hl, rfl⟩⟩ := of_watchBroken h
    · exact .step (step_pause s b rest hw hb hl)
    · exact .skip b rest hw hb hl (step_look { s with broken := rest } (.waiting hw))
  | watchResume =>
    obtain ⟨due, hw, hd, rfl⟩ := of_watchResume h
    exact .step (step_look s (.resumed due hw hd))
  | watchStop =>
    obtain ⟨hc, hw, rfl⟩ := of_watchStop h
    exact .step (step_quit s hc hw)
  | restore id =>
    obtain ⟨e, -, -, rfl⟩ := of_restore h
    exact turn_of_eq (by simp)
  | openStream id =>
    obtain ⟨e, calls, -, -, -, rfl⟩ := of_openStream h
    exact turn_of_eq (by simp)
  | opened id =>
    obtain ⟨e, call, deadline, a, he, -, -, ⟨i, -, rfl⟩ | ⟨-, rfl⟩⟩ := of_opened h
    · exact turn_of_eq (by rw [watch_note_of_not_watched _ rfl]; simp)
    · exact step_reportBroken he (by simp)
  | openTimeout id =>
    obtain ⟨e, call, deadline, he, -, -, rfl⟩ := of_openTimeout h
    exact step_reportBroken he (by simp)
  | take id =>
    obtain ⟨e, i, t, he, -, -, ⟨u, -, rfl⟩ | ⟨f, -, rfl⟩ | ⟨f, -, -, rfl⟩ | ⟨-, -, rfl⟩⟩ := of_take h
    · exact turn_of_eq (by simp)
    · exact turn_of_eq (by simp)
    · exact step_reportBroken he (by simp)
    · exact step_reportBroken he (by simp)
  | stopRunner id =>
    obtain ⟨e, -, -, ⟨calls, -, rfl⟩ | ⟨call, deadline, -, rfl⟩ | ⟨i, -, rfl⟩ | ⟨-, rfl⟩⟩ := of_stopRunner h <;>
      exact turn_of_eq (by simp)
  | beat id =>
    obtain ⟨e, due, -, -, rfl⟩ := of_beat h
    exact turn_of_eq (by simp)
  | beatAnswered id =>
    obtain ⟨e, call, deadline, due, a, he, -, -, ⟨f, -, rfl⟩ | ⟨-, rfl⟩⟩ := of_beatAnswered h
    · exact step_reportBroken he (by simp)
    · exact turn_of_eq (by simp)
  | beatTimeout id =>
    obtain ⟨e, call, deadline, due, he, -, -, rfl⟩ := of_beatTimeout h
    exact step_reportBroken he (by simp)
  | stopHeart id =>
    obtain ⟨e, -, -, ⟨call, deadline, due, -, rfl⟩ | ⟨-, rfl⟩⟩ := of_stopHeart h <;> exact turn_of_eq (by simp)
  | proceed id =>
    obtain ⟨w, call, a, -, -, ⟨-, ⟨code, reason, -, rfl⟩ | ⟨-, rfl⟩⟩ | ⟨-, rfl⟩⟩ := of_proceed h <;>
      exact turn_of_eq (by simp)
  | drained => exact .step (step_afterDrain h)
  | unregistered =>
    obtain ⟨calls, deadline, hc, -, rfl⟩ := of_unregistered h
    rw [watch_release, watch_settle]
    exact .step (.unwind s.watch _ (show s.closer.past = true by rw [hc]; rfl) rfl)
  | graceOver =>
    obtain ⟨calls, deadline, hc, -, rfl⟩ := of_graceOver h
    rw [watch_release, watch_abandon]
    exact .step (.unwind s.watch _ (show s.closer.past = true by rw [hc]; rfl) rfl)
  | released =>
    obtain ⟨call, hc, -, rfl⟩ := of_released h
    exact .step (step_released s call hc)

theorem step_watch {s s' : Session} {m : Move} (h : s.step m = some s') : Relation.ReflTransGen Watch.Step s.watch s'.watch :=
  (turn_watch h).steps

theorem run_watch {s s' : Session} {moves : List Move} (h : s.run moves = some s') :
    Relation.ReflTransGen Watch.Step s.watch s'.watch :=
  run_induction (P := fun t => Relation.ReflTransGen Watch.Step s.watch t.watch) h .refl
    fun _ _ _ hsteps hm => hsteps.trans (step_watch hm)

end Roster.Session
