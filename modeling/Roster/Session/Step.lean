import Roster.Session

/-! The moves of a session. The environment and the application may move at any time; a background task moves when
what it waits for is there. A run is a list of moves, so every interleaving is a run. -/
namespace Roster.Session

inductive Move
  -- The environment.
  | elapse (ms : Nat)
  | report (c : Connectivity)
  | answer (call : Nat) (failure : Option Failure)
  | push (stream : Nat) (item : Item)
  /-- The server's end of a stream goes away. -/
  | finish (stream : Nat)
  -- The application.
  | write (w : Write)
  | close
  /-- The last reference to the client goes away. -/
  | drop
  | subscribe (filter : Option Filter)
  | unsubscribe (subscriber : Nat)
  -- The watcher.
  | watchStart
  | watchChange
  | watchBroken
  | watchResume
  | watchStop
  -- The task that reads the updates of an epoch.
  | restore (epoch : Nat)
  | openStream (epoch : Nat)
  | opened (epoch : Nat)
  | openTimeout (epoch : Nat)
  | take (epoch : Nat)
  | stopRunner (epoch : Nat)
  -- The heartbeats of an epoch.
  | beat (epoch : Nat)
  | beatAnswered (epoch : Nat)
  | beatTimeout (epoch : Nat)
  | stopHeart (epoch : Nat)
  -- Writes and the shutdown.
  | proceed (write : Nat)
  | drained
  | unregistered
  | graceOver
  | released
  deriving DecidableEq

variable (s : Session)

/-! The watcher. It would also end with the transport's reports, but a session holds its transport, so these do not end. -/

def cancelLive : Session :=
  match s.live with
  | none => s
  | some id => { s with live := none }.setEpoch id (fun e => { e with cancelled := true }) |>.note (.epochCancelled id)

def beginEpoch : Session :=
  let id := s.lastEpoch + 1
  let s := s.setState .ready
  { s with lastEpoch := id, live := some id, epochs := s.epochs ++ [({ id } : Epoch)] }.note (.epochBegan id)

/-- Acts on the connectivity the transport reports now. -/
def look : Session :=
  let s := { s with reported := false }
  match s.connectivity with
  | .ready => { (if s.live.isNone then s.beginEpoch else s) with watcher := .waiting }
  | .closed => { s.cancelLive with watcher := .stopped }
  | c => { s.cancelLive.setState c with watcher := .waiting }

def watchStart : Option Session := if s.watcher = .starting then some s.look else none

def watchChange : Option Session := if s.watcher = .waiting ∧ s.reported then some s.look else none

/-- A report of the live epoch ends it and starts a pause; any other is stale. -/
def watchBroken : Option Session :=
  match s.watcher, s.broken with
  | .waiting, id :: rest =>
    let s := { s with broken := rest }
    if s.live = some id then
      some { s.cancelLive with watcher := .pausing (s.now + (s.settings.reconnect.delayFor 1).toNat) }
    else some s.look
  | _, _ => none

def watchResume : Option Session :=
  match s.watcher with
  | .pausing due => if due ≤ s.now then some s.look else none
  | _ => none

def watchStop : Option Session :=
  match s.watcher, s.cancelled with
  | .waiting, true | .pausing _, true => some { s.cancelLive with watcher := .stopped }
  | _, _ => none

/-! Epochs -/

def reportBroken (id : Nat) : Session := { s with broken := s.broken ++ [id] }.note (.epochBroke id)

/-- The tasks of older epochs were told to stop, but are not waited for. -/
def restore (id : Nat) : Option Session := do
  let e ← s.epoch? id
  guard (e.runner = .starting)
  let (s, calls) := s.beginAll (.epoch id) (s.registry.localMembers.map .register)
  return s.setRunner id (.restoring calls)

/-- Every answer is in, whatever it is. The task of the heartbeats starts and the stream is asked for with the versions known then,
in one move, as nothing is awaited in between. An epoch told to stop by then might skip the call; here it makes the call and
abandons it. -/
def openStream (id : Nat) : Option Session := do
  let e ← s.epoch? id
  match e.runner with
  | .restoring calls =>
    guard (calls.all s.answered)
    let s := ((s.settle calls).setHeart id .starting).begin (.epoch id) (.subscribe s.registry.knownVersions)
    return s.setRunner id (.opening s.lastCall (s.now + s.settings.requestTimeoutMs.toNat))
  | _ => none

def opened (id : Nat) : Option Session := do
  let e ← s.epoch? id
  match e.runner with
  | .opening call _ =>
    match s.answer? call with
    | some (.opened i) => return ((s.settle [call]).setRunner id (.reading i)).note (.reading id i)
    | some _ => return ((s.settle [call]).setRunner id .stopped).reportBroken id
    | none => none
  | _ => none

def openTimeout (id : Nat) : Option Session := do
  let e ← s.epoch? id
  match e.runner with
  | .opening call deadline =>
    guard (deadline ≤ s.now ∧ !s.answered call)
    return ((s.abandon [call]).setRunner id .stopped).reportBroken id
  | _ => none

/-- Reads the next item, or the end. Malformed updates are dropped; any other failure ends the epoch. -/
def take (id : Nat) : Option Session := do
  let e ← s.epoch? id
  match e.runner with
  | .reading i =>
    let t ← s.streams[i]?
    let quit := fun (s : Session) =>
      ((s.setStream i fun t => { t with reading := false }).setRunner id .stopped).reportBroken id
    match t.items[t.taken]? with
    | some item =>
      let s := (s.setStream i fun t => { t with taken := t.taken + 1 }).note (.took id item)
      match item with
      | .update u => return s.apply (.applyRemote u)
      | .failure (.update _) => return s
      | .failure _ => return quit s
    | none =>
      guard t.ended
      return quit s
  | _ => none

def stopRunner (id : Nat) : Option Session := do
  let e ← s.epoch? id
  guard (s.stopping e)
  match e.runner with
  | .restoring calls => return (s.abandon calls).setRunner id .stopped
  | .opening call _ => return (s.abandon [call]).setRunner id .stopped
  | .reading i => return (s.setStream i fun t => { t with reading := false }).setRunner id .stopped
  | .starting => return s.setRunner id .stopped
  | .stopped => none

/-- The next tick comes a period after this one was due, or after now if this one is more than 5 ms late. -/
def nextTick (due : Nat) : Nat :=
  let period := s.settings.heartbeatIntervalMs.toNat
  if due + 5 < s.now then s.now + period else due + period

/-- A tick: a heartbeat is sent. The first tick is due when the task first runs. -/
def beat (id : Nat) : Option Session := do
  let e ← s.epoch? id
  let due ← match e.heart with
    | .starting => some s.now
    | .waiting due => if due ≤ s.now then some due else none
    | _ => none
  let s := s.begin (.epoch id) .heartbeat
  return s.setHeart id (.sending s.lastCall (s.now + s.settings.heartbeatTimeoutMs.toNat) (s.nextTick due))

def beatAnswered (id : Nat) : Option Session := do
  let e ← s.epoch? id
  match e.heart with
  | .sending call _ due =>
    match s.answer? call with
    | some (.failed _) => return ((s.settle [call]).setHeart id .stopped).reportBroken id
    | some _ => return (s.settle [call]).setHeart id (.waiting due)
    | none => none
  | _ => none

def beatTimeout (id : Nat) : Option Session := do
  let e ← s.epoch? id
  match e.heart with
  | .sending call deadline _ =>
    guard (deadline ≤ s.now ∧ !s.answered call)
    return ((s.abandon [call]).setHeart id .stopped).reportBroken id
  | _ => none

def stopHeart (id : Nat) : Option Session := do
  let e ← s.epoch? id
  guard (s.stopping e)
  match e.heart with
  | .sending call _ _ => return (s.abandon [call]).setHeart id .stopped
  | .starting | .waiting _ => return s.setHeart id .stopped
  | .absent | .stopped => none

/-! Writes -/

def returnWrite (id : Nat) (result : Except Failure Unit) : Session :=
  (s.setProgress id (.done result)).note (.wrote id result)

def Write.request : Write → Request
  | .register m => .register m
  | .updateMetadata id delta => .updateMetadata id delta
  | .unregister id => .unregister id

/-- Why a write is refused before anything is sent. -/
def refusal (w : Write) : Option Failure :=
  if s.closing then some .closed
  else
    match w with
    | .register _ => none
    | .updateMetadata id _ | .unregister id => if s.registry.isLocal id then none else some (.unknownMember id)

def startWrite (w : Write) : Session :=
  let id := s.writings.length
  let add := fun (s : Session) (p : Progress) => { s with writings := s.writings ++ [⟨id, w, p⟩] }
  match s.refusal w with
  | some f => (add s (.done (.error f))).note (.wrote id (.error f))
  | none =>
    let s := s.begin (.write id) w.request
    add s (.sending s.lastCall)

/-- A write that was not rejected takes effect here, also if the registry could not be reached. -/
def effectWrite (id : Nat) (w : Write) : Session :=
  match w with
  | .register m =>
    let s := s.apply (.registerLocal m)
    if s.closing then
      let s := (s.apply (.unregisterLocal m.id)).begin (.write id) (.unregister m.id)
      s.setProgress id (.undoing s.lastCall)
    else s.returnWrite id (.ok ())
  | .updateMetadata member delta =>
    let result := match (s.registry.updateLocal member delta).reply with
      | .flag true => .ok ()
      | _ => .error (.unknownMember member)
    (s.apply (.updateLocal member delta)).returnWrite id result
  | .unregister member => (s.apply (.unregisterLocal member)).returnWrite id (.ok ())

def proceed (id : Nat) : Option Session := do
  let w ← s.writing? id
  match w.progress with
  | .sending call =>
    match s.answer? call with
    | none => none
    | some (.failed (.rejected code reason)) =>
      return (s.settle [call]).returnWrite id (.error (.rejected code reason))
    | some _ => return (s.settle [call]).effectWrite id w.write
  | .undoing call =>
    guard (s.answered call)
    return (s.settle [call]).returnWrite id (.error .closed)
  | .done _ => none

/-! The shutdown -/

/-- The first close shuts down; later ones return at once. -/
def startClose : Session :=
  if s.closing then s.note (.closeReturned false)
  else { s with closing := true, cancelled := true, closer := .draining }

def release : Session :=
  let s := s.begin .closer .close
  { s with closer := .releasing s.lastCall }

/-- The tasks have stopped: the members still local are unregistered, all at once. -/
def afterDrain : Option Session :=
  if s.closer = .draining ∧ s.drained then
    let ids := s.registry.localMembers.map (·.id)
    if ids.isEmpty then some s.release
    else
      let deadline := s.now + s.settings.closeTimeoutMs.toNat
      let (s, calls) := s.beginAll .closer (ids.map .unregister)
      some { s with closer := .unregistering calls deadline }
  else none

def unregistered : Option Session :=
  match s.closer with
  | .unregistering calls _ => if calls.all s.answered then some (s.settle calls).release else none
  | _ => none

def graceOver : Option Session :=
  match s.closer with
  | .unregistering calls deadline =>
    if deadline ≤ s.now ∧ !calls.all s.answered then some (s.abandon calls).release else none
  | _ => none

def released : Option Session :=
  match s.closer with
  | .releasing call =>
    if s.answered call then
      let s := ((s.settle [call]).apply .close).setState .closed
      some ({ s with closer := .finished }.note (.closeReturned true))
    else none
  | _ => none

/-! The environment -/

/-- A call is answered once. A subscribe that succeeds opens a new stream; a close leaves the transport closed. -/
def answer (id : Nat) (failure : Option Failure) : Option Session := do
  let c ← s.call? id
  guard c.answer.isNone
  let given := fun (s : Session) (a : Answer) =>
    let calls := s.calls.map fun (c : Call) => if c.id = id then { c with answer := some a } else c
    { s with calls }.note (.answered id a)
  match failure, c.request with
  | some f, _ => return given s (.failed f)
  | none, .subscribe _ => return given { s with streams := s.streams ++ [{}] } (.opened s.streams.length)
  | none, .close => return given { s with connectivity := .closed, reported := true } .done
  | none, _ => return given s .done

/-- Items reach a stream as long as both of its ends are held. -/
def push (i : Nat) (item : Item) : Option Session := do
  let t ← s.streams[i]?
  guard (t.reading ∧ !t.ended)
  return s.setStream i fun t => { t with items := t.items ++ [item] }

/-- What a move makes of a session, if it is possible. -/
def step : Move → Option Session
  | .elapse ms => some { s with now := s.now + ms }
  | .report c => some { s with connectivity := c, reported := true }
  | .answer call failure => s.answer call failure
  | .push i item => s.push i item
  | .finish i => some (s.setStream i fun t => { t with ended := true })
  | .write w => some (s.startWrite w)
  | .close => some s.startClose
  | .drop => some { s with cancelled := true }
  | .subscribe f => some (s.apply (.subscribe f))
  | .unsubscribe n => some (s.apply (.unsubscribe n))
  | .watchStart => s.watchStart
  | .watchChange => s.watchChange
  | .watchBroken => s.watchBroken
  | .watchResume => s.watchResume
  | .watchStop => s.watchStop
  | .restore id => s.restore id
  | .openStream id => s.openStream id
  | .opened id => s.opened id
  | .openTimeout id => s.openTimeout id
  | .take id => s.take id
  | .stopRunner id => s.stopRunner id
  | .beat id => s.beat id
  | .beatAnswered id => s.beatAnswered id
  | .beatTimeout id => s.beatTimeout id
  | .stopHeart id => s.stopHeart id
  | .proceed id => s.proceed id
  | .drained => s.afterDrain
  | .unregistered => s.unregistered
  | .graceOver => s.graceOver
  | .released => s.released

def run (s : Session) (moves : List Move) : Option Session := moves.foldlM (fun s m => s.step m) s

/-- A session over a transport that just connected. -/
def start (settings : Settings) (connectivity : Connectivity) (now : Nat) : Session :=
  { settings, now, connectivity }

end Roster.Session
