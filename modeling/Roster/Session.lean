import Roster.Connectivity
import Roster.Registry
import Roster.Transport

/-! The session of a client over one transport, as data: its background tasks, its calls in flight, the streams it reads
and its history. `Session.Step` says how it moves. -/
namespace Roster

namespace Session

/-- A stream of updates: all that was sent on it, how much was read, and whether its two ends are still held. -/
structure Stream where
  items : List Item := []
  taken : Nat := 0
  ended : Bool := false
  reading : Bool := true
  deriving DecidableEq

/-- Who makes a call. -/
inductive Caller
  | epoch (id : Nat)
  | write (id : Nat)
  | closer
  deriving DecidableEq

/-- What a call is answered; a subscribe that succeeds opens a stream. -/
inductive Answer
  | done
  | opened (stream : Nat)
  | failed (f : Failure)
  deriving DecidableEq

structure Call where
  id : Nat
  caller : Caller
  request : Request
  answer : Option Answer := none
  deriving DecidableEq

/-- The task that reads the updates of an epoch. -/
inductive Runner
  | starting
  /-- Registers the local members again and waits for every answer. -/
  | restoring (calls : List Nat)
  | opening (call deadline : Nat)
  | reading (stream : Nat)
  | stopped
  deriving DecidableEq

/-- The task that sends the heartbeats of an epoch. -/
inductive Heart
  | absent
  | starting
  /-- The next tick is due. -/
  | waiting (due : Nat)
  | sending (call deadline due : Nat)
  | stopped
  deriving DecidableEq

structure Epoch where
  id : Nat
  cancelled : Bool := false
  runner : Runner := .starting
  heart : Heart := .absent
  deriving DecidableEq

/-- The task that follows the transport's connectivity. -/
inductive Watcher
  | starting
  | waiting
  /-- Pauses after a broken epoch. -/
  | pausing (until_ : Nat)
  | stopped
  deriving DecidableEq

/-- A write of the application. -/
inductive Write
  | register (m : Member)
  | updateMetadata (id : String) (delta : Keyed String)
  | unregister (id : String)
  deriving DecidableEq

inductive Progress
  | sending (call : Nat)
  /-- A registration overtaken by close takes itself back. -/
  | undoing (call : Nat)
  | done (result : Except Failure Unit)

structure Writing where
  id : Nat
  write : Write
  progress : Progress

/-- The shutdown. -/
inductive Closer
  | idle
  /-- Waits for the background tasks to stop. -/
  | draining
  | unregistering (calls : List Nat) (deadline : Nat)
  | releasing (call : Nat)
  | finished
  deriving DecidableEq

inductive Event
  | performed (op : Registry.Op)
  /-- The connection state callback. -/
  | state (c : Connectivity)
  /-- A subscriber's callback. -/
  | notified (subscriber : Nat) (members : List Member)
  | called (call : Nat) (caller : Caller) (request : Request)
  | answered (call : Nat) (answer : Answer)
  | abandoned (call : Nat)
  | epochBegan (epoch : Nat)
  | epochCancelled (epoch : Nat)
  | epochBroke (epoch : Nat)
  | reading (epoch stream : Nat)
  /-- An epoch read an item of its stream. -/
  | took (epoch : Nat) (item : Item)
  | wrote (write : Nat) (result : Except Failure Unit)
  | closeReturned (performed : Bool)

end Session

structure Session where
  settings : Settings
  now : Nat := 0
  registry : Registry := {}
  /-- What the client shows as its connection state. -/
  published : Connectivity := .connecting
  /-- Close was called. -/
  closing : Bool := false
  /-- The background tasks are told to stop. -/
  cancelled : Bool := false
  /-- What the transport reports. -/
  connectivity : Connectivity := .ready
  /-- The watcher has not seen the last report. -/
  reported : Bool := false
  watcher : Session.Watcher := .starting
  /-- The epoch the watcher holds. -/
  live : Option Nat := none
  lastEpoch : Nat := 0
  epochs : List Session.Epoch := []
  /-- Epochs reported broken, not yet seen by the watcher. -/
  broken : List Nat := []
  closer : Session.Closer := .idle
  writings : List Session.Writing := []
  /-- Calls in flight, and answers not yet taken up. -/
  calls : List Session.Call := []
  lastCall : Nat := 0
  /-- A stream is known by its position. -/
  streams : List Session.Stream := []
  /-- Newest first, with the time. -/
  history : List (Nat × Session.Event) := []

namespace Session

variable (s : Session)

def note (e : Event) : Session := { s with history := (s.now, e) :: s.history }

/-- Publishes a state unless the session is closed or shows it already. -/
def setState (c : Connectivity) : Session :=
  if s.published = c ∨ s.published = .closed then s else { s with published := c }.note (.state c)

/-- Callbacks of a client's subscribers only listen. -/
def apply (op : Registry.Op) : Session :=
  let e := s.registry.perform op
  e.deliveries.foldl (fun s d => s.note (.notified d.1 d.2)) ({ s with registry := e.registry }.note (.performed op))

def begin (caller : Caller) (request : Request) : Session :=
  let call : Call := { id := s.lastCall + 1, caller, request }
  { s with lastCall := call.id, calls := s.calls ++ [call] }.note (.called call.id caller request)

/-- Begins several calls; their ids follow the last one. -/
def beginAll (caller : Caller) (requests : List Request) : Session × List Nat :=
  (requests.foldl (fun s r => s.begin caller r) s, (List.range requests.length).map (s.lastCall + 1 + ·))

def call? (id : Nat) : Option Call := s.calls.find? (·.id = id)

def answer? (id : Nat) : Option Answer := (s.call? id).bind (·.answer)

def answered (id : Nat) : Bool := (s.answer? id).isSome

/-- Takes up an answer. -/
def settle (ids : List Nat) : Session := { s with calls := s.calls.filter fun c => !ids.contains c.id }

def setStream (i : Nat) (f : Stream → Stream) : Session :=
  { s with streams := s.streams.modify i f }

/-- A caller that stops waiting drops the stream an answer may have opened. -/
def abandon (ids : List Nat) : Session :=
  let given := s.calls.filter fun c => ids.contains c.id
  given.foldl (fun s c =>
    let s := match c.answer with
      | some (.opened i) => s.setStream i fun t => { t with reading := false }
      | _ => s
    s.note (.abandoned c.id)) (s.settle ids)

def epoch? (id : Nat) : Option Epoch := s.epochs.find? (·.id = id)

def setEpoch (id : Nat) (f : Epoch → Epoch) : Session :=
  { s with epochs := s.epochs.map fun e => if e.id = id then f e else e }

def setRunner (id : Nat) (r : Runner) : Session := s.setEpoch id fun e => { e with runner := r }

def setHeart (id : Nat) (h : Heart) : Session := s.setEpoch id fun e => { e with heart := h }

def writing? (id : Nat) : Option Writing := s.writings.find? (·.id = id)

def setProgress (id : Nat) (p : Progress) : Session :=
  { s with writings := s.writings.map fun w => if w.id = id then { w with progress := p } else w }

/-- An epoch whose tasks are told to stop. -/
def stopping (e : Epoch) : Bool := e.cancelled || s.cancelled

def Epoch.atRest (e : Epoch) : Bool :=
  e.runner = .stopped && (e.heart = .stopped || e.heart = .absent)

/-- All background tasks have stopped. -/
def drained : Bool := s.watcher = .stopped && s.epochs.all Epoch.atRest

end Session

end Roster
