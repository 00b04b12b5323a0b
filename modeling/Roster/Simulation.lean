import Roster.Client

/-! A session over an in-memory transport, on a clock that moves only when everything is blocked. Every change of the
session is one of its moves, so what is simulated is one of its runs. -/
namespace Roster

namespace Simulation

inductive CallKind
  | register | unregister | updateMetadata | subscribe | heartbeat | close
  deriving DecidableEq, Repr

def CallKind.of : Request → CallKind
  | .register _ => register
  | .unregister _ => unregister
  | .updateMetadata .. => updateMetadata
  | .subscribe _ => subscribe
  | .heartbeat => heartbeat
  | .close => close

/-- How the server treats a call: it waits, then succeeds or fails. -/
structure Behaviour where
  delayMs : Nat := 0
  failure : Option Failure := none

/-- A call's answer and when it is given. -/
structure DueAnswer where
  at_ : Nat
  call : Nat
  request : Request
  failure : Option Failure

/-- Who holds on to the client. -/
inductive Reference
  | client
  | handle (member : String)
  /-- A registration in the background; with its result still awaited, the result is a handle. -/
  | task (write : Nat) (awaited : Bool)
  deriving DecidableEq

inductive Task
  | watcher
  | runner (epoch : Nat)
  | heart (epoch : Nat)
  | write (id : Nat)
  | closer
  deriving DecidableEq

end Simulation

open Simulation in
structure Simulation where
  session : Session
  behaviours : List (CallKind × Behaviour) := []
  due : List DueAnswer := []
  /-- The last call the transport has seen. -/
  seenCall : Nat := 0
  /-- The stream whose end the server holds. -/
  newest : Option Nat := none
  references : List Reference := []

namespace Simulation

variable (s : Simulation)

/-- The transport takes up the calls begun since it last looked. -/
def takeUp : Simulation :=
  let fresh := s.session.calls.filter fun c => s.seenCall < c.id
  let answers := fresh.map fun c =>
    let b := (s.behaviours.lookup (.of c.request)).getD {}
    ⟨s.session.now + b.delayMs, c.id, c.request, if c.request = .close then none else b.failure⟩
  { s with due := s.due ++ answers, seenCall := s.session.lastCall }

def move? (m : Session.Move) : Option Simulation :=
  (s.session.step m).map fun session => { s with session }.takeUp

def move (m : Session.Move) : Simulation := (s.move? m).getD s

def setBehaviour (k : CallKind) (b : Behaviour) : Simulation := { s with behaviours := (k, b) :: s.behaviours }

/-- The server drops its end of the newest stream. -/
def endNewest : Simulation :=
  match s.newest with
  | none => s
  | some i => { s.move (.finish i) with newest := none }

/-- A stream that opens takes the place of the newest one; a close ends it. -/
def give (a : DueAnswer) : Simulation :=
  match s.move? (.answer a.call a.failure) with
  | none => s
  | some s' =>
    match a.request, a.failure with
    | .subscribe _, none => { s'.endNewest with newest := some s.session.streams.length }
    | .close, _ => s'.endNewest
    | _, _ => s'

/-- Gives the answers that are due. -/
def deliver : Simulation :=
  let (now, later) := s.due.partition fun a => a.at_ ≤ s.session.now
  now.foldl give { s with due := later }

/-- The moves of a task, those that stop it first. -/
def Task.moves : Task → List Session.Move
  | watcher => [.watchStart, .watchStop, .watchResume, .watchBroken, .watchChange]
  | runner e => [.stopRunner e, .restore e, .openStream e, .opened e, .openTimeout e, .take e]
  | heart e => [.stopHeart e, .beatAnswered e, .beatTimeout e, .beat e]
  | write w => [.proceed w]
  | closer => [.drained, .unregistered, .graceOver, .released]

def tasks : List Task :=
  let running := s.session.epochs.filter fun e => !e.atRest
  [.watcher] ++ running.map (.runner ·.id) ++ running.map (.heart ·.id) ++
    s.session.writings.map (.write ·.id) ++ [.closer]

/-- One move of a task, if it can move now. -/
def act? (t : Task) : Option Simulation :=
  let s := s.deliver
  t.moves.findSome? s.move?

def holds (r : Reference) : Bool :=
  match r with
  | .client | .handle _ => true
  | .task w awaited =>
    match s.session.writing? w with
    | none => false
    | some writing =>
      match writing.progress with
      | .done (.ok _) => awaited
      | .done (.error _) => false
      | .sending _ | .undoing _ => true

/-- The client goes away with the last reference to it. -/
def unreferenced : Bool := !s.session.cancelled && !s.references.any s.holds

/-- The tasks that can move now, those that wait in line left out. -/
def woken (line : List Task) : List Task :=
  let s := s.deliver
  s.tasks.filter fun t => !line.contains t && (s.act? t).isSome

/-- Tasks run in the order in which they were woken, each until it is blocked, up to a number of moves. -/
def settleWithin : Nat → List Task → Simulation → Simulation
  | 0, _, s => s
  | fuel + 1, [], s =>
    let s := s.deliver
    let line := s.woken []
    if !line.isEmpty then settleWithin fuel line s
    else if s.unreferenced then settleWithin fuel [] (s.move .drop)
    else s
  | fuel + 1, t :: rest, s =>
    match s.act? t with
    | some s => settleWithin fuel (t :: rest ++ s.woken (t :: rest)) s
    | none => settleWithin fuel rest s

/-- More moves than any simulation is waited for. -/
def patience : Nat := 1000000000

/-- Lets every task run until none can without the clock moving. -/
def settle : Simulation := settleWithin patience [] s

def Epoch.timers (e : Session.Epoch) : List Nat :=
  (match e.runner with
    | .opening _ deadline => [deadline]
    | _ => []) ++
  match e.heart with
  | .waiting due => [due]
  | .sending _ deadline _ => [deadline]
  | _ => []

/-- When something is due after now. -/
def nextTimer? : Option Nat :=
  let watcher := match s.session.watcher with
    | .pausing due => [due]
    | _ => []
  let closer := match s.session.closer with
    | .unregistering _ deadline => [deadline]
    | _ => []
  let all := watcher ++ closer ++ s.due.map (·.at_) ++ s.session.epochs.flatMap Epoch.timers
  (all.filter (s.session.now < ·)).min?

/-- Runs until something holds, or up to a time, or until nothing is due any more. -/
def waitWithin (limit : Option Nat) (finished : Session → Bool) : Nat → Simulation → Simulation
  | 0, s => s
  | fuel + 1, s =>
    let s := s.settle
    if finished s.session ∨ limit = some s.session.now then s
    else
      match (s.nextTimer?.toList ++ limit.toList).min? with
      | none => s
      | some t => waitWithin limit finished fuel (s.move (.elapse (t - s.session.now)))

def waitFor (finished : Session → Bool) : Simulation := waitWithin none finished patience s

def advance (ms : Nat) : Simulation := waitWithin (some (s.session.now + ms)) (fun _ => false) patience s

/-- Whether the newest stream took an item. -/
def push (item : Item) : Simulation × Bool :=
  match s.newest.bind fun i => s.move? (.push i item) with
  | some s => (s, true)
  | none => (s, false)

/-- The newest stream has both of its ends. -/
def hasStream : Bool := (s.newest.bind fun i => s.session.streams[i]?).any (·.reading)

end Simulation

end Roster
