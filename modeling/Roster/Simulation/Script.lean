import Roster.Simulation

/-! Scripted use of a client over a simulated transport: member handles, named subscriptions and background tasks. -/
namespace Roster.Simulation

namespace Script

inductive Step
  | advance (ms : Nat)
  | server (kind : CallKind) (behaviour : Behaviour)
  | connectivity (c : Connectivity)
  | push (item : Item)
  /-- The items arrive before any task runs. -/
  | pushAll (items : List Item)
  | endStream
  | hasStream
  | register (m : Member)
  | updateMetadata (id : String) (delta : Keyed String)
  | unregister (id : String)
  | spawnRegister (name : String) (m : Member)
  | spawnClose (name : String)
  | join (name : String)
  | members (filter : Option Filter)
  | member (id : String)
  | localMembers
  | knownVersions
  | subscriberCount
  | watchState
  | subscribe (name : String) (filter : Option Filter)
  | unsubscribe (name : String)
  | close
  /-- Drops the client and its member handles without closing. -/
  | drop

inductive Result
  | nothing
  | flag (b : Bool)
  | flags (bs : List Bool)
  | wrote (r : Except Failure Unit)
  | registered (r : Except Failure String)
  | members (ms : List Member)
  | member (m : Option Member)
  | versions (vs : Keyed Version)
  | count (n : Nat)
  | state (c : Connectivity)
  | handle (subscriber : Option Nat)
  | unsubscribed
  | closed
  | noClient
  | noHandle
  | noTask

/-- A task of the application in the background. -/
inductive Background
  | registering (write : Nat)
  | closing

/-- A subscriber's callback and how often it was invoked. -/
structure Listener where
  label : String
  calls : Nat := 0

structure Invocation where
  label : String
  call : Nat
  members : List Member

structure World where
  simulation : Simulation
  /-- Used where a step gives no filter. -/
  filter : Option Filter := none
  background : Keyed Background := ∅
  subscriptions : Keyed (Option Nat) := ∅
  /-- Subscribe steps so far. -/
  subscribes : Nat := 0
  listeners : List (Nat × Listener) := []
  /-- The part of the history already reported. -/
  reported : Nat := 0

/-- What is seen of a step: its result, the time and the state after it, and what happened since the last report. -/
structure Report where
  result : Result
  t : Nat
  /-- Shown as long as there is a client. -/
  state : Option Connectivity
  calls : List (Nat × Request)
  states : List Connectivity
  invocations : List Invocation

namespace World

variable (w : World)

def session : Session := w.simulation.session

def move (m : Session.Move) : World := { w with simulation := w.simulation.move m }

def refers (r : Reference) : Bool := w.simulation.references.contains r

def refer (r : Reference) : World :=
  { w with simulation := { w.simulation with references := r :: w.simulation.references.erase r } }

def release (gone : Reference → Bool) : World :=
  { w with simulation := { w.simulation with references := w.simulation.references.filter (!gone ·) } }

def waitFor (finished : Session → Bool) : World := { w with simulation := w.simulation.waitFor finished }

def written? (s : Session) (id : Nat) : Option (Except Failure Unit) :=
  (s.writing? id).bind fun w =>
    match w.progress with
    | .done r => some r
    | .sending _ | .undoing _ => none

def awaitWrite (id : Nat) : World × Except Failure Unit :=
  let w := w.waitFor fun s => (written? s id).isSome
  (w, (written? w.session id).getD (.error .closed))

def write (x : Session.Write) : World × Except Failure Unit :=
  let id := w.session.writings.length
  (w.move (.write x)).awaitWrite id

/-- A registration that succeeded gives a handle of the member. -/
def registered (id : String) (r : Except Failure Unit) : World × Result :=
  match r with
  | .ok _ => (w.refer (.handle id), .registered (.ok id))
  | .error f => (w, .registered (.error f))

def withClient (f : World → World × Result) : World × Result :=
  if w.refers .client then f w else (w, .noClient)

def withHandle (id : String) (x : Session.Write) : World × Result :=
  if w.refers (.handle id) then
    let (w, r) := w.write x
    (w, .wrote r)
  else (w, .noHandle)

def push (item : Item) : World × Bool :=
  let (simulation, took) := w.simulation.push item
  ({ w with simulation }, took)

def spawn (name : String) (b : Background) : World :=
  let w := match w.background[name]? with
    | some (.registering id) => (w.release (· = Reference.task id true)).refer (.task id false)
    | _ => w
  { w with background := w.background.insert name b }

def join (name : String) : World × Result :=
  match w.background[name]? with
  | none => (w, .noTask)
  | some b =>
    let w := { w with background := w.background.erase name }
    match b with
    | .closing => (w.waitFor (·.closer = .finished), .closed)
    | .registering id =>
      let (w, r) := w.awaitWrite id
      let member := match (w.session.writing? id).map (·.write) with
        | some (.register m) => m.id
        | _ => ""
      let (w, result) := w.registered member r
      (w.release (· = Reference.task id true), result)

/-- The first close waits for the shutdown, a later one does not. -/
def close : World :=
  if w.session.closing then w.move .close
  else (w.move .close).waitFor (·.closer = .finished)

def step (w : World) : Step → World × Result
  | .advance ms => ({ w with simulation := w.simulation.advance ms }, .nothing)
  | .server k b => ({ w with simulation := w.simulation.setBehaviour k b }, .nothing)
  | .connectivity c => (w.move (.report c), .nothing)
  | .push item =>
    let (w, took) := w.push item
    (w, .flag took)
  | .pushAll items =>
    let (w, took) := items.foldl (fun (w, took) item =>
      let (w, t) := World.push w item
      (w, t :: took)) (w, [])
    (w, .flags took.reverse)
  | .endStream => ({ w with simulation := w.simulation.endNewest }, .flag w.simulation.newest.isSome)
  | .hasStream => (w, .flag w.simulation.hasStream)
  | .register m => w.withClient fun w =>
    let (w, r) := w.write (.register m)
    w.registered m.id r
  | .updateMetadata id delta => w.withHandle id (.updateMetadata id delta)
  | .unregister id => w.withHandle id (.unregister id)
  | .spawnRegister name m => w.withClient fun w =>
    let id := w.session.writings.length
    (((w.move (.write (.register m))).spawn name (.registering id)).refer (.task id true), .nothing)
  | .spawnClose name => w.withClient fun w => ((w.move .close).spawn name .closing, .nothing)
  | .join name => w.join name
  | .members f => w.withClient fun w => (w, .members (w.session.registry.members (f <|> w.filter)))
  | .member id => w.withClient fun w => (w, .member (w.session.registry.member? id))
  | .localMembers => w.withClient fun w => (w, .members w.session.registry.localMembers)
  | .knownVersions => w.withClient fun w => (w, .versions w.session.registry.knownVersions)
  | .subscriberCount => w.withClient fun w => (w, .count w.session.registry.subscribers.size)
  | .watchState => w.withClient fun w => (w, .state w.session.published)
  | .subscribe name f => w.withClient fun w =>
    let filter := f <|> w.filter
    let n := w.subscribes + 1
    let e := w.session.registry.perform (.subscribe filter)
    let subscriber := match e.reply with
      | .handle s => s
      | _ => none
    let w := w.move (.subscribe filter)
    ({ w with
        subscribes := n
        subscriptions := w.subscriptions.insert name subscriber
        listeners := (subscriber.map fun s => (s, (⟨name ++ s!"#{n}", 0⟩ : Listener))).toList ++ w.listeners },
      .handle subscriber)
  | .unsubscribe name =>
    match w.subscriptions[name]? with
    | none => (w, .noHandle)
    | some subscriber =>
      let w := { w with subscriptions := w.subscriptions.erase name }
      ((subscriber.elim w fun s => w.move (.unsubscribe s)), .unsubscribed)
  | .close => w.withClient fun w => (w.close, .nothing)
  | .drop =>
    let held := w.refers .client
    (w.release fun r =>
      match r with
      | .client | .handle _ => true
      | .task .. => false, .flag held)

/-- Adds what an event shows to the report. -/
def see (e : Nat × Session.Event) (w : World) (r : Report) : World × Report :=
  match e with
  | (t, .called _ _ request) => (w, { r with calls := r.calls ++ [(t, request)] })
  | (_, .state c) => (w, { r with states := r.states ++ [c] })
  | (_, .notified n members) =>
    match w.listeners.lookup n with
    | none => (w, r)
    | some l =>
      let l := { l with calls := l.calls + 1 }
      ({ w with listeners := (n, l) :: w.listeners },
        { r with invocations := r.invocations ++ [⟨l.label, l.calls, members⟩] })
  | _ => (w, r)

def report (result : Result) : World × Report :=
  let s := w.session
  let fresh := (s.history.take (s.history.length - w.reported)).reverse
  let shown := if w.refers .client then some s.published else none
  let start : World × Report :=
    ({ w with reported := s.history.length }, ⟨result, s.now, shown, [], [], []⟩)
  fresh.foldl (fun (w, r) e => World.see e w r) start

/-- A step, then every task runs as far as it can. -/
def play (x : Step) : World × Report :=
  let (w, result) := w.step x
  { w with simulation := w.simulation.settle }.report result

def plays (steps : List Step) : World × List Report :=
  let (w, reports) := steps.foldl (fun (w, reports) x =>
    let (w, r) := World.play w x
    (w, r :: reports)) (w, [])
  (w, reports.reverse)

end World

/-- How connecting went, and what is seen right after it. -/
structure Opening where
  connection : Connection
  report : Report

/-- A client is built, connected over the simulated transport, and used. Without a client the steps run all the same. -/
def run (b : Builder) (order : List String) (outcome : Nat → String → Attempt) (connectivity : Connectivity)
    (steps : List Step) : Opening × List Report :=
  let connection := b.settings.connect order outcome connectivity
  let world : World := match connection.result with
    | .ok (_, session) => { simulation := { session, references := [.client] }, filter := b.filter }
    | .error _ =>
      let session : Session := .start b.settings .closed connection.elapsedMs
      { simulation := { session := { session with watcher := .stopped } }, filter := b.filter }
  let (world, report) := World.report { world with simulation := world.simulation.settle } .nothing
  let report := { report with states := connection.states ++ report.states }
  (⟨connection, report⟩, (world.plays steps).2)

end Script

end Roster.Simulation
