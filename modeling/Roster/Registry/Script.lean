import Roster.Registry.Program

/-! Scripted use of registries: named handles, and callbacks that follow a script of their own. Fan-outs reach their
subscribers in the order of their ids. -/
namespace Roster.Registry

namespace Script

inductive Step
  | op (op : Op)
  | members (filter : Option Filter)
  | member (id : String)
  | localMembers
  | isLocal (id : String)
  | knownVersions
  | subscriberCount
  /-- Changes copies of all members and returns them. -/
  | mutateCopies
  /-- `reactions` lists what the callback does in its n-th invocation. -/
  | subscribe (name : String) (filter : Option Filter) (reactions : List (Nat × List Step))
  | unsubscribe (name : String)
  | dropHandle (name : String)
  | newRegistry

inductive Result
  | reply (r : Reply)
  | members (ms : List Member)
  | member (m : Option Member)
  | flag (b : Bool)
  | versions (vs : Keyed Version)
  | count (n : Nat)
  | unsubscribed
  | noHandle

/-- A callback invocation; `nested` holds the results of its script. -/
structure Invocation where
  label : String
  call : Nat
  members : List Member
  nested : Option (List Result)

/-- A subscriber's callback and how often it began. -/
structure Listener where
  label : String
  calls : Nat
  reactions : List (Nat × List Step)

structure World where
  program : Program := { stage := { registries := [{}] } }
  /-- The registry operations act on. -/
  current : Nat := 0
  /-- Positions of the handles that have a name. -/
  handles : Keyed Nat := ∅
  listeners : List ((Nat × Nat) × Listener) := []
  /-- Subscribe steps so far. -/
  subscribes : Nat := 0
  log : Array Invocation := #[]

namespace World

def registry (w : World) : Registry := w.program.stage.registries.getD w.current {}

/-- An act that is not possible leaves everything as it is. -/
def perform (w : World) (a : Act) : World := { w with program := (w.program.step a).getD w.program }

def move (w : World) (m : Move) : World := w.perform (.move m)

/-- The callback that began last, with the members it received. -/
def beganLast? (w : World) : Option ((Nat × Nat) × List Member) :=
  match w.program.stage.history with
  | .began i id _ ms :: _ => some ((i, id), ms)
  | _ => none

/-- Counts the invocation and tells its number and script. -/
def enter (w : World) (key : Nat × Nat) (ms : List Member) : World × Option (List Step) :=
  match w.listeners.lookup key with
  | none => (w, none)
  | some l =>
    let call := l.calls + 1
    ({ w with
        listeners := (key, { l with calls := call }) :: w.listeners
        log := w.log.push ⟨l.label, call, ms, none⟩ },
      l.reactions.lookup call)

/-- Runs the fan-out in progress; `invoke` runs the script of a callback. -/
def fanOut (invoke : List Step → World → World × List Result) (due : List Subscriber) (w : World) : World :=
  due.foldl (fun w s =>
    let w := w.move (.reach s.id)
    match w.beganLast? with
    | none => w
    | some (key, ms) =>
      let place := w.log.size
      let (w, script) := w.enter key ms
      let w := match script with
        | none => w
        | some steps =>
          let (w, results) := invoke steps w
          { w with log := w.log.modify place fun i => { i with nested := some results } }
      w.move .leave) w

/-- Gives up the handle of a name. -/
def forget (w : World) (name : String) (how : Nat → Act) : World :=
  match w.handles[name]? with
  | none => w
  | some h => { w with handles := w.handles.erase name }.perform (how h)

/-- Performs an operation on a registry and lets its fan-out run. -/
def act (invoke : List Step → World → World × List Result) (w : World) (i : Nat) (op : Op)
    (before : Effect → World → World) : World × Reply :=
  let e := (w.program.stage.registries.getD i {}).perform op
  let w := before e (w.move (.perform i op))
  (w.fanOut invoke e.due, e.reply)

def mutated (m : Member) : Member :=
  { m.mergeMetadata ((∅ : Keyed String).insert "mutated" "yes") with service := m.service ++ "!" }

def step (invoke : List Step → World → World × List Result) (w : World) : Step → World × Result
  | .op op =>
    let (w, reply) := w.act invoke w.current op fun _ w => w
    (w, .reply reply)
  | .members f => (w, .members (w.registry.members f))
  | .member id => (w, .member (w.registry.member? id))
  | .localMembers => (w, .members w.registry.localMembers)
  | .isLocal id => (w, .flag (w.registry.isLocal id))
  | .knownVersions => (w, .versions w.registry.knownVersions)
  | .subscriberCount => (w, .count w.registry.subscribers.size)
  | .mutateCopies => (w, .members ((w.registry.members none).map mutated))
  | .subscribe name filter reactions =>
    let i := w.current
    let n := w.subscribes + 1
    let w := { w with subscribes := n }
    let label := name ++ s!"#{n}"
    let handle := w.program.handles.length
    let (w, reply) := w.act invoke i (.subscribe filter) fun e w =>
      { w with listeners := (e.due.map fun s => ((i, s.id), ⟨label, 0, reactions⟩)) ++ w.listeners }
    let w := w.forget name .drop
    ({ w with handles := w.handles.insert name handle }, .reply reply)
  | .unsubscribe name => (w.forget name .unsubscribe, if w.handles.contains name then .unsubscribed else .noHandle)
  | .dropHandle name => (w.forget name .drop, .flag (w.handles.contains name))
  | .newRegistry =>
    let founded := { w.move .found with current := w.program.stage.registries.length }
    (founded.perform (.release w.current), .reply .nothing)

/-- Runs steps in order, callbacks nesting at most `depth` deep. -/
def runSteps : Nat → List Step → World → World × List Result
  | 0, _, w => (w, [])
  | depth + 1, steps, w =>
    let (w, results) := steps.foldl (fun (w, results) s =>
      let (w, r) := w.step (runSteps depth) s
      (w, r :: results)) (w, [])
    (w, results.reverse)

end World

mutual

/-- The callback scripts within a step. -/
def Step.scripts : Step → Nat
  | .subscribe _ _ reactions => scriptsOfReactions reactions
  | _ => 0

def scriptsOfReactions : List (Nat × List Step) → Nat
  | [] => 0
  | (_, steps) :: rest => 1 + scriptsOf steps + scriptsOfReactions rest

def scriptsOf : List Step → Nat
  | [] => 0
  | s :: rest => s.scripts + scriptsOf rest

end

/-- What one step at the outside shows: its result, the invocations during it, and the registry after it. -/
structure Report where
  result : Result
  invocations : List Invocation
  registry : Registry

/-- Every script runs at most once, so no nesting is deeper than there are scripts. -/
def reports (steps : List Step) : List Report :=
  let depth := scriptsOf steps
  let (_, reports) := steps.foldl (fun ((w : World), reports) s =>
    let (w, r) := World.step (World.runSteps depth) { w with log := #[] } s
    (w, ⟨r, w.log.toList, w.registry⟩ :: reports)) ({}, [])
  reports.reverse

end Script

end Roster.Registry
