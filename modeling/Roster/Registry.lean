import Std.Data.ExtTreeSet
import Roster.Failure

/-! The local replica of the cluster: members owned by this client, members learned from the registry's stream, and
subscribers. This file says what each operation does to the data and whose callbacks it makes due; `Registry.Stage`
runs the callbacks. -/
namespace Roster

/-- A stored member. Only members learned from the stream carry a version. -/
structure Entry where
  member : Member
  version : Option Version
  deriving DecidableEq

structure Subscriber where
  id : Nat
  filter : Option Filter
  deriving DecidableEq

structure Registry where
  entries : Keyed Entry := ∅
  /-- Ids of the members owned by this client. -/
  localIds : Std.ExtTreeSet String := ∅
  subscribers : Std.ExtTreeMap Nat Subscriber := ∅
  /-- The last id given to a subscriber. -/
  lastSubscriber : Nat := 0
  /-- Subscribers whose callback never begins again. -/
  silenced : Std.ExtTreeSet Nat := ∅
  closed : Bool := false

namespace Registry

/-! Views -/

/-- In the order of their ids. -/
def members (r : Registry) (filter : Option Filter) : List Member :=
  Filter.select filter (r.entries.toList.map fun e => e.2.member)

def member? (r : Registry) (id : String) : Option Member := r.entries[id]?.map (·.member)

def isLocal (r : Registry) (id : String) : Bool := r.localIds.contains id

def localMembers (r : Registry) : List Member := r.localIds.toList.filterMap r.member?

/-- Versions of the remote members, for the registry to send only what changed. -/
def knownVersions (r : Registry) : Keyed Version :=
  r.entries.filterMap fun id e => if r.isLocal id then none else e.version

/-- The subscribers a change is announced to. -/
def audience (r : Registry) : List Subscriber := r.subscribers.toList.map (·.2)

/-! Operations -/

/-- What an operation returns to its caller. -/
inductive Reply
  | nothing
  | flag (b : Bool)
  | applied (fault : Option UpdateFault)
  /-- The subscriber made, if the registry was open. -/
  | handle (subscriber : Option Nat)
  deriving DecidableEq

/-- The registry after an operation, its reply, and the subscribers whose callback it makes due. -/
structure Effect where
  registry : Registry
  reply : Reply
  due : List Subscriber

/-- An operation that changed what is stored: everyone subscribed hears of it. -/
def changed (r : Registry) (reply : Reply) : Effect := ⟨r, reply, r.audience⟩

def unchanged (r : Registry) (reply : Reply) : Effect := ⟨r, reply, []⟩

def registerLocal (r : Registry) (m : Member) : Effect :=
  if r.closed then r.unchanged .nothing
  else
    { r with localIds := r.localIds.insert m.id, entries := r.entries.insert m.id ⟨m, none⟩ }.changed .nothing

def unregisterLocal (r : Registry) (id : String) : Effect :=
  if r.isLocal id then
    { r with localIds := r.localIds.erase id, entries := r.entries.erase id }.changed (.flag true)
  else r.unchanged (.flag false)

def updateLocal (r : Registry) (id : String) (delta : Keyed String) : Effect :=
  if r.isLocal id then
    match r.entries[id]? with
    | some e =>
      { r with entries := r.entries.insert id { e with member := e.member.mergeMetadata delta } }.changed (.flag true)
    | none => r.unchanged (.flag false)
  else r.unchanged (.flag false)

/-- Updates about members owned by this client are ignored; a malformed one changes nothing. -/
def applyRemote (r : Registry) (u : Update) : Effect :=
  if u.id = "" then r.unchanged (.applied (some .missingId))
  else if r.closed || r.isLocal u.id then r.unchanged (.applied none)
  else
    match u.kind, u.member with
    | .unregister, _ =>
      if u.id ∈ r.entries then { r with entries := r.entries.erase u.id }.changed (.applied none)
      else r.unchanged (.applied none)
    | kind, none => r.unchanged (.applied (some (.missingMember u.id kind)))
    | _, some m =>
      { r with entries := r.entries.insert u.id ⟨{ m with id := u.id }, u.version⟩ }.changed (.applied none)

/-- Only the new subscriber's callback is due. -/
def subscribe (r : Registry) (filter : Option Filter) : Effect :=
  if r.closed then r.unchanged (.handle none)
  else
    let s : Subscriber := ⟨r.lastSubscriber + 1, filter⟩
    ⟨{ r with lastSubscriber := s.id, subscribers := r.subscribers.insert s.id s }, .handle (some s.id), [s]⟩

def unsubscribe (r : Registry) (subscriber : Nat) : Effect :=
  { r with
    subscribers := r.subscribers.erase subscriber
    silenced := r.silenced.insert subscriber }.unchanged .nothing

/-- Forgets every member and subscriber, for good. -/
def close (r : Registry) : Effect :=
  { r with
    closed := true
    entries := ∅
    localIds := ∅
    subscribers := ∅
    silenced := r.subscribers.keys.foldl (·.insert ·) r.silenced }.unchanged .nothing

inductive Op
  | registerLocal (m : Member)
  | unregisterLocal (id : String)
  | updateLocal (id : String) (delta : Keyed String)
  | applyRemote (u : Update)
  | subscribe (filter : Option Filter)
  | unsubscribe (subscriber : Nat)
  | close
  deriving DecidableEq

def perform (r : Registry) : Op → Effect
  | .registerLocal m => r.registerLocal m
  | .unregisterLocal id => r.unregisterLocal id
  | .updateLocal id delta => r.updateLocal id delta
  | .applyRemote u => r.applyRemote u
  | .subscribe f => r.subscribe f
  | .unsubscribe s => r.unsubscribe s
  | .close => r.close

/-- Callbacks that only listen: each one due receives what its filter selects. -/
def Effect.deliveries (e : Effect) : List (Nat × List Member) :=
  e.due.map fun s => (s.id, e.registry.members s.filter)

end Registry

end Roster
