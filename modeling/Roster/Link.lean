import Roster.Connectivity
import Roster.Link.Address
import Roster.Link.Updates
import Roster.Probe

/-! The link of a client to one registry node, and how its connectivity moves with what is observed on it. -/
namespace Roster

structure Link where
  clientId : String
  settings : Settings
  connectivity : Connectivity := .ready
  probe : Probe := {}
  /-- The probe was told to stop. -/
  cancelled : Bool := false
  deriving DecidableEq

/-- Only a ready connection is lost. -/
def Connectivity.lost : Connectivity → Connectivity
  | ready => disconnected
  | c => c

/-- Any connection but a closed one is restored. -/
def Connectivity.restored : Connectivity → Connectivity
  | closed => closed
  | _ => ready

namespace Link

inductive Move
  /-- A check of the probe completes. -/
  | probed (passed : Bool)
  /-- A call is answered, with a status if it failed. -/
  | answered (status : Option Status)
  /-- A stream produces its terminating item. -/
  | terminated
  | close
  /-- The probe stops on being told to. -/
  | stopped
  | closed
  deriving DecidableEq

def markLost (l : Link) : Link := { l with connectivity := l.connectivity.lost }

/-- A refusal is a decision of the registry, so the connection works. -/
def answered (l : Link) : Option Status → Link
  | some s => if (Failure.ofStatus s).isRejection then l else l.markLost
  | none => l

def probed (l : Link) (passed : Bool) : Link :=
  { l with
    probe := l.probe.checked l.settings.reconnect passed
    connectivity := if passed then l.connectivity.restored else l.connectivity.lost }

/-- What a move makes of a link, if it is possible. The link is closed only after the probe has stopped. -/
def step (l : Link) : Move → Option Link
  | .probed passed => if l.probe.running then some (l.probed passed) else none
  | .answered status => some (l.answered status)
  | .terminated => some l.markLost
  | .close => some { l with cancelled := true }
  | .stopped =>
    if l.cancelled ∧ l.probe.running then some { l with probe := { l.probe with running := false } } else none
  | .closed => if l.cancelled ∧ !l.probe.running then some { l with connectivity := .closed } else none

def run (l : Link) (moves : List Move) : Option Link := moves.foldlM step l

/-- The next item of a stream over a link. With the terminating one the link is lost. -/
def take? (l : Link) (s : Updates) : Option (Item × Link × Updates) :=
  s.next?.map fun (i, s) => (i, if s.terminated then l.markLost else l, s)

def takeWithin : Nat → Link → Updates → List Item × Link × Updates
  | 0, l, s => ([], l, s)
  | fuel + 1, l, s =>
    match l.take? s with
    | none => ([], l, s)
    | some (i, l, s) =>
      let (is, l, s) := takeWithin fuel l s
      (i :: is, l, s)

/-- All items there are: one per frame and one more at the end. -/
def takeAll (l : Link) (s : Updates) : List Item × Link × Updates := takeWithin (s.frames.length + 1) l s

/-- Opens a link to an address where a server is reached. -/
def connect (reached : String → Bool) (addr clientId : String) (settings : Settings) : Except Failure Link :=
  let uri := Address.uri addr
  if !Address.isUri uri then .error (.invalidUri addr)
  else if !reached uri then .error .channel
  else .ok { clientId, settings }

end Link

/-- A request as it is sent by a client. Closing sends nothing. -/
def Request.message (clientId : String) : Request → Option Wire.Message
  | register m => some (.register (some ⟨clientId, m⟩))
  | unregister id => some (.unregister clientId id)
  | updateMetadata id delta => some (.updateMetadata clientId id delta)
  | subscribe known => some (.subscribe clientId known)
  | heartbeat => some (.heartbeat clientId)
  | close => none

/-- The client and its request, as the registry reads them from a message. -/
def Request.ofMessage : Wire.Message → Option (String × Request)
  | .register member => member.map fun r => (r.clientId, register r.member)
  | .unregister clientId id => some (clientId, unregister id)
  | .updateMetadata clientId id metadata => some (clientId, updateMetadata id metadata)
  | .subscribe clientId known => some (clientId, subscribe known)
  | .heartbeat clientId => some (clientId, heartbeat)

theorem Request.ofMessage_message (clientId : String) (r : Request) (m : Wire.Message)
    (h : r.message clientId = some m) : Request.ofMessage m = some (clientId, r) := by
  cases r <;> simp_all [message] <;> subst h <;> rfl

end Roster
