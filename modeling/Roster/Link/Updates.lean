import Roster.Transport
import Roster.Wire.Message

/-! The updates in what a server streams. -/
namespace Roster

/-- A message is an update if it has an id and a known kind. Whether an update carries its member is left to the
registry. -/
def Update.ofMessage (m : Wire.UpdateMessage) : Except UpdateFault Update :=
  let update := fun kind => Except.ok ⟨m.id, kind, m.member.map (·.member), m.version⟩
  if m.id.isEmpty then .error .missingId
  else if m.kind = 1 then update .register
  else if m.kind = 2 then update .unregister
  else if m.kind = 3 then update .metadata
  else .error (.unknownKind m.id m.kind)

def Item.ofMessage (m : Wire.UpdateMessage) : Item :=
  match Update.ofMessage m with
  | .ok u => .update u
  | .error f => .failure (.update f)

namespace Link

/-- How a server ends a stream, or that it stays open. -/
inductive Ending
  | finished
  | failed (s : Status)
  | stays
  deriving DecidableEq

/-- What is left of a stream: frames, then its end. -/
structure Updates where
  frames : List Wire.Bytes
  ending : Ending
  /-- The terminating item was produced. -/
  terminated : Bool := false
  deriving DecidableEq

def terminal (reason : String) : Item := .failure (.streamTerminated reason)

/-- The next item, and whether it is the terminating one. -/
def Updates.next? (s : Updates) : Option (Item × Updates) :=
  let last := fun reason => some (terminal reason, { s with frames := [], terminated := true })
  if s.terminated then none
  else
    match s.frames with
    | bytes :: rest =>
      match Wire.UpdateMessage.decode? bytes with
      | some m => some (Item.ofMessage m, { s with frames := rest })
      | none => last "failed to decode Protobuf message"
    | [] =>
      match s.ending with
      | .finished => last "closed by registry"
      | .failed status => last status.message
      | .stays => none

end Link

end Roster
