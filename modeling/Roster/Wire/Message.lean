import Roster.Member
import Roster.Wire.Field

/-! What is sent and received, as messages: fields of default value are left out, of a repeated field the last one
counts, repeated messages are merged, and unknown fields are passed over. -/
namespace Roster.Wire

/-- How deep messages and groups may nest. -/
def depthLimit : Nat := 100

/-! Parts -/

def textBytes (s : String) : Bytes := s.toUTF8.data.toList

def textField (number : Nat) (s : String) : List Field := if s.isEmpty then [] else [⟨number, .block (textBytes s)⟩]

def wordField (number n : Nat) : List Field := if n = 0 then [] else [⟨number, .varint n⟩]

def nested (number : Nat) (fs : List Field) : Field := ⟨number, .block (encodeFields fs)⟩

/-- A map is sent as one message per entry. -/
def mapFields {β : Type} (number : Nat) (value : β → List Field) (m : Keyed β) : List Field :=
  m.toList.map fun e => nested number (textField 1 e.1 ++ value e.2)

def Payload.text? : Payload → Option String
  | block bytes => String.fromUTF8? ⟨bytes.toArray⟩
  | _ => none

def Payload.word? : Payload → Option Nat
  | varint n => some n
  | _ => none

/-- Merges a message within a message. -/
def Payload.merge? {α : Type} (room : Nat) (merge : α → Field → Option α) (a : α) : Payload → Option α
  | block bytes => do (← fields? room bytes).foldlM merge a
  | _ => none

/-- Merges an entry into a map. A key or value that is left out is the default. -/
def mergePair? {β : Type} (room : Nat) (default : β) (value : β → Payload → Option β) (m : Keyed β) (p : Payload) :
    Option (Keyed β) := do
  let (key, v) ← p.merge? room (fun (e : String × β) f =>
    match f.number with
    | 1 => f.payload.text?.map fun k => (k, e.2)
    | 2 => (value e.2 f.payload).map fun v => (e.1, v)
    | _ => some e) ("", default)
  return m.insert key v

/-! Members and versions -/

/-- A member as it travels: with the client that registered it. -/
structure Registration where
  clientId : String := ""
  member : Member := .new "" ""
  deriving DecidableEq

namespace Registration

def fields (r : Registration) : List Field :=
  textField 1 r.member.id ++ textField 2 r.clientId ++ textField 3 r.member.service ++
    textField 4 r.member.locality ++ wordField 5 r.member.started.toUInt64.toNat ++
    textField 6 r.member.revision ++ mapFields 7 (textField 2) r.member.metadata

def merge (room : Nat) (r : Registration) (f : Field) : Option Registration :=
  let m := r.member
  match f.number with
  | 1 => f.payload.text?.map fun s => { r with member := { m with id := s } }
  | 2 => f.payload.text?.map fun s => { r with clientId := s }
  | 3 => f.payload.text?.map fun s => { r with member := { m with service := s } }
  | 4 => f.payload.text?.map fun s => { r with member := { m with locality := s } }
  | 5 => f.payload.word?.map fun n => { r with member := { m with started := (UInt64.ofNat n).toInt64 } }
  | 6 => f.payload.text?.map fun s => { r with member := { m with revision := s } }
  | 7 => (mergePair? (room - 1) "" (fun _ p => p.text?) m.metadata f.payload).map fun t =>
    { r with member := { m with metadata := t } }
  | _ => some r

end Registration

def noVersion : Version := ⟨"", 0⟩

def versionFields (v : Version) : List Field := textField 1 v.ownerId ++ wordField 2 v.timestamp.toNat

def mergeVersion (v : Version) (f : Field) : Option Version :=
  match f.number with
  | 1 => f.payload.text?.map fun s => { v with ownerId := s }
  | 2 => f.payload.word?.map fun n => { v with timestamp := UInt64.ofNat n }
  | _ => some v

/-- The value of an entry that is the default is left out. -/
def versionEntry (v : Version) : List Field := if v = noVersion then [] else [nested 2 (versionFields v)]

/-! Updates -/

structure UpdateMessage where
  id : String := ""
  kind : Int32 := 0
  member : Option Registration := none
  version : Option Version := none
  deriving DecidableEq

namespace UpdateMessage

def fields (u : UpdateMessage) : List Field :=
  textField 1 u.id ++ wordField 2 u.kind.toInt64.toUInt64.toNat ++
    (u.member.map fun r => nested 3 r.fields).toList ++ (u.version.map fun v => nested 4 (versionFields v)).toList

def encode (u : UpdateMessage) : Bytes := encodeFields u.fields

def merge (room : Nat) (u : UpdateMessage) (f : Field) : Option UpdateMessage :=
  match f.number with
  | 1 => f.payload.text?.map fun s => { u with id := s }
  | 2 => f.payload.word?.map fun n => { u with kind := (UInt32.ofNat n).toInt32 }
  | 3 => (f.payload.merge? (room - 1) (Registration.merge (room - 1)) (u.member.getD {})).map fun r =>
    { u with member := some r }
  | 4 => (f.payload.merge? (room - 1) mergeVersion (u.version.getD noVersion)).map fun v =>
    { u with version := some v }
  | _ => some u

def decode? (bs : Bytes) : Option UpdateMessage := do
  (← fields? depthLimit bs).foldlM (merge depthLimit) {}

end UpdateMessage

/-! Requests -/

inductive Method
  | register | unregister | updateMetadata | heartbeat | subscribe
  deriving DecidableEq, Repr

def Method.name : Method → String
  | register => "Register"
  | unregister => "Unregister"
  | updateMetadata => "UpdateMetadata"
  | heartbeat => "Heartbeat"
  | subscribe => "Subscribe"

inductive Message
  | register (member : Option Registration)
  | unregister (clientId id : String)
  | updateMetadata (clientId id : String) (metadata : Keyed String)
  | heartbeat (clientId : String)
  | subscribe (clientId : String) (known : Keyed Version)
  deriving DecidableEq

namespace Message

def method : Message → Method
  | register _ => .register
  | unregister .. => .unregister
  | updateMetadata .. => .updateMetadata
  | heartbeat _ => .heartbeat
  | subscribe .. => .subscribe

def fields : Message → List Field
  | register member => (member.map fun r => nested 1 r.fields).toList
  | unregister clientId id => textField 1 clientId ++ textField 2 id
  | updateMetadata clientId id metadata =>
    textField 1 clientId ++ textField 2 id ++ mapFields 3 (textField 2) metadata
  | heartbeat clientId => textField 1 clientId
  | subscribe clientId known => textField 1 clientId ++ mapFields 2 versionEntry known

def encode (m : Message) : Bytes := encodeFields m.fields

/-- The message of a method before any field is read. -/
def blank : Method → Message
  | .register => register none
  | .unregister => unregister "" ""
  | .updateMetadata => updateMetadata "" "" ∅
  | .heartbeat => heartbeat ""
  | .subscribe => subscribe "" ∅

def merge (room : Nat) (m : Message) (f : Field) : Option Message :=
  match m, f.number with
  | register member, 1 =>
    (f.payload.merge? (room - 1) (Registration.merge (room - 1)) (member.getD {})).map fun r => register (some r)
  | unregister _ id, 1 => f.payload.text?.map fun s => unregister s id
  | unregister clientId _, 2 => f.payload.text?.map fun s => unregister clientId s
  | updateMetadata _ id metadata, 1 => f.payload.text?.map fun s => updateMetadata s id metadata
  | updateMetadata clientId _ metadata, 2 => f.payload.text?.map fun s => updateMetadata clientId s metadata
  | updateMetadata clientId id metadata, 3 =>
    (mergePair? (room - 1) "" (fun _ p => p.text?) metadata f.payload).map (updateMetadata clientId id)
  | heartbeat _, 1 => f.payload.text?.map heartbeat
  | subscribe _ known, 1 => f.payload.text?.map fun s => subscribe s known
  | subscribe clientId known, 2 =>
    (mergePair? (room - 1) noVersion (fun v p => p.merge? (room - 2) mergeVersion v) known f.payload).map
      (subscribe clientId)
  | m, _ => some m

def decode? (method : Method) (bs : Bytes) : Option Message := do
  (← fields? depthLimit bs).foldlM (merge depthLimit) (blank method)

end Message

end Roster.Wire
