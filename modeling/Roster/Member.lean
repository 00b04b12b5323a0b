import Std.Data.ExtTreeMap

/-! Members of the cluster and the changes streamed about them. -/
namespace Roster

/-- Finite maps from text, compared by their look-ups. -/
abbrev Keyed (β : Type) := Std.ExtTreeMap String β

structure Member where
  id : String
  service : String
  locality : String
  /-- Milliseconds since the UNIX epoch. -/
  started : Int64
  revision : String
  metadata : Keyed String
  deriving DecidableEq, Repr

namespace Member

def new (id service : String) : Member := ⟨id, service, "", 0, "", ∅⟩

/-- Entries of `delta` win, other keys stay. -/
def mergeMetadata (m : Member) (delta : Keyed String) : Member :=
  { m with metadata := m.metadata ∪ delta }

theorem getElem?_mergeMetadata (m : Member) (delta : Keyed String) (k : String) :
    (m.mergeMetadata delta).metadata[k]? = delta[k]?.or m.metadata[k]? :=
  Std.ExtTreeMap.getElem?_union

end Member

/-- Attached by the owner of a member. Versions are never compared, only reported back. -/
structure Version where
  ownerId : String
  timestamp : UInt64
  deriving DecidableEq, Repr

inductive UpdateKind
  | register | unregister | metadata
  deriving DecidableEq, Repr

def UpdateKind.name : UpdateKind → String
  | register => "register"
  | unregister => "unregister"
  | metadata => "metadata"

/-- A change to a remote member. Register and metadata updates carry the whole member. -/
structure Update where
  id : String
  kind : UpdateKind
  member : Option Member
  version : Option Version
  deriving DecidableEq, Repr

namespace Update

def ofRegister (m : Member) (v : Version) : Update := ⟨m.id, .register, some m, some v⟩

def ofMetadata (m : Member) (v : Version) : Update := ⟨m.id, .metadata, some m, some v⟩

def ofUnregister (id : String) (v : Option Version) : Update := ⟨id, .unregister, none, v⟩

end Update

end Roster
