import Roster.Glob
import Roster.Member

/-! Member filters on three levels: service, locality, metadata. -/
namespace Roster

/-- Patterns listed for each required metadata key. -/
abbrev MetadataFilter := Keyed (List String)

namespace MetadataFilter

/-- Patterns for a key already present are added to it. -/
def add (f : MetadataFilter) (key : String) (patterns : List String) : MetadataFilter :=
  f.insert key (f.getD key [] ++ patterns)

/-- Every key must be present with a value that one of its patterns accepts. -/
def accepts (f : MetadataFilter) (m : Member) : Bool :=
  f.all fun key patterns =>
    match m.metadata[key]? with
    | some value => patterns.any (Glob.matchesText · value)
    | none => false

end MetadataFilter

structure ServiceFilter where
  /-- Absent and empty both accept every locality. -/
  locality : Option (List String) := none
  metadata : MetadataFilter := ∅
  deriving DecidableEq, Repr

namespace ServiceFilter

def withLocality (f : ServiceFilter) (patterns : List String) : ServiceFilter :=
  { f with locality := some (f.locality.getD [] ++ patterns) }

def withMetadata (f : ServiceFilter) (key : String) (patterns : List String) : ServiceFilter :=
  { f with metadata := f.metadata.add key patterns }

def acceptsLocality (f : ServiceFilter) (locality : String) : Bool :=
  match f.locality with
  | none => true
  | some patterns => patterns.isEmpty || patterns.any (Glob.matchesText · locality)

def accepts (f : ServiceFilter) (m : Member) : Bool :=
  f.acceptsLocality m.locality && f.metadata.accepts m

end ServiceFilter

/-- Requirements for each service pattern. -/
abbrev Filter := Keyed ServiceFilter

namespace Filter

def withService (f : Filter) (service : String) (requirements : ServiceFilter) : Filter :=
  f.insert service requirements

/-- Also tells which requirements the new ones replace. -/
def replace (f : Filter) (service : String) (requirements : ServiceFilter) :
    Option ServiceFilter × Filter :=
  (f[service]?, f.insert service requirements)

/-- A map as it stands. -/
def ofMap (entries : Keyed ServiceFilter) : Filter := entries

/-- Later pairs win. -/
def ofPairs (pairs : List (String × ServiceFilter)) : Filter :=
  Std.ExtTreeMap.ofList pairs compare

/-- Some pattern fits the service, and every entry whose pattern fits accepts the member. -/
def accepts (f : Filter) (m : Member) : Bool :=
  let fitting := f.toList.filter fun e => Glob.matchesText e.1 m.service
  !fitting.isEmpty && fitting.all fun e => e.2.accepts m

/-- The members a filter lets through; without one, all. -/
def select (f : Option Filter) (ms : List Member) : List Member :=
  ms.filter fun m => f.all (·.accepts m)

end Filter

end Roster
