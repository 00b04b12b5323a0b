import Roster.Document
import Roster.Sources.Path
import Roster.Text.Lower

/-! Merging sources into one tree. Keys are taken in lower case, tables are merged key by key, and everything else
replaces what was there. -/
namespace Roster

namespace Document

def entries : Document → List (String × Document)
  | table es => es
  | _ => []

def items : Document → List Document
  | list ds => ds
  | _ => []

/-- Sets an entry in its place, or after all others if it is new. -/
def insert (es : List (String × Document)) (key : String) (d : Document) : List (String × Document) :=
  if es.any (·.1 = key) then es.map fun e => if e.1 = key then (key, d) else e else es ++ [(key, d)]

mutual

/-- Sets a key; a root that is no table becomes one. -/
def setKey (root : Document) (key : String) : Document → Document
  | .table inner =>
    let k := Text.lower key
    .table (insert root.entries k (setKeys ((lookup? root.entries k).getD (.table [])) inner))
  | d => .table (insert root.entries (Text.lower key) d)

def setKeys (root : Document) : List (String × Document) → Document
  | [] => root
  | (key, d) :: rest => setKeys (setKey root key d) rest

end

end Document

namespace Sources

/-- Which element of a list of a given length is meant. -/
def position (index : Int) (length : Nat) : Nat :=
  if 0 ≤ index then index.toNat else length - index.natAbs

/-- Changes what is at the end of some steps, making what is missing on the way. -/
def alterAt (change : Document → Document) : List Step → Document → Document
  | [], d => change d
  | .child key :: rest, d =>
    let k := Text.lower key
    .table (Document.insert d.entries k (alterAt change rest ((Document.lookup? d.entries k).getD .null)))
  | .element index :: rest, d =>
    let i := position index d.items.length
    let items := d.items ++ List.replicate (i + 1 - d.items.length) .null
    .list (items.modify i (alterAt change rest))

def Path.set (p : Path) (d root : Document) : Document :=
  match p.steps.getLast? with
  | none => root.setKey p.head d
  | some (.child key) => alterAt (·.setKey key d) (.child p.head :: p.steps.dropLast) root
  | some (.element _) => alterAt (fun _ => d) (.child p.head :: p.steps) root

/-- A source sets its keys one by one; a key that is no path stands for itself. -/
def merge (root : Document) (source : List (String × Document)) : Document :=
  source.foldl (fun root e =>
    match Path.parse? e.1 with
    | some p => p.set e.2 root
    | none => root.setKey e.1 e.2) root

end Sources

end Roster
