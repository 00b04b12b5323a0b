import Roster.Document

/-! The tables of a TOML document while it is read: which of them a later line may still add to. -/
namespace Roster.Toml

/-- How a table came to be. -/
inductive Origin
  /-- By a header of its own. -/
  | header
  /-- On the path of a header. -/
  | implied
  /-- By a dotted key. -/
  | dotted
  deriving DecidableEq, Repr

inductive Node
  | value (d : Document)
  | table (origin : Origin) (entries : List (String × Node))
  /-- Tables under one name, the newest first. -/
  | tables (items : List (List (String × Node)))

abbrev Entries := List (String × Node)

namespace Node

mutual

def toDocument : Node → Document
  | value d => d
  | table _ entries => .table (entriesToDocuments entries)
  | tables items => .list (itemsToDocuments items).reverse

def entriesToDocuments : List (String × Node) → List (String × Document)
  | [] => []
  | (k, n) :: rest => (k, n.toDocument) :: entriesToDocuments rest

def itemsToDocuments : List (List (String × Node)) → List Document
  | [] => []
  | entries :: rest => .table (entriesToDocuments entries) :: itemsToDocuments rest

end

end Node

namespace Entries

def get? (es : Entries) (key : String) : Option Node := (es.find? (·.1 = key)).map (·.2)

def put (es : Entries) (key : String) (n : Node) : Entries :=
  match es.get? key with
  | none => es ++ [(key, n)]
  | some _ => es.map fun e => if e.1 = key then (key, n) else e

/-- Changes the table at a path, making those on the way that are missing. Values are never entered, tables with a
header of their own not by dotted keys, and of several tables under one name the newest is meant. -/
def descend (dotted : Bool) (change : Origin → Entries → Option Entries) :
    List String → Origin → Entries → Option Entries
  | [], origin, es => change origin es
  | key :: path, _, es =>
    match es.get? key with
    | none => do
      let origin := if dotted then .dotted else .implied
      return es.put key (.table origin (← descend dotted change path origin []))
    | some (.value _) => none
    | some (.table origin inner) => do
      guard (!(dotted && origin = .header))
      return es.put key (.table origin (← descend dotted change path origin inner))
    | some (.tables items) =>
      match items with
      | [] => none
      | newest :: older => do
        return es.put key (.tables ((← descend dotted change path .header newest) :: older))

/-- Enters a value under a dotted key. No name is given twice, and dotted keys add to no table that was made
otherwise. -/
def addValue (es : Entries) (path : List String) (d : Document) : Option Entries :=
  match path.getLast? with
  | none => none
  | some key =>
    descend true (fun origin es => do
      guard ((origin = .dotted) = (1 < path.length) ∧ (es.get? key).isNone)
      return es.put key (.value d)) path.dropLast .header es

def addValues (es : Entries) (lines : List (List String × Document)) : Option Entries :=
  lines.foldlM (fun es l => es.addValue l.1 l.2) es

end Entries

/-- A header and the lines under it; those before the first header have none. -/
structure Part where
  /-- Whether the header adds to a list of tables, and its path. -/
  header : Option (Bool × List String)
  lines : List (List String × Document)

/-- Adds a part to the document. A header makes a new table, or takes over one that was only implied. -/
def Entries.addPart (es : Entries) (p : Part) : Option Entries :=
  match p.header with
  | none => es.addValues p.lines
  | some (listed, path) =>
    match path.getLast? with
    | none => none
    | some key =>
      es.descend false (fun _ es =>
        match listed, es.get? key with
        | false, none => do return es.put key (.table .header (← Entries.addValues [] p.lines))
        | false, some (.table .implied inner) => do
          return es.put key (.table .header (← Entries.addValues inner p.lines))
        | true, none => do return es.put key (.tables [← Entries.addValues [] p.lines])
        | true, some (.tables items) => do
          return es.put key (.tables ((← Entries.addValues [] p.lines) :: items))
        | _, _ => none) path.dropLast .header

end Roster.Toml
