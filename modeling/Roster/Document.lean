import Roster.Member
import Roster.Number.Binary64

/-! Data trees: what configuration sources and serialised values are made of. -/
namespace Roster

open Number (Binary64)

inductive Document
  | null
  | bool (b : Bool)
  | int (n : Int)
  | real (x : Binary64)
  | text (s : String)
  | list (items : List Document)
  | table (entries : List (String × Document))
  deriving Repr, Inhabited

namespace Document

def lookup? (entries : List (String × Document)) (key : String) : Option Document :=
  (entries.find? (·.1 = key)).map (·.2)

def ofWord (n : UInt64) : Document := int n.toNat

def ofTexts (ss : List String) : Document := list (ss.map text)

def ofKeyed {β : Type} (f : β → Document) (m : Keyed β) : Document :=
  table (m.toList.map fun e => (e.1, f e.2))

/-- A place inside a tree: an entry of a table or of a list. -/
inductive Segment
  | key (k : String)
  | index (i : Nat)
  deriving DecidableEq, Repr

/-- How the leaves of a tree are read and how its faults are told. -/
structure Reader (ε : Type) where
  word : Document → Except ε UInt64
  flag : Document → Except ε Bool
  text : Document → Except ε String
  /-- The tree has another form than the one described. -/
  mismatch : Document → String → ε
  missing : ε
  /-- The fault of a part, as a fault of the whole. -/
  within : Segment → ε → ε
  /-- A list that stands for a structure may be longer than the structure. -/
  surplus : Bool

namespace Reader

variable {ε β : Type} (r : Reader ε)

/-- The named parts of a structure, given as a table, or as a list in the order of the names. -/
def parts (label : String) (names : List String) :
    Document → Except ε (String → Option (Segment × Document))
  | .table entries => .ok fun k => (lookup? entries k).map fun d => (.key k, d)
  | .list items =>
    if r.surplus || items.length ≤ names.length then
      .ok fun k => (items[names.idxOf k]?).map fun d => (.index (names.idxOf k), d)
    else .error (r.mismatch (.list items) label)
  | d => .error (r.mismatch d label)

/-- A part that may be missing if it has a default. -/
def part (get : String → Option (Segment × Document)) (name : String)
    (read : Document → Except ε β) (default : Option β) : Except ε β :=
  match get name, default with
  | some (s, d), _ => (read d).mapError (r.within s)
  | none, some b => .ok b
  | none, none => .error r.missing

def list (read : Document → Except ε β) : Document → Except ε (List β)
  | .list items => items.zipIdx.mapM fun e => (read e.1).mapError (r.within (.index e.2))
  | d => .error (r.mismatch d "a sequence")

def keyed (read : Document → Except ε β) : Document → Except ε (Keyed β)
  | .table entries => do
    let pairs ← entries.mapM fun e => do
      let v ← (read e.2).mapError (r.within (.key e.1))
      return (e.1, v)
    return Std.ExtTreeMap.ofList pairs compare
  | d => .error (r.mismatch d "a map")

end Reader

/-- Null stands for absence. -/
def optional {ε β : Type} (read : Document → Except ε β) : Document → Except ε (Option β)
  | .null => .ok none
  | d => (read d).map some

/-- Takes only values of exactly the type asked for. -/
def strict : Reader Unit where
  word
    | .int n => if 0 ≤ n ∧ n < UInt64.size then .ok (UInt64.ofNat n.toNat) else .error ()
    | _ => .error ()
  flag
    | .bool b => .ok b
    | _ => .error ()
  text
    | .text s => .ok s
    | _ => .error ()
  mismatch _ _ := ()
  missing := ()
  within _ _ := ()
  surplus := false

def signed : Document → Except Unit Int64
  | .int n => if Int64.minValue.toInt ≤ n ∧ n ≤ Int64.maxValue.toInt then .ok (Int64.ofInt n) else .error ()
  | _ => .error ()

end Document

end Roster
