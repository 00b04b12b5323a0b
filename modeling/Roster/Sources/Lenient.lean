import Roster.Document
import Roster.Failure
import Roster.Number.Decimal
import Roster.Text.Lower
import Roster.Text.Quoted

/-! Reading merged sources, where scalars are converted to what is asked for. -/
namespace Roster.Sources

open Number (natural?)

def wrongType {β : Type} (found expected : String) : Except ConfigFault β := .error (.wrongType found expected none)

/-- How a value is named in the fault of a structure. -/
def describe : Document → String
  | .null => "unit value"
  | .bool b => s!"boolean `{b}`"
  | .int n => s!"integer `{n}`"
  | .real x => "floating point `" ++ x.pointText ++ "`"
  | .text s => "string " ++ Text.quote s
  | .list _ => "sequence"
  | .table _ => "map"

/-- How a value is named that cannot be converted. -/
def describeLeaf : Document → String
  | .int n => s!"64-bit integer `{n}`"
  | d => describe d

/-- A number in text is digits only, with a plus in front or without. -/
def wordOfText? (s : String) : Option UInt64 :=
  let cs := match s.toList with
    | '+' :: rest => rest
    | cs => cs
  (natural? cs).bind fun n => if n < UInt64.size then some (UInt64.ofNat n) else none

def truthOfText? (s : String) : Option Bool :=
  let s := Text.lower s
  if s = "true" ∨ s = "on" ∨ s = "yes" then some true
  else if s = "false" ∨ s = "off" ∨ s = "no" then some false
  else none

def word : Document → Except ConfigFault UInt64
  | .int n =>
    if 0 ≤ n then .ok (UInt64.ofNat n.toNat)
    else wrongType (describeLeaf (.int n)) "an unsigned 64 bit or less integer"
  | .bool b => .ok (if b then 1 else 0)
  | .real x =>
    match x.roundToNat with
    | some n => .ok (if n < UInt64.size then UInt64.ofNat n else UInt64.ofNat (UInt64.size - 1))
    | none => .ok (UInt64.ofNat (UInt64.size - 1))
  | .text s =>
    match truthOfText? s, wordOfText? s with
    | some b, _ => .ok (if b then 1 else 0)
    | none, some n => .ok n
    | none, none => wrongType (describeLeaf (.text s)) "an integer"
  | d => wrongType (describeLeaf d) "an integer"

def flag : Document → Except ConfigFault Bool
  | .bool b => .ok b
  | .int n => .ok (n ≠ 0)
  | .real x => .ok (!x.isZero)
  | .text s =>
    match truthOfText? s with
    | some b => .ok b
    | none =>
      if s = "1" then .ok true
      else if s = "0" then .ok false
      else wrongType (describeLeaf (.text (Text.lower s))) "a boolean"
  | d => wrongType (describeLeaf d) "a boolean"

def text : Document → Except ConfigFault String
  | .text s => .ok s
  | .bool b => .ok (toString b)
  | .int n => .ok (toString n)
  | .real x => .ok x.text
  | d => wrongType (describeLeaf d) "a string"

/-- The key of a fault, seen from further outside; a dot follows a name unless an index or nothing comes next. -/
def outerKey (s : Document.Segment) (key : Option String) : String :=
  let key := key.getD ""
  match s with
  | .index i => s!"[{i}]" ++ key
  | .key k => if key.isEmpty || key.startsWith "[" then k ++ key else k ++ "." ++ key

def lenient : Document.Reader ConfigFault where
  word := word
  flag := flag
  text := text
  mismatch d expected := .mismatch (describe d) expected
  missing := .other "missing field"
  within s
    | .wrongType found expected key => .wrongType found expected (some (outerKey s key))
    | f => f
  surplus := true

end Roster.Sources
