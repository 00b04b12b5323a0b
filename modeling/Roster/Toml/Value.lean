import Roster.Toml.Moment
import Roster.Toml.Node

/-! Keys and values of TOML. -/
namespace Roster.Toml

def isBareKeyChar (c : Char) : Bool := c.isAlphanum || c = '_' || c = '-'

def simpleKey : Scan String := do
  match ← Scan.peek? with
  | some '"' => basic
  | some '\'' => literal
  | _ =>
    let cs ← Scan.takeWhile isBareKeyChar
    guard !cs.isEmpty
    return .ofList cs

def keysFrom : Nat → Scan (List String)
  | 0 => failure
  | fuel + 1 => do
    blanks
    let k ← simpleKey
    blanks
    if ← Scan.passed "." then return k :: (← keysFrom fuel)
    return [k]

/-- Keys and values nest less deep than this. -/
def depthLimit : Nat := 80

/-- Simple keys with dots between them. -/
def key : Scan (List String) := do
  let path ← keysFrom (← allLeft)
  guard (path.length < depthLimit)
  return path

def isScalarChar (c : Char) : Bool :=
  c.isAlphanum || c = '+' || c = '-' || c = '_' || c = '.' || c = ':'

/-- The characters of a number, a truth value or a moment, where a space may stand between date and time. -/
def scalarText : Scan (List Char) := do
  let cs ← Scan.takeWhile isScalarChar
  match date? cs, ← get with
  | some (_, []), ' ' :: a :: b :: ':' :: rest =>
    if a.isDigit && b.isDigit then
      set (a :: b :: ':' :: rest)
      return cs ++ ' ' :: (← Scan.takeWhile isScalarChar)
    else return cs
  | _, _ => return cs

def scalar : Scan Document := do
  let cs ← scalarText
  if cs = "true".toList then return .bool true
  if cs = "false".toList then return .bool false
  let moment := (moment? cs).map fun t => Document.text (.ofList t)
  (moment <|> (wholeNumber? cs).map Document.int <|> (realNumber? cs).map Document.real : Option Document)

/-- The elements of a list, up to its closing bracket; a comma may follow the last one. -/
def elements (element : Scan Document) : Nat → Scan (List Document)
  | 0 => failure
  | fuel + 1 => do
    gaps
    if ← Scan.passed "]" then return []
    let d ← element
    gaps
    if ← Scan.passed "," then return d :: (← elements element fuel)
    Scan.expect "]"
    return [d]

def keyValue (element : Scan Document) : Scan (List String × Document) := do
  let path ← key
  Scan.expect "="
  blanks
  let d ← element
  blanks
  return (path, d)

/-- The entries of a table on one line, up to its closing brace; no comma follows the last one. -/
def inlineEntries (element : Scan Document) : Nat → Scan (List (List String × Document))
  | 0 => failure
  | fuel + 1 => do
    let e ← keyValue element
    if ← Scan.passed "," then return e :: (← inlineEntries element fuel)
    Scan.expect "\x7d"
    return [e]

/-- A value; `inner` reads what is nested in it, if anything may be. -/
def valueOver (inner : Option (Scan Document)) : Scan Document := do
  match ← Scan.peek?, inner with
  | some '"', _ | some '\'', _ => return .text (← quoted)
  | some '[', some inner =>
    Scan.expect "["
    return .list (← elements inner (← allLeft))
  | some '\x7b', some inner =>
    Scan.expect "\x7b"
    blanks
    if ← Scan.passed "\x7d" then return .table []
    let lines ← inlineEntries inner (← allLeft)
    return .table (Node.entriesToDocuments (← Entries.addValues [] lines))
  | _, _ => scalar

/-- A value with lists and tables nested at most `room` deep. -/
def value : Nat → Scan Document
  | 0 => valueOver none
  | room + 1 => valueOver (some (value room))

end Roster.Toml
