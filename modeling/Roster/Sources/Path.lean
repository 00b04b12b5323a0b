import Roster.Number.Decimal

/-! Key paths such as `client.reconnect.max_retries` and `seeds[0]`. -/
namespace Roster.Sources

inductive Step
  | child (key : String)
  /-- An element of a list, counted from the end if negative. -/
  | element (index : Int)
  deriving DecidableEq, Repr

structure Path where
  head : String
  steps : List Step
  deriving DecidableEq, Repr

namespace Path

def isNameChar (c : Char) : Bool := c.isAlphanum || c = '_' || c = ' ' || c = '-'

/-- A name in front, and what follows it. -/
def name? (cs : List Char) : Option (String × List Char) :=
  let name := cs.takeWhile isNameChar
  if name.isEmpty then none else some (.ofList name, cs.dropWhile isNameChar)

def isSpace (c : Char) : Bool := c = ' ' || c = '\t' || c = '\n' || c = '\r'

/-- The index between a bracket and the next one, with white space around it, and what follows. -/
def index? (cs : List Char) : Option (Int × List Char) := do
  let cs := cs.dropWhile isSpace
  let (minus, cs) := match cs with
    | '-' :: rest => (true, rest)
    | cs => (false, cs)
  let n ← Number.natural? (cs.takeWhile Char.isDigit)
  let i : Int := if minus then -n else n
  guard (Number.fitsSigned i)
  match (cs.dropWhile Char.isDigit).dropWhile isSpace with
  | ']' :: rest => return (i, rest)
  | _ => none

def steps? : Nat → List Char → Option (List Step)
  | _, [] => some []
  | 0, _ => none
  | fuel + 1, '.' :: rest => do
    let (k, rest) ← name? rest
    return .child k :: (← steps? fuel rest)
  | fuel + 1, '[' :: rest => do
    let (i, rest) ← index? rest
    return .element i :: (← steps? fuel rest)
  | _, _ => none

/-- Every step takes at least two characters. -/
def parse? (s : String) : Option Path := do
  let (head, rest) ← name? s.toList
  return ⟨head, ← steps? rest.length rest⟩

end Path

end Roster.Sources
