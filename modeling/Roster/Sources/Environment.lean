import Roster.Document
import Roster.Number.Decimal
import Roster.Text.Lower

/-! Environment variables as a source. -/
namespace Roster.Sources

def variablePrefix : List Char := "fuddle__".toList

/-- Two underscores divide the names of a path. -/
def dotted : List Char → List Char
  | '_' :: '_' :: rest => '.' :: dotted rest
  | c :: rest => c :: dotted rest
  | [] => []

/-- The path a variable is about. -/
def variablePath? (name : String) : Option String :=
  let cs := (Text.lower name).toList
  if variablePrefix.isPrefixOf cs then some (.ofList (dotted (cs.drop variablePrefix.length))) else none

def splitAtCommas : List Char → List (List Char)
  | [] => [[]]
  | ',' :: rest => [] :: splitAtCommas rest
  | c :: rest =>
    match splitAtCommas rest with
    | [] => [[c]]
    | first :: others => (c :: first) :: others

/-- The form of a value decides what it is: a truth value, a whole number, a number, a list of seeds, or a text. -/
def variableValue (path value : String) : Document :=
  let cs := value.toList
  let lowered := Text.lower value
  if lowered = "true" then .bool true
  else if lowered = "false" then .bool false
  else
    match (Number.integer? cs).filter Number.fitsSigned, Number.real? cs with
    | some n, _ => .int n
    | none, some x => .real x
    | none, none =>
      if path = "seeds" then .list ((splitAtCommas cs).map fun s => .text (.ofList s)) else .text value

/-- Variables with another prefix or an empty value say nothing. -/
def ofVariables (vars : List (String × String)) : List (String × Document) :=
  vars.filterMap fun v =>
    if v.2.isEmpty then none else (variablePath? v.1).map fun path => (path, variableValue path v.2)

end Roster.Sources
