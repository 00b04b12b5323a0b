import Roster.Toml.Value

/-! TOML documents. -/
namespace Roster.Toml

inductive Line
  | header (listed : Bool) (path : List String)
  | entry (path : List String) (d : Document)

def header : Scan Line := do
  if ← Scan.passed "[[" then
    let path ← key
    Scan.expect "]]"
    return .header true path
  else
    Scan.expect "["
    let path ← key
    Scan.expect "]"
    return .header false path

def linesFrom : Nat → Scan (List Line)
  | 0 => failure
  | fuel + 1 => do
    blanks
    match ← Scan.peek? with
    | none => return []
    | some '\n' | some '\r' | some '#' =>
      lineEnd
      linesFrom fuel
    | some '[' =>
      let l ← header
      lineEnd
      return l :: (← linesFrom fuel)
    | _ =>
      let (path, d) ← keyValue (value (depthLimit - 1))
      lineEnd
      return .entry path d :: (← linesFrom fuel)

/-- The parts of a document, the lines before the first header in front. -/
def parts : List Line → Part × List Part
  | [] => (⟨none, []⟩, [])
  | .entry path d :: rest =>
    let (first, others) := parts rest
    (⟨none, (path, d) :: first.lines⟩, others)
  | .header listed path :: rest =>
    let (first, others) := parts rest
    (⟨none, []⟩, ⟨some (listed, path), first.lines⟩ :: others)

/-- A byte order mark in front is passed over. -/
def document : Scan (List (String × Document)) := do
  let _ ← Scan.passed "\ufeff"
  let (first, others) := parts (← linesFrom (← allLeft))
  let root ← ((first :: others).foldlM Entries.addPart [] : Option Entries)
  return Node.entriesToDocuments root

/-- The entries of a document, if it is one. -/
def parse (s : String) : Option (List (String × Document)) := (document.run s.toList).map (·.1)

end Roster.Toml
