/-! Reading TOML text from left to right: what is passed over, and what a line may end with. -/
namespace Roster.Toml

/-- Reads some characters and leaves the rest, or fails. -/
abbrev Scan := StateT (List Char) Option

namespace Scan

def peek? : Scan (Option Char) := return (← get).head?

def char : Scan Char := do
  match ← get with
  | [] => failure
  | c :: rest =>
    set rest
    return c

def takeWhile (p : Char → Bool) : Scan (List Char) := do
  let cs ← get
  set (cs.dropWhile p)
  return cs.takeWhile p

/-- Passes over a text if it comes next, and tells whether it did. -/
def passed (t : String) : Scan Bool := do
  let cs ← get
  if t.toList.isPrefixOf cs then
    set (cs.drop t.toList.length)
    return true
  else return false

def expect (t : String) : Scan Unit := do guard (← passed t)

end Scan

def isBlank (c : Char) : Bool := c = ' ' || c = '\t'

/-- Control characters other than the tab stand nowhere, not even in comments. -/
def isVisible (c : Char) : Bool := c = '\t' || (0x20 ≤ c.toNat && c.toNat ≠ 0x7f)

def blanks : Scan Unit := do let _ ← Scan.takeWhile isBlank

/-- The end of a line. -/
def newline : Scan Bool := do
  if ← Scan.passed "\n" then return true
  Scan.passed "\r\n"

/-- After an expression only a comment may stand on its line. -/
def lineEnd : Scan Unit := do
  blanks
  if ← Scan.passed "#" then
    let _ ← Scan.takeWhile isVisible
  unless ← newline do guard (← Scan.peek?).isNone

/-- Drops blanks, line ends and comments; `inComment` tells whether a comment has begun. -/
def dropGaps : Bool → List Char → List Char
  | _, [] => []
  | inComment, c :: rest =>
    if inComment && isVisible c then dropGaps true rest
    else if isBlank c || c = '\n' || (c = '\r' && rest.head? = some '\n') then dropGaps false rest
    else if c = '#' then dropGaps true rest
    else c :: rest

def gaps : Scan Unit := modify (dropGaps false)

end Roster.Toml
