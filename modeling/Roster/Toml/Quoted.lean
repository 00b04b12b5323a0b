import Roster.Toml.Scan

/-! The four kinds of quoted text: basic with escapes and literal without, each on one line or on several. -/
namespace Roster.Toml

def hexValue? (c : Char) : Option Nat :=
  if c.isDigit then some (c.toNat - '0'.toNat)
  else if 'a' ≤ c ∧ c ≤ 'f' then some (c.toNat - 'a'.toNat + 10)
  else if 'A' ≤ c ∧ c ≤ 'F' then some (c.toNat - 'A'.toNat + 10)
  else none

/-- The character with the code point written in `count` hexadecimal digits. -/
def codePoint (count : Nat) : Scan Char := do
  let cs ← get
  guard (count ≤ cs.length)
  let digits ← (cs.take count).mapM fun c => (hexValue? c : Option Nat)
  set (cs.drop count)
  let n := digits.foldl (fun n d => 16 * n + d) 0
  guard n.isValidChar
  return Char.ofNat n

/-- What stands after a backslash. -/
def escape : Scan Char := do
  match ← Scan.char with
  | 'b' => return '\x08'
  | 't' => return '\t'
  | 'n' => return '\n'
  | 'f' => return '\x0c'
  | 'r' => return '\r'
  | '"' => return '"'
  | '\\' => return '\\'
  | 'u' => codePoint 4
  | 'U' => codePoint 8
  | _ => failure

/-- The rest of a basic text, up to its closing quote. -/
def basicRest : Nat → Scan (List Char)
  | 0 => failure
  | fuel + 1 => do
    match ← Scan.char with
    | '"' => return []
    | '\\' => return (← escape) :: (← basicRest fuel)
    | c =>
      guard (isVisible c)
      return c :: (← basicRest fuel)

/-- A closing delimiter of three quotes, with up to two quotes of the text before it. -/
def closing (quote : Char) : Scan (Option (List Char)) := do
  let quotes := ((← get).takeWhile (· = quote)).length
  if 3 ≤ quotes then
    let count := min quotes 5
    modify (·.drop count)
    return some (List.replicate (count - 3) quote)
  else return none

/-- A backslash at the end of a line joins it with the next text, if there is only white space between them. -/
def joined : Scan Bool := do
  match (← get).dropWhile isBlank with
  | '\n' :: rest | '\r' :: '\n' :: rest =>
    set (rest.dropWhile fun c => isBlank c || c = '\n' || c = '\r')
    return true
  | _ => return false

def multiBasicRest : Nat → Scan (List Char)
  | 0 => failure
  | fuel + 1 => do
    if let some quotes ← closing '"' then return quotes
    if ← newline then return '\n' :: (← multiBasicRest fuel)
    match ← Scan.char with
    | '\\' =>
      if ← joined then multiBasicRest fuel
      else return (← escape) :: (← multiBasicRest fuel)
    | c =>
      guard (isVisible c)
      return c :: (← multiBasicRest fuel)

def multiLiteralRest : Nat → Scan (List Char)
  | 0 => failure
  | fuel + 1 => do
    if let some quotes ← closing '\'' then return quotes
    if ← newline then return '\n' :: (← multiLiteralRest fuel)
    let c ← Scan.char
    guard (isVisible c)
    return c :: (← multiLiteralRest fuel)

/-- More than the characters left. -/
def allLeft : Scan Nat := return (← get).length + 1

def basic : Scan String := do
  Scan.expect "\""
  return .ofList (← basicRest (← allLeft))

def literal : Scan String := do
  Scan.expect "'"
  let cs ← Scan.takeWhile fun c => isVisible c && c ≠ '\''
  Scan.expect "'"
  return .ofList cs

/-- A line end right after the opening delimiter is no part of the text. -/
def quoted : Scan String := do
  if ← Scan.passed "\"\"\"" then
    let _ ← newline
    return .ofList (← multiBasicRest (← allLeft))
  else if ← Scan.passed "'''" then
    let _ ← newline
    return .ofList (← multiLiteralRest (← allLeft))
  else if (← Scan.peek?) = some '"' then basic
  else literal

end Roster.Toml
