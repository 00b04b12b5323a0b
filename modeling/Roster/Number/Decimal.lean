import Roster.Number.Binary64

/-! Decimal text of whole and real numbers. -/
namespace Roster.Number

/-- Whether a whole number is a signed 64-bit word. -/
def fitsSigned (n : Int) : Bool := Int64.minValue.toInt ≤ n && n ≤ Int64.maxValue.toInt

/-- A sign in front, and whether it is a minus. -/
def unsigned : List Char → Bool × List Char
  | '-' :: rest => (true, rest)
  | '+' :: rest => (false, rest)
  | cs => (false, cs)

def natOfDigits (cs : List Char) : Nat := cs.foldl (fun n c => 10 * n + (c.toNat - '0'.toNat)) 0

/-- At least one digit and nothing else. -/
def natural? (cs : List Char) : Option Nat :=
  if cs.isEmpty || !cs.all Char.isDigit then none else some (natOfDigits cs)

/-- Digits with a sign or without. -/
def integer? (cs : List Char) : Option Int :=
  let (negative, cs) := unsigned cs
  (natural? cs).map fun n => if negative then -n else n

/-- A number with a fraction or an exponent, or without either; also infinity and what is no number, in any case. -/
def real? (cs : List Char) : Option Binary64 := do
  let (negative, cs) := unsigned cs
  let word := String.ofList (cs.map Char.toLower)
  if word = "inf" ∨ word = "infinity" then return .infinite negative
  if word = "nan" then return .nan
  let (plain, power) := cs.span fun c => c ≠ 'e' && c ≠ 'E'
  let (whole, fraction) := plain.span (· ≠ '.')
  let places := fraction.drop 1
  let digits ← natural? (whole ++ places)
  let exponent ← if power.isEmpty then some 0 else integer? (power.drop 1)
  return .ofDecimal negative digits (exponent - places.length)

end Roster.Number
