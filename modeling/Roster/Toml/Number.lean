import Roster.Number.Decimal
import Roster.Toml.Quoted

/-! Whole and real numbers of TOML. -/
namespace Roster.Toml

open Number (Binary64 unsigned)

def digitValue? (base : Nat) (c : Char) : Option Nat := (hexValue? c).filter (· < base)

/-- Digits, with single underscores between them. -/
def digits? (base : Nat) : List Char → Option (List Nat)
  | [] => none
  | c :: rest => do
    let d ← digitValue? base c
    match rest with
    | [] => return [d]
    | '_' :: more => return d :: (← digits? base more)
    | more => return d :: (← digits? base more)

def ofDigits (base : Nat) (ds : List Nat) : Nat := ds.foldl (fun n d => base * n + d) 0

/-- Decimal digits that do not begin with a zero for nothing. -/
def leadingDigits? (cs : List Char) : Option (List Nat) := do
  let ds ← digits? 10 cs
  guard (ds.head? ≠ some 0 ∨ cs.length = 1)
  return ds

def inRange? (n : Int) : Option Int := if Number.fitsSigned n then some n else none

/-- Decimal with a sign, or hexadecimal, octal or binary without; 64 bits. -/
def wholeNumber? : List Char → Option Int
  | '0' :: 'x' :: cs => (digits? 16 cs).bind fun ds => inRange? (ofDigits 16 ds)
  | '0' :: 'o' :: cs => (digits? 8 cs).bind fun ds => inRange? (ofDigits 8 ds)
  | '0' :: 'b' :: cs => (digits? 2 cs).bind fun ds => inRange? (ofDigits 2 ds)
  | cs => do
    let (negative, cs) := unsigned cs
    let n := ofDigits 10 (← leadingDigits? cs)
    inRange? (if negative then -n else n)

def isExponentMark (c : Char) : Bool := c = 'e' || c = 'E'

/-- With a fraction, an exponent, or both. What is too large for a number is refused, unless it is negative. -/
def realNumber? (cs : List Char) : Option Binary64 := do
  let (negative, cs) := unsigned cs
  if cs = "inf".toList then return .infinite negative
  if cs = "nan".toList then return .nan
  let (plain, power) := cs.span (!isExponentMark ·)
  let (whole, fraction) := plain.span (· ≠ '.')
  guard (!fraction.isEmpty ∨ !power.isEmpty)
  let wholeDigits ← leadingDigits? whole
  let places ← if fraction.isEmpty then some [] else digits? 10 (fraction.drop 1)
  let (down, power) := unsigned (power.drop 1)
  let exponent ←
    if (cs.any isExponentMark) then (digits? 10 power).map fun ds => (ofDigits 10 ds : Int) else some 0
  let x := Binary64.ofDecimal negative (ofDigits 10 (wholeDigits ++ places))
    ((if down then -exponent else exponent) - places.length)
  guard (x ≠ .infinite false)
  return x

end Roster.Toml
