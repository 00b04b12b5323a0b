/-! Double precision numbers as exact dyadic fractions, with rounding from and to decimals in natural number
arithmetic. -/
namespace Roster.Number

/-- A finite number is `mantissa * 2 ^ exponent`. Its mantissa has 53 bits, or fewer at the least exponent. -/
inductive Binary64
  | nan
  | infinite (negative : Bool)
  | finite (negative : Bool) (mantissa : Nat) (exponent : Int)
  deriving DecidableEq, Repr

namespace Binary64

def leastExponent : Int := -1074

/-- The least mantissa of 53 bits. -/
def leastFull : Nat := Nat.pow 2 52

/-- `num * 2 ^ e / den` as a fraction of naturals. -/
def scale (num den : Nat) (e : Int) : Nat × Nat :=
  if e ≥ 0 then (num * Nat.pow 2 e.toNat, den) else (num, den * Nat.pow 2 (-e).toNat)

/-- The quotient, halves going to the even neighbour. -/
def divideToEven (num den : Nat) : Nat :=
  let q := num / den
  let r := num % den
  if 2 * r < den then q else if 2 * r > den then q + 1 else if q % 2 = 0 then q else q + 1

/-- The nearest number to the fraction `num / den`. -/
def ofFraction (negative : Bool) (num den : Nat) : Binary64 :=
  if num = 0 then finite negative 0 leastExponent
  else
    let k : Int := (Nat.log2 num : Int) - (Nat.log2 den : Int)
    let (n, d) := scale num den (-k)
    let e := max (if n < d then k - 53 else k - 52) leastExponent
    let (n, d) := scale num den (-e)
    let q := divideToEven n d
    let (q, e) := if q = 2 * leastFull then (leastFull, e + 1) else (q, e)
    if e > 971 then infinite negative else finite negative q e

/-- The nearest number to `digits * 10 ^ exponent`. -/
def ofDecimal (negative : Bool) (digits : Nat) (exponent : Int) : Binary64 :=
  let size : Int := (Nat.toDigits 10 digits).length
  if digits = 0 ∨ exponent + size < -330 then finite negative 0 leastExponent
  else if exponent + size > 310 then infinite negative
  else if exponent ≥ 0 then ofFraction negative (digits * Nat.pow 10 exponent.toNat) 1
  else ofFraction negative digits (Nat.pow 10 (-exponent).toNat)

/-- The nearest whole number, halves away from zero; what is below zero or no number is zero. -/
def roundToNat : Binary64 → Option Nat
  | nan => some 0
  | infinite negative => if negative then some 0 else none
  | finite negative m e =>
    if negative then some 0
    else
      let (n, d) := scale m 1 e
      some ((2 * n + d) / (2 * d))

def isZero : Binary64 → Bool
  | finite _ m _ => m = 0
  | _ => false

/-- The fractions that bound what rounds to a positive number, four times its mantissa wide. -/
def bounds (m : Nat) (e : Int) : Nat × Nat × Int :=
  if m = leastFull ∧ e > leastExponent then (4 * m - 1, 4 * m + 2, e - 2) else (4 * m - 2, 4 * m + 2, e - 2)

/-- Where `10 ^ p` falls among the powers of ten not above `num / den`. -/
def decimalExponent (num den : Nat) : Int :=
  let guess : Int := ((Nat.toDigits 10 num).length : Int) - ((Nat.toDigits 10 den).length : Int)
  let reached := if guess ≥ 0 then decide (den * Nat.pow 10 guess.toNat ≤ num)
    else decide (den ≤ num * Nat.pow 10 (-guess).toNat)
  if reached then guess else guess - 1

/-- On the grid of multiples of `10 ^ p`, the multiple nearest to the number among those that round to it; of two that
are equally near, the larger. -/
def onGrid? (m : Nat) (e : Int) (p : Int) : Option Nat :=
  let (low, high, b) := bounds m e
  let unit := fun (x : Nat) =>
    let (n, d) := scale x 1 b
    if p ≥ 0 then (n, d * Nat.pow 10 p.toNat) else (n * Nat.pow 10 (-p).toNat, d)
  let (ln, ld) := unit low
  let (hn, hd) := unit high
  let (n, d) := unit (4 * m)
  let inside := fun (x : Nat) =>
    if m % 2 = 0 then decide (ln ≤ x * ld) && decide (x * hd ≤ hn)
    else decide (ln < x * ld) && decide (x * hd < hn)
  let below := n / d
  let above := below + 1
  match inside below, inside above with
  | true, true => if 2 * (n % d) < d then some below else some above
  | true, false => some below
  | false, true => some above
  | false, false => none

/-- The fewest digits that read back as the positive number, with the exponent of the last of them. -/
def shortest (m : Nat) (e : Int) : Nat × Int :=
  let (n, d) := scale m 1 e
  let top := decimalExponent n d
  let grids := (List.range 17).map fun (k : Nat) => top - (k : Int)
  let found := grids.findSome? fun p => (onGrid? m e p).map fun digits => (digits, p)
  found.getD (0, 0)

/-- Digits in positional notation, with a point only before a fraction. -/
def positional (digits : Nat) (exponent : Int) : String :=
  let ds := Nat.toDigits 10 digits
  if exponent ≥ 0 then String.ofList (ds ++ List.replicate exponent.toNat '0')
  else
    let places := (-exponent).toNat
    let padded := List.replicate (places + 1 - ds.length) '0' ++ ds
    let whole := padded.take (padded.length - places)
    let fraction := padded.drop (padded.length - places)
    let kept := (fraction.reverse.dropWhile (· = '0')).reverse
    String.ofList (if kept.isEmpty then whole else whole ++ '.' :: kept)

/-- Never an exponent, the fewest digits that read back. -/
def text : Binary64 → String
  | nan => "NaN"
  | infinite negative => if negative then "-inf" else "inf"
  | finite negative m e =>
    let digits := if m = 0 then "0" else
      let (d, p) := shortest m e
      positional d p
    if negative then "-" ++ digits else digits

/-- As `text`, but a whole number keeps `.0`. -/
def pointText : Binary64 → String
  | finite negative m e =>
    let s := (finite negative m e).text
    if s.toList.contains '.' then s else s ++ ".0"
  | x => x.text

end Binary64

end Roster.Number
