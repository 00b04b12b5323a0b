import Roster.Toml.Number

/-! Dates and times of TOML, kept as text of one form: `T` between date and time, no zeros at the end of a fraction of a
second, and no sign on a zero offset but `+`. -/
namespace Roster.Toml

def pair? (a b : Char) (low high : Nat) : Option Nat := do
  let n := 10 * (← digitValue? 10 a) + (← digitValue? 10 b)
  guard (low ≤ n ∧ n ≤ high)
  return n

def daysOf (year month : Nat) : Nat :=
  if month = 2 then if year % 4 = 0 ∧ (year % 100 ≠ 0 ∨ year % 400 = 0) then 29 else 28
  else if month = 4 ∨ month = 6 ∨ month = 9 ∨ month = 11 then 30
  else 31

/-- A date in front, and what follows it. -/
def date? : List Char → Option (List Char × List Char)
  | a :: b :: c :: d :: '-' :: m :: n :: '-' :: x :: y :: rest => do
    let year := ofDigits 10 (← [a, b, c, d].mapM (digitValue? 10))
    let month ← pair? m n 1 12
    let _ ← pair? x y 1 (daysOf year month)
    return ([a, b, c, d, '-', m, n, '-', x, y], rest)
  | _ => none

/-- A fraction of a second, cut after nine digits. -/
def fraction? : List Char → Option (List Char × List Char)
  | '.' :: cs => do
    let ds := cs.takeWhile Char.isDigit
    guard !ds.isEmpty
    let kept := ((ds.take 9).reverse.dropWhile (· = '0')).reverse
    return (if kept.isEmpty then [] else '.' :: kept, cs.dropWhile Char.isDigit)
  | cs => some ([], cs)

/-- A time of day in front, and what follows it. -/
def time? : List Char → Option (List Char × List Char)
  | a :: b :: ':' :: c :: d :: ':' :: e :: f :: rest => do
    let _ ← pair? a b 0 23
    let _ ← pair? c d 0 59
    let _ ← pair? e f 0 60
    let (fraction, rest) ← fraction? rest
    return ([a, b, ':', c, d, ':', e, f] ++ fraction, rest)
  | _ => none

def offset? : List Char → Option (List Char)
  | [] => some []
  | ['Z'] | ['z'] => some ['Z']
  | [sign, a, b, ':', c, d] => do
    guard (sign = '+' ∨ sign = '-')
    let h ← pair? a b 0 23
    let m ← pair? c d 0 59
    return [if h = 0 ∧ m = 0 then '+' else sign, a, b, ':', c, d]
  | _ => none

/-- A date, a time, or both with an offset or without. -/
def moment? (cs : List Char) : Option (List Char) :=
  match date? cs with
  | none =>
    match time? cs with
    | some (time, []) => some time
    | _ => none
  | some (date, []) => some date
  | some (date, delimiter :: rest) => do
    guard (delimiter = 'T' ∨ delimiter = 't' ∨ delimiter = ' ')
    let (time, rest) ← time? rest
    return date ++ 'T' :: time ++ (← offset? rest)

end Roster.Toml
