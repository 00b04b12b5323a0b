/-! Lengths of time to the nanosecond, and their text. -/
namespace Roster

structure Duration where
  secs : Nat
  nanos : Nat
  deriving DecidableEq, Repr

namespace Duration

def ofMillis (ms : Nat) : Duration := ⟨ms / 1000, ms % 1000 * 1000000⟩

/-- Nanoseconds beyond a second carry over. -/
def ofParts (secs nanos : Nat) : Duration := ⟨secs + nanos / 1000000000, nanos % 1000000000⟩

/-- Whole milliseconds, kept to 64 bits. -/
def millis (d : Duration) : UInt64 := UInt64.ofNat (d.secs * 1000 + d.nanos / 1000000)

/-- The digits of `n` as a fraction of `width` places, without trailing zeros and with its point. -/
def fraction (width n : Nat) : String :=
  let digits := Nat.toDigits 10 n
  let padded := List.replicate (width - digits.length) '0' ++ digits
  let kept := (padded.reverse.dropWhile (· = '0')).reverse
  if kept.isEmpty then "" else String.ofList ('.' :: kept)

/-- In the largest unit of s, ms, µs and ns that is not below one. -/
def text (d : Duration) : String :=
  if d.secs > 0 then toString d.secs ++ fraction 9 d.nanos ++ "s"
  else if d.nanos ≥ 1000000 then toString (d.nanos / 1000000) ++ fraction 6 (d.nanos % 1000000) ++ "ms"
  else if d.nanos ≥ 1000 then toString (d.nanos / 1000) ++ fraction 3 (d.nanos % 1000) ++ "µs"
  else toString d.nanos ++ "ns"

end Duration

end Roster
