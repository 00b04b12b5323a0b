/-! Growing pauses between probes of a lost connection. -/
namespace Roster

structure Backoff where
  /-- Zero retries without end. -/
  maxRetries : UInt64 := 0
  timeoutMs : UInt64 := 1000
  baseDelayMs : UInt64 := 100
  maxDelayMs : UInt64 := 5000
  deriving DecidableEq, Repr

namespace Backoff

/-- The product, or the largest word if it does not fit. -/
def cappedMul (a b : UInt64) : UInt64 :=
  if a.toNat * b.toNat < UInt64.size then a * b else UInt64.ofNat (UInt64.size - 1)

/-- Doubles from the base delay with every failure after the first, up to the largest delay. -/
def delayFor (b : Backoff) (attempt : UInt64) : UInt64 :=
  let shift := min (if attempt = 0 then 0 else attempt - 1) 31
  min (cappedMul b.baseDelayMs (1 <<< shift)) b.maxDelayMs

/-- The failures so far use up the retries. -/
def exhausted (b : Backoff) (attempt : UInt64) : Bool :=
  b.maxRetries != 0 && decide (b.maxRetries ≤ attempt)

end Backoff

end Roster
