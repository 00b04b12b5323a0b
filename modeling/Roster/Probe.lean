import Roster.Settings

/-! The periodic check of the registry's health. -/
namespace Roster

/-- Failures in a row so far, and whether the probe still checks. -/
structure Probe where
  failures : Nat := 0
  running : Bool := true
  deriving DecidableEq, Repr

namespace Probe

/-- How long the probe waits before its next check. -/
def waitMs (s : Settings) (p : Probe) : UInt64 :=
  if p.failures = 0 then s.healthCheckIntervalMs else s.reconnect.delayFor (UInt64.ofNat p.failures)

/-- A check completes; the probe gives up when the retries are used up. -/
def checked (b : Backoff) (p : Probe) (passed : Bool) : Probe :=
  if passed then { p with failures := 0 }
  else
    let failures := p.failures + 1
    { failures, running := p.running && !b.exhausted (UInt64.ofNat failures) }

/-- The waits before the checks of a probe, as long as it runs, and the probe after them. -/
def run (s : Settings) (p : Probe) : List Bool → List UInt64 × Probe
  | [] => ([], p)
  | passed :: rest =>
    if p.running then
      let (waits, last) := run s (p.checked s.reconnect passed) rest
      (p.waitMs s :: waits, last)
    else ([], p)

end Probe

end Roster
