import Roster.Failure

/-! Connecting to the first seed that answers in time. -/
namespace Roster

/-- What comes of one attempt to connect. -/
inductive Attempt
  | answers (afterMs : Nat)
  | fails (afterMs : Nat) (failure : Failure)
  | hangs
  deriving DecidableEq

namespace Attempt

/-- How long an attempt takes and how it fails, under a deadline; one that ends on the deadline is in time. -/
def within (a : Attempt) (timeoutMs : Nat) : Nat × Option Failure :=
  let late := (timeoutMs, some (.timedOut "connect" (.ofMillis timeoutMs)))
  match a with
  | answers t => if t ≤ timeoutMs then (t, none) else late
  | fails t f => if t ≤ timeoutMs then (t, some f) else late
  | hangs => late

end Attempt

/-- The outcome, the addresses tried in order, and the time it took. -/
structure Dialling where
  result : Except Failure String
  tried : List String
  elapsedMs : Nat

/-- Tries the addresses in order, one at a time; `outcome n` is what comes of attempt `n`. -/
def dial (timeoutMs : Nat) (outcome : Nat → String → Attempt) :
    List String → List SeedFailure → List String → Nat → Dialling
  | [], failures, tried, elapsed => ⟨.error (.allSeedsFailed failures.reverse), tried.reverse, elapsed⟩
  | addr :: rest, failures, tried, elapsed =>
    match (outcome tried.length addr).within timeoutMs with
    | (t, none) => ⟨.ok addr, (addr :: tried).reverse, elapsed + t⟩
    | (t, some f) =>
      dial timeoutMs outcome rest (⟨addr, f.message⟩ :: failures) (addr :: tried) (elapsed + t)

/-- Seeds are tried in the order given here, which is any order of the configured list. -/
def connectSeeds (timeoutMs : Nat) (outcome : Nat → String → Attempt) (order : List String) : Dialling :=
  if order.isEmpty then ⟨.error .noSeeds, [], 0⟩ else dial timeoutMs outcome order [] [] 0

end Roster
