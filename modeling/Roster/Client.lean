import Roster.Seeds
import Roster.Session.Step

/-! From a configuration to a running session. -/
namespace Roster

/-- What a client is built from. -/
structure Builder where
  settings : Settings := {}
  /-- Used where a caller gives no filter. -/
  filter : Option Filter := none

namespace Builder

inductive Timed
  | connectTimeout | requestTimeout | heartbeatInterval | heartbeatTimeout | closeTimeout
  deriving DecidableEq, Repr

/-- Replaces all settings, those set before one by one included. -/
def withSettings (b : Builder) (s : Settings) : Builder := { b with settings := s }

def withFilter (b : Builder) (f : Filter) : Builder := { b with filter := some f }

def withTime (b : Builder) (setting : Timed) (d : Duration) : Builder :=
  let s := b.settings
  b.withSettings <| match setting with
    | .connectTimeout => { s with connectTimeoutMs := d.millis }
    | .requestTimeout => { s with requestTimeoutMs := d.millis }
    | .heartbeatInterval => { s with heartbeatIntervalMs := d.millis }
    | .heartbeatTimeout => { s with heartbeatTimeoutMs := d.millis }
    | .closeTimeout => { s with closeTimeoutMs := d.millis }

end Builder

/-- How connecting went: the seed and the session, and what was tried and told on the way. -/
structure Connection where
  result : Except Failure (String × Session)
  /-- Given to the connection state callback so far. -/
  states : List Connectivity
  tried : List String
  elapsedMs : Nat

/-- Nothing is tried or told before the settings are found valid. -/
def Settings.connect (settings : Settings) (order : List String) (outcome : Nat → String → Attempt)
    (connectivity : Connectivity) : Connection :=
  match settings.validate with
  | .error f => ⟨.error (.config (.invalid f)), [], [], 0⟩
  | .ok () =>
    let d := connectSeeds settings.connectTimeoutMs.toNat outcome order
    match d.result with
    | .error f => ⟨.error f, [.connecting, .disconnected], d.tried, d.elapsedMs⟩
    | .ok seed => ⟨.ok (seed, .start settings connectivity d.elapsedMs), [.connecting], d.tried, d.elapsedMs⟩

end Roster
