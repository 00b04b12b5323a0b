import Roster.Backoff
import Roster.Filter
import Roster.Text.Blank

/-! What a client is configured with, and when that is usable. -/
namespace Roster

structure Settings where
  connectTimeoutMs : UInt64 := 1000
  requestTimeoutMs : UInt64 := 3000
  heartbeatIntervalMs : UInt64 := 1000
  heartbeatTimeoutMs : UInt64 := 1000
  closeTimeoutMs : UInt64 := 1000
  healthCheckIntervalMs : UInt64 := 1000
  tcpKeepaliveSecs : UInt64 := 300
  keepAliveIntervalSecs : UInt64 := 60
  keepAliveTimeoutSecs : UInt64 := 20
  compression : Bool := true
  reconnect : Backoff := {}
  deriving DecidableEq, Repr

/-- The seeds, the client section and the optional filter of a configuration. -/
structure Configuration where
  seeds : List String := []
  client : Settings := {}
  filter : Option Filter := none
  deriving DecidableEq, Repr

/-- Settings that must be positive. -/
inductive PositiveSetting
  | connectTimeout | requestTimeout | heartbeatInterval | heartbeatTimeout | healthCheckInterval
  | probeTimeout | baseDelay
  deriving DecidableEq, Repr

def PositiveSetting.label : PositiveSetting → String
  | connectTimeout => "connect timeout"
  | requestTimeout => "request timeout"
  | heartbeatInterval => "heartbeat interval"
  | heartbeatTimeout => "heartbeat timeout"
  | healthCheckInterval => "health check interval"
  | probeTimeout => "backoff timeout_ms"
  | baseDelay => "backoff base_delay_ms"

inductive SettingsFault
  | notPositive (setting : PositiveSetting)
  | keepAliveTimeout (timeout interval : UInt64)
  | maxDelay (max base : UInt64)
  | blankSeed
  deriving DecidableEq, Repr

def SettingsFault.message : SettingsFault → String
  | notPositive s => s.label ++ " must be > 0"
  | keepAliveTimeout t i => s!"keepalive timeout {t}s must be < interval {i}s"
  | maxDelay m b => s!"backoff max_delay_ms {m} must be >= base_delay_ms {b}"
  | blankSeed => "seed addresses must not be empty"

def requirePositive (s : PositiveSetting) (value : UInt64) : Except SettingsFault Unit :=
  if value = 0 then .error (.notPositive s) else .ok ()

def Backoff.validate (b : Backoff) : Except SettingsFault Unit := do
  requirePositive .probeTimeout b.timeoutMs
  requirePositive .baseDelay b.baseDelayMs
  if b.maxDelayMs < b.baseDelayMs then throw (.maxDelay b.maxDelayMs b.baseDelayMs)

def Settings.validate (s : Settings) : Except SettingsFault Unit := do
  requirePositive .connectTimeout s.connectTimeoutMs
  requirePositive .requestTimeout s.requestTimeoutMs
  requirePositive .heartbeatInterval s.heartbeatIntervalMs
  requirePositive .heartbeatTimeout s.heartbeatTimeoutMs
  requirePositive .healthCheckInterval s.healthCheckIntervalMs
  if s.keepAliveIntervalSecs ≤ s.keepAliveTimeoutSecs then
    throw (.keepAliveTimeout s.keepAliveTimeoutSecs s.keepAliveIntervalSecs)
  s.reconnect.validate

def Configuration.validate (c : Configuration) : Except SettingsFault Unit := do
  if c.seeds.any Text.allBlank then throw .blankSeed
  c.client.validate

end Roster
