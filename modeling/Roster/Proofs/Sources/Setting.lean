import Roster.Proofs.Sources.At
import Roster.Proofs.Sources.Override
import Roster.Proofs.Sources.Variable

/-! The single settings of a configuration: where a source has them, what they take, and that a tree with nothing else in
it is read as a configuration with just these. -/
namespace Roster

open Document Sources

/-- What a source can set on its own. -/
inductive Setting
  | seeds
  | connectTimeout | requestTimeout | heartbeatInterval | heartbeatTimeout | closeTimeout | healthCheckInterval
  | tcpKeepalive | keepAliveInterval | keepAliveTimeout | compression
  | maxRetries | probeTimeout | baseDelay | maxDelay
  deriving DecidableEq, Repr

namespace Setting

/-- The names that lead to a setting. -/
def keys : Setting → List String
  | seeds => ["seeds"]
  | connectTimeout => ["client", "connect_timeout_in_ms"]
  | requestTimeout => ["client", "request_timeout_in_ms"]
  | heartbeatInterval => ["client", "heartbeat_interval_in_ms"]
  | heartbeatTimeout => ["client", "heartbeat_timeout_in_ms"]
  | closeTimeout => ["client", "close_timeout_in_ms"]
  | healthCheckInterval => ["client", "health_check_interval_in_ms"]
  | tcpKeepalive => ["client", "tcp_keepalive_in_secs"]
  | keepAliveInterval => ["client", "http2_keep_alive_interval_in_secs"]
  | keepAliveTimeout => ["client", "http2_keep_alive_timeout_in_secs"]
  | compression => ["client", "enable_compression"]
  | maxRetries => ["client", "reconnect", "max_retries"]
  | probeTimeout => ["client", "reconnect", "timeout_ms"]
  | baseDelay => ["client", "reconnect", "base_delay_ms"]
  | maxDelay => ["client", "reconnect", "max_delay_ms"]

/-- How a variable names a setting. -/
def path (s : Setting) : String := ".".intercalate s.keys

/-- A value of a source as the value the setting gets from it, if it can have one. -/
def read : Setting → Document → Except ConfigFault Document
  | seeds, d => (lenient.list lenient.text d).map ofTexts
  | compression, d => (lenient.flag d).map .bool
  | _, d => (lenient.word d).map ofWord

/-- Whether a setting can get its value from a value of a source. -/
def Takes (s : Setting) (d : Document) : Prop := ∃ v, s.read d = .ok v

def all : List Setting :=
  [seeds, connectTimeout, requestTimeout, heartbeatInterval, heartbeatTimeout, closeTimeout, healthCheckInterval,
    tcpKeepalive, keepAliveInterval, keepAliveTimeout, compression, maxRetries, probeTimeout, baseDelay, maxDelay]

theorem mem_all (s : Setting) : s ∈ all := by cases s <;> decide

theorem plain_of_mem_keys (s : Setting) : ∀ key ∈ s.keys, Plain key := by
  have hall : ∀ s ∈ all, ∀ key ∈ s.keys, Plain key := by decide +kernel
  exact hall s s.mem_all

/-- No setting is inside another. -/
theorem eq_of_prefix {s t : Setting} (h : s.keys <+: t.keys) : s = t := by
  have hall : ∀ s ∈ all, ∀ t ∈ all, s.keys <+: t.keys → s = t := by decide +kernel
  exact hall s s.mem_all t t.mem_all h

theorem keys_injective {s t : Setting} (h : s.keys = t.keys) : s = t := eq_of_prefix (h ▸ List.prefix_rfl)

theorem keys_ne_nil (s : Setting) : s.keys ≠ [] := by cases s <;> exact List.cons_ne_nil _ _

/-- The tables that settings are in. -/
def sections : List (List String) := [["client"], ["client", "reconnect"]]

theorem not_prefix_of_mem_sections {keys : List String} (h : keys ∈ sections) (s : Setting) : ¬ s.keys <+: keys := by
  have hall : ∀ s ∈ all, ∀ keys ∈ sections, ¬ s.keys <+: keys := by decide +kernel
  exact hall s s.mem_all keys h

theorem not_prefix_filter (s : Setting) : ¬ s.keys <+: ["filter"] ∧ ¬ ["filter"] <+: s.keys := by
  have hall : ∀ s ∈ all, ¬ s.keys <+: ["filter"] ∧ ¬ ["filter"] <+: s.keys := by decide +kernel
  exact hall s s.mem_all

theorem ne_table_of_takes {s : Setting} {d : Document} (h : s.Takes d) (es : List (String × Document)) : d ≠ .table es := by
  rintro rfl
  obtain ⟨v, hv⟩ := h
  cases s <;> exact nomatch hv

end Setting

namespace Configuration

def value (c : Configuration) : Setting → Document
  | .seeds => ofTexts c.seeds
  | .connectTimeout => ofWord c.client.connectTimeoutMs
  | .requestTimeout => ofWord c.client.requestTimeoutMs
  | .heartbeatInterval => ofWord c.client.heartbeatIntervalMs
  | .heartbeatTimeout => ofWord c.client.heartbeatTimeoutMs
  | .closeTimeout => ofWord c.client.closeTimeoutMs
  | .healthCheckInterval => ofWord c.client.healthCheckIntervalMs
  | .tcpKeepalive => ofWord c.client.tcpKeepaliveSecs
  | .keepAliveInterval => ofWord c.client.keepAliveIntervalSecs
  | .keepAliveTimeout => ofWord c.client.keepAliveTimeoutSecs
  | .compression => .bool c.client.compression
  | .maxRetries => ofWord c.client.reconnect.maxRetries
  | .probeTimeout => ofWord c.client.reconnect.timeoutMs
  | .baseDelay => ofWord c.client.reconnect.baseDelayMs
  | .maxDelay => ofWord c.client.reconnect.maxDelayMs

end Configuration

/-! Reading settings -/

variable {β : Type} {es : List (String × Document)} {name : String} {read : Document → Except ConfigFault β} {default b : β}

/-- A tree in which every setting has a value it can take, and nothing else is. -/
structure Proper (root : Document) : Prop where
  table : IsTable root
  takes : ∀ s d, at? (Setting.keys s) root = some d → s.Takes d
  sections : ∀ keys ∈ Setting.sections, ∀ d, at? keys root = some d → IsTable d
  filter : ∀ d, at? ["filter"] root = some d → d = .null

variable {root d : Document} {c : Configuration}

end Roster
