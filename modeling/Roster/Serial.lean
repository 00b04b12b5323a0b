import Roster.Document
import Roster.Settings

/-! Serialised forms of the domain types, and how they are read back. -/
namespace Roster

open Document (Reader)

namespace Member

def fields : List String := ["id", "service", "locality", "started", "revision", "metadata"]

def toDocument (m : Member) : Document :=
  .table [("id", .text m.id), ("service", .text m.service), ("locality", .text m.locality),
    ("started", .int m.started.toInt), ("revision", .text m.revision),
    ("metadata", Document.ofKeyed .text m.metadata)]

def ofDocument (d : Document) : Except Unit Member := do
  let r := Document.strict
  let get ← r.parts "struct Member" fields d
  return {
    id := ← r.part get "id" r.text none
    service := ← r.part get "service" r.text none
    locality := ← r.part get "locality" r.text none
    started := ← r.part get "started" Document.signed none
    revision := ← r.part get "revision" r.text none
    metadata := ← r.part get "metadata" (r.keyed r.text) none }

end Member

namespace Version

def fields : List String := ["owner_id", "timestamp"]

def toDocument (v : Version) : Document :=
  .table [("owner_id", .text v.ownerId), ("timestamp", .ofWord v.timestamp)]

def ofDocument (d : Document) : Except Unit Version := do
  let r := Document.strict
  let get ← r.parts "struct Version" fields d
  return {
    ownerId := ← r.part get "owner_id" r.text none
    timestamp := ← r.part get "timestamp" r.word none }

end Version

variable {ε : Type} (r : Reader ε)

namespace MetadataFilter

def toDocument (f : MetadataFilter) : Document := Document.ofKeyed .ofTexts f

def read (d : Document) : Except ε MetadataFilter := r.keyed (r.list r.text) d

end MetadataFilter

namespace ServiceFilter

def fields : List String := ["locality", "metadata"]

def toDocument (f : ServiceFilter) : Document :=
  .table [("locality", f.locality.elim .null .ofTexts), ("metadata", f.metadata.toDocument)]

def read (d : Document) : Except ε ServiceFilter := do
  let get ← r.parts "struct ServiceFilter" fields d
  return {
    locality := ← r.part get "locality" (Document.optional (r.list r.text)) (some none)
    metadata := ← r.part get "metadata" (MetadataFilter.read r) (some ∅) }

end ServiceFilter

namespace Filter

def toDocument (f : Filter) : Document := Document.ofKeyed ServiceFilter.toDocument f

def read (d : Document) : Except ε Filter := r.keyed (ServiceFilter.read r) d

end Filter

namespace Backoff

def fields : List String := ["max_retries", "timeout_ms", "base_delay_ms", "max_delay_ms"]

def toDocument (b : Backoff) : Document :=
  .table [("max_retries", .ofWord b.maxRetries), ("timeout_ms", .ofWord b.timeoutMs),
    ("base_delay_ms", .ofWord b.baseDelayMs), ("max_delay_ms", .ofWord b.maxDelayMs)]

def read (d : Document) : Except ε Backoff := do
  let get ← r.parts "struct BackoffPolicy" fields d
  let base : Backoff := {}
  return {
    maxRetries := ← r.part get "max_retries" r.word (some base.maxRetries)
    timeoutMs := ← r.part get "timeout_ms" r.word (some base.timeoutMs)
    baseDelayMs := ← r.part get "base_delay_ms" r.word (some base.baseDelayMs)
    maxDelayMs := ← r.part get "max_delay_ms" r.word (some base.maxDelayMs) }

end Backoff

namespace Settings

def fields : List String :=
  ["connect_timeout_in_ms", "request_timeout_in_ms", "heartbeat_interval_in_ms",
    "heartbeat_timeout_in_ms", "close_timeout_in_ms", "health_check_interval_in_ms",
    "tcp_keepalive_in_secs", "http2_keep_alive_interval_in_secs",
    "http2_keep_alive_timeout_in_secs", "enable_compression", "reconnect"]

def toDocument (s : Settings) : Document :=
  .table [("connect_timeout_in_ms", .ofWord s.connectTimeoutMs),
    ("request_timeout_in_ms", .ofWord s.requestTimeoutMs),
    ("heartbeat_interval_in_ms", .ofWord s.heartbeatIntervalMs),
    ("heartbeat_timeout_in_ms", .ofWord s.heartbeatTimeoutMs),
    ("close_timeout_in_ms", .ofWord s.closeTimeoutMs),
    ("health_check_interval_in_ms", .ofWord s.healthCheckIntervalMs),
    ("tcp_keepalive_in_secs", .ofWord s.tcpKeepaliveSecs),
    ("http2_keep_alive_interval_in_secs", .ofWord s.keepAliveIntervalSecs),
    ("http2_keep_alive_timeout_in_secs", .ofWord s.keepAliveTimeoutSecs),
    ("enable_compression", .bool s.compression), ("reconnect", s.reconnect.toDocument)]

def read (d : Document) : Except ε Settings := do
  let get ← r.parts "struct ClientConfig" fields d
  let base : Settings := {}
  return {
    connectTimeoutMs := ← r.part get "connect_timeout_in_ms" r.word (some base.connectTimeoutMs)
    requestTimeoutMs := ← r.part get "request_timeout_in_ms" r.word (some base.requestTimeoutMs)
    heartbeatIntervalMs :=
      ← r.part get "heartbeat_interval_in_ms" r.word (some base.heartbeatIntervalMs)
    heartbeatTimeoutMs :=
      ← r.part get "heartbeat_timeout_in_ms" r.word (some base.heartbeatTimeoutMs)
    closeTimeoutMs := ← r.part get "close_timeout_in_ms" r.word (some base.closeTimeoutMs)
    healthCheckIntervalMs :=
      ← r.part get "health_check_interval_in_ms" r.word (some base.healthCheckIntervalMs)
    tcpKeepaliveSecs := ← r.part get "tcp_keepalive_in_secs" r.word (some base.tcpKeepaliveSecs)
    keepAliveIntervalSecs :=
      ← r.part get "http2_keep_alive_interval_in_secs" r.word (some base.keepAliveIntervalSecs)
    keepAliveTimeoutSecs :=
      ← r.part get "http2_keep_alive_timeout_in_secs" r.word (some base.keepAliveTimeoutSecs)
    compression := ← r.part get "enable_compression" r.flag (some base.compression)
    reconnect := ← r.part get "reconnect" (Backoff.read r) (some base.reconnect) }

end Settings

namespace Configuration

def fields : List String := ["seeds", "client", "filter"]

def toDocument (c : Configuration) : Document :=
  .table [("seeds", .ofTexts c.seeds), ("client", c.client.toDocument),
    ("filter", c.filter.elim .null Filter.toDocument)]

def read (d : Document) : Except ε Configuration := do
  let get ← r.parts "struct FuddleConfig" fields d
  return {
    seeds := ← r.part get "seeds" (r.list r.text) (some [])
    client := ← r.part get "client" (Settings.read r) (some {})
    filter := ← r.part get "filter" (Document.optional (Filter.read r)) (some none) }

end Configuration

end Roster
