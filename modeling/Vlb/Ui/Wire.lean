import Vlb.Health
import Vlb.Lib.Serde
import Vlb.Lib.Time

/-!
# What the control socket answers

Every answer of the daemon is one JSON value. The client reads it as the same types. What is in an
answer is read from objects here, which is all that the daemon writes.

* `Response`: the answers, and what is in them.
* The instances of `Serde`: how each type is written and read. Whatever has no number of `f64` or
  `f32` in it is read as it was written.
-/

namespace Vlb.Control

open Serde Time

/-! ## Numbers and times -/

/-- A 64-bit float, by its bits. -/
structure F64 where
  bits : UInt64
  deriving DecidableEq

/-- A 32-bit float, by its bits. -/
structure F32 where
  bits : UInt32
  deriving DecidableEq

/-- How `serde_json` writes and reads floats, and what the program computes with them. -/
class Floats where
  format64 : Format F64
  format32 : Format F32
  /-- `as f64`. -/
  ofInt : ℤ → F64
  isPositive : F64 → Bool
  mul : F64 → F64 → F64
  div : F64 → F64 → F64
  max : F64 → F64 → F64
  clamp : F64 → F64 → F64 → F64

/-- How chrono writes times. -/
class Chrono where
  /-- `to_rfc3339`. -/
  rfc3339 : DateTime → String
  /-- As a value of JSON. -/
  text : DateTime → String
  parse : String → Option DateTime
  parse_text : ∀ t, parse (text t) = some t

instance [Floats] : Serde F64 := Floats.format64.serde

instance [Floats] : Serde F32 := Floats.format32.serde

instance [Chrono] : Serde DateTime where
  serialize t := .str (Chrono.text t)
  deserialize
    | .str s => Chrono.parse s
    | _ => none
  deserialize_null := rfl
  Faithful _ := True
  deserialize_serialize_iff t := by simp [Chrono.parse_text]

instance [Chrono] : Exact DateTime := ⟨fun _ => trivial⟩

/-! ## The samples -/

structure FailoverEventWire where
  ts : String
  from_ : Option String
  to_ : String
  reason : String
  deriving DecidableEq

instance : Serde FailoverEventWire where
  serialize e := .obj [("ts", serialize e.ts), ("from", serializeOption e.from_), ("to", serialize e.to_),
    ("reason", serialize e.reason)]
  deserialize
    | .obj fields => do
      let ts ← required fields "ts"
      let from_ ← optional fields "from"
      let to_ ← required fields "to"
      let reason ← required fields "reason"
      return { ts, from_, to_, reason }
    | _ => none
  deserialize_null := rfl
  Faithful _ := True
  deserialize_serialize_iff e := by simp

instance : Exact FailoverEventWire := ⟨fun _ => trivial⟩

structure TrafficPointWire where
  ts : String
  intervalS : F64
  rxBytes : UInt64
  rxPackets : UInt64
  txBytes : UInt64
  txPackets : UInt64
  deriving DecidableEq

instance [Floats] : Serde TrafficPointWire where
  serialize p := .obj [("ts", serialize p.ts), ("interval_s", serialize p.intervalS),
    ("rx_bytes", serialize p.rxBytes), ("rx_packets", serialize p.rxPackets),
    ("tx_bytes", serialize p.txBytes), ("tx_packets", serialize p.txPackets)]
  deserialize
    | .obj fields => do
      let ts ← required fields "ts"
      let intervalS ← required fields "interval_s"
      let rxBytes ← required fields "rx_bytes"
      let rxPackets ← required fields "rx_packets"
      let txBytes ← required fields "tx_bytes"
      let txPackets ← required fields "tx_packets"
      return { ts, intervalS, rxBytes, rxPackets, txBytes, txPackets }
    | _ => none
  deserialize_null := rfl
  Faithful p := Faithful p.intervalS
  deserialize_serialize_iff p := by
    cases p
    simp [Option.bind_eq_some_iff, deserialize_serialize_iff]

/-- What `sysmon` has measured. -/
structure SysSample where
  cpuTotal : F32
  cpuPerCore : List F32
  memTotal : UInt64
  memUsed : UInt64
  memAvailable : UInt64
  swapTotal : UInt64
  swapUsed : UInt64
  load1 : F64
  load5 : F64
  load15 : F64
  netRxBytes : UInt64
  netTxBytes : UInt64
  diskTotal : UInt64
  diskUsed : UInt64
  uptimeS : UInt64
  procs : UInt64
  deriving DecidableEq

instance [Floats] : Serde SysSample where
  serialize s := .obj [("cpu_total", serialize s.cpuTotal), ("cpu_per_core", serialize s.cpuPerCore),
    ("mem_total", serialize s.memTotal), ("mem_used", serialize s.memUsed),
    ("mem_available", serialize s.memAvailable), ("swap_total", serialize s.swapTotal),
    ("swap_used", serialize s.swapUsed), ("load1", serialize s.load1), ("load5", serialize s.load5),
    ("load15", serialize s.load15), ("net_rx_bytes", serialize s.netRxBytes),
    ("net_tx_bytes", serialize s.netTxBytes), ("disk_total", serialize s.diskTotal),
    ("disk_used", serialize s.diskUsed), ("uptime_s", serialize s.uptimeS), ("procs", serialize s.procs)]
  deserialize
    | .obj fields => do
      let cpuTotal ← required fields "cpu_total"
      let cpuPerCore ← required fields "cpu_per_core"
      let memTotal ← required fields "mem_total"
      let memUsed ← required fields "mem_used"
      let memAvailable ← required fields "mem_available"
      let swapTotal ← required fields "swap_total"
      let swapUsed ← required fields "swap_used"
      let load1 ← required fields "load1"
      let load5 ← required fields "load5"
      let load15 ← required fields "load15"
      let netRxBytes ← required fields "net_rx_bytes"
      let netTxBytes ← required fields "net_tx_bytes"
      let diskTotal ← required fields "disk_total"
      let diskUsed ← required fields "disk_used"
      let uptimeS ← required fields "uptime_s"
      let procs ← required fields "procs"
      return { cpuTotal, cpuPerCore, memTotal, memUsed, memAvailable, swapTotal, swapUsed, load1, load5,
               load15, netRxBytes, netTxBytes, diskTotal, diskUsed, uptimeS, procs }
    | _ => none
  deserialize_null := rfl
  Faithful s := Faithful s.cpuTotal ∧ Faithful s.cpuPerCore ∧ Faithful s.load1 ∧ Faithful s.load5 ∧
    Faithful s.load15
  deserialize_serialize_iff s := by
    cases s
    simp [Option.bind_eq_some_iff, deserialize_serialize_iff]

structure SystemPointWire where
  ts : String
  sample : SysSample
  deriving DecidableEq

instance [Floats] : Serde SystemPointWire where
  serialize p := .obj [("ts", serialize p.ts), ("sample", serialize p.sample)]
  deserialize
    | .obj fields => do
      let ts ← required fields "ts"
      let sample ← required fields "sample"
      return { ts, sample }
    | _ => none
  deserialize_null := rfl
  Faithful p := Faithful p.sample
  deserialize_serialize_iff p := by
    cases p
    simp [Option.bind_eq_some_iff, deserialize_serialize_iff]

/-! ## The providers -/

instance : Serde HealthState where
  serialize
    | .up => .str "up"
    | .down => .str "down"
    | .unknown => .str "unknown"
  deserialize
    | .str "up" => some .up
    | .str "down" => some .down
    | .str "unknown" => some .unknown
    | _ => none
  deserialize_null := rfl
  Faithful _ := True
  deserialize_serialize_iff s := by cases s <;> simp

instance : Exact HealthState := ⟨fun _ => trivial⟩

instance : Serde FailureLayer where
  serialize
    | .gateway => .str "gateway"
    | .internet => .str "internet"
    | .dns => .str "dns"
    | .dnsHijack => .str "dns_hijack"
    | .contentTampered => .str "content_tampered"
    | .contentUnreachable => .str "content_unreachable"
    | .throttled => .str "throttled"
  deserialize
    | .str "gateway" => some .gateway
    | .str "internet" => some .internet
    | .str "dns" => some .dns
    | .str "dns_hijack" => some .dnsHijack
    | .str "content_tampered" => some .contentTampered
    | .str "content_unreachable" => some .contentUnreachable
    | .str "throttled" => some .throttled
    | _ => none
  deserialize_null := rfl
  Faithful _ := True
  deserialize_serialize_iff l := by cases l <;> simp

instance : Exact FailureLayer := ⟨fun _ => trivial⟩

structure ProviderSnapshot where
  name : String
  gateway : String
  interface : String
  priority : UInt32
  role : String
  state : HealthState
  lastLatencyMs : Option F64
  lastCheck : Option DateTime
  consecutiveFailures : UInt32
  consecutiveSuccesses : UInt32
  upSince : Option DateTime
  failureLayer : Option FailureLayer
  failureDetail : Option String
  canaryOk : Bool
  lastCanaryAt : Option DateTime
  lastCanarySummary : Option String
  throughputOk : Bool
  lastThroughputAt : Option DateTime
  lastThroughputSummary : Option String
  pinnedConnections : Option UInt64
  deriving DecidableEq

instance [Floats] [Chrono] : Serde ProviderSnapshot where
  serialize p := .obj [("name", serialize p.name), ("gateway", serialize p.gateway),
    ("interface", serialize p.interface), ("priority", serialize p.priority),
    ("role", serialize p.role), ("state", serialize p.state),
    ("last_latency_ms", serializeOption p.lastLatencyMs), ("last_check", serializeOption p.lastCheck),
    ("consecutive_failures", serialize p.consecutiveFailures),
    ("consecutive_successes", serialize p.consecutiveSuccesses),
    ("up_since", serializeOption p.upSince), ("failure_layer", serializeOption p.failureLayer),
    ("failure_detail", serializeOption p.failureDetail), ("canary_ok", serialize p.canaryOk),
    ("last_canary_at", serializeOption p.lastCanaryAt),
    ("last_canary_summary", serializeOption p.lastCanarySummary),
    ("throughput_ok", serialize p.throughputOk),
    ("last_throughput_at", serializeOption p.lastThroughputAt),
    ("last_throughput_summary", serializeOption p.lastThroughputSummary),
    ("pinned_connections", serializeOption p.pinnedConnections)]
  deserialize
    | .obj fields => do
      let name ← required fields "name"
      let gateway ← required fields "gateway"
      let interface ← required fields "interface"
      let priority ← required fields "priority"
      let role ← required fields "role"
      let state ← required fields "state"
      let lastLatencyMs ← optional fields "last_latency_ms"
      let lastCheck ← optional fields "last_check"
      let consecutiveFailures ← required fields "consecutive_failures"
      let consecutiveSuccesses ← required fields "consecutive_successes"
      let upSince ← optional fields "up_since"
      let failureLayer ← optional fields "failure_layer"
      let failureDetail ← optional fields "failure_detail"
      let canaryOk ← defaulted false fields "canary_ok"
      let lastCanaryAt ← optional fields "last_canary_at"
      let lastCanarySummary ← optional fields "last_canary_summary"
      let throughputOk ← defaulted false fields "throughput_ok"
      let lastThroughputAt ← optional fields "last_throughput_at"
      let lastThroughputSummary ← optional fields "last_throughput_summary"
      let pinnedConnections ← optional fields "pinned_connections"
      return { name, gateway, interface, priority, role, state, lastLatencyMs, lastCheck,
               consecutiveFailures, consecutiveSuccesses, upSince, failureLayer, failureDetail,
               canaryOk, lastCanaryAt, lastCanarySummary, throughputOk, lastThroughputAt,
               lastThroughputSummary, pinnedConnections }
    | _ => none
  deserialize_null := rfl
  Faithful p := ∀ ms ∈ p.lastLatencyMs, Faithful ms
  deserialize_serialize_iff p := by
    cases p
    simp [Option.bind_eq_some_iff, deserializeOption_serializeOption_iff]

/-- A better provider has to prove itself stable first. -/
structure FailbackPending where
  candidate : String
  stableForSecs : UInt64
  requiredSecs : UInt64
  deriving DecidableEq

instance : Serde FailbackPending where
  serialize p := .obj [("candidate", serialize p.candidate),
    ("stable_for_secs", serialize p.stableForSecs), ("required_secs", serialize p.requiredSecs)]
  deserialize
    | .obj fields => do
      let candidate ← required fields "candidate"
      let stableForSecs ← required fields "stable_for_secs"
      let requiredSecs ← required fields "required_secs"
      return { candidate, stableForSecs, requiredSecs }
    | _ => none
  deserialize_null := rfl
  Faithful _ := True
  deserialize_serialize_iff p := by simp

instance : Exact FailbackPending := ⟨fun _ => trivial⟩

/-- The answer to a status request. -/
structure ControlSnapshot where
  active : Option String
  forced : Option String
  providers : List ProviderSnapshot
  version : String
  startedAt : Option DateTime
  activeAdopted : Bool
  kernelRoute : Option String
  failbackPending : Option FailbackPending
  deriving DecidableEq

instance [Floats] [Chrono] : Serde ControlSnapshot where
  serialize s := .obj [("active", serializeOption s.active), ("forced", serializeOption s.forced),
    ("providers", serialize s.providers), ("version", serialize s.version),
    ("started_at", serializeOption s.startedAt), ("active_adopted", serialize s.activeAdopted),
    ("kernel_route", serializeOption s.kernelRoute),
    ("failback_pending", serializeOption s.failbackPending)]
  deserialize
    | .obj fields => do
      let active ← optional fields "active"
      let forced ← optional fields "forced"
      let providers ← required fields "providers"
      let version ← defaulted "" fields "version"
      let startedAt ← optional fields "started_at"
      let activeAdopted ← defaulted false fields "active_adopted"
      let kernelRoute ← optional fields "kernel_route"
      let failbackPending ← optional fields "failback_pending"
      return { active, forced, providers, version, startedAt, activeAdopted, kernelRoute,
               failbackPending }
    | _ => none
  deserialize_null := rfl
  Faithful s := Faithful s.providers
  deserialize_serialize_iff s := by
    cases s
    simp [Option.bind_eq_some_iff, deserialize_serialize_iff]

/-! ## The clients -/

structure ClientInfo where
  ip : String
  mac : Option String
  hostname : Option String
  label : Option String
  online : Bool
  firstSeen : Option DateTime
  lastSeen : Option DateTime
  rxBps : F64
  txBps : F64
  rxBytes : Int64
  txBytes : Int64
  disconnects : Int64
  onlineSecs : Int64
  sessionSecs : Option Int64
  deriving DecidableEq

instance [Floats] [Chrono] : Serde ClientInfo where
  serialize c := .obj [("ip", serialize c.ip), ("mac", serializeOption c.mac),
    ("hostname", serializeOption c.hostname), ("label", serializeOption c.label),
    ("online", serialize c.online), ("first_seen", serializeOption c.firstSeen),
    ("last_seen", serializeOption c.lastSeen), ("rx_bps", serialize c.rxBps),
    ("tx_bps", serialize c.txBps), ("rx_bytes", serialize c.rxBytes), ("tx_bytes", serialize c.txBytes),
    ("disconnects", serialize c.disconnects), ("online_secs", serialize c.onlineSecs),
    ("session_secs", serializeOption c.sessionSecs)]
  deserialize
    | .obj fields => do
      let ip ← required fields "ip"
      let mac ← optional fields "mac"
      let hostname ← optional fields "hostname"
      let label ← optional fields "label"
      let online ← required fields "online"
      let firstSeen ← optional fields "first_seen"
      let lastSeen ← optional fields "last_seen"
      let rxBps ← required fields "rx_bps"
      let txBps ← required fields "tx_bps"
      let rxBytes ← required fields "rx_bytes"
      let txBytes ← required fields "tx_bytes"
      let disconnects ← required fields "disconnects"
      let onlineSecs ← required fields "online_secs"
      let sessionSecs ← optional fields "session_secs"
      return { ip, mac, hostname, label, online, firstSeen, lastSeen, rxBps, txBps, rxBytes, txBytes,
               disconnects, onlineSecs, sessionSecs }
    | _ => none
  deserialize_null := rfl
  Faithful c := Faithful c.rxBps ∧ Faithful c.txBps
  deserialize_serialize_iff c := by
    cases c
    simp [Option.bind_eq_some_iff, deserialize_serialize_iff]

structure ClientSessionInfo where
  startedAt : DateTime
  endedAt : Option DateTime
  durationSecs : Int64
  gapBeforeSecs : Option Int64
  rxBytes : Int64
  txBytes : Int64
  deriving DecidableEq

instance [Chrono] : Serde ClientSessionInfo where
  serialize s := .obj [("started_at", serialize s.startedAt), ("ended_at", serializeOption s.endedAt),
    ("duration_secs", serialize s.durationSecs), ("gap_before_secs", serializeOption s.gapBeforeSecs),
    ("rx_bytes", serialize s.rxBytes), ("tx_bytes", serialize s.txBytes)]
  deserialize
    | .obj fields => do
      let startedAt ← required fields "started_at"
      let endedAt ← optional fields "ended_at"
      let durationSecs ← required fields "duration_secs"
      let gapBeforeSecs ← optional fields "gap_before_secs"
      let rxBytes ← required fields "rx_bytes"
      let txBytes ← required fields "tx_bytes"
      return { startedAt, endedAt, durationSecs, gapBeforeSecs, rxBytes, txBytes }
    | _ => none
  deserialize_null := rfl
  Faithful _ := True
  deserialize_serialize_iff s := by simp

instance [Chrono] : Exact ClientSessionInfo := ⟨fun _ => trivial⟩

structure ClientTrafficPoint where
  ts : DateTime
  rxBps : F64
  txBps : F64
  deriving DecidableEq

instance [Floats] [Chrono] : Serde ClientTrafficPoint where
  serialize p := .obj [("ts", serialize p.ts), ("rx_bps", serialize p.rxBps),
    ("tx_bps", serialize p.txBps)]
  deserialize
    | .obj fields => do
      let ts ← required fields "ts"
      let rxBps ← required fields "rx_bps"
      let txBps ← required fields "tx_bps"
      return { ts, rxBps, txBps }
    | _ => none
  deserialize_null := rfl
  Faithful p := Faithful p.rxBps ∧ Faithful p.txBps
  deserialize_serialize_iff p := by
    cases p
    simp [Option.bind_eq_some_iff, deserialize_serialize_iff]

/-- All about one client. -/
structure ClientDetail where
  client : ClientInfo
  windowHours : UInt32
  samples : List ClientTrafficPoint
  sessions : List ClientSessionInfo
  peakRxBps : F64
  peakTxBps : F64
  avgRxBps : F64
  avgTxBps : F64
  longestSessionSecs : Int64
  availabilityPct : F64
  deriving DecidableEq

instance [Floats] [Chrono] : Serde ClientDetail where
  serialize d := .obj [("client", serialize d.client), ("window_hours", serialize d.windowHours),
    ("samples", serialize d.samples), ("sessions", serialize d.sessions),
    ("peak_rx_bps", serialize d.peakRxBps), ("peak_tx_bps", serialize d.peakTxBps),
    ("avg_rx_bps", serialize d.avgRxBps), ("avg_tx_bps", serialize d.avgTxBps),
    ("longest_session_secs", serialize d.longestSessionSecs),
    ("availability_pct", serialize d.availabilityPct)]
  deserialize
    | .obj fields => do
      let client ← required fields "client"
      let windowHours ← required fields "window_hours"
      let samples ← required fields "samples"
      let sessions ← required fields "sessions"
      let peakRxBps ← required fields "peak_rx_bps"
      let peakTxBps ← required fields "peak_tx_bps"
      let avgRxBps ← required fields "avg_rx_bps"
      let avgTxBps ← required fields "avg_tx_bps"
      let longestSessionSecs ← required fields "longest_session_secs"
      let availabilityPct ← required fields "availability_pct"
      return { client, windowHours, samples, sessions, peakRxBps, peakTxBps, avgRxBps, avgTxBps,
               longestSessionSecs, availabilityPct }
    | _ => none
  deserialize_null := rfl
  Faithful d := Faithful d.client ∧ Faithful d.samples ∧ Faithful d.peakRxBps ∧ Faithful d.peakTxBps ∧
    Faithful d.avgRxBps ∧ Faithful d.avgTxBps ∧ Faithful d.availabilityPct
  deserialize_serialize_iff d := by
    cases d
    simp [Option.bind_eq_some_iff, deserialize_serialize_iff]

/-! ## The answers -/

/-- What the daemon answers. -/
inductive Response
  | status (snapshot : ControlSnapshot)
  | ok (message : String)
  /-- The points may be the total of an interface that several providers share. -/
  | traffic (points : List TrafficPointWire) (interfaceTotal : Option String)
  | system (points : List SystemPointWire)
  | events (events : List FailoverEventWire)
  | clients (clients : List ClientInfo)
  | clientDetail (detail : ClientDetail)
  | error (error : String)
  deriving DecidableEq

/-- An answer of this kind. -/
def tagged (kind : String) (fields : List (String × Json)) : Json :=
  .obj (("kind", serialize kind) :: fields)

instance [Floats] [Chrono] : Serde Response where
  serialize
    | .status snapshot => tagged "status" [("snapshot", serialize snapshot)]
    | .ok message => tagged "ok" [("message", serialize message)]
    | .traffic points interfaceTotal => tagged "traffic" (("points", serialize points) ::
        (interfaceTotal.map fun iface => ("interface_total", serialize iface)).toList)
    | .system points => tagged "system" [("points", serialize points)]
    | .events events => tagged "events" [("events", serialize events)]
    | .clients clients => tagged "clients" [("clients", serialize clients)]
    | .clientDetail detail => tagged "clientdetail" [("detail", serialize detail)]
    | .error error => tagged "error" [("error", serialize error)]
  deserialize j := do
    let (kind, content) ← variant "kind" j
    match kind with
    | "status" => return .status (← required (← content.named ["snapshot"]) "snapshot")
    | "ok" => return .ok (← required (← content.named ["message"]) "message")
    | "traffic" => do
      let fields ← content.named ["points", "interface_total"]
      return .traffic (← required fields "points") (← optional fields "interface_total")
    | "system" => return .system (← required (← content.named ["points"]) "points")
    | "events" => return .events (← required (← content.named ["events"]) "events")
    | "clients" => return .clients (← required (← content.named ["clients"]) "clients")
    | "clientdetail" => return .clientDetail (← required (← content.named ["detail"]) "detail")
    | "error" => return .error (← required (← content.named ["error"]) "error")
    | _ => none
  deserialize_null := rfl
  Faithful
    | .status snapshot => Faithful snapshot
    | .traffic points _ => Faithful points
    | .system points => Faithful points
    | .clients clients => Faithful clients
    | .clientDetail detail => Faithful detail
    | .ok _ | .events _ | .error _ => True
  deserialize_serialize_iff r := by
    cases r with
    | traffic points interfaceTotal =>
      cases interfaceTotal <;> simp [tagged, variant, Content.named, single, Option.bind_eq_some_iff,
        deserialize_serialize_iff]
    | _ =>
      simp [tagged, variant, Content.named, single, Option.bind_eq_some_iff, deserialize_serialize_iff]

end Vlb.Control
