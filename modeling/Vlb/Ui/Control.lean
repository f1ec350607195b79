import Vlb.Balancer.Clients
import Vlb.Net.Canary
import Vlb.Ui.Size

/-!
# The control socket

A connection carries one request and one answer, each on a line of its own. The daemon puts the answer
together from its live state and from its database, and limits the number of rows in it; the client
takes as many bytes of it as it is prepared to read.

* `Daemon`: what an answer is made of.
* `Daemon.snapshot`, `Daemon.recentTraffic`, `Daemon.clientDetail` and the like: the queries.
* `dispatch`: the answer to a request.
* `answerLine`, `receive`: the line that is written, and what the client makes of it.
* `delivered_iff`: an answer that is short enough reaches the client.
-/

namespace Vlb.Control

open Entries Json Serde Text Time

/-! ## Requests -/

inductive Request
  | status
  | force (provider : String)
  | auto
  | traffic (provider : String) (limit : UInt32)
  | system (limit : UInt32)
  | events (limit : UInt32)
  | clients (hours : UInt32)
  | clientDetail (ip : String) (hours limit : UInt32)
  deriving DecidableEq

/-! ## The database -/

structure TrafficPoint where
  ts : DateTime
  intervalS : F64
  rxBytes : UInt64
  rxPackets : UInt64
  txBytes : UInt64
  txPackets : UInt64

/-- A row of `traffic_samples`. The total of an interface is under an empty provider. -/
structure TrafficRow extends TrafficPoint where
  provider : String
  interface : String

structure SystemPoint where
  ts : DateTime
  sample : SysSample

structure FailoverEvent where
  ts : DateTime
  fromProvider : Option String
  toProvider : String
  reason : String

structure ClientRow where
  ip : String
  mac : Option String
  hostname : Option String
  label : Option String
  firstSeen : DateTime
  lastSeen : DateTime

structure ClientRollup where
  rxBytes : Int64 := 0
  txBytes : Int64 := 0
  disconnects : Int64 := 0
  onlineSecs : Int64 := 0

structure ClientSamplePoint where
  ts : DateTime
  intervalS : F64
  rxBytes : UInt64
  txBytes : UInt64

structure ClientSessionRow where
  ip : String
  startedAt : DateTime
  /-- Missing while the session is open. -/
  endedAt : Option DateTime
  rxBytes : Int64
  txBytes : Int64

/-- What the queries find, or how they fail: the rows of each table, the oldest first. A stored time
that cannot be read is taken for the current one. -/
structure Database where
  trafficSamples : Except String (List TrafficRow)
  systemSamples : Except String (List SystemPoint)
  failoverEvents : Except String (List FailoverEvent)
  /-- Whoever was seen last comes first here. -/
  clients : Except String (List ClientRow)
  /-- The totals of the clients in the last hours. -/
  clientRollup : UInt32 → Except String (HashMap String ClientRollup)
  /-- The samples of a client in the last hours. -/
  clientSamples : String → UInt32 → Except String (List ClientSamplePoint)
  clientSessions : Except String (List ClientSessionRow)

/-- `ORDER BY id DESC LIMIT`. -/
def latest {α : Type} (limit : UInt32) (rows : List α) : List α := rows.reverse.take limit.toNat

/-- `clamp`. -/
def clamp (n lo hi : UInt32) : UInt32 := if n < lo then lo else if hi < n then hi else n

namespace Database

variable (db : Database)

def recentFailovers (limit : UInt32) : Except String (List FailoverEvent) := do
  return latest (min limit 1000) (← db.failoverEvents)

/-- The oldest first. -/
def recentTrafficWhere (keep : TrafficRow → Bool) (limit : UInt32) :
    Except String (List TrafficPoint) := do
  return ((latest limit ((← db.trafficSamples).filter keep)).map TrafficRow.toTrafficPoint).reverse

def recentTraffic (provider : String) (limit : UInt32) : Except String (List TrafficPoint) :=
  db.recentTrafficWhere (fun r => r.provider = provider) limit

def recentInterfaceTraffic (interface : String) (limit : UInt32) :
    Except String (List TrafficPoint) :=
  db.recentTrafficWhere (fun r => r.provider = "" ∧ r.interface = interface) limit

def recentSystem (limit : UInt32) : Except String (List SystemPoint) := do
  return (latest (min limit 10000) (← db.systemSamples)).reverse

def recentClientSamples (ip : String) (hours limit : UInt32) :
    Except String (List ClientSamplePoint) := do
  return (latest (min limit 5000) (← db.clientSamples ip hours)).reverse

/-- The newest first. -/
def recentClientSessions (ip : String) (limit : UInt32) : Except String (List ClientSessionRow) := do
  return latest (min limit 1000) ((← db.clientSessions).filter fun s => s.ip = ip)

end Database

/-! ## The daemon -/

inductive ProviderRole
  | primary
  | backup
  deriving DecidableEq

def ProviderRole.asStr : ProviderRole → String
  | .primary => "primary"
  | .backup => "backup"

/-- What the daemon knows of a provider, with what its slower checks have found. -/
structure ProviderEntry extends ProviderState where
  cfg : Provider
  role : ProviderRole
  canaryOk : Bool
  lastCanaryAt : Option DateTime
  lastCanarySummary : Option String
  throughputOk : Bool
  lastThroughputAt : Option DateTime
  lastThroughputSummary : Option String

/-- A client in the live state, with its rates. -/
structure LiveClient extends ClientsLoop.ClientState where
  rxBps : F64
  txBps : F64

/-- The daemon as a request finds it. -/
structure Daemon where
  cfg : Config
  db : Database
  now : DateTime
  startedAt : DateTime
  providers : HashMap String ProviderEntry
  active : Option String
  forced : Option String
  activeAdopted : Bool
  /-- The default route of the kernel, if it can be read. -/
  kernelRoute : Option String
  failbackPending : Option FailbackPending
  /-- The pinned connections for each mark, if pinning is on and they can be read. -/
  pinned : Option (HashMap UInt32 UInt64)
  clients : HashMap Ipv4Addr LiveClient
  uplinkCounters : Bool
  /-- How forcing a route comes out. -/
  reconcile : Except String Unit

/-- `CARGO_PKG_VERSION`. -/
def version : String := "0.7.1"

/-- `num_seconds().max(0)`. -/
def secondsBetween (since t : DateTime) : Int64 :=
  Int64.ofInt (max (TimeDelta.numSeconds (t.signedDurationSince since)) 0)

namespace Daemon

variable (d : Daemon)

def providerSnapshot (p : ProviderEntry) : ProviderSnapshot where
  name := p.cfg.name
  gateway := p.cfg.gateway.display
  interface := p.cfg.interface
  priority := p.cfg.priority
  role := p.role.asStr
  state := p.state
  lastLatencyMs := p.lastLatencyMs.map F64.mk
  lastCheck := p.lastCheck
  consecutiveFailures := p.consecutiveFailures
  consecutiveSuccesses := p.consecutiveSuccesses
  upSince := p.upSince
  failureLayer := p.failureLayer
  failureDetail := p.failureDetail
  canaryOk := p.canaryOk
  lastCanaryAt := p.lastCanaryAt
  lastCanarySummary := p.lastCanarySummary
  throughputOk := p.throughputOk
  lastThroughputAt := p.lastThroughputAt
  lastThroughputSummary := p.lastThroughputSummary
  pinnedConnections := d.pinned.map fun counts => (counts.lookup (d.cfg.markFor p.cfg)).getD 0

def snapshot : ControlSnapshot where
  active := d.active
  forced := d.forced
  providers := (d.providers.entries.map fun e => d.providerSnapshot e.2).mergeSort
    fun p q => p.priority ≤ q.priority
  version := version
  startedAt := some d.startedAt
  activeAdopted := d.activeAdopted
  kernelRoute := d.kernelRoute
  failbackPending := d.failbackPending

def recentFailovers (limit : UInt32) : Except String (List FailoverEvent) :=
  d.db.recentFailovers (clamp limit 1 1000)

def forceProvider (name : String) : Except String Unit :=
  if name ∈ d.providers then d.reconcile else .error s!"unknown provider '{name}'"

def recentSystem (limit : UInt32) : Except String (List SystemPoint) :=
  d.db.recentSystem (min limit 10000)

/-- The interface of a provider that has it together with others. -/
def sharedInterface (provider : String) : Option String :=
  ((d.cfg.providers.find? fun p => p.name = provider).map Provider.interface).filter fun iface =>
    1 < d.cfg.providers.countP fun p => p.interface = iface

/-- The traffic of a provider, or of its interface where that is all that was counted. -/
def recentTraffic (provider : String) (limit : UInt32) :
    Except String (List TrafficPoint × Option String) :=
  match d.sharedInterface provider, d.uplinkCounters with
  | some iface, false => do
    let points ← d.db.recentInterfaceTraffic iface (min limit 10000)
    return (points, some iface)
  | _, _ => do
    let points ← d.db.recentTraffic provider (min limit 10000)
    return (points, none)

end Daemon

/-! ## The clients -/

section Clients

variable [Floats]

/-- `build_client_info`. -/
def buildClientInfo (ip : String) (mac hostname label : Option String) (firstSeen lastSeen : Option DateTime)
    (state : Option LiveClient) (rollup : Option ClientRollup) (now : DateTime) : ClientInfo :=
  let roll := rollup.getD {}
  { ip
    -- The live state is fresher than the roster.
    mac := (state.bind fun c => c.mac).or mac
    hostname := (state.bind fun c => c.hostname).or hostname
    label := (state.bind fun c => c.label).or label
    online := (state.map fun c => c.online).getD false
    firstSeen := firstSeen.or (state.map fun c => c.firstSeen)
    lastSeen := (state.map fun c => c.lastSeen).or lastSeen
    rxBps := (state.map LiveClient.rxBps).getD (Floats.ofInt 0)
    txBps := (state.map LiveClient.txBps).getD (Floats.ofInt 0)
    rxBytes := roll.rxBytes
    txBytes := roll.txBytes
    disconnects := roll.disconnects
    onlineSecs := roll.onlineSecs
    sessionSecs := ((state.filter fun c => c.online).bind fun c => c.sessionStarted).map fun t =>
      secondsBetween t now }

/-- Connected first, then by how much they moved, then by address. -/
def ClientInfo.before (a b : ClientInfo) : Ordering :=
  (compare b.online a.online).then
    ((compare (b.rxBytes + b.txBytes).toInt (a.rxBytes + a.txBytes).toInt).then
      (compare ((Ipv4Addr.parse a.ip).map BitVec.toNat) ((Ipv4Addr.parse b.ip).map BitVec.toNat)))

/-- The share of a window that the client was connected. -/
def ClientInfo.availabilityPct (c : ClientInfo) (windowSecs : ℤ) : F64 :=
  if windowSecs ≤ 0 then Floats.ofInt 0
  else Floats.clamp (Floats.mul (Floats.div (Floats.ofInt c.onlineSecs.toInt) (Floats.ofInt windowSecs))
    (Floats.ofInt 100)) (Floats.ofInt 0) (Floats.ofInt 100)

/-- A sample, as a rate. -/
def ClientSamplePoint.rates (s : ClientSamplePoint) : ClientTrafficPoint :=
  let span := if Floats.isPositive s.intervalS then s.intervalS else Floats.ofInt 1
  { ts := s.ts
    rxBps := Floats.div (Floats.ofInt s.rxBytes.toNat) span
    txBps := Floats.div (Floats.ofInt s.txBytes.toNat) span }

/-- The sessions, the newest first. The gap before a session is since the end of the next row. -/
def sessionInfos (now : DateTime) : List ClientSessionRow → List ClientSessionInfo
  | [] => []
  | s :: older =>
    { startedAt := s.startedAt
      endedAt := s.endedAt
      durationSecs := secondsBetween s.startedAt (s.endedAt.getD now)
      gapBeforeSecs := (older.head?.bind ClientSessionRow.endedAt).map fun ended =>
        secondsBetween ended s.startedAt
      rxBytes := s.rxBytes
      txBytes := s.txBytes } :: sessionInfos now older

namespace Daemon

variable (d : Daemon)

/-- Everyone in the roster, and whoever is only in the live state yet. -/
def clientList (windowHours : UInt32) : Except String (List ClientInfo) := do
  let windowHours := clamp windowHours 1 (24 * 365)
  let roster ← d.db.clients
  let rollup ← d.db.clientRollup windowHours
  let listed := roster.map fun row =>
    buildClientInfo row.ip row.mac row.hostname row.label (some row.firstSeen) (some row.lastSeen)
      ((Ipv4Addr.parse row.ip).bind d.clients.lookup) (rollup.lookup row.ip) d.now
  let seen := d.clients.entries.filter fun e => e.1.display ∉ roster.map ClientRow.ip
  let others := seen.map fun e =>
    buildClientInfo e.1.display e.2.mac e.2.hostname e.2.label (some e.2.firstSeen) (some e.2.lastSeen)
      (some e.2) (rollup.lookup e.1.display) d.now
  return (listed ++ others).mergeSort fun a b => a.before b ≠ .gt

def clientDetail (ip : String) (windowHours sampleLimit : UInt32) : Except String ClientDetail := do
  let windowHours := clamp windowHours 1 (24 * 365)
  let clients ← d.clientList windowHours
  match clients.find? fun c => c.ip = ip with
  | none => .error s!"no client with address '{ip}' has been seen"
  | some client => do
    let raw ← d.db.recentClientSamples ip windowHours (clamp sampleLimit 1 5000)
    let samples := raw.map ClientSamplePoint.rates
    let sessions := sessionInfos d.now (← d.db.recentClientSessions ip 50)
    let basis :=
      if 0 < client.onlineSecs then Floats.ofInt client.onlineSecs.toInt
      else Floats.mul (Floats.ofInt windowHours.toNat) (Floats.ofInt 3600)
    return {
      client
      windowHours
      samples
      sessions
      peakRxBps := (samples.map ClientTrafficPoint.rxBps).foldl Floats.max (Floats.ofInt 0)
      peakTxBps := (samples.map ClientTrafficPoint.txBps).foldl Floats.max (Floats.ofInt 0)
      avgRxBps := Floats.div (Floats.ofInt client.rxBytes.toInt) basis
      avgTxBps := Floats.div (Floats.ofInt client.txBytes.toInt) basis
      longestSessionSecs := (sessions.map ClientSessionInfo.durationSecs).max?.getD 0
      availabilityPct := client.availabilityPct (windowHours.toNat * 3600) }

end Daemon

end Clients

/-! ## The answer -/

section Answers

variable [Floats] [Chrono]

def TrafficPoint.wire (p : TrafficPoint) : TrafficPointWire where
  ts := Chrono.rfc3339 p.ts
  intervalS := p.intervalS
  rxBytes := p.rxBytes
  rxPackets := p.rxPackets
  txBytes := p.txBytes
  txPackets := p.txPackets

def SystemPoint.wire (p : SystemPoint) : SystemPointWire where
  ts := Chrono.rfc3339 p.ts
  sample := p.sample

def FailoverEvent.wire (e : FailoverEvent) : FailoverEventWire where
  ts := Chrono.rfc3339 e.ts
  from_ := e.fromProvider
  to_ := e.toProvider
  reason := e.reason

def dispatch (d : Daemon) : Request → Response
  | .status => .status d.snapshot
  | .force provider =>
    match d.forceProvider provider with
    | .ok () => .ok s!"forced provider = {provider}"
    | .error e => .error e
  | .auto => .ok "automatic selection restored"
  | .traffic provider limit =>
    match d.recentTraffic provider limit with
    | .ok (points, interfaceTotal) => .traffic (points.map TrafficPoint.wire) interfaceTotal
    | .error e => .error e
  | .system limit =>
    match d.recentSystem limit with
    | .ok points => .system (points.map SystemPoint.wire)
    | .error e => .error e
  | .clients hours =>
    match d.clientList hours with
    | .ok clients => .clients clients
    | .error e => .error e
  | .clientDetail ip hours limit =>
    match d.clientDetail ip hours limit with
    | .ok detail => .clientDetail detail
    | .error e => .error e
  | .events limit =>
    match d.recentFailovers limit with
    | .ok events => .events (events.map FailoverEvent.wire)
    | .error e => .error e

/-- `MAX_REQUEST_BYTES`. -/
def maxRequestBytes : ℕ := 64 * 1024

/-- The line that `handle` writes. -/
def answerLine (r : Response) : List UInt8 := utf8 (print (serialize r) ++ ['\n'])

/-- What `send` makes of what it is sent. -/
def receive (stream : List UInt8) : Option Response := do
  let line ← fromUtf8 (readLine (maxRequestBytes * 16) stream)
  deserialize (← parse (trim line))

/-- The answer is within what the client reads, and the client has it as it was. -/
def Delivered (r : Response) : Prop :=
  (answerLine r).length ≤ maxRequestBytes * 16 ∧ receive (answerLine r) = some r

/-! ## What the client receives -/

theorem length_answerLine (r : Response) : (answerLine r).length = r.size + 1 := by
  rw [answerLine, length_utf8_append, ← width_serialize_response, width]
  rfl

theorem serialize_eq_obj (r : Response) : ∃ fields, serialize r = .obj fields := by
  cases r <;> exact ⟨_, rfl⟩

/-- A line that fits is read as the answer that it is, as far as its numbers are. -/
theorem receive_answerLine {r : Response} (hfits : (answerLine r).length ≤ maxRequestBytes * 16) :
    receive (answerLine r) = deserialize (serialize r) := by
  obtain ⟨fields, hobj⟩ := serialize_eq_obj r
  have hread := readLine_of_fits (lineFeed_not_mem_print (serialize r)) hfits
  rw [receive, answerLine, hread, fromUtf8_utf8, hobj]
  simp only [Option.bind_eq_bind, Option.bind_some, trim_print_obj, parse_print]

theorem delivered_iff (r : Response) :
    Delivered r ↔ r.size + 1 ≤ maxRequestBytes * 16 ∧ Faithful r := by
  rw [Delivered, ← length_answerLine]
  refine and_congr_right fun hfits => ?_
  rw [receive_answerLine hfits, deserialize_serialize_iff]

end Answers

end Vlb.Control
