import Vlb.Ui.Control

/-!
# Which answers reach the client

The client reads 1,048,576 bytes of a line. How long the line is follows from what is stored: how many
rows of a table there are, up to the limit of the query, and how wide each of them is.

* `newest`, `Daemon.known`: the rows that an answer is about.
* `TrafficPoint.width` and the like: how wide a row is.
* `storedWidth`, `FloatsRoundTrip`: how wide they are together, and which floats are among them.
* **`dispatch_delivered_iff`**: the client gets the answers that these leave room for.
* `traffic_short_enough`: how many samples of the traffic always fit.
-/

namespace Vlb.Control

open Entries Json Serde Text Time

/-! ## The rows of an answer -/

/-- The last of the rows, so many at most. -/
def newest {α : Type} (n : ℕ) (rows : List α) : List α := rows.drop (rows.length - n)

theorem reverse_latest {α : Type} (limit : UInt32) (rows : List α) :
    (latest limit rows).reverse = newest limit.toNat rows := by
  rw [latest, List.take_reverse, List.reverse_reverse, newest]

theorem length_newest_le {α : Type} (n : ℕ) (rows : List α) : (newest n rows).length ≤ n := by
  rw [newest, List.length_drop]
  omega

/-- A number within its bounds. -/
def within (lo hi : ℕ) (n : UInt32) : ℕ := max lo (min n.toNat hi)

theorem toNat_clamp {n lo hi : UInt32} (h : lo.toNat ≤ hi.toNat) :
    (clamp n lo hi).toNat = within lo.toNat hi.toNat n := by
  unfold clamp within
  split_ifs with hlo hhi
  · rw [UInt32.lt_iff_toNat_lt] at hlo
    omega
  · rw [UInt32.lt_iff_toNat_lt] at hhi
    omega
  · rw [UInt32.lt_iff_toNat_lt] at hlo hhi
    omega

theorem toNat_min (n m : UInt32) : (min n m).toNat = min n.toNat m.toNat := by
  show (if n ≤ m then n else m).toNat = min n.toNat m.toNat
  split_ifs with h
  · rw [UInt32.le_iff_toNat_le] at h
    omega
  · rw [UInt32.le_iff_toNat_le] at h
    omega

/-- The hours of a window, between one and those of a year. -/
def windowHours (hours : UInt32) : UInt32 := UInt32.ofNat (within 1 8760 hours)

theorem le_within {lo hi : ℕ} (h : lo ≤ hi) (n : UInt32) :
    lo ≤ within lo hi n ∧ within lo hi n ≤ hi := by
  unfold within
  omega

theorem toNat_windowHours (hours : UInt32) : (windowHours hours).toNat = within 1 8760 hours := by
  have hle := (le_within (by decide : 1 ≤ 8760) hours).2
  rw [windowHours, UInt32.toNat_ofNat']
  exact Nat.mod_eq_of_lt (by omega)

theorem windowHours_pos (hours : UInt32) : 0 < (windowHours hours).toNat := by
  rw [toNat_windowHours]
  exact (le_within (by decide) hours).1

theorem clamp_hours (hours : UInt32) : clamp hours 1 (24 * 365) = windowHours hours := by
  rw [← UInt32.toNat_inj, toNat_clamp (by decide), toNat_windowHours]
  rfl

theorem windowHours_windowHours (hours : UInt32) :
    windowHours (windowHours hours) = windowHours hours := by
  have hle := le_within (by decide : 1 ≤ 8760) hours
  have hagain : within 1 8760 (windowHours hours) = within 1 8760 hours := by
    rw [within, toNat_windowHours]
    omega
  rw [windowHours, hagain, windowHours]

/-- The samples that a request for the traffic of the provider is about: its own, or those of its
interface where no more is known. -/
def Daemon.isAbout (d : Daemon) (provider : String) (r : TrafficRow) : Bool :=
  match d.sharedInterface provider, d.uplinkCounters with
  | some iface, false => r.provider = "" ∧ r.interface = iface
  | _, _ => r.provider = provider

/-- The interface, if they are its samples. -/
def Daemon.interfaceTotal (d : Daemon) (provider : String) : Option String :=
  (d.sharedInterface provider).filter fun _ => !d.uplinkCounters

theorem listWidth_perm {l l' : List ℕ} (h : l.Perm l') : listWidth l = listWidth l' := by
  rw [listWidth, listWidth, h.sum_eq, h.length_eq]

theorem recentTrafficWhere_eq (db : Database) (keep : TrafficRow → Bool) (limit : UInt32) :
    db.recentTrafficWhere keep limit = db.trafficSamples.map fun rows =>
      (newest limit.toNat (rows.filter keep)).map TrafficRow.toTrafficPoint := by
  unfold Database.recentTrafficWhere
  cases db.trafficSamples with
  | error e => rfl
  | ok rows =>
    show Except.ok ((latest limit (rows.filter keep)).map TrafficRow.toTrafficPoint).reverse =
      Except.ok ((newest limit.toNat (rows.filter keep)).map TrafficRow.toTrafficPoint)
    rw [← reverse_latest, List.map_reverse]

theorem recentTraffic_eq (d : Daemon) (provider : String) (limit : UInt32) :
    d.recentTraffic provider limit = d.db.trafficSamples.map fun rows =>
      ((newest (min limit.toNat 10000) (rows.filter (d.isAbout provider))).map
        TrafficRow.toTrafficPoint, d.interfaceTotal provider) := by
  have hlimit : (min limit 10000).toNat = min limit.toNat 10000 := toNat_min limit 10000
  unfold Daemon.recentTraffic Database.recentTraffic Database.recentInterfaceTraffic
  simp only [recentTrafficWhere_eq, hlimit]
  cases d.db.trafficSamples with
  | error e =>
    split <;> rfl
  | ok rows =>
    unfold Daemon.interfaceTotal
    cases hshared : d.sharedInterface provider with
    | none =>
      have habout : d.isAbout provider = fun r => decide (r.provider = provider) := by
        funext r
        rw [Daemon.isAbout, hshared]
      rw [habout]
      rfl
    | some iface =>
      cases hcounters : d.uplinkCounters with
      | false =>
        have habout : d.isAbout provider =
            fun r => decide (r.provider = "" ∧ r.interface = iface) := by
          funext r
          rw [Daemon.isAbout, hshared, hcounters]
        rw [habout]
        rfl
      | true =>
        have habout : d.isAbout provider = fun r => decide (r.provider = provider) := by
          funext r
          rw [Daemon.isAbout, hshared, hcounters]
        rw [habout]
        rfl

theorem recentSystem_eq (d : Daemon) (limit : UInt32) :
    d.recentSystem limit = d.db.systemSamples.map fun rows => newest (min limit.toNat 10000) rows := by
  have hlimit : (min (min limit 10000) 10000).toNat = min limit.toNat 10000 := by
    have htoNat : (10000 : UInt32).toNat = 10000 := by decide
    rw [toNat_min, toNat_min, htoNat]
    omega
  unfold Daemon.recentSystem Database.recentSystem
  cases d.db.systemSamples with
  | error e => rfl
  | ok rows =>
    show Except.ok (latest (min (min limit 10000) 10000) rows).reverse =
      Except.ok (newest (min limit.toNat 10000) rows)
    rw [reverse_latest, hlimit]

theorem recentFailovers_eq (d : Daemon) (limit : UInt32) :
    d.recentFailovers limit = d.db.failoverEvents.map fun rows =>
      (newest (within 1 1000 limit) rows).reverse := by
  have hlimit : (min (clamp limit 1 1000) 1000).toNat = within 1 1000 limit := by
    have hclamp : (clamp limit 1 1000).toNat = within 1 1000 limit := toNat_clamp (by decide)
    rw [toNat_min, hclamp]
    exact Nat.min_eq_left (le_within (by decide) limit).2
  unfold Daemon.recentFailovers Database.recentFailovers
  cases d.db.failoverEvents with
  | error e => rfl
  | ok rows =>
    show Except.ok (latest (min (clamp limit 1 1000) 1000) rows) =
      Except.ok (newest (within 1 1000 limit) rows).reverse
    rw [← hlimit, ← reverse_latest, List.reverse_reverse]

theorem recentClientSamples_eq (db : Database) (ip : String) (hours limit : UInt32) :
    db.recentClientSamples ip hours (clamp limit 1 5000) = (db.clientSamples ip hours).map fun rows =>
      newest (within 1 5000 limit) rows := by
  have hlimit : (min (clamp limit 1 5000) 5000).toNat = within 1 5000 limit := by
    have hclamp : (clamp limit 1 5000).toNat = within 1 5000 limit := toNat_clamp (by decide)
    rw [toNat_min, hclamp]
    exact Nat.min_eq_left (le_within (by decide) limit).2
  unfold Database.recentClientSamples
  cases db.clientSamples ip hours with
  | error e => rfl
  | ok rows =>
    show Except.ok (latest (min (clamp limit 1 5000) 5000) rows).reverse =
      Except.ok (newest (within 1 5000 limit) rows)
    rw [reverse_latest, hlimit]

theorem recentClientSessions_eq (db : Database) (ip : String) :
    db.recentClientSessions ip 50 = db.clientSessions.map fun rows =>
      (newest 50 (rows.filter fun s => s.ip = ip)).reverse := by
  unfold Database.recentClientSessions
  cases db.clientSessions with
  | error e => rfl
  | ok rows =>
    show Except.ok (latest (min 50 1000) (rows.filter fun s => s.ip = ip)) =
      Except.ok (newest 50 (rows.filter fun s => s.ip = ip)).reverse
    have hnewest : (latest (min 50 1000) (rows.filter fun s => s.ip = ip)).reverse =
        newest 50 (rows.filter fun s => s.ip = ip) := reverse_latest _ _
    rw [← hnewest, List.reverse_reverse]

/-- What is known of a client: from the roster or, if it is not there, from the live state, with its
live state and its totals. -/
structure KnownClient where
  row : ClientRow
  state : Option LiveClient
  rollup : ClientRollup

/-- What is stored of the clients. -/
def Daemon.known (d : Daemon) (hours : UInt32) : Except String (List KnownClient) := do
  let roster ← d.db.clients
  let rollup ← d.db.clientRollup hours
  let listed := roster.map fun row =>
    ⟨row, (Ipv4Addr.parse row.ip).bind d.clients.lookup, (rollup.lookup row.ip).getD {}⟩
  let seen := d.clients.entries.filter fun e => e.1.display ∉ roster.map ClientRow.ip
  let others := seen.map fun e =>
    ⟨⟨e.1.display, e.2.mac, e.2.hostname, e.2.label, e.2.firstSeen, e.2.lastSeen⟩, some e.2,
      (rollup.lookup e.1.display).getD {}⟩
  return listed ++ others

section Known

variable [Floats]

def KnownClient.info (c : KnownClient) (now : DateTime) : ClientInfo :=
  buildClientInfo c.row.ip c.row.mac c.row.hostname c.row.label (some c.row.firstSeen)
    (some c.row.lastSeen) c.state (some c.rollup) now

theorem clientList_eq (d : Daemon) (hours : UInt32) : d.clientList hours =
    (d.known (windowHours hours)).map fun clients =>
      (clients.map fun c => c.info d.now).mergeSort fun a b => a.before b ≠ .gt := by
  unfold Daemon.clientList Daemon.known
  simp only [clamp_hours]
  cases d.db.clients with
  | error e => rfl
  | ok roster =>
    cases d.db.clientRollup (windowHours hours) with
    | error e => rfl
    | ok rollup =>
      simp only [bind, Except.bind, pure, Except.pure, Except.map, List.map_append, List.map_map]
      rfl

/-- The client of that address, and the first of them if there are more. -/
def findKnown (now : DateTime) (ip : String) (clients : List KnownClient) : Option KnownClient :=
  (clients.mergeSort fun a b => (a.info now).before (b.info now) ≠ .gt).find? fun c => c.row.ip = ip

theorem find_info (now : DateTime) (ip : String) (clients : List KnownClient) :
    (((clients.map fun c => c.info now).mergeSort fun a b => a.before b ≠ .gt).find? fun c =>
      c.ip = ip) = (findKnown now ip clients).map fun c => c.info now := by
  have hsorted := List.map_mergeSort (f := fun c : KnownClient => c.info now)
    (r := fun a b => decide ((a.info now).before (b.info now) ≠ .gt))
    (s := fun a b => decide (a.before b ≠ .gt)) (l := clients) fun _ _ _ _ => rfl
  rw [← hsorted, List.find?_map]
  rfl

end Known

section Stored

variable [Floats] [Chrono]

/-! ## Widths -/

def TrafficPoint.width (p : TrafficPoint) : ℕ :=
  73 + textWidth (Chrono.rfc3339 p.ts) + p.intervalS.size + digits p.rxBytes.toNat +
    digits p.rxPackets.toNat + digits p.txBytes.toNat + digits p.txPackets.toNat

def SystemPoint.width (p : SystemPoint) : ℕ := 17 + textWidth (Chrono.rfc3339 p.ts) + p.sample.size

def FailoverEvent.width (e : FailoverEvent) : ℕ :=
  31 + textWidth (Chrono.rfc3339 e.ts) + e.fromProvider.elim 4 textWidth + textWidth e.toProvider +
    textWidth e.reason

/-- A provider, with the connections that are pinned to it. -/
def ProviderEntry.width (p : ProviderEntry) (pinned : Option UInt64) : ℕ :=
  333 + textWidth p.cfg.name + textWidth p.cfg.gateway.display + textWidth p.cfg.interface +
    digits p.cfg.priority.toNat + textWidth p.role.asStr + stateSize p.state +
    p.lastLatencyMs.elim 4 (fun ms => F64.size ⟨ms⟩) + p.lastCheck.elim 4 timeSize +
    digits p.consecutiveFailures.toNat + digits p.consecutiveSuccesses.toNat +
    p.upSince.elim 4 timeSize + p.failureLayer.elim 4 layerSize + p.failureDetail.elim 4 textWidth +
    (if p.canaryOk then 4 else 5) + p.lastCanaryAt.elim 4 timeSize +
    p.lastCanarySummary.elim 4 textWidth + (if p.throughputOk then 4 else 5) +
    p.lastThroughputAt.elim 4 timeSize + p.lastThroughputSummary.elim 4 textWidth +
    pinned.elim 4 fun n => digits n.toNat

/-- The connections that are pinned to a provider. -/
def Daemon.pinnedTo (d : Daemon) (p : ProviderEntry) : Option UInt64 :=
  d.pinned.map fun counts => (counts.lookup (d.cfg.markFor p.cfg)).getD 0

/-- What the live state says of a client goes before what the roster says. -/
def KnownClient.width (c : KnownClient) (now : DateTime) : ℕ :=
  162 + textWidth c.row.ip + ((c.state.bind fun s => s.mac).or c.row.mac).elim 4 textWidth +
    ((c.state.bind fun s => s.hostname).or c.row.hostname).elim 4 textWidth +
    ((c.state.bind fun s => s.label).or c.row.label).elim 4 textWidth +
    (if (c.state.map fun s => s.online).getD false then 4 else 5) + timeSize c.row.firstSeen +
    timeSize ((c.state.map fun s => s.lastSeen).getD c.row.lastSeen) +
    ((c.state.map LiveClient.rxBps).getD (Floats.ofInt 0)).size +
    ((c.state.map LiveClient.txBps).getD (Floats.ofInt 0)).size + intDigits c.rollup.rxBytes.toInt +
    intDigits c.rollup.txBytes.toInt + intDigits c.rollup.disconnects.toInt +
    intDigits c.rollup.onlineSecs.toInt +
    ((c.state.filter fun s => s.online).bind fun s => s.sessionStarted).elim 4 fun t =>
      intDigits (secondsBetween t now).toInt

theorem size_providerSnapshot (d : Daemon) (p : ProviderEntry) :
    (d.providerSnapshot p).size = p.width (d.pinnedTo p) := by
  unfold ProviderEntry.width Daemon.pinnedTo ProviderSnapshot.size Daemon.providerSnapshot
  cases p.lastLatencyMs <;> rfl

theorem size_info (c : KnownClient) (now : DateTime) : (c.info now).size = c.width now := by
  unfold KnownClient.width KnownClient.info ClientInfo.size buildClientInfo
  cases c.state with
  | none => rfl
  | some s =>
    cases (Option.filter (fun s => s.online) (some s)).bind fun s => s.sessionStarted <;> rfl

def ClientSamplePoint.width (s : ClientSamplePoint) : ℕ :=
  27 + timeSize s.ts + s.rates.rxBps.size + s.rates.txBps.size

/-- The rates of a client, none if it is not in the live state. -/
def KnownClient.rates (c : KnownClient) : List F64 :=
  [(c.state.map LiveClient.rxBps).getD (Floats.ofInt 0),
    (c.state.map LiveClient.txBps).getD (Floats.ofInt 0)]

/-- What the average is over: the time that the client was there, or the whole window. -/
def KnownClient.basis (c : KnownClient) (hours : UInt32) : F64 :=
  if 0 < c.rollup.onlineSecs then Floats.ofInt c.rollup.onlineSecs.toInt
  else Floats.mul (Floats.ofInt hours.toNat) (Floats.ofInt 3600)

/-- The figures about a client in a window: the peaks, the averages and the availability. -/
def KnownClient.figures (c : KnownClient) (hours : UInt32) (samples : List ClientSamplePoint) :
    List F64 :=
  [(samples.map fun s => s.rates.rxBps).foldl Floats.max (Floats.ofInt 0),
    (samples.map fun s => s.rates.txBps).foldl Floats.max (Floats.ofInt 0),
    Floats.div (Floats.ofInt c.rollup.rxBytes.toInt) (c.basis hours),
    Floats.div (Floats.ofInt c.rollup.txBytes.toInt) (c.basis hours),
    Floats.clamp (Floats.mul (Floats.div (Floats.ofInt c.rollup.onlineSecs.toInt)
      (Floats.ofInt (hours.toNat * 3600))) (Floats.ofInt 100)) (Floats.ofInt 0) (Floats.ofInt 100)]

/-- How long a session lasted, or has lasted so far. -/
def ClientSessionRow.lasted (now : DateTime) (s : ClientSessionRow) : Int64 :=
  secondsBetween s.startedAt (s.endedAt.getD now)

/-- A session, with the gap since the row before it. -/
def ClientSessionRow.width (now : DateTime) (s : ClientSessionRow)
    (previous : Option ClientSessionRow) : ℕ :=
  87 + timeSize s.startedAt + s.endedAt.elim 4 timeSize + intDigits (s.lasted now).toInt +
    ((previous.bind ClientSessionRow.endedAt).elim 4 fun ended =>
      intDigits (secondsBetween ended s.startedAt).toInt) + intDigits s.rxBytes.toInt +
    intDigits s.txBytes.toInt

/-- A client with its samples and its sessions in a window, the newest session first. -/
def KnownClient.detailWidth (c : KnownClient) (now : DateTime) (hours : UInt32)
    (samples : List ClientSamplePoint) (sessions : List ClientSessionRow) : ℕ :=
  152 + c.width now + digits hours.toNat + listWidth (samples.map ClientSamplePoint.width) +
    listWidth (sessions.mapIdx fun i s => s.width now sessions[i + 1]?) +
    ((c.figures hours samples).map F64.size).sum +
    intDigits ((sessions.map (ClientSessionRow.lasted now)).max?.getD 0).toInt

/-- How many bytes an answer is, without its line feed: a fixed number around the rows, the rows that
are stored, up to the limit of the query, and a comma between them. -/
def storedWidth (d : Daemon) : Request → ℕ
  | .status =>
    149 + d.active.elim 4 textWidth + d.forced.elim 4 textWidth +
      listWidth (d.providers.entries.map fun e => e.2.width (d.pinnedTo e.2)) +
      timeSize d.startedAt + (if d.activeAdopted then 4 else 5) + d.kernelRoute.elim 4 textWidth +
      d.failbackPending.elim 4 FailbackPending.size
  | .force provider =>
    match d.forceProvider provider with
    | .ok () => 42 + textWidth provider
    | .error e => 25 + textWidth e
  | .auto => 54
  | .traffic provider limit =>
    match d.db.trafficSamples with
    | .error e => 25 + textWidth e
    | .ok rows =>
      (d.interfaceTotal provider).elim 28 (fun iface => 47 + textWidth iface) +
        listWidth ((newest (min limit.toNat 10000) (rows.filter (d.isAbout provider))).map
          fun r => r.toTrafficPoint.width)
  | .system limit =>
    match d.db.systemSamples with
    | .error e => 25 + textWidth e
    | .ok rows => 27 + listWidth ((newest (min limit.toNat 10000) rows).map SystemPoint.width)
  | .events limit =>
    match d.db.failoverEvents with
    | .error e => 25 + textWidth e
    | .ok rows => 27 + listWidth ((newest (within 1 1000 limit) rows).map FailoverEvent.width)
  | .clients hours =>
    match d.known (windowHours hours) with
    | .error e => 25 + textWidth e
    | .ok clients => 29 + listWidth (clients.map fun c => c.width d.now)
  | .clientDetail ip hours limit =>
    match d.known (windowHours hours) with
    | .error e => 25 + textWidth e
    | .ok clients =>
      match findKnown d.now ip clients with
      | none => 25 + textWidth s!"no client with address '{ip}' has been seen"
      | some c =>
        match d.db.clientSamples ip (windowHours hours), d.db.clientSessions with
        | .error e, _ | .ok _, .error e => 25 + textWidth e
        | .ok samples, .ok sessions =>
          33 + c.detailWidth d.now (windowHours hours) (newest (within 1 5000 limit) samples)
            (newest 50 (sessions.filter fun s => s.ip = ip)).reverse

/-- The number is read as it is written: JSON has it, and the reader rounds it to itself. -/
def F64.RoundTrips (x : F64) : Prop :=
  (Floats.format64.write x).bind Floats.format64.read = some x

def F32.RoundTrips (x : F32) : Prop :=
  (Floats.format32.write x).bind Floats.format32.read = some x

/-- The floats among what is stored, and those that are computed from it, are read as they are
written. -/
def FloatsRoundTrip (d : Daemon) : Request → Prop
  | .status => ∀ e ∈ d.providers.entries, ∀ ms ∈ e.2.lastLatencyMs, F64.RoundTrips ⟨ms⟩
  | .traffic provider limit => ∀ rows, d.db.trafficSamples = .ok rows →
    ∀ r ∈ newest (min limit.toNat 10000) (rows.filter (d.isAbout provider)), r.intervalS.RoundTrips
  | .system limit => ∀ rows, d.db.systemSamples = .ok rows →
    ∀ p ∈ newest (min limit.toNat 10000) rows, p.sample.cpuTotal.RoundTrips ∧
      (∀ x ∈ p.sample.cpuPerCore, x.RoundTrips) ∧ p.sample.load1.RoundTrips ∧
      p.sample.load5.RoundTrips ∧ p.sample.load15.RoundTrips
  | .clients hours => ∀ clients, d.known (windowHours hours) = .ok clients →
    ∀ c ∈ clients, ∀ x ∈ c.rates, x.RoundTrips
  | .clientDetail ip hours limit => ∀ clients c samples sessions,
    d.known (windowHours hours) = .ok clients → findKnown d.now ip clients = some c →
    d.db.clientSamples ip (windowHours hours) = .ok samples → d.db.clientSessions = .ok sessions →
    (∀ x ∈ c.rates ++ c.figures (windowHours hours) (newest (within 1 5000 limit) samples),
      x.RoundTrips) ∧
      ∀ s ∈ newest (within 1 5000 limit) samples, s.rates.rxBps.RoundTrips ∧ s.rates.txBps.RoundTrips
  | .force _ | .auto | .events _ => True

/-! ## The answers from the rows -/

/-- What is known of a client in a window, put together. -/
def KnownClient.detail (c : KnownClient) (now : DateTime) (hours : UInt32)
    (samples : List ClientSamplePoint) (sessions : List ClientSessionRow) : ClientDetail where
  client := c.info now
  windowHours := hours
  samples := samples.map ClientSamplePoint.rates
  sessions := sessionInfos now sessions
  peakRxBps := (samples.map fun s => s.rates.rxBps).foldl Floats.max (Floats.ofInt 0)
  peakTxBps := (samples.map fun s => s.rates.txBps).foldl Floats.max (Floats.ofInt 0)
  avgRxBps := Floats.div (Floats.ofInt c.rollup.rxBytes.toInt) (c.basis hours)
  avgTxBps := Floats.div (Floats.ofInt c.rollup.txBytes.toInt) (c.basis hours)
  longestSessionSecs := ((sessionInfos now sessions).map ClientSessionInfo.durationSecs).max?.getD 0
  availabilityPct := (c.info now).availabilityPct (hours.toNat * 3600)

omit [Chrono] in
theorem clientDetail_eq (d : Daemon) (ip : String) (hours limit : UInt32) :
    d.clientDetail ip hours limit =
      match d.known (windowHours hours) with
      | .error e => .error e
      | .ok clients =>
        match findKnown d.now ip clients with
        | none => .error s!"no client with address '{ip}' has been seen"
        | some c =>
          match d.db.clientSamples ip (windowHours hours), d.db.clientSessions with
          | .error e, _ | .ok _, .error e => .error e
          | .ok samples, .ok sessions =>
            .ok (c.detail d.now (windowHours hours) (newest (within 1 5000 limit) samples)
              (newest 50 (sessions.filter fun s => s.ip = ip)).reverse) := by
  unfold Daemon.clientDetail
  simp only [clamp_hours, clientList_eq, windowHours_windowHours, recentClientSamples_eq,
    recentClientSessions_eq]
  cases d.known (windowHours hours) with
  | error e => rfl
  | ok clients =>
    simp only [bind, Except.bind, Except.map, find_info]
    cases findKnown d.now ip clients with
    | none => rfl
    | some c =>
      simp only [Option.map_some]
      cases d.db.clientSamples ip (windowHours hours) with
      | error e => rfl
      | ok samples =>
        cases d.db.clientSessions with
        | error e => rfl
        | ok sessions =>
          simp only [KnownClient.detail, List.map_map]
          rfl

/-! ### How long they are -/

omit [Floats] in
theorem size_sessionInfos (now : DateTime) (sessions : List ClientSessionRow) :
    (sessionInfos now sessions).map ClientSessionInfo.size =
      sessions.mapIdx fun i s => s.width now sessions[i + 1]? := by
  induction sessions with
  | nil => rfl
  | cons s older ih =>
    rw [List.mapIdx_cons, sessionInfos, List.map_cons, ih, List.getElem?_cons_succ,
      ← List.head?_eq_getElem?]
    refine congrArg₂ List.cons ?_ rfl
    unfold ClientSessionInfo.size ClientSessionRow.width ClientSessionRow.lasted
    cases older.head?.bind ClientSessionRow.endedAt <;> rfl

omit [Floats] [Chrono] in
theorem durations_sessionInfos (now : DateTime) (sessions : List ClientSessionRow) :
    (sessionInfos now sessions).map ClientSessionInfo.durationSecs =
      sessions.map (ClientSessionRow.lasted now) := by
  induction sessions with
  | nil => rfl
  | cons s older ih => rw [sessionInfos, List.map_cons, ih, List.map_cons, ClientSessionRow.lasted]

omit [Chrono] in
theorem availabilityPct_info (c : KnownClient) (now : DateTime) {hours : UInt32} (h : 0 < hours.toNat) :
    (c.info now).availabilityPct (hours.toNat * 3600) =
      Floats.clamp (Floats.mul (Floats.div (Floats.ofInt c.rollup.onlineSecs.toInt)
        (Floats.ofInt (hours.toNat * 3600))) (Floats.ofInt 100)) (Floats.ofInt 0)
        (Floats.ofInt 100) := by
  have hwindow : ¬ (hours.toNat * 3600 : ℤ) ≤ 0 := by omega
  rw [ClientInfo.availabilityPct, if_neg hwindow]
  rfl

theorem size_detail (c : KnownClient) (now : DateTime) {hours : UInt32} (h : 0 < hours.toNat)
    (samples : List ClientSamplePoint) (sessions : List ClientSessionRow) :
    (c.detail now hours samples sessions).size = c.detailWidth now hours samples sessions := by
  have hsamples : (samples.map ClientSamplePoint.rates).map ClientTrafficPoint.size =
      samples.map ClientSamplePoint.width := List.map_map
  unfold KnownClient.detailWidth KnownClient.detail ClientDetail.size KnownClient.figures
  simp only [size_info, hsamples, size_sessionInfos, durations_sessionInfos,
    availabilityPct_info c now h, List.map_cons, List.map_nil, List.sum_cons, List.sum_nil]
  omega

theorem size_snapshot (d : Daemon) : 29 + d.snapshot.size = storedWidth d .status := by
  have hproviders : listWidth (d.snapshot.providers.map ProviderSnapshot.size) =
      listWidth (d.providers.entries.map fun e => e.2.width (d.pinnedTo e.2)) := by
    refine (listWidth_perm ((List.mergeSort_perm _ _).map _)).trans ?_
    simp only [List.map_map, Function.comp_def, size_providerSnapshot]
  have hversion : textWidth version = 7 := by decide
  rw [ControlSnapshot.size, hproviders]
  show 29 + (113 + d.active.elim 4 textWidth + d.forced.elim 4 textWidth + _ + textWidth version +
    timeSize d.startedAt + (if d.activeAdopted then 4 else 5) + d.kernelRoute.elim 4 textWidth +
    d.failbackPending.elim 4 FailbackPending.size) = storedWidth d .status
  rw [storedWidth, hversion]
  omega

theorem size_clientList {d : Daemon} {hours : UInt32} {clients : List KnownClient}
    (h : d.known (windowHours hours) = .ok clients) :
    (dispatch d (.clients hours)).size = 29 + listWidth (clients.map fun c => c.width d.now) := by
  simp only [dispatch, clientList_eq, h, Except.map]
  refine congrArg (29 + ·) ((listWidth_perm ((List.mergeSort_perm _ _).map _)).trans ?_)
  simp only [List.map_map, Function.comp_def, size_info]

/-- **The length of an answer**, from what is stored. -/
theorem size_dispatch (d : Daemon) (req : Request) : (dispatch d req).size = storedWidth d req := by
  cases req with
  | status => exact size_snapshot d
  | force provider =>
    have hprefix : textWidth "forced provider = " = 20 := by decide
    simp only [dispatch, storedWidth]
    cases d.forceProvider provider with
    | error e => rfl
    | ok =>
      show 24 + textWidth ("forced provider = " ++ provider) = 42 + textWidth provider
      have := textWidth_append "forced provider = " provider
      omega
  | auto =>
    show 24 + textWidth "automatic selection restored" = 54
    decide
  | traffic provider limit =>
    simp only [dispatch, storedWidth, recentTraffic_eq]
    cases d.db.trafficSamples with
    | error e => rfl
    | ok rows =>
      simp only [Except.map, Response.size, List.map_map]
      rfl
  | system limit =>
    simp only [dispatch, storedWidth, recentSystem_eq]
    cases d.db.systemSamples with
    | error e => rfl
    | ok rows =>
      simp only [Except.map, Response.size, List.map_map]
      rfl
  | events limit =>
    simp only [dispatch, storedWidth, recentFailovers_eq]
    cases d.db.failoverEvents with
    | error e => rfl
    | ok rows =>
      refine congrArg (27 + ·) ((listWidth_perm (((List.reverse_perm _).map _).map _)).trans ?_)
      rw [List.map_map]
      rfl
  | clients hours =>
    cases h : d.known (windowHours hours) with
    | error e => simp only [dispatch, storedWidth, clientList_eq, h, Except.map, Response.size]
    | ok clients => simp only [size_clientList h, storedWidth, h]
  | clientDetail ip hours limit =>
    simp only [dispatch, storedWidth, clientDetail_eq]
    cases d.known (windowHours hours) with
    | error e => rfl
    | ok clients =>
      simp only
      cases findKnown d.now ip clients with
      | none => rfl
      | some c =>
        cases d.db.clientSamples ip (windowHours hours) with
        | error e => rfl
        | ok samples =>
          cases d.db.clientSessions with
          | error e => rfl
          | ok sessions => exact congrArg (33 + ·) (size_detail c d.now (windowHours_pos hours) _ _)

/-! ### Their floats -/

theorem faithful_detail_iff (c : KnownClient) (now : DateTime) {hours : UInt32}
    (h : 0 < hours.toNat) (samples : List ClientSamplePoint) (sessions : List ClientSessionRow) :
    Faithful (c.detail now hours samples sessions) ↔
      (∀ x ∈ c.rates ++ c.figures hours samples, x.RoundTrips) ∧
        ∀ s ∈ samples, s.rates.rxBps.RoundTrips ∧ s.rates.txBps.RoundTrips := by
  have hsamples : (∀ s ∈ samples.map ClientSamplePoint.rates, Faithful s.rxBps ∧ Faithful s.txBps) ↔
      ∀ s ∈ samples, s.rates.rxBps.RoundTrips ∧ s.rates.txBps.RoundTrips := List.forall_mem_map
  have hfloats : (∀ x ∈ c.rates ++ c.figures hours samples, x.RoundTrips) ↔
      (Faithful (c.info now).rxBps ∧ Faithful (c.info now).txBps) ∧
        Faithful (c.detail now hours samples sessions).peakRxBps ∧
        Faithful (c.detail now hours samples sessions).peakTxBps ∧
        Faithful (c.detail now hours samples sessions).avgRxBps ∧
        Faithful (c.detail now hours samples sessions).avgTxBps ∧
        Faithful (c.detail now hours samples sessions).availabilityPct := by
    unfold KnownClient.detail
    simp only [availabilityPct_info c now h, KnownClient.rates, KnownClient.figures,
      List.cons_append, List.nil_append, List.forall_mem_cons, List.not_mem_nil, false_implies,
      implies_true, and_true]
    exact and_assoc.symm
  rw [← hsamples, hfloats]
  show (_ ∧ _) ∧ _ ∧ _ ↔ _
  tauto

theorem faithful_clientDetail_iff (d : Daemon) (ip : String) (hours limit : UInt32) :
    Faithful (dispatch d (.clientDetail ip hours limit)) ↔
      FloatsRoundTrip d (.clientDetail ip hours limit) := by
  simp only [dispatch, FloatsRoundTrip, clientDetail_eq]
  cases d.known (windowHours hours) with
  | error e => exact iff_of_true trivial fun _ _ _ _ h => by cases h
  | ok clients =>
    simp only
    cases hfound : findKnown d.now ip clients with
    | none =>
      refine iff_of_true trivial fun clients' c _ _ hclients hc => ?_
      cases hclients
      rw [hfound] at hc
      cases hc
    | some c =>
      cases d.db.clientSamples ip (windowHours hours) with
      | error e => exact iff_of_true trivial fun _ _ _ _ _ _ h => by cases h
      | ok samples =>
        cases d.db.clientSessions with
        | error e => exact iff_of_true trivial fun _ _ _ _ _ _ _ h => by cases h
        | ok sessions =>
          refine (faithful_detail_iff c d.now (windowHours_pos hours) _ _).trans ?_
          constructor
          · rintro h _ _ _ _ ⟨⟩ hc ⟨⟩ ⟨⟩
            rw [hfound] at hc
            cases hc
            exact h
          · intro h
            exact h clients c samples sessions rfl hfound rfl rfl

theorem faithful_dispatch_iff (d : Daemon) (req : Request) :
    Faithful (dispatch d req) ↔ FloatsRoundTrip d req := by
  cases req with
  | status =>
    have hproviders : (∀ p ∈ d.snapshot.providers, ∀ ms ∈ p.lastLatencyMs, Faithful ms) ↔
        ∀ e ∈ d.providers.entries, ∀ ms ∈ (d.providerSnapshot e.2).lastLatencyMs, Faithful ms := by
      simp only [Daemon.snapshot, List.mem_mergeSort, List.forall_mem_map]
    refine hproviders.trans ?_
    simp only [Daemon.providerSnapshot, Option.mem_map, forall_exists_index, and_imp,
      forall_apply_eq_imp_iff₂]
    rfl
  | force provider =>
    simp only [dispatch]
    cases d.forceProvider provider <;> exact iff_of_true trivial trivial
  | auto => exact iff_of_true trivial trivial
  | traffic provider limit =>
    simp only [dispatch, FloatsRoundTrip, recentTraffic_eq]
    cases d.db.trafficSamples with
    | error e => exact iff_of_true trivial fun _ h => by cases h
    | ok rows =>
      simp only [Except.map, Except.ok.injEq, forall_eq']
      show (∀ p ∈ (_ : List TrafficPointWire), Faithful p.intervalS) ↔ _
      simp only [List.forall_mem_map]
      rfl
  | system limit =>
    simp only [dispatch, FloatsRoundTrip, recentSystem_eq]
    cases d.db.systemSamples with
    | error e => exact iff_of_true trivial fun _ h => by cases h
    | ok rows =>
      simp only [Except.map, Except.ok.injEq, forall_eq']
      show (∀ p ∈ (_ : List SystemPointWire), Faithful p.sample) ↔ _
      simp only [List.forall_mem_map]
      rfl
  | events limit =>
    simp only [dispatch]
    cases d.recentFailovers limit <;> exact iff_of_true trivial trivial
  | clients hours =>
    simp only [dispatch, FloatsRoundTrip, clientList_eq]
    cases d.known (windowHours hours) with
    | error e => exact iff_of_true trivial fun _ h => by cases h
    | ok clients =>
      simp only [Except.map, Except.ok.injEq, forall_eq']
      show (∀ c ∈ (_ : List ClientInfo), Faithful c.rxBps ∧ Faithful c.txBps) ↔ _
      simp only [List.mem_mergeSort, List.forall_mem_map, KnownClient.rates, List.forall_mem_cons,
        List.not_mem_nil, false_implies, implies_true, and_true]
      rfl
  | clientDetail ip hours limit => exact faithful_clientDetail_iff d ip hours limit

/-- **Answers that are delivered**: those whose rows leave room for them in what the client reads, and
whose numbers are read as they are written. -/
theorem dispatch_delivered_iff (d : Daemon) (req : Request) :
    Delivered (dispatch d req) ↔ storedWidth d req < 1048576 ∧ FloatsRoundTrip d req := by
  rw [delivered_iff, size_dispatch, faithful_dispatch_iff]
  rfl

/-! ### Short requests -/

theorem TrafficPoint.width_le {p : TrafficPoint} (htime : textWidth (Chrono.rfc3339 p.ts) ≤ 37)
    (hinterval : p.intervalS.size ≤ 24) : p.width ≤ 214 := by
  have hdigits (n : UInt64) : digits n.toNat ≤ 20 :=
    digits_le (by decide) (n.toNat_lt.trans (by decide))
  have h₁ := hdigits p.rxBytes
  have h₂ := hdigits p.rxPackets
  have h₃ := hdigits p.txBytes
  have h₄ := hdigits p.txPackets
  unfold TrafficPoint.width
  omega

theorem storedWidth_traffic {d : Daemon} {rows : List TrafficRow} (provider : String) (limit : UInt32)
    (h : d.db.trafficSamples = .ok rows) : storedWidth d (.traffic provider limit) =
      (d.interfaceTotal provider).elim 28 (fun iface => 47 + textWidth iface) +
        listWidth ((newest (min limit.toNat 10000) (rows.filter (d.isAbout provider))).map
          fun r => r.toTrafficPoint.width) := by
  simp only [storedWidth, h]

theorem traffic_short_enough {d : Daemon} {provider : String} {limit : UInt32} {rows : List TrafficRow}
    (htime : ∀ t, textWidth (Chrono.rfc3339 t) ≤ 37) (hfloat : ∀ x : F64, x.size ≤ 24)
    (hlimit : limit.toNat ≤ 4800)
    (hiface : ∀ iface ∈ d.interfaceTotal provider, textWidth iface ≤ 1024)
    (h : d.db.trafficSamples = .ok rows) : storedWidth d (.traffic provider limit) < 1048576 := by
  have hcount := length_newest_le (min limit.toNat 10000) (rows.filter (d.isAbout provider))
  have hrows := @listWidth_le ((newest (min limit.toNat 10000) (rows.filter (d.isAbout provider))).map
    fun r => r.toTrafficPoint.width) 214 fun w hw => by
      obtain ⟨r, -, rfl⟩ := List.mem_map.mp hw
      exact TrafficPoint.width_le (htime _) (hfloat _)
  have hname : (d.interfaceTotal provider).elim 28 (fun iface => 47 + textWidth iface) ≤ 1071 := by
    cases hshared : d.interfaceTotal provider with
    | none => exact (by decide : 28 ≤ 1071)
    | some iface =>
      have := hiface iface hshared
      show 47 + textWidth iface ≤ 1071
      omega
  rw [List.length_map] at hrows
  rw [storedWidth_traffic provider limit h]
  omega

end Stored

/-! ## A long history -/

theorem isNumberChar_two : ['2', '.', '0'].all isNumberChar = true := rfl

/-- The length of an interval, 2 seconds. -/
def two : F64 := ⟨0x4000000000000000⟩

/-- That length as it is written, and any other number by its bits. -/
abbrev intervals : Floats where
  format64 := {
    write := fun x => some (if x = two then ⟨_, List.cons_ne_nil _ _, List.all_eq_true.mp isNumberChar_two⟩
      else natNumber x.bits.toNat)
    read := fun n => if n.text = ['2', '.', '0'] then some two
      else (readNat n.text).map fun bits => ⟨UInt64.ofNat bits⟩ }
  format32 := {
    write := fun x => some (natNumber x.bits.toNat)
    read := fun n => (readNat n.text).map fun bits => ⟨UInt32.ofNat bits⟩ }
  ofInt z := ⟨UInt64.ofNat z.toNat⟩
  isPositive x := 0 < x.bits
  mul x y := ⟨x.bits * y.bits⟩
  div x y := ⟨x.bits / y.bits⟩
  max x y := ⟨max x.bits y.bits⟩
  clamp x lo hi := ⟨max lo.bits (min x.bits hi.bits)⟩

/-- The epoch as it is written, and any other time by its nanoseconds. -/
abbrev epochs : Chrono where
  rfc3339 t := if t = .epoch then "1970-01-01T00:00:00+00:00" else toString t.nanos
  text t := String.ofList (intNumber t.nanos).text
  parse s := (readInt s.toList).bind fun z => if h : DateTime.InCalendar z then some ⟨z, h⟩ else none
  parse_text t := by
    rw [String.toList_ofList, readInt_intNumber, Option.bind_some, dif_pos t.inCalendar]

/-- Two seconds without traffic on the first uplink. -/
def sampled : TrafficRow := ⟨⟨.epoch, two, 0, 0, 0, 0⟩, "fibre", "eth0"⟩

/-- A daemon that has sampled the first uplink ten thousand times. -/
def longHistory : Daemon where
  cfg := .twoUplinks
  db := {
    trafficSamples := .ok (List.replicate 10000 sampled)
    systemSamples := .ok []
    failoverEvents := .ok []
    clients := .ok []
    clientRollup := fun _ => .ok ∅
    clientSamples := fun _ _ => .ok []
    clientSessions := .ok [] }
  now := .epoch
  startedAt := .epoch
  providers := ∅
  active := some "fibre"
  forced := none
  activeAdopted := false
  kernelRoute := none
  failbackPending := none
  pinned := none
  clients := ∅
  uplinkCounters := true
  reconcile := .ok ()

/-- The largest answer that the daemon gives about its traffic is too long for its client. -/
theorem longHistory_not_delivered :
    ¬ ∀ (_ : Floats) (_ : Chrono) (d : Daemon) (req : Request), Delivered (dispatch d req) := by
  intro hall
  let _ := intervals
  let _ := epochs
  have hfits := ((delivered_iff _).mp (hall intervals epochs longHistory (.traffic "fibre" 10000))).1
  have htotal : longHistory.interfaceTotal "fibre" = none := by decide
  have hlimit : min (10000 : UInt32).toNat 10000 = 10000 := by decide
  have hrows : newest (min (10000 : UInt32).toNat 10000)
      ((List.replicate 10000 sampled).filter (longHistory.isAbout "fibre")) =
      List.replicate 10000 sampled := by
    rw [List.filter_replicate_of_pos (by decide), hlimit, newest, List.length_replicate, Nat.sub_self,
      List.drop_zero]
  have hwidth := storedWidth_traffic "fibre" 10000 (rfl : longHistory.db.trafficSamples = _)
  have hpoint : sampled.toTrafficPoint.width = 107 := by decide
  rw [size_dispatch, hwidth, htotal, hrows] at hfits
  simp only [List.map_replicate, hpoint, listWidth, List.sum_replicate_nat, List.length_replicate,
    maxRequestBytes, Option.elim_none] at hfits
  omega

end Vlb.Control
