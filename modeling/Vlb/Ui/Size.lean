import Vlb.Ui.Wire

/-!
# The length of an answer

How many bytes each answer is, as a sum over what is in it: the names of the fields, and the digits,
characters and items of the values. What is not bounded is the number of rows, and the texts in them.

* `TrafficPointWire.size` and the like: the length of a row.
* `Response.size`: the length of an answer, without its line feed.
* `width_serialize_response`: it is the length of what is written.
-/

namespace Vlb.Control

open Json Serde Time

/-! ## Values -/

def F64.size [Floats] (x : F64) : ℕ := (Floats.format64.write x).elim 4 Number.width

def F32.size [Floats] (x : F32) : ℕ := (Floats.format32.write x).elim 4 Number.width

def timeSize [Chrono] (t : DateTime) : ℕ := textWidth (Chrono.text t)

def stateSize : HealthState → ℕ
  | .up => 4
  | .down => 6
  | .unknown => 9

def layerSize : FailureLayer → ℕ
  | .gateway => 9
  | .internet => 10
  | .dns => 5
  | .dnsHijack => 12
  | .contentTampered => 18
  | .contentUnreachable => 21
  | .throttled => 11

@[simp] theorem width_serialize_f64 [Floats] (x : F64) : width (serialize x) = x.size :=
  Format.width_serialize Floats.format64 x

@[simp] theorem width_serialize_f32 [Floats] (x : F32) : width (serialize x) = x.size :=
  Format.width_serialize Floats.format32 x

@[simp] theorem width_serialize_time [Chrono] (t : DateTime) : width (serialize t) = timeSize t :=
  width_str _

@[simp] theorem width_serialize_state (s : HealthState) : width (serialize s) = stateSize s := by
  cases s <;> rfl

@[simp] theorem width_serialize_layer (l : FailureLayer) : width (serialize l) = layerSize l := by
  cases l <;> rfl

/-! ## Rows -/

def FailoverEventWire.size (e : FailoverEventWire) : ℕ :=
  31 + textWidth e.ts + e.from_.elim 4 textWidth + textWidth e.to_ + textWidth e.reason

@[simp] theorem width_serialize_failoverEventWire (e : FailoverEventWire) :
    width (serialize e) = e.size := by
  have hframe : frame ["ts", "from", "to", "reason"] = 31 := by decide
  refine (width_obj _).trans ?_
  simp [hframe, FailoverEventWire.size, Nat.add_assoc]

def TrafficPointWire.size [Floats] (p : TrafficPointWire) : ℕ :=
  73 + textWidth p.ts + p.intervalS.size + digits p.rxBytes.toNat + digits p.rxPackets.toNat +
    digits p.txBytes.toNat + digits p.txPackets.toNat

@[simp] theorem width_serialize_trafficPointWire [Floats] (p : TrafficPointWire) :
    width (serialize p) = p.size := by
  have hframe : frame ["ts", "interval_s", "rx_bytes", "rx_packets", "tx_bytes",
    "tx_packets"] = 73 := by decide
  refine (width_obj _).trans ?_
  simp [hframe, TrafficPointWire.size, Nat.add_assoc]

/-- The bytes of a sample of the system. -/
def SysSample.size [Floats] (s : SysSample) : ℕ :=
  207 + s.cpuTotal.size + listWidth (s.cpuPerCore.map F32.size) + digits s.memTotal.toNat +
    digits s.memUsed.toNat + digits s.memAvailable.toNat + digits s.swapTotal.toNat +
    digits s.swapUsed.toNat + s.load1.size + s.load5.size + s.load15.size + digits s.netRxBytes.toNat +
    digits s.netTxBytes.toNat + digits s.diskTotal.toNat + digits s.diskUsed.toNat +
    digits s.uptimeS.toNat + digits s.procs.toNat

@[simp] theorem width_serialize_sysSample [Floats] (s : SysSample) :
    width (serialize s) = s.size := by
  have hframe : frame ["cpu_total", "cpu_per_core", "mem_total", "mem_used",
    "mem_available", "swap_total", "swap_used", "load1", "load5", "load15",
    "net_rx_bytes", "net_tx_bytes", "disk_total", "disk_used", "uptime_s", "procs"] = 207 := by decide
  refine (width_obj _).trans ?_
  simp [hframe, SysSample.size, Nat.add_assoc]

def SystemPointWire.size [Floats] (p : SystemPointWire) : ℕ := 17 + textWidth p.ts + p.sample.size

@[simp] theorem width_serialize_systemPointWire [Floats] (p : SystemPointWire) :
    width (serialize p) = p.size := by
  have hframe : frame ["ts", "sample"] = 17 := by decide
  refine (width_obj _).trans ?_
  simp [hframe, SystemPointWire.size, Nat.add_assoc]

/-- The bytes of a provider. -/
def ProviderSnapshot.size [Floats] [Chrono] (p : ProviderSnapshot) : ℕ :=
  333 + textWidth p.name + textWidth p.gateway + textWidth p.interface + digits p.priority.toNat +
    textWidth p.role + stateSize p.state + p.lastLatencyMs.elim 4 F64.size +
    p.lastCheck.elim 4 timeSize + digits p.consecutiveFailures.toNat +
    digits p.consecutiveSuccesses.toNat + p.upSince.elim 4 timeSize + p.failureLayer.elim 4 layerSize +
    p.failureDetail.elim 4 textWidth + (if p.canaryOk then 4 else 5) + p.lastCanaryAt.elim 4 timeSize +
    p.lastCanarySummary.elim 4 textWidth + (if p.throughputOk then 4 else 5) +
    p.lastThroughputAt.elim 4 timeSize + p.lastThroughputSummary.elim 4 textWidth +
    (p.pinnedConnections.elim 4 fun n => digits n.toNat)

@[simp] theorem width_serialize_providerSnapshot [Floats] [Chrono] (p : ProviderSnapshot) :
    width (serialize p) = p.size := by
  have hframe : frame ["name", "gateway", "interface", "priority", "role", "state",
    "last_latency_ms", "last_check", "consecutive_failures", "consecutive_successes",
    "up_since", "failure_layer", "failure_detail", "canary_ok", "last_canary_at",
    "last_canary_summary", "throughput_ok", "last_throughput_at",
    "last_throughput_summary", "pinned_connections"] = 333 := by decide
  refine (width_obj _).trans ?_
  simp [hframe, ProviderSnapshot.size, Nat.add_assoc]

def FailbackPending.size (f : FailbackPending) : ℕ :=
  50 + textWidth f.candidate + digits f.stableForSecs.toNat + digits f.requiredSecs.toNat

@[simp] theorem width_serialize_failbackPending (f : FailbackPending) :
    width (serialize f) = f.size := by
  have hframe : frame ["candidate", "stable_for_secs", "required_secs"] = 50 := by decide
  refine (width_obj _).trans ?_
  simp [hframe, FailbackPending.size, Nat.add_assoc]

def ControlSnapshot.size [Floats] [Chrono] (s : ControlSnapshot) : ℕ :=
  113 + s.active.elim 4 textWidth + s.forced.elim 4 textWidth +
    listWidth (s.providers.map ProviderSnapshot.size) + textWidth s.version +
    s.startedAt.elim 4 timeSize + (if s.activeAdopted then 4 else 5) + s.kernelRoute.elim 4 textWidth +
    s.failbackPending.elim 4 FailbackPending.size

@[simp] theorem width_serialize_controlSnapshot [Floats] [Chrono] (s : ControlSnapshot) :
    width (serialize s) = s.size := by
  have hframe : frame ["active", "forced", "providers", "version", "started_at",
    "active_adopted", "kernel_route", "failback_pending"] = 113 := by decide
  refine (width_obj _).trans ?_
  simp [hframe, ControlSnapshot.size, Nat.add_assoc]

/-- The bytes of a client. -/
def ClientInfo.size [Floats] [Chrono] (c : ClientInfo) : ℕ :=
  162 + textWidth c.ip + c.mac.elim 4 textWidth + c.hostname.elim 4 textWidth +
    c.label.elim 4 textWidth + (if c.online then 4 else 5) + c.firstSeen.elim 4 timeSize +
    c.lastSeen.elim 4 timeSize + c.rxBps.size + c.txBps.size + intDigits c.rxBytes.toInt +
    intDigits c.txBytes.toInt + intDigits c.disconnects.toInt + intDigits c.onlineSecs.toInt +
    (c.sessionSecs.elim 4 fun n => intDigits n.toInt)

@[simp] theorem width_serialize_clientInfo [Floats] [Chrono] (c : ClientInfo) :
    width (serialize c) = c.size := by
  have hframe : frame ["ip", "mac", "hostname", "label", "online", "first_seen",
    "last_seen", "rx_bps", "tx_bps", "rx_bytes", "tx_bytes", "disconnects",
    "online_secs", "session_secs"] = 162 := by decide
  refine (width_obj _).trans ?_
  simp [hframe, ClientInfo.size, Nat.add_assoc]

def ClientSessionInfo.size [Chrono] (s : ClientSessionInfo) : ℕ :=
  87 + timeSize s.startedAt + s.endedAt.elim 4 timeSize + intDigits s.durationSecs.toInt +
    (s.gapBeforeSecs.elim 4 fun n => intDigits n.toInt) + intDigits s.rxBytes.toInt +
    intDigits s.txBytes.toInt

@[simp] theorem width_serialize_clientSessionInfo [Chrono] (s : ClientSessionInfo) :
    width (serialize s) = s.size := by
  have hframe : frame ["started_at", "ended_at", "duration_secs", "gap_before_secs",
    "rx_bytes", "tx_bytes"] = 87 := by decide
  refine (width_obj _).trans ?_
  simp [hframe, ClientSessionInfo.size, Nat.add_assoc]

def ClientTrafficPoint.size [Floats] [Chrono] (p : ClientTrafficPoint) : ℕ :=
  27 + timeSize p.ts + p.rxBps.size + p.txBps.size

@[simp] theorem width_serialize_clientTrafficPoint [Floats] [Chrono] (p : ClientTrafficPoint) :
    width (serialize p) = p.size := by
  have hframe : frame ["ts", "rx_bps", "tx_bps"] = 27 := by decide
  refine (width_obj _).trans ?_
  simp [hframe, ClientTrafficPoint.size, Nat.add_assoc]

def ClientDetail.size [Floats] [Chrono] (d : ClientDetail) : ℕ :=
  152 + d.client.size + digits d.windowHours.toNat + listWidth (d.samples.map ClientTrafficPoint.size) +
    listWidth (d.sessions.map ClientSessionInfo.size) + d.peakRxBps.size + d.peakTxBps.size +
    d.avgRxBps.size + d.avgTxBps.size + intDigits d.longestSessionSecs.toInt + d.availabilityPct.size

@[simp] theorem width_serialize_clientDetail [Floats] [Chrono] (d : ClientDetail) :
    width (serialize d) = d.size := by
  have hframe : frame ["client", "window_hours", "samples", "sessions", "peak_rx_bps",
    "peak_tx_bps", "avg_rx_bps", "avg_tx_bps", "longest_session_secs",
    "availability_pct"] = 152 := by decide
  refine (width_obj _).trans ?_
  simp [hframe, ClientDetail.size, Nat.add_assoc]

/-! ## Answers -/

/-- The bytes of an answer. -/
def Response.size [Floats] [Chrono] : Response → ℕ
  | .status snapshot => 29 + snapshot.size
  | .ok message => 24 + textWidth message
  | .traffic points interfaceTotal =>
    interfaceTotal.elim 28 (fun iface => 47 + textWidth iface) +
      listWidth (points.map TrafficPointWire.size)
  | .system points => 27 + listWidth (points.map SystemPointWire.size)
  | .events rows => 27 + listWidth (rows.map FailoverEventWire.size)
  | .clients rows => 29 + listWidth (rows.map ClientInfo.size)
  | .clientDetail detail => 33 + detail.size
  | .error e => 25 + textWidth e

theorem width_tagged (kind k : String) (v : Json) :
    width (tagged kind [(k, v)]) = frame ["kind", k] + textWidth kind + width v := by
  refine (width_obj _).trans ?_
  simp [Nat.add_assoc]

theorem width_tagged_two (kind k k' : String) (v v' : Json) :
    width (tagged kind [(k, v), (k', v')]) =
      frame ["kind", k, k'] + textWidth kind + width v + width v' := by
  refine (width_obj _).trans ?_
  simp [Nat.add_assoc]

/-- **The length of an answer.** -/
theorem width_serialize_response [Floats] [Chrono] (r : Response) : width (serialize r) = r.size := by
  cases r with
  | status snapshot =>
    have hframe : frame ["kind", "snapshot"] + textWidth "status" = 29 := by decide
    exact (width_tagged _ _ _).trans (by simp [hframe, Response.size])
  | ok message =>
    have hframe : frame ["kind", "message"] + textWidth "ok" = 24 := by decide
    exact (width_tagged _ _ _).trans (by simp [hframe, Response.size])
  | traffic points interfaceTotal =>
    cases interfaceTotal with
    | none =>
      have hframe : frame ["kind", "points"] + textWidth "traffic" = 28 := by decide
      exact (width_tagged _ _ _).trans (by simp [hframe, Response.size])
    | some iface =>
      have hframe : frame ["kind", "points", "interface_total"] + textWidth "traffic" = 47 := by decide
      exact (width_tagged_two _ _ _ _ _).trans (by simp [hframe, Response.size, Nat.add_right_comm])
  | system points =>
    have hframe : frame ["kind", "points"] + textWidth "system" = 27 := by decide
    exact (width_tagged _ _ _).trans (by simp [hframe, Response.size])
  | events events =>
    have hframe : frame ["kind", "events"] + textWidth "events" = 27 := by decide
    exact (width_tagged _ _ _).trans (by simp [hframe, Response.size])
  | clients clients =>
    have hframe : frame ["kind", "clients"] + textWidth "clients" = 29 := by decide
    exact (width_tagged _ _ _).trans (by simp [hframe, Response.size])
  | clientDetail detail =>
    have hframe : frame ["kind", "detail"] + textWidth "clientdetail" = 33 := by decide
    exact (width_tagged _ _ _).trans (by simp [hframe, Response.size])
  | error error =>
    have hframe : frame ["kind", "error"] + textWidth "error" = 25 := by decide
    exact (width_tagged _ _ _).trans (by simp [hframe, Response.size])

end Vlb.Control
