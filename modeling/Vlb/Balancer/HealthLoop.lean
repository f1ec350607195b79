import Vlb.Health
import Vlb.Net.Throughput

/-!
# The health loop of a provider

One turn of the loop probes the layers from the next hop up, runs the canary and the throughput
check when they are due, and rolls the layers up into one result with its first failing layer as the
cause. The canary and the throughput check have counters of their own, which outlive the turn.

* `runCanary`, `runThroughput`: what a round of each makes of the provider's entry.
* `turn`: one turn; the readings of the monotonic clock within one check are one reading here.
* `run`: the loop, over everything that its turns meet.
* `turn_canary`, `turn_throughput`, `turn_up`: which part of a turn decides what.
-/

namespace Vlb.HealthLoop

open Time Canary

/-- The settings that the loop reads. -/
structure LoopConfig where
  health : HealthConfig := {}
  dnsFailureThreshold : UInt32 := 4
  dnsCheckEnabled : Bool := true
  dnsIntegrityCheck : Bool := true
  canary : CanaryConfig := {}
  deriving DecidableEq

/-- What the daemon knows of a provider, with the counters of the checks. -/
structure ProviderEntry extends ProviderState where
  canaryFailures : UInt32 := 0
  dnsFailures : UInt32 := 0
  lastCanaryAt : Option DateTime := none
  lastCanarySummary : Option String := none
  canaryOk : Bool := true
  /-- The finding of the last canary round, where it was proof. -/
  canaryTampered : Option String := none
  throughputFailures : UInt32 := 0
  throughputOk : Bool := true
  lastThroughputAt : Option DateTime := none
  lastThroughputSummary : Option String := none
  deriving DecidableEq

/-- How a probe ends. -/
inductive ProbeOutcome
  /-- The latency as the bits of a 64-bit float. -/
  | success (latencyMs : UInt64)
  | failed
  deriving DecidableEq

def ProbeOutcome.isSuccess : ProbeOutcome → Bool
  | .success _ => true
  | .failed => false

def ProbeOutcome.latencyMs : ProbeOutcome → Option UInt64
  | .success latencyMs => some latencyMs
  | .failed => none

/-- What the check of the resolvers says. -/
inductive DnsIntegrity
  | clean
  | hijacked (detail : String)
  | noAnswer
  deriving DecidableEq

/-! ## The canary -/

/-- A canary round, and the time it is entered with. -/
structure CanaryRound where
  now : DateTime
  report : CanaryReport
  summary : String

/-- `run_canary` on the entry. -/
def runCanary (c : CanaryConfig) (r : CanaryRound) (entry : ProviderEntry) : ProviderEntry :=
  let entry := { entry with lastCanaryAt := some r.now, lastCanarySummary := some r.summary }
  match r.report.conclusiveTamper with
  | some detail =>
    { entry with
      canaryFailures := UInt32.saturatingAdd entry.canaryFailures 1
      canaryOk := false
      canaryTampered := some detail }
  | none =>
    if r.report.isOk then
      { entry with canaryFailures := 0, canaryOk := true, canaryTampered := none }
    else
      let entry := { entry with
        canaryFailures := UInt32.saturatingAdd entry.canaryFailures 1
        canaryTampered := none }
      if entry.canaryFailures ≥ c.failureThreshold then { entry with canaryOk := false } else entry

/-! ## The throughput check -/

/-- What one run of the throughput check meets. -/
structure Measurement where
  now : DateTime
  net : Network
  probe : Probe
  /-- The counters of the interface, before and after the transfer. -/
  before : Option IfCounters
  after : Option IfCounters
  isActive : Bool

variable (rates : Rates) (errorText : FetchError → String)

namespace Measurement

/-- The verdict on the measured transfer. -/
def verdict (c : CanaryConfig) (url : Url) (m : Measurement) : ThroughputVerdict :=
  checkThroughputVia rates m.net m.probe url c.throughput.minKbps

/-- The link is slow because the clients use it. -/
def busyNotThrottled (c : CanaryConfig) (url : Url) (m : Measurement) : Bool :=
  let verdict := m.verdict rates c url
  busyRatherThanCapped m.isActive verdict.isOk (concurrentKbps rates verdict m.before m.after)
    c.throughput.minKbps

/-- What the check says of itself. -/
def summary (c : CanaryConfig) (url : Url) (m : Measurement) : String :=
  let verdict := m.verdict rates c url
  if m.busyNotThrottled rates c url then
    verdict.describe errorText ++ " — but the link carried " ++
      toString ((concurrentKbps rates verdict m.before m.after).getD 0) ++
      " kbit/s of client traffic during the measurement, which is above the " ++
      toString c.throughput.minKbps ++ " kbit/s floor, so it is busy, not capped"
  else verdict.describe errorText

end Measurement

/-- `run_throughput` on the entry. -/
def runThroughput (c : CanaryConfig) (url : Url) (m : Measurement) (entry : ProviderEntry) :
    ProviderEntry :=
  let entry := { entry with
    lastThroughputAt := some m.now
    lastThroughputSummary := some (m.summary rates errorText c url) }
  if (m.verdict rates c url).isOk ∨ m.busyNotThrottled rates c url then
    { entry with throughputFailures := 0, throughputOk := true }
  else
    let entry := { entry with
      throughputFailures := UInt32.saturatingAdd entry.throughputFailures 1 }
    if entry.throughputFailures ≥ c.throughput.failureThreshold then
      { entry with throughputOk := false }
    else entry

/-- The payload, when the check is on. -/
def throughputUrl (c : CanaryConfig) : Option Url :=
  if c.enabled ∧ c.throughput.enabled then (Url.parse c.throughput.url).toOption else none

/-- The targets that can be parsed, if the canary is on. -/
def canaryTargets (c : CanaryConfig) : List CanaryTarget :=
  if c.enabled then c.targetsParsed.toOption.getD [] else []

/-! ## A turn -/

/-- What one turn meets. What belongs to a check that does not run is not looked at. -/
structure Turn where
  gateway : ProbeOutcome
  internet : ProbeOutcome
  dns : ProbeOutcome
  integrity : DnsIntegrity
  /-- The monotonic clock when the canary may be due, in nanoseconds. -/
  canaryClock : ℕ
  canary : CanaryRound
  throughputClock : ℕ
  throughput : Measurement
  now : DateTime

/-- What the loop keeps from turn to turn. -/
structure LoopState where
  entry : ProviderEntry := {}
  lastCanary : Option ℕ := none
  lastThroughput : Option ℕ := none

/-- What a turn did: the rounds it ran, and the failure it entered. -/
structure TurnRecord where
  canary : Option CanaryReport
  throughput : Option Measurement
  failure : Option (FailureLayer × String)

/-- So much of a clock has passed since a reading of it, if there was one. -/
def elapsedAtLeast (last : Option ℕ) (clock interval : ℕ) : Bool :=
  last.all fun t => interval ≤ clock - t

namespace Turn

variable (cfg : LoopConfig) (s : LoopState) (t : Turn)

/-- The internet is probed behind a gateway that answers. -/
def internetProbe : Option ProbeOutcome :=
  if t.gateway.isSuccess then some t.internet else none

/-- The latency through the provider, or else that of its next hop. -/
def latencyMs : Option UInt64 :=
  (t.internetProbe.bind ProbeOutcome.latencyMs).or t.gateway.latencyMs

/-- DNS is probed behind an internet that answers. -/
def dnsProbe : Option ProbeOutcome :=
  if cfg.dnsCheckEnabled ∧ t.gateway.isSuccess ∧ t.internetProbe.any ProbeOutcome.isSuccess then
    some t.dns
  else none

/-- The finding of the integrity check. -/
def dnsIntegrityBad : Option String :=
  if cfg.dnsIntegrityCheck ∧ (t.dnsProbe cfg).any ProbeOutcome.isSuccess then
    match t.integrity with
    | .hijacked detail => some detail
    | _ => none
  else none

/-- At least a second. -/
def canaryInterval : ℕ := (max cfg.canary.intervalSecs 1).toNat * nanosPerSec

/-- At least a second as well. -/
def throughputInterval : ℕ := (max cfg.canary.throughput.intervalSecs 1).toNat * nanosPerSec

/-- It is time for the canary, and it has something to do. -/
def canaryDue : Bool :=
  cfg.canary.enabled && !(canaryTargets cfg.canary).isEmpty && t.gateway.isSuccess &&
    elapsedAtLeast s.lastCanary t.canaryClock (canaryInterval cfg)

/-- The canary, if it is due. -/
def canaryStep : LoopState :=
  if t.canaryDue cfg s then
    { s with lastCanary := some t.canaryClock, entry := runCanary cfg.canary t.canary s.entry }
  else s

/-- The count of DNS failures in a row. -/
def dnsStep (entry : ProviderEntry) : ProviderEntry :=
  if (t.dnsProbe cfg).all ProbeOutcome.isSuccess then { entry with dnsFailures := 0 }
  else { entry with dnsFailures := UInt32.saturatingAdd entry.dnsFailures 1 }

/-- DNS has failed for long enough. -/
def dnsFailing (entry : ProviderEntry) : Bool :=
  !(t.dnsProbe cfg).all ProbeOutcome.isSuccess &&
    max cfg.dnsFailureThreshold 1 ≤ UInt32.saturatingAdd entry.dnsFailures 1

/-- The first failing layer up to the proof of interception. -/
def reachabilityFailure (p : Provider) (entry : ProviderEntry) : Option (FailureLayer × String) :=
  if !t.gateway.isSuccess then
    some (.gateway, "next hop " ++ p.gateway.display ++ " did not answer ICMP")
  else if !t.internetProbe.any ProbeOutcome.isSuccess then
    some (.internet, "gateway is reachable but no external probe target answered")
  else if t.dnsFailing cfg entry then
    some (.dns, "ICMP reaches the internet but UDP/53 got no valid answer " ++
      "(typical of an unpaid account or a captive portal)")
  else match t.dnsIntegrityBad cfg, entry.canaryTampered with
    | some detail, _ => some (.dnsHijack, detail)
    | none, some detail => some (.contentTampered, detail)
    | none, none => none

/-- The throughput check is due by its schedule, or early since the canary fails. -/
def throughputDue (last : Option ℕ) (canaryOk : Bool) : Bool :=
  elapsedAtLeast last t.throughputClock (throughputInterval cfg) ||
    (!canaryOk && elapsedAtLeast last t.throughputClock
      (min (15 * nanosPerSec) (throughputInterval cfg)))

/-- The payload that the turn transfers, where the layers before all pass. -/
def throughputRun (failure : Option (FailureLayer × String)) (s : LoopState) : Option Url :=
  if failure.isNone ∧ t.throughputDue cfg s.lastThroughput s.entry.canaryOk then
    throughputUrl cfg.canary
  else none

/-- The throughput check, if it runs. -/
def throughputStep (failure : Option (FailureLayer × String)) (s : LoopState) : LoopState :=
  match t.throughputRun cfg failure s with
  | some url =>
    { s with
      lastThroughput := some t.throughputClock
      entry := runThroughput rates errorText cfg.canary url t.throughput s.entry }
  | none => s

end Turn

/-- The last two layers, of which throughput is named first. -/
def contentFailure (entry : ProviderEntry) : Option (FailureLayer × String) :=
  if !entry.throughputOk then
    some (.throttled, entry.lastThroughputSummary.getD "throughput below the floor")
  else if !entry.canaryOk then
    some (.contentUnreachable, entry.lastCanarySummary.getD "canary quorum not met")
  else none

/-- One turn of the loop. -/
def turn (cfg : LoopConfig) (p : Provider) (s : LoopState) (t : Turn) : LoopState × TurnRecord :=
  let canary := if t.canaryDue cfg s then some t.canary.report else none
  let s := t.canaryStep cfg s
  let reachability := t.reachabilityFailure cfg p s.entry
  let s := { s with entry := t.dnsStep cfg s.entry }
  let throughput := (t.throughputRun cfg reachability s).map fun _ => t.throughput
  let s := t.throughputStep rates errorText cfg reachability s
  let failure := reachability.or (contentFailure s.entry)
  let round : ProbeRound :=
    { now := t.now, success := failure.isNone, latencyMs := t.latencyMs, failure }
  let entry := { s.entry with
    toProviderState := s.entry.toProviderState.applyProbeResult cfg.health round }
  ({ s with entry }, { canary, throughput, failure })

/-- The loop from its start: the state it comes to, and what its turns did. -/
def run (cfg : LoopConfig) (p : Provider) (turns : List Turn) : LoopState × List TurnRecord :=
  turns.foldl (fun (s, records) t =>
    let (s, record) := turn rates errorText cfg p s t
    (s, records ++ [record])) ({}, [])

/-! ## What a turn changes -/

section Frames

variable (cfg : LoopConfig) (c : CanaryConfig) (s : LoopState) (t : Turn) (entry : ProviderEntry)

/-- A canary round leaves alone what the other checks have made of the provider. -/
theorem runCanary_frame (r : CanaryRound) :
    (runCanary c r entry).toProviderState = entry.toProviderState ∧
      (runCanary c r entry).throughputOk = entry.throughputOk ∧
      (runCanary c r entry).throughputFailures = entry.throughputFailures := by
  unfold runCanary
  split
  · exact ⟨rfl, rfl, rfl⟩
  · split_ifs
    · exact ⟨rfl, rfl, rfl⟩
    · dsimp only
      split_ifs <;> exact ⟨rfl, rfl, rfl⟩

/-- A throughput check leaves alone what the others have made of the provider. -/
theorem runThroughput_frame (url : Url) (m : Measurement) :
    (runThroughput rates errorText c url m entry).toProviderState = entry.toProviderState ∧
      (runThroughput rates errorText c url m entry).canaryOk = entry.canaryOk ∧
      (runThroughput rates errorText c url m entry).canaryFailures = entry.canaryFailures ∧
      (runThroughput rates errorText c url m entry).canaryTampered = entry.canaryTampered := by
  unfold runThroughput
  dsimp only
  split_ifs <;> exact ⟨rfl, rfl, rfl, rfl⟩

theorem canaryStep_frame : (t.canaryStep cfg s).entry.toProviderState = s.entry.toProviderState ∧
    (t.canaryStep cfg s).entry.throughputOk = s.entry.throughputOk ∧
    (t.canaryStep cfg s).entry.throughputFailures = s.entry.throughputFailures ∧
    (t.canaryStep cfg s).lastThroughput = s.lastThroughput := by
  unfold Turn.canaryStep
  split_ifs
  · obtain ⟨hstate, hok, hfailures⟩ := runCanary_frame cfg.canary s.entry t.canary
    exact ⟨hstate, hok, hfailures, rfl⟩
  · exact ⟨rfl, rfl, rfl, rfl⟩

theorem dnsStep_frame : (t.dnsStep cfg entry).toProviderState = entry.toProviderState ∧
    (t.dnsStep cfg entry).canaryOk = entry.canaryOk ∧
    (t.dnsStep cfg entry).canaryFailures = entry.canaryFailures ∧
    (t.dnsStep cfg entry).canaryTampered = entry.canaryTampered ∧
    (t.dnsStep cfg entry).throughputOk = entry.throughputOk ∧
    (t.dnsStep cfg entry).throughputFailures = entry.throughputFailures := by
  unfold Turn.dnsStep
  split_ifs <;> exact ⟨rfl, rfl, rfl, rfl, rfl, rfl⟩

theorem throughputStep_frame (failure : Option (FailureLayer × String)) :
    (t.throughputStep rates errorText cfg failure s).entry.toProviderState =
        s.entry.toProviderState ∧
      (t.throughputStep rates errorText cfg failure s).entry.canaryOk = s.entry.canaryOk ∧
      (t.throughputStep rates errorText cfg failure s).entry.canaryFailures =
        s.entry.canaryFailures ∧
      (t.throughputStep rates errorText cfg failure s).entry.canaryTampered =
        s.entry.canaryTampered ∧
      (t.throughputStep rates errorText cfg failure s).lastCanary = s.lastCanary := by
  unfold Turn.throughputStep
  split
  · rename_i url _
    obtain ⟨hstate, hok, hfailures, htampered⟩ :=
      runThroughput_frame rates errorText cfg.canary s.entry url t.throughput
    exact ⟨hstate, hok, hfailures, htampered, rfl⟩
  · exact ⟨rfl, rfl, rfl, rfl, rfl⟩

/-- The loop after the canary's part of the turn, and after the count of DNS failures. -/
def probedState (cfg : LoopConfig) (s : LoopState) (t : Turn) : LoopState :=
  { t.canaryStep cfg s with entry := t.dnsStep cfg (t.canaryStep cfg s).entry }

theorem turn_canary (p : Provider) :
    (turn rates errorText cfg p s t).1.entry.canaryOk = (t.canaryStep cfg s).entry.canaryOk ∧
      (turn rates errorText cfg p s t).1.entry.canaryFailures =
        (t.canaryStep cfg s).entry.canaryFailures ∧
      (turn rates errorText cfg p s t).1.entry.canaryTampered =
        (t.canaryStep cfg s).entry.canaryTampered ∧
      (turn rates errorText cfg p s t).1.lastCanary = (t.canaryStep cfg s).lastCanary := by
  obtain ⟨-, hok, hfailures, htampered, hlast⟩ := throughputStep_frame rates errorText cfg
    (probedState cfg s t) t (t.reachabilityFailure cfg p (t.canaryStep cfg s).entry)
  obtain ⟨-, hok', hfailures', htampered', -⟩ := dnsStep_frame cfg t (t.canaryStep cfg s).entry
  exact ⟨hok.trans hok', hfailures.trans hfailures', htampered.trans htampered', hlast⟩

/-- The fields of the throughput check come from its part of the turn, which runs after the layers
before it pass. -/
theorem turn_throughput (p : Provider) :
    let failure := t.reachabilityFailure cfg p (t.canaryStep cfg s).entry
    let after := t.throughputStep rates errorText cfg failure (probedState cfg s t)
    (turn rates errorText cfg p s t).1.entry.throughputOk = after.entry.throughputOk ∧
      (turn rates errorText cfg p s t).1.entry.throughputFailures =
        after.entry.throughputFailures ∧
      (turn rates errorText cfg p s t).2.throughput =
        (t.throughputRun cfg failure (probedState cfg s t)).map fun _ => t.throughput :=
  ⟨rfl, rfl, rfl⟩

/-- The result that the turn enters. -/
def turnRound (rates : Rates) (errorText : FetchError → String) (cfg : LoopConfig) (p : Provider)
    (s : LoopState) (t : Turn) : ProbeRound where
  now := t.now
  success := (turn rates errorText cfg p s t).2.failure.isNone
  latencyMs := t.latencyMs
  failure := (turn rates errorText cfg p s t).2.failure

theorem turn_probed (p : Provider) : (turn rates errorText cfg p s t).1.entry.toProviderState =
    s.entry.toProviderState.applyProbeResult cfg.health (turnRound rates errorText cfg p s t) := by
  have hthroughput := throughputStep_frame rates errorText cfg (probedState cfg s t) t
    (t.reachabilityFailure cfg p (t.canaryStep cfg s).entry)
  have hdns := dnsStep_frame cfg t (t.canaryStep cfg s).entry
  have hsame := hthroughput.1.trans (hdns.1.trans (canaryStep_frame cfg s t).1)
  rw [← hsame]
  rfl

end Frames

variable {rates errorText} {cfg : LoopConfig} {p : Provider} {s : LoopState} {t : Turn}
  {turns : List Turn}

theorem run_concat : run rates errorText cfg p (turns ++ [t]) =
    ((turn rates errorText cfg p (run rates errorText cfg p turns).1 t).1,
      (run rates errorText cfg p turns).2 ++
        [(turn rates errorText cfg p (run rates errorText cfg p turns).1 t).2]) := by
  rw [run, List.foldl_append, ← run]
  rfl

theorem turn_up (hbefore : s.entry.state ≠ .up)
    (hafter : (turn rates errorText cfg p s t).1.entry.state = .up) :
    (turn rates errorText cfg p s t).2.failure = none := by
  rw [turn_probed rates errorText cfg s t p] at hafter
  rcases ProviderState.applyProbeResult_cases cfg.health (turnRound rates errorText cfg p s t)
    s.entry.toProviderState with ⟨hrecovers, -⟩ | ⟨-, hdown, -⟩ | ⟨-, -, hsame, -⟩
  · exact Option.isNone_iff_eq_none.mp hrecovers.2.1
  · rw [hdown] at hafter
    cases hafter
  · exact absurd (hsame ▸ hafter) hbefore

end Vlb.HealthLoop
