import Vlb.Net.Canary

/-!
# The throughput check

A transfer large enough to outlast the burst of a rate limiter. A link that does not reach the floor
is too slow, unless it was busy with the traffic of others at the time.

* `Rates`: the two conversions that the program makes in `f64`, which are not modelled.
* `checkThroughputVia`, `classifyThroughput`: the verdict on one transfer.
* `busyRatherThanCapped`, `concurrentKbps`: what the link carried besides.
* `isTooSlow_iff`: a link is called too slow when the transfer was measured so, or ran out of time.
-/

namespace Vlb.Canary

open Time Http

/-- Kilobits per second, from bytes and the time they took, as `f64` arithmetic has them: rounded
for the transfer, cut off for the rest of the traffic. -/
structure Rates where
  rounded : ℕ → Duration → UInt64
  truncated : UInt64 → Duration → UInt64

/-- Why a transfer cannot be measured. -/
inductive Unmeasured
  | unresolved (host : String)
  | failed (e : FetchError)
  | status (status : UInt16)
  | tooSmall (bytes : ℕ)
  | noTime
  deriving DecidableEq

/-- What a transfer says of the link. -/
inductive ThroughputVerdict
  | ok (kbps : UInt64) (bytes : ℕ) (elapsed : Duration)
  /-- The link is below the floor. `kbps` is missing where the transfer did not finish. -/
  | tooSlow (kbps : Option UInt64) (floorKbps : UInt64) (bytes : ℕ) (elapsed : Duration)
  | unmeasurable (reason : Unmeasured)
  deriving DecidableEq

namespace ThroughputVerdict

/-- The bytes that came, and the time they took. -/
def transfer : ThroughputVerdict → ℕ × Duration
  | .ok _ bytes elapsed | .tooSlow _ _ bytes elapsed => (bytes, elapsed)
  | .unmeasurable _ => (0, Duration.fromSecs 0)

/-- The link is fast enough. -/
def isOk : ThroughputVerdict → Bool
  | .ok .. => true
  | _ => false

def isTooSlow : ThroughputVerdict → Bool
  | .tooSlow .. => true
  | _ => false

def millis (d : Duration) : String := toString (d.nanos / 1000000)

/-- `errorText` writes the chain of causes out. -/
def describe (errorText : FetchError → String) : ThroughputVerdict → String
  | .ok kbps bytes elapsed =>
    toString kbps ++ " kbit/s (" ++ toString bytes ++ " bytes in " ++ millis elapsed ++ " ms)"
  | .tooSlow (some kbps) floorKbps bytes elapsed =>
    toString kbps ++ " kbit/s is below the " ++ toString floorKbps ++ " kbit/s floor (" ++
      toString bytes ++ " bytes took " ++ millis elapsed ++
      " ms) — the link is reachable but too slow to carry real traffic"
  | .tooSlow none floorKbps _ elapsed =>
    "the payload did not finish transferring within " ++ millis elapsed ++
      " ms, so the link is below the " ++ toString floorKbps ++
      " kbit/s floor — reachable, but too slow to carry real traffic"
  | .unmeasurable (.unresolved host) => "DNS resolution of " ++ host ++ " failed"
  | .unmeasurable (.failed e) => errorText e
  | .unmeasurable (.status status) =>
    "HTTP " ++ toString status ++ " fetching the throughput payload"
  | .unmeasurable (.tooSmall bytes) =>
    "throughput payload was only " ++ toString bytes ++
      " bytes — too small to measure against (needs at least 16 KiB to outlast a rate limiter's " ++
      "burst)"
  | .unmeasurable .noTime => "transfer completed in no measurable time"

end ThroughputVerdict

/-- Less says nothing of the link. -/
def minMeasurableBytes : ℕ := 16 * 1024

/-- The verdict on a transfer that has finished. -/
def classifyThroughput (rates : Rates) (bytes : ℕ) (elapsed : Duration) (floorKbps : UInt64) :
    ThroughputVerdict :=
  if bytes < minMeasurableBytes then .unmeasurable (.tooSmall bytes)
  else if elapsed.nanos = 0 then .unmeasurable .noTime
  else
    let kbps := rates.rounded bytes elapsed
    if kbps < floorKbps then .tooSlow (some kbps) floorKbps bytes elapsed
    else .ok kbps bytes elapsed

/-- Room for the payload, and some. -/
def throughputMaxBody : UInt64 := 4 * 1024 * 1024

/-- The request for the payload. -/
def Probe.transfer (probe : Probe) (url : Url) (ip : Ipv4Addr) : HttpRequest where
  url := url
  connectIp := ip
  mark := probe.mark
  timeout := probe.timeout
  maxBody := throughputMaxBody
  userAgent := probe.userAgent

/-- A payload is downloaded and timed. -/
def checkThroughputVia (rates : Rates) (net : Network) (probe : Probe) (url : Url)
    (floorKbps : UInt64) : ThroughputVerdict :=
  match (url.hostAsIp).or (net.resolve url.host) with
  | none => .unmeasurable (.unresolved url.host)
  | some ip =>
    let req := probe.transfer url ip
    match fetch net req with
    | .error .timeout => .tooSlow none floorKbps 0 (net.elapsed req)
    | .error e => .unmeasurable (.failed e)
    | .ok resp =>
      if ¬ (200 ≤ resp.status ∧ resp.status < 300) then .unmeasurable (.status resp.status)
      else classifyThroughput rates resp.body.length (net.elapsed req) floorKbps

/-! ## The rest of the traffic -/

/-- The counters of an interface. -/
structure IfCounters where
  rxBytes : UInt64
  rxPackets : UInt64
  txBytes : UInt64
  txPackets : UInt64
  deriving DecidableEq

def checkedSub (a b : UInt64) : Option UInt64 := if b ≤ a then some (a - b) else none

/-- Nothing where a counter went back. -/
def delta (prev curr : IfCounters) : Option IfCounters := do
  let rxBytes ← checkedSub curr.rxBytes prev.rxBytes
  let rxPackets ← checkedSub curr.rxPackets prev.rxPackets
  let txBytes ← checkedSub curr.txBytes prev.txBytes
  let txPackets ← checkedSub curr.txPackets prev.txPackets
  return { rxBytes, rxPackets, txBytes, txPackets }

/-- What the interface carried during the transfer besides it. -/
def concurrentKbps (rates : Rates) (verdict : ThroughputVerdict) (before after : Option IfCounters) :
    Option UInt64 := do
  let before ← before
  let after ← after
  let d ← delta before after
  let (bytes, elapsed) := verdict.transfer
  if elapsed.nanos = 0 then none
  else
    let others := UInt64.ofNat (d.rxBytes.toNat - bytes)
    some (rates.truncated others elapsed)

/-- The clients have used what is missing. -/
def busyRatherThanCapped (isActive verdictOk : Bool) (concurrentKbps : Option UInt64)
    (floorKbps : UInt64) : Bool :=
  isActive && !verdictOk && concurrentKbps.any fun k => floorKbps ≤ k

/-! ## What a verdict says -/

variable {rates : Rates} {net : Network} {probe : Probe} {url : Url} {floorKbps : UInt64}

theorem classifyThroughput_isTooSlow_iff {bytes : ℕ} {elapsed : Duration} :
    (classifyThroughput rates bytes elapsed floorKbps).isTooSlow = true ↔
      minMeasurableBytes ≤ bytes ∧ elapsed.nanos ≠ 0 ∧ rates.rounded bytes elapsed < floorKbps := by
  unfold classifyThroughput
  split_ifs with hsmall hzero
  · simp [ThroughputVerdict.isTooSlow, Nat.not_le.mpr hsmall]
  · simp [ThroughputVerdict.isTooSlow, hzero]
  · dsimp only
    split_ifs with hslow <;>
      simp [ThroughputVerdict.isTooSlow, Nat.not_lt.mp hsmall, hzero, hslow]

/-- The transfer finished, was large enough to tell, and was below the floor. -/
def MeasuredSlow (rates : Rates) (net : Network) (req : HttpRequest) (floorKbps : UInt64) : Prop :=
  ∃ resp, fetch net req = .ok resp ∧ (200 ≤ resp.status ∧ resp.status < 300) ∧
    minMeasurableBytes ≤ resp.body.length ∧ (net.elapsed req).nanos ≠ 0 ∧
      rates.rounded resp.body.length (net.elapsed req) < floorKbps

/-- **What is called too slow**: a transfer that was measured so, or that ran out of time. -/
theorem isTooSlow_iff : (checkThroughputVia rates net probe url floorKbps).isTooSlow = true ↔
    ∃ ip, (url.hostAsIp).or (net.resolve url.host) = some ip ∧
      (fetch net (probe.transfer url ip) = .error .timeout ∨
        MeasuredSlow rates net (probe.transfer url ip) floorKbps) := by
  unfold checkThroughputVia MeasuredSlow
  cases hip : (url.hostAsIp).or (net.resolve url.host) with
  | none => simp [ThroughputVerdict.isTooSlow]
  | some ip =>
    simp only [Option.some.injEq, exists_eq_left']
    cases hfetch : fetch net (probe.transfer url ip) with
    | error e => cases e <;> simp [ThroughputVerdict.isTooSlow]
    | ok resp =>
      dsimp only
      split_ifs with hstatus
      · simp only [classifyThroughput_isTooSlow_iff, Except.ok.injEq, exists_eq_left', hstatus,
          false_or, true_and, and_self]
      · simp only [ThroughputVerdict.isTooSlow, Except.ok.injEq, exists_eq_left', hstatus,
          Bool.false_eq_true, false_and, or_self]

/-- What could not be measured has no time, and so no other traffic to be excused by. -/
theorem busyRatherThanCapped_unmeasurable (isActive : Bool) (reason : Unmeasured)
    (before after : Option IfCounters) :
    busyRatherThanCapped isActive false
      (concurrentKbps rates (.unmeasurable reason) before after) floorKbps = false := by
  have hnone : concurrentKbps rates (.unmeasurable reason) before after = none := by
    unfold concurrentKbps
    cases before <;> cases after <;> try rfl
    rename_i b a
    cases delta b a <;> simp [ThroughputVerdict.transfer, Duration.fromSecs]
  rw [hnone, busyRatherThanCapped, Option.any_none, Bool.and_false]

end Vlb.Canary
