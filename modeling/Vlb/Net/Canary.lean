import Vlb.Net.Http
import Vlb.Net.Url

/-!
# The content canary

A canary round fetches every configured target through one provider and checks the bytes that come
back. A verdict of `tampered` says that something answers in place of the real server.

* `CanaryConfig.validate`, `CanaryConfig.targetsParsed`: the targets that the daemon accepts.
* `fetch`: the request, over whatever the network makes of it.
* `checkOne`: the verdict on one target; `judge` is its part on the response.
* `checkCanaryVia`: the report on a round.
-/

namespace Vlb

open Time Http

/-! ## Address ranges -/

namespace Ipv4Addr

def octet0 (ip : Ipv4Addr) : BitVec 8 := ip.extractLsb' 24 8

def octet1 (ip : Ipv4Addr) : BitVec 8 := ip.extractLsb' 16 8

/-- 127.0.0.0/8. -/
def isLoopback (ip : Ipv4Addr) : Bool := ip.octet0 == 127

/-- 10.0.0.0/8, 172.16.0.0/12 and 192.168.0.0/16. -/
def isPrivate (ip : Ipv4Addr) : Bool :=
  ip.octet0 = 10 ∨ (ip.octet0 = 172 ∧ 16 ≤ ip.octet1 ∧ ip.octet1 ≤ 31) ∨
    (ip.octet0 = 192 ∧ ip.octet1 = 168)

/-- 169.254.0.0/16. -/
def isLinkLocal (ip : Ipv4Addr) : Bool := ip.octet0 == 169 && ip.octet1 == 254

/-- The `Display` form. -/
def display (ip : Ipv4Addr) : String :=
  ".".intercalate ([24, 16, 8, 0].map fun i => toString (ip.extractLsb' i 8).toNat)

end Ipv4Addr

namespace Canary

/-- The range, when no public name legitimately resolves into it. -/
def nonRoutableRange (ip : Ipv4Addr) : Option String :=
  if ip.isUnspecified then some "0.0.0.0/8"
  else if ip.isLoopback then some "127.0.0.0/8 loopback"
  else if ip.isPrivate then some "RFC1918 private"
  else if ip.isLinkLocal then some "169.254.0.0/16 link-local"
  else if ip.octet0 = 100 ∧ 64 ≤ ip.octet1 ∧ ip.octet1 < 128 then some "100.64.0.0/10 CGNAT"
  else if ip.isMulticast then some "multicast"
  else if ip.isBroadcast then some "255.255.255.255 broadcast"
  else if 240 ≤ ip.octet0 then some "240.0.0.0/4 reserved"
  else none

/-! ## Targets -/

/-- A SHA-256 digest. -/
abbrev Digest := Vector UInt8 32

/-- What the body of a target has to be. -/
inductive ContentExpectation
  | exact (bytes : List UInt8)
  | sha256 (digest : Digest)
  | contains (marker : String)
  | statusOnly
  deriving DecidableEq

/-- A target as it is probed. -/
structure CanaryTarget where
  url : Url
  expectStatus : UInt16
  expect : ContentExpectation
  deriving DecidableEq

/-- A target as it is configured. -/
structure CanaryTargetConfig where
  url : String
  expectStatus : UInt16 := 200
  expectContains : Option String := none
  expectExact : Option String := none
  expectSha256 : Option String := none
  deriving DecidableEq

/-- Why a text is no digest. -/
inductive DigestError
  | length (n : ℕ)
  | character (byte : UInt8)
  deriving DecidableEq

/-- What is wrong with a target. Every message quotes its URL as well. -/
inductive TargetError
  | invalidUrl (e : UrlError)
  | severalExpectations
  | emptyContains
  | invalidSha256 (e : DigestError)
  | statusOutOfRange (status : UInt16)
  | expectsRedirect (status : UInt16)
  deriving DecidableEq

/-- The value of a hexadecimal digit. -/
def hexVal (c : UInt8) : Except DigestError UInt8 :=
  if 48 ≤ c ∧ c ≤ 57 then .ok (c - 48)
  else if 97 ≤ c ∧ c ≤ 102 then .ok (c - 97 + 10)
  else if 65 ≤ c ∧ c ≤ 70 then .ok (c - 65 + 10)
  else .error (.character c)

/-- The bytes that pairs of hexadecimal digits stand for. -/
def hexPairs : List UInt8 → Except DigestError (List UInt8)
  | hi :: lo :: rest => do
    let hi ← hexVal hi
    let lo ← hexVal lo
    let rest ← hexPairs rest
    return ((hi <<< 4) ||| lo) :: rest
  | _ => .ok []

theorem hexPairs_length {bytes out : List UInt8} (h : hexPairs bytes = .ok out) :
    out.length = bytes.length / 2 := by
  fun_induction hexPairs bytes generalizing out with
  | case1 hi lo rest ih =>
    simp only [bind, Except.bind, pure, Except.pure] at h
    repeat' split at h
    all_goals try contradiction
    rename_i hrest
    cases h
    simp only [List.length_cons, ih hrest]
    omega
  | case2 bytes hshort =>
    cases h
    match bytes with
    | [] | [_] => simp
    | hi :: lo :: rest => exact absurd rfl (hshort hi lo rest)

/-- 64 digits, with blanks around them. -/
def parseSha256 (s : String) : Except DigestError Digest :=
  let bytes := Text.utf8 (Text.trim s.toList)
  if hlen : bytes.length = 64 then
    match h : hexPairs bytes with
    | .ok out => .ok ⟨out.toArray, by simp [hexPairs_length h, hlen]⟩
    | .error e => .error e
  else .error (.length bytes.length)

namespace CanaryTargetConfig

/-- How many of the three expectations are set. -/
def expectations (t : CanaryTargetConfig) : ℕ :=
  [t.expectContains.isSome, t.expectExact.isSome, t.expectSha256.isSome].count true

/-- The first expectation that is set counts; the others are ignored. -/
def expectation (t : CanaryTargetConfig) : Except TargetError ContentExpectation :=
  match t.expectContains, t.expectExact, t.expectSha256 with
  | some s, _, _ => if s.isEmpty then .error .emptyContains else .ok (.contains s)
  | none, some s, _ => .ok (.exact (Text.utf8 s.toList))
  | none, none, some s =>
    match parseSha256 s with
    | .ok digest => .ok (.sha256 digest)
    | .error e => .error (.invalidSha256 e)
  | none, none, none => .ok .statusOnly

/-- One turn of the loop of `targets_parsed`. -/
def parsed (t : CanaryTargetConfig) : Except TargetError CanaryTarget :=
  match Url.parse t.url with
  | .error e => .error (.invalidUrl e)
  | .ok url =>
    if t.expectations > 1 then .error .severalExpectations
    else match t.expectation with
      | .error e => .error e
      | .ok expect =>
        if ¬ (100 ≤ t.expectStatus ∧ t.expectStatus ≤ 599) then
          .error (.statusOutOfRange t.expectStatus)
        else if 300 ≤ t.expectStatus ∧ t.expectStatus < 400 then
          .error (.expectsRedirect t.expectStatus)
        else .ok { url, expectStatus := t.expectStatus, expect }

end CanaryTargetConfig

/-! ## Settings -/

/-- How many targets must pass. -/
inductive Quorum
  | any
  | majority
  | all
  deriving DecidableEq

/-- The least number of passing targets out of `total`. -/
def Quorum.required (q : Quorum) (total : ℕ) : ℕ :=
  max (match q with
    | .any => 1
    | .majority => total / 2 + 1
    | .all => total) 1

/-- As it is configured. -/
def Quorum.asStr : Quorum → String
  | .any => "any"
  | .majority => "majority"
  | .all => "all"

/-- The text in the project's own target. -/
def canaryMarker : String := "vlb-canary-v1-do-not-edit"

/-- Three targets that portals do not know how to answer for. -/
def defaultCanaryTargets : List CanaryTargetConfig :=
  [{ url := "http://connectivitycheck.gstatic.com/generate_204", expectStatus := 204 },
    { url := "http://detectportal.firefox.com/success.txt", expectExact := some "success\n" },
    { url := "https://raw.githubusercontent.com/DenisHumen/vlb-Virtual-Load-Balancer/main/canary/" ++
        "canary.txt"
      expectContains := some canaryMarker }]

/-- The section `canary.throughput`. -/
structure ThroughputConfig where
  enabled : Bool := true
  url : String := "https://raw.githubusercontent.com/DenisHumen/vlb-Virtual-Load-Balancer/main/" ++
    "canary/throughput-64k.bin"
  minKbps : UInt64 := 128
  intervalSecs : UInt64 := 120
  timeoutMs : UInt64 := 15000
  failureThreshold : UInt32 := 2
  deriving DecidableEq

/-- The section `canary`. -/
structure CanaryConfig where
  enabled : Bool := true
  intervalSecs : UInt64 := 10
  timeoutMs : UInt64 := 4000
  quorum : String := "majority"
  failureThreshold : UInt32 := 2
  userAgent : String := "vlb/0.7.1 (uplink-canary)"
  targets : List CanaryTargetConfig := defaultCanaryTargets
  throughput : ThroughputConfig := {}
  deriving DecidableEq

/-- What `validate` refuses a canary for; the messages quote the values. -/
inductive CanaryError
  | noTargets
  | intervalZero
  | timeoutTooShort
  | timeoutOverrunsInterval (timeoutMs intervalMs : UInt64)
  | thresholdZero
  | unknownQuorum (quorum : String)
  | target (url : String) (e : TargetError)
  | quorumTooHigh (quorum : String) (required targets : ℕ)
  | emptyUserAgent
  | throughputUrl (e : UrlError)
  | throughputIntervalZero
  | throughputThresholdZero
  | floorZero
  | floorTooHigh (minKbps : UInt64)
  | throughputTimeoutTooShort
  | throughputTimeoutOverrunsInterval (timeoutMs intervalMs : UInt64)
  deriving DecidableEq

/-- `if c { bail!(e) }`. -/
def refuseIf (c : Prop) [Decidable c] (e : CanaryError) : Except CanaryError Unit :=
  if c then .error e else .ok ()

theorem refuseIf_eq_ok {c : Prop} [Decidable c] {e : CanaryError} {u : Unit} :
    refuseIf c e = .ok u ↔ ¬ c := by
  unfold refuseIf
  split_ifs with h <;> simp [h]

/-- An interval, a threshold and a floor of zero are refused. -/
def ThroughputConfig.validate (t : ThroughputConfig) : Except CanaryError Unit := do
  match Url.parse t.url with
  | .error e => throw (.throughputUrl e)
  | .ok _ => pure ()
  refuseIf (t.intervalSecs = 0) .throughputIntervalZero
  refuseIf (t.failureThreshold = 0) .throughputThresholdZero
  refuseIf (t.minKbps = 0) .floorZero
  refuseIf (t.minKbps > 5000) (.floorTooHigh t.minKbps)
  refuseIf (t.timeoutMs < 1000) .throughputTimeoutTooShort
  refuseIf (t.timeoutMs ≥ UInt64.saturatingMul t.intervalSecs 1000)
    (.throughputTimeoutOverrunsInterval t.timeoutMs (t.intervalSecs * 1000))

namespace CanaryConfig

/-- In any case, with blanks around it. -/
def quorumParsed (c : CanaryConfig) : Except CanaryError Quorum :=
  let quorum := Text.toAsciiLowercase (Text.trim c.quorum.toList)
  if quorum = "any".toList then .ok .any
  else if quorum = "majority".toList then .ok .majority
  else if quorum = "all".toList then .ok .all
  else .error (.unknownQuorum (String.ofList quorum))

/-- The first target that cannot be parsed refuses them all. -/
def targetsParsed (c : CanaryConfig) : Except CanaryError (List CanaryTarget) :=
  c.targets.mapM fun t =>
    match t.parsed with
    | .ok target => .ok target
    | .error e => .error (.target t.url e)

/-- The checks of `validate` on the canary. -/
def validate (c : CanaryConfig) : Except CanaryError Unit := do
  if c.enabled then
    refuseIf c.targets.isEmpty .noTargets
    refuseIf (c.intervalSecs = 0) .intervalZero
    refuseIf (c.timeoutMs < 200) .timeoutTooShort
    refuseIf (c.timeoutMs ≥ UInt64.saturatingMul c.intervalSecs 1000)
      (.timeoutOverrunsInterval c.timeoutMs (c.intervalSecs * 1000))
    refuseIf (c.failureThreshold = 0) .thresholdZero
    let quorum ← c.quorumParsed
    let targets ← c.targetsParsed
    let required := quorum.required targets.length
    refuseIf (required > targets.length) (.quorumTooHigh c.quorum required targets.length)
    refuseIf (Text.trim c.userAgent.toList).isEmpty .emptyUserAgent
    if c.throughput.enabled then c.throughput.validate

theorem validate_enabled {c : CanaryConfig} (h : c.validate = .ok ()) (henabled : c.enabled = true) :
    c.failureThreshold ≠ 0 ∧ ∃ targets, c.targetsParsed = .ok targets ∧ targets ≠ [] := by
  simp only [validate, henabled, if_true, bind_eq_ok_iff, refuseIf_eq_ok] at h
  obtain ⟨-, -, -, -, -, -, -, -, -, hthreshold, quorum, -, targets, htargets, -, hquorum, -⟩ := h
  refine ⟨hthreshold, targets, htargets, ?_⟩
  rintro rfl
  exact hquorum (Nat.lt_of_lt_of_le Nat.zero_lt_one (Nat.le_max_right _ _))

end CanaryConfig

example : ({} : CanaryConfig).validate = .ok () := by decide +kernel

/-! ## The exchange -/

/-- What a server, and the network on the way to it, make of a request. A server that answers
closes the connection within the budget. -/
inductive Exchange
  | connectFailed
  /-- The host is no name for TLS. -/
  | badServerName
  | handshakeFailed
  | writeFailed
  | answered (p : Peer)
  | timedOut

/-- Why there is no response. -/
inductive FetchError
  | connectFailed
  | badServerName
  | handshakeFailed
  | writeFailed
  | response (e : HttpError)
  | timeout
  deriving DecidableEq

/-- What is asked of a server. -/
structure HttpRequest where
  url : Url
  connectIp : Ipv4Addr
  mark : Option UInt32
  timeout : Duration
  maxBody : UInt64
  userAgent : String
  deriving DecidableEq

/-- What the network makes of the requests of one probe. -/
structure Network where
  resolve : String → Option Ipv4Addr
  exchange : HttpRequest → Exchange
  elapsed : HttpRequest → Duration

/-- No request reads more. -/
def absoluteMaxBody : UInt64 := 64 * 1024 * 1024

/-- How much of a body is read. -/
def HttpRequest.cap (req : HttpRequest) : UInt64 := min req.maxBody absoluteMaxBody

/-- One request and its response. -/
def fetch (net : Network) (req : HttpRequest) : Except FetchError HttpResponse :=
  match net.exchange req with
  | .connectFailed => .error .connectFailed
  | .badServerName => .error .badServerName
  | .handshakeFailed => .error .handshakeFailed
  | .writeFailed => .error .writeFailed
  | .timedOut => .error .timeout
  | .answered p =>
    match readToCap p req.cap with
    | .error e => .error (.response e)
    | .ok raw =>
      match parseResponse raw req.cap with
      | .error e => .error (.response e)
      | .ok resp => .ok resp

/-- The first header of a name given in lower case. -/
def header (resp : HttpResponse) (name : String) : Option String :=
  (resp.headers.find? fun h => h.1 = name).map Prod.snd

/-- The statuses of a redirect. -/
def isRedirect (resp : HttpResponse) : Bool :=
  resp.status ∈ ([301, 302, 303, 307, 308] : List UInt16)

/-! ## One target -/

/-- What a verdict is accompanied by: what its text is made of. -/
inductive Detail
  | unresolved (host : String)
  | rewritten (host : String) (ip : Ipv4Addr) (range : String)
  | failed (e : FetchError)
  | redirect (status : UInt16) (location : String) (expected : UInt16)
  | portal
  | rejected (status expected : UInt16) (body : List UInt8)
  | otherStatus (status expected : UInt16) (body : List UInt8)
  | cut (read : ℕ)
  | bodyMismatch (expected : ℕ) (body : List UInt8)
  | digestMismatch (expected got : Digest) (body : List UInt8)
  | markerAbsent (marker : String) (body : List UInt8)
  deriving DecidableEq

/-- What a target says of the uplink. -/
inductive CanaryVerdict
  | ok (latency : Duration)
  | tampered (detail : Detail)
  | unreachable (detail : Detail)
  deriving DecidableEq

/-- The target was reached, and answered as expected. -/
def CanaryVerdict.isOk : CanaryVerdict → Bool
  | .ok _ => true
  | _ => false

/-- Somebody else has answered. -/
def CanaryVerdict.isTampered : CanaryVerdict → Bool
  | .tampered _ => true
  | _ => false

/-- What was wrong. -/
def CanaryVerdict.detail : CanaryVerdict → Option Detail
  | .ok _ => none
  | .tampered detail | .unreachable detail => some detail

/-- `find_subslice` of the canary, which only tells whether the needle is there. -/
def hasSubslice (haystack needle : List UInt8) : Bool :=
  if needle.isEmpty then true
  else if haystack.length < needle.length then false
  else haystack.tails.any needle.isPrefixOf

/-- `check_one` on the response. -/
def judge (sha256 : List UInt8 → Digest) (target : CanaryTarget) (latency : Duration)
    (resp : HttpResponse) : CanaryVerdict :=
  if isRedirect resp then
    .tampered (.redirect resp.status ((header resp "location").getD "(no Location header)")
      target.expectStatus)
  else if resp.status = 511 then .tampered .portal
  else if resp.status ≠ target.expectStatus then
    if 400 ≤ resp.status ∧ resp.status < 600 then
      .unreachable (.rejected resp.status target.expectStatus resp.body)
    else .tampered (.otherStatus resp.status target.expectStatus resp.body)
  else if resp.truncated ∧ target.expect ≠ .statusOnly then .unreachable (.cut resp.body.length)
  else match target.expect with
    | .statusOnly => .ok latency
    | .exact want =>
      if resp.body = want then .ok latency
      else .tampered (.bodyMismatch want.length resp.body)
    | .sha256 want =>
      let got := sha256 resp.body
      if got = want then .ok latency else .tampered (.digestMismatch want got resp.body)
    | .contains marker =>
      if hasSubslice resp.body (Text.utf8 marker.toList) then .ok latency
      else .tampered (.markerAbsent marker resp.body)

/-- Where the target's host is, and whether DNS said so. -/
def locate (net : Network) (target : CanaryTarget) : Option (Ipv4Addr × Bool) :=
  match target.url.hostAsIp with
  | some ip => some (ip, false)
  | none => (net.resolve target.url.host).map fun ip => (ip, true)

/-- What the requests of a round have in common. -/
structure Probe where
  timeout : Duration
  mark : Option UInt32
  userAgent : String

/-- Enough for a portal's page to be recognised. -/
def canaryMaxBody : UInt64 := 256 * 1024

/-- The request to a target at this address. -/
def Probe.request (probe : Probe) (target : CanaryTarget) (ip : Ipv4Addr) : HttpRequest where
  url := target.url
  connectIp := ip
  mark := probe.mark
  timeout := probe.timeout
  maxBody := canaryMaxBody
  userAgent := probe.userAgent

/-- The verdict of one target. -/
def checkOne (sha256 : List UInt8 → Digest) (net : Network) (probe : Probe)
    (target : CanaryTarget) : CanaryVerdict :=
  match locate net target with
  | none => .unreachable (.unresolved target.url.host)
  | some (ip, fromDns) =>
    match if fromDns then nonRoutableRange ip else none with
    | some range => .tampered (.rewritten target.url.host ip range)
    | none =>
      let req := probe.request target ip
      match fetch net req with
      | .error e => .unreachable (.failed e)
      | .ok resp => judge sha256 target (net.elapsed req) resp

/-! ## The round -/

/-- What a round says of the uplink. -/
structure CanaryReport where
  passed : ℕ
  total : ℕ
  required : ℕ
  /-- A target that proved interception. -/
  tampered : Option String
  latency : Option Duration
  perTarget : List (String × CanaryVerdict)

namespace CanaryReport

/-- The quorum was met, and nobody tampered. -/
def isOk (r : CanaryReport) : Bool := r.tampered.isNone && r.required ≤ r.passed

/-- Tampering that is proof: not enough targets verified either. -/
def conclusiveTamper (r : CanaryReport) : Option String :=
  match r.tampered with
  | some detail => if r.passed < r.required then some detail else none
  | none => none

/-- The line for logs and the status. `text` writes a detail out. -/
def summary (text : Detail → String) (r : CanaryReport) : String :=
  match r.conclusiveTamper, r.tampered with
  | some t, _ => "CONTENT TAMPERED — " ++ t
  | none, some t =>
    "content mismatch on one target while " ++ toString r.passed ++ "/" ++ toString r.total ++
      " others still verified (counted as a failed round, not proof) — " ++ t
  | none, none =>
    if r.isOk then toString r.passed ++ "/" ++ toString r.total ++ " canary targets verified"
    else
      let failures := (r.perTarget.filter fun t => !t.2.isOk).map fun t =>
        t.1 ++ ": " ++ (t.2.detail.map text).getD "failed"
      "only " ++ toString r.passed ++ "/" ++ toString r.total ++
        " canary targets verified (need " ++ toString r.required ++ ") — " ++
        "; ".intercalate failures

end CanaryReport

/-- The least of the latencies. -/
def leastLatency (vs : List CanaryVerdict) : Option Duration :=
  vs.foldl (fun least v => match v, least with
    | .ok latency, some d => some (min d latency)
    | .ok latency, none => some latency
    | _, _ => least) none

/-- One round, over what the network makes of the probe of each target. -/
def checkCanaryVia (sha256 : List UInt8 → Digest) (text : Detail → String) (quorum : Quorum)
    (probe : Probe) (targets : List (CanaryTarget × Network)) : CanaryReport :=
  if targets.isEmpty then
    { passed := 0, total := 0, required := 0, tampered := none, latency := none, perTarget := [] }
  else
    let perTarget := targets.map fun t =>
      (t.1.url.display, checkOne sha256 t.2 probe t.1)
    { passed := perTarget.countP fun t => t.2.isOk
      total := targets.length
      required := quorum.required (max targets.length 1)
      tampered := (perTarget.find? fun t => t.2.isTampered).map fun t =>
        t.1 ++ ": " ++ (t.2.detail.map text).getD "content mismatch"
      latency := leastLatency (perTarget.map Prod.snd)
      perTarget }

end Canary

end Vlb
