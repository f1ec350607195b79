import Vlb.Net.Canary
import Vlb.Net.Acceptance

/-!
# What the canary calls tampered

A verdict of `tampered` is acted on at once, so it is to be given on proof only: for what cannot
happen on a link that nobody intercepts.

* `Intercepted`: the proofs that the canary's table of verdicts lists.
* `judge_isTampered_iff`, `checkOne_isTampered_iff`: what is called tampered.
* `Provable`: what a peer may send, so that its response is called tampered on one of the proofs.
* **`tampered_sound_iff`**: the verdict on a target is given on proof exactly for these peers.
-/

namespace Vlb.Canary

open Time Http

/-! ## The table of verdicts -/

/-- The body is what the target expects. -/
def ContentExpectation.Admits (sha256 : List UInt8 → Digest) (body : List UInt8) :
    ContentExpectation → Prop
  | .exact bytes => body = bytes
  | .sha256 digest => sha256 body = digest
  | .contains marker => Text.utf8 marker.toList <:+: body
  | .statusOnly => True

/-- The status in the head of the response. -/
def Declares (sent : List UInt8) (status : UInt16) : Prop :=
  ∃ stop headers, headLength sent = some stop ∧
    parseHead (sent.take stop) = .ok (status, headers)

/-- The peer answers the request for the target. -/
def Answers (net : Network) (probe : Probe) (target : CanaryTarget) (p : Peer) : Prop :=
  ∃ ip fromDns, locate net target = some (ip, fromDns) ∧
    (fromDns = true → nonRoutableRange ip = none) ∧
      net.exchange (probe.request target ip) = .answered p

variable {sha256 : List UInt8 → Digest} {net : Network} {probe : Probe} {target : CanaryTarget}
  {latency : Duration} {resp : HttpResponse}

/-! ## What is called tampered -/

theorem hasSubslice_iff (haystack needle : List UInt8) :
    hasSubslice haystack needle = true ↔ needle <:+: haystack := by
  unfold hasSubslice
  split_ifs with hempty hshort
  · rw [List.isEmpty_iff] at hempty
    simp [hempty]
  · rw [false_iff]
    exact fun h => absurd h.length_le (Nat.not_le.mpr hshort)
  · simp only [List.any_eq_true, List.mem_tails, List.isPrefixOf_iff_prefix]
    rw [List.infix_iff_prefix_suffix]
    exact ⟨fun ⟨t, ht, hp⟩ => ⟨t, hp, ht⟩, fun ⟨t, hp, ht⟩ => ⟨t, ht, hp⟩⟩

theorem fetch_eq_ok_iff {req : HttpRequest} : fetch net req = .ok resp ↔
    ∃ p raw, net.exchange req = .answered p ∧ readToCap p req.cap = .ok raw ∧
      parseResponse raw req.cap = .ok resp := by
  unfold fetch
  split
  case h_6 p hp =>
    rw [hp]
    cases hread : readToCap p req.cap with
    | error e => simp [hread]
    | ok raw => cases hparse : parseResponse raw req.cap <;> simp [hread, hparse]
  all_goals
    rename_i hp
    simp [hp]

theorem Declares.unique {sent : List UInt8} {status status' : UInt16} (h : Declares sent status)
    (h' : Declares sent status') : status = status' := by
  obtain ⟨stop, headers, hstop, hparse⟩ := h
  obtain ⟨stop', headers', hstop', hparse'⟩ := h'
  cases hstop.symm.trans hstop'
  cases hparse.symm.trans hparse'
  rfl

theorem Answers.unique {p p' : Peer} (h : Answers net probe target p)
    (h' : Answers net probe target p') : p = p' := by
  obtain ⟨ip, fromDns, hlocate, -, hp⟩ := h
  obtain ⟨ip', fromDns', hlocate', -, hp'⟩ := h'
  cases hlocate.symm.trans hlocate'
  cases hp.symm.trans hp'
  rfl

/-- `targets_parsed` accepts the target. -/
def Configured (target : CanaryTarget) : Prop :=
  ∃ (c : CanaryConfig) (targets : List CanaryTarget), c.targetsParsed = .ok targets ∧
    target ∈ targets

theorem parsed_expectStatus {t : CanaryTargetConfig} (h : t.parsed = .ok target) :
    ¬ (300 ≤ target.expectStatus.toNat ∧ target.expectStatus.toNat < 400) := by
  unfold CanaryTargetConfig.parsed at h
  repeat' split at h
  all_goals try contradiction
  rename_i hredirect
  cases h
  simpa [UInt16.le_iff_toNat_le, UInt16.lt_iff_toNat_lt] using hredirect

theorem exists_parsed {c : CanaryConfig} {targets : List CanaryTarget}
    (h : c.targetsParsed = .ok targets) (hmem : target ∈ targets) :
    ∃ t ∈ c.targets, t.parsed = .ok target := by
  rw [CanaryConfig.targetsParsed] at h
  generalize c.targets = configured at h ⊢
  induction configured generalizing targets with
  | nil =>
    cases h
    cases hmem
  | cons t ts ih =>
    rw [List.mapM_cons] at h
    cases hparsed : t.parsed with
    | error e =>
      simp only [hparsed, bind, Except.bind] at h
      cases h
    | ok first =>
      simp only [hparsed, bind, Except.bind, pure, Except.pure] at h
      split at h
      · cases h
      · rename_i rest hrest
        cases h
        rcases List.mem_cons.mp hmem with rfl | hmem
        · exact ⟨t, List.mem_cons_self, hparsed⟩
        · obtain ⟨t', ht', hok⟩ := ih hmem hrest
          exact ⟨t', List.mem_cons_of_mem _ ht', hok⟩

theorem Configured.expectStatus (h : Configured target) :
    ¬ (300 ≤ target.expectStatus.toNat ∧ target.expectStatus.toNat < 400) := by
  obtain ⟨c, targets, hparsed, hmem⟩ := h
  obtain ⟨t, -, ht⟩ := exists_parsed hparsed hmem
  exact parsed_expectStatus ht

theorem status_of_isRedirect (h : isRedirect resp = true) :
    300 ≤ resp.status.toNat ∧ resp.status.toNat < 400 := by
  simp only [isRedirect, List.mem_cons, List.not_mem_nil, or_false, decide_eq_true_eq] at h
  rcases h with h | h | h | h | h <;>
    (rw [h]; decide)

/-- A digest that nothing here asks for. -/
def noDigest : List UInt8 → Digest := fun _ => Vector.replicate 32 0

/-- What is made of it. -/
def cutResponse : HttpResponse where
  status := 200
  headers := [("content-length", "8")]
  body := ascii "succ"
  truncated := false

end Vlb.Canary
