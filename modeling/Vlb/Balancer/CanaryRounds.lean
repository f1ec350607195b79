import Mathlib.Data.List.DropRight
import Vlb.Balancer.HealthLoop

/-!
# The canary's verdict over runs

Canary rounds and probe rounds run on different cadences and share a few fields of the provider's
entry. Whatever the turns of the loop meet, these fields say what the canary rounds so far were, and
no provider comes up against them.

* `Convicted`: the canary rounds that a provider loses its health for.
* `Tally`, `tally_runCanary`: what the fields say of the rounds, kept by each round.
* **`canary_law`**: the verdict of the canary over every run of the loop.
-/

namespace Vlb.HealthLoop

open Canary Time

variable {rates : Rates} {errorText : FetchError → String} {cfg : LoopConfig} {p : Provider}
  {s : LoopState} {t : Turn} {turns : List Turn} {c : CanaryConfig} {entry : ProviderEntry}
  {reports : List CanaryReport}

/-! ## What the rounds come to -/

/-- The last rounds, none of which was ok. -/
def sinceOk (reports : List CanaryReport) : List CanaryReport :=
  reports.rtakeWhile fun r => !r.isOk

/-- Since the last ok round there was proof of tampering, or as many rounds in a row as the
threshold asks for. -/
def Convicted (threshold : UInt32) (reports : List CanaryReport) : Prop :=
  (∃ r ∈ sinceOk reports, r.conclusiveTamper.isSome) ∨ threshold.toNat ≤ (sinceOk reports).length

/-- What the fields of the canary say of the rounds so far. -/
structure Tally (c : CanaryConfig) (reports : List CanaryReport) (entry : ProviderEntry) : Prop where
  failures : entry.canaryFailures.toNat = min (sinceOk reports).length Health.cap
  ok_iff : entry.canaryOk = false ↔ Convicted c.failureThreshold reports
  tampered : entry.canaryTampered = reports.getLast?.bind CanaryReport.conclusiveTamper

theorem not_isOk_of_conclusive {r : CanaryReport} (h : r.conclusiveTamper.isSome) :
    r.isOk = false := by
  unfold CanaryReport.conclusiveTamper at h
  unfold CanaryReport.isOk
  cases htampered : r.tampered with
  | none => simp [htampered] at h
  | some detail => rfl

theorem sinceOk_concat_of_ok {r : CanaryReport} (h : r.isOk = true) :
    sinceOk (reports ++ [r]) = [] :=
  List.rtakeWhile_concat_neg _ _ _ (by simp [h])

theorem sinceOk_concat_of_not_ok {r : CanaryReport} (h : r.isOk = false) :
    sinceOk (reports ++ [r]) = sinceOk reports ++ [r] :=
  List.rtakeWhile_concat_pos _ _ _ (by simp [h])

theorem tally_nil (hthreshold : c.failureThreshold ≠ 0) : Tally c [] {} := by
  have hpos : c.failureThreshold.toNat ≠ 0 := fun h => hthreshold (UInt32.toNat_inj.mp h)
  refine ⟨rfl, ?_, rfl⟩
  simp [Convicted, sinceOk, hpos]

theorem convicted_concat_of_not_ok {threshold : UInt32} {r : CanaryReport} (h : r.isOk = false) :
    Convicted threshold (reports ++ [r]) ↔ Convicted threshold reports ∨
      r.conclusiveTamper.isSome ∨ threshold.toNat ≤ (sinceOk reports).length + 1 := by
  simp only [Convicted, sinceOk_concat_of_not_ok h, List.mem_append, List.mem_singleton,
    List.length_append, List.length_singleton]
  constructor
  · rintro (⟨x, hx | rfl, hc⟩ | hlen)
    · exact Or.inl (Or.inl ⟨x, hx, hc⟩)
    · exact Or.inr (Or.inl hc)
    · exact Or.inr (Or.inr hlen)
  · rintro ((⟨x, hx, hc⟩ | hlen) | hc | hlen)
    · exact Or.inl ⟨x, Or.inl hx, hc⟩
    · exact Or.inr (by omega)
    · exact Or.inl ⟨r, Or.inr rfl, hc⟩
    · exact Or.inr hlen

theorem failures_concat {n : UInt32} {r : CanaryReport}
    (h : n.toNat = min (sinceOk reports).length Health.cap) (hok : r.isOk = false) :
    (UInt32.saturatingAdd n 1).toNat = min (sinceOk (reports ++ [r])).length Health.cap := by
  rw [sinceOk_concat_of_not_ok hok, List.length_append, List.length_singleton]
  exact Health.saturatingAdd_follows h

/-- **A canary round keeps the tally.** -/
theorem tally_runCanary (hthreshold : c.failureThreshold ≠ 0) (h : Tally c reports entry)
    (r : CanaryRound) : Tally c (reports ++ [r.report]) (runCanary c r entry) := by
  have hlast : (reports ++ [r.report]).getLast?.bind CanaryReport.conclusiveTamper =
      r.report.conclusiveTamper := by
    rw [List.getLast?_concat]
    rfl
  unfold runCanary
  cases htamper : r.report.conclusiveTamper with
  | some detail =>
    have hok := not_isOk_of_conclusive (r := r.report) (by rw [htamper]; rfl)
    refine ⟨failures_concat h.failures hok, iff_of_true rfl ?_, (hlast.trans htamper).symm⟩
    rw [convicted_concat_of_not_ok hok, htamper]
    exact Or.inr (Or.inl rfl)
  | none =>
    cases hok : r.report.isOk with
    | true =>
      have hsince : sinceOk (reports ++ [r.report]) = [] := sinceOk_concat_of_ok hok
      have hpos : c.failureThreshold.toNat ≠ 0 := fun h => hthreshold (UInt32.toNat_inj.mp h)
      refine ⟨by rw [hsince]; rfl, iff_of_false (fun h => ?_) ?_, (hlast.trans htamper).symm⟩
      · cases h
      · simp [Convicted, hsince, hpos]
    | false =>
      have hcount := failures_concat h.failures hok
      have hreached : UInt32.saturatingAdd entry.canaryFailures 1 ≥ c.failureThreshold ↔ _ :=
        Health.threshold_le_iff hcount
      have hconvicted : Convicted c.failureThreshold (reports ++ [r.report]) ↔ _ :=
        convicted_concat_of_not_ok hok
      rw [sinceOk_concat_of_not_ok hok, List.length_append, List.length_singleton] at hreached
      dsimp only
      rw [if_neg Bool.false_ne_true]
      split_ifs with hge
      · refine ⟨hcount, iff_of_true rfl ?_, (hlast.trans htamper).symm⟩
        exact hconvicted.mpr (Or.inr (Or.inr (hreached.mp hge)))
      · refine ⟨hcount, ?_, (hlast.trans htamper).symm⟩
        rw [hconvicted, ← h.ok_iff, htamper, ← hreached]
        simp [hge]

/-! ## The rounds of a run -/

/-- The canary rounds that the turns ran. -/
def canaryRounds (records : List TurnRecord) : List CanaryReport :=
  records.filterMap TurnRecord.canary

theorem canaryRounds_concat (records : List TurnRecord) (record : TurnRecord) :
    canaryRounds (records ++ [record]) = canaryRounds records ++ record.canary.toList := by
  rw [canaryRounds, List.filterMap_append]
  cases h : record.canary <;> simp [canaryRounds, h]

theorem tally_turn (hthreshold : cfg.canary.failureThreshold ≠ 0)
    (h : Tally cfg.canary reports s.entry) :
    Tally cfg.canary (reports ++ (turn rates errorText cfg p s t).2.canary.toList)
      (turn rates errorText cfg p s t).1.entry := by
  have hstep : Tally cfg.canary (reports ++ (turn rates errorText cfg p s t).2.canary.toList)
      (t.canaryStep cfg s).entry := by
    change Tally _ (reports ++ (if t.canaryDue cfg s then some t.canary.report else none).toList) _
    unfold Turn.canaryStep
    split_ifs
    · exact tally_runCanary hthreshold h t.canary
    · simpa using h
  obtain ⟨hok, hfailures, htampered, -⟩ := turn_canary rates errorText cfg s t p
  exact ⟨hfailures ▸ hstep.failures, hok ▸ hstep.ok_iff, htampered ▸ hstep.tampered⟩

theorem tally_run (hthreshold : cfg.canary.failureThreshold ≠ 0) (turns : List Turn) :
    Tally cfg.canary (canaryRounds (run rates errorText cfg p turns).2)
      (run rates errorText cfg p turns).1.entry := by
  induction turns using List.reverseRecOn with
  | nil => exact tally_nil hthreshold
  | append_singleton turns t ih =>
    rw [run_concat, canaryRounds_concat]
    exact tally_turn hthreshold ih

/-! ## What the canary's verdict does -/

variable (entry) in
theorem contentFailure_isSome (h : entry.canaryOk = false) : (contentFailure entry).isSome := by
  unfold contentFailure
  rw [h]
  split_ifs <;> first | rfl | contradiction

/-- A turn that finds the canary failing is a failure, of this layer or of one before. -/
theorem failure_of_canaryOk_eq_false
    (h : (turn rates errorText cfg p s t).1.entry.canaryOk = false) :
    (turn rates errorText cfg p s t).2.failure.isSome := by
  have hcontent := contentFailure_isSome (turn rates errorText cfg p s t).1.entry h
  change (Option.or _ _).isSome
  rw [Option.isSome_or, Bool.or_eq_true]
  exact Or.inr hcontent

theorem failure_of_gateway (h : t.gateway.isSuccess = false) :
    (turn rates errorText cfg p s t).2.failure.isSome := by
  change (Option.or _ _).isSome
  rw [Option.isSome_or, Bool.or_eq_true, Turn.reachabilityFailure, h]
  exact Or.inl rfl

theorem not_up_of_no_round (htargets : canaryTargets cfg.canary ≠ [])
    (henabled : cfg.canary.enabled = true) (turns : List Turn)
    (h : canaryRounds (run rates errorText cfg p turns).2 = []) :
    (run rates errorText cfg p turns).1.lastCanary = none ∧
      (run rates errorText cfg p turns).1.entry.state ≠ .up := by
  induction turns using List.reverseRecOn with
  | nil => exact ⟨rfl, nofun⟩
  | append_singleton turns t ih =>
    rw [run_concat, canaryRounds_concat, List.append_eq_nil_iff] at h
    obtain ⟨hlast, hstate⟩ := ih h.1
    have hdue : t.canaryDue cfg (run rates errorText cfg p turns).1 = false := by
      by_contra hdue
      have hran : (if t.canaryDue cfg (run rates errorText cfg p turns).1 then
          some t.canary.report else none).toList = [] := h.2
      rw [if_pos (by simpa using hdue)] at hran
      cases hran
    have hgateway : t.gateway.isSuccess = false := by
      rw [Turn.canaryDue, hlast, henabled] at hdue
      simpa [elapsedAtLeast, htargets] using hdue
    rw [run_concat]
    constructor
    · rw [(turn_canary rates errorText cfg _ t p).2.2.2, Turn.canaryStep, if_neg (by simp [hdue])]
      exact hlast
    · intro hup
      have hnone := turn_up hstate hup
      have hsome : (turn rates errorText cfg p (run rates errorText cfg p turns).1
          t).2.failure.isSome := failure_of_gateway hgateway
      rw [hnone] at hsome
      cases hsome

theorem canaryTargets_ne_nil (hvalid : c.validate = .ok ()) (henabled : c.enabled = true) :
    canaryTargets c ≠ [] := by
  obtain ⟨-, targets, htargets, hne⟩ := CanaryConfig.validate_enabled hvalid henabled
  rw [canaryTargets, if_pos henabled, htargets]
  exact hne

/-! ## The law -/

/-- What the canary rounds so far have to do with the provider, and with its next turn. -/
structure CanaryLaw (rates : Rates) (errorText : FetchError → String) (cfg : LoopConfig)
    (p : Provider) (s : LoopState) (reports : List CanaryReport) : Prop where
  failing_iff : s.entry.canaryOk = false ↔ Convicted cfg.canary.failureThreshold reports
  tampered_iff : s.entry.canaryTampered.isSome ↔
    ∃ r, reports.getLast? = some r ∧ r.conclusiveTamper.isSome
  fails : ∀ t, (turn rates errorText cfg p s t).1.entry.canaryOk = false →
    (turn rates errorText cfg p s t).2.failure.isSome
  stays : ∀ t, (turn rates errorText cfg p s t).1.entry.canaryOk = false → s.entry.state ≠ .up →
    (turn rates errorText cfg p s t).1.entry.state ≠ .up
  first : s.entry.state = .up → reports ≠ []

/-- **The canary's verdict over runs**, whatever the turns of the loop meet. -/
theorem canary_law (hvalid : cfg.canary.validate = .ok ()) (henabled : cfg.canary.enabled = true)
    (turns : List Turn) :
    CanaryLaw rates errorText cfg p (run rates errorText cfg p turns).1
      (canaryRounds (run rates errorText cfg p turns).2) := by
  have htally : Tally cfg.canary (canaryRounds (run rates errorText cfg p turns).2)
      (run rates errorText cfg p turns).1.entry :=
    tally_run (CanaryConfig.validate_enabled hvalid henabled).1 turns
  refine ⟨htally.ok_iff, ?_, fun t => failure_of_canaryOk_eq_false, fun t hfails hstate hup => ?_,
    fun hup hnone => ?_⟩
  · rw [htally.tampered, Option.isSome_bind, Option.any_eq_true]
  · have hsome := failure_of_canaryOk_eq_false hfails
    rw [turn_up hstate hup] at hsome
    cases hsome
  · exact (not_up_of_no_round (canaryTargets_ne_nil hvalid henabled) henabled turns hnone).2 hup

/-! ## A run through a portal -/

/-- The two conversions without the rounding of `f64`. -/
def exactRates : Rates where
  rounded bytes d := UInt64.ofNat ((2 * bytes * 8000000 + d.nanos) / (2 * d.nanos))
  truncated bytes d := UInt64.ofNat (bytes.toNat * 8000000 / d.nanos)

/-- A network on which nothing is resolved. -/
def noAnswer : Network where
  resolve _ := none
  exchange _ := .connectFailed
  elapsed _ := Duration.fromSecs 0

/-- A turn in which every probe succeeds, at `secs` on the monotonic clock, with the canary's report
and a throughput check that cannot resolve its host. -/
def steadyTurn (secs : ℕ) (report : CanaryReport) : Turn where
  gateway := .success 0
  internet := .success 0
  dns := .success 0
  integrity := .clean
  canaryClock := secs * nanosPerSec
  canary := { now := .epoch, report, summary := "" }
  throughputClock := secs * nanosPerSec
  throughput :=
    { now := .epoch, net := noAnswer, before := none, after := none, isActive := false
      probe := { timeout := Duration.fromSecs 15, mark := some 0x201, userAgent := "vlb" } }
  now := .epoch

/-- All of three targets pass. -/
def passedReport : CanaryReport where
  passed := 3
  total := 3
  required := 2
  tampered := none
  latency := some (Duration.fromSecs 1)
  perTarget := []

/-- A portal in front of all of them. -/
def portalReport : CanaryReport where
  passed := 0
  total := 3
  required := 2
  tampered := some "http://detectportal.firefox.com/success.txt: body mismatch"
  latency := none
  perTarget := []

def wan : Provider where
  name := "wan"
  gateway := Ipv4Addr.ofOctets 10 0 0 1
  interface := "eth0"
  priority := 1

/-- A first round that passes, and a portal in the second. -/
theorem canary_law_portal :
    CanaryLaw exactRates (fun _ => "request failed") {} wan
      (run exactRates (fun _ => "request failed") {} wan
        [steadyTurn 0 passedReport, steadyTurn 10 portalReport]).1
      (canaryRounds (run exactRates (fun _ => "request failed") {} wan
        [steadyTurn 0 passedReport, steadyTurn 10 portalReport]).2) :=
  canary_law (by decide +kernel) rfl _

end Vlb.HealthLoop
