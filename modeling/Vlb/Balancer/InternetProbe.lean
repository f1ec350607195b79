import Vlb.Balancer.HealthLoop
import Vlb.Net.DnsQuery

/-!
# The internet probe

Every configured target is probed by a task of its own, and the results of all of them make one
outcome. A hostname has to pass where there is one, since an uplink may let a few well-known
addresses through and nothing else.

* `probeTask`: the result of one target, unless its task panics.
* `checkInternetVia`: the outcome; what is a hostname is known from the results alone.
* `PassRule`: when the probe should pass, from the targets.
* **`passRule_iff`**: the two agree, unless the tasks of all hostnames panic.
-/

namespace Vlb.HealthLoop

open Canary

/-! ## The tasks -/

/-- What the task of a target brings back. -/
structure TargetResult where
  isHostname : Bool
  outcome : ProbeOutcome

/-- What the task of one target meets. -/
structure TaskRun where
  /-- What the provider's DNS makes of a hostname. -/
  resolved : Option Ipv4Addr
  /-- The burst of pings to the address. -/
  ping : ProbeOutcome
  panics : Bool

/-- The result of a target's task. -/
def probeTask (target : ProbeTarget) (run : TaskRun) : Option TargetResult :=
  if run.panics then none
  else match target with
    | .ip _ => some { isHostname := false, outcome := run.ping }
    | .hostname _ =>
      match run.resolved with
      | none => some { isHostname := true, outcome := .failed }
      | some ip =>
        if (nonRoutableRange ip).isSome then some { isHostname := true, outcome := .failed }
        else some { isHostname := true, outcome := run.ping }

/-- What the results so far come to. -/
structure Tallied where
  hasHostname : Bool := false
  hostnameOk : Bool := false
  anyIpOk : Bool := false
  firstSuccessLatency : Option UInt64 := none

/-- The loop over the tasks. A panicked one is passed over. -/
def tallyResult (acc : Tallied) : Option TargetResult → Tallied
  | none => acc
  | some res =>
    if res.isHostname then
      match res.outcome with
      | .success latency =>
        { acc with
          hasHostname := true
          hostnameOk := true
          firstSuccessLatency := acc.firstSuccessLatency.or (some latency) }
      | .failed => { acc with hasHostname := true }
    else
      match res.outcome with
      | .success latency =>
        { acc with
          anyIpOk := true
          firstSuccessLatency := acc.firstSuccessLatency.or (some latency) }
      | .failed => acc

/-- `check_internet_via`, over the targets and what their tasks meet. -/
def checkInternetVia (tasks : List (ProbeTarget × TaskRun)) : ProbeOutcome :=
  if tasks.isEmpty then .failed
  else
    let acc := (tasks.map fun t => probeTask t.1 t.2).foldl tallyResult {}
    let ok := if acc.hasHostname then acc.hostnameOk else acc.anyIpOk
    if ok then .success (acc.firstSuccessLatency.getD 0) else .failed

/-! ## The rule -/

/-- The target has to be resolved. -/
def isHostname : ProbeTarget → Bool
  | .ip _ => false
  | .hostname _ => true

/-- The target's task succeeds. -/
def Succeeds (t : ProbeTarget × TaskRun) : Prop :=
  ∃ res, probeTask t.1 t.2 = some res ∧ res.outcome.isSuccess = true

/-- At least one hostname succeeds where there are any, or else at least one address. -/
def PassRule (tasks : List (ProbeTarget × TaskRun)) : Prop :=
  (∃ t ∈ tasks, isHostname t.1 = true ∧ Succeeds t) ∨
    (∀ t ∈ tasks, isHostname t.1 = false) ∧ ∃ t ∈ tasks, Succeeds t

/-- There are hostnames, but the tasks of all of them panic, and an address succeeds. -/
structure HostnamesLost (tasks : List (ProbeTarget × TaskRun)) : Prop where
  configured : ∃ t ∈ tasks, isHostname t.1 = true
  panicked : ∀ t ∈ tasks, isHostname t.1 = true → t.2.panics = true
  address : ∃ t ∈ tasks, isHostname t.1 = false ∧ Succeeds t

variable {tasks : List (ProbeTarget × TaskRun)} {t : ProbeTarget × TaskRun} {res : TargetResult}

theorem probeTask_eq_none : probeTask t.1 t.2 = none ↔ t.2.panics = true := by
  unfold probeTask
  constructor
  · intro h
    split_ifs at h with hpanics
    · exact hpanics
    · repeat' split at h
      all_goals cases h
  · exact fun h => if_pos h

theorem isHostname_of_probeTask (h : probeTask t.1 t.2 = some res) :
    res.isHostname = isHostname t.1 := by
  unfold probeTask at h
  repeat' split at h
  all_goals cases h
  all_goals simp_all [isHostname]

theorem tally_foldl (results : List (Option TargetResult)) (acc : Tallied) :
    ((results.foldl tallyResult acc).hasHostname = true ↔
        acc.hasHostname = true ∨ ∃ res, some res ∈ results ∧ res.isHostname = true) ∧
      ((results.foldl tallyResult acc).hostnameOk = true ↔
        acc.hostnameOk = true ∨
          ∃ res, some res ∈ results ∧ res.isHostname = true ∧ res.outcome.isSuccess = true) ∧
      ((results.foldl tallyResult acc).anyIpOk = true ↔
        acc.anyIpOk = true ∨
          ∃ res, some res ∈ results ∧ res.isHostname = false ∧ res.outcome.isSuccess = true) := by
  induction results generalizing acc with
  | nil => simp
  | cons r results ih =>
    obtain ⟨hhas, hok, hip⟩ := ih (tallyResult acc r)
    rw [List.foldl_cons, hhas, hok, hip]
    rcases r with _ | ⟨isHostname, outcome⟩
    · simp [tallyResult]
    · cases isHostname <;> cases outcome <;> simp [tallyResult, ProbeOutcome.isSuccess]

theorem exists_result_iff (P : TargetResult → Prop) :
    (∃ res, some res ∈ tasks.map (fun t => probeTask t.1 t.2) ∧ P res) ↔
      ∃ t ∈ tasks, ∃ res, probeTask t.1 t.2 = some res ∧ P res := by
  constructor
  · rintro ⟨res, hres, hP⟩
    obtain ⟨t, ht, hresult⟩ := List.mem_map.mp hres
    exact ⟨t, ht, res, hresult, hP⟩
  · rintro ⟨t, ht, res, hresult, hP⟩
    exact ⟨res, List.mem_map.mpr ⟨t, ht, hresult⟩, hP⟩

theorem exists_succeeds_iff (b : Bool) :
    (∃ t ∈ tasks, ∃ res, probeTask t.1 t.2 = some res ∧
        res.isHostname = b ∧ res.outcome.isSuccess = true) ↔
      ∃ t ∈ tasks, isHostname t.1 = b ∧ Succeeds t := by
  refine exists_congr fun t => and_congr_right fun _ => ⟨?_, ?_⟩
  · rintro ⟨res, hresult, hb, hok⟩
    exact ⟨(isHostname_of_probeTask hresult).symm.trans hb, res, hresult, hok⟩
  · rintro ⟨hb, res, hresult, hok⟩
    exact ⟨res, hresult, (isHostname_of_probeTask hresult).trans hb, hok⟩

theorem exists_reported_iff :
    (∃ t ∈ tasks, ∃ res, probeTask t.1 t.2 = some res ∧ res.isHostname = true) ↔
      ∃ t ∈ tasks, isHostname t.1 = true ∧ t.2.panics = false := by
  refine exists_congr fun t => and_congr_right fun _ => ⟨?_, ?_⟩
  · rintro ⟨res, hresult, hhost⟩
    refine ⟨(isHostname_of_probeTask hresult).symm.trans hhost, ?_⟩
    by_contra hpanics
    rw [probeTask_eq_none.mpr (Bool.not_eq_false _ ▸ hpanics)] at hresult
    cases hresult
  · rintro ⟨hhost, hpanics⟩
    obtain ⟨res, hresult⟩ := Option.ne_none_iff_exists'.mp
      (mt probeTask_eq_none.mp (by rw [hpanics]; exact Bool.false_ne_true))
    exact ⟨res, hresult, (isHostname_of_probeTask hresult).trans hhost⟩

theorem Succeeds.not_panics (h : Succeeds t) : ¬ t.2.panics = true := by
  obtain ⟨res, hresult, -⟩ := h
  intro hpanics
  rw [probeTask_eq_none.mpr hpanics] at hresult
  cases hresult

/-- **What the probe decides**, from the tasks: a hostname whose task panics is none. -/
theorem checkInternetVia_isSuccess_iff : (checkInternetVia tasks).isSuccess = true ↔
    (∃ t ∈ tasks, isHostname t.1 = true ∧ Succeeds t) ∨
      (∀ t ∈ tasks, isHostname t.1 = true → t.2.panics = true) ∧
        ∃ t ∈ tasks, isHostname t.1 = false ∧ Succeeds t := by
  obtain ⟨hhas, hok, hip⟩ := tally_foldl (tasks.map fun t => probeTask t.1 t.2) {}
  simp only [Bool.false_eq_true, false_or, exists_result_iff] at hhas hok hip
  rw [exists_reported_iff] at hhas
  rw [exists_succeeds_iff] at hok hip
  have hlost : (∀ t ∈ tasks, isHostname t.1 = true → t.2.panics = true) ↔
      ¬ ∃ t ∈ tasks, isHostname t.1 = true ∧ t.2.panics = false := by
    simp only [not_exists, not_and, Bool.not_eq_false]
  have hreported : (∃ t ∈ tasks, isHostname t.1 = true ∧ Succeeds t) →
      ∃ t ∈ tasks, isHostname t.1 = true ∧ t.2.panics = false := fun ⟨t, ht, hhost, hsucceeds⟩ =>
    ⟨t, ht, hhost, Bool.eq_false_of_not_eq_true hsucceeds.not_panics⟩
  have hdecides : (checkInternetVia tasks).isSuccess = true ↔
      let acc := (tasks.map fun t => probeTask t.1 t.2).foldl tallyResult {}
      (if acc.hasHostname then acc.hostnameOk else acc.anyIpOk) = true := by
    unfold checkInternetVia
    rcases tasks with _ | ⟨t, ts⟩
    · decide
    · have hok (ok : Bool) (latency : UInt64) :
          (if ok = true then ProbeOutcome.success latency else .failed).isSuccess = ok := by
        cases ok <;> rfl
      rw [if_neg (by simp)]
      dsimp only
      rw [hok]
  rw [hlost, ← hhas, ← hok, ← hip, hdecides]
  rw [← hhas, ← hok] at hreported
  dsimp only
  split_ifs with hif
  · simp [hif]
  · simp [hif, mt hreported hif]

/-- **The probe follows its rule** unless the tasks of all its hostnames panic and an address
succeeds. -/
theorem passRule_iff (tasks : List (ProbeTarget × TaskRun)) :
    ((checkInternetVia tasks).isSuccess = true ↔ PassRule tasks) ↔ ¬ HostnamesLost tasks := by
  have hlost : HostnamesLost tasks ↔ (∃ t ∈ tasks, isHostname t.1 = true) ∧
      (∀ t ∈ tasks, isHostname t.1 = true → t.2.panics = true) ∧
        ∃ t ∈ tasks, isHostname t.1 = false ∧ Succeeds t :=
    ⟨fun h => ⟨h.configured, h.panicked, h.address⟩, fun ⟨hc, hp, ha⟩ => ⟨hc, hp, ha⟩⟩
  have hnone : (∀ t ∈ tasks, isHostname t.1 = false) ↔ ¬ ∃ t ∈ tasks, isHostname t.1 = true := by
    simp only [not_exists, not_and, Bool.not_eq_true]
  rw [checkInternetVia_isSuccess_iff, PassRule, hlost, hnone]
  by_cases hconfigured : ∃ t ∈ tasks, isHostname t.1 = true
  · -- the address counts for the code where no hostname is left, and never for the rule
    have hpanicked (h : ∀ t ∈ tasks, isHostname t.1 = true → t.2.panics = true) :
        ¬ ∃ t ∈ tasks, isHostname t.1 = true ∧ Succeeds t :=
      fun ⟨t, ht, hhost, hok⟩ => hok.not_panics (h t ht hhost)
    simp only [hconfigured, not_true_eq_false, false_and, or_false, true_and]
    constructor
    · rintro hrule ⟨hpanics, haddress⟩
      exact hpanicked hpanics (hrule.mp (Or.inr ⟨hpanics, haddress⟩))
    · exact fun hnot => or_iff_left hnot
  · have hall := hnone.mpr hconfigured
    have hvacuous : ∀ t ∈ tasks, isHostname t.1 = true → t.2.panics = true := fun t ht hhost =>
      absurd ⟨t, ht, hhost⟩ hconfigured
    have haddress : (∃ t ∈ tasks, isHostname t.1 = false ∧ Succeeds t) ↔ ∃ t ∈ tasks, Succeeds t :=
      exists_congr fun t => and_congr_right fun ht => and_iff_right (hall t ht)
    rw [haddress, and_iff_right hvacuous, and_iff_right hconfigured]
    exact iff_of_true Iff.rfl fun hlost => hconfigured hlost.1

/-- The default targets where the task of the hostname panics and the addresses answer. -/
def lostHostname : List (ProbeTarget × TaskRun) :=
  [(.ip (Ipv4Addr.ofOctets 1 1 1 1), { resolved := none, ping := .success 0, panics := false }),
    (.ip (Ipv4Addr.ofOctets 8 8 8 8), { resolved := none, ping := .success 0, panics := false }),
    (.hostname "google.com".toList, { resolved := none, ping := .failed, panics := true })]

/-- The panic passes the probe. -/
theorem not_passRule : ¬ ∀ tasks : List (ProbeTarget × TaskRun), tasks ≠ [] →
    ((checkInternetVia tasks).isSuccess = true ↔ PassRule tasks) := by
  intro hall
  have hpass : (checkInternetVia lostHostname).isSuccess = true := by decide
  rcases (hall lostHostname (List.cons_ne_nil _ _)).mp hpass with ⟨t, ht, hhost, hok⟩ | ⟨hnone, -⟩
  · have hpanics : ∀ t ∈ lostHostname, isHostname t.1 = true → t.2.panics = true := by decide
    exact hok.not_panics (hpanics t ht hhost)
  · have hhost : isHostname (.hostname "google.com".toList) = true := rfl
    rw [hnone _ (List.mem_cons_of_mem _ (List.mem_cons_of_mem _ List.mem_cons_self))] at hhost
    cases hhost

end Vlb.HealthLoop
