import Vlb.Lib.Streak
import Vlb.Selection

/-!
# The health of a provider

What `apply_probe_result` makes of each probe round: two counters that reset each other, the
thresholds on them, and the time a provider came up, which failback trusts.

* `ProviderState.applyProbeResult`: one round.
* `probed`: the state after a history of rounds, from a fresh provider.
* **`hysteresis`**: the state, the counters and the time follow from the shape of the history.
* **`verdict_iff`**: which histories give a first verdict in the rounds it is promised for.
* **`noCause_iff`**: when a provider that is up is shown without a cause of failure.
-/

namespace Vlb

open Time

/-- The layer of checking that failed. -/
inductive FailureLayer
  | gateway
  | internet
  | dns
  | dnsHijack
  | contentTampered
  | contentUnreachable
  | throttled
  deriving DecidableEq, Repr

/-- Proof of a broken uplink rather than a symptom. -/
def FailureLayer.isConclusive : FailureLayer → Bool
  | .dnsHijack | .contentTampered => true
  | _ => false

/-- What the daemon knows of a provider; the counters of the DNS, canary and throughput checks,
which decide the outcome of a round, are not part of it. -/
structure ProviderState where
  state : HealthState := .unknown
  consecutiveFailures : UInt32 := 0
  consecutiveSuccesses : UInt32 := 0
  /-- The bits of a 64-bit float. -/
  lastLatencyMs : Option UInt64 := none
  lastCheck : Option DateTime := none
  upSince : Option DateTime := none
  failureLayer : Option FailureLayer := none
  failureDetail : Option String := none
  deriving DecidableEq

/-- One probe round: when its result is applied, and the result. -/
structure ProbeRound where
  now : DateTime
  success : Bool
  latencyMs : Option UInt64 := none
  failure : Option (FailureLayer × String) := none
  deriving DecidableEq

/-- A failure that skips the threshold. -/
def ProbeRound.conclusive (r : ProbeRound) : Bool :=
  !r.success && (r.failure.map fun f => f.1.isConclusive).getD false

namespace ProviderState

/-- What a round makes of the provider. -/
def applyProbeResult (h : HealthConfig) (r : ProbeRound) (entry : ProviderState) :
    ProviderState :=
  let entry := { entry with lastCheck := some r.now, lastLatencyMs := r.latencyMs }
  if r.success then
    let entry := { entry with
      consecutiveFailures := 0
      consecutiveSuccesses := UInt32.saturatingAdd entry.consecutiveSuccesses 1 }
    if entry.state ≠ .up ∧ entry.consecutiveSuccesses ≥ h.successThreshold then
      { entry with
        state := .up, upSince := some r.now, failureLayer := none, failureDetail := none }
    else entry
  else
    let conclusive := (r.failure.map fun f => f.1.isConclusive).getD false
    let entry := { entry with
      consecutiveSuccesses := 0
      consecutiveFailures := UInt32.saturatingAdd entry.consecutiveFailures 1 }
    let entry : ProviderState := match r.failure with
      | some (layer, detail) =>
        { entry with failureLayer := some layer, failureDetail := some detail }
      | none => entry
    if entry.state ≠ .down ∧ (conclusive ∨ entry.consecutiveFailures ≥ h.failureThreshold) then
      { entry with state := .down, upSince := none }
    else entry

/-! ## What a round changes -/

section Round

variable (h : HealthConfig) (r : ProbeRound) (e : ProviderState)

@[simp] theorem applyProbeResult_consecutiveSuccesses :
    (e.applyProbeResult h r).consecutiveSuccesses =
      if r.success then UInt32.saturatingAdd e.consecutiveSuccesses 1 else 0 := by
  unfold applyProbeResult
  split <;> rename_i hs
  · dsimp only
    split_ifs <;> rfl
  · rcases r.failure with _ | ⟨layer, detail⟩ <;> dsimp only <;> split_ifs <;> rfl

@[simp] theorem applyProbeResult_consecutiveFailures :
    (e.applyProbeResult h r).consecutiveFailures =
      if r.success then 0 else UInt32.saturatingAdd e.consecutiveFailures 1 := by
  unfold applyProbeResult
  split <;> rename_i hs
  · dsimp only
    split_ifs <;> rfl
  · rcases r.failure with _ | ⟨layer, detail⟩ <;> dsimp only <;> split_ifs <;> rfl

/-- The round completes the successes that the provider has to show. -/
def Recovers : Prop :=
  e.state ≠ .up ∧ r.success = true ∧
    (e.applyProbeResult h r).consecutiveSuccesses ≥ h.successThreshold

/-- The round is the failure that the provider is given up for. -/
def Fails : Prop :=
  e.state ≠ .down ∧ r.success = false ∧
    (r.conclusive = true ∨ (e.applyProbeResult h r).consecutiveFailures ≥ h.failureThreshold)

/-- **What one round does**: it takes the provider up, or down, or leaves it as it is. -/
theorem applyProbeResult_cases :
    (Recovers h r e ∧ (e.applyProbeResult h r).state = .up ∧
        (e.applyProbeResult h r).upSince = some r.now) ∨
      (Fails h r e ∧ (e.applyProbeResult h r).state = .down ∧
        (e.applyProbeResult h r).upSince = none) ∨
      (¬ Recovers h r e ∧ ¬ Fails h r e ∧ (e.applyProbeResult h r).state = e.state ∧
        (e.applyProbeResult h r).upSince = e.upSince) := by
  simp only [Recovers, Fails, applyProbeResult_consecutiveSuccesses,
    applyProbeResult_consecutiveFailures, ProbeRound.conclusive]
  cases hs : r.success with
  | true =>
    by_cases hup : e.state ≠ .up ∧
        UInt32.saturatingAdd e.consecutiveSuccesses 1 ≥ h.successThreshold
    · exact Or.inl (by simp [applyProbeResult, hs, hup])
    · exact Or.inr (Or.inr (by simp [applyProbeResult, hs, hup]))
  | false =>
    rcases hf : r.failure with _ | ⟨layer, detail⟩
    · by_cases hdown : e.state ≠ .down ∧
          h.failureThreshold ≤ UInt32.saturatingAdd e.consecutiveFailures 1
      · exact Or.inr (Or.inl (by simp [applyProbeResult, hs, hf, hdown]))
      · exact Or.inr (Or.inr (by simp [applyProbeResult, hs, hf, hdown]))
    · by_cases hdown : e.state ≠ .down ∧ (layer.isConclusive = true ∨
          h.failureThreshold ≤ UInt32.saturatingAdd e.consecutiveFailures 1)
      · exact Or.inr (Or.inl (by simp [applyProbeResult, hs, hf, hdown]))
      · exact Or.inr (Or.inr (by simp [applyProbeResult, hs, hf, hdown]))

end Round

end ProviderState

/-! ## Histories -/

namespace Health

open Streak

/-- The state of a fresh provider after the rounds `rs`, oldest first. -/
def probed (h : HealthConfig) (rs : List ProbeRound) : ProviderState :=
  rs.foldl (fun e r => e.applyProbeResult h r) {}

variable {h : HealthConfig} {rs : List ProbeRound} {r : ProbeRound}

@[simp] theorem probed_nil : probed h [] = {} := rfl

theorem probed_concat :
    probed h (rs ++ [r]) = (probed h rs).applyProbeResult h r := by
  simp [probed, List.foldl_append]

/-- How many of the last rounds succeeded in a row. -/
def successRun (rs : List ProbeRound) : ℕ := streak (fun r => r.success) rs

/-- How many of the last rounds failed in a row. -/
def failureRun (rs : List ProbeRound) : ℕ := streak (fun r => !r.success) rs

/-- Where a counter stops: `u32::MAX`. -/
def cap : ℕ := 2 ^ 32 - 1

theorem toNat_saturatingAdd_one (n : UInt32) :
    (UInt32.saturatingAdd n 1).toNat = min (n.toNat + 1) cap := by
  have hn := n.toNat_lt
  simp only [UInt32.saturatingAdd, UInt32.toNat_ofNat', cap]
  have : (1 : UInt32).toNat = 1 := rfl
  rw [this, Nat.mod_eq_of_lt (by omega)]

theorem saturatingAdd_follows {counter : UInt32} {run : ℕ} (h : counter.toNat = min run cap) :
    (UInt32.saturatingAdd counter 1).toNat = min (run + 1) cap := by
  rw [toNat_saturatingAdd_one, h]
  omega

theorem consecutiveSuccesses_probed (h : HealthConfig) (rs : List ProbeRound) :
    (probed h rs).consecutiveSuccesses.toNat = min (successRun rs) cap := by
  induction rs using List.reverseRecOn with
  | nil => simp [successRun]
  | append_singleton rs r ih =>
    rw [probed_concat, ProviderState.applyProbeResult_consecutiveSuccesses, successRun,
      streak_concat, ← successRun]
    split_ifs
    · exact saturatingAdd_follows ih
    · simp

theorem consecutiveFailures_probed (h : HealthConfig) (rs : List ProbeRound) :
    (probed h rs).consecutiveFailures.toNat = min (failureRun rs) cap := by
  induction rs using List.reverseRecOn with
  | nil => simp [failureRun]
  | append_singleton rs r ih =>
    rw [probed_concat, ProviderState.applyProbeResult_consecutiveFailures, failureRun,
      streak_concat, ← failureRun]
    cases r.success
    · rw [if_neg Bool.false_ne_true, if_pos (by rfl)]
      exact saturatingAdd_follows ih
    · simp

theorem threshold_le_iff {threshold counter : UInt32} {run : ℕ}
    (hc : counter.toNat = min run cap) : counter ≥ threshold ↔ threshold.toNat ≤ run := by
  have ht := threshold.toNat_lt
  rw [ge_iff_le, UInt32.le_iff_toNat_le, hc, cap]
  omega

theorem runs_exclusive (rs : List ProbeRound) : successRun rs = 0 ∨ failureRun rs = 0 := by
  rcases List.eq_nil_or_concat rs with rfl | ⟨rs, r, rfl⟩
  · simp [successRun]
  · simp only [List.concat_eq_append, successRun, failureRun, streak_concat]
    cases r.success <;> simp

/-! ## Transitions -/

/-- The round `r` takes the provider up. -/
def EntersUp (h : HealthConfig) (rs : List ProbeRound) (r : ProbeRound) : Prop :=
  (probed h rs).state ≠ .up ∧ (probed h (rs ++ [r])).state = .up

/-- The round `r` takes the provider down. -/
def EntersDown (h : HealthConfig) (rs : List ProbeRound) (r : ProbeRound) : Prop :=
  (probed h rs).state ≠ .down ∧ (probed h (rs ++ [r])).state = .down

theorem recovers_iff : ProviderState.Recovers h r (probed h rs) ↔ (probed h rs).state ≠ .up ∧
    r.success = true ∧ h.successThreshold.toNat ≤ successRun (rs ++ [r]) := by
  rw [← threshold_le_iff (consecutiveSuccesses_probed h (rs ++ [r])), probed_concat,
    ProviderState.Recovers]

theorem fails_iff : ProviderState.Fails h r (probed h rs) ↔ (probed h rs).state ≠ .down ∧
    r.success = false ∧
    (r.conclusive = true ∨ h.failureThreshold.toNat ≤ failureRun (rs ++ [r])) := by
  rw [← threshold_le_iff (consecutiveFailures_probed h (rs ++ [r])), probed_concat,
    ProviderState.Fails]

theorem round_cases (h : HealthConfig) (rs : List ProbeRound) (r : ProbeRound) :
    (EntersUp h rs r ∧ (probed h (rs ++ [r])).upSince = some r.now) ∨
      (EntersDown h rs r ∧ (probed h (rs ++ [r])).upSince = none) ∨
      ((probed h (rs ++ [r])).state = (probed h rs).state ∧
        (probed h (rs ++ [r])).upSince = (probed h rs).upSince) := by
  simp only [EntersUp, EntersDown, probed_concat]
  rcases ProviderState.applyProbeResult_cases h r (probed h rs) with
    ⟨hrec, hstate, hsince⟩ | ⟨hfail, hstate, hsince⟩ | ⟨-, -, hsame⟩
  · exact Or.inl ⟨⟨hrec.1, hstate⟩, hsince⟩
  · exact Or.inr (Or.inl ⟨⟨hfail.1, hstate⟩, hsince⟩)
  · exact Or.inr (Or.inr hsame)

theorem entersUp_iff : EntersUp h rs r ↔ (probed h rs).state ≠ .up ∧ r.success = true ∧
    h.successThreshold.toNat ≤ successRun (rs ++ [r]) := by
  rw [← recovers_iff, EntersUp, probed_concat]
  rcases ProviderState.applyProbeResult_cases h r (probed h rs) with
    ⟨hrec, hstate, -⟩ | ⟨hfail, hstate, -⟩ | ⟨hno, -, hstate, -⟩
  · simp [hrec, hrec.1, hstate]
  · simp [hstate, ProviderState.Recovers, hfail.2.1]
  · rw [hstate]
    exact ⟨fun h => absurd h.2 h.1, fun h => absurd h hno⟩

theorem entersDown_iff : EntersDown h rs r ↔ (probed h rs).state ≠ .down ∧ r.success = false ∧
    (r.conclusive = true ∨ h.failureThreshold.toNat ≤ failureRun (rs ++ [r])) := by
  rw [← fails_iff, EntersDown, probed_concat]
  rcases ProviderState.applyProbeResult_cases h r (probed h rs) with
    ⟨hrec, hstate, -⟩ | ⟨hfail, hstate, -⟩ | ⟨-, hno, hstate, -⟩
  · simp [hstate, ProviderState.Fails, hrec.2.1]
  · simp [hfail, hfail.1, hstate]
  · rw [hstate]
    exact ⟨fun h => absurd h.2 h.1, fun h => absurd h hno⟩

theorem upSince_isSome_iff (h : HealthConfig) (rs : List ProbeRound) :
    (probed h rs).upSince.isSome ↔ (probed h rs).state = .up := by
  induction rs using List.reverseRecOn with
  | nil => simp
  | append_singleton rs r ih =>
    rcases round_cases h rs r with ⟨hup, hsince⟩ | ⟨hdown, hsince⟩ | ⟨hstate, hsince⟩
    · simp [hsince, hup.2]
    · simp [hsince, hdown.2]
    · rw [hsince, hstate, ih]

/-- `t` is the time of the last round that took the provider up. -/
def LastEntry (h : HealthConfig) (rs : List ProbeRound) (t : DateTime) : Prop :=
  ∃ pre r post, rs = pre ++ r :: post ∧ r.now = t ∧ EntersUp h pre r ∧
    ∀ pre' r' post', rs = pre' ++ r' :: post' → EntersUp h pre' r' → pre'.length ≤ pre.length

theorem LastEntry.of_entersUp (hup : EntersUp h rs r) : LastEntry h (rs ++ [r]) r.now := by
  refine ⟨rs, r, [], rfl, rfl, hup, fun pre' r' post' hsplit _ => ?_⟩
  have := congrArg List.length hsplit
  simp only [List.length_append, List.length_cons, List.length_nil] at this
  omega

theorem LastEntry.concat {t : DateTime} (hlast : LastEntry h rs t) (hno : ¬ EntersUp h rs r) :
    LastEntry h (rs ++ [r]) t := by
  obtain ⟨pre, r₀, post, rfl, rfl, hup, hmax⟩ := hlast
  refine ⟨pre, r₀, post ++ [r], by simp, rfl, hup, fun pre' r' post' hsplit hup' => ?_⟩
  rcases List.eq_nil_or_concat post' with rfl | ⟨post', x, rfl⟩
  · obtain ⟨rfl, hr⟩ := List.append_inj' hsplit rfl
    cases hr
    exact absurd hup' hno
  · have hsplit' : (pre ++ r₀ :: post) ++ [r] = (pre' ++ r' :: post') ++ [x] := by
      rw [hsplit]; simp
    exact hmax pre' r' post' (List.append_inj' hsplit' rfl).1 hup'

theorem lastEntry_of_upSince {t : DateTime} (ht : (probed h rs).upSince = some t) :
    LastEntry h rs t := by
  induction rs using List.reverseRecOn with
  | nil => simp at ht
  | append_singleton rs r ih =>
    rcases round_cases h rs r with ⟨hup, hsince⟩ | ⟨hdown, hsince⟩ | ⟨hstate, hsince⟩
    · rw [hsince] at ht
      cases ht
      exact LastEntry.of_entersUp hup
    · simp [hsince] at ht
    · rw [hsince] at ht
      exact (ih ht).concat fun hup => hup.1 (hstate ▸ hup.2)

/-! ## Hysteresis -/

/-- What a history of rounds says about the state after it and about the next round. -/
structure Hysteresis (h : HealthConfig) (rs : List ProbeRound) : Prop where
  down : ∀ r, EntersDown h rs r ↔ (probed h rs).state ≠ .down ∧ r.success = false ∧
    (r.conclusive = true ∨ h.failureThreshold.toNat ≤ failureRun (rs ++ [r]))
  up : ∀ r, EntersUp h rs r ↔ (probed h rs).state ≠ .up ∧ r.success = true ∧
    h.successThreshold.toNat ≤ successRun (rs ++ [r])
  since_iff : (probed h rs).upSince.isSome ↔ (probed h rs).state = .up
  since : ∀ t, (probed h rs).upSince = some t → LastEntry h rs t
  successes : (probed h rs).consecutiveSuccesses.toNat = min (successRun rs) cap
  failures : (probed h rs).consecutiveFailures.toNat = min (failureRun rs) cap
  exclusive : (probed h rs).consecutiveSuccesses = 0 ∨ (probed h rs).consecutiveFailures = 0

/-- **Hysteresis**, after every history and whatever the thresholds are. -/
theorem hysteresis (h : HealthConfig) (rs : List ProbeRound) : Hysteresis h rs where
  down _ := entersDown_iff
  up _ := entersUp_iff
  since_iff := upSince_isSome_iff h rs
  since _ := lastEntry_of_upSince
  successes := consecutiveSuccesses_probed h rs
  failures := consecutiveFailures_probed h rs
  exclusive := by
    rw [← UInt32.toNat_inj, ← UInt32.toNat_inj, consecutiveSuccesses_probed,
      consecutiveFailures_probed]
    rcases runs_exclusive rs with h0 | h0
    · exact Or.inl (by simp [h0])
    · exact Or.inr (by simp [h0])

/-! ## The first verdict -/

/-- What a history must contain for a verdict: proof of interception, or a full run. -/
def Verdict (h : HealthConfig) (rs : List ProbeRound) : Prop :=
  (∃ r ∈ rs, r.conclusive = true) ∨
    HasStreak (fun r => r.success) h.successThreshold.toNat rs ∨
    HasStreak (fun r => !r.success) h.failureThreshold.toNat rs

theorem state_concat_ne_unknown_iff :
    (probed h (rs ++ [r])).state ≠ .unknown ↔
      (probed h rs).state ≠ .unknown ∨ EntersUp h rs r ∨ EntersDown h rs r := by
  rcases round_cases h rs r with ⟨hup, -⟩ | ⟨hdown, -⟩ | ⟨hstate, -⟩
  · simp [hup, hup.2]
  · simp [hdown, hdown.2]
  · rw [hstate]
    refine ⟨Or.inl, ?_⟩
    rintro (h | h | h)
    · exact h
    · exact absurd (hstate ▸ h.2) h.1
    · exact absurd (hstate ▸ h.2) h.1

theorem verdict_nil (hF : 0 < h.failureThreshold) (hS : 0 < h.successThreshold) :
    ¬ Verdict h [] := by
  rw [UInt32.lt_iff_toNat_lt] at hF hS
  have hF' : h.failureThreshold.toNat ≠ 0 := hF.ne'
  have hS' : h.successThreshold.toNat ≠ 0 := hS.ne'
  simp [Verdict, hasStreak_nil, hF', hS']

theorem verdict_concat : Verdict h (rs ++ [r]) ↔ Verdict h rs ∨ r.conclusive = true ∨
    h.successThreshold.toNat ≤ successRun (rs ++ [r]) ∨
    h.failureThreshold.toNat ≤ failureRun (rs ++ [r]) := by
  simp only [Verdict, hasStreak_concat, List.mem_append, List.mem_singleton, successRun,
    failureRun]
  constructor
  · rintro (⟨x, hx | rfl, hc⟩ | (hs | hs) | (hf | hf))
    · exact Or.inl (Or.inl ⟨x, hx, hc⟩)
    all_goals tauto
  · rintro ((⟨x, hx, hc⟩ | hs | hf) | hc | hs | hf)
    · exact Or.inl ⟨x, Or.inl hx, hc⟩
    · tauto
    · tauto
    · exact Or.inl ⟨r, Or.inr rfl, hc⟩
    all_goals tauto

theorem known_iff (hF : 0 < h.failureThreshold) (hS : 0 < h.successThreshold) :
    (probed h rs).state ≠ .unknown ↔ Verdict h rs := by
  have hF' := UInt32.lt_iff_toNat_lt.mp hF
  have hS' := UInt32.lt_iff_toNat_lt.mp hS
  induction rs using List.reverseRecOn with
  | nil => simpa using verdict_nil hF hS
  | append_singleton rs r ih =>
    rw [state_concat_ne_unknown_iff, verdict_concat, entersUp_iff, entersDown_iff, ih.symm]
    by_cases hknown : (probed h rs).state = .unknown
    · simp only [hknown, ne_eq, not_true_eq_false, false_or, reduceCtorEq, not_false_eq_true,
        true_and, successRun, failureRun, streak_concat]
      have hconcl : r.conclusive = true → r.success = false := by
        simp only [ProbeRound.conclusive, Bool.and_eq_true, Bool.not_eq_true']
        exact fun h => h.1
      have hS0 : ¬ h.successThreshold.toNat ≤ 0 := hS'.not_ge
      have hF0 : ¬ h.failureThreshold.toNat ≤ 0 := hF'.not_ge
      cases hs : r.success with
      | true =>
        have hno : ¬ r.conclusive = true := fun hc => by simp [hconcl hc] at hs
        simp [hno, hF0]
      | false => simp [hS0]
    · simp [hknown]

theorem known_append (later : List ProbeRound) (hknown : (probed h rs).state ≠ .unknown) :
    (probed h (rs ++ later)).state ≠ .unknown := by
  induction later using List.reverseRecOn with
  | nil => simpa using hknown
  | append_singleton later r ih =>
    rw [← List.append_assoc, state_concat_ne_unknown_iff]
    exact Or.inl ih

/-- The first `n` results of an endless sequence of them. -/
def firstRounds (results : ℕ → ProbeRound) (n : ℕ) : List ProbeRound := (List.range n).map results

theorem firstRounds_prefix (results : ℕ → ProbeRound) {m n : ℕ} (hmn : m ≤ n) :
    ∃ later, firstRounds results n = firstRounds results m ++ later := by
  obtain ⟨k, rfl⟩ := Nat.exists_eq_add_of_le hmn
  exact ⟨_, by rw [firstRounds, List.range_add, List.map_append]; rfl⟩

/-- The rounds within which the first verdict is promised. -/
def promisedRounds (h : HealthConfig) : ℕ := max h.successThreshold.toNat h.failureThreshold.toNat

/-- **The first verdict**: from the last of the promised rounds on, the state is known exactly when
these rounds contain proof of interception or one of the two full runs. -/
theorem verdict_iff (h : HealthConfig) (hF : 0 < h.failureThreshold)
    (hS : 0 < h.successThreshold) (results : ℕ → ProbeRound) :
    (∀ n, promisedRounds h ≤ n → (probed h (firstRounds results n)).state = .up ∨
        (probed h (firstRounds results n)).state = .down) ↔
      Verdict h (firstRounds results (promisedRounds h)) := by
  rw [← known_iff hF hS]
  have hiff : ∀ s : HealthState, (s = .up ∨ s = .down) ↔ s ≠ .unknown := by
    intro s
    cases s <;> simp
  simp only [hiff]
  refine ⟨fun hall => hall _ le_rfl, fun hknown n hn => ?_⟩
  obtain ⟨later, hlater⟩ := firstRounds_prefix results hn
  rw [hlater]
  exact known_append later hknown

/-- Failure and success in turn. -/
def alternating (i : ℕ) : ProbeRound := { now := DateTime.epoch, success := i % 2 = 1 }

theorem verdict_iff_alternating :
    (∀ n, promisedRounds {} ≤ n → (probed {} (firstRounds alternating n)).state = .up ∨
        (probed {} (firstRounds alternating n)).state = .down) ↔
      Verdict {} (firstRounds alternating (promisedRounds {})) :=
  verdict_iff {} (by decide) (by decide) alternating

theorem firstRounds_succ (results : ℕ → ProbeRound) (n : ℕ) :
    firstRounds results (n + 1) = firstRounds results n ++ [results n] := by
  simp [firstRounds, List.range_succ]

theorem alternating_runs (n : ℕ) : successRun (firstRounds alternating n) ≤ 1 ∧
    failureRun (firstRounds alternating n) ≤ 1 := by
  have hruns : successRun (firstRounds alternating n) ≤ (n + 1) % 2 ∧
      failureRun (firstRounds alternating n) ≤ n % 2 := by
    induction n with
    | zero => simp [firstRounds, successRun, failureRun]
    | succ n ih =>
      simp only [successRun, failureRun] at ih
      simp only [firstRounds_succ, successRun, failureRun, streak_concat, alternating]
      rcases Nat.mod_two_eq_zero_or_one n with hn | hn
      · simp [hn]
        omega
      · simp [hn]
        omega
  omega

/-- With both thresholds above one, results that alternate never give a verdict: the wait for the
first one has no bound. -/
theorem alternating_unknown {h : HealthConfig} (hF : 1 < h.failureThreshold)
    (hS : 1 < h.successThreshold) (n : ℕ) :
    (probed h (firstRounds alternating n)).state = .unknown := by
  have hF' := UInt32.lt_iff_toNat_lt.mp hF
  have hS' := UInt32.lt_iff_toNat_lt.mp hS
  induction n with
  | zero => rfl
  | succ n ih =>
    have hruns := alternating_runs (n + 1)
    rw [firstRounds_succ] at hruns ⊢
    by_contra hknown
    rcases state_concat_ne_unknown_iff.mp hknown with h | hup | hdown
    · exact h ih
    · exact absurd (hS'.trans_le (entersUp_iff.mp hup).2.2) hruns.1.not_gt
    · rcases (entersDown_iff.mp hdown).2.2 with hc | hf
      · simp [alternating, ProbeRound.conclusive] at hc
      · exact absurd (hF'.trans_le hf) hruns.2.not_gt

/-- The first verdict need not come in the promised rounds, nor at all. -/
theorem not_verdict_within : ¬ ∀ (h : HealthConfig) (results : ℕ → ProbeRound),
    0 < h.failureThreshold → 0 < h.successThreshold →
      ∀ n, promisedRounds h ≤ n → (probed h (firstRounds results n)).state = .up ∨
        (probed h (firstRounds results n)).state = .down := by
  intro hall
  have h := hall {} alternating (by decide) (by decide) 2 (by decide)
  revert h
  decide

/-! ## The cause of a failure -/

/-- The provider is shown without a cause of failure. -/
def NoCause (e : ProviderState) : Prop := e.failureLayer = none ∧ e.failureDetail = none

instance (e : ProviderState) : Decidable (NoCause e) := inferInstanceAs (Decidable (_ ∧ _))

/-- The round failed, and says why. -/
def gaveCause (r : ProbeRound) : Bool := !r.success && r.failure.isSome

/-- No round has given a cause since the provider came up. -/
def CleanSinceUp (h : HealthConfig) (rs : List ProbeRound) : Prop :=
  ∃ pre r post, rs = pre ++ r :: post ∧ EntersUp h pre r ∧ ∀ x ∈ post, gaveCause x = false

theorem noCause_applyProbeResult (h : HealthConfig) (r : ProbeRound) (e : ProviderState) :
    NoCause (e.applyProbeResult h r) ↔
      ProviderState.Recovers h r e ∨ (NoCause e ∧ gaveCause r = false) := by
  simp only [NoCause, gaveCause, ProviderState.Recovers,
    ProviderState.applyProbeResult_consecutiveSuccesses]
  cases hs : r.success with
  | true =>
    by_cases hup : e.state ≠ .up ∧ UInt32.saturatingAdd e.consecutiveSuccesses 1 ≥ h.successThreshold
    · simp [ProviderState.applyProbeResult, hs, hup]
    · simp [ProviderState.applyProbeResult, hs, hup]
  | false =>
    rcases hf : r.failure with _ | ⟨layer, detail⟩
    · simp only [ProviderState.applyProbeResult, hs, hf, Bool.false_eq_true, if_false]
      split_ifs <;> simp
    · simp only [ProviderState.applyProbeResult, hs, hf, Bool.false_eq_true, if_false]
      split_ifs <;> simp

theorem recovers_iff_entersUp : ProviderState.Recovers h r (probed h rs) ↔ EntersUp h rs r := by
  rw [recovers_iff, entersUp_iff]

theorem cleanSinceUp_concat : CleanSinceUp h (rs ++ [r]) ↔
    EntersUp h rs r ∨ (CleanSinceUp h rs ∧ gaveCause r = false) := by
  constructor
  · rintro ⟨pre, r₀, post, hsplit, hup, hclean⟩
    rcases List.eq_nil_or_concat post with rfl | ⟨post, x, rfl⟩
    · obtain ⟨rfl, hr⟩ := List.append_inj' hsplit rfl
      cases hr
      exact Or.inl hup
    · have hsplit' : rs ++ [r] = (pre ++ r₀ :: post) ++ [x] := by rw [hsplit]; simp
      obtain ⟨rfl, hr⟩ := List.append_inj' hsplit' rfl
      cases hr
      rw [List.concat_eq_append] at hclean
      refine Or.inr ⟨⟨pre, r₀, post, rfl, hup, fun y hy => hclean y (List.mem_append_left _ hy)⟩, ?_⟩
      exact hclean r (List.mem_append_right post List.mem_cons_self)
  · rintro (hup | ⟨⟨pre, r₀, post, rfl, hup, hclean⟩, hr⟩)
    · exact ⟨rs, r, [], rfl, hup, fun x hx => absurd hx List.not_mem_nil⟩
    · refine ⟨pre, r₀, post ++ [r], by simp, hup, fun x hx => ?_⟩
      rcases List.mem_append.mp hx with hx | hx
      · exact hclean x hx
      · rw [List.mem_singleton.mp hx]
        exact hr

theorem CleanSinceUp.noCause (hclean : CleanSinceUp h rs) : NoCause (probed h rs) := by
  induction rs using List.reverseRecOn with
  | nil => exact ⟨rfl, rfl⟩
  | append_singleton rs r ih =>
    rw [probed_concat, noCause_applyProbeResult, recovers_iff_entersUp]
    exact (cleanSinceUp_concat.mp hclean).imp_right (And.imp_left ih)

/-- Before the first round there is no cause either, but the provider is not up then. -/
theorem cleanSinceUp_of_noCause (hup : (probed h rs).state = .up) (hnone : NoCause (probed h rs)) :
    CleanSinceUp h rs := by
  induction rs using List.reverseRecOn with
  | nil => cases hup
  | append_singleton rs r ih =>
    rw [cleanSinceUp_concat]
    rw [probed_concat, noCause_applyProbeResult, recovers_iff_entersUp] at hnone
    rcases hnone with hentered | ⟨hbefore, hr⟩
    · exact Or.inl hentered
    · by_cases hprev : (probed h rs).state = .up
      · exact Or.inr ⟨ih hprev hbefore, hr⟩
      · exact Or.inl ⟨hprev, hup⟩

/-- **When a provider that is up is shown without a cause**: if, and only if, no round has given one
since it came up. -/
theorem noCause_iff (hup : (probed h rs).state = .up) :
    NoCause (probed h rs) ↔ CleanSinceUp h rs :=
  ⟨cleanSinceUp_of_noCause hup, CleanSinceUp.noCause⟩

/-- A round that succeeds. -/
def passes : ProbeRound := { now := .epoch, success := true }

/-- The gateway does not answer. -/
def misses : ProbeRound :=
  { now := .epoch, success := false, failure := some (.gateway, "gateway unreachable") }

/-- Having been down, the provider recovers. -/
theorem noCause_recovered :
    NoCause (probed {} [passes, passes, misses, misses, passes, passes]) ↔
      CleanSinceUp {} [passes, passes, misses, misses, passes, passes] :=
  noCause_iff (by decide)

/-- Missing one answer, it does not go down, and is shown with the cause for as long as it is up. -/
theorem cause_not_cleared : ¬ ∀ (h : HealthConfig) (rs : List ProbeRound) (r : ProbeRound),
    0 < h.failureThreshold → 0 < h.successThreshold → r.success = true →
      (probed h (rs ++ [r])).state = .up → NoCause (probed h (rs ++ [r])) := by
  intro hall
  have hcause := hall {} [passes, passes, misses] passes (by decide) (by decide) rfl (by decide)
  revert hcause
  decide

end Health

end Vlb
