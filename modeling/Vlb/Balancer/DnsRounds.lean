import Vlb.Balancer.CanaryRounds

/-!
# The debounce of DNS failures

One unanswered query says little about a link. The loop counts the rounds in a row in which DNS was
asked and did not answer, and names DNS as the failing layer once there are enough of them.

* `DnsFailed`: the rounds that count.
* `dnsFailures_run`: the counter is their number in a row, as far as it can count.
* **`dns_layer_iff`**: when a round is failed for DNS, over every run of the loop.
-/

namespace Vlb.HealthLoop

open Canary Streak

variable {rates : Rates} {errorText : FetchError → String} {cfg : LoopConfig} {p : Provider}
  {s : LoopState} {t : Turn} {turns : List Turn} {entry : ProviderEntry}

/-! ## The rounds that count -/

/-- The layers below passed, and the DNS probe ran and failed. -/
structure DnsFailed (cfg : LoopConfig) (t : Turn) : Prop where
  gateway : t.gateway.isSuccess = true
  internet : t.internetProbe.any ProbeOutcome.isSuccess = true
  dns : t.dnsProbe cfg = some .failed

/-- The round is counted as a DNS failure. -/
def dnsCounted (cfg : LoopConfig) (t : Turn) : Bool :=
  !(t.dnsProbe cfg).all ProbeOutcome.isSuccess

theorem dnsCounted_iff : dnsCounted cfg t = true ↔ DnsFailed cfg t := by
  have hsucceeds (o : ProbeOutcome) : o.isSuccess = false ↔ o = .failed := by
    cases o <;> simp [ProbeOutcome.isSuccess]
  constructor
  · intro h
    unfold dnsCounted Turn.dnsProbe at h
    split_ifs at h with hran
    · obtain ⟨henabled, hgateway, hinternet⟩ := hran
      have hfailed : t.dns = .failed := (hsucceeds t.dns).mp (by simpa using h)
      refine ⟨hgateway, hinternet, ?_⟩
      rw [Turn.dnsProbe, if_pos ⟨henabled, hgateway, hinternet⟩, hfailed]
    · cases h
  · intro h
    rw [dnsCounted, h.dns]
    rfl

/-! ## One turn -/

theorem runCanary_dnsFailures (c : CanaryConfig) (r : CanaryRound) :
    (runCanary c r entry).dnsFailures = entry.dnsFailures := by
  unfold runCanary
  split
  · rfl
  · split_ifs
    · rfl
    · dsimp only
      split_ifs <;> rfl

variable (rates errorText) in
theorem runThroughput_dnsFailures (c : CanaryConfig) (url : Url) (m : Measurement) :
    (runThroughput rates errorText c url m entry).dnsFailures = entry.dnsFailures := by
  unfold runThroughput
  dsimp only
  split_ifs <;> rfl

theorem canaryStep_dnsFailures :
    (t.canaryStep cfg s).entry.dnsFailures = s.entry.dnsFailures := by
  unfold Turn.canaryStep
  split_ifs
  · exact runCanary_dnsFailures cfg.canary t.canary
  · rfl

variable (rates errorText cfg s t) in
theorem throughputStep_dnsFailures (failure : Option (FailureLayer × String)) :
    (t.throughputStep rates errorText cfg failure s).entry.dnsFailures = s.entry.dnsFailures := by
  unfold Turn.throughputStep
  split
  · exact runThroughput_dnsFailures rates errorText cfg.canary _ t.throughput
  · rfl

theorem turn_dnsFailures : (turn rates errorText cfg p s t).1.entry.dnsFailures =
    if dnsCounted cfg t then UInt32.saturatingAdd s.entry.dnsFailures 1 else 0 := by
  have hthroughput := throughputStep_dnsFailures rates errorText cfg (probedState cfg s t) t
    (t.reachabilityFailure cfg p (t.canaryStep cfg s).entry)
  have hturn : (turn rates errorText cfg p s t).1.entry.dnsFailures =
      (t.dnsStep cfg (t.canaryStep cfg s).entry).dnsFailures := hthroughput
  rw [hturn, Turn.dnsStep, dnsCounted]
  cases (t.dnsProbe cfg).all ProbeOutcome.isSuccess with
  | true => rfl
  | false => exact congrArg (UInt32.saturatingAdd · 1) canaryStep_dnsFailures

theorem contentFailure_ne_dns (detail : String) : contentFailure entry ≠ some (.dns, detail) := by
  unfold contentFailure
  split_ifs <;> simp

/-- **The roll-up names DNS** when the round is counted and completes the threshold. -/
theorem turn_dns_iff : (turn rates errorText cfg p s t).2.failure.map Prod.fst = some .dns ↔
    dnsCounted cfg t = true ∧
      max cfg.dnsFailureThreshold 1 ≤ UInt32.saturatingAdd s.entry.dnsFailures 1 := by
  have hcount : t.dnsFailing cfg (t.canaryStep cfg s).entry = true ↔ dnsCounted cfg t = true ∧
      max cfg.dnsFailureThreshold 1 ≤ UInt32.saturatingAdd s.entry.dnsFailures 1 := by
    rw [Turn.dnsFailing, canaryStep_dnsFailures, Bool.and_eq_true, decide_eq_true_iff]
    rfl
  rw [← hcount]
  show ((t.reachabilityFailure cfg p (t.canaryStep cfg s).entry).or (contentFailure _)).map
    Prod.fst = some .dns ↔ _
  unfold Turn.reachabilityFailure
  constructor
  · intro h
    split_ifs at h with hgateway hinternet hdns
    · simp at h
    · simp at h
    · exact hdns
    · -- the layers after DNS have names of their own
      exfalso
      split at h
      · simp at h
      · simp at h
      · rw [Option.none_or] at h
        obtain ⟨⟨layer, detail⟩, hcontent, rfl⟩ := Option.map_eq_some_iff.mp h
        exact contentFailure_ne_dns detail hcontent
  · intro hdns
    have hfailed := dnsCounted_iff.mp (hcount.mp hdns).1
    simp [hfailed.gateway, hfailed.internet, hdns]

/-! ## Runs -/

variable (rates errorText cfg p) in
theorem dnsFailures_run (turns : List Turn) :
    (run rates errorText cfg p turns).1.entry.dnsFailures.toNat =
      min (streak (dnsCounted cfg) turns) Health.cap := by
  induction turns using List.reverseRecOn with
  | nil => simp [run]
  | append_singleton turns t ih =>
    rw [run_concat, turn_dnsFailures, streak_concat]
    split_ifs
    · exact Health.saturatingAdd_follows ih
    · simp

theorem run_getElem? (turns : List Turn) {i : ℕ} (hi : i < turns.length) :
    (run rates errorText cfg p turns).2[i]? =
      some (turn rates errorText cfg p (run rates errorText cfg p (turns.take i)).1 turns[i]).2 := by
  have hlength (ts : List Turn) : (run rates errorText cfg p ts).2.length = ts.length := by
    induction ts using List.reverseRecOn with
    | nil => rfl
    | append_singleton ts t ih => simp [run_concat, ih]
  induction turns using List.reverseRecOn with
  | nil => cases hi
  | append_singleton turns t ih =>
    rw [run_concat]
    rcases Nat.lt_or_ge i turns.length with hlt | hge
    · rw [List.getElem?_append_left (by rw [hlength]; exact hlt), ih hlt,
        List.take_append_of_le_length hlt.le, List.getElem_append_left hlt]
    · have hlast : i = turns.length := by
        rw [List.length_append, List.length_singleton] at hi
        omega
      subst hlast
      rw [List.getElem?_append_right (by rw [hlength]), hlength]
      simp

theorem le_streak_take_iff {T i : ℕ} (hi : i < turns.length) :
    T ≤ streak (dnsCounted cfg) (turns.take (i + 1)) ↔
      T ≤ i + 1 ∧ ∀ j (hj : j < turns.length), j ≤ i → i < j + T → DnsFailed cfg turns[j] := by
  have hlength : (turns.take (i + 1)).length = i + 1 := by
    rw [List.length_take]
    omega
  rw [le_streak_iff]
  constructor
  · rintro ⟨w, ⟨v, hv⟩, rfl, hw⟩
    have hsplit : v.length + w.length = i + 1 := by rw [← List.length_append, hv, hlength]
    refine ⟨by omega, fun j hj hji hij => dnsCounted_iff.mp (hw _ ?_)⟩
    have hget : (turns.take (i + 1))[j]? = some turns[j] := by
      rw [List.getElem?_take_of_lt (by omega), List.getElem?_eq_getElem hj]
    rw [← hv, List.getElem?_append_right (by omega)] at hget
    exact List.mem_of_getElem? hget
  · rintro ⟨hT, hall⟩
    refine ⟨(turns.take (i + 1)).drop (i + 1 - T), List.drop_suffix _ _, ?_, fun t ht => ?_⟩
    · rw [List.length_drop, hlength]
      omega
    · obtain ⟨k, hk⟩ := List.mem_iff_getElem?.mp ht
      rw [List.getElem?_drop] at hk
      obtain ⟨hlt, hget⟩ := List.getElem?_eq_some_iff.mp hk
      rw [hlength] at hlt
      rw [List.getElem_take] at hget
      rw [← hget]
      exact dnsCounted_iff.mpr (hall _ (by omega) (by omega) (by omega))

/-- **DNS failures are debounced exactly.** In every run of the loop, a round is failed for DNS just
when it and the rounds before it, as many as the threshold in all, each passed the gateway and the
internet and failed DNS. -/
theorem dns_layer_iff (hT : 1 ≤ cfg.dnsFailureThreshold) (turns : List Turn) {i : ℕ}
    (hi : i < turns.length) :
    (∃ record detail, (run rates errorText cfg p turns).2[i]? = some record ∧
        record.failure = some (.dns, detail)) ↔
      cfg.dnsFailureThreshold.toNat ≤ i + 1 ∧
        ∀ j (hj : j < turns.length), j ≤ i → i < j + cfg.dnsFailureThreshold.toNat →
          DnsFailed cfg turns[j] := by
  have hmax : max cfg.dnsFailureThreshold 1 = cfg.dnsFailureThreshold := by
    show (if cfg.dnsFailureThreshold ≤ 1 then 1 else cfg.dnsFailureThreshold) = _
    split_ifs with hle
    · exact UInt32.le_antisymm hT hle
    · rfl
  have hpos : 1 ≤ cfg.dnsFailureThreshold.toNat := UInt32.le_iff_toNat_le.mp hT
  have hcount : _ ↔ cfg.dnsFailureThreshold.toNat ≤ _ := Health.threshold_le_iff
    (Health.saturatingAdd_follows (dnsFailures_run rates errorText cfg p (turns.take i)))
  have htake : turns.take (i + 1) = turns.take i ++ [turns[i]] :=
    (List.take_concat_get' turns i hi).symm
  have hlayer (record : TurnRecord) : (∃ detail, record.failure = some (.dns, detail)) ↔
      record.failure.map Prod.fst = some .dns := by
    rcases record.failure with _ | ⟨layer, detail⟩ <;> simp
  calc (∃ record detail, (run rates errorText cfg p turns).2[i]? = some record ∧
        record.failure = some (.dns, detail))
    _ ↔ (turn rates errorText cfg p (run rates errorText cfg p (turns.take i)).1
          turns[i]).2.failure.map Prod.fst = some .dns := by
      rw [run_getElem? turns hi, ← hlayer]
      simp
    _ ↔ cfg.dnsFailureThreshold.toNat ≤ streak (dnsCounted cfg) (turns.take (i + 1)) := by
      rw [turn_dns_iff, hmax, htake, streak_concat, ← ge_iff_le, hcount]
      cases dnsCounted cfg turns[i] with
      | true => simp
      | false =>
        simp only [Bool.false_eq_true, false_and, if_false, false_iff]
        omega
    _ ↔ _ := le_streak_take_iff hi

/-- A round in which DNS does not answer and everything else does. -/
def silentTurn : Turn := { steadyTurn 0 passedReport with dns := .failed }

/-- With the default threshold, the fourth such round is the first to be failed. -/
theorem dns_layer_iff_silent :
    (∃ record detail, (run exactRates (fun _ => "request failed") {} wan
        (List.replicate 4 silentTurn)).2[3]? = some record ∧
      record.failure = some (.dns, detail)) :=
  (dns_layer_iff (by decide) (List.replicate 4 silentTurn) (by decide)).mpr
    ⟨by decide, fun j _ _ _ => by
      rw [List.getElem_replicate]
      exact ⟨rfl, rfl, rfl⟩⟩

end Vlb.HealthLoop
