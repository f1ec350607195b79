import Vlb.Balancer.CanaryRounds

/-!
# What a throttled link was measured by

A provider is reported as throttled once enough throughput checks in a row have failed. A check
fails when the link was measured too slow, and also when it could not be measured at all: the count
takes both, though only the first says anything about the link.

* `Outcome`, `Measurement.outcome`: what one check comes to.
* `ThroughputTally`, `tally_runThroughput`: what the counter says of the outcomes so far.
* **`throttled_sound_iff`**: when a report of a throttled link rests on slow measurements alone.
* `not_throttled_sound`: two lookups that fail report one.
-/

namespace Vlb.HealthLoop

open Canary Streak

/-! ## The outcomes -/

/-- What a run of the throughput check comes to. -/
inductive Outcome
  | ok
  | tooSlow
  /-- Too slow, but for the traffic of others. -/
  | excused
  | unmeasurable
  deriving DecidableEq

/-- The outcomes that clear the count. -/
def Outcome.isGood : Outcome → Bool
  | .ok | .excused => true
  | .tooSlow | .unmeasurable => false

/-- What the check counts. -/
def Measurement.outcome (rates : Rates) (c : CanaryConfig) (url : Url) (m : Measurement) :
    Outcome :=
  match m.verdict rates c url with
  | .ok .. => .ok
  | .tooSlow .. => if m.busyNotThrottled rates c url then .excused else .tooSlow
  | .unmeasurable _ => .unmeasurable

/-- The outcomes of the checks that the turns ran. -/
def outcomes (rates : Rates) (c : CanaryConfig) (records : List TurnRecord) : List Outcome :=
  match throughputUrl c with
  | some url => (records.filterMap TurnRecord.throughput).map (Measurement.outcome rates c url)
  | none => []

/-- The outcomes after the last that is ok or excused. -/
def sinceGood (outs : List Outcome) : List Outcome := outs.rtakeWhile fun o => !o.isGood

/-- What the counter of the throughput check says of the outcomes so far. -/
structure ThroughputTally (threshold : UInt32) (outs : List Outcome) (entry : ProviderEntry) :
    Prop where
  failures : entry.throughputFailures.toNat = min (sinceGood outs).length Health.cap
  ok_iff : entry.throughputOk = false ↔
    sinceGood outs ≠ [] ∧ threshold.toNat ≤ (sinceGood outs).length

section Tally

variable {rates : Rates} {errorText : FetchError → String} {cfg : LoopConfig} {p : Provider}
  {s : LoopState} {t : Turn} {turns : List Turn} {c : CanaryConfig} {url : Url}
  {outs : List Outcome} {o : Outcome} {entry : ProviderEntry}

theorem sinceGood_concat_of_good (h : o.isGood = true) : sinceGood (outs ++ [o]) = [] :=
  List.rtakeWhile_concat_neg _ _ _ (by simp [h])

theorem sinceGood_concat_of_bad (h : o.isGood = false) :
    sinceGood (outs ++ [o]) = sinceGood outs ++ [o] :=
  List.rtakeWhile_concat_pos _ _ _ (by simp [h])

/-- The count is cleared by a good outcome, and by nothing else: what could not be measured is never
excused. -/
theorem outcome_isGood_iff (m : Measurement) : (m.outcome rates c url).isGood = true ↔
    (m.verdict rates c url).isOk = true ∨ m.busyNotThrottled rates c url = true := by
  unfold Measurement.outcome
  cases hverdict : m.verdict rates c url with
  | ok kbps bytes elapsed => exact iff_of_true rfl (Or.inl rfl)
  | tooSlow kbps floorKbps bytes elapsed =>
    dsimp only
    split_ifs with hbusy
    · exact iff_of_true rfl (Or.inr hbusy)
    · simp [Outcome.isGood, ThroughputVerdict.isOk, hbusy]
  | unmeasurable reason =>
    have hbusy : m.busyNotThrottled rates c url = false := by
      unfold Measurement.busyNotThrottled
      rw [hverdict]
      exact busyRatherThanCapped_unmeasurable m.isActive reason m.before m.after
    simp [Outcome.isGood, ThroughputVerdict.isOk, hbusy]

theorem throughputTally_nil (threshold : UInt32) : ThroughputTally threshold [] {} :=
  ⟨rfl, by simp [sinceGood]⟩

/-- **A throughput check keeps the tally.** -/
theorem tally_runThroughput (h : ThroughputTally c.throughput.failureThreshold outs entry)
    (m : Measurement) :
    ThroughputTally c.throughput.failureThreshold (outs ++ [m.outcome rates c url])
      (runThroughput rates errorText c url m entry) := by
  unfold runThroughput
  dsimp only
  cases hgood : (m.outcome rates c url).isGood with
  | true =>
    have hsince : sinceGood (outs ++ [m.outcome rates c url]) = [] :=
      sinceGood_concat_of_good hgood
    rw [if_pos ((outcome_isGood_iff m).mp hgood)]
    refine ⟨by rw [hsince]; rfl, ?_⟩
    rw [hsince]
    simp
  | false =>
    have hsince : sinceGood (outs ++ [m.outcome rates c url]) =
        sinceGood outs ++ [m.outcome rates c url] := sinceGood_concat_of_bad hgood
    have hcount : (UInt32.saturatingAdd entry.throughputFailures 1).toNat =
        min (sinceGood (outs ++ [m.outcome rates c url])).length Health.cap := by
      rw [hsince, List.length_append, List.length_singleton]
      exact Health.saturatingAdd_follows h.failures
    have hreached : UInt32.saturatingAdd entry.throughputFailures 1 ≥
        c.throughput.failureThreshold ↔ _ := Health.threshold_le_iff hcount
    have hne : sinceGood (outs ++ [m.outcome rates c url]) ≠ [] := by simp [hsince]
    rw [if_neg fun hclear => by simp [(outcome_isGood_iff m).mpr hclear] at hgood]
    split_ifs with hge
    · exact ⟨hcount, iff_of_true rfl ⟨hne, hreached.mp hge⟩⟩
    · refine ⟨hcount, h.ok_iff.trans (iff_of_false (fun hfailing => hge ?_) fun hfailing => hge ?_)⟩
      · have hle : (sinceGood outs).length ≤
            (sinceGood (outs ++ [m.outcome rates c url])).length := by
          rw [hsince]
          exact (List.prefix_append _ _).length_le
        exact hreached.mpr (hfailing.2.trans hle)
      · exact hreached.mpr hfailing.2

/-! ## The outcomes of a run -/

theorem outcomes_concat (records : List TurnRecord) (record : TurnRecord) :
    outcomes rates c (records ++ [record]) =
      outcomes rates c records ++ outcomes rates c [record] := by
  unfold outcomes
  cases throughputUrl c with
  | none => rfl
  | some url =>
    dsimp only
    rw [List.filterMap_append, List.map_append]

theorem outcomes_turn : outcomes rates cfg.canary [(turn rates errorText cfg p s t).2] =
    ((t.throughputRun cfg (t.reachabilityFailure cfg p (t.canaryStep cfg s).entry)
      (probedState cfg s t)).map fun url => t.throughput.outcome rates cfg.canary url).toList := by
  obtain ⟨-, -, hran⟩ := turn_throughput rates errorText cfg s t p
  unfold outcomes
  rw [List.filterMap_cons, hran, Turn.throughputRun]
  split_ifs
  · cases throughputUrl cfg.canary <;> rfl
  · cases throughputUrl cfg.canary <;> rfl

theorem throughputTally_turn
    (h : ThroughputTally cfg.canary.throughput.failureThreshold outs s.entry) :
    ThroughputTally cfg.canary.throughput.failureThreshold
      (outs ++ outcomes rates cfg.canary [(turn rates errorText cfg p s t).2])
      (turn rates errorText cfg p s t).1.entry := by
  obtain ⟨-, hok, hfailures, -⟩ := canaryStep_frame cfg s t
  obtain ⟨-, -, -, -, hok', hfailures'⟩ := dnsStep_frame cfg t (t.canaryStep cfg s).entry
  have hprobed : ThroughputTally cfg.canary.throughput.failureThreshold outs
      (probedState cfg s t).entry :=
    ⟨(hfailures'.trans hfailures) ▸ h.failures, (hok'.trans hok) ▸ h.ok_iff⟩
  obtain ⟨hok'', hfailures'', -⟩ := turn_throughput rates errorText cfg s t p
  suffices hstep : ThroughputTally cfg.canary.throughput.failureThreshold
      (outs ++ outcomes rates cfg.canary [(turn rates errorText cfg p s t).2])
      (t.throughputStep rates errorText cfg
        (t.reachabilityFailure cfg p (t.canaryStep cfg s).entry) (probedState cfg s t)).entry from
    ⟨hfailures'' ▸ hstep.failures, hok'' ▸ hstep.ok_iff⟩
  rw [outcomes_turn]
  unfold Turn.throughputStep
  cases t.throughputRun cfg (t.reachabilityFailure cfg p (t.canaryStep cfg s).entry)
    (probedState cfg s t) with
  | none => simpa using hprobed
  | some url => exact tally_runThroughput hprobed t.throughput

variable (rates errorText cfg p) in
theorem throughputTally_run (turns : List Turn) :
    ThroughputTally cfg.canary.throughput.failureThreshold
      (outcomes rates cfg.canary (run rates errorText cfg p turns).2)
      (run rates errorText cfg p turns).1.entry := by
  induction turns using List.reverseRecOn with
  | nil =>
    have hnil : outcomes rates cfg.canary [] = [] := by
      unfold outcomes
      cases throughputUrl cfg.canary <;> rfl
    change ThroughputTally _ (outcomes rates cfg.canary []) _
    rw [hnil]
    exact throughputTally_nil _
  | append_singleton turns t ih =>
    rw [run_concat, outcomes_concat]
    exact throughputTally_turn ih

theorem outcomes_mono {pre : List Turn} (h : pre <+: turns) :
    outcomes rates cfg.canary (run rates errorText cfg p pre).2 <+:
      outcomes rates cfg.canary (run rates errorText cfg p turns).2 := by
  obtain ⟨rest, rfl⟩ := h
  induction rest using List.reverseRecOn with
  | nil => rw [List.append_nil]
  | append_singleton rest t ih =>
    rw [← List.append_assoc, run_concat, outcomes_concat]
    exact ih.trans (List.prefix_append _ _)

theorem exists_turn_of_prefix (hne : outs ≠ [])
    (h : outs <+: outcomes rates cfg.canary (run rates errorText cfg p turns).2) :
    ∃ pre t, pre ++ [t] <+: turns ∧
      outcomes rates cfg.canary (run rates errorText cfg p (pre ++ [t])).2 = outs ∧
      outcomes rates cfg.canary [(turn rates errorText cfg p
        (run rates errorText cfg p pre).1 t).2] ≠ [] := by
  induction turns using List.reverseRecOn with
  | nil =>
    refine absurd (List.prefix_nil.mp (h.trans ?_)) hne
    unfold outcomes
    cases throughputUrl cfg.canary <;> exact List.prefix_rfl
  | append_singleton turns t ih =>
    have hsplit := h
    rw [run_concat, outcomes_concat] at hsplit
    by_cases hlast : outs <+: outcomes rates cfg.canary (run rates errorText cfg p turns).2
    · obtain ⟨pre, t', hpre, hrest⟩ := ih hlast
      exact ⟨pre, t', hpre.trans (List.prefix_append _ _), hrest⟩
    · refine ⟨turns, t, List.prefix_rfl, ?_, fun hnil => hlast (by simpa [hnil] using hsplit)⟩
      rw [run_concat, outcomes_concat]
      rw [outcomes_turn] at hsplit ⊢
      cases hran : t.throughputRun cfg (t.reachabilityFailure cfg p
        (t.canaryStep cfg (run rates errorText cfg p turns).1).entry)
        (probedState cfg (run rates errorText cfg p turns).1 t) with
      | none => exact absurd (by simpa [hran] using hsplit) hlast
      | some url =>
        rw [hran] at hsplit
        rcases List.prefix_concat_iff.mp hsplit with heq | hbefore
        · exact heq.symm
        · exact absurd hbefore hlast

/-! ## The report -/

variable (cfg p t entry) in
theorem reachabilityFailure_ne_throttled :
    (t.reachabilityFailure cfg p entry).map Prod.fst ≠ some .throttled := by
  unfold Turn.reachabilityFailure
  split_ifs <;> try simp
  split <;> simp

variable (entry) in
theorem contentFailure_throttled_iff :
    (contentFailure entry).map Prod.fst = some .throttled ↔ entry.throughputOk = false := by
  unfold contentFailure
  cases entry.throughputOk with
  | false => simp
  | true => cases entry.canaryOk <;> simp

/-- **When a turn reports a throttled link**: the layers before pass, and the check is failing. -/
theorem throttled_iff :
    (turn rates errorText cfg p s t).2.failure.map Prod.fst = some .throttled ↔
      t.reachabilityFailure cfg p (t.canaryStep cfg s).entry = none ∧
        (turn rates errorText cfg p s t).1.entry.throughputOk = false := by
  have hcontent := contentFailure_throttled_iff (turn rates errorText cfg p s t).1.entry
  have hfailure : (turn rates errorText cfg p s t).2.failure =
      (t.reachabilityFailure cfg p (t.canaryStep cfg s).entry).or
        (contentFailure (turn rates errorText cfg p s t).1.entry) := rfl
  rw [hfailure, ← hcontent]
  cases hreach : t.reachabilityFailure cfg p (t.canaryStep cfg s).entry with
  | none => simp
  | some failure =>
    have hne := hreach ▸ reachabilityFailure_ne_throttled cfg p t (t.canaryStep cfg s).entry
    simpa using hne

theorem reachabilityFailure_of_measured
    (h : outcomes rates cfg.canary [(turn rates errorText cfg p s t).2] ≠ []) :
    t.reachabilityFailure cfg p (t.canaryStep cfg s).entry = none := by
  by_contra hreach
  refine h ?_
  rw [outcomes_turn, Turn.throughputRun, if_neg (by simp [hreach])]
  rfl

/-- Every report of a throttled link comes after as many slow measurements as the threshold asks
for, since the last outcome that clears the count. -/
def ThrottledSound (rates : Rates) (errorText : FetchError → String) (cfg : LoopConfig)
    (p : Provider) (turns : List Turn) : Prop :=
  ∀ pre t, pre ++ [t] <+: turns →
    (turn rates errorText cfg p (run rates errorText cfg p pre).1 t).2.failure.map Prod.fst =
      some .throttled →
    cfg.canary.throughput.failureThreshold.toNat ≤
      (sinceGood (outcomes rates cfg.canary (run rates errorText cfg p (pre ++ [t])).2)).count
        .tooSlow

/-- Where failing outcomes in a row become as many as the threshold asks for, each of them is a slow
measurement. -/
def SlowStreaks (threshold : UInt32) (outs : List Outcome) : Prop :=
  ∀ pre, pre <+: outs → (sinceGood pre).length = threshold.toNat → ∀ o ∈ sinceGood pre, o = .tooSlow

/-- **Reports of a throttled link are sound** exactly where no outcome that could not be measured
helps a streak to its threshold. -/
theorem throttled_sound_iff (turns : List Turn) : ThrottledSound rates errorText cfg p turns ↔
    SlowStreaks cfg.canary.throughput.failureThreshold
      (outcomes rates cfg.canary (run rates errorText cfg p turns).2) := by
  constructor
  · intro hsound outs houts hlen o ho
    have hbad : sinceGood outs ≠ [] := List.ne_nil_of_mem ho
    have hne : outs ≠ [] := fun hnil => hbad (by rw [hnil]; rfl)
    obtain ⟨pre, t, hpre, hsame, hmeasured⟩ := exists_turn_of_prefix hne houts
    have htally := throughputTally_run rates errorText cfg p (pre ++ [t])
    rw [hsame, run_concat] at htally
    have hcount := hsound pre t hpre (throttled_iff.mpr
      ⟨reachabilityFailure_of_measured hmeasured, htally.ok_iff.mpr ⟨hbad, hlen.ge⟩⟩)
    rw [hsame, ← hlen] at hcount
    exact (List.count_eq_length.mp (le_antisymm List.count_le_length hcount) o ho).symm
  · intro hslow pre t hpre hthrottled
    have htally := throughputTally_run rates errorText cfg p (pre ++ [t])
    have hfailing : (run rates errorText cfg p (pre ++ [t])).1.entry.throughputOk = false := by
      rw [run_concat]
      exact (throttled_iff.mp hthrottled).2
    have hlen := (htally.ok_iff.mp hfailing).2
    obtain ⟨outs, houts, htake⟩ := exists_prefix_rtakeWhile hlen
    have hreached : (sinceGood outs).length = cfg.canary.throughput.failureThreshold.toNat :=
      (congrArg List.length htake).trans (List.length_take_of_le hlen)
    have hfirst : ∀ o ∈ sinceGood outs, o = .tooSlow :=
      hslow outs (houts.trans (outcomes_mono hpre)) hreached
    calc cfg.canary.throughput.failureThreshold.toNat
        = (sinceGood outs).count .tooSlow := by
          rw [List.count_eq_length.mpr fun o ho => (hfirst o ho).symm, hreached]
      _ ≤ _ := by
          rw [sinceGood, htake]
          exact (List.take_sublist _ _).count_le _

end Tally

/-- A lookup that fails, in two rounds of the check. -/
theorem not_throttled_sound :
    ¬ ThrottledSound exactRates (fun _ => "request failed") {} wan
      [steadyTurn 0 passedReport, steadyTurn 120 passedReport] := by
  intro hsound
  have hcount := hsound [steadyTurn 0 passedReport] (steadyTurn 120 passedReport) List.prefix_rfl
  revert hcount
  decide +kernel

end Vlb.HealthLoop
