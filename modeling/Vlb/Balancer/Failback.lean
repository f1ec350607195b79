import Vlb.Balancer.Override

/-!
# Failback over whole runs

A pass leaves a working provider for a better one when that has been up for the failback window. The
window is measured from `up_since`, which the probe rounds keep.

* `UpAt`: the provider is up in the state in force at a moment.
* `upAt_of_upSince`: `up_since` is true to the history, in every run.
* `Decides`: a pass that reads the views, waits, and decides.
* **`failback_iff`**: the new provider has been up at every moment of the window exactly when the
  window is within the limit of chrono.
-/

namespace Vlb.Balancer

open Time Selection Transition

variable {cfg : Config} {s s' s₀ : Sys} {e : Event} {es hist wait : List Event} {t : TaskId}
  {name : String} {r : Reading}

/-- The state in force at the moment `m`, in nanoseconds since the epoch. -/
def inForce (cfg : Config) (s₀ : Sys) (es : List Event) (m : ℤ) : Option Sys :=
  stateAt (step cfg) (fun s => s.clock.nanos) m s₀ es

/-- The provider is up at the moment `m` of the run. -/
def UpAt (cfg : Config) (s₀ : Sys) (es : List Event) (name : String) (m : ℤ) : Prop :=
  ∃ u, inForce cfg s₀ es m = some u ∧ (u.health name).state = .up

/-- The clock never goes back. -/
def ClockForward (cfg : Config) (s₀ : Sys) (es : List Event) : Prop :=
  AllSteps (step cfg) (fun u _ v => u.clock.nanos ≤ v.clock.nanos) s₀ es

theorem upAt_concat (hrun : Run (step cfg) s₀ es s) (hstep : step cfg s e = some s') (m : ℤ) :
    UpAt cfg s₀ (es ++ [e]) name m ↔
      if s'.clock.nanos ≤ m then (s'.health name).state = .up else UpAt cfg s₀ es name m := by
  unfold UpAt inForce
  rw [stateAt_concat hrun hstep]
  split_ifs <;> simp

theorem step_upSince {since : DateTime} (hstep : step cfg s e = some s')
    (hsince : (s'.health name).upSince = some since) :
    ((s.health name).upSince = some since ∧ (s'.health name).state = (s.health name).state) ∨
      (since = s'.clock ∧ (s'.health name).state = .up) := by
  rcases step_health hstep with h | ⟨name', success, latencyMs, failure, rfl, -, rfl⟩
  · exact Or.inl ⟨by rwa [← h], by rw [h]⟩
  · by_cases hname : name = name'
    · subst hname
      simp only [applyProbe, Function.update_self] at hsince ⊢
      rcases (s.health name).applyProbeResult_cases cfg.health _ with
        ⟨-, hstate, hup⟩ | ⟨-, -, hdown⟩ | ⟨-, -, hstate, hkept⟩
      · rw [hup] at hsince
        exact Or.inr ⟨(Option.some.inj hsince).symm, hstate⟩
      · rw [hdown] at hsince
        cases hsince
      · exact Or.inl ⟨hkept ▸ hsince, hstate⟩
    · simp only [applyProbe, Function.update_of_ne hname] at hsince
      exact Or.inl ⟨hsince, by simp [applyProbe, hname]⟩

/-- **`up_since` is true to the history**: the provider is up, and has been ever since. -/
theorem upAt_of_upSince (hinit : Initial s₀) (hrun : Run (step cfg) s₀ es s) {since : DateTime}
    (hsince : (s.health name).upSince = some since) :
    (s.health name).state = .up ∧ ∀ m, since.nanos ≤ m → UpAt cfg s₀ es name m := by
  induction hrun generalizing since with
  | nil => simp [hinit.health] at hsince
  | concat hrun hstep ih =>
    rcases step_upSince hstep hsince with ⟨hkept, hsame⟩ | ⟨rfl, hup⟩
    · obtain ⟨hup, hat⟩ := ih hkept
      refine ⟨hsame.trans hup, fun m hm => (upAt_concat hrun hstep m).mpr ?_⟩
      split_ifs
      · exact hsame.trans hup
      · exact hat m hm
    · refine ⟨hup, fun m hm => (upAt_concat hrun hstep m).mpr ?_⟩
      rwa [if_pos hm]

/-! ## Passes -/

/-- A pass of the task `t`: it reads the views after `hist`, waits for `active`, and is about to
decide on its reading `r` in the state `s`. -/
structure Decides (cfg : Config) (s₀ : Sys) (hist : List Event) (t : TaskId) (wait : List Event)
    (r : Reading) (s : Sys) : Prop where
  run : ∃ ok, Run (step cfg) s₀ (hist ++ .advance t ok :: wait) s
  reads : ∃ u alwaysInstall, Run (step cfg) s₀ hist u ∧
    u.tasks t = .passing alwaysInstall (.readViews r.forced r.now r.failbackStable) ∧
      r.views = u.views cfg
  waits : ∀ e ∈ wait, e.task? ≠ some t

theorem Decides.reading? (h : Decides cfg s₀ hist t wait r s) :
    (s.tasks t).reading? = some r := by
  obtain ⟨ok, hrun⟩ := h.run
  obtain ⟨u, alwaysInstall, hu, hstate, hviews⟩ := h.reads
  obtain ⟨u', hu', hrest⟩ := run_append_iff.mp hrun
  obtain rfl := hu'.unique hu
  obtain ⟨v, hv, hwait⟩ := run_cons_iff.mp hrest
  rw [tasks_of_run hwait h.waits]
  simp only [step, advance, hstate, passStep, Option.some.injEq] at hv
  subst hv
  simp [TaskState.reading?, ← hviews]

theorem advance_reading? {ok : Bool} (h : advance cfg s t ok = some s')
    (hr : (s'.tasks t).reading? = some r) :
    ∃ alwaysInstall, s.tasks t =
        .passing alwaysInstall (.readViews r.forced r.now r.failbackStable) ∧
      r.views = s.views cfg := by
  have hread := forcedRead?_of_reading? hr
  by_cases hpass : ∃ alwaysInstall point, s.tasks t = .passing alwaysInstall point
  · obtain ⟨alwaysInstall, point, hstate⟩ := hpass
    simp only [advance, hstate] at h
    rcases passStep_reads h with hnone | ⟨-, hnext⟩ | ⟨forced, window, -, hnext⟩ |
      ⟨forced, now, failbackStable, rfl, hnext⟩
    · rw [hnone] at hread
      cases hread
    all_goals
      rw [hnext] at hr
      cases hr
    exact ⟨alwaysInstall, hstate, rfl⟩
  · simp only [not_exists] at hpass
    rw [advance_forcedRead? h hpass] at hread
    cases hread

theorem exists_decides (hinit : Initial s₀) (hrun : Run (step cfg) s₀ es s)
    (hr : (s.tasks t).reading? = some r) :
    ∃ hist wait, Decides cfg s₀ hist t wait r s ∧ ∃ ok, es = hist ++ .advance t ok :: wait := by
  induction hrun with
  | nil =>
    rw [hinit.tasks] at hr
    cases hr
  | @concat es u e s hrun hstep ih =>
    by_cases ht : e.task? = some t
    · cases e with
      | advance t' ok =>
        cases ht
        obtain ⟨alwaysInstall, hstate, hviews⟩ := advance_reading? hstep hr
        exact ⟨es, [], ⟨⟨ok, Run.concat hrun hstep⟩, ⟨u, alwaysInstall, hrun, hstate, hviews⟩,
          by simp⟩, ok, rfl⟩
      | _ =>
        obtain ⟨-, h | h | ⟨name, h⟩ | h | h⟩ := step_begins hstep (by simp) ht
        all_goals
          rw [h] at hr
          cases hr
    · rw [step_tasks_of_ne hstep ht] at hr
      obtain ⟨hist, wait, hd, ok, rfl⟩ := ih hr
      refine ⟨hist, wait ++ [e], ⟨⟨ok, ?_⟩, hd.reads, ?_⟩, ok, by simp⟩
      · simpa using Run.concat hrun hstep
      · intro e' he'
        rcases List.mem_append.mp he' with he' | he'
        · exact hd.waits e' he'
        · rwa [List.mem_singleton.mp he']

/-- A pass with no pin that leaves an up provider leaves it for one that has been up for the window,
if the window is one that chrono can hold. -/
theorem upAt_of_leaves (hacc : cfg.Accepted) (hinit : Initial s₀)
    (hpass : Decides cfg s₀ hist t wait r s) (hpin : r.forced = none) {cur target : String}
    (hcur : s.active = some cur) (hup : HasState r.views cur .up)
    (hswitch : SwitchesTo (r.input s.active).decide target)
    (hlimit : r.failbackStable.nanos ≤ TimeDelta.max) :
    ∀ m, r.now.nanos - r.failbackStable.nanos ≤ m → UpAt cfg s₀ hist target m := by
  obtain ⟨u, _, hu, -, hviews⟩ := hpass.reads
  have hnames : (r.views.map ProviderView.name).Nodup := by
    rw [hviews, views_names]
    exact Config.names_nodup hacc
  obtain ⟨best, hbest, rfl, -, hstable⟩ := decide_leaves_up hpin hnames hcur hup hswitch
  obtain ⟨p, -, rfl⟩ : ∃ p ∈ cfg.providers, _ = best := by
    rw [show (r.input s.active).providers = u.views cfg from hviews] at hbest
    exact List.mem_map.mp hbest
  intro m hm
  obtain ⟨since, hsince, hle⟩ := (stableFor_iff hlimit).mp hstable
  refine (upAt_of_upSince hinit hu hsince).2 m ?_
  simp only [Reading.input] at hle
  omega

/-- **Failback rests on a continuous window of health**: with no pin, a pass that leaves an up
provider goes to one that has been up at every moment of the failback window, exactly when the
window is one that chrono can hold. -/
theorem failback_iff (hacc : cfg.Accepted) (hinit : Initial s₀) (hclock : ClockForward cfg s₀ hist)
    (hpass : Decides cfg s₀ hist t wait r s) (hpin : r.forced = none) {cur target : String}
    (hcur : s.active = some cur) (hup : HasState r.views cur .up)
    (hswitch : SwitchesTo (r.input s.active).decide target) :
    (∀ m, r.now.nanos - r.failbackStable.nanos ≤ m → m ≤ r.now.nanos →
        UpAt cfg s₀ hist target m) ↔ r.failbackStable.nanos ≤ TimeDelta.max := by
  constructor
  · intro hat
    by_contra hwide
    -- before the calendar begins no state is in force
    obtain ⟨u, _, hu, -, -⟩ := hpass.reads
    obtain ⟨v, hv, -⟩ := hat _ le_rfl (by omega)
    have hspan := r.now.signedDurationSince_le_max s₀.clock
    rw [DateTime.signedDurationSince] at hspan
    rw [inForce, stateAt_eq_none hclock hu (by omega)] at hv
    cases hv
  · intro hlimit m hm _
    exact upAt_of_leaves hacc hinit hpass hpin hcur hup hswitch hlimit m hm

theorem decides_of_exec (henabled : (exec (step cfg) s₀ (hist ++ [.advance t true])).isSome)
    (hreads : (exec (step cfg) s₀ hist).all (fun u => decide
      (u.tasks t = .passing false (.readViews r.forced r.now r.failbackStable) ∧
        r.views = u.views cfg)) = true) :
    Decides cfg s₀ hist t [] r ((exec (step cfg) s₀ (hist ++ [.advance t true])).get henabled) := by
  have hrun := run_get henabled
  obtain ⟨u, hu, -⟩ := run_concat_iff.mp hrun
  obtain ⟨hstate, hviews⟩ := Run.of_all (P := fun u =>
    u.tasks t = .passing false (.readViews r.forced r.now r.failbackStable) ∧
      r.views = u.views cfg) hreads hu
  exact ⟨⟨true, hrun⟩, ⟨u, false, hu, hstate, hviews⟩, by simp⟩

/-- `a` is down and `b` carries the route; `a` comes back, and after `later` its pass begins, up to
the views. -/
def comeback (later : List Event) : List Event :=
  [.probe "a" false none (some (.gateway, "no reply"))] ++ turns (.healthLoop "a") 6 ++
    [.probe "b" true none none] ++ turns (.healthLoop "b") 8 ++
    [.probe "a" true none none] ++ later ++ turns (.healthLoop "a") 2

/-- What that pass reads. -/
def comebackReading (now : DateTime) (window : Duration) : Reading where
  forced := none
  now := now
  failbackStable := window
  views := [⟨"a", 1, .up, some DateTime.epoch⟩, ⟨"b", 2, .up, some DateTime.epoch⟩]

/-- Forty seconds after the epoch. -/
def fortySeconds : DateTime := ⟨40 * nanosPerSec, by decide⟩

theorem comeback_enabled : (exec (step twoUplinks) coldStart
    (comeback [.tick fortySeconds] ++ [.advance (.healthLoop "a") true])).isSome := by
  decide

theorem comeback_active : ((exec (step twoUplinks) coldStart
    (comeback [.tick fortySeconds] ++ [.advance (.healthLoop "a") true])).get
      comeback_enabled).active = some "b" := by
  decide

theorem failback_iff_comeback :
    (∀ m, fortySeconds.nanos - (Duration.fromSecs 30).nanos ≤ m → m ≤ fortySeconds.nanos →
        UpAt twoUplinks coldStart (comeback [.tick fortySeconds]) "a" m) ↔
      (Duration.fromSecs 30).nanos ≤ TimeDelta.max :=
  failback_iff (r := comebackReading fortySeconds (Duration.fromSecs 30)) (by decide)
    coldStart_initial (allSteps_of_check (fun _ _ _ => of_decide_eq_true) (by decide))
    (decides_of_exec comeback_enabled (by decide)) rfl comeback_active
    ⟨⟨"b", 2, .up, some DateTime.epoch⟩, by decide, rfl, rfl⟩
    (by rw [comeback_active]; exact ⟨_, rfl⟩)

/-- A failback window of three hundred million years, which is accepted. -/
def endlessWindow : Config :=
  { twoUplinks with
    failover := { failbackStableSecs := 10000000000000000
                  maxFailbackStableSecs := 10000000000000000 } }

theorem comeback_endless_enabled : (exec (step endlessWindow) coldStart
    (comeback [] ++ [.advance (.healthLoop "a") true])).isSome := by
  decide

theorem comeback_endless_active : ((exec (step endlessWindow) coldStart
    (comeback [] ++ [.advance (.healthLoop "a") true])).get comeback_endless_enabled).active =
      some "b" := by
  decide

/-- The conversion to chrono's duration collapses the window, and the pass leaves `b` at once. -/
theorem not_failback : ¬ ∀ (cfg : Config) (s₀ s : Sys) (hist wait : List Event) (t : TaskId)
    (r : Reading) (cur target : String), cfg.Accepted → Initial s₀ →
      ClockForward cfg s₀ (hist ++ .advance t true :: wait) → Decides cfg s₀ hist t wait r s →
        r.forced = none → s.active = some cur → HasState r.views cur .up →
          SwitchesTo (r.input s.active).decide target →
            ∀ m, r.now.nanos - r.failbackStable.nanos ≤ m → m ≤ r.now.nanos →
              UpAt cfg s₀ hist target m := by
  intro hall
  obtain ⟨u, hu, -⟩ := hall endlessWindow coldStart _ (comeback []) [] (.healthLoop "a")
    (comebackReading DateTime.epoch (Duration.fromSecs 10000000000000000)) "b" "a" (by decide)
    coldStart_initial (allSteps_of_check (fun _ _ _ => of_decide_eq_true) (by decide))
    (decides_of_exec comeback_endless_enabled (by decide)) rfl comeback_endless_active
    ⟨⟨"b", 2, .up, some DateTime.epoch⟩, by decide, rfl, rfl⟩
    (by rw [comeback_endless_active]; exact ⟨_, rfl⟩) (-1) (by decide) (by decide)
  have hnone : inForce endlessWindow coldStart (comeback []) (-1) = none := by rfl
  rw [hnone] at hu
  cases hu

end Vlb.Balancer
