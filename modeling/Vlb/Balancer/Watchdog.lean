import Vlb.Balancer.Exclusion
import Vlb.Net.Defaults

/-!
# What the watchdog lets pass

A turn of the watchdog is content when some default route is that of the active provider and no
other is listed at metric 0. The kernel follows a route of the lowest metric.

* `Watches`: the provider that a turn looks for is the active one, for the whole turn.
* `Preferred`: a route that the kernel may follow.
* **`watchdog_sound_iff`**: a content watchdog is right exactly when every other default route has a
  metric above that of one of ours, or the watchdog would not have been content anyway.
-/

namespace Vlb.Balancer

open Router Transition

variable {cfg : Config} {s s' s₀ : Sys} {t : TaskId} {e : Event} {es : List Event}
  {expected : Provider}

/-- The route goes out where the provider does. -/
def leadsTo (p : Provider) (k : KernelRoute) : Prop := k.via p.gateway p.interface = true

instance (p : Provider) : DecidablePred (leadsTo p) := fun _ => inferInstanceAs (Decidable (_ = _))

/-- The kernel prefers the lowest metric, and breaks ties as it likes. -/
def Preferred (routes : List KernelRoute) (k : KernelRoute) : Prop :=
  k ∈ routes ∧ ∀ k' ∈ routes, k.metric.toNat ≤ k'.metric.toNat

/-- Whatever route the kernel follows goes out where the provider does. -/
def Follows (routes : List KernelRoute) (p : Provider) : Prop :=
  ∀ k, Preferred routes k → leadsTo p k

/-- The condition on the table: no route of the provider is there, or another one is listed at metric
0, or every other route has a metric above that of one of the provider's. -/
def Telling (routes : List KernelRoute) (p : Provider) : Prop :=
  (∀ k ∈ routes, ¬ leadsTo p k) ∨
    (∃ k ∈ routes, k.contends = true ∧ ¬ leadsTo p k) ∨
      ∀ k ∈ routes, ¬ leadsTo p k →
        ∃ ours ∈ routes, leadsTo p ours ∧ ours.metric.toNat < k.metric.toNat

instance (routes : List KernelRoute) (p : Provider) : Decidable (Telling routes p) :=
  inferInstanceAs (Decidable (_ ∨ _ ∨ _))

/-! ## The provider that a turn looks for -/

/-- What a turn of the watchdog has read agrees with `active`. -/
def Watches (cfg : Config) (s : Sys) : TaskState → Prop
  | .watching (.readExpected active) => s.active = some active
  | .watching (.readRoutes expected) => s.active.bind cfg.provider? = some expected
  | _ => True

theorem Watches.of_active {state : TaskState} (h : Watches cfg s state)
    (hactive : s'.active = s.active) : Watches cfg s' state := by
  unfold Watches at h ⊢
  split
  · exact hactive.trans h
  · rw [hactive]
    exact h
  · trivial

theorem watches_watchStep {point : WatchPoint} {ok : Bool}
    (h : Watches cfg s (.watching point)) (hstep : watchStep cfg s t ok point = some s') :
    Watches cfg s' (s'.tasks t) := by
  cases point with
  | lockActive =>
    simp only [watchStep] at hstep
    repeat' split at hstep
    all_goals
      cases hstep
    · simp [Watches]
    · rename_i active hactive
      rw [goto_tasks_self]
      exact hactive
  | readExpected active =>
    simp only [watchStep] at hstep
    split at hstep
    all_goals
      cases hstep
    · simp [Watches]
    · rename_i expected hexpected
      rw [goto_tasks_self]
      change s.active.bind cfg.provider? = some expected
      rw [show s.active = some active from h]
      exact hexpected
  | readRoutes expected =>
    simp only [watchStep] at hstep
    split at hstep
    all_goals
      cases hstep
      simp [Watches]
  | repair expected oursPresent =>
    simp only [watchStep] at hstep
    split at hstep
    all_goals
      cases hstep
      simp only [goto_tasks_self]
    · split_ifs <;> trivial
    · trivial
  | flush | record | unlock =>
    cases hstep
    simp [Watches]

theorem watches_of_not_holds {state : TaskState} (h : state.holds = false) :
    Watches cfg s state := by
  unfold Watches
  split
  · cases h
  · cases h
  · trivial

theorem watches_own (h : Watches cfg s (s.tasks t)) (ht : e.task? = some t)
    (hstep : step cfg s e = some s') : Watches cfg s' (s'.tasks t) := by
  by_cases hadvance : ∃ t' ok, e = .advance t' ok
  · obtain ⟨t', ok, rfl⟩ := hadvance
    cases ht
    rcases advance_cases hstep with ⟨name, p, -, -, -, rfl⟩ | ⟨_, point, -, hstep⟩ |
      ⟨point, hstate, hstep⟩ | ⟨name, point, -, hstep⟩ | ⟨point, -, hstep⟩
    · simp [Watches]
    · rcases passStep_next hstep with ⟨next, h⟩ | h | h <;> rw [h] <;> trivial
    · rw [hstate] at h
      exact watches_watchStep h hstep
    · rcases forceStep_next hstep with ⟨next, h⟩ | h | h <;> rw [h] <;> trivial
    · rcases clearStep_next hstep with ⟨next, h⟩ | h <;> rw [h] <;> trivial
  · have hne : ∀ t ok, e ≠ .advance t ok := fun t ok he => hadvance ⟨t, ok, he⟩
    obtain ⟨-, h | h | ⟨name, h⟩ | h | h⟩ := step_begins hstep hne ht <;> rw [h] <;> trivial

/-- **A turn looks for the active provider**, whatever else happens meanwhile. -/
theorem watches_of_run (hinit : Initial s₀) (hrun : Run (step cfg) s₀ es s) (t : TaskId) :
    Watches cfg s (s.tasks t) := by
  induction hrun with
  | nil =>
    rw [hinit.tasks]
    trivial
  | @concat es s e s' hrun hstep ih =>
    by_cases ht : e.task? = some t
    · exact watches_own ih ht hstep
    · rw [step_tasks_of_ne hstep ht]
      cases hholds : (s.tasks t).holds with
      | false => exact watches_of_not_holds hholds
      | true =>
        have hexcl := exclusive_of_run hinit hrun
        exact ih.of_active (guarded_step hexcl (hexcl t hholds) ht hstep).active

/-! ## The verdict on the table -/

theorem leadsTo_iff {p : Provider} {k : KernelRoute} :
    leadsTo p k ↔ k.gateway = some p.gateway ∧ k.interface = p.interface := by
  simp [leadsTo, KernelRoute.via]

theorem leadsTo_of_shown {p : Provider} {k : KernelRoute} {r : InstalledRoute}
    (h : k.shown = some r) : r.leadsTo p = true ↔ leadsTo p k := by
  obtain ⟨g, hg, rfl⟩ := Option.map_eq_some_iff.mp h
  simp [InstalledRoute.leadsTo, leadsTo_iff, hg]

theorem oursPresent_iff :
    oursPresent s expected = true ↔ ∃ k ∈ s.kernel.table.routes, leadsTo expected k := by
  simp only [oursPresent, Table.currentDefaults, List.any_eq_true, List.mem_filterMap]
  constructor
  · rintro ⟨r, ⟨k, hk, hshown⟩, hr⟩
    exact ⟨k, hk, (leadsTo_of_shown hshown).mp hr⟩
  · rintro ⟨k, hk, hleads⟩
    obtain ⟨r, hr⟩ : ∃ r, k.shown = some r :=
      ⟨_, by rw [KernelRoute.shown, (leadsTo_iff.mp hleads).1]; rfl⟩
    exact ⟨r, ⟨k, hk, hr⟩, (leadsTo_of_shown hr).mpr hleads⟩

theorem rivalPresent_iff : rivalPresent s expected = true ↔
    ∃ k ∈ s.kernel.table.routes, k.contends = true ∧ ¬ leadsTo expected k := by
  simp only [rivalPresent, Table.currentDefaults, List.any_eq_true, List.mem_filterMap,
    decide_eq_true_eq]
  constructor
  · rintro ⟨r, ⟨k, hk, hshown⟩, hmetric, hr⟩
    refine ⟨k, hk, ?_, fun hleads => hr ((leadsTo_of_shown hshown).mpr hleads)⟩
    obtain ⟨g, hg, -⟩ := Option.map_eq_some_iff.mp hshown
    simp [KernelRoute.contends, hg, ← metricOrZero_of_shown hshown, hmetric]
  · rintro ⟨k, hk, hcontends, hleads⟩
    simp only [KernelRoute.contends, decide_eq_true_eq] at hcontends
    obtain ⟨g, hg⟩ := Option.isSome_iff_exists.mp hcontends.2
    obtain ⟨r, hr⟩ : ∃ r, k.shown = some r := ⟨_, by rw [KernelRoute.shown, hg]; rfl⟩
    exact ⟨r, ⟨k, hk, hr⟩, (metricOrZero_of_shown hr).trans hcontends.1,
      fun h => hleads ((leadsTo_of_shown hr).mp h)⟩

/-- Every table has a route that the kernel may follow, below any given one. -/
theorem exists_preferred {routes : List KernelRoute} {k : KernelRoute} (hk : k ∈ routes) :
    ∃ k', Preferred routes k' ∧ k'.metric.toNat ≤ k.metric.toNat := by
  have hne : routes.argmin (fun k => k.metric.toNat) ≠ none :=
    fun hnone => by simp [List.argmin_eq_none.mp hnone] at hk
  obtain ⟨k', hk'⟩ := Option.ne_none_iff_exists'.mp hne
  have hle : ∀ k ∈ routes, k'.metric.toNat ≤ k.metric.toNat := fun k hk =>
    List.le_of_mem_argmin (f := fun k : KernelRoute => k.metric.toNat) hk hk'
  exact ⟨k', ⟨List.argmin_mem hk', hle⟩, hle k hk⟩

/-- The kernel follows ours exactly when each of the others is above one of ours. -/
theorem follows_iff {routes : List KernelRoute} {p : Provider} : Follows routes p ↔
    ∀ k ∈ routes, ¬ leadsTo p k →
      ∃ ours ∈ routes, leadsTo p ours ∧ ours.metric.toNat < k.metric.toNat := by
  constructor
  · intro hfollows k hk hforeign
    obtain ⟨ours, hpreferred, hle⟩ := exists_preferred hk
    refine ⟨ours, hpreferred.1, hfollows ours hpreferred, lt_of_le_of_ne hle fun heq => ?_⟩
    exact hforeign (hfollows k ⟨hk, fun k' hk' => heq ▸ hpreferred.2 k' hk'⟩)
  · intro habove k hpreferred
    by_contra hforeign
    obtain ⟨ours, hmem, -, hlt⟩ := habove k hpreferred.1 hforeign
    exact absurd (hpreferred.2 ours hmem) (not_le_of_gt hlt)

/-- **A watchdog that is content is right** exactly when the table is telling. -/
theorem watchdog_sound_iff (hinit : Initial s₀) (hrun : Run (step cfg) s₀ es s)
    (hstate : s.tasks t = .watching (.readRoutes expected))
    (hstep : step cfg s (.advance t true) = some s') :
    (s'.tasks t = .watching .unlock → ∃ p, s.active.bind cfg.provider? = some p ∧
        Follows s.kernel.table.routes p) ↔ Telling s.kernel.table.routes expected := by
  have hactive : s.active.bind cfg.provider? = some expected := by
    have hwatches := watches_of_run hinit hrun t
    rwa [hstate] at hwatches
  have hcontent : s'.tasks t = .watching .unlock ↔
      oursPresent s expected = true ∧ ¬ rivalPresent s expected = true := by
    simp only [step, advance, hstate, watchStep, true_and] at hstep
    split_ifs at hstep with h
    · cases hstep
      simpa using h
    · cases hstep
      simpa using h
  have hfollows : (∃ p, s.active.bind cfg.provider? = some p ∧
      Follows s.kernel.table.routes p) ↔ Follows s.kernel.table.routes expected := by
    rw [hactive]
    simp
  rw [hcontent, hfollows, oursPresent_iff, rivalPresent_iff, Telling]
  constructor
  · intro h
    by_cases hours : ∃ k ∈ s.kernel.table.routes, leadsTo expected k
    · by_cases hrival : ∃ k ∈ s.kernel.table.routes, k.contends = true ∧ ¬ leadsTo expected k
      · exact Or.inr (Or.inl hrival)
      · exact Or.inr (Or.inr (follows_iff.mp (h ⟨hours, hrival⟩)))
    · push Not at hours
      exact Or.inl hours
  · rintro (hnone | hrival | habove) ⟨hours, hno⟩
    · obtain ⟨k, hk, hleads⟩ := hours
      exact absurd hleads (hnone k hk)
    · exact absurd hrival hno
    · exact follows_iff.mpr habove

/-- `a` is active, and a turn of the watchdog looks at the given routes. -/
def watching (routes : List KernelRoute) : List Event :=
  bothUp ++ [.external routes, .watch] ++ turns .routeWatchdog 2

/-- The route of `a` at metric 100, and one of somebody else. -/
def besides (metric : UInt32) : List KernelRoute :=
  [{ gateway := some (Ipv4Addr.ofOctets 10 0 0 1), interface := "wan", metric := 100
     proto := "dhcp" },
    { gateway := some (Ipv4Addr.ofOctets 10 0 0 9), interface := "wan", metric, proto := "dhcp" }]

theorem watching_above_enabled : (exec (step twoUplinks) coldStart
    (watching (besides 200) ++ [.advance .routeWatchdog true])).isSome := by
  decide

theorem watching_below_enabled : (exec (step twoUplinks) coldStart
    (watching (besides 50) ++ [.advance .routeWatchdog true])).isSome := by
  decide

theorem watchdog_sound_iff_above : ∃ s s', Run (step twoUplinks) coldStart (watching (besides 200)) s ∧
    step twoUplinks s (.advance .routeWatchdog true) = some s' ∧
    (s'.tasks .routeWatchdog = .watching .unlock → ∃ p, s.active.bind twoUplinks.provider? = some p ∧
      Follows s.kernel.table.routes p) := by
  obtain ⟨s, hs, hstep⟩ := run_concat_iff.mp (run_get watching_above_enabled)
  have hstate : s.tasks .routeWatchdog = .watching (.readRoutes twoUplinks.providers[0]) :=
    Run.of_all (P := fun s : Sys => s.tasks .routeWatchdog =
      .watching (.readRoutes twoUplinks.providers[0])) (by decide) hs
  have htelling : Telling s.kernel.table.routes twoUplinks.providers[0] :=
    Run.of_all (P := fun s : Sys => Telling s.kernel.table.routes twoUplinks.providers[0])
      (by decide) hs
  exact ⟨s, _, hs, hstep, (watchdog_sound_iff coldStart_initial hs hstate hstep).mpr htelling⟩

/-- The watchdog is content with a route at metric 50 that is not ours, below ours at 100. -/
theorem not_watchdog_sound : ¬ ∀ (cfg : Config) (s₀ s s' : Sys) (es : List Event) (t : TaskId)
    (expected : Provider), cfg.Accepted → Initial s₀ → Run (step cfg) s₀ es s →
      s.tasks t = .watching (.readRoutes expected) → step cfg s (.advance t true) = some s' →
        s'.tasks t = .watching .unlock → ∃ p, s.active.bind cfg.provider? = some p ∧
          Follows s.kernel.table.routes p := by
  intro hall
  have hs' := run_get watching_below_enabled
  obtain ⟨s, hs, hstep⟩ := run_concat_iff.mp hs'
  obtain ⟨p, hp, hfollows⟩ := hall twoUplinks coldStart s _ _ .routeWatchdog
    twoUplinks.providers[0] (by decide) coldStart_initial hs
    (Run.of_all (P := fun s : Sys => s.tasks .routeWatchdog =
      .watching (.readRoutes twoUplinks.providers[0])) (by decide) hs) hstep
    (Run.of_all (P := fun s : Sys => s.tasks .routeWatchdog = .watching .unlock) (by decide) hs')
  have hactive := Run.of_all (P := fun s : Sys => s.active.bind twoUplinks.provider? =
    some twoUplinks.providers[0]) (by decide) hs
  obtain rfl := Option.some.inj (hp.symm.trans hactive)
  have hroutes := Run.of_all (P := fun s : Sys => s.kernel.table.routes = besides 50) (by decide) hs
  rw [hroutes] at hfollows
  exact absurd (hfollows (besides 50)[1] ⟨by decide, by decide⟩) (by decide)

end Vlb.Balancer
