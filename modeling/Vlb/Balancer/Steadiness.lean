import Vlb.Balancer.Controller

/-!
# Without news, without switches

As long as no provider's health and no pin changes, the daemon moves the traffic at most once, to
the provider that the policy prefers, and then stays there: however many passes run, in whatever
order of their steps, while the clock goes on, commands fail and the watchdog works.

* `goal`: the provider that a switch goes to, as a function of the pin and the health.
* `Steady`: a step that brings no news.
* **`switches_of_steady`**: at most one switch, to the goal.
-/

namespace Vlb.Balancer

open Transition Time Selection

variable {cfg : Config} {s s' s₀ u v : Sys} {t : TaskId} {e : Event} {es hist : List Event}

/-! ## Where a switch goes -/

/-- The provider that is pinned, while it is up, or else the best one that is. -/
def goal (forced : Option String) (views : List ProviderView) : Option String :=
  match forced.bind fun pin => (views.find? (·.name = pin)).filter ProviderView.isUp with
  | some p => some p.name
  | none => (bestHealthy views).map ProviderView.name

theorem switchOrKeep_switch {current : Option String} {p : ProviderView} {reason target : String}
    (h : SwitchesTo (switchOrKeep current p reason) target) :
    target = p.name ∧ current ≠ some p.name := by
  obtain ⟨reason', h⟩ := h
  unfold switchOrKeep at h
  split_ifs at h with hcurrent
  cases h
  exact ⟨rfl, hcurrent⟩

theorem switchToBest_switch {current : Option String} {ps : List ProviderView}
    {reason target : String} (h : SwitchesTo (switchToBest current ps reason) target) :
    (bestHealthy ps).map ProviderView.name = some target := by
  unfold switchToBest at h
  split at h
  · rename_i best hbest
    rw [hbest, (switchOrKeep_switch h).1]
    rfl
  · obtain ⟨reason', h⟩ := h
    cases h

/-- **Every switch goes to the goal.** -/
theorem goal_of_switchesTo {input : SelectionInput} {target : String}
    (h : SwitchesTo input.decide target) : goal input.forced input.providers = some target := by
  unfold SelectionInput.decide at h
  unfold goal
  split at h <;> rename_i hforced <;> rw [hforced]
  · rename_i pin
    split at h <;> rename_i hfind
    · rename_i p
      split_ifs at h with hup
      · simp [hfind, hup, Option.filter, (switchOrKeep_switch h).1]
      · simpa [hfind, hup, Option.filter] using switchToBest_switch h
    · simpa [hfind] using switchToBest_switch h
  · have hbest : (bestHealthy input.providers).map ProviderView.name = some target := by
      obtain ⟨reason, h⟩ := h
      split at h
      · cases h
      · rename_i best hbest
        rw [hbest]
        repeat' split at h
        all_goals
          cases h
        all_goals rfl
    simpa using hbest

/-! ## No news -/

/-- The step changes neither a provider's health, as selection sees it, nor the pin. -/
structure Steady (cfg : Config) (s s' : Sys) : Prop where
  views : s'.views cfg = s.views cfg
  override : s'.forceOverride = s.forceOverride

theorem Steady.undisturbed (h : Steady cfg s s') : Undisturbed cfg s s' :=
  ⟨fun hne => absurd h.override hne, fun hne => absurd h.views hne⟩

/-- No pass is between its reads and the lock, and none is switching. -/
def Unhurried (s : Sys) : Prop :=
  ∀ t, (s.tasks t).forcedRead? = none ∧ (s.tasks t).switching? = none

/-- The record tells of a move of the traffic. -/
def FailoverRecord.moves (r : FailoverRecord) : Bool := r.fromProvider ≠ some r.toProvider

/-- Where a run without news stands: nothing has been moved, or once, to the goal. -/
structure Moved (s s' : Sys) (goal : Option String) (rs : List FailoverRecord) : Prop where
  log : s'.failovers = s.failovers ++ rs
  once : rs.filter FailoverRecord.moves = [] ∧ s'.active = s.active ∨
    (∃ r, rs.filter FailoverRecord.moves = [r] ∧ r.fromProvider = s.active) ∧ s'.active = goal

/-- What holds along a run without news. -/
structure Quiet (cfg : Config) (s u : Sys) : Prop where
  informed : Informed cfg u
  agrees : ∀ t, Agrees cfg u (u.tasks t)
  steady : Steady cfg s u
  aims : ∀ t a, (u.tasks t).switching? = some a →
    goal s.forceOverride (s.views cfg) = some a.target.name
  moved : ∃ rs, Moved s u (goal s.forceOverride (s.views cfg)) rs

theorem Quiet.goal_step (h : Quiet cfg s u) (hstep : step cfg u e = some v) {a : SwitchArm}
    (ha : (v.tasks t).switching? = some a) :
    goal s.forceOverride (s.views cfg) = some a.target.name := by
  by_cases ht : e.task? = some t
  · cases e with
    | advance t' ok =>
      cases ht
      rcases advance_switching? hstep ha with hbefore | ⟨r, hr, -, hswitch⟩
      · exact h.aims t a hbefore
      · have hgoal := goal_of_switchesTo hswitch
        rw [← hgoal, ← h.steady.override, ← h.steady.views,
          ← (h.agrees t).forced _ (forcedRead?_of_reading? hr), ← (h.agrees t).views r hr]
        rfl
    | _ =>
      obtain ⟨-, h | h | ⟨name, h⟩ | h | h⟩ := step_begins hstep (by simp) ht
      all_goals
        rw [h] at ha
        cases ha
  · exact h.aims t a (step_tasks_of_ne hstep ht ▸ ha)

theorem switching?_of_move {now : DateTime} {target reason : String}
    (h : move u e = some (.switch now target reason)) :
    ∃ t a, (u.tasks t).switching? = some a ∧ a.target.name = target := by
  cases e with
  | advance t ok =>
    simp only [move] at h
    split at h
    · rename_i a hstate
      cases h
      exact ⟨t, a, by rw [hstate]; rfl, rfl⟩
    · cases h
    · cases h
  | _ => cases h

/-- **One step** adds no second move to the log. -/
theorem Quiet.moved_step (h : Quiet cfg s u) (hstep : step cfg u e = some v) :
    ∃ rs, Moved s v (goal s.forceOverride (s.views cfg)) rs := by
  obtain ⟨rs, hlog, honce⟩ := h.moved
  cases hmove : move u e with
  | none =>
    have hsame := (refines cfg).idle u e v h.informed hstep hmove
    have hactive : v.active = u.active := congrArg Controller.active hsame
    have hfailovers : v.failovers = u.failovers := congrArg Controller.log hsame
    exact ⟨rs, hfailovers.trans hlog, by rwa [hactive]⟩
  | some m =>
    have habove := (refines cfg).acts u e v m h.informed hstep hmove
    obtain ⟨r, hlog', hfrom, hto, -⟩ := Controller.step_spec habove
    have hfailovers : v.failovers = s.failovers ++ (rs ++ [r]) := by
      rw [← List.append_assoc, ← hlog]
      exact hlog'
    have hmoves : r.moves = true ↔ u.active ≠ v.active := by
      rw [FailoverRecord.moves, decide_eq_true_eq, hfrom, ← hto]
      rfl
    refine ⟨rs ++ [r], hfailovers, ?_⟩
    by_cases hmoved : r.moves = true
    · have hgoal : goal s.forceOverride (s.views cfg) = v.active := by
        cases m with
        | switch now target reason =>
          obtain ⟨t, a, ha, rfl⟩ := switching?_of_move hmove
          simp only [Controller.step] at habove
          split_ifs at habove
          exact (h.aims t a ha).trans (congrArg Controller.active (Option.some.inj habove))
        | reinstall now => exact absurd (Controller.active_of_reinstall habove).symm (hmoves.mp hmoved)
      obtain ⟨hfirst, hactive⟩ :=
        honce.resolve_right fun hdone => hmoves.mp hmoved (hdone.2.trans hgoal)
      exact Or.inr ⟨⟨r, by simp [hfirst, hmoved], hfrom.trans hactive⟩, hgoal.symm⟩
    · have hsame : u.active = v.active := not_not.mp fun hne => hmoved (hmoves.mpr hne)
      simpa [hmoved, ← hsame] using honce

theorem Quiet.step (h : Quiet cfg s u) (hstep : step cfg u e = some v) (hsteady : Steady cfg u v) :
    Quiet cfg s v where
  informed := h.informed.step hstep
  agrees := agrees_step hstep hsteady.undisturbed h.agrees
  steady := ⟨hsteady.views.trans h.steady.views, hsteady.override.trans h.steady.override⟩
  aims _ _ ha := h.goal_step hstep ha
  moved := h.moved_step hstep

/-- **Without news the daemon switches at most once**, and to the goal. -/
theorem switches_of_steady (hinit : Initial s₀) (hrun : Run (step cfg) s₀ hist s)
    (hcalm : Unhurried s) (hquiet : Run (step cfg) s es s')
    (hsteady : AllSteps (step cfg) (fun u _ v => Steady cfg u v) s es) :
    ∃ rs, Moved s s' (goal s.forceOverride (s.views cfg)) rs := by
  have hstart : Quiet cfg s s := by
    refine ⟨informed_of_run hinit hrun, fun t => Agrees.of_none (hcalm t).1, ⟨rfl, rfl⟩, ?_,
      [], by simp, Or.inl ⟨rfl, rfl⟩⟩
    intro t a ha
    rw [(hcalm t).2] at ha
    cases ha
  exact (hquiet.invariant (I := Quiet cfg s) (fun _ _ _ h hstep hC => h.step hstep hC)
    hsteady hstart).moved

/-- The better uplink has come up, and the pass that follows has read nothing yet. -/
def firstUp : List Event := [.probe "a" true none none]

/-- That pass and one of the operator's side by side, and another round with the same result. -/
def noNews : List Event :=
  [.clear 0] ++ turns (.control 0) 5 ++ turns (.healthLoop "a") 3 ++ turns (.control 0) 5 ++
    turns (.healthLoop "a") 6 ++ [.probe "a" true none none] ++ turns (.healthLoop "a") 9

theorem firstUp_enabled : (exec (step twoUplinks) coldStart firstUp).isSome := by decide

theorem noNews_enabled : (exec (step twoUplinks)
    ((exec (step twoUplinks) coldStart firstUp).get firstUp_enabled) noNews).isSome := by decide

instance (cfg : Config) (s s' : Sys) : Decidable (Steady cfg s s') :=
  decidable_of_iff (s'.views cfg = s.views cfg ∧ s'.forceOverride = s.forceOverride)
    ⟨fun h => ⟨h.1, h.2⟩, fun h => ⟨h.views, h.override⟩⟩

/-- The two passes switch once. -/
theorem switches_of_steady_noNews : ∃ s s' rs, Run (step twoUplinks) coldStart firstUp s ∧
    Run (step twoUplinks) s noNews s' ∧ s'.active = some "a" ∧
    Moved s s' (goal s.forceOverride (s.views twoUplinks)) rs := by
  have hs := run_get firstUp_enabled
  have hs' := run_get noNews_enabled
  have hcalm : Unhurried ((exec (step twoUplinks) coldStart firstUp).get firstUp_enabled) := by
    intro t
    by_cases ht : t = .healthLoop "a"
    · subst ht
      exact ⟨Run.of_all (P := fun s : Sys => (s.tasks (.healthLoop "a")).forcedRead? = none)
          (by decide) hs,
        Run.of_all (P := fun s : Sys => (s.tasks (.healthLoop "a")).switching? = none)
          (by decide) hs⟩
    · rw [tasks_of_run hs (by simp [firstUp, Event.task?, Ne.symm ht])]
      exact ⟨rfl, rfl⟩
  obtain ⟨rs, hrs⟩ := switches_of_steady coldStart_initial hs hcalm hs'
    (allSteps_of_check (c := fun u _ v => decide (Steady twoUplinks u v))
      (fun _ _ _ h => of_decide_eq_true h) (by decide))
  exact ⟨_, _, rs, hs, hs',
    Run.of_all (P := fun s : Sys => s.active = some "a") (by decide) hs', hrs⟩

end Vlb.Balancer
