import Mathlib.Data.List.Infix
import Vlb.Balancer.Exclusion
import Vlb.Balancer.Failback
import Vlb.Net.Defaults

/-!
# The route across a restart

A daemon that finds a default route of one of its providers at metric 0 takes it over, and waits for
that provider's own verdict before it decides anything about it.

* `adopted`: the provider whose route is taken over.
* `Calm`: no pass stands in an arm that acts, and what the passes have read does not let them.
* `DecidedBy`: the decision, earlier in the run, that a `Switch` arm carries out.
* **`continuous_of_adopts`**: before the verdict nothing happens; after it the provider is left
  for being down, or for one that has been up for the failback window.
-/

namespace Vlb.Balancer

open Time Selection Router Transition

variable {cfg : Config} {s s' s₀ : Sys} {t : TaskId} {e : Event} {es : List Event} {p : Provider}
  {r : Reading} {ok : Bool}

/-- The provider of the route that was found installed, as `Balancer::new` picks it. -/
def adopted (cfg : Config) (table : Table) : Option Provider :=
  match table.currentDefault with
  | some route =>
    if route.metricOrZero = 0 then cfg.providers.find? fun p => route.leadsTo p else none
  | none => none

/-- A daemon that has just started and has taken over the route of `p`; nothing is pinned. -/
structure Adopts (cfg : Config) (p : Provider) (s : Sys) : Prop where
  initial : Initial s
  route : adopted cfg s.kernel.table = some p
  active : s.active = some p.name
  activeAdopted : s.activeAdopted = true
  noPin : s.forceOverride = none

theorem mem_of_adopted {table : Table} (h : adopted cfg table = some p) : p ∈ cfg.providers := by
  unfold adopted at h
  split at h
  · split_ifs at h
    exact List.mem_of_find?_eq_some h
  · cases h

/-- The operator gives a command. -/
def Event.isCommand : Event → Bool
  | .force _ _ | .clear _ => true
  | _ => false

/-! ## Without commands -/

/-- Nothing is pinned, no pass has read a pin, and no command is under way. -/
structure Unpinned (s : Sys) : Prop where
  override : s.forceOverride = none
  read : ∀ t forced, (s.tasks t).forcedRead? = some forced → forced = none
  command : ∀ t, (s.tasks t).isCommand = false

theorem Unpinned.advance (h : Unpinned s) (hstep : advance cfg s t ok = some s') :
    s'.forceOverride = none ∧ (∀ forced, (s'.tasks t).forcedRead? = some forced → forced = none) ∧
      (s'.tasks t).isCommand = false := by
  have hcommand := h.command t
  refine ⟨?_, fun forced hforced => ?_, ?_⟩
  · rw [advance_forceOverride hstep, memoryWrite?_of_not_isCommand hcommand, Option.getD_none,
      h.override]
  · by_cases hpass : ∃ alwaysInstall point, s.tasks t = .passing alwaysInstall point
    · obtain ⟨alwaysInstall, point, hstate⟩ := hpass
      have hread := h.read t
      rw [hstate] at hread
      simp only [Balancer.advance, hstate] at hstep
      rcases passStep_reads hstep with hnone | ⟨-, hnext⟩ | ⟨forced', window, rfl, hnext⟩ |
        ⟨forced', now, failbackStable, rfl, hnext⟩
      · rw [hnone] at hforced
        cases hforced
      all_goals
        rw [hnext] at hforced
        cases hforced
      · exact h.override
      · exact hread _ rfl
      · exact hread _ rfl
    · simp only [not_exists] at hpass
      rw [advance_forcedRead? hstep hpass] at hforced
      cases hforced
  · obtain ⟨-, hpast⟩ | ⟨name, hs, -⟩ | ⟨name, hs, -⟩ | ⟨hs, -⟩ := advance_command hstep
    · exact hpast
    all_goals
      rw [hs] at hcommand
      cases hcommand

theorem Unpinned.step (h : Unpinned s) (hcommand : e.isCommand = false)
    (hstep : step cfg s e = some s') : Unpinned s' := by
  by_cases hadvance : ∃ t ok, e = .advance t ok
  · obtain ⟨t, ok, rfl⟩ := hadvance
    obtain ⟨hoverride, hread, hpast⟩ := h.advance hstep
    have hother : ∀ t' ≠ t, s'.tasks t' = s.tasks t' := (advance_frame hstep).others
    refine ⟨hoverride, fun t' forced hforced => ?_, fun t' => ?_⟩
    · by_cases ht : t' = t
      · exact hread forced (ht ▸ hforced)
      · exact h.read t' forced (hother t' ht ▸ hforced)
    · by_cases ht : t' = t
      · exact ht ▸ hpast
      · exact hother t' ht ▸ h.command t'
  · have hne : ∀ t ok, e ≠ .advance t ok := fun t ok he => hadvance ⟨t, ok, he⟩
    have hbegins : ∀ t, e.task? = some t →
        (s'.tasks t).forcedRead? = none ∧ (s'.tasks t).isCommand = false := by
      intro t ht
      cases e with
      | force | clear => cases hcommand
      | advance => exact absurd rfl (hne _ _)
      | tick | external | packet | track | expire => cases ht
      | probe =>
        simp only [Balancer.step] at hstep
        split_ifs at hstep
        cases hstep
        cases ht
        simp only [applyProbe, goto_tasks_self]
        split_ifs <;> exact ⟨rfl, rfl⟩
      | watch =>
        simp only [Balancer.step] at hstep
        split_ifs at hstep
        cases hstep
        cases ht
        simp [TaskState.forcedRead?, TaskState.isCommand]
    refine ⟨(step_pins hstep hne).1.trans h.override, fun t forced hforced => ?_, fun t => ?_⟩
    · by_cases ht : e.task? = some t
      · rw [(hbegins t ht).1] at hforced
        cases hforced
      · exact h.read t forced (step_tasks_of_ne hstep ht ▸ hforced)
    · by_cases ht : e.task? = some t
      · exact (hbegins t ht).2
      · exact step_tasks_of_ne hstep ht ▸ h.command t

/-! ## Before the verdict -/

/-- The points of a pass from which it acts, or has acted. -/
def PassPoint.acts : PassPoint → Bool
  | .readForced | .readClock _ | .readViews _ _ _ | .lockActive _ | .unlock => false
  | _ => true

/-- The task is a pass that stands in an arm that acts. -/
def TaskState.acts : TaskState → Bool
  | .passing _ point => point.acts
  | _ => false

/-- No pass acts, and none has read anything but that `p` is unknown. -/
structure Calm (p : Provider) (s : Sys) : Prop where
  active : s.active = some p.name
  acts : ∀ t, (s.tasks t).acts = false
  read : ∀ t r, (s.tasks t).reading? = some r →
    HasState r.views p.name .unknown ∧ (r.views.map ProviderView.name).Nodup

theorem unknown_of_step (hstep : step cfg s e = some s') {name : String}
    (h : (s'.health name).state = .unknown) : (s.health name).state = .unknown := by
  rcases step_health hstep with hsame | ⟨name', success, latencyMs, failure, -, -, rfl⟩
  · rwa [← hsame]
  · by_cases hname : name = name'
    · subst hname
      simp only [applyProbe, Function.update_self] at h
      rcases (s.health name).applyProbeResult_cases cfg.health _ with
        ⟨-, hstate, -⟩ | ⟨-, hstate, -⟩ | ⟨-, -, hstate, -⟩
      · rw [hstate] at h
        cases h
      · rw [hstate] at h
        cases h
      · exact hstate.symm.trans h
    · simpa [applyProbe, hname] using h

theorem decide_of_unknown (hnames : (r.views.map ProviderView.name).Nodup)
    (hforced : r.forced = none) (hunknown : HasState r.views p.name .unknown) :
    (r.input (some p.name)).decide = .noHealthyProvider ∨
      ∃ best, (r.input (some p.name)).decide = .waitingForVerdict p.name best := by
  cases hbest : bestHealthy r.views with
  | none => exact Or.inl (decide_eq_noHealthyProvider_iff.mpr (bestHealthy_eq_none_iff.mp hbest))
  | some best =>
    have hne := hunknown.name_ne hnames hbest (by simp)
    have hpin : (r.input (some p.name)).forced = none := hforced
    exact Or.inr ⟨_, ((decide_routed hpin rfl hne hbest).2 hnames).2.1 hunknown⟩

theorem arm_of_unknown (hnames : (r.views.map ProviderView.name).Nodup) (hforced : r.forced = none)
    (hunknown : HasState r.views p.name .unknown) : arm cfg r (some p.name) = .unlock := by
  rcases decide_of_unknown hnames hforced hunknown with h | ⟨best, h⟩ <;> simp [arm, h]

theorem Calm.passStep (h : Calm p s) (hunpinned : Unpinned s) (hacc : cfg.Accepted)
    (hp : p ∈ cfg.providers) (hunknown : (s.health p.name).state = .unknown)
    {alwaysInstall : Bool} {point : PassPoint}
    (hstate : s.tasks t = .passing alwaysInstall point)
    (hstep : passStep cfg s t alwaysInstall ok point = some s') :
    s'.active = s.active ∧ (s'.tasks t).acts = false ∧ ∀ r, (s'.tasks t).reading? = some r →
      HasState r.views p.name .unknown ∧ (r.views.map ProviderView.name).Nodup := by
  have hacts := h.acts t
  rw [hstate] at hacts
  cases point with
  | readForced | unlock =>
    cases hstep
    exact ⟨rfl, by simp [TaskState.acts, PassPoint.acts], by simp [TaskState.reading?]⟩
  | readClock forced =>
    simp only [Balancer.passStep] at hstep
    split at hstep
    all_goals
      cases hstep
      exact ⟨rfl, by simp [TaskState.acts, PassPoint.acts], by simp [TaskState.reading?]⟩
  | readViews forced now failbackStable =>
    cases hstep
    refine ⟨rfl, by simp [TaskState.acts, PassPoint.acts], fun r hr => ?_⟩
    simp only [goto_tasks_self, TaskState.reading?, Option.some.injEq] at hr
    subst hr
    refine ⟨⟨_, List.mem_map_of_mem hp, rfl, hunknown⟩, ?_⟩
    rw [views_names]
    exact Config.names_nodup hacc
  | lockActive r =>
    have hreading : (s.tasks t).reading? = some r := by rw [hstate]; rfl
    obtain ⟨hseen, hnames⟩ := h.read t r hreading
    have hforced : r.forced = none := hunpinned.read t _ (forcedRead?_of_reading? hreading)
    simp only [Balancer.passStep] at hstep
    split_ifs at hstep
    cases hstep
    simp only [goto_tasks_self, h.active, arm_of_unknown hnames hforced hseen]
    exact ⟨h.active, rfl, by simp [TaskState.reading?]⟩
  | _ => cases hacts

theorem advance_active (h : advance cfg s t ok = some s')
    (hpass : ∀ alwaysInstall point, s.tasks t ≠ .passing alwaysInstall point) :
    s'.active = s.active ∧ (s'.tasks t).acts = false ∧ (s'.tasks t).reading? = none := by
  rcases advance_cases h with ⟨name, p, -, -, -, rfl⟩ | ⟨_, point, hstate, -⟩ | ⟨point, -, h⟩ |
    ⟨name, point, -, rfl⟩ | ⟨point, -, rfl⟩
  · exact ⟨rfl, by simp [TaskState.acts, PassPoint.acts], by simp [TaskState.reading?]⟩
  · exact absurd hstate (hpass _ _)
  · refine ⟨(watchStep_writes h).1, ?_⟩
    rcases watchStep_next h with ⟨next, h⟩ | h <;> rw [h] <;> exact ⟨rfl, rfl⟩
  · refine ⟨by cases point <;> rfl, ?_⟩
    rcases forceStep_next rfl with ⟨next, h⟩ | h | h <;> rw [h] <;> exact ⟨rfl, rfl⟩
  · refine ⟨by cases point <;> rfl, ?_⟩
    rcases clearStep_next rfl with ⟨next, h⟩ | h <;> rw [h] <;> exact ⟨rfl, rfl⟩

/-- **One step** before the verdict. -/
theorem Calm.step (h : Calm p s) (hunpinned : Unpinned s) (hacc : cfg.Accepted)
    (hp : p ∈ cfg.providers) (hunknown : (s.health p.name).state = .unknown)
    (hstep : step cfg s e = some s') : Calm p s' := by
  -- what the step makes of `active` and of its own task
  have hown : s'.active = s.active ∧ ∀ t, e.task? = some t → (s'.tasks t).acts = false ∧
      ∀ r, (s'.tasks t).reading? = some r →
        HasState r.views p.name .unknown ∧ (r.views.map ProviderView.name).Nodup := by
    by_cases hadvance : ∃ t ok, e = .advance t ok
    · obtain ⟨t, ok, rfl⟩ := hadvance
      by_cases hpass : ∃ alwaysInstall point, s.tasks t = .passing alwaysInstall point
      · obtain ⟨alwaysInstall, point, hstate⟩ := hpass
        simp only [Balancer.step, Balancer.advance, hstate] at hstep
        obtain ⟨hactive, hacts, hread⟩ := h.passStep hunpinned hacc hp hunknown hstate hstep
        refine ⟨hactive, fun t' ht' => ?_⟩
        cases ht'
        exact ⟨hacts, hread⟩
      · simp only [not_exists] at hpass
        obtain ⟨hactive, hacts, hread⟩ := advance_active hstep hpass
        refine ⟨hactive, fun t' ht' => ?_⟩
        cases ht'
        exact ⟨hacts, by simp [hread]⟩
    · have hne : ∀ t ok, e ≠ .advance t ok := fun t ok he => hadvance ⟨t, ok, he⟩
      refine ⟨(guarded_of_ne hstep hne).active, fun t ht => ?_⟩
      obtain ⟨-, h | h | ⟨name, h⟩ | h | h⟩ := step_begins hstep hne ht <;> rw [h] <;>
        exact ⟨rfl, by simp [TaskState.reading?]⟩
  refine ⟨hown.1.trans h.active, fun t => ?_, fun t r hr => ?_⟩
  · by_cases ht : e.task? = some t
    · exact (hown.2 t ht).1
    · exact step_tasks_of_ne hstep ht ▸ h.acts t
  · by_cases ht : e.task? = some t
    · exact (hown.2 t ht).2 r hr
    · exact h.read t r (step_tasks_of_ne hstep ht ▸ hr)

/-- **Before the verdict**, in every run without commands. -/
theorem calm_of_run (hacc : cfg.Accepted) (hadopts : Adopts cfg p s₀)
    (hrun : Run (step cfg) s₀ es s) (hcommands : ∀ e ∈ es, e.isCommand = false) :
    Unpinned s ∧ ((s.health p.name).state = .unknown → Calm p s) := by
  have hp := mem_of_adopted hadopts.route
  refine hrun.invariant (I := fun s => Unpinned s ∧ ((s.health p.name).state = .unknown → Calm p s))
    (C := fun _ e _ => e.isCommand = false) ?_ ?_
    ⟨⟨hadopts.noPin, ?_, ?_⟩, fun _ => ⟨hadopts.active, ?_, ?_⟩⟩
  · rintro u e v ⟨hunpinned, hcalm⟩ hstep hcommand
    refine ⟨hunpinned.step hcommand hstep, fun hunknown => ?_⟩
    have hbefore := unknown_of_step hstep hunknown
    exact (hcalm hbefore).step hunpinned hacc hp hbefore hstep
  · intro pre e post u v he _ _
    exact hcommands e (by simp [he])
  all_goals
    intro t
    rw [hadopts.initial.tasks]
  · simp [TaskState.forcedRead?]
  · rfl
  · rfl
  · simp [TaskState.reading?]

/-! ## After the verdict -/

/-- The switch that a pass is carrying out. -/
def TaskState.switching? : TaskState → Option SwitchArm
  | .passing _ (.switchRead a) => some a
  | .passing _ (.switchRepin a _) => some a
  | .passing _ (.switchInstall a _) => some a
  | .passing _ (.switchFlush a) => some a
  | .passing _ (.switchCommit a) => some a
  | _ => none

/-- The switch was decided on, in the state `u` after `hist ++ .advance t ok :: wait`, by a pass that
had read `r` after `hist`. -/
structure DecidedBy (cfg : Config) (s₀ : Sys) (es : List Event) (t : TaskId) (a : SwitchArm)
    (hist wait : List Event) (r : Reading) (u : Sys) : Prop where
  decides : Decides cfg s₀ hist t wait r u
  earlier : ∃ ok ok' rest, es = (hist ++ .advance t ok :: wait) ++ .advance t ok' :: rest ∧
    Run (step cfg) s₀ (hist ++ .advance t ok :: wait) u
  current : u.active = a.current
  switch : SwitchesTo (r.input u.active).decide a.target.name

theorem arm_switching? {alwaysInstall : Bool} {current : Option String} {a : SwitchArm}
    (h : (TaskState.passing alwaysInstall (arm cfg r current)).switching? = some a) :
    current = a.current ∧ SwitchesTo (r.input current).decide a.target.name := by
  unfold arm at h
  split at h
  · cases h
  · rename_i target reason hdecide
    split at h
    · cases h
    · rename_i q hq
      cases h
      exact ⟨rfl, reason, by rw [hdecide, (Config.mem_of_provider? hq).2]⟩
  · cases h

theorem advance_switching? {a : SwitchArm} (h : advance cfg s t ok = some s')
    (ha : (s'.tasks t).switching? = some a) :
    (s.tasks t).switching? = some a ∨ ∃ r, (s.tasks t).reading? = some r ∧
      s.active = a.current ∧ SwitchesTo (r.input s.active).decide a.target.name := by
  rcases advance_cases h with ⟨name, p, -, -, -, rfl⟩ | ⟨_, point, hstate, h⟩ | ⟨point, -, h⟩ |
    ⟨name, point, -, h⟩ | ⟨point, -, h⟩
  · simp [TaskState.switching?] at ha
  · rw [hstate]
    cases point with
    | lockActive r =>
      simp only [passStep] at h
      split_ifs at h
      cases h
      simp only [goto_tasks_self] at ha
      exact Or.inr ⟨r, rfl, arm_switching? ha⟩
    | keepRead cur =>
      cases cur <;> cases h <;> rw [goto_tasks_self] at ha <;> cases ha
    | _ =>
      simp only [passStep] at h
      repeat' split at h
      all_goals
        cases h
      all_goals
        rw [goto_tasks_self] at ha
        cases ha
      all_goals exact Or.inl rfl
  · rcases watchStep_next h with ⟨next, h⟩ | h <;> rw [h] at ha <;> cases ha
  · rcases forceStep_next h with ⟨next, h⟩ | h | h <;> rw [h] at ha <;> cases ha
  · rcases clearStep_next h with ⟨next, h⟩ | h <;> rw [h] at ha <;> cases ha

/-- **Every switch has been decided on**, with the active provider as the pass found it. -/
theorem exists_decidedBy (hinit : Initial s₀) (hrun : Run (step cfg) s₀ es s) {a : SwitchArm}
    (ha : (s.tasks t).switching? = some a) :
    ∃ hist wait r u, DecidedBy cfg s₀ es t a hist wait r u := by
  induction hrun with
  | nil =>
    rw [hinit.tasks] at ha
    cases ha
  | @concat es s e s' hrun hstep ih =>
    have hgoes : (s.tasks t).switching? = some a →
        ∃ hist wait r u, DecidedBy cfg s₀ (es ++ [e]) t a hist wait r u := by
      intro hbefore
      obtain ⟨hist, wait, r, u, hd, ⟨ok, ok', rest, rfl, hu⟩, hcurrent, hswitch⟩ := ih hbefore
      exact ⟨hist, wait, r, u, hd, ⟨ok, ok', rest ++ [e], by simp, hu⟩, hcurrent, hswitch⟩
    by_cases ht : e.task? = some t
    · cases e with
      | advance t' ok =>
        cases ht
        rcases advance_switching? hstep ha with hbefore | ⟨r, hr, hcurrent, hswitch⟩
        · exact hgoes hbefore
        · obtain ⟨hist, wait, hd, ok', rfl⟩ := exists_decides hinit hrun hr
          exact ⟨hist, wait, r, s, hd, ⟨ok', ok, [], rfl, hrun⟩, hcurrent, hswitch⟩
      | _ =>
        obtain ⟨-, h | h | ⟨name, h⟩ | h | h⟩ := step_begins hstep (by simp) ht
        all_goals
          rw [h] at ha
          cases ha
    · exact hgoes (step_tasks_of_ne hstep ht ▸ ha)

/-- A pass that decides, and finds both the active provider and a better one up, does so on a window
that chrono can hold. -/
def InLimit (s : Sys) (e : Event) : Prop :=
  ∀ r, e.deciding? s = some r → ∀ cur best, s.active = some cur → HasState r.views cur .up →
    bestHealthy r.views = some best → cur ≠ best.name → r.failbackStable.nanos ≤ TimeDelta.max

/-- What a restart owes to the provider whose route was taken over. -/
structure Continuous (cfg : Config) (p : Provider) (s₀ : Sys) (es : List Event) (s : Sys) :
    Prop where
  before : (s.health p.name).state = .unknown →
    s.active = some p.name ∧ ∀ t, (s.tasks t).acts = false
  atOnce : ∀ t r, (s.tasks t).reading? = some r → s.active = some p.name →
    HasState r.views p.name .down → (∃ v ∈ r.views, v.state = .up) →
      (r.input s.active).decide.isSwitch = true
  leaves : ∀ t a, (s.tasks t).switching? = some a → a.current = some p.name →
    ∃ hist wait r u, DecidedBy cfg s₀ es t a hist wait r u ∧
      (HasState r.views p.name .down ∨ HasState r.views p.name .up ∧
        ∀ m, r.now.nanos - r.failbackStable.nanos ≤ m → m ≤ r.now.nanos →
          UpAt cfg s₀ hist a.target.name m)

theorem decide_isSwitch_of_down (hnames : (r.views.map ProviderView.name).Nodup)
    (hforced : r.forced = none) (hdown : HasState r.views p.name .down)
    (hup : ∃ v ∈ r.views, v.state = .up) :
    (r.input (some p.name)).decide.isSwitch = true := by
  obtain ⟨best, hbest⟩ := Option.ne_none_iff_exists'.mp fun hnone => by
    obtain ⟨v, hv, hstate⟩ := hup
    exact bestHealthy_eq_none_iff.mp hnone v hv hstate
  have hne := hdown.name_ne hnames hbest (by simp)
  have hpin : (r.input (some p.name)).forced = none := hforced
  obtain ⟨reason, h⟩ := ((decide_routed hpin rfl hne hbest).2 hnames).1 hdown
  rw [h]
  rfl

theorem exists_best_of_leaves (hforced : r.forced = none) {cur target : String}
    (hactive : s.active = some cur) (hswitch : SwitchesTo (r.input s.active).decide target) :
    ∃ best, bestHealthy r.views = some best ∧ cur ≠ best.name := by
  obtain ⟨reason, hswitch⟩ := hswitch
  cases hbest : bestHealthy r.views with
  | none =>
    rw [decide_eq_noHealthyProvider_iff.mpr (bestHealthy_eq_none_iff.mp hbest)] at hswitch
    cases hswitch
  | some best =>
    refine ⟨best, rfl, fun heq => ?_⟩
    simp [SelectionInput.decide, Reading.input, hforced, hactive, hbest, heq] at hswitch

/-- **The route across a restart**, in every run without commands whose failback windows chrono can
hold. -/
theorem continuous_of_adopts (hacc : cfg.Accepted) (hadopts : Adopts cfg p s₀)
    (hrun : Run (step cfg) s₀ es s) (hcommands : ∀ e ∈ es, e.isCommand = false)
    (hlimit : AllSteps (step cfg) (fun u e _ => InLimit u e) s₀ es) :
    Continuous cfg p s₀ es s := by
  obtain ⟨hunpinned, hcalm⟩ := calm_of_run hacc hadopts hrun hcommands
  have hinit := hadopts.initial
  have hp := mem_of_adopted hadopts.route
  refine ⟨fun hunknown => ⟨(hcalm hunknown).active, (hcalm hunknown).acts⟩, ?_, ?_⟩
  · intro t r hr hactive hdown hup
    obtain ⟨hist, wait, hd, -⟩ := exists_decides hinit hrun hr
    obtain ⟨u, _, -, -, hviews⟩ := hd.reads
    have hnames : (r.views.map ProviderView.name).Nodup := by
      rw [hviews, views_names]
      exact Config.names_nodup hacc
    rw [hactive]
    exact decide_isSwitch_of_down hnames (hunpinned.read t _ (forcedRead?_of_reading? hr)) hdown hup
  · intro t a ha hcurrent
    obtain ⟨hist, wait, r, u, hdecided⟩ := exists_decidedBy hinit hrun ha
    refine ⟨hist, wait, r, u, hdecided, ?_⟩
    obtain ⟨hd, ⟨ok, ok', rest, rfl, hu⟩, hactive, hswitch⟩ := hdecided
    obtain ⟨v, _, -, -, hviews⟩ := hd.reads
    have hactive' : u.active = some p.name := hactive.trans hcurrent
    have hforced : r.forced = none :=
      (calm_of_run hacc hadopts hu fun e he => hcommands e (List.mem_append_left _ he)).1.read t _
        (forcedRead?_of_reading? hd.reading?)
    have hnames : (r.views.map ProviderView.name).Nodup := by
      rw [hviews, views_names]
      exact Config.names_nodup hacc
    have hlisted : HasState r.views p.name (v.health p.name).state := by
      rw [hviews]
      exact ⟨_, List.mem_map_of_mem hp, rfl, rfl⟩
    cases hstate : (v.health p.name).state with
    | down => exact Or.inl (hstate ▸ hlisted)
    | unknown =>
      rw [hactive'] at hswitch
      obtain ⟨reason, hswitch⟩ := hswitch
      rcases decide_of_unknown hnames hforced (hstate ▸ hlisted) with h | ⟨best, h⟩ <;>
        rw [h] at hswitch <;> cases hswitch
    | up =>
      have hup : HasState r.views p.name .up := hstate ▸ hlisted
      obtain ⟨u', hu', hafter⟩ := run_append_iff.mp hrun
      obtain rfl := hu'.unique hu
      obtain ⟨w, hstep, -⟩ := run_cons_iff.mp hafter
      obtain ⟨best, hbest, hne⟩ := exists_best_of_leaves hforced hactive' hswitch
      have hwindow := hlimit _ _ rest u' w rfl hu hstep r hd.reading? _ best hactive' hup hbest hne
      exact Or.inr ⟨hup, fun m hm _ =>
        upAt_of_leaves hacc hinit hd hforced hactive' hup hswitch hwindow m hm⟩

/-! ## Two restarts of the small gateway -/

/-- A daemon that has found the route of `p` installed, and has taken it over. -/
def warmStart (p : Provider) : Sys :=
  { coldStart with
    active := some p.name
    activeAdopted := true
    kernel := { coldStart.kernel with
      table := { routes := [ownRoute p.gateway p.interface], ownsBootstrap := false } } }

/-- The backup comes up first, and its pass waits for the verdict on `a`. -/
def backupFirst : List Event := [.probe "b" true none none] ++ turns (.healthLoop "b") 5

theorem backupFirst_enabled :
    (exec (step twoUplinks) (warmStart uplinkA) backupFirst).isSome := by
  decide

theorem inLimit_of_check (h : (e.deciding? s).all
    (fun r => decide (r.failbackStable.nanos ≤ TimeDelta.max)) = true) : InLimit s e := by
  intro r hr _ _ _ _ _ _
  simpa [hr] using h

theorem adopts_warmStart : Adopts twoUplinks uplinkA (warmStart uplinkA) :=
  ⟨⟨rfl, rfl, rfl, rfl⟩, by decide, rfl, rfl, rfl⟩

theorem continuous_of_adopts_backupFirst :
    Continuous twoUplinks uplinkA (warmStart uplinkA) backupFirst
      ((exec (step twoUplinks) (warmStart uplinkA) backupFirst).get backupFirst_enabled) :=
  continuous_of_adopts (by decide) adopts_warmStart (run_get backupFirst_enabled) (by decide)
    (allSteps_of_check (c := fun s e _ => (e.deciding? s).all
      (fun r => decide (r.failbackStable.nanos ≤ TimeDelta.max)))
      (fun _ _ _ h => inLimit_of_check h) (by decide))

/-- The second uplink. -/
def uplinkB : Provider := twoUplinks.providers.getLast (List.cons_ne_nil _ _)

/-- `b`, whose route was taken over, comes up, and then `a`; the pass of `a` decides. -/
def comebackAfterRestart : List Event :=
  [.probe "b" true none none] ++ turns (.healthLoop "b") 9 ++
    [.probe "a" true none none] ++ turns (.healthLoop "a") 4

theorem comebackAfterRestart_enabled :
    (exec (step endlessWindow) (warmStart uplinkB) comebackAfterRestart).isSome := by
  decide

/-- The clock and the failback window that a pass has read. -/
def TaskState.window? : TaskState → Option (DateTime × Duration)
  | .passing _ (.readViews _ now failbackStable) => some (now, failbackStable)
  | _ => none

/-- Throughout the run `b` is not down, and the pass of `a` reads the endless window. -/
theorem comebackAfterRestart_reads {pre : List Event} {v : Sys} (hpre : pre <+: comebackAfterRestart)
    (hv : Run (step endlessWindow) (warmStart uplinkB) pre v) :
    (v.health "b").state ≠ .down ∧ ∀ x, (v.tasks (.healthLoop "a")).window? = some x →
      x = (DateTime.epoch, Duration.fromSecs 10000000000000000) := by
  have hall : ∀ pre ∈ comebackAfterRestart.inits,
      (exec (step endlessWindow) (warmStart uplinkB) pre).all (fun v => decide
        ((v.health "b").state ≠ .down ∧ ∀ x ∈ (v.tasks (.healthLoop "a")).window?,
          x = (DateTime.epoch, Duration.fromSecs 10000000000000000))) = true := by
    decide
  exact Run.of_all (P := fun v : Sys => (v.health "b").state ≠ .down ∧
    ∀ x ∈ (v.tasks (.healthLoop "a")).window?,
      x = (DateTime.epoch, Duration.fromSecs 10000000000000000))
    (hall pre ((List.mem_inits _ _).mpr hpre)) hv

/-- The endless window collapses, and the provider whose route was taken over is left at once. -/
theorem not_continuous : ¬ ∀ (cfg : Config) (p : Provider) (s₀ s : Sys) (es : List Event),
    cfg.Accepted → Adopts cfg p s₀ → ClockForward cfg s₀ es → Run (step cfg) s₀ es s →
      (∀ e ∈ es, e.isCommand = false) → Continuous cfg p s₀ es s := by
  intro hall
  have hclock : ClockForward endlessWindow (warmStart uplinkB) comebackAfterRestart :=
    allSteps_of_check (fun _ _ _ => of_decide_eq_true) (by decide)
  have hrun := run_get comebackAfterRestart_enabled
  have hcontinuous := hall endlessWindow uplinkB (warmStart uplinkB) _ comebackAfterRestart
    (by decide) ⟨⟨rfl, rfl, rfl, rfl⟩, by decide, rfl, rfl, rfl⟩ hclock hrun (by decide)
  obtain ⟨a, ha⟩ := Option.isSome_iff_exists.mp (Run.of_all
    (P := fun s : Sys => (s.tasks (.healthLoop "a")).switching?.isSome = true) (by decide) hrun)
  have hcurrent : a.current = some "b" := by
    have hchecked := Run.of_all (P := fun s : Sys => ∀ a ∈ (s.tasks (.healthLoop "a")).switching?,
      a.current = some "b") (by decide) hrun
    exact hchecked a ha
  obtain ⟨hist, wait, r, u, hdecided, hleft⟩ := hcontinuous.leaves _ a ha hcurrent
  obtain ⟨v, _, hv, hstate, hviews⟩ := hdecided.decides.reads
  obtain ⟨ok, ok', rest, hes, -⟩ := hdecided.earlier
  have hpre : hist <+: comebackAfterRestart := ⟨_, by rw [hes, List.append_assoc]⟩
  obtain ⟨hnotDown, hwindow⟩ := comebackAfterRestart_reads hpre hv
  obtain ⟨hnow, hendless⟩ := Prod.mk.inj (hwindow (r.now, r.failbackStable) (by rw [hstate]; rfl))
  rcases hleft with ⟨w, hw, hname, hdown⟩ | ⟨-, hat⟩
  · rw [hviews] at hw
    obtain ⟨q, -, rfl⟩ := List.mem_map.mp hw
    simp only at hname hdown
    rw [hname] at hdown
    exact hnotDown hdown
  · -- before the daemon started no state is in force
    obtain ⟨w, hw, -⟩ := hat _ le_rfl (by omega)
    rw [inForce, stateAt_eq_none (AllSteps.restrict hclock hpre) hv] at hw
    · cases hw
    · rw [hnow, hendless]
      decide

end Vlb.Balancer
