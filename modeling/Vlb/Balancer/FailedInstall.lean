import Mathlib.Data.List.Infix
import Vlb.Balancer.Exclusion
import Vlb.Balancer.Override

/-!
# A pass whose install fails

`set_default_route` fails in the middle of a pass, which ends there. What the pass has done to the
chain and to `active_adopted` by then stays done.

* `InstallsRoute`: a pass is about to install the route.
* `Consistent`: what the pass should leave behind.
* `Midway`: where the chain and the flag stand at each point of a pass.
* **`consistent_iff`**: the pass leaves that behind exactly when it did not lose the assertion of an
  adopted route, and did not aim the chain away from the active provider.
-/

namespace Vlb.Balancer

open Transition

variable {cfg : Config} {s s₀ u v w x : Sys} {t : TaskId} {e : Event} {es hist : List Event}
  {r : Reading} {alwaysInstall ok : Bool}

/-- The stamp of a provider, under the mask. -/
def stampOf (cfg : Config) (p : Provider) : BitVec 32 := (cfg.markFor p).toBitVec &&& Pin.mask cfg

/-- The stamp that a new connection gets from the chain. -/
def chainStamp (cfg : Config) (chain : List (Netfilter.Rule 32)) : BitVec 32 :=
  (Netfilter.traverse .original chain ⟨0, 0⟩).connection &&& Pin.mask cfg

/-- The stamp of the active provider; none is zero. -/
def activeStamp (cfg : Config) (s : Sys) : BitVec 32 :=
  ((s.active.bind cfg.provider?).map (stampOf cfg)).getD 0

/-- New connections get the stamp of the provider that `active` names. -/
def Aligned (cfg : Config) (s : Sys) : Prop :=
  chainStamp cfg s.kernel.chain = activeStamp cfg s

instance (cfg : Config) (s : Sys) : Decidable (Aligned cfg s) := inferInstanceAs (Decidable (_ = _))

/-- The provider that a pass is about to aim the chain at. -/
def TaskState.repins? : TaskState → Option Provider
  | .passing _ (.keepRepin k) => some k.cur
  | .passing _ (.switchRepin a _) => some a.target
  | _ => none

/-- The step in which a pass of `t` rewrites the chain. -/
def Rewrites (cfg : Config) (t : TaskId) (s : Sys) (e : Event) (_ : Sys) : Prop :=
  cfg.routing.pinConnections = true ∧ cfg.lanInterface.isSome = true ∧ e = .advance t true ∧
    (s.tasks t).repins?.isSome

/-- The pass is about to look after the route that was adopted. -/
def TaskState.verifies : TaskState → Bool
  | .passing _ (.keepVerify _) => true
  | _ => false

/-- The pass is about to assert the route that the operator asked for. -/
def TaskState.asserts : TaskState → Bool
  | .passing alwaysInstall (.keepAssert _) => alwaysInstall
  | _ => false

/-- The provider whose route the pass is about to install. -/
def TaskState.target? : TaskState → Option Provider
  | .passing _ (.switchInstall a _) => some a.target
  | _ => none

/-- The next step of `t` is an install of its pass. -/
def InstallsRoute (s : Sys) (t : TaskId) : Prop :=
  (s.tasks t).verifies = true ∧ s.activeAdopted = true ∨ (s.tasks t).asserts = true ∨
    (s.tasks t).target?.isSome = true

instance (s : Sys) (t : TaskId) : Decidable (InstallsRoute s t) :=
  inferInstanceAs (Decidable (_ ∨ _))

/-- The step in which a pass of `t` asserts the adopted route. -/
def Asserts (t : TaskId) (s : Sys) (e : Event) (_ : Sys) : Prop :=
  e = .advance t true ∧ (s.tasks t).verifies = true ∧ s.activeAdopted = true

/-- The task keeps `active` along the whole run. -/
def KeepsLock (cfg : Config) (t : TaskId) (s : Sys) (es : List Event) : Prop :=
  ∀ pre u, pre <+: es → Run (step cfg) s pre u → u.activeOwner = some t

/-- What a pass that took the lock in `s` should leave in `x`, when an install of it fails. -/
structure Consistent (cfg : Config) (t : TaskId) (s : Sys) (es : List Event) (x : Sys) : Prop where
  aligned : cfg.routing.pinConnections = true → Aligned cfg x
  active : x.active = s.active
  failovers : x.failovers = s.failovers
  flap : AllSteps (step cfg) (fun u e v => e.task? = some t → v.flap = u.flap) s es
  adopted : s.activeAdopted = true → ¬ SomeStep (step cfg) (Asserts t) s es →
    x.activeAdopted = true

/-- The condition at the install that fails, in `w`: it is not the assertion of the adopted route;
in the `Keep` arm the chain was rewritten, or was right before; in the `Switch` arm it was not
rewritten and was right before, or the two providers have one stamp. -/
structure StaysRight (cfg : Config) (t : TaskId) (s : Sys) (es : List Event) (w : Sys) : Prop where
  verify : (w.tasks t).verifies = false
  keep : cfg.routing.pinConnections = true → (w.tasks t).asserts = true →
    SomeStep (step cfg) (Rewrites cfg t) s es ∨ Aligned cfg s
  switch : cfg.routing.pinConnections = true → ∀ p, (w.tasks t).target? = some p →
    (¬ SomeStep (step cfg) (Rewrites cfg t) s es ∧ Aligned cfg s) ∨
      SomeStep (step cfg) (Rewrites cfg t) s es ∧ stampOf cfg p = activeStamp cfg s

/-! ## Along the pass -/

/-- The chain is the one for `p` if the pass has rewritten it, and as it was otherwise. -/
def Aimed (cfg : Config) (rewrote : Prop) (s v : Sys) (p : Provider) : Prop :=
  rewrote ∧ v.kernel.chain = Pin.rules cfg (cfg.markFor p) ∨
    ¬ rewrote ∧ v.kernel.chain = s.kernel.chain

/-- Where a pass stands that took the lock in `s`, up to its installs. -/
def Midway (cfg : Config) (rewrote asserted : Prop) (s v : Sys) : TaskState → Prop
  | .passing _ (.keepRead cur) =>
    ¬ rewrote ∧ ¬ asserted ∧ Guarded s v ∧ cur = s.active.bind cfg.provider?
  | .passing _ (.keepRepin k) =>
    ¬ rewrote ∧ ¬ asserted ∧ Guarded s v ∧ s.active.bind cfg.provider? = some k.cur
  | .passing _ (.keepVerify k) =>
    Aimed cfg rewrote s v k.cur ∧ ¬ asserted ∧ v.active = s.active ∧ v.failovers = s.failovers ∧
      v.activeAdopted = s.activeAdopted ∧ s.active.bind cfg.provider? = some k.cur
  | .passing _ (.keepAssert k) =>
    Aimed cfg rewrote s v k.cur ∧ (s.activeAdopted = true → asserted) ∧ v.active = s.active ∧
      v.failovers = s.failovers ∧ s.active.bind cfg.provider? = some k.cur
  | .passing _ (.switchRead _) | .passing _ (.switchRepin _ _) => ¬ rewrote ∧ Guarded s v
  | .passing _ (.switchInstall a _) =>
    Aimed cfg rewrote s v a.target ∧ v.active = s.active ∧ v.failovers = s.failovers ∧
      v.activeAdopted = s.activeAdopted
  | .passing _ (.recordSwitch _) => False
  | _ => True

theorem midway_arm (hguard : Guarded s v) :
    Midway cfg False False s v (.passing alwaysInstall (arm cfg r s.active)) := by
  unfold arm
  split
  · exact ⟨not_false, not_false, hguard, rfl⟩
  · split
    · trivial
    · exact ⟨not_false, hguard⟩
  · trivial

theorem Midway.of_guarded {rewrote asserted : Prop} {state : TaskState} (hguard : Guarded v w)
    (h : Midway cfg rewrote asserted s v state) : Midway cfg rewrote asserted s w state := by
  obtain ⟨hchain, hactive, hadopted, hfailovers⟩ := hguard
  unfold Midway at h ⊢
  split at h
  · exact ⟨h.1, h.2.1, h.2.2.1.trans ⟨hchain, hactive, hadopted, hfailovers⟩, h.2.2.2⟩
  · exact ⟨h.1, h.2.1, h.2.2.1.trans ⟨hchain, hactive, hadopted, hfailovers⟩, h.2.2.2⟩
  · rw [Aimed, hchain, hactive, hadopted, hfailovers]
    exact h
  · rw [Aimed, hchain, hactive, hfailovers]
    exact h
  · exact ⟨h.1, h.2.trans ⟨hchain, hactive, hadopted, hfailovers⟩⟩
  · exact ⟨h.1, h.2.trans ⟨hchain, hactive, hadopted, hfailovers⟩⟩
  · rw [Aimed, hchain, hactive, hadopted, hfailovers]
    exact h
  · exact h
  · trivial

theorem Aimed.of_same {rewrote rewrites : Prop} {p : Provider} (h : Aimed cfg rewrote s v p)
    (hno : ¬ rewrites) (hchain : w.kernel.chain = v.kernel.chain) :
    Aimed cfg (rewrote ∨ rewrites) s w p := by
  rw [or_iff_left hno, Aimed, hchain]
  exact h

theorem aimed_repin {rewrote : Prop} {p : Provider} (hbefore : ¬ rewrote)
    (hchain : v.kernel.chain = s.kernel.chain) (hp : (v.tasks t).repins?.isSome)
    (hw : w.kernel.chain = (v.kernel.repin cfg p ok).chain) :
    Aimed cfg (rewrote ∨ Rewrites cfg t v (.advance t ok) w) s w p := by
  simp only [Kernel.repin, Pin.install] at hw
  by_cases hrewrites : Rewrites cfg t v (.advance t ok) w
  · obtain ⟨hpin, hlan, hok, -⟩ := hrewrites
    cases hok
    refine Or.inl ⟨Or.inr ⟨hpin, hlan, rfl, hp⟩, ?_⟩
    rw [hw]
    simp [hpin, hlan]
  · refine Or.inr ⟨not_or.mpr ⟨hbefore, hrewrites⟩, ?_⟩
    rw [hw, ← hchain]
    cases ok with
    | false => simp
    | true =>
      by_cases hpin : cfg.routing.pinConnections = true
      · by_cases hlan : cfg.lanInterface.isSome = true
        · exact absurd ⟨hpin, hlan, rfl, hp⟩ hrewrites
        · simp [hlan]
      · simp [hpin]

/-- **One step** of the pass. -/
theorem midway_passStep {rewrote asserted : Prop} {point : PassPoint}
    (hstate : v.tasks t = .passing alwaysInstall point)
    (h : Midway cfg rewrote asserted s v (.passing alwaysInstall point))
    (howner : v.activeOwner = some t) (hkept : w.activeOwner = some t)
    (hstep : passStep cfg v t alwaysInstall ok point = some w) :
    Midway cfg (rewrote ∨ Rewrites cfg t v (.advance t ok) w)
      (asserted ∨ Asserts t v (.advance t ok) w) s w (w.tasks t) := by
  have hnot : (v.tasks t).repins? = none → ¬ Rewrites cfg t v (.advance t ok) w := by
    rintro hnone ⟨-, -, -, hsome⟩
    simp [hnone] at hsome
  have hidle : (v.tasks t).verifies = false → ¬ Asserts t v (.advance t ok) w := by
    rintro hno ⟨-, hyes, -⟩
    simp [hno] at hyes
  cases point with
  | readForced | readViews =>
    cases hstep
    simp [Midway]
  | readClock forced =>
    simp only [passStep] at hstep
    split at hstep
    all_goals
      cases hstep
      simp [Midway]
  | lockActive r =>
    simp only [passStep, howner, reduceCtorEq, if_false] at hstep
  | keepRead cur =>
    have hrewrites := hnot (by simp [hstate, TaskState.repins?])
    obtain ⟨hr, ha, hguard, hcur⟩ := h
    cases cur with
    | none =>
      cases hstep
      simp [Midway]
    | some cur =>
      cases hstep
      rw [goto_tasks_self]
      exact ⟨not_or.mpr ⟨hr, hrewrites⟩, not_or.mpr ⟨ha, hidle (by simp [hstate, TaskState.verifies])⟩,
        hguard.trans ⟨rfl, rfl, rfl, rfl⟩, hcur.symm⟩
  | keepRepin k =>
    obtain ⟨hr, ha, hguard, hcur⟩ := h
    cases hstep
    simp only [goto_tasks_self]
    exact ⟨aimed_repin hr hguard.chain (by simp [hstate, TaskState.repins?]) rfl,
      not_or.mpr ⟨ha, hidle (by simp [hstate, TaskState.verifies])⟩, hguard.active,
      hguard.failovers, hguard.activeAdopted, hcur⟩
  | keepVerify k =>
    have hrewrites := hnot (by simp [hstate, TaskState.repins?])
    obtain ⟨haimed, ha, hactive, hfailovers, hadopted, hcur⟩ := h
    simp only [passStep] at hstep
    split at hstep
    · rename_i hset
      cases ok with
      | false =>
        cases hstep
        simp [Midway]
      | true =>
        cases hstep
        simp only [goto_tasks_self]
        exact ⟨haimed.of_same hrewrites rfl, fun _ => Or.inr ⟨rfl, by rw [hstate]; rfl, hset⟩,
          hactive, hfailovers, hcur⟩
    · rename_i hset
      cases hstep
      simp only [goto_tasks_self]
      exact ⟨haimed.of_same hrewrites rfl, fun hs => absurd (hadopted.trans hs) hset, hactive,
        hfailovers, hcur⟩
  | keepAssert k =>
    simp only [passStep] at hstep
    split at hstep
    all_goals
      cases hstep
      simp only [goto_tasks_self]
    · split_ifs <;> trivial
    · trivial
  | keepFlush k | switchFlush a | unlock =>
    cases hstep
    simp [Midway]
  | switchRead a =>
    have hrewrites := hnot (by simp [hstate, TaskState.repins?])
    cases hstep
    rw [goto_tasks_self]
    exact ⟨not_or.mpr ⟨h.1, hrewrites⟩, h.2.trans ⟨rfl, rfl, rfl, rfl⟩⟩
  | switchRepin a same =>
    obtain ⟨hr, hguard⟩ := h
    cases hstep
    simp only [goto_tasks_self]
    exact ⟨aimed_repin hr hguard.chain (by simp [hstate, TaskState.repins?]) rfl,
      hguard.active, hguard.failovers, hguard.activeAdopted⟩
  | switchInstall a same =>
    simp only [passStep] at hstep
    split at hstep
    all_goals
      cases hstep
      simp only [goto_tasks_self]
    · split_ifs <;> trivial
    · trivial
  | switchCommit a =>
    cases hstep
    cases hkept
  | recordSwitch now => exact h.elim

theorem midway_own {rewrote asserted : Prop} (h : Midway cfg rewrote asserted s v (v.tasks t))
    (howner : v.activeOwner = some t) (hkept : w.activeOwner = some t) (ht : e.task? = some t)
    (hstep : step cfg v e = some w) :
    Midway cfg (rewrote ∨ Rewrites cfg t v e w) (asserted ∨ Asserts t v e w) s w (w.tasks t) := by
  by_cases hadvance : ∃ t' ok, e = .advance t' ok
  · obtain ⟨t', ok, rfl⟩ := hadvance
    cases ht
    rcases advance_cases hstep with ⟨name, p, -, -, -, rfl⟩ | ⟨_, point, hstate, hstep⟩ |
      ⟨point, -, hstep⟩ | ⟨name, point, -, hstep⟩ | ⟨point, -, hstep⟩
    · simp [Midway]
    · rw [hstate] at h
      exact midway_passStep hstate h howner hkept hstep
    · rcases watchStep_next hstep with ⟨next, h⟩ | h <;> rw [h] <;> trivial
    · rcases forceStep_next hstep with ⟨next, h⟩ | h | h <;> rw [h] <;> trivial
    · rcases clearStep_next hstep with ⟨next, h⟩ | h <;> rw [h] <;> trivial
  · have hne : ∀ t ok, e ≠ .advance t ok := fun t ok he => hadvance ⟨t, ok, he⟩
    obtain ⟨-, h | h | ⟨name, h⟩ | h | h⟩ := step_begins hstep hne ht <;> rw [h] <;> trivial

/-- The flap tracker is written in one step only, after the lock is given up. -/
theorem step_flap (hstep : step cfg v e = some w) (ht : e.task? = some t)
    (hpoint : ∀ alwaysInstall now, v.tasks t ≠ .passing alwaysInstall (.recordSwitch now)) :
    w.flap = v.flap := by
  cases e with
  | tick | external | packet | track | expire => cases ht
  | probe | force | clear | watch =>
    simp only [step] at hstep
    split at hstep <;> cases hstep
    rfl
  | advance t' ok =>
    cases ht
    rcases advance_cases hstep with ⟨name, p, -, -, -, rfl⟩ | ⟨_, point, hstate, hstep⟩ |
      ⟨point, -, hstep⟩ | ⟨name, point, -, rfl⟩ | ⟨point, -, rfl⟩
    · rfl
    · refine (passStep_writes hstep).2 ?_
      rintro now rfl
      exact hpoint _ now hstate
    · exact (watchStep_writes hstep).2.1
    · cases point <;> rfl
    · cases point <;> rfl

theorem Midway.not_recordSwitch {rewrote asserted : Prop}
    (h : Midway cfg rewrote asserted s v (v.tasks t)) (alwaysInstall : Bool) (now : Time.DateTime) :
    v.tasks t ≠ .passing alwaysInstall (.recordSwitch now) := by
  intro hstate
  rw [hstate] at h
  exact h

/-- **The pass**, from the lock on. -/
theorem midway_of_run (hexcl : Exclusive s)
    (hstart : s.tasks t = .passing alwaysInstall (.lockActive r))
    (hlock : step cfg s (.advance t ok) = some u) (hpass : Run (step cfg) u es v)
    (hkeeps : KeepsLock cfg t u es) :
    Midway cfg (SomeStep (step cfg) (Rewrites cfg t) s (.advance t ok :: es))
        (SomeStep (step cfg) (Asserts t) s (.advance t ok :: es)) s v (v.tasks t) ∧
      AllSteps (step cfg) (fun u e v => e.task? = some t → v.flap = u.flap) s
        (.advance t ok :: es) := by
  have hhead : Run (step cfg) s [.advance t ok] u := run_cons_iff.mpr ⟨u, hlock, Run.nil u⟩
  have hexcl_u : Exclusive u := hexcl.step hlock
  induction hpass with
  | nil =>
    have hno : ¬ Rewrites cfg t s (.advance t ok) u ∧ ¬ Asserts t s (.advance t ok) u := by
      constructor
      · rintro ⟨-, -, -, hsome⟩
        simp [hstart, TaskState.repins?] at hsome
      · rintro ⟨-, hverifies, -⟩
        simp [hstart, TaskState.verifies] at hverifies
    rw [someStep_singleton hlock, someStep_singleton hlock, iff_false_intro hno.1,
      iff_false_intro hno.2]
    refine ⟨?_, (allSteps_cons hlock).mpr ⟨fun _ => step_flap hlock rfl ?_, allSteps_nil _ _⟩⟩
    · simp only [step, advance, hstart, passStep] at hlock
      split_ifs at hlock
      cases hlock
      rw [goto_tasks_self]
      exact midway_arm ⟨rfl, rfl, rfl, rfl⟩
    · intro _ _ hstate
      rw [hstart] at hstate
      cases hstate
  | @concat es v e w hpass hstep ih =>
    have hbefore : KeepsLock cfg t u es := fun pre x hpre =>
      hkeeps pre x (hpre.trans (List.prefix_append _ _))
    obtain ⟨hmidway, hflap⟩ := ih hbefore
    have hrun : Run (step cfg) s (.advance t ok :: es) v := run_cons_iff.mpr ⟨u, hlock, hpass⟩
    have howner := hkeeps es v (List.prefix_append _ _) hpass
    have hkept := hkeeps (es ++ [e]) w List.prefix_rfl (Run.concat hpass hstep)
    rw [← List.cons_append, someStep_concat_iff hrun hstep, someStep_concat_iff hrun hstep,
      allSteps_concat hrun]
    refine ⟨?_, hflap, fun w' hstep' ht => step_flap hstep' ht hmidway.not_recordSwitch⟩
    by_cases ht : e.task? = some t
    · exact midway_own hmidway howner hkept ht hstep
    · have hne : ∀ ok, e ≠ .advance t ok := by
        rintro ok rfl
        exact ht rfl
      rw [or_iff_left (show ¬ Rewrites cfg t v e w from fun h => hne _ h.2.2.1),
        or_iff_left (show ¬ Asserts t v e w from fun h => hne _ h.1), step_tasks_of_ne hstep ht]
      have hexcl_v := hpass.preserves (fun _ _ _ h hstep => Exclusive.step h hstep) hexcl_u
      exact hmidway.of_guarded (guarded_step hexcl_v howner ht hstep)

/-! ## The install that fails -/

theorem chainStamp_rules (p : Provider) :
    chainStamp cfg (Pin.rules cfg (cfg.markFor p)) = stampOf cfg p :=
  (Pin.traverse_rules_fresh _ _ BitVec.zero_and).1

theorem activeStamp_of_eq (h : x.active = s.active) : activeStamp cfg x = activeStamp cfg s := by
  rw [activeStamp, h, activeStamp]

theorem aligned_iff_of_aimed {rewrote : Prop} {p : Provider} (h : Aimed cfg rewrote s x p)
    (hactive : x.active = s.active) :
    Aligned cfg x ↔ (¬ rewrote ∧ Aligned cfg s) ∨ rewrote ∧ stampOf cfg p = activeStamp cfg s := by
  rw [Aligned, activeStamp_of_eq hactive]
  rcases h with ⟨hr, hchain⟩ | ⟨hr, hchain⟩
  · rw [hchain, chainStamp_rules]
    simp [hr]
  · rw [hchain, Aligned]
    simp [hr]

theorem eq_of_reading? {state : TaskState} (h : state.reading? = some r) :
    ∃ alwaysInstall, state = .passing alwaysInstall (.lockActive r) := by
  unfold TaskState.reading? at h
  split at h
  · cases h
    exact ⟨_, rfl⟩
  · cases h

theorem installsRoute_cases (h : InstallsRoute w t) :
    (∃ alwaysInstall k, w.tasks t = .passing alwaysInstall (.keepVerify k) ∧
        w.activeAdopted = true) ∨
      (∃ k, w.tasks t = .passing true (.keepAssert k)) ∨
      ∃ alwaysInstall a same, w.tasks t = .passing alwaysInstall (.switchInstall a same) := by
  unfold InstallsRoute at h
  cases hstate : w.tasks t with
  | passing alwaysInstall point =>
    cases point <;> simp_all [TaskState.verifies, TaskState.asserts, TaskState.target?]
  | _ => simp_all [TaskState.verifies, TaskState.asserts, TaskState.target?]

/-- **A failed install leaves the balancer consistent** exactly when it is not the assertion of the
adopted route, and the chain is aimed at the active provider still. -/
theorem consistent_iff (hinit : Initial s₀) (hrun : Run (step cfg) s₀ hist s)
    (hstart : (s.tasks t).reading? = some r)
    (hlock : step cfg s (.advance t ok) = some u) (hpass : Run (step cfg) u es w)
    (hkeeps : KeepsLock cfg t u es) (hinstall : InstallsRoute w t)
    (hfail : step cfg w (.advance t false) = some x) :
    Consistent cfg t s ((.advance t ok :: es) ++ [.advance t false]) x ↔
      StaysRight cfg t s (.advance t ok :: es) w := by
  obtain ⟨alwaysInstall, hstart⟩ := eq_of_reading? hstart
  obtain ⟨hmidway, hflap⟩ :=
    midway_of_run (exclusive_of_run hinit hrun) hstart hlock hpass hkeeps
  have hrun' : Run (step cfg) s (.advance t ok :: es) w := run_cons_iff.mpr ⟨u, hlock, hpass⟩
  have hflap' : AllSteps (step cfg) (fun u e v => e.task? = some t → v.flap = u.flap) s
      ((.advance t ok :: es) ++ [.advance t false]) :=
    (allSteps_concat hrun').mpr
      ⟨hflap, fun _ hstep ht => step_flap hstep ht hmidway.not_recordSwitch⟩
  have hasserts : SomeStep (step cfg) (Asserts t) s ((.advance t ok :: es) ++ [.advance t false]) ↔
      SomeStep (step cfg) (Asserts t) s (.advance t ok :: es) := by
    rw [someStep_concat_iff hrun' hfail]
    exact or_iff_left fun h => by cases h.1
  rcases installsRoute_cases hinstall with ⟨_, k, hstate, hset⟩ | ⟨k, hstate⟩ |
    ⟨_, a, same, hstate⟩ <;> rw [hstate] at hmidway
  · -- the flag was swapped before the assertion failed
    obtain ⟨-, hno, -, -, hadopted, -⟩ := hmidway
    simp only [step, advance, hstate, passStep, hset, if_true, Bool.false_eq_true, if_false] at hfail
    cases hfail
    constructor
    · intro h
      exact absurd (h.adopted (hadopted ▸ hset) (hasserts.not.mpr hno)) (by simp)
    · intro h
      have hverify := h.verify
      rw [hstate] at hverify
      cases hverify
  · obtain ⟨haimed, hdone, hactive, hfailovers, hcur⟩ := hmidway
    simp only [step, advance, hstate, passStep, Bool.false_eq_true, and_false, if_false] at hfail
    cases hfail
    have hstamp : stampOf cfg k.cur = activeStamp cfg s := by simp [activeStamp, hcur]
    constructor
    · intro h
      refine ⟨by rw [hstate]; rfl, fun hpin _ => ?_, fun _ p hp => ?_⟩
      · have haligned := (aligned_iff_of_aimed haimed hactive).mp (h.aligned hpin)
        exact haligned.elim (fun h => Or.inr h.2) fun h => Or.inl h.1
      · rw [hstate] at hp
        cases hp
    · intro h
      refine ⟨fun hpin => (aligned_iff_of_aimed haimed hactive).mpr ?_, hactive, hfailovers, hflap',
        fun hs hno => absurd (hdone hs) (hasserts.not.mp hno)⟩
      by_cases hrewrote : SomeStep (step cfg) (Rewrites cfg t) s (.advance t ok :: es)
      · exact Or.inr ⟨hrewrote, hstamp⟩
      · exact Or.inl ⟨hrewrote, (h.keep hpin (by rw [hstate]; rfl)).resolve_left hrewrote⟩
  · obtain ⟨haimed, hactive, hfailovers, hadopted⟩ := hmidway
    simp only [step, advance, hstate, passStep, Bool.false_eq_true, if_false] at hfail
    cases hfail
    constructor
    · intro h
      refine ⟨by rw [hstate]; rfl, fun _ hk => ?_, fun hpin p hp => ?_⟩
      · rw [hstate] at hk
        cases hk
      · rw [hstate] at hp
        cases hp
        exact (aligned_iff_of_aimed haimed hactive).mp (h.aligned hpin)
    · intro h
      exact ⟨fun hpin => (aligned_iff_of_aimed haimed hactive).mpr
        (h.switch hpin a.target (by rw [hstate]; rfl)), hactive, hfailovers, hflap',
        fun hs _ => hadopted.trans hs⟩

/-! ## Two passes of the small gateway -/

theorem keepsLock_of_check {before : List Event} (hu : Run (step cfg) s₀ before u)
    (h : ∀ pre ∈ es.inits, (exec (step cfg) s₀ (before ++ pre)).all
      (fun v => decide (v.activeOwner = some t)) = true) : KeepsLock cfg t u es :=
  fun pre _ hpre hv => Run.of_all (P := fun v => v.activeOwner = some t)
    (h pre ((List.mem_inits pre es).mpr hpre)) (run_append_iff.mpr ⟨u, hu, hv⟩)

/-- The operator releases the pin, and the pass that follows stands before the lock. -/
def release : List Event := bothUp ++ [.clear 0] ++ turns (.control 0) 5

/-- The assertion of the adopted route fails. -/
def releaseFails : List Event :=
  release ++ [.advance (.control 0) true] ++ turns (.control 0) 3 ++ [.advance (.control 0) false]

theorem releaseFails_enabled : (exec (step twoUplinks) coldStart releaseFails).isSome := by decide

/-- The route of the active provider is not asserted; nothing else is lost. -/
theorem consistent_iff_release : ∃ s x, Run (step twoUplinks) coldStart release s ∧
    Run (step twoUplinks) coldStart releaseFails x ∧
    Consistent twoUplinks (.control 0) s
      ((.advance (.control 0) true :: turns (.control 0) 3) ++ [.advance (.control 0) false]) x := by
  have hx := run_get releaseFails_enabled
  obtain ⟨w, hw, hfail⟩ := run_concat_iff.mp hx
  obtain ⟨u, hu, hpass⟩ := run_append_iff.mp hw
  obtain ⟨s, hs, hlock⟩ := run_concat_iff.mp hu
  obtain ⟨r, hr⟩ := Option.isSome_iff_exists.mp (Run.of_all
    (P := fun s : Sys => (s.tasks (.control 0)).reading?.isSome = true) (by decide) hs)
  refine ⟨s, _, hs, hx, (consistent_iff coldStart_initial hs hr hlock hpass
    (keepsLock_of_check hu (by decide))
    (Run.of_all (P := fun w => InstallsRoute w (.control 0)) (by decide) hw) hfail).mpr ⟨?_, ?_, ?_⟩⟩
  · exact Run.of_all (P := fun w : Sys => (w.tasks (.control 0)).verifies = false) (by decide) hw
  · exact fun _ _ => Or.inr (Run.of_all (P := fun s => Aligned twoUplinks s) (by decide) hs)
  · intro _ p hp
    rw [Run.of_all (P := fun w : Sys => (w.tasks (.control 0)).target? = none) (by decide) hw] at hp
    cases hp

/-- `a` goes down and its connection is evicted; the pass that follows stands before the lock. -/
def leaving : List Event :=
  bothUp ++ [.probe "a" false none (some (.gateway, "no reply"))] ++ turns (.healthLoop "a") 4

/-- The install of a switch fails. -/
def leavingFails : List Event :=
  leaving ++ [.advance (.healthLoop "a") true] ++ turns (.healthLoop "a") 2 ++
    [.advance (.healthLoop "a") false]

theorem leavingFails_enabled : (exec (step twoUplinks) coldStart leavingFails).isSome := by decide

/-- The switch is installed by nobody, and yet new connections are stamped for it. -/
theorem not_consistent : ¬ ∀ (cfg : Config) (s₀ s u w x : Sys) (t : TaskId) (r : Reading)
    (hist es : List Event) (ok : Bool), cfg.Accepted → Initial s₀ → Run (step cfg) s₀ hist s →
      (s.tasks t).reading? = some r → step cfg s (.advance t ok) = some u →
        Run (step cfg) u es w → KeepsLock cfg t u es → InstallsRoute w t →
          step cfg w (.advance t false) = some x →
            Consistent cfg t s ((.advance t ok :: es) ++ [.advance t false]) x := by
  intro hall
  have hx := run_get leavingFails_enabled
  obtain ⟨w, hw, hfail⟩ := run_concat_iff.mp hx
  obtain ⟨u, hu, hpass⟩ := run_append_iff.mp hw
  obtain ⟨s, hs, hlock⟩ := run_concat_iff.mp hu
  obtain ⟨r, hr⟩ := Option.isSome_iff_exists.mp (Run.of_all
    (P := fun s : Sys => (s.tasks (.healthLoop "a")).reading?.isSome = true) (by decide) hs)
  have hconsistent := hall twoUplinks coldStart s u w _ _ r _ _ true (by decide) coldStart_initial
    hs hr hlock hpass (keepsLock_of_check hu (by decide))
    (Run.of_all (P := fun w => InstallsRoute w (.healthLoop "a")) (by decide) hw) hfail
  exact Run.of_all (P := fun x => ¬ Aligned twoUplinks x) (by decide) hx (hconsistent.aligned rfl)

end Vlb.Balancer
