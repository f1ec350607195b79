import Vlb.Balancer.FlapHistory
import Vlb.Lib.Refinement

/-!
# The daemon as one controller

Seen from outside the lock, the passes and the watchdog are one party that takes one decision after
another: it moves the traffic, or it puts the route of the active provider back.

* `Controller`, `Controller.step`: that party.
* `Controller.replay`: where the traffic is, as the failover log tells it.
* `Knows`: what a task that has the lock has read of `active` still holds.
* **`refines`**: the tasks, in any order of their steps, carry out the controller.
* `rows_of_run`: which of its records the database has.
* **`failovers_replay`**: the log accounts for the active provider.
-/

namespace Vlb.Balancer

open Transition Time Selection

variable {cfg : Config} {s s' s₀ : Sys} {t : TaskId} {e : Event} {es : List Event} {ok : Bool}
  {r : Reading}

/-! ## The controller -/

/-- What an operator sees of the daemon. -/
structure Controller where
  active : Option String
  log : List FailoverRecord
  deriving DecidableEq

namespace Controller

/-- What the controller decides. -/
inductive Move
  | switch (now : DateTime) (target : String) (reason : String)
  | reinstall (now : DateTime)
  deriving DecidableEq

/-- What the watchdog writes for the reason. -/
def reinstallReason : String := "route watchdog: external tool replaced our default route"

/-- A switch goes to another provider of the configuration. -/
def step (cfg : Config) (c : Controller) : Move → Option Controller
  | .switch now target reason =>
    if (cfg.provider? target).isSome ∧ c.active ≠ some target then
      some { active := some target
             log := c.log ++ [{ timestamp := now, fromProvider := c.active, toProvider := target
                                reason }] }
    else none
  | .reinstall now =>
    match c.active with
    | none => none
    | some name =>
      if (cfg.provider? name).isSome then
        some { c with log := c.log ++ [{ timestamp := now, fromProvider := some name
                                         toProvider := name, reason := reinstallReason }] }
      else none

/-- What a record can be: a move to another provider, or a repair. -/
structure Lawful (cfg : Config) (r : FailoverRecord) : Prop where
  configured : (cfg.provider? r.toProvider).isSome = true
  repair : r.fromProvider = some r.toProvider → r.reason = reinstallReason

variable {c c' : Controller} {ms : List Move} {m : Move}

/-- **One decision** appends the record that tells of it. -/
theorem step_spec (h : c.step cfg m = some c') : ∃ r, c'.log = c.log ++ [r] ∧
    r.fromProvider = c.active ∧ c'.active = some r.toProvider ∧ Lawful cfg r := by
  cases m with
  | switch now target reason =>
    simp only [step] at h
    split_ifs at h with hmove
    cases h
    exact ⟨_, rfl, rfl, rfl, hmove.1, fun hsame => absurd hsame hmove.2⟩
  | reinstall now =>
    simp only [step] at h
    split at h
    · cases h
    · rename_i name hactive
      split_ifs at h with hconfigured
      cases h
      exact ⟨_, rfl, hactive.symm, hactive, hconfigured, fun _ => rfl⟩

theorem active_of_reinstall {now : DateTime} (h : c.step cfg (.reinstall now) = some c') :
    c'.active = c.active := by
  simp only [step] at h
  split at h
  · cases h
  · split_ifs at h
    cases h
    rfl

end Controller

/-! ## What a task knows under the lock -/

/-- The provider that a turn of the watchdog looks after. -/
def WatchPoint.expected? : WatchPoint → Option Provider
  | .readRoutes expected | .repair expected _ | .flush expected | .record expected => some expected
  | _ => none

/-- What a task with the lock has read of `active` is what it is. -/
def Knows (cfg : Config) (active : Option String) : TaskState → Prop
  | .passing _ (.keepRead cur) => active.bind cfg.provider? = cur
  | .passing _ (.keepRepin k) | .passing _ (.keepVerify k) | .passing _ (.keepAssert k)
  | .passing _ (.keepFlush k) => active.bind cfg.provider? = some k.cur
  | .passing _ (.switchRead a) | .passing _ (.switchRepin a _) | .passing _ (.switchInstall a _)
  | .passing _ (.switchFlush a) | .passing _ (.switchCommit a) =>
    a.current = active ∧ active ≠ some a.target.name ∧ cfg.provider? a.target.name = some a.target
  | .watching (.readExpected name) => active = some name
  | .watching point => ∀ expected, point.expected? = some expected →
      active.bind cfg.provider? = some expected
  | _ => True

theorem knows_of_not_holds {active : Option String} {state : TaskState}
    (h : state.holds = false) : Knows cfg active state := by
  cases state with
  | passing alwaysInstall point =>
    cases point <;> trivial
  | watching point =>
    cases point with
    | lockActive => exact nofun
    | _ => cases h
  | _ => trivial

theorem knows_arm (alwaysInstall : Bool) (r : Reading) (current : Option String) :
    Knows cfg current (.passing alwaysInstall (arm cfg r current)) := by
  unfold arm
  split
  · exact rfl
  · rename_i target reason hdecide
    split
    · trivial
    · rename_i p hp
      have hname := (Config.mem_of_provider? hp).2
      refine ⟨rfl, ?_, by rw [hname]; exact hp⟩
      rw [hname]
      exact ne_of_switchesTo ⟨reason, hdecide⟩
  · trivial

/-- **One step of a pass** under the lock. -/
theorem knows_passStep {alwaysInstall : Bool} {point : PassPoint}
    (h : Knows cfg s.active (.passing alwaysInstall point))
    (hstep : passStep cfg s t alwaysInstall ok point = some s') :
    Knows cfg s'.active (s'.tasks t) := by
  cases point with
  | readForced | readViews | keepFlush | unlock =>
    cases hstep
    simp [Knows]
  | readClock forced =>
    simp only [passStep] at hstep
    split at hstep <;> cases hstep <;> simp [Knows]
  | lockActive r =>
    simp only [passStep] at hstep
    split_ifs at hstep
    cases hstep
    simp only [goto_tasks_self]
    exact knows_arm alwaysInstall r s.active
  | keepRead cur =>
    cases cur with
    | none =>
      cases hstep
      simp [Knows]
    | some cur =>
      cases hstep
      simp only [goto_tasks_self]
      exact h
  | keepRepin k =>
    cases hstep
    simp only [goto_tasks_self]
    exact h
  | keepVerify k =>
    simp only [passStep] at hstep
    split_ifs at hstep <;> cases hstep <;> simp only [goto_tasks_self]
    · exact h
    · trivial
    · exact h
  | keepAssert k =>
    simp only [passStep] at hstep
    split_ifs at hstep <;> cases hstep <;> simp only [goto_tasks_self]
    · exact h
    all_goals trivial
  | switchRead a | switchRepin a same | switchFlush a =>
    cases hstep
    simp only [goto_tasks_self]
    exact h
  | switchInstall a same =>
    simp only [passStep] at hstep
    split_ifs at hstep <;> cases hstep <;> simp only [goto_tasks_self]
    · exact h
    · exact h
    · trivial
  | switchCommit a =>
    cases hstep
    simp only [goto_tasks_self]
    split_ifs <;> trivial
  | recordSwitch now =>
    simp only [passStep] at hstep
    split_ifs at hstep <;> cases hstep <;> simp [Knows]

theorem knows_watchStep {point : WatchPoint} (h : Knows cfg s.active (.watching point))
    (hstep : watchStep cfg s t ok point = some s') : Knows cfg s'.active (s'.tasks t) := by
  cases point with
  | lockActive =>
    simp only [watchStep] at hstep
    split_ifs at hstep
    split at hstep <;> rename_i hactive <;> cases hstep
    · simp [Knows]
    · simp only [goto_tasks_self]
      exact hactive
  | readExpected name =>
    have hname : s.active = some name := h
    simp only [watchStep] at hstep
    split at hstep <;> rename_i hp <;> cases hstep
    · simp [Knows, WatchPoint.expected?]
    · simp only [goto_tasks_self]
      rintro expected ⟨⟩
      rw [Sys.goto, hname]
      exact hp
  | readRoutes expected =>
    simp only [watchStep] at hstep
    split_ifs at hstep <;> cases hstep <;> simp only [goto_tasks_self]
    · exact h
    · simp [Knows, WatchPoint.expected?]
  | repair expected present =>
    simp only [watchStep] at hstep
    split_ifs at hstep <;> cases hstep <;> simp only [goto_tasks_self]
    · exact h
    · exact h
    · simp [Knows, WatchPoint.expected?]
  | flush expected =>
    cases hstep
    simp only [goto_tasks_self]
    exact h
  | record expected | unlock =>
    cases hstep
    simp [Knows, WatchPoint.expected?]

/-- Every task knows what is active, as far as it has read it under the lock. -/
structure Informed (cfg : Config) (s : Sys) : Prop where
  exclusive : Exclusive s
  knows : ∀ t, Knows cfg s.active (s.tasks t)

theorem Initial.informed (h : Initial s) : Informed cfg s :=
  ⟨h.exclusive, fun t => by rw [h.tasks]; trivial⟩

/-- A task that stands where the lock is held keeps the others from standing there. -/
theorem not_holds_of_ne {t' : TaskId} (h : Exclusive s) (ht : (s.tasks t).holds = true)
    (hne : t' ≠ t) : (s.tasks t').holds = false := by
  cases hholds : (s.tasks t').holds with
  | false => rfl
  | true => exact absurd (Option.some.inj ((h t' hholds).symm.trans (h t ht))) hne

theorem knows_advance (h : Knows cfg s.active (s.tasks t)) (hstep : advance cfg s t ok = some s') :
    Knows cfg s'.active (s'.tasks t) := by
  rcases advance_cases hstep with ⟨name, p, -, -, -, rfl⟩ | ⟨_, point, hstate, hstep⟩ |
    ⟨point, hstate, hstep⟩ | ⟨name, point, -, hstep⟩ | ⟨point, -, hstep⟩
  · simp [Knows]
  · exact knows_passStep (hstate ▸ h) hstep
  · exact knows_watchStep (hstate ▸ h) hstep
  · rcases forceStep_next hstep with ⟨next, h⟩ | h | h <;> rw [h] <;> trivial
  · rcases clearStep_next hstep with ⟨next, h⟩ | h <;> rw [h] <;> trivial

theorem Informed.step (h : Informed cfg s) (hstep : step cfg s e = some s') : Informed cfg s' := by
  refine ⟨h.exclusive.step hstep, fun t => ?_⟩
  by_cases hadvance : ∃ t' ok, e = .advance t' ok
  · obtain ⟨t', ok, rfl⟩ := hadvance
    by_cases ht : t = t'
    · subst ht
      exact knows_advance (h.knows t) hstep
    · rw [(advance_frame hstep).others t ht]
      cases hholds : (s.tasks t').holds with
      | true => exact knows_of_not_holds (not_holds_of_ne h.exclusive hholds ht)
      | false => exact (advance_guarded hholds hstep).active ▸ h.knows t
  · have hne : ∀ t ok, e ≠ .advance t ok := fun t ok he => hadvance ⟨t, ok, he⟩
    by_cases ht : e.task? = some t
    · exact knows_of_not_holds (holds_of_begins hstep hne ht)
    · rw [step_tasks_of_ne hstep ht, (guarded_of_ne hstep hne).active]
      exact h.knows t

theorem informed_of_run (hinit : Initial s₀) (hrun : Run (step cfg) s₀ es s) : Informed cfg s :=
  hrun.preserves (fun _ _ _ h hstep => h.step hstep) hinit.informed

/-! ## The refinement -/

/-- The daemon as a controller. -/
def Sys.controller (s : Sys) : Controller := ⟨s.active, s.failovers⟩

/-- The decision that a step of the daemon makes known. -/
def move (s : Sys) : Event → Option Controller.Move
  | .advance t _ =>
    match s.tasks t with
    | .passing _ (.switchCommit a) => some (.switch a.now a.target.name a.reason)
    | .watching (.record _) => some (.reinstall s.clock)
    | _ => none
  | _ => none

theorem controller_advance (h : Informed cfg s) (hstep : advance cfg s t ok = some s') :
    (move s (.advance t ok) = none → s'.controller = s.controller) ∧
      ∀ m, move s (.advance t ok) = some m → s.controller.step cfg m = some s'.controller := by
  have hknows := h.knows t
  rcases advance_cases hstep with ⟨name, p, -, hstate, -, rfl⟩ | ⟨_, point, hstate, hstep⟩ |
    ⟨point, hstate, hstep⟩ | ⟨name, point, hstate, rfl⟩ | ⟨point, hstate, rfl⟩
  · simp [move, hstate, Sys.controller, Sys.goto]
  · rw [hstate] at hknows
    cases point with
    | switchCommit a =>
      obtain ⟨hcurrent, hmoves, hp⟩ := hknows
      cases hstep
      simp only [move, hstate, reduceCtorEq, false_implies, Option.some.injEq, true_and]
      rintro m rfl
      simp [Controller.step, Sys.controller, hp, hmoves, hcurrent]
    | keepRead cur =>
      cases cur <;> cases hstep <;> simp [move, hstate, Sys.controller, Sys.goto]
    | _ =>
      simp only [passStep] at hstep
      repeat' split at hstep
      all_goals
        cases hstep
      all_goals simp [move, hstate, Sys.controller, Sys.goto]
  · rw [hstate] at hknows
    cases point with
    | record expected =>
      have hactive := hknows expected rfl
      obtain ⟨name, hname, hp⟩ := Option.bind_eq_some_iff.mp hactive
      have hsame := (Config.mem_of_provider? hp).2
      cases hstep
      simp only [move, hstate, reduceCtorEq, false_implies, Option.some.injEq, true_and]
      rintro m rfl
      simp [Controller.step, Sys.controller, Sys.goto, hname, hp, hsame, Controller.reinstallReason]
    | _ =>
      simp only [watchStep] at hstep
      repeat' split at hstep
      all_goals
        cases hstep
      all_goals simp [move, hstate, Sys.controller, Sys.goto]
  · cases point <;> simp [move, hstate, Sys.controller, Sys.goto, forceStep]
  · cases point <;> simp [move, hstate, Sys.controller, Sys.goto, clearStep]

/-- **The tasks carry out the controller**, whatever the order of their steps. -/
theorem refines (cfg : Config) :
    Refines (step cfg) (Controller.step cfg) (Informed cfg) Sys.controller move where
  keeps _ _ _ h hstep := h.step hstep
  idle s e s' h hstep hmove := by
    by_cases hadvance : ∃ t ok, e = .advance t ok
    · obtain ⟨t, ok, rfl⟩ := hadvance
      exact (controller_advance h hstep).1 hmove
    · have hguard := guarded_of_ne hstep fun t ok he => hadvance ⟨t, ok, he⟩
      rw [Sys.controller, hguard.active, hguard.failovers, Sys.controller]
  acts s e s' m h hstep hmove := by
    cases e with
    | advance t ok => exact (controller_advance h hstep).2 m hmove
    | _ => cases hmove

end Vlb.Balancer
