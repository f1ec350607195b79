import Vlb.Balancer.Daemon

/-!
# One task at a time on the route

From the moment a pass or the watchdog has `active` until it gives it up, no other task changes what
the lock protects.

* `TaskState.holds`: the task stands where it has the lock.
* **`exclusive_of_run`**: a task that stands there is the one that the lock names.
* `Guarded`: the chain, `active`, `active_adopted` and the failover log are as they were.
* **`guarded_step`**: they are after every step of somebody else.
-/

namespace Vlb.Balancer

open Transition

variable {cfg : Config} {s s' s₀ : Sys} {t t' : TaskId} {e : Event} {es : List Event} {ok : Bool}

/-- The pass has the lock on `active`. -/
def PassPoint.holds : PassPoint → Bool
  | .readForced | .readClock _ | .readViews _ _ _ | .lockActive _ | .recordSwitch _ => false
  | _ => true

/-- So has the watchdog. -/
def WatchPoint.holds : WatchPoint → Bool
  | .lockActive => false
  | _ => true

/-- The task has `active`. -/
def TaskState.holds : TaskState → Bool
  | .passing _ point => point.holds
  | .watching point => point.holds
  | _ => false

@[simp] theorem arm_holds (cfg : Config) (r : Reading) (current : Option String) :
    (arm cfg r current).holds = true := by
  unfold arm
  split
  · rfl
  · split <;> rfl
  · rfl

/-- A step of a task takes the lock when it is free, or leaves it to whom it belongs. -/
structure Moves (s s' : Sys) (t : TaskId) : Prop where
  taken : (s.tasks t).holds = false → (s'.tasks t).holds = true →
    s.activeOwner = none ∧ s'.activeOwner = some t
  kept : (s.tasks t).holds = (s'.tasks t).holds → s'.activeOwner = s.activeOwner

theorem passStep_moves {alwaysInstall : Bool} {point : PassPoint}
    (hstate : s.tasks t = .passing alwaysInstall point)
    (h : passStep cfg s t alwaysInstall ok point = some s') : Moves s s' t := by
  unfold passStep at h
  repeat' split at h
  all_goals
    cases h
  all_goals
    constructor <;>
      simp_all [Sys.goto, TaskState.holds, PassPoint.holds]
  -- the pass has taken the lock and goes on into one of the arms
  exact arm_holds cfg _ _

theorem watchStep_moves {point : WatchPoint} (hstate : s.tasks t = .watching point)
    (h : watchStep cfg s t ok point = some s') : Moves s s' t := by
  unfold watchStep at h
  repeat' split at h
  all_goals
    cases h
  all_goals
    constructor <;>
      simp_all [Sys.goto, TaskState.holds, WatchPoint.holds]

theorem advance_moves (h : advance cfg s t ok = some s') : Moves s s' t := by
  rcases advance_cases h with ⟨name, p, -, hstate, -, rfl⟩ | ⟨_, point, hstate, h⟩ |
    ⟨point, hstate, h⟩ | ⟨name, point, hstate, rfl⟩ | ⟨point, hstate, rfl⟩
  · constructor <;> simp [hstate, Sys.goto, TaskState.holds, PassPoint.holds]
  · exact passStep_moves hstate h
  · exact watchStep_moves hstate h
  · cases point with
    | check =>
      constructor
      · simp only [forceStep, goto_tasks_self]
        split_ifs <;> simp [TaskState.holds]
      · exact fun _ => rfl
    | memory | store =>
      constructor <;> simp [hstate, forceStep, Sys.goto, TaskState.holds, PassPoint.holds]
  · constructor <;> cases point <;>
      simp [hstate, clearStep, Sys.goto, TaskState.holds, PassPoint.holds]

/-- Who stands where the lock is held is the one whom the lock names. -/
def Exclusive (s : Sys) : Prop := ∀ t, (s.tasks t).holds = true → s.activeOwner = some t

theorem Initial.exclusive (h : Initial s) : Exclusive s := by
  intro t ht
  rw [h.tasks] at ht
  cases ht

theorem holds_of_begins (hstep : step cfg s e = some s') (hne : ∀ t ok, e ≠ .advance t ok)
    (ht : e.task? = some t) : (s'.tasks t).holds = false := by
  obtain ⟨-, h | h | ⟨name, h⟩ | h | h⟩ := step_begins hstep hne ht <;> rw [h] <;> rfl

theorem step_activeOwner (hstep : step cfg s e = some s') (hne : ∀ t ok, e ≠ .advance t ok) :
    s'.activeOwner = s.activeOwner := by
  obtain ⟨tasks, health, clock, kernel, rfl⟩ := step_of_ne_advance hstep hne
  rfl

theorem Exclusive.step (h : Exclusive s) (hstep : step cfg s e = some s') : Exclusive s' := by
  intro t ht
  by_cases hadvance : ∃ t' ok, e = .advance t' ok
  · obtain ⟨t', ok, rfl⟩ := hadvance
    have hmoves := advance_moves hstep
    by_cases htt : t = t'
    · subst htt
      cases hbefore : (s.tasks t).holds with
      | false => exact (hmoves.taken hbefore ht).2
      | true => rw [hmoves.kept (hbefore.trans ht.symm), h t hbefore]
    · have hsame : s'.tasks t = s.tasks t :=
        step_tasks_of_ne hstep (by simp [Event.task?, Ne.symm htt])
      rw [hsame] at ht
      have howner := h t ht
      cases hbefore : (s.tasks t').holds with
      | true =>
        rw [h t' hbefore] at howner
        exact absurd (Option.some.inj howner).symm htt
      | false =>
        cases hafter : (s'.tasks t').holds with
        | true =>
          rw [(hmoves.taken hbefore hafter).1] at howner
          cases howner
        | false => rw [hmoves.kept (hbefore.trans hafter.symm), howner]
  · have hne : ∀ t ok, e ≠ .advance t ok := fun t ok he => hadvance ⟨t, ok, he⟩
    rw [step_activeOwner hstep hne]
    by_cases htask : e.task? = some t
    · rw [holds_of_begins hstep hne htask] at ht
      cases ht
    · rw [step_tasks_of_ne hstep htask] at ht
      exact h t ht

/-- **One task at a time**, in every run. -/
theorem exclusive_of_run (hinit : Initial s₀) (hrun : Run (step cfg) s₀ es s) : Exclusive s :=
  hrun.preserves (fun _ _ _ h hstep => h.step hstep) hinit.exclusive

/-! ## What the lock protects -/

/-- What only the task that has `active` changes. -/
structure Guarded (s s' : Sys) : Prop where
  chain : s'.kernel.chain = s.kernel.chain
  active : s'.active = s.active
  activeAdopted : s'.activeAdopted = s.activeAdopted
  failovers : s'.failovers = s.failovers

theorem Guarded.refl (s : Sys) : Guarded s s := ⟨rfl, rfl, rfl, rfl⟩

theorem Guarded.trans {s'' : Sys} (h : Guarded s s') (h' : Guarded s' s'') : Guarded s s'' :=
  ⟨h'.chain.trans h.chain, h'.active.trans h.active, h'.activeAdopted.trans h.activeAdopted,
    h'.failovers.trans h.failovers⟩

theorem passStep_guarded {alwaysInstall : Bool} {point : PassPoint} (hpoint : point.holds = false)
    (h : passStep cfg s t alwaysInstall ok point = some s') : Guarded s s' := by
  cases point <;> simp only [PassPoint.holds, reduceCtorEq] at hpoint
  all_goals
    simp only [passStep] at h
    repeat' split at h
  all_goals
    cases h
  all_goals exact ⟨rfl, rfl, rfl, rfl⟩

theorem watchStep_guarded {point : WatchPoint} (hpoint : point.holds = false)
    (h : watchStep cfg s t ok point = some s') : Guarded s s' := by
  cases point <;> simp only [WatchPoint.holds, reduceCtorEq] at hpoint
  simp only [watchStep] at h
  repeat' split at h
  all_goals
    cases h
  all_goals exact ⟨rfl, rfl, rfl, rfl⟩

theorem advance_guarded (hholds : (s.tasks t).holds = false) (h : advance cfg s t ok = some s') :
    Guarded s s' := by
  rcases advance_cases h with ⟨name, p, -, hstate, -, rfl⟩ | ⟨_, point, hstate, h⟩ |
    ⟨point, hstate, h⟩ | ⟨name, point, hstate, rfl⟩ | ⟨point, hstate, rfl⟩
  · refine ⟨?_, rfl, rfl, rfl⟩
    simp only [Kernel.evictPinned]
    split_ifs <;> rfl
  · rw [hstate] at hholds
    exact passStep_guarded hholds h
  · rw [hstate] at hholds
    exact watchStep_guarded hholds h
  · cases point <;> exact ⟨rfl, rfl, rfl, rfl⟩
  · cases point <;> exact ⟨rfl, rfl, rfl, rfl⟩

theorem guarded_of_ne (hstep : step cfg s e = some s') (hne : ∀ t ok, e ≠ .advance t ok) :
    Guarded s s' := by
  cases e with
  | tick | external | expire =>
    cases hstep
    exact ⟨rfl, rfl, rfl, rfl⟩
  | packet id d nfmark =>
    obtain ⟨k, hk, rfl⟩ := Option.map_eq_some_iff.mp hstep
    refine ⟨?_, rfl, rfl, rfl⟩
    unfold Kernel.packet at hk
    split_ifs at hk
    · cases hk
      rfl
    · cases d <;> cases hk
      rfl
  | track id mark =>
    obtain ⟨k, hk, rfl⟩ := Option.map_eq_some_iff.mp hstep
    refine ⟨?_, rfl, rfl, rfl⟩
    unfold Kernel.track at hk
    split_ifs at hk
    cases hk
    rfl
  | probe | force | clear | watch =>
    simp only [step] at hstep
    split at hstep <;> cases hstep
    exact ⟨rfl, rfl, rfl, rfl⟩
  | advance t ok => exact absurd rfl (hne t ok)

/-- **One step** of anybody but the task that has the lock. -/
theorem guarded_step (hexcl : Exclusive s) (howner : s.activeOwner = some t)
    (ht : e.task? ≠ some t) (hstep : step cfg s e = some s') : Guarded s s' := by
  by_cases hadvance : ∃ t' ok, e = .advance t' ok
  · obtain ⟨t', ok, rfl⟩ := hadvance
    refine advance_guarded ?_ hstep
    cases hholds : (s.tasks t').holds with
    | false => rfl
    | true =>
      rw [hexcl t' hholds] at howner
      exact absurd howner ht
  · exact guarded_of_ne hstep fun t ok he => hadvance ⟨t, ok, he⟩

end Vlb.Balancer
