import Vlb.Balancer.Pinning

/-!
# The operator's pin

`force_provider` and `clear_force` write the override in memory, then in the database, then
reconcile. Passes of the health loops read the override and the views before they wait for `active`,
and requests run side by side.

* `FreshSwitch`, `NotOvertaken`: a switch is the decision on what is in force when it is taken.
* **`notOvertaken_of_undisturbed`**: it is, when nothing is written under a pass that waits.
* `restorePin`, `Persisted`: what a restart makes of the row; the row is the pin in memory.
* `PinInvariant`: it is, once every command has written both, if the writes come in order.
* **`persisted_iff`**: and only then.
-/

namespace Vlb.Balancer

open Selection Transition

variable {cfg : Config} {s s' s₀ t : Sys} {e : Event} {es : List Event}

/-! ## Passes that wait -/

/-- The override that a pass has read and not yet decided on. -/
def TaskState.forcedRead? : TaskState → Option (Option String)
  | .passing _ (.readClock forced) => some forced
  | .passing _ (.readViews forced _ _) => some forced
  | .passing _ (.lockActive r) => some r.forced
  | _ => none

/-- What a pass that is next to take `active` has read. -/
def TaskState.reading? : TaskState → Option Reading
  | .passing _ (.lockActive r) => some r
  | _ => none

/-- The reading of the pass that decides in this step. -/
def Event.deciding? (s : Sys) : Event → Option Reading
  | .advance t _ => (s.tasks t).reading?
  | _ => none

/-- The reading, with the override and the views that are in force. -/
def Reading.refreshed (cfg : Config) (s : Sys) (r : Reading) : Reading :=
  { r with forced := s.forceOverride, views := s.views cfg }

/-- A switch decided in this step is the decision on the override and the health states in force
as the pass holds `active`. -/
def FreshSwitch (cfg : Config) (s : Sys) (e : Event) : Prop :=
  ∀ r ∈ e.deciding? s, (r.input s.active).decide.isSwitch →
    ((r.refreshed cfg s).input s.active).decide = (r.input s.active).decide

/-- The task is reconciling. -/
def TaskState.isPass : TaskState → Bool
  | .passing _ _ => true
  | _ => false

/-- The step with which a command of the operator returns: its pass is the last thing it does. -/
def Returns (s : Sys) (e : Event) (s' : Sys) : Prop :=
  ∃ id ok, e = .advance (.control id) ok ∧ (s.tasks (.control id)).isPass ∧
    s'.tasks (.control id) = .idle

/-- No pass overtakes a command that has returned. -/
def NotOvertaken (cfg : Config) (s₀ : Sys) (es : List Event) : Prop :=
  ∀ pre e post u v, es = pre ++ e :: post → Run (step cfg) s₀ pre u → step cfg u e = some v →
    SomeStep (step cfg) Returns s₀ pre → FreshSwitch cfg u e

/-- The step changes neither the override nor a provider's health under a pass that has read them
and still waits. -/
structure Undisturbed (cfg : Config) (s s' : Sys) : Prop where
  override : s'.forceOverride ≠ s.forceOverride → ∀ t, (s.tasks t).forcedRead? = none
  views : s'.views cfg ≠ s.views cfg → ∀ t, (s.tasks t).reading? = none

/-- What the task has read is what is in force. -/
structure Agrees (cfg : Config) (s : Sys) (state : TaskState) : Prop where
  forced : ∀ forced ∈ state.forcedRead?, forced = s.forceOverride
  views : ∀ r ∈ state.reading?, r.views = s.views cfg

theorem forcedRead?_of_reading? {state : TaskState} {r : Reading} (h : state.reading? = some r) :
    state.forcedRead? = some r.forced := by
  unfold TaskState.reading? at h
  split at h
  · cases h
    rfl
  · cases h

theorem Agrees.of_none {state : TaskState} (h : state.forcedRead? = none) :
    Agrees cfg s state := by
  refine ⟨by simp [h], fun r hr => ?_⟩
  rw [forcedRead?_of_reading? hr] at h
  cases h

theorem arm_forcedRead? (cfg : Config) (r : Reading) (current : Option String)
    (alwaysInstall : Bool) :
    (TaskState.passing alwaysInstall (arm cfg r current)).forcedRead? = none := by
  unfold arm
  split
  · rfl
  · split <;> rfl
  · rfl

/-- **What a pass reads**: the override, then the clock and the window, then the views; from the
lock on it holds no reading. -/
theorem passStep_reads {t : TaskId} {alwaysInstall ok : Bool} {point : PassPoint}
    (h : passStep cfg s t alwaysInstall ok point = some s') :
    (s'.tasks t).forcedRead? = none ∨
      (point = .readForced ∧
        s'.tasks t = .passing alwaysInstall (.readClock s.forceOverride)) ∨
      (∃ forced window, point = .readClock forced ∧
        s'.tasks t = .passing alwaysInstall (.readViews forced s.clock window)) ∨
      (∃ forced now failbackStable, point = .readViews forced now failbackStable ∧
        s'.tasks t = .passing alwaysInstall
          (.lockActive { forced, now, failbackStable, views := s.views cfg })) := by
  cases point with
  | readForced =>
    cases h
    exact Or.inr (Or.inl ⟨rfl, goto_tasks_self _⟩)
  | readClock forced =>
    simp only [passStep] at h
    split at h <;> cases h
    · exact Or.inl (by simp [TaskState.forcedRead?, Sys.goto])
    · exact Or.inr (Or.inr (Or.inl ⟨forced, _, rfl, goto_tasks_self _⟩))
  | readViews forced now failbackStable =>
    cases h
    exact Or.inr (Or.inr (Or.inr ⟨forced, now, failbackStable, rfl, goto_tasks_self _⟩))
  | lockActive r =>
    simp only [passStep] at h
    split at h <;> cases h
    simp only [Sys.goto, Function.update_self]
    exact Or.inl (arm_forcedRead? ..)
  -- with the lock in hand the pass has decided
  | keepRead cur =>
    cases cur <;> cases h <;> exact Or.inl (by simp [TaskState.forcedRead?, Sys.goto])
  | _ =>
    simp only [passStep] at h
    repeat' split at h
    all_goals
      cases h
    all_goals exact Or.inl (by simp [TaskState.forcedRead?, Sys.goto])

theorem passStep_agrees {t : TaskId} {alwaysInstall ok : Bool} {point : PassPoint}
    (h : passStep cfg s t alwaysInstall ok point = some s')
    (hs : Agrees cfg s (.passing alwaysInstall point)) : Agrees cfg s' (s'.tasks t) := by
  have hforced := (passStep_frame h).2.1
  have hviews : s'.views cfg = s.views cfg := by
    simp only [Sys.views, (passStep_frame h).1.health]
  suffices hnext : Agrees cfg s (s'.tasks t) from
    ⟨fun f hf => (hnext.forced f hf).trans hforced.symm,
      fun r hr => (hnext.views r hr).trans hviews.symm⟩
  rcases passStep_reads h with hnone | ⟨-, hnext⟩ | ⟨forced, window, rfl, hnext⟩ |
    ⟨forced, now, failbackStable, rfl, hnext⟩
  · exact Agrees.of_none hnone
  all_goals rw [hnext]
  · exact ⟨by simp [TaskState.forcedRead?], by simp [TaskState.reading?]⟩
  · exact ⟨hs.forced, by simp [TaskState.reading?]⟩
  · exact ⟨hs.forced, by simp [TaskState.reading?]⟩

theorem advance_forcedRead? {t : TaskId} {ok : Bool} (h : advance cfg s t ok = some s')
    (hs : ∀ alwaysInstall point, s.tasks t ≠ .passing alwaysInstall point) :
    (s'.tasks t).forcedRead? = none := by
  rcases advance_cases h with ⟨name, p, -, -, -, rfl⟩ | ⟨_, point, hstate, -⟩ | ⟨point, -, h⟩ |
    ⟨name, point, -, h⟩ | ⟨point, -, h⟩
  · simp [TaskState.forcedRead?, Sys.goto]
  · exact absurd hstate (hs _ _)
  · rcases watchStep_next h with ⟨next, h⟩ | h <;> simp [h, TaskState.forcedRead?]
  · rcases forceStep_next h with ⟨next, h⟩ | h | h <;> simp [h, TaskState.forcedRead?]
  · rcases clearStep_next h with ⟨next, h⟩ | h <;> simp [h, TaskState.forcedRead?]

theorem advance_agrees {t : TaskId} {ok : Bool} (h : advance cfg s t ok = some s')
    (hs : Agrees cfg s (s.tasks t)) : Agrees cfg s' (s'.tasks t) := by
  by_cases hpass : ∃ alwaysInstall point, s.tasks t = .passing alwaysInstall point
  · obtain ⟨alwaysInstall, point, hstate⟩ := hpass
    simp only [advance, hstate] at h
    rw [hstate] at hs
    exact passStep_agrees h hs
  · simp only [not_exists] at hpass
    exact Agrees.of_none (advance_forcedRead? h hpass)

/-- **A step that disturbs no waiting pass** leaves what every pass has read in force. -/
theorem agrees_step (hstep : step cfg s e = some s') (hquiet : Undisturbed cfg s s')
    (hs : ∀ t, Agrees cfg s (s.tasks t)) (t : TaskId) : Agrees cfg s' (s'.tasks t) := by
  by_cases ht : e.task? = some t
  · cases e with
    | advance t' ok =>
      cases ht
      exact advance_agrees hstep (hs t)
    | _ =>
      obtain ⟨-, h | h | ⟨name, h⟩ | h | h⟩ := step_begins hstep (by simp) ht
      all_goals
        rw [h]
        exact Agrees.of_none rfl
  · rw [step_tasks_of_ne hstep ht]
    constructor
    · intro forced hforced
      by_cases hsame : s'.forceOverride = s.forceOverride
      · exact ((hs t).forced forced hforced).trans hsame.symm
      · simp [hquiet.override hsame t] at hforced
    · intro r hr
      by_cases hsame : s'.views cfg = s.views cfg
      · exact ((hs t).views r hr).trans hsame.symm
      · simp [hquiet.views hsame t] at hr

theorem freshSwitch_of_agrees (hs : ∀ t, Agrees cfg s (s.tasks t)) : FreshSwitch cfg s e := by
  intro r hr _
  cases e with
  | advance t ok =>
    have hforced := (hs t).forced _ (forcedRead?_of_reading? hr)
    have hviews := (hs t).views r hr
    simp only [Reading.refreshed, ← hforced, ← hviews]
  | _ => cases hr

/-- **No pass overtakes a command** in a run that never disturbs a pass that waits. -/
theorem notOvertaken_of_undisturbed (hinit : Initial s₀)
    (hquiet : AllSteps (step cfg) (fun u _ v => Undisturbed cfg u v) s₀ es) :
    NotOvertaken cfg s₀ es := by
  intro pre e post u v hes hpre _ _
  have hstart : ∀ t, Agrees cfg s₀ (s₀.tasks t) := by
    intro t
    rw [hinit.tasks]
    exact Agrees.of_none rfl
  exact freshSwitch_of_agrees (hpre.invariant (I := fun s => ∀ t, Agrees cfg s (s.tasks t))
    (fun _ _ _ hI hstep hC => agrees_step hstep hC hI)
    (hquiet.restrict (hes ▸ List.prefix_append pre (e :: post))) hstart)

theorem idle_of_run (hinit : Initial s₀) (hrun : Run (step cfg) s₀ es s) {t : TaskId}
    (ht : ∀ e ∈ es, e.task? ≠ some t) : s.tasks t = .idle := by
  rw [tasks_of_run hrun ht, hinit.tasks]

/-- With the events of a run all about the tasks `ts`, only these have to be looked at. -/
theorem forall_tasks_of_run (ts : List TaskId) (hinit : Initial s₀)
    (hrun : Run (step cfg) s₀ es s) (hts : ∀ e ∈ es, ∀ t ∈ e.task?, t ∈ ts) {P : TaskState → Prop}
    (hidle : P .idle) (h : ∀ t ∈ ts, P (s.tasks t)) (t : TaskId) : P (s.tasks t) := by
  by_cases ht : t ∈ ts
  · exact h t ht
  · rwa [idle_of_run hinit hrun fun e he heq => ht (hts e he t heq)]

theorem undisturbed_of_check (ts : List TaskId) (hinit : Initial s₀)
    (hts : ∀ e ∈ es, ∀ t ∈ e.task?, t ∈ ts)
    (h : checkSteps (step cfg) (fun u _ v => decide
      ((v.forceOverride = u.forceOverride ∧ v.views cfg = u.views cfg) ∨
        ∀ t ∈ ts, (u.tasks t).forcedRead? = none)) s₀ es = true) :
    AllSteps (step cfg) (fun u _ v => Undisturbed cfg u v) s₀ es := by
  intro pre e post u v hes hpre hstep
  rcases allSteps_of_check (fun _ _ _ => of_decide_eq_true) h pre e post u v hes hpre hstep with
    ⟨hforced, hviews⟩ | hnone
  · exact ⟨fun h => absurd hforced h, fun h => absurd hviews h⟩
  · have hall := forall_tasks_of_run (P := fun state => state.forcedRead? = none) ts hinit hpre
      (fun e' he' => hts e' (by simp [hes, he'])) rfl hnone
    refine ⟨fun _ => hall, fun _ t => Option.eq_none_iff_forall_ne_some.mpr fun r hr => ?_⟩
    have hread := forcedRead?_of_reading? hr
    rw [hall t] at hread
    cases hread

/-- The operator pins `b` on a gateway with both uplinks up; then `b` goes down. -/
def pinThenFail : List Event :=
  bothUp ++ [.force 0 "b"] ++ turns (.control 0) 12 ++
    [.probe "b" false none (some (.gateway, "no reply"))] ++ turns (.healthLoop "b") 10

theorem notOvertaken_pinThenFail : NotOvertaken twoUplinks coldStart pinThenFail :=
  notOvertaken_of_undisturbed coldStart_initial
    (undisturbed_of_check [.healthLoop "a", .healthLoop "b", .control 0]
      coldStart_initial (by decide) (by decide))

/-- `b`'s pass has read that nothing is pinned and waits for `active`; the operator pins `b`. -/
def pinUnderPass : List Event :=
  bothUp ++ [.tick ⟨100000000000, by decide⟩, .probe "b" true none none] ++
    turns (.healthLoop "b") 3 ++ [.force 0 "b"] ++ turns (.control 0) 11

/-- The step with which the operator's command returns. -/
def forceReturns : Event := .advance (.control 0) true

/-- The step with which `b`'s pass decides. -/
def staleDecision : Event := .advance (.healthLoop "b") true

theorem pinUnderPass_enabled : (exec (step twoUplinks) coldStart
    (pinUnderPass ++ [forceReturns] ++ [staleDecision])).isSome := by
  decide

/-- The pass that waited takes the route from the provider that the operator has just pinned. -/
theorem not_notOvertaken : ¬ ∀ (cfg : Config) (s₀ s : Sys) (es : List Event),
    cfg.Accepted → Initial s₀ → Run (step cfg) s₀ es s → NotOvertaken cfg s₀ es := by
  intro hall
  have hrun := run_get pinUnderPass_enabled
  obtain ⟨u, hu, hdecision⟩ := run_concat_iff.mp hrun
  obtain ⟨v, hv, hreturn⟩ := run_concat_iff.mp hu
  have hreturns : Returns v forceReturns u :=
    ⟨0, true, rfl,
      Run.of_all (P := fun v => (v.tasks (.control 0)).isPass = true) (by decide) hv,
      Run.of_all (P := fun u => u.tasks (.control 0) = .idle) (by decide) hu⟩
  have hfresh := hall twoUplinks coldStart _ _ (by decide) coldStart_initial hrun
    (pinUnderPass ++ [forceReturns]) staleDecision [] u _ (by simp) hu hdecision
    ((someStep_concat_iff hv hreturn).mpr (Or.inr hreturns))
  -- the pass decides on `a`; with the pin in force the decision is to keep `b`
  have hstale := Run.of_all (P := fun u => ∃ r ∈ staleDecision.deciding? u,
    (r.input u.active).decide.isSwitch ∧
      ((r.refreshed twoUplinks u).input u.active).decide ≠ (r.input u.active).decide) (by decide) hu
  obtain ⟨r, hr, hswitch, hne⟩ := hstale
  exact hne (hfresh r hr hswitch)

/-! ## The pin in the database -/

/-- What `Balancer::new` makes of the row `forced_provider`: the override, and the row it leaves. A
pin of a provider that is no longer configured is discarded. -/
def restorePin (cfg : Config) : Option String → Option String × Option String
  | some name =>
    if cfg.providers.any (·.name = name) then (some name, some name) else (none, none)
  | none => (none, none)

/-- The daemon has started from some database. -/
def Restored (cfg : Config) (s : Sys) : Prop :=
  ∃ row, (s.forceOverride, s.forcedRow) = restorePin cfg row

/-- No command stands between its two writes. -/
def Settled (s : Sys) : Prop := ∀ t, (s.tasks t).rowWrite? = none

/-- The row is the pin in memory, and a restart would restore it. -/
structure Persisted (cfg : Config) (s : Sys) : Prop where
  row : s.forcedRow = s.forceOverride
  restores : restorePin cfg s.forcedRow = (s.forceOverride, s.forcedRow)

/-- The pin that a command puts in the database in this step. -/
def Event.rowWrite? (s : Sys) : Event → Option (Option String)
  | .advance t _ => (s.tasks t).rowWrite?
  | _ => none

/-- A write to the database succeeds. -/
def Saved (s : Sys) (e : Event) : Prop := (e.rowWrite? s).isSome → e.Succeeds

instance (s : Sys) (e : Event) : Decidable (Saved s e) := inferInstanceAs (Decidable (_ → _))

/-- A command that writes the row finds its pin in memory still, unless another command is yet to
write the row. -/
def InOrder (s : Sys) (e : Event) : Prop :=
  ∀ pin ∈ e.rowWrite? s,
    pin = s.forceOverride ∨ ∃ t, e.task? ≠ some t ∧ (s.tasks t).rowWrite?.isSome

/-- The pin in memory and the pins that commands are about to put there are configured, and the row
is the pin in memory once every command has written both. -/
structure PinInvariant (cfg : Config) (s : Sys) : Prop where
  known : ∀ name ∈ s.forceOverride, (cfg.provider? name).isSome
  asked : ∀ t name, (s.tasks t).memoryWrite? = some (some name) → (cfg.provider? name).isSome
  settled : Settled s → s.forcedRow = s.forceOverride

/-- The task serves a command and has not reached its pass. -/
def TaskState.isCommand : TaskState → Bool
  | .forcing _ _ => true
  | .clearing _ => true
  | _ => false

theorem memoryWrite?_of_not_isCommand {state : TaskState} (h : state.isCommand = false) :
    state.memoryWrite? = none := by
  cases state <;> first | rfl | cases h

theorem rowWrite?_of_not_isCommand {state : TaskState} (h : state.isCommand = false) :
    state.rowWrite? = none := by
  cases state <;> first | rfl | cases h

theorem memoryWrite?_of_rowWrite? {state : TaskState} {pin : Option String}
    (h : state.rowWrite? = some pin) : state.memoryWrite? = none := by
  unfold TaskState.rowWrite? at h
  split at h <;> first | rfl | cases h

/-- What a step can make of a command: it has been checked, it has written the override, or it is
past its writes. -/
theorem advance_command {t : TaskId} {ok : Bool} (h : advance cfg s t ok = some s') :
    ((s.tasks t).memoryWrite? = none ∧ (s'.tasks t).isCommand = false) ∨
      (∃ name, s.tasks t = .forcing name .check ∧ (cfg.provider? name).isSome ∧
        s'.tasks t = .forcing name .memory) ∨
      (∃ name, s.tasks t = .forcing name .memory ∧ s'.tasks t = .forcing name .store) ∨
      (s.tasks t = .clearing .memory ∧ s'.tasks t = .clearing .store) := by
  rcases advance_cases h with ⟨name, p, -, hstate, -, rfl⟩ | ⟨_, point, hstate, h⟩ |
    ⟨point, hstate, h⟩ | ⟨name, point, hstate, rfl⟩ | ⟨point, hstate, rfl⟩ <;> rw [hstate]
  · exact Or.inl ⟨rfl, by simp [TaskState.isCommand, Sys.goto]⟩
  · refine Or.inl ⟨rfl, ?_⟩
    rcases passStep_next h with ⟨next, h⟩ | h | h <;> simp [h, TaskState.isCommand]
  · refine Or.inl ⟨rfl, ?_⟩
    rcases watchStep_next h with ⟨next, h⟩ | h <;> simp [h, TaskState.isCommand]
  · cases point with
    | check =>
      simp only [forceStep, goto_tasks_self]
      split_ifs with hname
      · exact Or.inr (Or.inl ⟨name, rfl, hname, rfl⟩)
      · exact Or.inl ⟨rfl, rfl⟩
    | memory => exact Or.inr (Or.inr (Or.inl ⟨name, rfl, by simp [forceStep, Sys.goto]⟩))
    | store => exact Or.inl ⟨rfl, by simp [forceStep, TaskState.isCommand, Sys.goto]⟩
  · cases point with
    | memory => exact Or.inr (Or.inr (Or.inr ⟨rfl, by simp [clearStep, Sys.goto]⟩))
    | store => exact Or.inl ⟨rfl, by simp [clearStep, TaskState.isCommand, Sys.goto]⟩

theorem advance_rowWrite? {t : TaskId} {ok : Bool} (h : advance cfg s t ok = some s') :
    (s'.tasks t).rowWrite? = (s.tasks t).memoryWrite? := by
  obtain ⟨hnone, hpast⟩ | ⟨name, hs, -, hs'⟩ | ⟨name, hs, hs'⟩ | ⟨hs, hs'⟩ := advance_command h
  · rw [hnone, rowWrite?_of_not_isCommand hpast]
  all_goals
    rw [hs, hs']
    rfl

theorem advance_memoryWrite? {t : TaskId} {ok : Bool} {name : String}
    (h : advance cfg s t ok = some s') (hname : (s'.tasks t).memoryWrite? = some (some name)) :
    (cfg.provider? name).isSome := by
  obtain ⟨-, hpast⟩ | ⟨name', -, hknown, hs'⟩ | ⟨name', -, hs'⟩ | ⟨-, hs'⟩ := advance_command h
  · rw [memoryWrite?_of_not_isCommand hpast] at hname
    cases hname
  all_goals
    rw [hs'] at hname
    cases hname
  exact hknown

/-- An event that begins a task, or is none of the daemon's doing, writes no pin. -/
theorem step_pins (hstep : step cfg s e = some s') (hne : ∀ t ok, e ≠ .advance t ok) :
    s'.forceOverride = s.forceOverride ∧ s'.forcedRow = s.forcedRow ∧
      ∀ t, (s'.tasks t).rowWrite? = (s.tasks t).rowWrite? ∧
        ∀ name, (s'.tasks t).memoryWrite? = some (some name) →
          (s.tasks t).memoryWrite? = some (some name) := by
  have hpins : s'.forceOverride = s.forceOverride ∧ s'.forcedRow = s.forcedRow := by
    obtain ⟨tasks, health, clock, kernel, rfl⟩ := step_of_ne_advance hstep hne
    exact ⟨rfl, rfl⟩
  refine ⟨hpins.1, hpins.2, fun t => ?_⟩
  by_cases ht : e.task? = some t
  · obtain ⟨hidle, h | h | ⟨name, h⟩ | h | h⟩ := step_begins hstep hne ht
    all_goals
      rw [hidle, h]
      exact ⟨rfl, by simp [TaskState.memoryWrite?]⟩
  · rw [step_tasks_of_ne hstep ht]
    exact ⟨rfl, fun _ h => h⟩

theorem PinInvariant.step (h : PinInvariant cfg s) (hstep : step cfg s e = some s')
    (hC : Saved s e ∧ InOrder s e) : PinInvariant cfg s' := by
  by_cases hne : ∀ t ok, e ≠ .advance t ok
  · obtain ⟨hforced, hrow, hwrites⟩ := step_pins hstep hne
    refine ⟨fun name hname => ?_, fun t name hname => ?_, fun hsettled => ?_⟩
    · exact h.known name (hforced ▸ hname)
    · exact h.asked t name ((hwrites t).2 name hname)
    · rw [hforced, hrow]
      exact h.settled fun t => (hwrites t).1.symm.trans (hsettled t)
  · simp only [not_forall, not_not] at hne
    obtain ⟨t, ok, rfl⟩ := hne
    have hforced := advance_forceOverride hstep
    have hrow := advance_forcedRow hstep
    have hothers := (advance_frame hstep).others
    refine ⟨fun name hname => ?_, fun t' name hname => ?_, fun hsettled => ?_⟩
    · rw [hforced] at hname
      cases hwrite : (s.tasks t).memoryWrite? with
      | none => exact h.known name (by simpa [hwrite] using hname)
      | some pin =>
        obtain rfl : pin = some name := by simpa [hwrite] using hname
        exact h.asked t name hwrite
    · by_cases ht : t' = t
      · subst ht
        exact advance_memoryWrite? hstep hname
      · exact h.asked t' name (by rwa [hothers t' ht] at hname)
    · have hnone : (s.tasks t).memoryWrite? = none :=
        (advance_rowWrite? hstep).symm.trans (hsettled t)
      have hidle : ∀ t' ≠ t, (s.tasks t').rowWrite? = none := fun t' ht => by
        rw [← hothers t' ht]
        exact hsettled t'
      rw [hnone, Option.getD_none] at hforced
      cases hwrite : (s.tasks t).rowWrite? with
      | none =>
        have hsame : s'.forcedRow = s.forcedRow := by simpa [hwrite] using hrow
        rw [hsame, hforced]
        refine h.settled fun t' => ?_
        by_cases ht : t' = t
        · rwa [ht]
        · exact hidle t' ht
      | some pin =>
        obtain rfl : ok = true := hC.1 (by simp [Event.rowWrite?, hwrite])
        have hpin : s'.forcedRow = pin := by simpa [hwrite] using hrow
        rw [hpin, hforced]
        rcases hC.2 pin hwrite with hsame | ⟨t', ht, hpending⟩
        · exact hsame
        · rw [hidle t' fun heq => ht (congrArg some heq.symm)] at hpending
          cases hpending

theorem any_name_iff (name : String) :
    cfg.providers.any (·.name = name) = true ↔ (cfg.provider? name).isSome = true := by
  simp [Config.provider?]

theorem restorePin_of_known {pin : Option String}
    (h : ∀ name ∈ pin, (cfg.provider? name).isSome) : restorePin cfg pin = (pin, pin) := by
  cases pin with
  | none => rfl
  | some name => exact if_pos ((any_name_iff name).mpr (h name rfl))

theorem Restored.eq (h : Restored cfg s) :
    s.forcedRow = s.forceOverride ∧ ∀ name ∈ s.forceOverride, (cfg.provider? name).isSome := by
  obtain ⟨row, hrow⟩ := h
  unfold restorePin at hrow
  split at hrow
  · split at hrow <;> rename_i hname <;> obtain ⟨hforced, hrow⟩ := Prod.mk.inj hrow
    · refine ⟨hrow.trans hforced.symm, fun name h => ?_⟩
      obtain rfl := Option.some.inj (hforced.symm.trans h)
      exact (any_name_iff _).mp hname
    · exact ⟨hrow.trans hforced.symm, by simp [hforced]⟩
  · obtain ⟨hforced, hrow⟩ := Prod.mk.inj hrow
    exact ⟨hrow.trans hforced.symm, by simp [hforced]⟩

theorem PinInvariant.persisted (h : PinInvariant cfg s) (hsettled : Settled s) :
    Persisted cfg s where
  row := h.settled hsettled
  restores := by
    rw [h.settled hsettled]
    exact restorePin_of_known h.known

theorem Initial.pinInvariant (hinit : Initial s) (hrestored : Restored cfg s) :
    PinInvariant cfg s where
  known := hrestored.eq.2
  asked t name hname := by
    rw [hinit.tasks] at hname
    cases hname
  settled _ := hrestored.eq.1

/-- **The pin in the database is the pin in memory**, whenever every command has written both,
exactly in the runs in which the writes to the database come in the order of those in memory. -/
theorem persisted_iff (hinit : Initial s₀) (hrestored : Restored cfg s₀)
    (hsaved : AllSteps (step cfg) (fun u e _ => Saved u e) s₀ es) :
    AllSteps (step cfg) (fun u e _ => InOrder u e) s₀ es ↔
      ∀ pre u, pre <+: es → Run (step cfg) s₀ pre u → Settled u → Persisted cfg u := by
  constructor
  · intro horder pre u hpre hrun hsettled
    have hinv := hrun.invariant (fun _ _ _ hI hstep hC => hI.step hstep hC)
      ((hsaved.and horder).restrict hpre) (hinit.pinInvariant hrestored)
    exact hinv.persisted hsettled
  · intro h pre e post u v hes hrun hstep pin hpin
    by_contra hout
    simp only [not_or, not_exists, not_and, Bool.not_eq_true, Option.isSome_eq_false_iff,
      Option.isNone_iff_eq_none] at hout
    cases e with
    | advance t ok =>
      have hwrite : (u.tasks t).rowWrite? = some pin := hpin
      obtain rfl : ok = true :=
        hsaved pre _ post u v hes hrun hstep (by simp [Event.rowWrite?, hwrite])
      -- this is the last row to be written, and it is not the pin in memory
      have hnone := memoryWrite?_of_rowWrite? hwrite
      have hsettled : Settled v := by
        intro t'
        by_cases ht : t' = t
        · rw [ht, advance_rowWrite? hstep, hnone]
        · rw [(advance_frame hstep).others t' ht]
          exact hout.2 t' fun heq => ht (Option.some.inj heq).symm
      have hsame := (h (pre ++ [.advance t true]) v ⟨post, by rw [hes]; simp⟩
        (Run.concat hrun hstep) hsettled).row
      have hrow : v.forcedRow = pin := by
        simpa [hwrite] using advance_forcedRow hstep
      have hforced : v.forceOverride = u.forceOverride := by
        simpa [hnone] using advance_forceOverride hstep
      exact hout.1 (hrow.symm.trans (hsame.trans hforced))
    | _ => cases hpin

/-- One operator pins `a`, and then another releases the pin. -/
def pinThenRelease : List Event :=
  [.force 0 "a"] ++ turns (.control 0) 8 ++ [.clear 1] ++ turns (.control 1) 7

theorem coldStart_restored : Restored twoUplinks coldStart := ⟨none, rfl⟩

theorem persisted_iff_pinThenRelease :
    AllSteps (step twoUplinks) (fun u e _ => InOrder u e) coldStart pinThenRelease ↔
      ∀ pre u, pre <+: pinThenRelease → Run (step twoUplinks) coldStart pre u → Settled u →
        Persisted twoUplinks u :=
  persisted_iff coldStart_initial coldStart_restored
    (allSteps_of_check (fun _ _ _ => of_decide_eq_true) (by decide))

/-- Two operators pin at once: `a` is written first in memory and last in the database. -/
def crossedPins : List Event :=
  [.force 0 "a", .force 1 "b"] ++ turns (.control 0) 2 ++ turns (.control 1) 3 ++
    turns (.control 0) 6 ++ turns (.control 1) 5

theorem crossedPins_enabled : (exec (step twoUplinks) coldStart crossedPins).isSome := by
  decide

/-- Both commands have returned, `b` is pinned, and a restart would pin `a`. -/
theorem not_persisted : ¬ ∀ (cfg : Config) (s₀ t : Sys) (es : List Event),
    cfg.Accepted → Initial s₀ → Restored cfg s₀ →
      AllSteps (step cfg) (fun u e _ => Saved u e) s₀ es → Run (step cfg) s₀ es t →
        (∀ id, t.tasks (.control id) = .idle) → Persisted cfg t := by
  intro hall
  have hrun := run_get crossedPins_enabled
  have hidle := forall_tasks_of_run (P := fun state => state = .idle)
    [.control 0, .control 1] coldStart_initial hrun (by decide) rfl (by decide)
  have hpersisted := hall twoUplinks coldStart _ _ (by decide) coldStart_initial coldStart_restored
    (allSteps_of_check (fun _ _ _ => of_decide_eq_true) (by decide)) hrun fun id => hidle _
  have hrow := hpersisted.row
  revert hrow
  decide

end Vlb.Balancer
