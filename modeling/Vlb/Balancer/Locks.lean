import Vlb.Lib.FairLock

/-!
# The locks of the balancer

`providers`, `active` and `force_override` are tokio read-write locks, which are fair: a reader
queues behind a writer that came before it. This file lists the tasks that take them, each as the
sequence of its acquisitions and releases.

* `Task`, `rounds`: a health loop for each provider, the route watchdog, the status loop, the
  traffic loop, and any number of control connections.
* `Nests`: which lock is asked for while which is held. Every task but one takes `providers` before
  `active`; `routeWatchdog` takes `active` before `providers`.
* `deadlocked_iff`: the tasks deadlock exactly when the two orders meet.
* **`closes_iff_deadlock`**: a run is free of deadlock exactly when no step closes a cycle.
* `deadlockFree_unwatched`: without the watchdog there is no deadlock.
-/

namespace Vlb.Locks

open FairLock Transition

/-- The read-write locks of the balancer that are held across an `await`. -/
inductive LockId
  | providers
  | active
  | forceOverride
  deriving DecidableEq

instance : Fintype LockId :=
  ⟨{.providers, .active, .forceOverride}, fun l => by cases l <;> simp⟩

/-- The daemon's tasks: one health loop for each of `n` providers, and the others. -/
inductive Task (n : ℕ)
  | healthLoop (i : Fin n)
  | routeWatchdog
  | statusLoop
  | trafficLoop
  | control (connection : ℕ)
  deriving DecidableEq

/-! ## The operations of each function -/

/-- A lock taken and given back with nothing awaited in between. -/
def once (l : LockId) (m : Mode) : List (Op LockId) := [.acquire l m, .release l]

/-- `publish_status`: `providers` is held while the other two are read. -/
def publishStatus : List (Op LockId) :=
  .acquire .providers .read :: once .active .read ++ once .forceOverride .read ++
    [.release .providers]

/-- `snapshot` reads the three in the same way. -/
def snapshot : List (Op LockId) :=
  .acquire .providers .read :: once .active .read ++ once .forceOverride .read ++
    [.release .providers]

/-- The canary's result is put into the provider. -/
def runCanary : List (Op LockId) := once .providers .write

/-- The active provider is read, and the result is put into the measured one. -/
def runThroughput : List (Op LockId) := once .active .read ++ once .providers .write

def applyProbeResult : List (Op LockId) := once .providers .write

/-- `reconcile_inner`: the override and the views are read before `active` is taken. -/
def reconcileInner : List (Op LockId) :=
  once .forceOverride .read ++ once .providers .read ++ once .active .write

/-- One turn of `health_loop`. The canary runs when it is due; throughput is measured, and its
result read, only while no other layer has failed. -/
def healthRound (canaryDue passing throughputDue : Bool) : List (Op LockId) :=
  (if canaryDue then runCanary else []) ++ once .providers .read ++ once .providers .write ++
    (if passing && throughputDue then runThroughput else []) ++
    (if passing then once .providers .read else []) ++
    applyProbeResult ++ reconcileInner ++ publishStatus

/-- One turn of `route_watchdog`: `active` is held for the whole check and repair. -/
def watchdogRound (activeSet : Bool) : List (Op LockId) :=
  .acquire .active .read :: (if activeSet then once .providers .read else []) ++ [.release .active]

/-- The three locks, one after the other. -/
def statusFingerprint : List (Op LockId) :=
  once .active .read ++ once .forceOverride .read ++ once .providers .read

/-- `providers` is kept while `active` is read. -/
def printStatus : List (Op LockId) :=
  .acquire .providers .read :: once .active .read ++ [.release .providers]

/-- One turn of `status_loop`. -/
def statusRound (due : Bool) : List (Op LockId) :=
  statusFingerprint ++ if due then printStatus else []

/-- `force_provider`, for a known provider or not; a failed reconcile returns before the status is
published. -/
def forceProvider (known reconciled : Bool) : List (Op LockId) :=
  once .providers .read ++
    if known then
      once .forceOverride .write ++ reconcileInner ++ if reconciled then publishStatus else []
    else []

/-- The pin is gone before the pass begins. -/
def clearForce : List (Op LockId) := once .forceOverride .write ++ reconcileInner ++ publishStatus

/-- The turns `health_loop` may take; its first act is to copy its provider's configuration. -/
def healthRounds : List (List (Op LockId)) := once .providers .read :: do
  let canaryDue ← [false, true]
  let passing ← [false, true]
  let throughputDue ← [false, true]
  [healthRound canaryDue passing throughputDue]

/-- What each task may run next, for as long as the daemon lives. The watchdog is started only if
`route_watchdog_secs` is not 0. -/
def rounds (watchdog : Bool) {n : ℕ} : Task n → List (List (Op LockId))
  | .healthLoop _ => healthRounds
  | .routeWatchdog => if watchdog then [watchdogRound false, watchdogRound true] else []
  | .statusLoop => [statusRound false, statusRound true]
  | .trafficLoop => [once .active .read]
  | .control _ => [snapshot, clearForce, forceProvider false false, forceProvider true false,
      forceProvider true true]

/-- Which lock may be asked for (second) while which is held (first). -/
def Nests (watchdog : Bool) : LockId → LockId → Prop
  | .providers, .active => True
  | .providers, .forceOverride => True
  | .active, .providers => watchdog = true
  | _, _ => False

instance (watchdog : Bool) : DecidableRel (Nests watchdog) := fun l l' => by
  cases l <;> cases l' <;> unfold Nests <;> infer_instance

/-- **The lock discipline of every task.** -/
theorem rounds_balanced (watchdog : Bool) {n : ℕ} (t : Task n) :
    ∀ ops ∈ rounds watchdog t, Balanced (Nests watchdog) ops := by
  cases t with
  | healthLoop i =>
    have hall : ∀ watchdog, ∀ ops ∈ healthRounds, Balanced (Nests watchdog) ops := by decide
    exact hall watchdog
  | routeWatchdog =>
    have hall : ∀ watchdog, ∀ ops ∈ if watchdog then [watchdogRound false, watchdogRound true] else [],
        Balanced (Nests watchdog) ops := by decide
    exact hall watchdog
  | statusLoop =>
    have hall : ∀ watchdog, ∀ ops ∈ [statusRound false, statusRound true],
        Balanced (Nests watchdog) ops := by decide
    exact hall watchdog
  | trafficLoop =>
    have hall : ∀ watchdog, ∀ ops ∈ [once LockId.active .read], Balanced (Nests watchdog) ops := by
      decide
    exact hall watchdog
  | control k =>
    have hall : ∀ watchdog, ∀ ops ∈ [snapshot, clearForce, forceProvider false false,
        forceProvider true false, forceProvider true true], Balanced (Nests watchdog) ops := by decide
    exact hall watchdog

/-! ## Deadlocks -/

/-- The state of the locks and of every task's program. -/
abbrev LockState (n : ℕ) : Type := State (Task n) LockId

/-- All tasks idle, all locks free. -/
abbrev start (n : ℕ) : LockState n := init (Task n) LockId

/-- **Freedom from deadlock**: no reachable state has a cycle of waiting tasks. -/
def DeadlockFree (watchdog : Bool) (n : ℕ) : Prop :=
  ∀ es s, Run (step (rounds watchdog)) (start n) es s → ¬ Deadlocked s

variable {watchdog : Bool} {n : ℕ} {s : LockState n}

/-- **Where a deadlock comes from**: one task holds `providers` and is queued for `active`, and
another holds `active` and is queued for `providers`. -/
theorem deadlocked_iff (h : Inv (Nests watchdog) s) : Deadlocked s ↔ Opposed s .active .providers := by
  constructor
  · intro hd
    let activeFirst : LockId → ℕ
      | .active => 0
      | .providers => 1
      | .forceOverride => 2
    let providersFirst : LockId → ℕ
      | .providers => 0
      | .active => 1
      | .forceOverride => 2
    obtain ⟨t, l, l', ht, ht', hle⟩ := hd.inversion h activeFirst
    obtain ⟨u, k, k', hu, hu', hle'⟩ := hd.inversion h providersFirst
    have hn := h.rel_of_waits ht ht'
    have hn' := h.rel_of_waits hu hu'
    refine ⟨⟨t, ?_⟩, u, ?_⟩
    · cases l <;> cases l' <;> first | exact hn.elim | exact ⟨ht, ht'⟩ | simp [activeFirst] at hle
    · cases k <;> cases k' <;>
        first | exact hn'.elim | exact ⟨hu, hu'⟩ | simp [providersFirst] at hle'
  · rintro ⟨⟨t, ht, ht'⟩, u, hu, hu'⟩
    exact Deadlocked.of_inversion ht ht' hu hu'

theorem inv_of_run {es : List (Move (Task n) LockId)}
    (h : Run (step (rounds watchdog)) (start n) es s) : Inv (Nests watchdog) s :=
  h.preserves (fun _ _ _ hI hstep => hI.of_step (rounds_balanced watchdog) hstep)
    (inv_init (Nests watchdog))

/-- A step that closes a deadlock: a task that holds one of `active` and `providers` asks for the
other, finds it taken or somebody queued for it, and some task is queued the other way round. -/
def Closes (s : LockState n) (mv : Move (Task n) LockId) : Prop :=
  Crosses .active .providers s mv ∨ Crosses .providers .active s mv

/-- **A run is free of deadlock exactly when none of its steps closes one.** -/
theorem closes_iff_deadlock (watchdog : Bool) (n : ℕ) (es : List (Move (Task n) LockId)) :
    AllSteps (step (rounds watchdog)) (fun s mv _ => ¬ Closes s mv) (start n) es ↔
      ∀ pre post s, es = pre ++ post → Run (step (rounds watchdog)) (start n) pre s →
        ¬ Deadlocked s := by
  have hfree : ¬ Opposed (start n) .active .providers := by
    rintro ⟨⟨t, ⟨m, hm⟩, _⟩, _⟩
    simp [start, init] at hm
  have key := allSteps_not_crosses_iff (rounds_balanced watchdog) LockId.active .providers
    (inv_init (Nests watchdog)) hfree es
  simp only [Closes, not_or]
  rw [key]
  refine forall₄_congr fun pre post s hes => forall_congr' fun hrun => not_congr ?_
  exact (deadlocked_iff (inv_of_run hrun)).symm

/-- The schedule of a deadlock with two providers. A health loop is about to take `active`, which
the watchdog holds; a status request holds `providers`, which the other health loop wants; then
the request asks for `active` and the watchdog for `providers`. -/
def deadlockSchedule : List (Move (Task 2) LockId) :=
  .start (.healthLoop 1) (healthRound false false false) ::
    List.replicate 10 (.run (.healthLoop 1)) ++
  [.start .routeWatchdog (watchdogRound true), .run .routeWatchdog, .run (.healthLoop 1),
    .start (.control 0) snapshot, .run (.control 0),
    .start (.healthLoop 0) (healthRound false false false), .run (.healthLoop 0),
    .run (.healthLoop 0), .run (.healthLoop 0), .run (.control 0), .run .routeWatchdog]

theorem deadlockSchedule_enabled :
    (exec (step (rounds true)) (start 2) deadlockSchedule).isSome := by decide

theorem not_deadlockFree : ¬ ∀ n, DeadlockFree true n := by
  intro h
  have hrun := run_iff_exec.mpr (Option.some_get deadlockSchedule_enabled).symm
  refine h 2 deadlockSchedule _ hrun ((deadlocked_iff (inv_of_run hrun)).mpr ?_)
  refine ⟨⟨.control 0, ⟨.read, ?_⟩, ⟨.read, ?_⟩⟩, .routeWatchdog, ⟨.read, ?_⟩, ⟨.read, ?_⟩⟩ <;>
    decide

/-- **Without the watchdog there is no deadlock**: everybody else takes `providers` first. -/
theorem deadlockFree_unwatched (n : ℕ) : DeadlockFree false n := by
  intro es s hrun hd
  have h := inv_of_run hrun
  obtain ⟨-, u, hu, hu'⟩ := (deadlocked_iff h).mp hd
  exact Bool.false_ne_true (h.rel_of_waits hu hu')

end Vlb.Locks
