import Vlb.Health
import Vlb.Lib.Transition
import Vlb.Net.Pin
import Vlb.Net.Router

/-!
# The daemon as a transition system

The health loops, the route watchdog and the control connections, taking turns in any order at the
places where the source awaits or gives up a lock, together with the kernel state they act on.

* `PassPoint`, `passStep`: `reconcile_inner`, from its reads to the lock and through its arms.
* `WatchPoint`, `watchStep`: one turn of `route_watchdog`.
* `forceStep`, `clearStep`: the operator's commands, up to their pass.
* `step`: an event of the daemon or of the world; `none` where the event cannot happen.
* `advance_cases`, `step_begins`: what a step of a task, and its beginning, can be.
* `advance_conntrack`, `step_health`, ..: what each step may change.
* `twoUplinks`, `coldStart`: a small gateway, for the runs on fixed inputs.
-/

namespace Vlb.Balancer

open Time Selection Router Transition

/-- The tasks that act on the route; a control connection serves one request at a time. -/
inductive TaskId
  | healthLoop (provider : String)
  | routeWatchdog
  | control (connection : ℕ)
  deriving DecidableEq

/-! ## Points of the tasks -/

/-- What a pass has read before it asks for `active`. -/
structure Reading where
  forced : Option String
  now : DateTime
  failbackStable : Duration
  views : List ProviderView
  deriving DecidableEq

/-- The `Keep` arm: the active provider, and the route that was found installed. -/
structure KeepArm where
  cur : Provider
  routeBefore : Option InstalledRoute
  deriving DecidableEq

/-- `moved`: the kernel was not forwarding to the active provider. -/
def KeepArm.moved (k : KeepArm) : Bool := ¬ k.routeBefore.any fun r => r.leadsTo k.cur

/-- The `Switch` arm. -/
structure SwitchArm where
  current : Option String
  target : Provider
  reason : String
  now : DateTime
  deriving DecidableEq

/-- Where a pass of `reconcile_inner` stands: what it does next. From `keepRead` on it holds
`active`. -/
inductive PassPoint
  | readForced
  | readClock (forced : Option String)
  | readViews (forced : Option String) (now : DateTime) (failbackStable : Duration)
  | lockActive (r : Reading)
  | keepRead (cur : Option Provider)
  | keepRepin (k : KeepArm)
  | keepVerify (k : KeepArm)
  | keepAssert (k : KeepArm)
  | keepFlush (k : KeepArm)
  | switchRead (a : SwitchArm)
  | switchRepin (a : SwitchArm) (routeUnchanged : Bool)
  | switchInstall (a : SwitchArm) (routeUnchanged : Bool)
  | switchFlush (a : SwitchArm)
  | switchCommit (a : SwitchArm)
  | recordSwitch (now : DateTime)
  | unlock
  deriving DecidableEq

/-- Where a turn of `route_watchdog` stands. From `readExpected` on it holds `active`. -/
inductive WatchPoint
  | lockActive
  | readExpected (active : String)
  | readRoutes (expected : Provider)
  | repair (expected : Provider) (oursPresent : Bool)
  | flush (expected : Provider)
  | record (expected : Provider)
  | unlock
  deriving DecidableEq

/-- Where `force_provider` stands before its pass. -/
inductive ForcePoint
  | check
  | memory
  | store
  deriving DecidableEq

/-- Where `clear_force` stands before its pass. -/
inductive ClearPoint
  | memory
  | store
  deriving DecidableEq

/-- Where a task stands. -/
inductive TaskState
  | idle
  /-- The task has panicked. -/
  | dead
  /-- The provider has just gone down and its connections are still there. -/
  | evicting
  | passing (alwaysInstall : Bool) (point : PassPoint)
  | watching (point : WatchPoint)
  | forcing (name : String) (point : ForcePoint)
  | clearing (point : ClearPoint)
  deriving DecidableEq

/-! ## The state -/

/-- A tracked connection. -/
structure Conn where
  id : ℕ
  mark : BitVec 32
  deriving DecidableEq

/-- One entry of the failover log. -/
structure FailoverRecord where
  timestamp : DateTime
  fromProvider : Option String
  toProvider : String
  reason : String
  deriving DecidableEq

/-- The parts of the kernel that the daemon reads and writes. -/
structure Kernel where
  /-- The default routes, and whether one of them is the daemon's provisional one. -/
  table : Table
  /-- The pinning chain. -/
  chain : List (Netfilter.Rule 32)
  /-- The connection tracking table. -/
  conntrack : List Conn
  deriving DecidableEq

namespace Kernel

/-- `repin`: a no-op with pinning off; a failure leaves the chain as it was. -/
def repin (cfg : Config) (k : Kernel) (target : Provider) (ok : Bool) : Kernel :=
  if cfg.routing.pinConnections ∧ ok then
    { k with chain := Pin.install cfg (cfg.markFor target) k.chain }
  else k

/-- The route goes by the provider. -/
def setDefaultRoute (k : Kernel) (p : Provider) : Kernel :=
  { k with table := k.table.setDefaultRoute p.gateway p.interface }

/-- `conntrack -F`, which may fail. -/
def flushConntrack (k : Kernel) (ok : Bool) : Kernel := if ok then { k with conntrack := [] } else k

/-- `evict_pinned`. -/
def evictPinned (cfg : Config) (k : Kernel) (p : Provider) (ok : Bool) : Kernel :=
  if ok then { k with conntrack := k.conntrack.filter fun c => !Pin.evicts cfg p c.mark } else k

end Kernel

/-- What the tasks share, the kernel, and where each of them stands. -/
structure Sys where
  clock : DateTime
  health : String → ProviderState
  forceOverride : Option String
  /-- The row `forced_provider` of the database. -/
  forcedRow : Option String
  active : Option String
  /-- The task that holds `active`, if it is one that keeps it across an `await`. -/
  activeOwner : Option TaskId
  activeAdopted : Bool
  flap : FlapTracker
  /-- A task panicked while it held the flap tracker. -/
  flapPoisoned : Bool
  /-- What `record_failover` has been called with. -/
  failovers : List FailoverRecord
  /-- The rows of `failover_events`: nobody looks whether an insertion has failed. -/
  failoverRows : List FailoverRecord
  kernel : Kernel
  tasks : TaskId → TaskState

namespace Sys

/-- The task goes on. -/
def goto (s : Sys) (t : TaskId) (next : TaskState) : Sys :=
  { s with tasks := Function.update s.tasks t next }

/-- What selection sees of the providers. -/
def views (cfg : Config) (s : Sys) : List ProviderView :=
  cfg.providers.map fun p =>
    { name := p.name, priority := p.priority, state := (s.health p.name).state
      upSince := (s.health p.name).upSince }

end Sys

/-! ## Reconciling -/

/-- The failback window at that time. -/
def failback (cfg : Config) (flap : FlapTracker) (now : DateTime) : Option Duration :=
  flap.effectiveFailback now (Duration.fromSecs cfg.failover.failbackStableSecs)
    cfg.failover.flapThreshold (Duration.fromSecs cfg.failover.flapWindowSecs)
    (Duration.fromSecs cfg.failover.maxFailbackStableSecs)

/-- What selection is given, for the provider that is active. -/
def Reading.input (r : Reading) (current : Option String) : SelectionInput where
  now := r.now
  current := current
  forced := r.forced
  providers := r.views
  failbackStable := r.failbackStable

/-- The arm of `match decision` that the pass takes with `active` in hand. -/
def arm (cfg : Config) (r : Reading) (current : Option String) : PassPoint :=
  match (r.input current).decide with
  | .keep => .keepRead (current.bind cfg.provider?)
  | .switch target reason =>
    match cfg.provider? target with
    | none => .unlock
    | some target => .switchRead { current, target, reason, now := r.now }
  | _ => .unlock

/-- One step of a pass. `ok` tells whether the command it runs succeeds. -/
def passStep (cfg : Config) (s : Sys) (t : TaskId) (alwaysInstall ok : Bool) :
    PassPoint → Option Sys
  | .readForced => some (s.goto t (.passing alwaysInstall (.readClock s.forceOverride)))
  | .readClock forced =>
    match if s.flapPoisoned then none else failback cfg s.flap s.clock with
    | none => some { s.goto t .dead with flapPoisoned := true }
    | some window => some (s.goto t (.passing alwaysInstall (.readViews forced s.clock window)))
  | .readViews forced now failbackStable =>
    some (s.goto t (.passing alwaysInstall
      (.lockActive { forced, now, failbackStable, views := s.views cfg })))
  | .lockActive r =>
    if s.activeOwner = none then
      some { s.goto t (.passing alwaysInstall (arm cfg r s.active)) with activeOwner := some t }
    else none
  | .keepRead none => some { s.goto t (.passing alwaysInstall .unlock) with activeAdopted := false }
  | .keepRead (some cur) =>
    let routeBefore := if ok then s.kernel.table.currentDefault else none
    some (s.goto t (.passing alwaysInstall (.keepRepin { cur, routeBefore })))
  | .keepRepin k =>
    some { s.goto t (.passing alwaysInstall (.keepVerify k)) with
      kernel := s.kernel.repin cfg k.cur ok }
  | .keepVerify k =>
    if s.activeAdopted then
      if ok then
        some { s.goto t (.passing alwaysInstall (.keepAssert k)) with
          activeAdopted := false
          kernel := s.kernel.setDefaultRoute k.cur }
      else some { s.goto t (.passing alwaysInstall .unlock) with activeAdopted := false }
    else some (s.goto t (.passing alwaysInstall (.keepAssert k)))
  | .keepAssert k =>
    if alwaysInstall ∧ ok then
      some { s.goto t (.passing alwaysInstall (if k.moved then .keepFlush k else .unlock)) with
        kernel := s.kernel.setDefaultRoute k.cur }
    else some (s.goto t (.passing alwaysInstall .unlock))
  | .keepFlush _ =>
    some { s.goto t (.passing alwaysInstall .unlock) with kernel := s.kernel.flushConntrack ok }
  | .switchRead a =>
    let routeUnchanged := ok && s.kernel.table.currentDefault.any fun r => r.leadsTo a.target
    some (s.goto t (.passing alwaysInstall (.switchRepin a routeUnchanged)))
  | .switchRepin a routeUnchanged =>
    some { s.goto t (.passing alwaysInstall (.switchInstall a routeUnchanged)) with
      kernel := s.kernel.repin cfg a.target ok }
  | .switchInstall a routeUnchanged =>
    if ok then
      let next : PassPoint :=
        if routeUnchanged ∨ cfg.routing.pinConnections then .switchCommit a else .switchFlush a
      some { s.goto t (.passing alwaysInstall next) with
        kernel := s.kernel.setDefaultRoute a.target }
    else some (s.goto t (.passing alwaysInstall .unlock))
  | .switchFlush a =>
    some { s.goto t (.passing alwaysInstall (.switchCommit a)) with
      kernel := s.kernel.flushConntrack ok }
  | .switchCommit a =>
    let record : FailoverRecord :=
      { timestamp := a.now, fromProvider := a.current, toProvider := a.target.name
        reason := a.reason }
    let next := if a.current.isSome then .passing alwaysInstall (.recordSwitch a.now) else .idle
    some { s.goto t next with
      failovers := s.failovers ++ [record]
      failoverRows := if ok then s.failoverRows ++ [record] else s.failoverRows
      active := some a.target.name
      activeAdopted := false
      activeOwner := none }
  | .recordSwitch now =>
    if s.flapPoisoned then some (s.goto t .dead)
    else some { s.goto t .idle with flap := s.flap.recordSwitch now }
  | .unlock => some { s.goto t .idle with activeOwner := none }

/-! ## The watchdog and the commands -/

/-- Some default route goes out where the active provider does. -/
def oursPresent (s : Sys) (expected : Provider) : Bool :=
  s.kernel.table.currentDefaults.any fun r => r.leadsTo expected

/-- Some default route at metric 0 goes out elsewhere. -/
def rivalPresent (s : Sys) (expected : Provider) : Bool :=
  s.kernel.table.currentDefaults.any fun r => r.metricOrZero = 0 ∧ ¬ r.leadsTo expected

/-- One step of a turn of the watchdog. -/
def watchStep (cfg : Config) (s : Sys) (t : TaskId) (ok : Bool) : WatchPoint → Option Sys
  | .lockActive =>
    if s.activeOwner = none then
      match s.active with
      | none => some (s.goto t .idle)
      | some active =>
        some { s.goto t (.watching (.readExpected active)) with
          activeOwner := some t }
    else none
  | .readExpected active =>
    match cfg.provider? active with
    | none => some (s.goto t (.watching .unlock))
    | some expected => some (s.goto t (.watching (.readRoutes expected)))
  | .readRoutes expected =>
    if ok ∧ ¬ (oursPresent s expected ∧ ¬ rivalPresent s expected) then
      some (s.goto t (.watching (.repair expected (oursPresent s expected))))
    else some (s.goto t (.watching .unlock))
  | .repair expected oursPresent =>
    if ok then
      some { s.goto t
          (.watching (if oursPresent then .record expected else .flush expected)) with
        kernel := s.kernel.setDefaultRoute expected }
    else some (s.goto t (.watching .unlock))
  | .flush expected =>
    some { s.goto t (.watching (.record expected)) with
      kernel := s.kernel.flushConntrack ok }
  | .record expected =>
    let record : FailoverRecord :=
      { timestamp := s.clock, fromProvider := some expected.name, toProvider := expected.name
        reason := "route watchdog: external tool replaced our default route" }
    some { s.goto t (.watching .unlock) with
      failovers := s.failovers ++ [record]
      failoverRows := if ok then s.failoverRows ++ [record] else s.failoverRows }
  | .unlock => some { s.goto t .idle with activeOwner := none }

/-- One step of `force_provider` before its pass; an unknown provider is refused. -/
def forceStep (cfg : Config) (s : Sys) (t : TaskId) (name : String) (ok : Bool) :
    ForcePoint → Sys
  | .check =>
    s.goto t (if (cfg.provider? name).isSome then .forcing name .memory else .idle)
  | .memory => { s.goto t (.forcing name .store) with forceOverride := some name }
  | .store =>
    { s.goto t (.passing true .readForced) with
      forcedRow := if ok then some name else s.forcedRow }

/-- One step of `clear_force` before its pass. -/
def clearStep (s : Sys) (t : TaskId) (ok : Bool) : ClearPoint → Sys
  | .memory => { s.goto t (.clearing .store) with forceOverride := none }
  | .store =>
    { s.goto t (.passing true .readForced) with forcedRow := if ok then none else s.forcedRow }

/-! ## Events -/

/-- What happens, in any order. -/
inductive Event
  | tick (now : DateTime)
  /-- Somebody else changes the default routes. -/
  | external (routes : List KernelRoute)
  /-- A packet with mark `nfmark` crosses the pinning chain. -/
  | packet (conn : ℕ) (d : Netfilter.Direction) (nfmark : BitVec 32)
  /-- A connection is tracked that did not cross the chain. -/
  | track (conn : ℕ) (mark : BitVec 32)
  | expire (conn : ℕ)
  /-- A probe round of a provider ends. -/
  | probe (provider : String) (success : Bool) (latencyMs : Option UInt64)
      (failure : Option (FailureLayer × String))
  | force (connection : ℕ) (name : String)
  | clear (connection : ℕ)
  | watch
  /-- A task takes its next step; `ok`: the command it runs succeeds. -/
  | advance (t : TaskId) (ok : Bool)
  deriving DecidableEq

/-- The command of the event, if there is one, succeeds. -/
def Event.Succeeds : Event → Prop
  | .advance _ ok => ok = true
  | _ => True

instance : DecidablePred Event.Succeeds := fun e => by
  cases e <;> unfold Event.Succeeds <;> infer_instance

/-- A packet of the connection crosses the chain. -/
def Conn.cross (d : Netfilter.Direction) (chain : List (Netfilter.Rule 32)) (nfmark : BitVec 32)
    (c : Conn) : Conn :=
  { c with mark := (Netfilter.traverse d chain ⟨nfmark, c.mark⟩).connection }

/-- The task takes its next step. -/
def advance (cfg : Config) (s : Sys) (t : TaskId) (ok : Bool) : Option Sys :=
  match s.tasks t with
  | .idle => none
  | .dead => none
  | .evicting =>
    match t with
    | .healthLoop name =>
      (cfg.provider? name).map fun p =>
        { s.goto t (.passing false .readForced) with kernel := s.kernel.evictPinned cfg p ok }
    | _ => none
  | .passing alwaysInstall point => passStep cfg s t alwaysInstall ok point
  | .watching point => watchStep cfg s t ok point
  | .forcing name point => some (forceStep cfg s t name ok point)
  | .clearing point => some (clearStep s t ok point)

/-- The tail of a probe round: the result is applied, and what the health loop does next. -/
def applyProbe (cfg : Config) (s : Sys) (name : String) (r : ProbeRound) : Sys :=
  let before := s.health name
  let after := before.applyProbeResult cfg.health r
  let next := if before.state ≠ after.state ∧ after.state = .down ∧ cfg.routing.pinConnections
    then .evicting else .passing false .readForced
  { s.goto (.healthLoop name) next with health := Function.update s.health name after }

/-- A packet crosses the chain; the first of a connection is in the original direction. -/
def Kernel.packet (k : Kernel) (id : ℕ) (d : Netfilter.Direction) (nfmark : BitVec 32) :
    Option Kernel :=
  if k.conntrack.any (·.id = id) then
    some { k with
      conntrack := k.conntrack.map fun c => if c.id = id then c.cross d k.chain nfmark else c }
  else match d with
    | .original =>
      some { k with conntrack := k.conntrack ++ [Conn.cross d k.chain nfmark ⟨id, 0⟩] }
    | .reply => none

/-- A connection that does not cross the chain has none of the daemon's bits in its mark. -/
def Kernel.track (cfg : Config) (k : Kernel) (id : ℕ) (mark : BitVec 32) : Option Kernel :=
  if ¬ k.conntrack.any (·.id = id) ∧ mark &&& Pin.mask cfg = 0 then
    some { k with conntrack := k.conntrack ++ [⟨id, mark⟩] }
  else none

/-- A connection ends. -/
def Kernel.expire (k : Kernel) (id : ℕ) : Kernel :=
  { k with conntrack := k.conntrack.filter fun c => c.id ≠ id }

/-- What cannot happen in a state gives none. -/
def step (cfg : Config) (s : Sys) : Event → Option Sys
  | .tick now => some { s with clock := now }
  | .external routes =>
    some { s with kernel := { s.kernel with table := { s.kernel.table with routes } } }
  | .packet id d nfmark => (s.kernel.packet id d nfmark).map fun kernel => { s with kernel }
  | .track id mark => (s.kernel.track cfg id mark).map fun kernel => { s with kernel }
  | .expire id => some { s with kernel := s.kernel.expire id }
  | .probe name success latencyMs failure =>
    if (cfg.provider? name).isSome ∧ s.tasks (.healthLoop name) = .idle then
      some (applyProbe cfg s name { now := s.clock, success, latencyMs, failure })
    else none
  | .force id name =>
    if s.tasks (.control id) = .idle then some (s.goto (.control id) (.forcing name .check))
    else none
  | .clear id =>
    if s.tasks (.control id) = .idle then some (s.goto (.control id) (.clearing .memory))
    else none
  | .watch =>
    if s.tasks .routeWatchdog = .idle ∧ cfg.failover.routeWatchdogSecs ≠ 0 then
      some (s.goto .routeWatchdog (.watching .lockActive))
    else none
  | .advance t ok => advance cfg s t ok

/-- A daemon that has just started: nothing probed, no task at work. The kernel and the database
are as they were left. -/
structure Initial (s : Sys) : Prop where
  health : s.health = fun _ => {}
  tasks : s.tasks = fun _ => .idle
  activeOwner : s.activeOwner = none
  flapPoisoned : s.flapPoisoned = false

/-- The task that begins or moves with the event. -/
def Event.task? : Event → Option TaskId
  | .probe name _ _ _ => some (.healthLoop name)
  | .force id _ => some (.control id)
  | .clear id => some (.control id)
  | .watch => some .routeWatchdog
  | .advance t _ => some t
  | _ => none

/-! ## What a step may change -/

variable {cfg : Config} {s s' s₀ : Sys} {t : TaskId} {e : Event} {es : List Event} {ok : Bool}

@[simp] theorem goto_tasks_self (next : TaskState) : (s.goto t next).tasks t = next := by
  simp [Sys.goto]

theorem goto_tasks_of_ne (next : TaskState) {t' : TaskId} (h : t' ≠ t) :
    (s.goto t next).tasks t' = s.tasks t' := by
  simp [Sys.goto, h]

/-- What no step of a task touches. -/
structure Frame (s s' : Sys) (t : TaskId) : Prop where
  clock : s'.clock = s.clock
  health : s'.health = s.health
  others : ∀ t' ≠ t, s'.tasks t' = s.tasks t'

/-- The override that a command is about to put in memory. -/
def TaskState.memoryWrite? : TaskState → Option (Option String)
  | .forcing name .memory => some (some name)
  | .clearing .memory => some none
  | _ => none

/-- The override that a command is about to put in the database. -/
def TaskState.rowWrite? : TaskState → Option (Option String)
  | .forcing name .store => some (some name)
  | .clearing .store => some none
  | _ => none

/-- The task is about to flush the whole table. -/
def TaskState.flushesAll : TaskState → Bool
  | .passing _ (.keepFlush _) => true
  | .passing _ (.switchFlush _) => true
  | .watching (.flush _) => true
  | _ => false

/-- The provider whose connections a task is about to evict. -/
def evicted? (cfg : Config) (s : Sys) : TaskId → Option Provider
  | .healthLoop name => if s.tasks (.healthLoop name) = .evicting then cfg.provider? name else none
  | _ => none

theorem passStep_frame {alwaysInstall : Bool} {point : PassPoint}
    (h : passStep cfg s t alwaysInstall ok point = some s') :
    Frame s s' t ∧ s'.forceOverride = s.forceOverride ∧ s'.forcedRow = s.forcedRow := by
  unfold passStep at h
  repeat' split at h
  all_goals
    cases h
  all_goals refine ⟨⟨rfl, rfl, fun t' ht => ?_⟩, rfl, rfl⟩
  all_goals exact Function.update_of_ne ht _ _

theorem watchStep_frame {point : WatchPoint} (h : watchStep cfg s t ok point = some s') :
    Frame s s' t ∧ s'.forceOverride = s.forceOverride ∧ s'.forcedRow = s.forcedRow := by
  unfold watchStep at h
  repeat' split at h
  all_goals
    cases h
  all_goals refine ⟨⟨rfl, rfl, fun t' ht => ?_⟩, rfl, rfl⟩
  all_goals exact Function.update_of_ne ht _ _

/-- What a pass decides is written where it commits to a switch, and into the flap history where it
records one. -/
theorem passStep_writes {alwaysInstall : Bool} {point : PassPoint}
    (h : passStep cfg s t alwaysInstall ok point = some s') :
    ((∀ a, point ≠ .switchCommit a) → s'.failovers = s.failovers) ∧
      ((∀ now, point ≠ .recordSwitch now) → s'.flap = s.flap) := by
  cases point with
  | switchCommit a =>
    cases h
    exact ⟨fun hne => absurd rfl (hne a), fun _ => rfl⟩
  | recordSwitch now =>
    refine ⟨fun _ => ?_, fun hne => absurd rfl (hne now)⟩
    simp only [passStep] at h
    split at h <;> cases h <;> rfl
  | keepRead cur => cases cur <;> cases h <;> exact ⟨fun _ => rfl, fun _ => rfl⟩
  | _ =>
    simp only [passStep] at h
    repeat' split at h
    all_goals
      cases h
    all_goals exact ⟨fun _ => rfl, fun _ => rfl⟩

theorem watchStep_writes {point : WatchPoint} (h : watchStep cfg s t ok point = some s') :
    s'.active = s.active ∧ s'.flap = s.flap ∧
      ((∀ expected, point ≠ .record expected) → s'.failovers = s.failovers) := by
  cases point with
  | record expected =>
    cases h
    exact ⟨rfl, rfl, fun hne => absurd rfl (hne expected)⟩
  | _ =>
    simp only [watchStep] at h
    repeat' split at h
    all_goals
      cases h
    all_goals exact ⟨rfl, rfl, fun _ => rfl⟩

theorem passStep_conntrack {alwaysInstall : Bool} {point : PassPoint}
    (h : passStep cfg s t alwaysInstall ok point = some s') :
    s'.kernel.conntrack =
      if (TaskState.passing alwaysInstall point).flushesAll ∧ ok then []
      else s.kernel.conntrack := by
  unfold passStep at h
  repeat' split at h
  all_goals
    cases h
  all_goals simp [TaskState.flushesAll, Sys.goto, Kernel.repin, Kernel.setDefaultRoute,
    Kernel.flushConntrack]
  all_goals split_ifs <;> rfl

theorem watchStep_conntrack {point : WatchPoint} (h : watchStep cfg s t ok point = some s') :
    s'.kernel.conntrack =
      if (TaskState.watching point).flushesAll ∧ ok then [] else s.kernel.conntrack := by
  unfold watchStep at h
  repeat' split at h
  all_goals
    cases h
  all_goals simp [TaskState.flushesAll, Sys.goto, Kernel.setDefaultRoute, Kernel.flushConntrack]
  all_goals split_ifs <;> rfl

theorem passStep_next {alwaysInstall : Bool} {point : PassPoint}
    (h : passStep cfg s t alwaysInstall ok point = some s') :
    (∃ next, s'.tasks t = .passing alwaysInstall next) ∨ s'.tasks t = .idle ∨
      s'.tasks t = .dead := by
  unfold passStep at h
  repeat' split at h
  all_goals
    cases h
  all_goals simp [Sys.goto]

theorem watchStep_next {point : WatchPoint} (h : watchStep cfg s t ok point = some s') :
    (∃ next, s'.tasks t = .watching next) ∨ s'.tasks t = .idle := by
  unfold watchStep at h
  repeat' split at h
  all_goals
    cases h
  all_goals simp [Sys.goto]

theorem forceStep_next {name : String} {point : ForcePoint}
    (h : s' = forceStep cfg s t name ok point) :
    (∃ next, s'.tasks t = .forcing name next) ∨ s'.tasks t = .passing true .readForced ∨
      s'.tasks t = .idle := by
  subst h
  cases point with
  | check =>
    simp only [forceStep, goto_tasks_self]
    split_ifs <;> simp
  | memory => simp [forceStep, Sys.goto]
  | store => simp [forceStep, Sys.goto]

theorem clearStep_next {point : ClearPoint} (h : s' = clearStep s t ok point) :
    (∃ next, s'.tasks t = .clearing next) ∨ s'.tasks t = .passing true .readForced := by
  subst h
  cases point <;> simp [clearStep, Sys.goto]

/-- **What a task's step can be.** -/
theorem advance_cases (h : advance cfg s t ok = some s') :
    (∃ name p, t = .healthLoop name ∧ s.tasks t = .evicting ∧ cfg.provider? name = some p ∧
        s' = { s.goto t (.passing false .readForced) with
          kernel := s.kernel.evictPinned cfg p ok }) ∨
      (∃ alwaysInstall point, s.tasks t = .passing alwaysInstall point ∧
        passStep cfg s t alwaysInstall ok point = some s') ∨
      (∃ point, s.tasks t = .watching point ∧ watchStep cfg s t ok point = some s') ∨
      (∃ name point, s.tasks t = .forcing name point ∧ s' = forceStep cfg s t name ok point) ∨
      (∃ point, s.tasks t = .clearing point ∧ s' = clearStep s t ok point) := by
  unfold advance at h
  split at h <;> rename_i hstate
  · cases h
  · cases h
  · split at h
    · rename_i name
      obtain ⟨p, hp, rfl⟩ := Option.map_eq_some_iff.mp h
      exact Or.inl ⟨name, p, rfl, hstate, hp, rfl⟩
    · cases h
  · exact Or.inr (Or.inl ⟨_, _, hstate, h⟩)
  · exact Or.inr (Or.inr (Or.inl ⟨_, hstate, h⟩))
  · exact Or.inr (Or.inr (Or.inr (Or.inl ⟨_, _, hstate, (Option.some.inj h).symm⟩)))
  · exact Or.inr (Or.inr (Or.inr (Or.inr ⟨_, hstate, (Option.some.inj h).symm⟩)))

theorem forceStep_frame (name : String) (point : ForcePoint) :
    Frame s (forceStep cfg s t name ok point) t := by
  cases point <;> exact ⟨rfl, rfl, fun t' ht => Function.update_of_ne ht _ _⟩

theorem clearStep_frame (point : ClearPoint) : Frame s (clearStep s t ok point) t := by
  cases point <;> exact ⟨rfl, rfl, fun t' ht => Function.update_of_ne ht _ _⟩

theorem advance_frame (h : advance cfg s t ok = some s') : Frame s s' t := by
  rcases advance_cases h with ⟨name, p, -, -, -, rfl⟩ | ⟨_, point, -, h⟩ | ⟨point, -, h⟩ |
    ⟨name, point, -, rfl⟩ | ⟨point, -, rfl⟩
  · exact ⟨rfl, rfl, fun t' ht => Function.update_of_ne ht _ _⟩
  · exact (passStep_frame h).1
  · exact (watchStep_frame h).1
  · exact forceStep_frame name point
  · exact clearStep_frame point

theorem step_tasks_of_ne (hstep : step cfg s e = some s') (ht : e.task? ≠ some t) :
    s'.tasks t = s.tasks t := by
  cases e with
  | tick | external | expire =>
    cases hstep
    rfl
  | packet | track =>
    obtain ⟨k, -, rfl⟩ := Option.map_eq_some_iff.mp hstep
    rfl
  | probe | force | clear | watch =>
    simp only [step] at hstep
    split at hstep <;> cases hstep
    exact goto_tasks_of_ne _ fun heq => ht (congrArg some heq.symm)
  | advance t' ok => exact (advance_frame hstep).others t fun heq => ht (congrArg some heq.symm)

theorem tasks_of_run (hrun : Run (step cfg) s₀ es s) (ht : ∀ e ∈ es, e.task? ≠ some t) :
    s.tasks t = s₀.tasks t := by
  refine hrun.invariant (I := fun s => s.tasks t = s₀.tasks t) (C := fun _ e _ => e.task? ≠ some t)
    (fun _ _ _ hI hstep hC => (step_tasks_of_ne hstep hC).trans hI) ?_ rfl
  intro pre e post u v hes _ _
  exact ht e (by simp [hes])

theorem views_names (cfg : Config) (s : Sys) :
    (s.views cfg).map ProviderView.name = cfg.providers.map Provider.name := by
  simp [Sys.views]

/-- An event that begins a task, or is none of the daemon's doing, leaves alone what the tasks
write. -/
theorem step_of_ne_advance (hstep : step cfg s e = some s') (hne : ∀ t ok, e ≠ .advance t ok) :
    ∃ tasks health clock kernel, s' = { s with tasks, health, clock, kernel } := by
  cases e with
  | tick | external | expire =>
    cases hstep
    exact ⟨_, _, _, _, rfl⟩
  | packet | track =>
    obtain ⟨k, -, rfl⟩ := Option.map_eq_some_iff.mp hstep
    exact ⟨_, _, _, _, rfl⟩
  | probe | force | clear | watch =>
    simp only [step] at hstep
    split at hstep <;> cases hstep
    exact ⟨_, _, _, _, rfl⟩
  | advance t ok => exact absurd rfl (hne t ok)

theorem step_health (hstep : step cfg s e = some s') :
    s'.health = s.health ∨ ∃ name success latencyMs failure,
      e = .probe name success latencyMs failure ∧ s.tasks (.healthLoop name) = .idle ∧
      s' = applyProbe cfg s name { now := s.clock, success, latencyMs, failure } := by
  cases e with
  | tick | external | expire =>
    cases hstep
    exact Or.inl rfl
  | packet | track =>
    obtain ⟨k, -, rfl⟩ := Option.map_eq_some_iff.mp hstep
    exact Or.inl rfl
  | force | clear | watch =>
    simp only [step] at hstep
    split at hstep <;> cases hstep
    exact Or.inl rfl
  | probe =>
    simp only [step] at hstep
    split at hstep <;> rename_i hidle <;> cases hstep
    exact Or.inr ⟨_, _, _, _, rfl, hidle.2, rfl⟩
  | advance => exact Or.inl (advance_frame hstep).health

theorem step_begins (hstep : step cfg s e = some s') (hne : ∀ t ok, e ≠ .advance t ok)
    (ht : e.task? = some t) :
    s.tasks t = .idle ∧
      (s'.tasks t = .evicting ∨ s'.tasks t = .passing false .readForced ∨
        (∃ name, s'.tasks t = .forcing name .check) ∨ s'.tasks t = .clearing .memory ∨
        s'.tasks t = .watching .lockActive) := by
  cases e with
  | tick | external | expire | packet | track => cases ht
  | advance t' ok => exact absurd rfl (hne t' ok)
  | probe =>
    cases ht
    simp only [step] at hstep
    split at hstep <;> rename_i hidle <;> cases hstep
    refine ⟨hidle.2, ?_⟩
    simp only [applyProbe, goto_tasks_self]
    split_ifs
    · exact Or.inl rfl
    · exact Or.inr (Or.inl rfl)
  | force id name =>
    cases ht
    simp only [step] at hstep
    split at hstep <;> rename_i hidle <;> cases hstep
    exact ⟨hidle, Or.inr (Or.inr (Or.inl ⟨name, goto_tasks_self _⟩))⟩
  | clear =>
    cases ht
    simp only [step] at hstep
    split at hstep <;> rename_i hidle <;> cases hstep
    exact ⟨hidle, Or.inr (Or.inr (Or.inr (Or.inl (goto_tasks_self _))))⟩
  | watch =>
    cases ht
    simp only [step] at hstep
    split at hstep <;> rename_i hidle <;> cases hstep
    exact ⟨hidle.1, Or.inr (Or.inr (Or.inr (Or.inr (goto_tasks_self _))))⟩

theorem advance_ne_evicting (h : advance cfg s t ok = some s') : s'.tasks t ≠ .evicting := by
  rcases advance_cases h with ⟨name, p, -, -, -, rfl⟩ | ⟨_, point, -, h⟩ | ⟨point, -, h⟩ |
    ⟨name, point, -, h⟩ | ⟨point, -, h⟩
  · simp [Sys.goto]
  · rcases passStep_next h with ⟨next, h⟩ | h | h <;> simp [h]
  · rcases watchStep_next h with ⟨next, h⟩ | h <;> simp [h]
  · rcases forceStep_next h with ⟨next, h⟩ | h | h <;> simp [h]
  · rcases clearStep_next h with ⟨next, h⟩ | h <;> simp [h]

theorem advance_forceOverride (h : advance cfg s t ok = some s') :
    s'.forceOverride = (s.tasks t).memoryWrite?.getD s.forceOverride := by
  rcases advance_cases h with ⟨name, p, -, hstate, -, rfl⟩ | ⟨_, point, hstate, h⟩ |
    ⟨point, hstate, h⟩ | ⟨name, point, hstate, rfl⟩ | ⟨point, hstate, rfl⟩ <;> rw [hstate]
  · rfl
  · exact (passStep_frame h).2.1
  · exact (watchStep_frame h).2.1
  · cases point <;> rfl
  · cases point <;> rfl

theorem advance_forcedRow (h : advance cfg s t ok = some s') :
    s'.forcedRow = if ok then (s.tasks t).rowWrite?.getD s.forcedRow else s.forcedRow := by
  rcases advance_cases h with ⟨name, p, -, hstate, -, rfl⟩ | ⟨_, point, hstate, h⟩ |
    ⟨point, hstate, h⟩ | ⟨name, point, hstate, rfl⟩ | ⟨point, hstate, rfl⟩ <;> rw [hstate]
  · simp [TaskState.rowWrite?, Sys.goto]
  · simpa [TaskState.rowWrite?] using (passStep_frame h).2.2
  · simpa [TaskState.rowWrite?] using (watchStep_frame h).2.2
  · cases point <;> simp [TaskState.rowWrite?, forceStep, Sys.goto]
  · cases point <;> simp [TaskState.rowWrite?, clearStep, Sys.goto]

/-- **What a task removes from the table**: everything, or what the eviction of a provider
matches. -/
theorem advance_conntrack (h : advance cfg s t ok = some s') :
    s'.kernel.conntrack =
      if (s.tasks t).flushesAll ∧ ok then []
      else match evicted? cfg s t with
        | some p => (s.kernel.evictPinned cfg p ok).conntrack
        | none => s.kernel.conntrack := by
  have hnone : s.tasks t ≠ .evicting → evicted? cfg s t = none := by
    intro hne
    cases t with
    | healthLoop name => simp [evicted?, hne]
    | routeWatchdog => rfl
    | control id => rfl
  rcases advance_cases h with ⟨name, p, rfl, hstate, hp, rfl⟩ | ⟨_, point, hstate, h⟩ |
    ⟨point, hstate, h⟩ | ⟨name, point, hstate, rfl⟩ | ⟨point, hstate, rfl⟩
  · simp [hstate, TaskState.flushesAll, evicted?, hp]
  · rw [hnone (by simp [hstate]), hstate]
    exact passStep_conntrack h
  · rw [hnone (by simp [hstate]), hstate]
    exact watchStep_conntrack h
  · rw [hnone (by simp [hstate]), hstate]
    cases point <;> rfl
  · rw [hnone (by simp [hstate]), hstate]
    cases point <;> rfl

/-! ## A small gateway -/

/-- Two uplinks on one interface, the first preferred; one probe round decides. -/
def twoUplinks : Config where
  providers :=
    [{ name := "a", gateway := Ipv4Addr.ofOctets 10 0 0 1, interface := "wan", priority := 1 },
      { name := "b", gateway := Ipv4Addr.ofOctets 10 0 0 2, interface := "wan", priority := 2 }]
  lanInterface := some "lan"
  health := { failureThreshold := 1, successThreshold := 1 }
  routing := { pinConnections := true }

/-- A daemon on a box without a default route. -/
def coldStart : Sys where
  clock := Time.DateTime.epoch
  health := fun _ => {}
  forceOverride := none
  forcedRow := none
  active := none
  activeOwner := none
  activeAdopted := false
  flap := {}
  flapPoisoned := false
  failovers := []
  failoverRows := []
  kernel := { table := { routes := [], ownsBootstrap := false }, chain := [], conntrack := [] }
  tasks := fun _ => .idle

theorem coldStart_initial : Initial coldStart := ⟨rfl, rfl, rfl, rfl⟩

/-- The task takes `n` steps, and its commands succeed. -/
def turns (t : TaskId) (n : ℕ) : List Event := List.replicate n (.advance t true)

/-- Both uplinks come up, `a` first; a connection is born on `a`. -/
def bothUp : List Event :=
  [.probe "a" true none none] ++ turns (.healthLoop "a") 8 ++
    [.probe "b" true none none] ++ turns (.healthLoop "b") 9 ++ [.packet 7 .original 0]

end Vlb.Balancer
