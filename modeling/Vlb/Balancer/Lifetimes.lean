import Vlb.Balancer.Controller
import Vlb.Balancer.Watchdog
import Vlb.Net.Bootstrap

/-!
# One daemon after another

The daemon is stopped at any moment, in the middle of a pass too, and started again, perhaps with
another configuration. The kernel and the database are as it left them.

* `Sys.restart`: what a starting daemon makes of them.
* `AtRest`: the kernel forwards to the active provider, and stamps new connections for it.
* `Placed`, `Stage`: the same by the listing of the routes, and how far the kernel has got at each
  point of a pass.
* **`atRest_of_run`**: between the passes the kernel is at rest, over any number of lifetimes.
-/

namespace Vlb.Balancer

open Transition Time Selection Router

variable {cfg : Config} {s s' : Sys} {t : TaskId} {e : Event} {ok : Bool}

/-! ## Starting -/

/-- What the world answers to a starting daemon. -/
structure Boot where
  now : DateTime
  /-- How the listing of the default routes ends that decides on the provisional one. -/
  shown : Listing
  /-- The provisional route can be installed. -/
  installs : Bool
  /-- The default route can be read, for the adoption. -/
  readable : Bool
  /-- The row of the pin can be read. -/
  forcedReadable : Bool
  flap : FlapTracker

/-- `prepare` and `Balancer::new`, as far as the route goes. -/
def Sys.restart (cfg : Config) (s : Sys) (b : Boot) : Sys :=
  let table := ensureBootstrapDefault cfg b.shown b.installs s.kernel.table
  let incumbent := if b.readable then adopted cfg table else none
  let known := s.forcedRow.filter fun name => (cfg.provider? name).isSome
  { clock := b.now
    health := fun _ => {}
    forceOverride := if b.forcedReadable then known else none
    forcedRow := if b.forcedReadable then known else s.forcedRow
    active := incumbent.map Provider.name
    activeOwner := none
    activeAdopted := incumbent.isSome
    flap := b.flap
    flapPoisoned := false
    failovers := s.failovers
    failoverRows := s.failoverRows
    kernel := { s.kernel with table }
    tasks := fun _ => .idle }

theorem restart_initial (cfg : Config) (s : Sys) (b : Boot) : Initial (s.restart cfg b) :=
  ⟨rfl, rfl, rfl, rfl⟩

/-- The daemon that runs, and its configuration. -/
structure Lifetime where
  cfg : Config
  sys : Sys

namespace Lifetime

/-- A step of the daemon that runs, or the start of the next one. -/
inductive Event
  | daemon (e : Balancer.Event)
  | restart (cfg : Config) (b : Boot)

/-- A daemon does not start with a configuration that it does not accept. -/
def step (l : Lifetime) : Event → Option Lifetime
  | .daemon e => (Balancer.step l.cfg l.sys e).map fun sys => { l with sys }
  | .restart cfg b => if cfg.Accepted then some { cfg, sys := l.sys.restart cfg b } else none

/-- The commands of the daemon succeed, and nobody else changes the default routes. -/
def Undisturbed (_ : Lifetime) (e : Event) (_ : Lifetime) : Prop :=
  match e with
  | .daemon (.external _) => False
  | .daemon e => e.Succeeds
  | .restart _ _ => True

end Lifetime

/-! ## The kernel and the active provider -/

/-- New connections are stamped for `p`. -/
def StampsFor (cfg : Config) (s : Sys) (p : Provider) : Prop :=
  cfg.routing.pinConnections = true → cfg.lanInterface.isSome = true →
    s.kernel.chain = Pin.rules cfg (cfg.markFor p)

/-- The kernel forwards to the active provider, whichever route it follows, and new connections are
stamped for it, unless it is one that was taken over and that the daemon has decided nothing
about. -/
def AtRest (cfg : Config) (s : Sys) : Prop :=
  ∀ name, s.active = some name → ∃ p, cfg.provider? name = some p ∧
    s.kernel.table.routes ≠ [] ∧ Follows s.kernel.table.routes p ∧
      (s.activeAdopted = false → StampsFor cfg s p)

/-- `AtRest` by the listing of the routes. -/
def Placed (cfg : Config) (s : Sys) : Prop :=
  ∀ name, s.active = some name → ∃ p, cfg.provider? name = some p ∧
    ForwardsTo s.kernel.table p ∧ (s.activeAdopted = false → StampsFor cfg s p)

/-- How far the kernel has got while a pass is at work. -/
def Stage (cfg : Config) (s : Sys) : TaskState → Prop
  | .passing _ (.keepVerify k) | .passing _ (.keepAssert k) | .passing _ (.keepFlush k) =>
    ForwardsTo s.kernel.table k.cur ∧ StampsFor cfg s k.cur
  | .passing _ (.switchInstall a _) => StampsFor cfg s a.target
  | .passing _ (.switchFlush a) | .passing _ (.switchCommit a) =>
    ForwardsTo s.kernel.table a.target ∧ StampsFor cfg s a.target
  | _ => Placed cfg s

theorem stage_of_not_holds {state : TaskState} (h : state.holds = false) :
    Stage cfg s state ↔ Placed cfg s := by
  cases state with
  | passing alwaysInstall point =>
    cases point <;> first | rfl | cases h
  | _ => rfl

theorem Placed.congr (htable : s'.kernel.table = s.kernel.table) (hguard : Guarded s s')
    (h : Placed cfg s) : Placed cfg s' := by
  intro name hname
  rw [hguard.active] at hname
  obtain ⟨p, hp, hforwards, hstamps⟩ := h name hname
  refine ⟨p, hp, htable ▸ hforwards, fun hadopted => ?_⟩
  rw [hguard.activeAdopted] at hadopted
  rw [StampsFor, hguard.chain]
  exact hstamps hadopted

theorem Stage.congr (htable : s'.kernel.table = s.kernel.table) (hguard : Guarded s s')
    {state : TaskState} (h : Stage cfg s state) : Stage cfg s' state := by
  unfold Stage at h ⊢
  split at h
  all_goals first
    | exact h.congr htable hguard
    | simpa only [StampsFor, htable, hguard.chain] using h

theorem placed_of_stage {p : Provider} (hcur : s.active.bind cfg.provider? = some p)
    (hforwards : ForwardsTo s.kernel.table p) (hstamps : StampsFor cfg s p) : Placed cfg s := by
  intro name hname
  rw [hname, Option.bind_some] at hcur
  exact ⟨p, hcur, hforwards, fun _ => hstamps⟩

theorem stampsFor_repin (cfg : Config) (k : Kernel) (p : Provider)
    (hchain : s'.kernel.chain = (k.repin cfg p true).chain) : StampsFor cfg s' p := by
  intro hpin hlan
  rw [hchain]
  simp [Kernel.repin, Pin.install, hpin, hlan]

theorem passStep_table {alwaysInstall : Bool} {point : PassPoint} (hpoint : point.holds = false)
    (hstep : passStep cfg s t alwaysInstall ok point = some s') :
    s'.kernel.table = s.kernel.table := by
  cases point <;> simp only [PassPoint.holds, reduceCtorEq] at hpoint
  all_goals
    simp only [passStep] at hstep
    repeat' split at hstep
  all_goals
    cases hstep
  all_goals rfl

theorem repin_table (cfg : Config) (k : Kernel) (p : Provider) (ok : Bool) :
    (k.repin cfg p ok).table = k.table := by
  unfold Kernel.repin
  split_ifs <;> rfl

theorem flushConntrack_table (k : Kernel) (ok : Bool) : (k.flushConntrack ok).table = k.table := by
  unfold Kernel.flushConntrack
  split_ifs <;> rfl

/-- **One step of a pass** whose commands succeed. -/
theorem stage_passStep {alwaysInstall : Bool} {point : PassPoint}
    (hknows : Knows cfg s.active (.passing alwaysInstall point))
    (h : Stage cfg s (.passing alwaysInstall point))
    (hstep : passStep cfg s t alwaysInstall true point = some s') :
    Stage cfg s' (s'.tasks t) := by
  cases point with
  | readForced | readViews | switchRead | unlock =>
    cases hstep
    simp only [goto_tasks_self]
    exact Placed.congr rfl ⟨rfl, rfl, rfl, rfl⟩ h
  | readClock forced =>
    simp only [passStep] at hstep
    split at hstep <;> cases hstep <;> simp only [goto_tasks_self] <;>
      exact Placed.congr rfl ⟨rfl, rfl, rfl, rfl⟩ h
  | lockActive r =>
    simp only [passStep] at hstep
    split_ifs at hstep
    cases hstep
    simp only [goto_tasks_self, arm]
    split
    · exact Placed.congr rfl ⟨rfl, rfl, rfl, rfl⟩ h
    · split <;> exact Placed.congr rfl ⟨rfl, rfl, rfl, rfl⟩ h
    · exact Placed.congr rfl ⟨rfl, rfl, rfl, rfl⟩ h
  | keepRead cur =>
    cases cur with
    | none =>
      cases hstep
      simp only [goto_tasks_self]
      intro name hname
      obtain ⟨p, hp, -⟩ := h name hname
      have hnone : s.active.bind cfg.provider? = none := hknows
      rw [show s.active = some name from hname, Option.bind_some, hp] at hnone
      cases hnone
    | some cur =>
      cases hstep
      simp only [goto_tasks_self]
      exact Placed.congr rfl ⟨rfl, rfl, rfl, rfl⟩ h
  | keepRepin k =>
    cases hstep
    simp only [goto_tasks_self]
    obtain ⟨name, hname, hp⟩ := Option.bind_eq_some_iff.mp (show s.active.bind _ = _ from hknows)
    obtain ⟨p, hp', hforwards, -⟩ := h name hname
    obtain rfl := Option.some.inj (hp.symm.trans hp')
    refine ⟨?_, stampsFor_repin cfg s.kernel k.cur rfl⟩
    rw [repin_table]
    exact hforwards
  | keepVerify k =>
    simp only [passStep, if_true] at hstep
    split_ifs at hstep <;> cases hstep <;> simp only [goto_tasks_self]
    · exact ⟨forwardsTo_setDefaultRoute _ _, h.2⟩
    · exact h
  | keepAssert k =>
    simp only [passStep, and_true] at hstep
    split_ifs at hstep <;> cases hstep <;> simp only [goto_tasks_self]
    · exact ⟨forwardsTo_setDefaultRoute _ _, h.2⟩
    · exact placed_of_stage hknows (forwardsTo_setDefaultRoute _ _) h.2
    · exact placed_of_stage hknows h.1 h.2
  | keepFlush k =>
    cases hstep
    simp only [goto_tasks_self]
    exact placed_of_stage hknows h.1 h.2
  | switchRepin a same =>
    cases hstep
    simp only [goto_tasks_self]
    exact stampsFor_repin cfg s.kernel a.target rfl
  | switchInstall a same =>
    simp only [passStep, if_true] at hstep
    cases hstep
    simp only [goto_tasks_self]
    split_ifs <;> exact ⟨forwardsTo_setDefaultRoute _ _, h⟩
  | switchFlush a =>
    cases hstep
    simp only [goto_tasks_self]
    exact h
  | switchCommit a =>
    have hrest : ∀ name, some a.target.name = some name → ∃ p, cfg.provider? name = some p ∧
        ForwardsTo s.kernel.table p ∧ StampsFor cfg s p := by
      rintro name ⟨⟩
      exact ⟨a.target, hknows.2.2, h⟩
    cases hstep
    simp only [goto_tasks_self]
    split_ifs <;> intro name hname <;> obtain ⟨p, hp, hforwards, hstamps⟩ := hrest name hname <;>
      exact ⟨p, hp, hforwards, fun _ => hstamps⟩
  | recordSwitch now =>
    have hrest : Placed cfg s' :=
      Placed.congr (passStep_table rfl hstep) (passStep_guarded rfl hstep) h
    simp only [passStep] at hstep
    split_ifs at hstep <;> cases hstep <;> simp only [goto_tasks_self] <;> exact hrest

/-- **One step of the watchdog**, which installs the route of the active provider or none. -/
theorem stage_watchStep {point : WatchPoint} (hknows : Knows cfg s.active (.watching point))
    (h : Placed cfg s) (hstep : watchStep cfg s t ok point = some s') :
    Stage cfg s' (s'.tasks t) := by
  have hrest : Placed cfg s' := by
    cases point with
    | repair expected present =>
      simp only [watchStep] at hstep
      have hinstalled : ∀ name, s.active = some name → ∃ p, cfg.provider? name = some p ∧
          ForwardsTo (s.kernel.setDefaultRoute expected).table p ∧
          (s.activeAdopted = false → StampsFor cfg s p) := by
        intro name hname
        obtain ⟨p, hp, -, hstamps⟩ := h name hname
        have hcur : s.active.bind cfg.provider? = some expected := hknows expected rfl
        rw [hname, Option.bind_some, hp] at hcur
        obtain rfl := Option.some.inj hcur
        exact ⟨p, hp, forwardsTo_setDefaultRoute _ _, hstamps⟩
      split_ifs at hstep <;> cases hstep
      · exact hinstalled
      · exact hinstalled
      · exact h.congr rfl ⟨rfl, rfl, rfl, rfl⟩
    | flush expected =>
      have hsame : (s.kernel.flushConntrack ok).table = s.kernel.table ∧
          (s.kernel.flushConntrack ok).chain = s.kernel.chain := by
        unfold Kernel.flushConntrack
        split_ifs <;> exact ⟨rfl, rfl⟩
      cases hstep
      exact h.congr hsame.1 ⟨hsame.2, rfl, rfl, rfl⟩
    | record expected =>
      cases hstep
      exact h
    | _ =>
      simp only [watchStep] at hstep
      repeat' split at hstep
      all_goals
        cases hstep
      all_goals exact h.congr rfl ⟨rfl, rfl, rfl, rfl⟩
  rcases watchStep_next hstep with ⟨next, hnext⟩ | hnext <;> rw [hnext] <;> exact hrest

/-- The step of a task without the lock does not reach the table. -/
theorem advance_table (hholds : (s.tasks t).holds = false) (hstep : advance cfg s t ok = some s') :
    s'.kernel.table = s.kernel.table := by
  rcases advance_cases hstep with ⟨name, p, -, -, -, rfl⟩ | ⟨_, point, hstate, hstep⟩ |
    ⟨point, hstate, hstep⟩ | ⟨name, point, -, rfl⟩ | ⟨point, -, rfl⟩
  · simp only [Kernel.evictPinned]
    split_ifs <;> rfl
  · rw [hstate] at hholds
    exact passStep_table hholds hstep
  · rw [hstate] at hholds
    cases point <;> simp only [TaskState.holds, WatchPoint.holds, reduceCtorEq] at hholds
    simp only [watchStep] at hstep
    repeat' split at hstep
    all_goals
      cases hstep
    all_goals rfl
  · cases point <;> rfl
  · cases point <;> rfl

/-- Nor does an event that is no step of a task, unless it is somebody else's. -/
theorem table_of_ne (hstep : step cfg s e = some s') (hne : ∀ t ok, e ≠ .advance t ok)
    (hexternal : ∀ routes, e ≠ .external routes) : s'.kernel.table = s.kernel.table := by
  cases e with
  | tick | expire =>
    cases hstep
    rfl
  | external routes => exact absurd rfl (hexternal routes)
  | packet id d nfmark =>
    obtain ⟨k, hk, rfl⟩ := Option.map_eq_some_iff.mp hstep
    unfold Kernel.packet at hk
    split_ifs at hk
    · cases hk
      rfl
    · cases d <;> cases hk
      rfl
  | track id mark =>
    obtain ⟨k, hk, rfl⟩ := Option.map_eq_some_iff.mp hstep
    unfold Kernel.track at hk
    split_ifs at hk
    cases hk
    rfl
  | probe | force | clear | watch =>
    simp only [step] at hstep
    split at hstep <;> cases hstep
    rfl
  | advance t ok => exact absurd rfl (hne t ok)

/-- **One step of a task**, which starts from where its own work stands. -/
theorem stage_advance (hknows : Knows cfg s.active (s.tasks t)) (h : Stage cfg s (s.tasks t))
    (hstep : advance cfg s t true = some s') : Stage cfg s' (s'.tasks t) := by
  rcases advance_cases hstep with ⟨name, p, -, hstate, -, rfl⟩ | ⟨_, point, hstate, hstep⟩ |
    ⟨point, hstate, hstep⟩ | ⟨name, point, hstate, hnext⟩ | ⟨point, hstate, hnext⟩ <;>
    rw [hstate] at h hknows
  · simp only [goto_tasks_self]
    exact Placed.congr rfl ⟨rfl, rfl, rfl, rfl⟩ h
  · exact stage_passStep hknows h hstep
  · exact stage_watchStep hknows h hstep
  · have hrest : Placed cfg s' := by
      subst hnext
      cases point <;> exact Placed.congr rfl ⟨rfl, rfl, rfl, rfl⟩ h
    rcases forceStep_next hnext with ⟨next, h⟩ | h | h <;> rw [h] <;> exact hrest
  · have hrest : Placed cfg s' := by
      subst hnext
      cases point <;> exact Placed.congr rfl ⟨rfl, rfl, rfl, rfl⟩ h
    rcases clearStep_next hnext with ⟨next, h⟩ | h <;> rw [h] <;> exact hrest

/-! ## Over the lifetimes -/

/-- The kernel is where the task with the lock has got it, and at rest when no task has it. -/
structure Kept (cfg : Config) (s : Sys) : Prop where
  informed : Informed cfg s
  stage : ∀ t, (s.tasks t).holds = true → Stage cfg s (s.tasks t)
  rest : (∀ t, (s.tasks t).holds = false) → Placed cfg s

theorem Exclusive.not_holds (h : Exclusive s) (hfree : s.activeOwner = none) (t : TaskId) :
    (s.tasks t).holds = false := by
  cases hholds : (s.tasks t).holds with
  | false => rfl
  | true =>
    rw [h t hholds] at hfree
    cases hfree

namespace Kept

theorem of_guarded (h : Kept cfg s) (hinformed : Informed cfg s')
    (htable : s'.kernel.table = s.kernel.table) (hguard : Guarded s s')
    (htasks : ∀ t, s'.tasks t = s.tasks t ∨
      (s.tasks t).holds = false ∧ (s'.tasks t).holds = false) : Kept cfg s' := by
  refine ⟨hinformed, fun t ht => ?_, fun hnone => ?_⟩
  · rcases htasks t with hsame | ⟨-, hnot⟩
    · rw [hsame] at ht ⊢
      exact (h.stage t ht).congr htable hguard
    · rw [ht] at hnot
      cases hnot
  · refine (h.rest fun t => ?_).congr htable hguard
    rcases htasks t with hsame | ⟨hnot, -⟩
    · rw [← hsame]
      exact hnone t
    · exact hnot

theorem advance (h : Kept cfg s) (hstep : advance cfg s t true = some s') : Kept cfg s' := by
  have hinformed : Informed cfg s' := h.informed.step (e := .advance t true) hstep
  have hothers := (advance_frame hstep).others
  have hnext (hothers_free : ∀ t' ≠ t, (s.tasks t').holds = false)
      (hstage : Stage cfg s (s.tasks t)) : Kept cfg s' := by
    have hstage' := stage_advance (h.informed.knows t) hstage hstep
    refine ⟨hinformed, fun t' ht' => ?_, fun hnone => (stage_of_not_holds (hnone t)).mp hstage'⟩
    by_cases heq : t' = t
    · exact heq ▸ hstage'
    · rw [hothers t' heq, hothers_free t' heq] at ht'
      cases ht'
  cases hbefore : (s.tasks t).holds with
  | true =>
    exact hnext (fun t' => not_holds_of_ne h.informed.exclusive hbefore) (h.stage t hbefore)
  | false =>
    cases hafter : (s'.tasks t).holds with
    | false =>
      refine h.of_guarded hinformed (advance_table hbefore hstep) (advance_guarded hbefore hstep)
        fun t' => ?_
      by_cases heq : t' = t
      · exact heq ▸ Or.inr ⟨hbefore, hafter⟩
      · exact Or.inl (hothers t' heq)
    | true =>
      -- the task has just taken the lock, so nobody had it
      have hnone := h.informed.exclusive.not_holds ((advance_moves hstep).taken hbefore hafter).1
      exact hnext (fun t' _ => hnone t') ((stage_of_not_holds hbefore).mpr (h.rest hnone))

theorem of_ne_advance (h : Kept cfg s) (hstep : step cfg s e = some s')
    (hne : ∀ t ok, e ≠ .advance t ok) (hexternal : ∀ routes, e ≠ .external routes) :
    Kept cfg s' := by
  refine h.of_guarded (h.informed.step hstep) ?_ (guarded_of_ne hstep hne) fun t => ?_
  · exact table_of_ne hstep hne hexternal
  · by_cases ht : e.task? = some t
    · have hidle := (step_begins hstep hne ht).1
      exact Or.inr ⟨by rw [hidle]; rfl, holds_of_begins hstep hne ht⟩
    · exact Or.inl (step_tasks_of_ne hstep ht)

/-- **A start**: the incumbent is the provider whose route is found installed. -/
theorem restart (hacc : cfg.Accepted) (s : Sys) (b : Boot) : Kept cfg (s.restart cfg b) := by
  refine ⟨(restart_initial cfg s b).informed, fun t ht => (by cases ht), fun _ name hname => ?_⟩
  obtain ⟨p, hp, rfl⟩ := Option.map_eq_some_iff.mp hname
  have hadopted : (s.restart cfg b).activeAdopted = true := congrArg Option.isSome hp
  split_ifs at hp
  refine ⟨p, Config.provider?_of_mem hacc (mem_of_adopted hp), ?_, fun hno => ?_⟩
  · unfold adopted at hp
    split at hp
    · rename_i route hroute
      split_ifs at hp with hzero
      exact ⟨route, hroute, hzero, List.find?_some hp⟩
    · cases hp
  · rw [hadopted] at hno
    cases hno

theorem step {l l' : Lifetime} {e : Lifetime.Event} (h : Kept l.cfg l.sys)
    (hstep : l.step e = some l') (hquiet : Lifetime.Undisturbed l e l') :
    Kept l'.cfg l'.sys := by
  cases e with
  | restart cfg b =>
    simp only [Lifetime.step] at hstep
    split_ifs at hstep with hacc
    cases hstep
    exact restart hacc l.sys b
  | daemon e =>
    obtain ⟨sys, hsys, rfl⟩ := Option.map_eq_some_iff.mp hstep
    cases e with
    | advance t ok =>
      cases ok with
      | true => exact h.advance hsys
      | false => cases hquiet
    | external routes => exact hquiet.elim
    | _ => exact h.of_ne_advance hsys (by simp) (by simp)

end Kept

/-! ## The routes at metric 0 -/

/-- A route that the listing shows to be preferred is what the kernel follows. -/
theorem follows_of_forwardsTo {table : Table} {p : Provider} (honeWay : OneWay table.routes)
    (h : ForwardsTo table p) : table.routes ≠ [] ∧ Follows table.routes p := by
  obtain ⟨k, hk, hvia⟩ := forwardsTo_iff.mp h
  obtain ⟨gateway, interface, hall⟩ := honeWay
  have hmem := List.mem_of_find?_eq_some hk
  have hcontends := List.find?_some hk
  simp only [KernelRoute.contends, decide_eq_true_eq] at hcontends
  have hours := hall k hmem hcontends.1
  refine ⟨List.ne_nil_of_mem hmem, fun k' hpreferred => ?_⟩
  have hle := hpreferred.2 k hmem
  rw [hcontends.1, UInt32.toNat_zero, Nat.le_zero] at hle
  have htheirs := hall k' hpreferred.1 (UInt32.toNat_inj.mp hle)
  simp only [KernelRoute.via, decide_eq_true_eq, leadsTo] at hvia hours htheirs ⊢
  exact ⟨htheirs.1.trans (hours.1.symm.trans hvia.1), htheirs.2.trans (hours.2.symm.trans hvia.2)⟩

/-- A task leaves the table as it is, or installs the route of a provider. -/
theorem advance_routes (hstep : advance cfg s t ok = some s') :
    s'.kernel.table = s.kernel.table ∨
      ∃ p : Provider, s'.kernel.table = s.kernel.table.setDefaultRoute p.gateway p.interface := by
  rcases advance_cases hstep with ⟨name, p, -, -, -, rfl⟩ | ⟨_, point, -, hstep⟩ |
    ⟨point, -, hstep⟩ | ⟨name, point, -, rfl⟩ | ⟨point, -, rfl⟩
  · left
    simp only [Kernel.evictPinned]
    split_ifs <;> rfl
  · cases point with
    | keepRepin k =>
      cases hstep
      exact Or.inl (repin_table _ _ _ _)
    | switchRepin a same =>
      cases hstep
      exact Or.inl (repin_table _ _ _ _)
    | keepFlush k =>
      cases hstep
      exact Or.inl (flushConntrack_table _ _)
    | switchFlush a =>
      cases hstep
      exact Or.inl (flushConntrack_table _ _)
    | keepRead cur => cases cur <;> cases hstep <;> exact Or.inl rfl
    | _ =>
      simp only [passStep] at hstep
      repeat' split at hstep
      all_goals
        cases hstep
      all_goals first | exact Or.inl rfl | exact Or.inr ⟨_, rfl⟩
  · cases point with
    | flush expected =>
      cases hstep
      exact Or.inl (flushConntrack_table _ _)
    | _ =>
      simp only [watchStep] at hstep
      repeat' split at hstep
      all_goals
        cases hstep
      all_goals first | exact Or.inl rfl | exact Or.inr ⟨_, rfl⟩
  · cases point <;> exact Or.inl rfl
  · cases point <;> exact Or.inl rfl

/-- **The routes at metric 0 go out one way**, once they do. -/
theorem oneWay_step {l l' : Lifetime} {e : Lifetime.Event}
    (h : OneWay l.sys.kernel.table.routes) (hstep : l.step e = some l')
    (hquiet : Lifetime.Undisturbed l e l') : OneWay l'.sys.kernel.table.routes := by
  cases e with
  | restart cfg b =>
    simp only [Lifetime.step] at hstep
    split_ifs at hstep
    cases hstep
    exact h.ensureBootstrapDefault cfg b.shown b.installs
  | daemon e =>
    obtain ⟨sys, hsys, rfl⟩ := Option.map_eq_some_iff.mp hstep
    by_cases hadvance : ∃ t ok, e = .advance t ok
    · obtain ⟨t, ok, rfl⟩ := hadvance
      rcases advance_routes hsys with hsame | ⟨p, hp⟩
      · rw [hsame]
        exact h
      · rw [hp]
        exact h.setDefaultRoute p
    · have hexternal : ∀ routes, e ≠ .external routes := by
        rintro routes rfl
        exact hquiet
      rw [table_of_ne hsys (fun t ok he => hadvance ⟨t, ok, he⟩) hexternal]
      exact h

/-- **The kernel follows the active provider** whenever no task has the lock: from any start on, in
any number of lifetimes, whatever the moment at which each of them ends, if the routes that it finds
at metric 0 have a next hop and go out one way. -/
theorem atRest_of_run {left : Sys} {b : Boot} {es : List Lifetime.Event} {l : Lifetime}
    (hacc : cfg.Accepted) (honeWay : OneWay left.kernel.table.routes)
    (hrun : Run Lifetime.step ⟨cfg, left.restart cfg b⟩ es l)
    (hquiet : AllSteps Lifetime.step Lifetime.Undisturbed ⟨cfg, left.restart cfg b⟩ es)
    (hfree : l.sys.activeOwner = none) : AtRest l.cfg l.sys := by
  have hinv := hrun.invariant
    (I := fun l => Kept l.cfg l.sys ∧ OneWay l.sys.kernel.table.routes)
    (fun _ _ _ h hstep hC => ⟨h.1.step hstep hC, oneWay_step h.2 hstep hC⟩) hquiet
    ⟨Kept.restart hacc left b, honeWay.ensureBootstrapDefault cfg b.shown b.installs⟩
  obtain ⟨hkept, honeWay⟩ := hinv
  have hplaced := hkept.rest (hkept.informed.exclusive.not_holds hfree)
  intro name hname
  obtain ⟨p, hp, hforwards, hstamps⟩ := hplaced name hname
  obtain ⟨hroutes, hfollows⟩ := follows_of_forwardsTo honeWay hforwards
  exact ⟨p, hp, hroutes, hfollows, hstamps⟩

/-- Every command of a starting daemon succeeds. -/
def plainBoot : Boot where
  now := DateTime.epoch
  shown := .listed
  installs := true
  readable := true
  forcedReadable := true
  flap := {}

/-- A box with a default route by a gateway that is not configured. -/
def leasedRoute : Sys :=
  { coldStart with
    kernel := { coldStart.kernel with
      table := { routes := [{ gateway := some (Ipv4Addr.ofOctets 10 0 0 9), interface := "wan"
                              metric := 0, proto := "dhcp" }]
                 ownsBootstrap := false } } }

theorem leasedRoute_oneWay : OneWay leasedRoute.kernel.table.routes :=
  ⟨Ipv4Addr.ofOctets 10 0 0 9, "wan", by decide⟩

/-- The daemon is killed between the installation of the route and the commit of the switch, and
started again. -/
def killed : List Lifetime.Event :=
  (Event.probe "a" true none none :: turns (.healthLoop "a") 7).map .daemon ++
    [.restart twoUplinks plainBoot]

theorem killed_enabled :
    (exec Lifetime.step ⟨twoUplinks, leasedRoute.restart twoUplinks plainBoot⟩ killed).isSome := by
  decide

/-- The second daemon takes over the route that the first one did not live to commit. -/
theorem atRest_of_run_killed : ∃ l,
    Run Lifetime.step ⟨twoUplinks, leasedRoute.restart twoUplinks plainBoot⟩ killed l ∧
      l.sys.active = some "a" ∧ l.sys.failovers = [] ∧ AtRest l.cfg l.sys := by
  have hrun := run_get killed_enabled
  refine ⟨_, hrun, ?_, ?_, atRest_of_run (by decide) leasedRoute_oneWay hrun (allSteps_of_check
    (c := fun _ e _ => match e with
      | .daemon (.external _) => false
      | .daemon e => decide e.Succeeds
      | .restart _ _ => true) ?_ (by decide)) ?_⟩
  · exact Run.of_all (P := fun l : Lifetime => l.sys.active = some "a") (by decide) hrun
  · exact Run.of_all (P := fun l : Lifetime => l.sys.failovers = []) (by decide) hrun
  · intro l e l' h
    unfold Lifetime.Undisturbed
    split at h
    · cases h
    · simpa using h
    · trivial
  · exact Run.of_all (P := fun l : Lifetime => l.sys.activeOwner = none) (by decide) hrun

end Vlb.Balancer
