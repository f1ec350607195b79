import Vlb.Balancer.Daemon

/-!
# Pinned connections over whole runs

With pinning on, a connection stays on the provider it was born on, and its provider's death evicts
it. Both promises have a gap, and each theorem says which steps of a run open it.

* `Clear`, `LeftDead`: no connection carries a provider's mark; the provider has died and a pass has
  since switched to another.
* **`clear_of_leftDead`**: a provider that was left dead keeps no connection, in every run whose
  steps are `Timely`.
* `Spares`, `SparesWhen`: a step removes only what the eviction of a dead provider removes.
* **`spares_iff`**: a run spares the connections of working providers exactly when no step of it
  flushes the whole table.
-/

namespace Vlb.Balancer

open Transition Netfilter

variable {cfg : Config} {s s' s₀ t : Sys} {e : Event} {es : List Event} {p : Provider}

/-- The probes have found the provider down. -/
def IsDown (s : Sys) (p : Provider) : Prop := (s.health p.name).state = .down

instance (s : Sys) (p : Provider) : Decidable (IsDown s p) := inferInstanceAs (Decidable (_ = _))

/-- The eviction that the provider's death calls for is still to come. -/
def EvictionDue (s : Sys) (p : Provider) : Prop := s.tasks (.healthLoop p.name) = .evicting

instance (s : Sys) (p : Provider) : Decidable (EvictionDue s p) :=
  inferInstanceAs (Decidable (_ = _))

/-- No tracked connection carries the mark of `p`. -/
def Clear (cfg : Config) (s : Sys) (p : Provider) : Prop :=
  ∀ c ∈ s.kernel.conntrack, ¬ Pin.Carries cfg p c.mark

instance (cfg : Config) (s : Sys) (p : Provider) : Decidable (Clear cfg s p) :=
  inferInstanceAs (Decidable (∀ c ∈ _, _))

/-- The provider that a pass is about to make the active one, with the route and the chain moved. -/
def TaskState.committing? : TaskState → Option Provider
  | .passing _ (.switchCommit a) => some a.target
  | _ => none

/-- The step with which a pass completes its switch to some other provider than `p`. -/
def SwitchesAway (p : Provider) (s : Sys) : Event → Prop
  | .advance t _ => ∃ q ∈ (s.tasks t).committing?, q.name ≠ p.name
  | _ => False

instance (p : Provider) (s : Sys) : DecidablePred (SwitchesAway p s)
  | .advance _ _ => inferInstanceAs (Decidable (∃ q ∈ _, _))
  | .tick _ | .external _ | .packet _ _ _ | .track _ _ | .expire _ | .probe _ _ _ _ | .force _ _
  | .clear _ | .watch => inferInstanceAs (Decidable False)

/-- `p` went down, a pass has since switched to another provider, and `p` is down still. -/
def LeftDead (cfg : Config) (p : Provider) (s₀ : Sys) (es : List Event) : Prop :=
  Since (step cfg) (fun u => IsDown u p) (fun u e _ => IsDown u p ∧ SwitchesAway p u e) s₀ es

/-- The event gives a connection the mark of `p`: its packet crosses the chain while the chain
stamps with that mark, and the connection has no stamp yet. -/
def Stamps (cfg : Config) (s : Sys) (p : Provider) : Event → Prop
  | .packet id d nfmark =>
    (∃ c ∈ s.kernel.conntrack, c.id = id ∧ ¬ Pin.Carries cfg p c.mark ∧
      Pin.Carries cfg p (c.cross d s.kernel.chain nfmark).mark) ∨
    Pin.Carries cfg p (Conn.cross d s.kernel.chain nfmark ⟨id, 0⟩).mark ∧
      ¬ s.kernel.conntrack.any (·.id = id)
  | _ => False

instance (cfg : Config) (s : Sys) (p : Provider) : DecidablePred (Stamps cfg s p)
  | .packet _ _ _ => inferInstanceAs (Decidable ((∃ c ∈ _, _) ∨ _))
  | .tick _ | .external _ | .track _ _ | .expire _ | .probe _ _ _ _ | .force _ _ | .clear _
  | .watch | .advance _ _ => inferInstanceAs (Decidable False)

/-- The step comes in time: no connection is born on a provider that is down after the one eviction
it gets, and no switch away from a provider completes before that eviction. -/
structure Timely (cfg : Config) (s : Sys) (e : Event) : Prop where
  stamp : ∀ p ∈ cfg.providers, IsDown s p → ¬ EvictionDue s p → ¬ Stamps cfg s p e
  switch : ∀ p ∈ cfg.providers, IsDown s p → EvictionDue s p → ¬ SwitchesAway p s e

/-! ## The chain and the stamps -/

theorem carries_zero_iff (mark : BitVec 32) (hmark : mark &&& Pin.mask cfg = 0) :
    Pin.Carries cfg p mark ↔ (cfg.markFor p).toBitVec &&& Pin.mask cfg = 0 := by
  rw [Pin.Carries, hmark, eq_comm]

theorem not_carries_of_unmarked (hacc : cfg.Accepted) (hp : p ∈ cfg.providers)
    (hmask : Pin.InMask cfg p) {mark : BitVec 32} (hmark : mark &&& Pin.mask cfg = 0) :
    ¬ Pin.Carries cfg p mark := by
  rw [carries_zero_iff mark hmark, show _ = _ from hmask]
  intro hzero
  exact Config.markFor_ne_zero hacc hp (UInt32.toBitVec_inj.mp hzero)

/-! ## Eviction -/

theorem advance_conntrack_subset {t : TaskId} {ok : Bool} (h : advance cfg s t ok = some s') :
    ∀ c ∈ s'.kernel.conntrack, c ∈ s.kernel.conntrack := by
  intro c hc
  rw [advance_conntrack h] at hc
  split_ifs at hc with hflush
  · simp at hc
  · cases hev : evicted? cfg s t with
    | none => simpa [hev] using hc
    | some q =>
      simp only [hev, Kernel.evictPinned] at hc
      split_ifs at hc
      · exact (List.mem_filter.mp hc).1
      · exact hc

theorem mem_evictPinned {k : Kernel} {c : Conn} :
    c ∈ (k.evictPinned cfg p true).conntrack ↔
      c ∈ k.conntrack ∧ Pin.evicts cfg p c.mark = false := by
  simp [Kernel.evictPinned, List.mem_filter]

/-- **The invariant**: the connections of a provider that is down have been evicted, or are about
to be. -/
def Evicted (cfg : Config) (s : Sys) : Prop :=
  ∀ p ∈ cfg.providers, IsDown s p → EvictionDue s p ∨ Clear cfg s p

theorem Initial.evicted (h : Initial s) : Evicted cfg s := by
  intro p _ hdown
  simp [IsDown, h.health] at hdown

theorem Evicted.of_subset (h : Evicted cfg s) (hhealth : s'.health = s.health)
    (htasks : ∀ p, EvictionDue s p → EvictionDue s' p)
    (hsub : ∀ c ∈ s'.kernel.conntrack, c ∈ s.kernel.conntrack) : Evicted cfg s' := by
  intro p hp hdown
  rw [IsDown, hhealth] at hdown
  exact (h p hp hdown).imp (htasks p) fun hclear c hc => hclear c (hsub c hc)

theorem Evicted.packet (h : Evicted cfg s) {id : ℕ} {d : Direction} {nfmark : BitVec 32}
    (htimely : Timely cfg s (.packet id d nfmark))
    (hstep : step cfg s (.packet id d nfmark) = some s') : Evicted cfg s' := by
  obtain ⟨k, hk, rfl⟩ := Option.map_eq_some_iff.mp hstep
  intro p hp hdown
  by_cases hdue : EvictionDue s p
  · exact Or.inl hdue
  refine Or.inr fun c hc hcarries => ?_
  have hclear := (h p hp hdown).resolve_left hdue
  have hstamp := htimely.stamp p hp hdown hdue
  simp only [Stamps, not_or, not_exists, not_and] at hstamp
  unfold Kernel.packet at hk
  split_ifs at hk with hany
  · cases hk
    obtain ⟨c₀, hc₀, rfl⟩ := List.mem_map.mp hc
    split_ifs at hcarries with hid
    · exact hstamp.1 c₀ hc₀ hid (hclear c₀ hc₀) hcarries
    · exact hclear c₀ hc₀ hcarries
  · cases d with
    | reply => cases hk
    | original =>
      cases hk
      rcases List.mem_append.mp hc with hc | hc
      · exact hclear c hc hcarries
      · rw [List.mem_singleton.mp hc] at hcarries
        exact absurd hany (hstamp.2 hcarries ·)

theorem Evicted.track (hacc : cfg.Accepted) (hmask : ∀ p ∈ cfg.providers, Pin.InMask cfg p)
    (h : Evicted cfg s) {id : ℕ} {mark : BitVec 32}
    (hstep : step cfg s (.track id mark) = some s') : Evicted cfg s' := by
  obtain ⟨k, hk, rfl⟩ := Option.map_eq_some_iff.mp hstep
  unfold Kernel.track at hk
  split_ifs at hk with hfresh
  cases hk
  intro p hp hdown
  refine (h p hp hdown).imp_right fun hclear c hc => ?_
  rcases List.mem_append.mp hc with hc | hc
  · exact hclear c hc
  · rw [List.mem_singleton.mp hc]
    exact not_carries_of_unmarked hacc hp (hmask p hp) hfresh.2

theorem Evicted.probe (hpin : cfg.routing.pinConnections = true) (h : Evicted cfg s)
    {name : String} {r : ProbeRound} (hidle : s.tasks (.healthLoop name) = .idle) :
    Evicted cfg (applyProbe cfg s name r) := by
  intro p hp hdown
  by_cases hname : p.name = name
  · subst hname
    simp only [IsDown, applyProbe, Function.update_self] at hdown
    by_cases hbefore : IsDown s p
    · refine Or.inr ((h p hp hbefore).resolve_left ?_)
      simp [EvictionDue, hidle]
    · refine Or.inl ?_
      have hchange : (s.health p.name).state ≠ .down := hbefore
      simp [EvictionDue, applyProbe, hdown, hpin, hchange, Sys.goto]
  · have hne : TaskId.healthLoop p.name ≠ .healthLoop name := by simpa using hname
    simp only [IsDown, applyProbe, Function.update_of_ne hname] at hdown
    refine (h p hp hdown).imp (fun hdue => ?_) fun hclear => hclear
    simpa [EvictionDue, applyProbe, Sys.goto, Function.update_of_ne hne] using hdue

theorem Evicted.advance (hacc : cfg.Accepted) (hmask : ∀ p ∈ cfg.providers, Pin.InMask cfg p)
    (h : Evicted cfg s) {t : TaskId} (hstep : advance cfg s t true = some s') :
    Evicted cfg s' := by
  have hframe := advance_frame hstep
  intro p hp hdown
  rw [IsDown, hframe.health] at hdown
  have hsub := advance_conntrack_subset hstep
  by_cases ht : TaskId.healthLoop p.name = t
  · subst ht
    refine Or.inr ?_
    rcases h p hp hdown with hdue | hclear
    · have hconn := advance_conntrack hstep
      have hev : evicted? cfg s (.healthLoop p.name) = some p := by
        have hdue' : s.tasks (.healthLoop p.name) = .evicting := hdue
        simp [evicted?, hdue', Config.provider?_of_mem hacc hp]
      have hdue' : s.tasks (.healthLoop p.name) = .evicting := hdue
      rw [hev, hdue'] at hconn
      simp only [TaskState.flushesAll, Bool.false_eq_true, false_and, if_false] at hconn
      intro c hc hcarries
      rw [hconn, mem_evictPinned] at hc
      exact absurd ((Pin.evicts_iff (hmask p hp)).mpr hcarries) (by simp [hc.2])
    · exact fun c hc => hclear c (hsub c hc)
  · refine (h p hp hdown).imp (fun hdue => ?_) fun hclear c hc => hclear c (hsub c hc)
    rw [EvictionDue, hframe.others _ ht]
    exact hdue

/-- **One step**: what the invariant needs is that no stamp comes too late. -/
theorem Evicted.step (hacc : cfg.Accepted) (hpin : cfg.routing.pinConnections = true)
    (hmask : ∀ p ∈ cfg.providers, Pin.InMask cfg p) (h : Evicted cfg s)
    (htimely : Timely cfg s e) (hok : e.Succeeds) (hstep : step cfg s e = some s') :
    Evicted cfg s' := by
  cases e with
  | tick now | external routes =>
    cases hstep
    exact h
  | packet id d nfmark => exact h.packet htimely hstep
  | track id mark => exact h.track hacc hmask hstep
  | expire id =>
    cases hstep
    exact h.of_subset rfl (fun _ hdue => hdue) fun c hc => (List.mem_filter.mp hc).1
  | probe name success latencyMs failure =>
    simp only [Balancer.step] at hstep
    split_ifs at hstep with hidle
    cases hstep
    exact h.probe hpin hidle.2
  | force id name | clear id | watch =>
    simp only [Balancer.step] at hstep
    split_ifs at hstep
    cases hstep
    refine h.of_subset rfl (fun p hdue => ?_) fun c hc => hc
    rwa [EvictionDue, goto_tasks_of_ne _ (by simp)]
  | advance t ok =>
    cases hok
    exact h.advance hacc hmask hstep

/-- An eviction falls due only in the step in which the provider goes down. -/
theorem evictionDue_step (hstep : step cfg s e = some s') (hdue : EvictionDue s' p) :
    EvictionDue s p ∨ ¬ IsDown s p ∧ IsDown s' p := by
  by_cases ht : e.task? = some (.healthLoop p.name)
  · cases e with
    | tick | external | packet | track | expire | force | clear | watch =>
      simp [Event.task?] at ht
    | advance t ok =>
      cases ht
      exact absurd hdue (advance_ne_evicting hstep)
    | probe name success latencyMs failure =>
      obtain rfl : name = p.name := by simpa [Event.task?] using ht
      simp only [step] at hstep
      split_ifs at hstep
      cases hstep
      simp only [EvictionDue, applyProbe, goto_tasks_self] at hdue
      split_ifs at hdue with hdown
      refine Or.inr ⟨fun hbefore => hdown.1 (hbefore.trans hdown.2.1.symm), ?_⟩
      simpa only [IsDown, applyProbe, Function.update_self] using hdown.2.1
  · rw [EvictionDue, step_tasks_of_ne hstep ht] at hdue
    exact Or.inl hdue

/-! ## Connections of a provider that was left dead -/

theorem LeftDead.isDown (hrun : Run (step cfg) s₀ es t) (hleft : LeftDead cfg p s₀ es) :
    IsDown t p := by
  rcases List.eq_nil_or_concat es with rfl | ⟨es, e, rfl⟩
  · exact absurd hleft (not_since_nil _ _ _)
  · rw [List.concat_eq_append] at hrun hleft
    obtain ⟨u, hu, hstep⟩ := run_concat_iff.mp hrun
    exact ((since_concat hu hstep).mp hleft).1

/-- Once it was left dead, nothing is due for a provider until it is back. -/
theorem LeftDead.not_evictionDue (hp : p ∈ cfg.providers) (hrun : Run (step cfg) s₀ es t)
    (htimely : AllSteps (step cfg) (fun u e _ => Timely cfg u e) s₀ es)
    (hleft : LeftDead cfg p s₀ es) : ¬ EvictionDue t p := by
  induction hrun with
  | nil => exact absurd hleft (not_since_nil _ _ _)
  | concat hrun hstep ih =>
    rw [allSteps_concat hrun] at htimely
    intro hdue
    rcases ((since_concat hrun hstep).mp hleft).2 with ⟨hdown, haway⟩ | hleft'
    · rcases evictionDue_step hstep hdue with hbefore | hbefore
      · exact (htimely.2 _ hstep).switch p hp hdown hbefore haway
      · exact hbefore.1 hdown
    · rcases evictionDue_step hstep hdue with hbefore | hbefore
      · exact ih htimely.1 hleft' hbefore
      · exact hbefore.1 (LeftDead.isDown hrun hleft')

/-- **No connection stays on a provider that was left dead**, in every run whose steps come in
time. -/
theorem clear_of_leftDead (hacc : cfg.Accepted) (hpin : cfg.routing.pinConnections = true)
    (hmask : ∀ p ∈ cfg.providers, Pin.InMask cfg p) (hinit : Initial s₀)
    (hrun : Run (step cfg) s₀ es t) (hok : ∀ e ∈ es, e.Succeeds)
    (htimely : AllSteps (step cfg) (fun u e _ => Timely cfg u e) s₀ es) :
    ∀ p ∈ cfg.providers, LeftDead cfg p s₀ es → Clear cfg t p := by
  have hevicted : Evicted cfg t := by
    refine hrun.invariant (C := fun u e _ => Timely cfg u e ∧ e.Succeeds) ?_ ?_ hinit.evicted
    · exact fun u e v hI hstep hC => hI.step hacc hpin hmask hC.1 hC.2 hstep
    · intro pre e post u v he hpre hstep
      exact ⟨htimely pre e post u v he hpre hstep, hok e (by simp [he])⟩
  intro p hp hleft
  exact (hevicted p hp (hleft.isDown hrun)).resolve_left
    (hleft.not_evictionDue hp hrun htimely)

/-- `a` goes down and its connection is evicted; the packets `late` arrive; the pass that follows
switches to `b`, up to the step that completes the switch. -/
def failover (late : List Event) : List Event :=
  bothUp ++ [.probe "a" false none (some (.gateway, "no reply"))] ++
    turns (.healthLoop "a") 1 ++ late ++ turns (.healthLoop "a") 7

/-- The step of the failover that makes `b` the active provider. -/
def commitB : Event := .advance (.healthLoop "a") true

/-- A new connection, opened after the eviction and before the pass. -/
def lateConnection : List Event := [.packet 8 .original 0]

theorem failover_enabled :
    (exec (step twoUplinks) coldStart (failover [] ++ [commitB])).isSome := by
  decide

theorem failover_late_enabled :
    (exec (step twoUplinks) coldStart (failover lateConnection ++ [commitB])).isSome := by
  decide

instance (cfg : Config) (s : Sys) (e : Event) : Decidable (Timely cfg s e) :=
  decidable_of_iff
    ((∀ p ∈ cfg.providers, IsDown s p → ¬ EvictionDue s p → ¬ Stamps cfg s p e) ∧
      ∀ p ∈ cfg.providers, IsDown s p → EvictionDue s p → ¬ SwitchesAway p s e)
    ⟨fun h => ⟨h.1, h.2⟩, fun h => ⟨h.stamp, h.switch⟩⟩

/-- The first uplink. -/
def uplinkA : Provider := twoUplinks.providers.head (by decide)

theorem leftDead_failover {late : List Event}
    (hrun : Run (step twoUplinks) coldStart (failover late ++ [commitB]) t)
    (hdown : IsDown t uplinkA)
    (hswitch : (exec (step twoUplinks) coldStart (failover late)).all
      (fun u => decide (IsDown u uplinkA ∧ SwitchesAway uplinkA u commitB)) = true) :
    LeftDead twoUplinks uplinkA coldStart (failover late ++ [commitB]) := by
  obtain ⟨u, hu, hstep⟩ := run_concat_iff.mp hrun
  have hu' := Run.of_all (P := fun u => IsDown u uplinkA ∧ SwitchesAway uplinkA u commitB)
    hswitch hu
  exact (since_concat hu hstep).mpr ⟨hdown, Or.inl hu'⟩

theorem clear_of_leftDead_failover :
    Clear twoUplinks ((exec (step twoUplinks) coldStart (failover [] ++ [commitB])).get
      failover_enabled) uplinkA :=
  clear_of_leftDead (by decide) rfl (by decide) coldStart_initial (run_get failover_enabled)
    (by decide)
    (allSteps_of_check (c := fun u e _ => decide (Timely twoUplinks u e))
      (fun _ _ _ h => of_decide_eq_true h) (by decide))
    uplinkA (by decide) (leftDead_failover (run_get failover_enabled) (by decide) (by decide))

/-- A connection opened between the eviction and the switch stays on the dead provider. -/
theorem not_clear_of_leftDead : ¬ ∀ (cfg : Config) (s₀ t : Sys) (es : List Event),
    cfg.Accepted → cfg.routing.pinConnections = true →
      (∀ p ∈ cfg.providers, Pin.InMask cfg p) → Initial s₀ → Run (step cfg) s₀ es t →
        (∀ e ∈ es, e.Succeeds) → ∀ p ∈ cfg.providers, LeftDead cfg p s₀ es → Clear cfg t p := by
  intro hall
  have hrun := run_get failover_late_enabled
  have hclear := hall twoUplinks coldStart _ _ (by decide) rfl (by decide) coldStart_initial hrun
    (by decide) uplinkA (by decide) (leftDead_failover hrun (by decide) (by decide))
  revert hclear
  decide

/-! ## Connections of working providers -/

/-- The event is a step of the daemon and not of the world around it. -/
def Event.OfDaemon : Event → Prop
  | .advance _ _ | .probe _ _ _ _ => True
  | _ => False

/-- The daemon's step removes no connection but what the eviction of a provider that is down
removes, and none that carries the mark of a provider that is not. -/
def Spares (cfg : Config) (s : Sys) (e : Event) (s' : Sys) : Prop :=
  e.OfDaemon → ∀ c ∈ s.kernel.conntrack, c ∉ s'.kernel.conntrack →
    (∃ p ∈ cfg.providers, e = .advance (.healthLoop p.name) true ∧ EvictionDue s p ∧ IsDown s p ∧
      Pin.Carries cfg p c.mark) ∧
    ∀ q ∈ cfg.providers, Pin.Carries cfg q c.mark → IsDown s q

/-- The task that takes a step, if its command succeeds. -/
def Event.acting? : Event → Option TaskId
  | .advance t true => some t
  | _ => none

/-- The step flushes the whole table only when it is empty, and evicts only connections that carry
the mark of no working provider. -/
structure SparesWhen (cfg : Config) (s : Sys) (e : Event) : Prop where
  flush : ∀ t ∈ e.acting?, (s.tasks t).flushesAll = true → s.kernel.conntrack = []
  evict : ∀ t ∈ e.acting?, ∀ p ∈ evicted? cfg s t, ∀ c ∈ s.kernel.conntrack,
    Pin.evicts cfg p c.mark = true → ∀ q ∈ cfg.providers, Pin.Carries cfg q c.mark → IsDown s q

instance (cfg : Config) (s : Sys) (e : Event) : Decidable (SparesWhen cfg s e) :=
  decidable_of_iff
    ((∀ t ∈ e.acting?, (s.tasks t).flushesAll = true → s.kernel.conntrack = []) ∧
      ∀ t ∈ e.acting?, ∀ p ∈ evicted? cfg s t, ∀ c ∈ s.kernel.conntrack,
        Pin.evicts cfg p c.mark = true →
          ∀ q ∈ cfg.providers, Pin.Carries cfg q c.mark → IsDown s q)
    ⟨fun h => ⟨h.1, h.2⟩, fun h => ⟨h.flush, h.evict⟩⟩

theorem acting?_eq_some_iff {t : TaskId} : e.acting? = some t ↔ e = .advance t true := by
  cases e with
  | advance t' ok => cases ok <;> simp [Event.acting?]
  | _ => simp [Event.acting?]

theorem evicted?_eq_some_iff {t : TaskId} : evicted? cfg s t = some p ↔
    ∃ name, t = .healthLoop name ∧ s.tasks t = .evicting ∧ cfg.provider? name = some p := by
  cases t with
  | healthLoop name =>
    simp only [evicted?]
    split_ifs with h
    · simp [h]
    · simp [h]
  | routeWatchdog => simp [evicted?]
  | control id => simp [evicted?]

/-- An eviction is due only for a provider that is down: its health loop does not probe
meanwhile. -/
def DueDown (s : Sys) : Prop := ∀ p, EvictionDue s p → IsDown s p

theorem DueDown.step (h : DueDown s) (hstep : step cfg s e = some s') : DueDown s' := by
  intro p hdue
  rcases evictionDue_step hstep hdue with hbefore | hbefore
  · rcases step_health hstep with hsame | ⟨name, _, _, _, -, hidle, rfl⟩
    · rw [IsDown, hsame]
      exact h p hbefore
    · have hname : p.name ≠ name := by
        rintro rfl
        rw [EvictionDue, hidle] at hbefore
        cases hbefore
      simpa only [IsDown, applyProbe, Function.update_of_ne hname] using h p hbefore
  · exact hbefore.2

theorem Initial.dueDown (h : Initial s) : DueDown s := by
  intro p hdue
  simp [EvictionDue, h.tasks] at hdue

/-- **One step** of the daemon spares what it should exactly when it is no full flush. -/
theorem spares_step_iff (hdue : DueDown s) (hstep : step cfg s e = some s') :
    Spares cfg s e s' ↔ SparesWhen cfg s e := by
  constructor
  · intro hspares
    refine ⟨fun t he hflush => ?_, fun t he p hp c hc hevicts => ?_⟩
    · obtain rfl := acting?_eq_some_iff.mp he
      have hconn := advance_conntrack hstep
      rw [if_pos ⟨hflush, rfl⟩] at hconn
      refine List.eq_nil_iff_forall_not_mem.mpr fun c hc => ?_
      obtain ⟨⟨p, -, he, hev, -⟩, -⟩ := hspares trivial c hc (by simp [hconn])
      cases he
      rw [show s.tasks _ = _ from hev] at hflush
      cases hflush
    · obtain rfl := acting?_eq_some_iff.mp he
      obtain ⟨name, rfl, hev, -⟩ := evicted?_eq_some_iff.mp hp
      have hconn := advance_conntrack hstep
      rw [hev, show evicted? cfg s _ = some p from hp] at hconn
      simp only [TaskState.flushesAll, Bool.false_eq_true, false_and, if_false] at hconn
      refine (hspares trivial c hc ?_).2
      rw [hconn, mem_evictPinned]
      simp [hevicts]
  · intro hwhen hdaemon c hc hgone
    cases e with
    | probe name success latencyMs failure =>
      simp only [step] at hstep
      split_ifs at hstep
      cases hstep
      exact absurd hc hgone
    | advance t ok =>
      rw [advance_conntrack hstep] at hgone
      cases ok with
      | false =>
        cases hev : evicted? cfg s t with
        | none => simp [hev, hc] at hgone
        | some p => simp [hev, Kernel.evictPinned, hc] at hgone
      | true =>
        split_ifs at hgone with hflush
        · rw [hwhen.flush t rfl hflush.1] at hc
          cases hc
        · cases hev : evicted? cfg s t with
          | none => simp [hev, hc] at hgone
          | some p =>
            simp only [hev, mem_evictPinned, hc, true_and, Bool.not_eq_false] at hgone
            obtain ⟨name, rfl, htask, hfind⟩ := evicted?_eq_some_iff.mp hev
            obtain ⟨hp, rfl⟩ := Config.mem_of_provider? hfind
            exact ⟨⟨p, hp, rfl, htask, hdue p htask, Pin.Carries.of_evicts hgone⟩,
              hwhen.evict _ rfl p hev c hc hgone⟩
    | tick now | external routes | packet id d nfmark | track id mark | expire id
    | force id name | clear id | watch => exact hdaemon.elim

/-- **The connections of working providers are spared** along a run exactly when none of its steps
flushes a table that is not empty, and no eviction matches more than it should. -/
theorem spares_iff (hinit : Initial s₀) (es : List Event) :
    AllSteps (step cfg) (Spares cfg) s₀ es ↔
      AllSteps (step cfg) (fun u e _ => SparesWhen cfg u e) s₀ es := by
  have hdue : ∀ pre u, Run (step cfg) s₀ pre u → DueDown u := fun pre u hpre =>
    hpre.preserves (fun _ _ _ hI hstep => hI.step hstep) hinit.dueDown
  constructor
  · intro h pre e post u v he hpre hstep
    exact (spares_step_iff (hdue pre u hpre) hstep).mp (h pre e post u v he hpre hstep)
  · intro h pre e post u v he hpre hstep
    exact (spares_step_iff (hdue pre u hpre) hstep).mpr (h pre e post u v he hpre hstep)

theorem spares_iff_failover :
    AllSteps (step twoUplinks) (Spares twoUplinks) coldStart (failover [] ++ [commitB]) ↔
      AllSteps (step twoUplinks) (fun u e _ => SparesWhen twoUplinks u e) coldStart
        (failover [] ++ [commitB]) :=
  spares_iff coldStart_initial (failover [] ++ [commitB])

/-- Somebody else takes over the default route; the operator's `auto` puts it back. -/
def reassert : List Event :=
  bothUp ++
    [.external [{ gateway := some (Ipv4Addr.ofOctets 10 0 0 9), interface := "wan", metric := 0,
                  proto := "dhcp" }],
      .clear 0] ++ turns (.control 0) 10

theorem reassert_enabled :
    (exec (step twoUplinks) coldStart (reassert ++ [.advance (.control 0) true])).isSome := by
  decide

/-- An operator's command that keeps the active provider resets the connections that it carries. -/
theorem not_spares : ¬ ∀ (cfg : Config) (s₀ t : Sys) (es : List Event),
    cfg.Accepted → cfg.routing.pinConnections = true →
      (∀ p ∈ cfg.providers, Pin.InMask cfg p) → Initial s₀ → Run (step cfg) s₀ es t →
        (∀ e ∈ es, e.Succeeds) → AllSteps (step cfg) (Spares cfg) s₀ es := by
  intro hall
  have hrun := run_get reassert_enabled
  obtain ⟨u, hu, hstep⟩ := run_concat_iff.mp hrun
  have hspares := hall twoUplinks coldStart _ _ (by decide) rfl (by decide) coldStart_initial hrun
    (by decide) reassert _ [] u _ rfl hu hstep trivial
  have hmem := Run.of_all (P := fun u => ⟨7, 0x201⟩ ∈ u.kernel.conntrack) (by decide) hu
  obtain ⟨⟨p, -, he, -⟩, -⟩ := hspares ⟨7, 0x201⟩ hmem (by decide)
  cases he

end Vlb.Balancer
