import Mathlib.Data.List.MinMax
import Mathlib.Data.List.Nodup
import Mathlib.Data.Prod.Lex
import Mathlib.Data.String.Basic
import Vlb.Config

/-!
# Provider selection

The pure decision at the heart of failover, and the damping of its failback window. Nothing here
reads a clock: the current time is passed in.

* `SelectionInput.decide`: which provider should own the default route.
* `FlapTracker.effectiveFailback`: the failback window after the recent switches; `none` where
  chrono panics.
* `Policy`: the selection policy, one clause for each situation.
* **`SelectionInput.decide_policy`**: every decision is the one the policy asks for.
* **`SelectionInput.decide_perm`**: it does not depend on the order of the providers.
-/

namespace Vlb

open Time

/-- The verdict of the probes on a provider. -/
inductive HealthState
  | up
  | down
  | unknown
  deriving DecidableEq, Repr

namespace Selection

/-- What selection sees of a provider. -/
structure ProviderView where
  name : String
  priority : UInt32
  state : HealthState
  /-- When the provider last became `up`. -/
  upSince : Option DateTime
  deriving DecidableEq

/-- What a decision is made from. -/
structure SelectionInput where
  now : DateTime
  /-- The provider that owns the default route. -/
  current : Option String
  /-- The operator's pin. -/
  forced : Option String
  providers : List ProviderView
  failbackStable : Duration

/-- What is decided. -/
inductive Decision
  | keep
  | switch (target reason : String)
  | waitingForFailback (candidate : String) (stableFor required : Duration)
  | waitingForVerdict (incumbent candidate : String)
  | waitingForFirstVerdict (pending candidate : String)
  | noHealthyProvider
  deriving DecidableEq

def Decision.isSwitch : Decision → Bool
  | .switch _ _ => true
  | _ => false

/-! ## The decision -/

def ProviderView.isUp (p : ProviderView) : Bool := p.state = .up

/-- Whether `p` has been up for `window`. -/
def ProviderView.stableFor (p : ProviderView) (now : DateTime) (window : Duration) : Bool :=
  match p.upSince with
  | none => false
  | some since => window.fromStdOrZero ≤ now.signedDurationSince since

/-- The order of `best_healthy`: the priority number, then the name. -/
def ProviderView.rank (p : ProviderView) : ℕ ×ₗ String := toLex (p.priority.toNat, p.name)

/-- The first in the order of priorities. -/
def bestHealthy (ps : List ProviderView) : Option ProviderView :=
  (ps.filter ProviderView.isUp).argmin ProviderView.rank

/-- Nothing is to be done for the provider that is active. -/
def switchOrKeep (current : Option String) (target : ProviderView) (reason : String) : Decision :=
  if current = some target.name then .keep else .switch target.name reason

def elapsedSecs (now : DateTime) (since : Option DateTime) : UInt64 :=
  match since with
  | none => 0
  | some s => UInt64.ofNat (max (TimeDelta.numSeconds (now.signedDurationSince s)) 0).toNat

/-- The unknown provider with the lowest priority number, below that of `best`. -/
def pendingBetter (ps : List ProviderView) (best : ProviderView) : Option ProviderView :=
  (ps.filter fun p => p.state = .unknown ∧ p.priority < best.priority).argmin
    fun p => p.priority.toNat

/-- `match best_healthy(providers)` in the two arms of an unusable pin. -/
def switchToBest (current : Option String) (ps : List ProviderView) (reason : String) : Decision :=
  match bestHealthy ps with
  | some b => switchOrKeep current b reason
  | none => .noHealthyProvider

def SelectionInput.decide (input : SelectionInput) : Decision :=
  match input.forced with
  | some pin =>
    match input.providers.find? (·.name = pin) with
    | some p =>
      if p.isUp then switchOrKeep input.current p "operator override"
      else switchToBest input.current input.providers
        ("forced provider '" ++ pin ++ "' is not healthy, using best available")
    | none => switchToBest input.current input.providers
        ("forced provider '" ++ pin ++ "' does not exist, using best available")
  | none =>
    match bestHealthy input.providers with
    | none => .noHealthyProvider
    | some best =>
      match input.current with
      | none =>
        match pendingBetter input.providers best with
        | some pending => .waitingForFirstVerdict pending.name best.name
        | none => .switch best.name "initial selection"
      | some curName =>
        if curName = best.name then .keep
        else match input.providers.find? (·.name = curName) with
          | none =>
            .switch best.name ("current provider '" ++ curName ++ "' is no longer configured")
          | some c =>
            match c.state with
            | .down =>
              .switch best.name ("'" ++ curName ++ "' is down — switching to healthy '" ++
                best.name ++ "' (priority " ++ toString best.priority ++ ")")
            | .unknown => .waitingForVerdict curName best.name
            | .up =>
              if best.stableFor input.now input.failbackStable then
                .switch best.name ("failback to higher-priority '" ++ best.name ++ "' (priority " ++
                  toString best.priority ++ " < " ++ toString c.priority ++ "), healthy for " ++
                  toString (elapsedSecs input.now best.upSince) ++ "s")
              else
                .waitingForFailback best.name
                  (Duration.fromSecs (elapsedSecs input.now best.upSince)) input.failbackStable

/-! ## Flap damping -/

/-- The times of recent switches, oldest first. -/
structure FlapTracker where
  switches : List DateTime := []
  deriving DecidableEq

namespace FlapTracker

/-- How many switches are remembered. -/
def capacity : ℕ := 256

/-- A tracker with the switches of an earlier process. -/
def withHistory (switches : List DateTime) : FlapTracker :=
  let switches := switches.mergeSort fun t u => t ≤ u
  ⟨switches.drop (switches.length - capacity)⟩

def recordSwitch (t : FlapTracker) (at_ : DateTime) : FlapTracker :=
  let switches := t.switches ++ [at_]
  ⟨switches.drop (switches.length - capacity)⟩

def switchesInWindow (t : FlapTracker) (now : DateTime) (window : Duration) : Option UInt32 :=
  (now.sub window.fromStdOrZero).map fun cutoff =>
    UInt32.ofNat (t.switches.countP fun at_ => cutoff ≤ at_)

def effectiveFailback (t : FlapTracker) (now : DateTime) (base : Duration) (threshold : UInt32)
    (window max : Duration) : Option Duration :=
  (t.switchesInWindow now window).map fun recent =>
    if recent ≤ threshold then min base max
    else
      let excess := min (recent.toNat - threshold.toNat) 16
      min ((base.checkedMul (UInt32.ofNat (2 ^ excess))).getD max) max

end FlapTracker

/-! ## What each search finds -/

theorem bestHealthy_mem {ps : List ProviderView} {b : ProviderView} (h : bestHealthy ps = some b) :
    b ∈ ps ∧ b.state = .up := by
  have := List.argmin_mem h
  simpa [ProviderView.isUp] using this

theorem bestHealthy_le {ps : List ProviderView} {b p : ProviderView}
    (h : bestHealthy ps = some b) (hp : p ∈ ps) (hup : p.state = .up) :
    b.priority ≤ p.priority := by
  have hle : b.rank ≤ p.rank :=
    List.le_of_mem_argmin (List.mem_filter.mpr ⟨hp, by simpa [ProviderView.isUp]⟩) h
  rw [UInt32.le_iff_toNat_le]
  exact (Prod.Lex.monotone_fst _ _ hle)

theorem bestHealthy_eq_none_iff {ps : List ProviderView} :
    bestHealthy ps = none ↔ ∀ p ∈ ps, p.state ≠ .up := by
  simp [bestHealthy, List.argmin_eq_none, List.filter_eq_nil_iff, ProviderView.isUp]

theorem pendingBetter_mem {ps : List ProviderView} {best p : ProviderView}
    (h : pendingBetter ps best = some p) :
    p ∈ ps ∧ p.state = .unknown ∧ p.priority < best.priority := by
  have := List.argmin_mem h
  simpa using this

theorem pendingBetter_le {ps : List ProviderView} {best p q : ProviderView}
    (h : pendingBetter ps best = some p) (hq : q ∈ ps) (hstate : q.state = .unknown)
    (hlt : q.priority < best.priority) : p.priority ≤ q.priority := by
  rw [UInt32.le_iff_toNat_le]
  exact List.le_of_mem_argmin (f := fun p : ProviderView => p.priority.toNat)
    (List.mem_filter.mpr ⟨hq, by simp [hstate, hlt]⟩) h

theorem pendingBetter_eq_none_iff {ps : List ProviderView} {best : ProviderView} :
    pendingBetter ps best = none ↔
      ∀ p ∈ ps, p.state = .unknown → ¬ p.priority < best.priority := by
  simp [pendingBetter, List.argmin_eq_none, List.filter_eq_nil_iff]

theorem find_name_eq_some_iff {ps : List ProviderView}
    (hnames : (ps.map ProviderView.name).Nodup) {name : String} {p : ProviderView} :
    ps.find? (·.name = name) = some p ↔ p ∈ ps ∧ p.name = name := by
  constructor
  · intro h
    exact ⟨List.mem_of_find?_eq_some h, by simpa using List.find?_some h⟩
  · rintro ⟨hp, rfl⟩
    cases hfind : ps.find? (·.name = p.name) with
    | none => simpa using List.find?_eq_none.mp hfind p hp
    | some q =>
      have hq : q.name = p.name := by simpa using List.find?_some hfind
      rw [List.inj_on_of_nodup_map hnames (List.mem_of_find?_eq_some hfind) hp hq]

/-! ## The policy -/

/-- `b` is the up provider with the lowest priority number. -/
def IsBest (ps : List ProviderView) (b : ProviderView) : Prop :=
  b ∈ ps ∧ b.state = .up ∧ ∀ p ∈ ps, p.state = .up → b.priority ≤ p.priority

/-- `p` is the unknown provider with the lowest priority number, and better than `best`. -/
def IsFirstPending (ps : List ProviderView) (best p : ProviderView) : Prop :=
  p ∈ ps ∧ p.state = .unknown ∧ p.priority < best.priority ∧
    ∀ q ∈ ps, q.state = .unknown → p.priority ≤ q.priority

/-- Some provider called `name` is in the state `s`. -/
def HasState (ps : List ProviderView) (name : String) (s : HealthState) : Prop :=
  ∃ p ∈ ps, p.name = name ∧ p.state = s

def SwitchesTo (d : Decision) (name : String) : Prop := ∃ reason, d = .switch name reason

/-- The route stays if it is already on `name`, and is moved there if it is not. -/
structure SettlesOn (current : Option String) (d : Decision) (name : String) : Prop where
  keep : current = some name → d = .keep
  switch : current ≠ some name → SwitchesTo d name

/-- `b` has been up for the whole failback window. -/
def StableFor (input : SelectionInput) (b : ProviderView) : Prop :=
  ∃ since, b.upSince = some since ∧ since.nanos + input.failbackStable.nanos ≤ input.now.nanos

/-- The policy while some provider is up, `best` being the best of them. -/
structure Policy (input : SelectionInput) (best : ProviderView) (d : Decision) : Prop where
  pinUp : ∀ pin, input.forced = some pin → HasState input.providers pin .up →
    SettlesOn input.current d pin
  pinNotUp : ∀ pin, input.forced = some pin → ¬ HasState input.providers pin .up →
    SettlesOn input.current d best.name
  coldStart : input.forced = none → input.current = none →
    ((∃ pending candidate, d = .waitingForFirstVerdict pending candidate) ↔
      ∃ p ∈ input.providers, p.state = .unknown ∧ p.priority < best.priority)
  coldStartNames : input.forced = none → input.current = none → ∀ pending candidate,
    d = .waitingForFirstVerdict pending candidate →
      candidate = best.name ∧ ∃ p, IsFirstPending input.providers best p ∧ p.name = pending
  coldStartSwitch : input.forced = none → input.current = none →
    (¬ ∃ pending candidate, d = .waitingForFirstVerdict pending candidate) →
      SwitchesTo d best.name
  onBest : input.forced = none → input.current = some best.name → d = .keep
  unlisted : input.forced = none → ∀ cur, input.current = some cur → cur ≠ best.name →
    (∀ p ∈ input.providers, p.name ≠ cur) → SwitchesTo d best.name
  down : input.forced = none → ∀ cur, input.current = some cur → cur ≠ best.name →
    HasState input.providers cur .down → SwitchesTo d best.name
  unknown : input.forced = none → ∀ cur, input.current = some cur → cur ≠ best.name →
    HasState input.providers cur .unknown → d = .waitingForVerdict cur best.name
  failback : input.forced = none → ∀ cur, input.current = some cur → cur ≠ best.name →
    HasState input.providers cur .up → StableFor input best → SwitchesTo d best.name
  failbackWait : input.forced = none → ∀ cur, input.current = some cur → cur ≠ best.name →
    HasState input.providers cur .up → ¬ StableFor input best →
      d = .waitingForFailback best.name (Duration.fromSecs (elapsedSecs input.now best.upSince))
        input.failbackStable

theorem isBest_bestHealthy {ps : List ProviderView} {b : ProviderView}
    (h : bestHealthy ps = some b) : IsBest ps b :=
  ⟨(bestHealthy_mem h).1, (bestHealthy_mem h).2, fun _ hp hup => bestHealthy_le h hp hup⟩

theorem IsBest.unique {ps : List ProviderView} (hprios : (ps.map ProviderView.priority).Nodup)
    {b c : ProviderView} (hb : IsBest ps b) (hc : IsBest ps c) : b = c := by
  have hbc : b.priority = c.priority :=
    UInt32.le_antisymm (hb.2.2 c hc.1 hc.2.1) (hc.2.2 b hb.1 hb.2.1)
  exact List.inj_on_of_nodup_map hprios hb.1 hc.1 hbc

theorem HasState.name_ne {ps : List ProviderView} {name : String} {state : HealthState}
    {best : ProviderView} (h : HasState ps name state) (hnames : (ps.map ProviderView.name).Nodup)
    (hbest : bestHealthy ps = some best) (hstate : state ≠ .up) : name ≠ best.name := by
  obtain ⟨p, hp, rfl, rfl⟩ := h
  intro heq
  obtain ⟨hmem, hup⟩ := bestHealthy_mem hbest
  rw [List.inj_on_of_nodup_map hnames hp hmem heq] at hstate
  exact hstate hup

theorem isFirstPending_pendingBetter {ps : List ProviderView} {best p : ProviderView}
    (h : pendingBetter ps best = some p) : IsFirstPending ps best p := by
  obtain ⟨hp, hstate, hlt⟩ := pendingBetter_mem h
  refine ⟨hp, hstate, hlt, fun q hq hqs => ?_⟩
  by_cases hqlt : q.priority < best.priority
  · exact pendingBetter_le h hq hqs hqlt
  · exact UInt32.le_trans (UInt32.le_of_lt hlt) (UInt32.not_lt.mp hqlt)

theorem settlesOn_switchOrKeep (current : Option String) (target : ProviderView)
    (reason : String) :
    SettlesOn current (switchOrKeep current target reason) target.name where
  keep h := by simp [switchOrKeep, h]
  switch h := ⟨reason, by simp [switchOrKeep, h]⟩

theorem settlesOn_switchToBest {ps : List ProviderView} {best : ProviderView}
    (h : bestHealthy ps = some best) (current : Option String) (reason : String) :
    SettlesOn current (switchToBest current ps reason) best.name := by
  simp only [switchToBest, h]
  exact settlesOn_switchOrKeep current best reason

theorem stableFor_iff {input : SelectionInput} {b : ProviderView}
    (hwindow : input.failbackStable.nanos ≤ TimeDelta.max) :
    b.stableFor input.now input.failbackStable = true ↔ StableFor input b := by
  cases h : b.upSince with
  | none => simp [ProviderView.stableFor, StableFor, h]
  | some since =>
    simp [ProviderView.stableFor, StableFor, h, fromStdOrZero_le_iff hwindow]

section Arms

variable {input : SelectionInput} {best : ProviderView}

/-- With a pin, selection settles on the pinned provider if it is up, and else on the best. -/
theorem decide_pinned (hnames : (input.providers.map ProviderView.name).Nodup) {pin : String}
    (hpin : input.forced = some pin) (hbest : bestHealthy input.providers = some best) :
    (HasState input.providers pin .up → SettlesOn input.current input.decide pin) ∧
      (¬ HasState input.providers pin .up → SettlesOn input.current input.decide best.name) := by
  cases hfind : input.providers.find? (·.name = pin) with
  | none =>
    have habsent : ¬ HasState input.providers pin .up := by
      rintro ⟨p, hp, hname, -⟩
      exact absurd hname (by simpa using List.find?_eq_none.mp hfind p hp)
    simp only [SelectionInput.decide, hpin, hfind]
    exact ⟨fun h => absurd h habsent, fun _ => settlesOn_switchToBest hbest _ _⟩
  | some p =>
    obtain ⟨hp, rfl⟩ := (find_name_eq_some_iff hnames).mp hfind
    simp only [SelectionInput.decide, hpin, hfind]
    have hstate : HasState input.providers p.name .up ↔ p.isUp = true := by
      simp only [ProviderView.isUp, decide_eq_true_eq]
      refine ⟨?_, fun h => ⟨p, hp, rfl, h⟩⟩
      rintro ⟨q, hq, hname, hup⟩
      rwa [← List.inj_on_of_nodup_map hnames hq hp hname]
    rw [hstate]
    by_cases hup : p.isUp = true
    · rw [if_pos hup]
      exact ⟨fun _ => settlesOn_switchOrKeep _ p _, fun h => absurd hup h⟩
    · rw [if_neg hup]
      exact ⟨fun h => absurd h hup, fun _ => settlesOn_switchToBest hbest _ _⟩

theorem decide_cold (hpin : input.forced = none) (hcur : input.current = none)
    (hbest : bestHealthy input.providers = some best) :
    input.decide = match pendingBetter input.providers best with
      | some pending => .waitingForFirstVerdict pending.name best.name
      | none => .switch best.name "initial selection" := by
  simp only [SelectionInput.decide, hpin, hcur, hbest]

/-- With no pin, the route on some other provider: what becomes of it depends on that provider. -/
theorem decide_routed (hpin : input.forced = none) {cur : String}
    (hcur : input.current = some cur) (hne : cur ≠ best.name)
    (hbest : bestHealthy input.providers = some best) :
    ((∀ p ∈ input.providers, p.name ≠ cur) → SwitchesTo input.decide best.name) ∧
      ((input.providers.map ProviderView.name).Nodup →
        (HasState input.providers cur .down → SwitchesTo input.decide best.name) ∧
        (HasState input.providers cur .unknown →
          input.decide = .waitingForVerdict cur best.name) ∧
        (HasState input.providers cur .up →
          if best.stableFor input.now input.failbackStable then SwitchesTo input.decide best.name
          else input.decide = .waitingForFailback best.name
            (Duration.fromSecs (elapsedSecs input.now best.upSince)) input.failbackStable)) := by
  simp only [SelectionInput.decide, hpin, hcur, hbest, if_neg hne]
  refine ⟨fun habsent => ?_, fun hnames => ⟨?_, ?_, ?_⟩⟩
  · have hfind : input.providers.find? (·.name = cur) = none :=
      List.find?_eq_none.mpr fun p hp => by simpa using habsent p hp
    rw [hfind]
    exact ⟨_, rfl⟩
  all_goals
    rintro ⟨c, hc, hname, hstate⟩
    rw [(find_name_eq_some_iff hnames).mpr ⟨hc, hname⟩]
    simp only [hstate]
  · exact ⟨_, rfl⟩
  · split_ifs with hstable
    · exact ⟨_, rfl⟩
    · rfl

/-- With no pin, the route leaves an up provider only for the best one, and only once that has been
up for the window. -/
theorem decide_leaves_up (hpin : input.forced = none)
    (hnames : (input.providers.map ProviderView.name).Nodup) {cur target : String}
    (hcur : input.current = some cur) (hup : HasState input.providers cur .up)
    (hswitch : SwitchesTo input.decide target) :
    ∃ best ∈ input.providers, best.name = target ∧ best.state = .up ∧
      best.stableFor input.now input.failbackStable = true := by
  obtain ⟨reason, hswitch⟩ := hswitch
  cases hbest : bestHealthy input.providers with
  | none => simp [SelectionInput.decide, hpin, hbest] at hswitch
  | some best =>
    by_cases hne : cur = best.name
    · simp [SelectionInput.decide, hpin, hbest, hcur, hne] at hswitch
    · have h := ((decide_routed hpin hcur hne hbest).2 hnames).2.2 hup
      split_ifs at h with hstable
      · obtain ⟨reason', h⟩ := h
        obtain ⟨hname, -⟩ := Decision.switch.inj (h.symm.trans hswitch)
        exact ⟨best, (bestHealthy_mem hbest).1, hname, (bestHealthy_mem hbest).2, hstable⟩
      · rw [h] at hswitch
        cases hswitch

theorem decide_eq_noHealthyProvider_iff :
    input.decide = .noHealthyProvider ↔ ∀ p ∈ input.providers, p.state ≠ .up := by
  rw [← bestHealthy_eq_none_iff]
  constructor
  · contrapose!
    intro hbest
    obtain ⟨best, hbest⟩ := Option.ne_none_iff_exists'.mp hbest
    simp only [SelectionInput.decide, switchToBest, switchOrKeep, hbest]
    split <;> repeat' split
    all_goals simp
  · intro hnone
    simp only [SelectionInput.decide, switchToBest, hnone]
    split
    · split
      · next p hfind =>
        have hdown := bestHealthy_eq_none_iff.mp hnone p (List.mem_of_find?_eq_some hfind)
        rw [if_neg (by simpa [ProviderView.isUp] using hdown)]
      · rfl
    · rfl

theorem decide_policy_of_best (hnames : (input.providers.map ProviderView.name).Nodup)
    (hwindow : input.failbackStable.nanos ≤ TimeDelta.max)
    (hbest : bestHealthy input.providers = some best) : Policy input best input.decide where
  pinUp _ hpin := (decide_pinned hnames hpin hbest).1
  pinNotUp _ hpin := (decide_pinned hnames hpin hbest).2
  coldStart hpin hcur := by
    rw [decide_cold hpin hcur hbest]
    cases hpending : pendingBetter input.providers best with
    | none =>
      have hno := pendingBetter_eq_none_iff.mp hpending
      simp only [reduceCtorEq, exists_false, false_iff]
      rintro ⟨p, hp, hstate, hlt⟩
      exact hno p hp hstate hlt
    | some p => simpa using ⟨p, pendingBetter_mem hpending⟩
  coldStartNames hpin hcur pending candidate h := by
    rw [decide_cold hpin hcur hbest] at h
    cases hpending : pendingBetter input.providers best with
    | none => simp [hpending] at h
    | some p =>
      obtain ⟨rfl, rfl⟩ : p.name = pending ∧ best.name = candidate := by simpa [hpending] using h
      exact ⟨rfl, p, isFirstPending_pendingBetter hpending, rfl⟩
  coldStartSwitch hpin hcur h := by
    rw [decide_cold hpin hcur hbest] at h ⊢
    cases hpending : pendingBetter input.providers best with
    | none => exact ⟨_, rfl⟩
    | some p => simp [hpending] at h
  onBest hpin hcur := by simp [SelectionInput.decide, hpin, hcur, hbest]
  unlisted hpin _ hcur hne := (decide_routed hpin hcur hne hbest).1
  down hpin _ hcur hne := ((decide_routed hpin hcur hne hbest).2 hnames).1
  unknown hpin _ hcur hne := ((decide_routed hpin hcur hne hbest).2 hnames).2.1
  failback hpin _ hcur hne hup hstable := by
    have h := ((decide_routed hpin hcur hne hbest).2 hnames).2.2 hup
    rwa [if_pos ((stableFor_iff hwindow).mpr hstable)] at h
  failbackWait hpin _ hcur hne hup hstable := by
    have h := ((decide_routed hpin hcur hne hbest).2 hnames).2.2 hup
    rwa [if_neg (mt (stableFor_iff hwindow).mp hstable)] at h

end Arms

/-- **Every decision is the one the policy asks for.** -/
theorem SelectionInput.decide_policy (input : SelectionInput)
    (hnames : (input.providers.map ProviderView.name).Nodup)
    (hprios : (input.providers.map ProviderView.priority).Nodup)
    (hwindow : input.failbackStable.nanos ≤ TimeDelta.max) :
    (input.decide = .noHealthyProvider ↔ ∀ p ∈ input.providers, p.state ≠ .up) ∧
      ((∃ p ∈ input.providers, p.state = .up) →
        ∃ best, (∀ b, IsBest input.providers b ↔ b = best) ∧
          Policy input best input.decide) := by
  refine ⟨decide_eq_noHealthyProvider_iff, fun hup => ?_⟩
  obtain ⟨best, hbest⟩ : ∃ best, bestHealthy input.providers = some best := by
    refine Option.ne_none_iff_exists'.mp fun hnone => ?_
    obtain ⟨p, hp, hp'⟩ := hup
    exact bestHealthy_eq_none_iff.mp hnone p hp hp'
  refine ⟨best, fun b => ⟨fun hb => hb.unique hprios (isBest_bestHealthy hbest), ?_⟩,
    decide_policy_of_best hnames hwindow hbest⟩
  rintro rfl
  exact isBest_bestHealthy hbest

/-! ## The order of the providers -/

section Order

variable {ps qs : List ProviderView}

/-- Where no two entries are on a par, the least of them does not depend on their order. -/
theorem argmin_perm {β : Type*} [LinearOrder β] {f : ProviderView → β} (hperm : ps.Perm qs)
    (hinj : ∀ p ∈ ps, ∀ q ∈ ps, f p = f q → p = q) : ps.argmin f = qs.argmin f := by
  cases hp : ps.argmin f with
  | none =>
    rw [List.argmin_eq_none.mp hp, List.nil_perm] at hperm
    rw [hperm]
    rfl
  | some p =>
    cases hq : qs.argmin f with
    | none =>
      rw [List.argmin_eq_none.mp hq, List.perm_nil] at hperm
      rw [hperm] at hp
      cases hp
    | some q =>
      have hpin : p ∈ ps := List.argmin_mem hp
      have hqin : q ∈ ps := hperm.mem_iff.mpr (List.argmin_mem hq)
      have hle : f p ≤ f q := List.le_of_mem_argmin hqin hp
      have hge : f q ≤ f p := List.le_of_mem_argmin (hperm.mem_iff.mp hpin) hq
      rw [hinj p hpin q hqin (le_antisymm hle hge)]

theorem bestHealthy_perm (hperm : ps.Perm qs) (hnames : (ps.map ProviderView.name).Nodup) :
    bestHealthy ps = bestHealthy qs := by
  apply argmin_perm (hperm.filter _)
  intro p hp q hq heq
  have hname : p.name = q.name := congrArg (fun r => (ofLex r).2) heq
  exact List.inj_on_of_nodup_map hnames (List.mem_of_mem_filter hp) (List.mem_of_mem_filter hq) hname

theorem pendingBetter_perm (hperm : ps.Perm qs) (hprios : (ps.map ProviderView.priority).Nodup)
    (best : ProviderView) : pendingBetter ps best = pendingBetter qs best := by
  apply argmin_perm (hperm.filter _)
  intro p hp q hq heq
  exact List.inj_on_of_nodup_map hprios (List.mem_of_mem_filter hp) (List.mem_of_mem_filter hq)
    (UInt32.toNat_inj.mp heq)

theorem find_name_perm (hperm : ps.Perm qs) (hnames : (ps.map ProviderView.name).Nodup)
    (name : String) : ps.find? (·.name = name) = qs.find? (·.name = name) := by
  ext p
  rw [find_name_eq_some_iff hnames, find_name_eq_some_iff ((hperm.map _).nodup_iff.mp hnames),
    hperm.mem_iff]

end Order

/-- **The decision does not depend on the order of the providers.** -/
theorem SelectionInput.decide_perm (input : SelectionInput) {providers : List ProviderView}
    (hperm : input.providers.Perm providers)
    (hnames : (input.providers.map ProviderView.name).Nodup)
    (hprios : (input.providers.map ProviderView.priority).Nodup) :
    { input with providers }.decide = input.decide := by
  unfold SelectionInput.decide switchToBest
  simp only [← bestHealthy_perm hperm hnames, ← find_name_perm hperm hnames,
    ← pendingBetter_perm hperm hprios]

/-- Two uplinks in their failback window: the backup carries the route, the primary is back. -/
def failbackInput : SelectionInput where
  now := ⟨20 * nanosPerSec, by decide⟩
  current := some "backup"
  forced := none
  providers := [⟨"primary", 1, .up, some DateTime.epoch⟩, ⟨"backup", 2, .up, some DateTime.epoch⟩]
  failbackStable := Duration.fromSecs 30

theorem failbackInput_policy :
    (failbackInput.decide = .noHealthyProvider ↔
        ∀ p ∈ failbackInput.providers, p.state ≠ .up) ∧
      ((∃ p ∈ failbackInput.providers, p.state = .up) →
        ∃ best, (∀ b, IsBest failbackInput.providers b ↔ b = best) ∧
          Policy failbackInput best failbackInput.decide) :=
  failbackInput.decide_policy (by decide) (by decide) (by decide)

theorem failbackInput_decide_reverse :
    { failbackInput with providers := failbackInput.providers.reverse }.decide =
      failbackInput.decide :=
  failbackInput.decide_perm (List.reverse_perm _).symm (by decide) (by decide)

end Selection

end Vlb
