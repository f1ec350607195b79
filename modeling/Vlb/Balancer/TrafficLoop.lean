import Mathlib.Data.List.Chain
import Mathlib.Data.List.Perm.Subperm
import Vlb.Balancer.TrafficTick
import Vlb.Lib.Meters
import Vlb.Lib.Transition

/-!
# The loop that records traffic

Every tick reads what the interfaces have carried, and what the rules of the uplinks have counted, and
records the difference to the reading before. Rules are rewritten and interfaces go and come back at
any time, and readings fail.

* `Wires`: the meters of the kernel.
* `Traffic.step`: runs of the loop, and what becomes of the meters meanwhile.
* `Accounts`: which meters an interval is recorded by, and that its rows have no more than these
  carried.
* **`trafficLoop_accounts`**: so it is of all of them, in every run.
-/

namespace Vlb.Balancer

open Canary Entries Meters Time Transition Uplinks

/-! ## The meters -/

deriving instance DecidableEq for Counter

/-- What is shown under one key, or of one interface. -/
def reading (ms : Counter → Meter) : IfCounters where
  rxBytes := (ms .rxBytes).shown
  rxPackets := (ms .rxPackets).shown
  txBytes := (ms .txBytes).shown
  txPackets := (ms .txPackets).shown

/-- The rules that count, by their keys, and the interfaces. -/
structure Wires where
  uplinks : Option UInt32 → Counter → Meter
  listed : List (Option UInt32)
  ifaces : String → Counter → Meter
  present : List String

namespace Wires

/-- A rule counts a packet. -/
def countUplink (w : Wires) (key : Option UInt32) (c : Counter) (n : ℕ) : Wires :=
  { w with uplinks := fun key' c' =>
      if key' = key ∧ c' = c then (w.uplinks key' c').add n else w.uplinks key' c' }

/-- An interface counts a packet. -/
def countInterface (w : Wires) (i : String) (c : Counter) (n : ℕ) : Wires :=
  { w with ifaces := fun i' c' =>
      if i' = i ∧ c' = c then (w.ifaces i' c').add n else w.ifaces i' c' }

/-- The chain is written anew, with rules for these keys. -/
def rewrite (w : Wires) (keys : List (Option UInt32)) : Wires :=
  { w with listed := keys, uplinks := fun key c => (w.uplinks key c).restart }

/-- An interface comes or goes. -/
def replace (w : Wires) (i : String) (present : List String) : Wires :=
  { w with
    present
    ifaces := fun i' c => if i' = i then (w.ifaces i' c).restart else w.ifaces i' c }

/-- What `/proc/net/dev` says. -/
def snapshot (w : Wires) : HashMap String IfCounters :=
  tabulate w.present fun i => reading (w.ifaces i)

/-- The source's `read`, which fails when no rule of the chain is left. -/
def readUplinks (w : Wires) : Option Reading :=
  if w.listed = [] then none else some (tabulate w.listed fun key => reading (w.uplinks key))

end Wires

/-! ## The loop -/

/-- The rules before the first tick. -/
def rulesAtStart (cfg : Config) (manage dryRun installs : Bool) (w : Wires) : Wires :=
  if manage && !dryRun then
    if installs then w.rewrite (uplinkKeys cfg) else w
  else if !dryRun then w.rewrite []
  else w

/-- When a tick comes, and which of its readings and commands succeed. -/
structure Look where
  now : Instant
  snapRead : Bool
  uplinksRead : Bool
  installs : Bool
  active : Option String

/-- What the tick comes upon. -/
def Look.tick (e : Look) (w : Wires) : Tick where
  now := e.now
  snap := if e.snapRead then some ⟨w.snapshot, some e.now.nanos⟩ else none
  chain := if e.uplinksRead then w.readUplinks.map fun r => ⟨r, some e.now.nanos⟩ else none
  installs := e.installs
  active := e.active

/-! ## Runs -/

/-- A tick that has read the interfaces, with the meters as they were, and its rows. -/
structure Interval where
  look : Look
  wires : Wires
  rows : List Row

/-- The meters, the loop, and what it has recorded. -/
structure Traffic where
  wires : Wires
  loop : TrafficLoop
  log : List Interval

/-- What happens, in any order. -/
inductive TrafficEvent
  | uplink (key : Option UInt32) (c : Counter) (n : ℕ)
  | interface (i : String) (c : Counter) (n : ℕ)
  /-- Someone else writes the chain, or removes it. -/
  | rewrite (keys : List (Option UInt32))
  | down (i : String)
  | up (i : String)
  | tick (e : Look)

namespace Traffic

/-- Only what is there can count. -/
def step (cfg : Config) (s : Traffic) : TrafficEvent → Option Traffic
  | .uplink key c n =>
    if key ∈ s.wires.listed then some { s with wires := s.wires.countUplink key c n } else none
  | .interface i c n =>
    if i ∈ s.wires.present then some { s with wires := s.wires.countInterface i c n } else none
  | .rewrite keys =>
    if keys ⊆ uplinkKeys cfg then some { s with wires := s.wires.rewrite keys } else none
  | .down i => some { s with wires := s.wires.replace i (s.wires.present.filter (· ≠ i)) }
  | .up i =>
    if i ∈ s.wires.present then none
    else some { s with wires := s.wires.replace i (i :: s.wires.present) }
  | .tick e =>
    match trafficTick cfg (e.tick s.wires) s.loop with
    | none => some s
    | some (reports, loop, installed) =>
      some
        { wires := if installed then s.wires.rewrite (uplinkKeys cfg) else s.wires
          loop
          log := s.log ++ [⟨e, s.wires, reports.map Report.row⟩] }

/-- A loop that starts. -/
def start (cfg : Config) (manage dryRun installs : Bool) (now : Instant) (w : Wires) : Traffic where
  wires := rulesAtStart cfg manage dryRun installs w
  loop := .start manage dryRun installs now
  log := []

end Traffic

/-! ## What an interval accounts for -/

/-- What was counted under a key, or on an interface, from `w₀` to `w`. -/
def Wires.forwarded (w₀ w : Wires) (key : Option UInt32) (c : Counter) : ℕ :=
  (w.uplinks key c).carried - (w₀.uplinks key c).carried

/-- What the interface has carried from `w₀` to `w`. -/
def Wires.carried (w₀ w : Wires) (i : String) (c : Counter) : ℕ :=
  (w.ifaces i c).carried - (w₀.ifaces i c).carried

/-- The meters of a key went on from `w₀` to `w`. -/
structure Wires.KeyWentOn (w₀ w : Wires) (key : Option UInt32) : Prop where
  before : key ∈ w₀.listed
  after : key ∈ w.listed
  steady : ∀ c, (w.uplinks key c).restarts = (w₀.uplinks key c).restarts

/-- The interface has been there, and was not reset. -/
structure Wires.InterfaceWentOn (w₀ w : Wires) (i : String) : Prop where
  before : i ∈ w₀.present
  after : i ∈ w.present
  steady : ∀ c, (w.ifaces i c).restarts = (w₀.ifaces i c).restarts

/-- One row for each provider: its own connections, and those without a mark if it is the active
one. -/
def PerUplink (cfg : Config) (w₀ w : Wires) (active : Option String) (rows : List Row) : Prop :=
  ∀ c, ∃ credit : Provider → ℕ,
    (rows.map fun r => (r.provider, r.interface, count r.delta c)) =
      cfg.providers.map (fun p => (p.name, p.interface, credit p)) ∧
    ∀ p ∈ cfg.providers,
      let due := w₀.forwarded w (some (cfg.markFor p)) c +
        if activeMark cfg.providers cfg.markFor active = some (cfg.markFor p) then
          w₀.forwarded w none c
        else 0
      credit p ≤ due ∧
        (w₀.KeyWentOn w (some (cfg.markFor p)) → w₀.KeyWentOn w none → credit p = due)

/-- One row at most for each interface. -/
def PerInterface (cfg : Config) (w₀ w : Wires) (rows : List Row) : Prop :=
  ∀ i, behind cfg.providers i ≠ [] → ∃ d : Option IfCounters,
    rows.filter (fun r => r.interface = i) =
      d.toList.map (fun d => ⟨ownerName (behind cfg.providers i), i, d⟩) ∧
    (∀ d' ∈ d, ∀ c, count d' c ≤ w₀.carried w i c) ∧
    (w₀.InterfaceWentOn w i → ∃ d' ∈ d, ∀ c, count d' c = w₀.carried w i c)

/-- What the rules counted from `w₀` to `w` fits in 64 bits. -/
def Wires.Fits (cfg : Config) (w₀ w : Wires) : Prop :=
  ∀ c, ((uplinkKeys cfg).map fun key => w₀.forwarded w key c).sum < 2 ^ 64

/-- A tick has read the rules of the uplinks: they are in use, there are any, and the reading did not
fail. -/
def Interval.Counted (inUse : Bool) (b : Interval) : Prop :=
  inUse = true ∧ b.look.uplinksRead = true ∧ b.wires.listed ≠ []

/-- **An interval is recorded by one kind of meters**: by the rules, if this tick and the one before
have read them, by nothing, if only this one has, and else by the interfaces. -/
inductive Accounts (cfg : Config) (inUse : Bool) (b b' : Interval) : Prop
  | uplinks (hbefore : b.Counted inUse) (hnow : b'.Counted inUse)
      (h : b.wires.Fits cfg b'.wires → PerUplink cfg b.wires b'.wires b'.look.active b'.rows)
  | baseline (hbefore : ¬ b.Counted inUse) (hnow : b'.Counted inUse) (h : b'.rows = [])
  | interfaces (hnow : ¬ b'.Counted inUse) (h : PerInterface cfg b.wires b'.wires b'.rows)

variable {cfg : Config} {w w₀ : Wires} {b : Interval} {e : Look} {l l' : TrafficLoop}
  {rs : List Report} {inUse installed : Bool}

/-! ## Readings -/

section Readings

variable {ms ms' : Counter → Meter} {d : IfCounters} {c : Counter}

theorem count_reading (ms : Counter → Meter) (c : Counter) :
    count (reading ms) c = (ms c).shown.toNat := by
  cases c <;> rfl

theorem checkedSub_eq_some_iff {a b x : UInt64} :
    checkedSub a b = some x ↔ b ≤ a ∧ x = a - b := by
  unfold checkedSub
  split_ifs with h
  · simp [h, eq_comm]
  · simp [h]

theorem delta_eq_some {before now : IfCounters} (h : delta before now = some d) (c : Counter) :
    count before c ≤ count now c ∧ count d c = count now c - count before c := by
  simp only [delta, Option.bind_eq_bind, Option.bind_eq_some_iff, checkedSub_eq_some_iff,
    Option.pure_def, Option.some.injEq] at h
  obtain ⟨_, ⟨h₁, rfl⟩, _, ⟨h₂, rfl⟩, _, ⟨h₃, rfl⟩, _, ⟨h₄, rfl⟩, rfl⟩ := h
  cases c
  · exact ⟨h₁, UInt64.toNat_sub_of_le _ _ h₁⟩
  · exact ⟨h₂, UInt64.toNat_sub_of_le _ _ h₂⟩
  · exact ⟨h₃, UInt64.toNat_sub_of_le _ _ h₃⟩
  · exact ⟨h₄, UInt64.toNat_sub_of_le _ _ h₄⟩

theorem delta_isSome {before now : IfCounters} (h : ∀ c, count before c ≤ count now c) :
    (delta before now).isSome = true := by
  have h₁ : before.rxBytes ≤ now.rxBytes := h .rxBytes
  have h₂ : before.rxPackets ≤ now.rxPackets := h .rxPackets
  have h₃ : before.txBytes ≤ now.txBytes := h .txBytes
  have h₄ : before.txPackets ≤ now.txPackets := h .txPackets
  simp [delta, checkedSub, h₁, h₂, h₃, h₄]

/-- **Two readings of the same meters.** -/
theorem delta_reading (hlater : ∀ c, Later (ms c) (ms' c)) :
    (∀ d, delta (reading ms) (reading ms') = some d →
      ∀ c, count d c ≤ (ms' c).carried - (ms c).carried) ∧
    ((∀ c, (ms' c).restarts = (ms c).restarts) → ∃ d, delta (reading ms) (reading ms') = some d ∧
      ∀ c, count d c = (ms' c).carried - (ms c).carried) := by
  constructor
  · intro d hd c
    rw [(delta_eq_some hd c).2, count_reading, count_reading]
    exact (hlater c).sub_le
  · intro hsteady
    have hle : ∀ c, count (reading ms) c ≤ count (reading ms') c := by
      intro c
      rw [count_reading, count_reading]
      exact ((hlater c).sub_eq (hsteady c)).1
    obtain ⟨d, hd⟩ := Option.isSome_iff_exists.mp (delta_isSome hle)
    refine ⟨d, hd, fun c => ?_⟩
    rw [(delta_eq_some hd c).2, count_reading, count_reading]
    exact ((hlater c).sub_eq (hsteady c)).2

end Readings

/-! ## The meters go on -/

/-- The meters at two moments. -/
structure Wires.Before (w w' : Wires) : Prop where
  uplinks : ∀ key c, Later (w.uplinks key c) (w'.uplinks key c)
  ifaces : ∀ i c, Later (w.ifaces i c) (w'.ifaces i c)

/-- An interface that is not there shows nothing, and begins with nothing. -/
def Wires.Absent (w : Wires) : Prop := ∀ i ∉ w.present, ∀ c, (w.ifaces i c).shown = 0

namespace Wires

theorem Before.refl (w : Wires) : w.Before w :=
  ⟨fun key c => Later.refl (w.uplinks key c), fun i c => Later.refl (w.ifaces i c)⟩

theorem Before.trans (h : w₀.Before w) (h' : w.Before w') : w₀.Before w' :=
  ⟨fun key c => (h.uplinks key c).trans (h'.uplinks key c),
    fun i c => (h.ifaces i c).trans (h'.ifaces i c)⟩

theorem before_countUplink (w : Wires) (key : Option UInt32) (c : Counter) (n : ℕ) :
    w.Before (w.countUplink key c n) := by
  refine ⟨fun key' c' => ?_, fun i c' => Later.refl _⟩
  simp only [countUplink]
  split_ifs
  · exact later_add _ n
  · exact Later.refl _

theorem before_countInterface (w : Wires) (i : String) (c : Counter) (n : ℕ) :
    w.Before (w.countInterface i c n) := by
  refine ⟨fun key c' => Later.refl _, fun i' c' => ?_⟩
  simp only [countInterface]
  split_ifs
  · exact later_add _ n
  · exact Later.refl _

theorem before_rewrite (w : Wires) (keys : List (Option UInt32)) : w.Before (w.rewrite keys) :=
  ⟨fun _ _ => later_restart _, fun _ _ => Later.refl _⟩

theorem before_replace (w : Wires) (i : String) (present : List String) :
    w.Before (w.replace i present) := by
  refine ⟨fun key c => Later.refl _, fun i' c => ?_⟩
  simp only [replace]
  split_ifs
  · exact later_restart _
  · exact Later.refl _

theorem Absent.countInterface (h : w.Absent) {i : String} (hi : i ∈ w.present) (c : Counter)
    (n : ℕ) : (w.countInterface i c n).Absent := by
  intro i' hi' c'
  have hne : i' ≠ i := fun heq => hi' (heq ▸ hi)
  simp only [Wires.countInterface, hne, false_and, if_false]
  exact h i' hi' c'

theorem Absent.replace (h : w.Absent) {i : String} {present : List String}
    (hpresent : ∀ i' ∈ w.present, i' ≠ i → i' ∈ present) : (w.replace i present).Absent := by
  intro i' hi' c
  simp only [Wires.replace]
  by_cases hi : i' = i
  · rw [if_pos hi]
    rfl
  · rw [if_neg hi]
    exact h i' (fun hin => hi' (hpresent i' hin hi)) c

end Wires

/-! ## Interfaces -/

theorem interfaceRows_eq_nil {ifaceDelta : HashMap String IfCounters} {counts : HashMap String ℕ}
    (h : ∀ i, ifaceDelta.lookup i = none) (ps : List Provider) (totalsWritten : List String) :
    interfaceRows counts ifaceDelta ps totalsWritten = [] := by
  induction ps generalizing totalsWritten with
  | nil => rfl
  | cons p ps ih => rw [interfaceRows, h, ih]

theorem mem_watched_of_behind {i : String} (h : behind cfg.providers i ≠ []) : i ∈ watched cfg := by
  obtain ⟨p, hp⟩ := List.exists_mem_of_ne_nil _ h
  obtain ⟨hp, hi⟩ := List.mem_filter.mp hp
  exact mem_watched.mpr ⟨p, hp, of_decide_eq_true hi⟩

/-! ## One tick -/

/-- What the loop remembers is what the meters showed at its last tick. -/
structure Remembers (cfg : Config) (inUse : Bool) (b : Interval) (l : TrafficLoop) : Prop where
  absent : b.wires.Absent
  interfaces : ∀ i ∈ watched cfg, i ∈ b.wires.present →
    (l.prev.lookup i).map Stamped.value = some (reading (b.wires.ifaces i))
  used : l.counters.isSome = inUse
  counted : b.Counted inUse → ∀ r ∈ l.counters, b.wires.readUplinks = some r.value
  uncounted : ¬ b.Counted inUse → ∀ r ∈ l.counters, r.value = ∅

theorem perInterface_of_remembers (hrem : Remembers cfg inUse b l) (hbefore : b.wires.Before w)
    (readAt : Option ℤ) :
    PerInterface cfg b.wires w (trafficRows cfg.providers (mapValues (fun _ => Growth.delta)
      ((watched cfg).foldl (sampleInterface ⟨w.snapshot, readAt⟩) (∅, l.prev)).1) none
        cfg.markFor) := by
  intro i hi
  have hwatched := mem_watched_of_behind hi
  have hlookup := lookup_deltas ⟨w.snapshot, readAt⟩ l.prev hwatched
  have hsnap : w.snapshot.lookup i = if i ∈ w.present then some (reading (w.ifaces i)) else none :=
    lookup_tabulate w.present _ i
  dsimp only at hlookup
  rw [hsnap] at hlookup
  refine ⟨_, interface_once hi, ?_⟩
  rw [hlookup]
  have hlater := hbefore.ifaces i
  by_cases hpresent : i ∈ w.present
  · simp only [hpresent, if_true, Option.bind_some]
    by_cases hbefore' : i ∈ b.wires.present
    · rw [hrem.interfaces i hwatched hbefore', Option.bind_some]
      obtain ⟨hle, heq⟩ := delta_reading hlater
      refine ⟨fun d hd => hle d hd, fun hwent => ?_⟩
      obtain ⟨d, hd, hcount⟩ := heq hwent.steady
      exact ⟨d, hd, hcount⟩
    · refine ⟨fun d hd c => ?_, fun hwent => absurd hwent.before hbefore'⟩
      obtain ⟨v, -, hd⟩ := Option.bind_eq_some_iff.mp hd
      have hzero : (b.wires.ifaces i c).shown.toNat = 0 := by
        rw [hrem.absent i hbefore' c]
        rfl
      have hsub := (hlater c).sub_le
      rw [(delta_eq_some hd c).2, count_reading, Wires.carried]
      omega
  · simp only [hpresent, if_false, Option.bind_none]
    refine ⟨fun d hd => ?_, fun hwent => absurd hwent.after hpresent⟩
    cases hprev : (l.prev.lookup i).map Stamped.value <;> simp [hprev] at hd

theorem listed_of_readUplinks {r : Reading} (h : w.readUplinks = some r) :
    r = tabulate w.listed fun key => reading (w.uplinks key) := by
  unfold Wires.readUplinks at h
  split_ifs at h
  exact (Option.some.inj h).symm

theorem difference_readings (hbefore : w₀.Before w) {prev curr : Reading}
    (hprev : w₀.readUplinks = some prev) (hcurr : w.readUplinks = some curr) (key : Option UInt32)
    (c : Counter) : difference prev curr key c ≤ w₀.forwarded w key c ∧
      (w₀.KeyWentOn w key → difference prev curr key c = w₀.forwarded w key c) := by
  obtain ⟨hle, heq⟩ := delta_reading (hbefore.uplinks key)
  rw [listed_of_readUplinks hprev, listed_of_readUplinks hcurr, difference, lookup_tabulate,
    lookup_tabulate]
  constructor
  · by_cases hp : key ∈ w₀.listed
    · by_cases hc : key ∈ w.listed
      · simp only [hp, hc, if_true, Option.bind_some]
        cases hd : delta (reading (w₀.uplinks key)) (reading (w.uplinks key)) with
        | none => exact Nat.zero_le _
        | some d => exact hle d hd c
      · simp [hp, hc]
    · simp [hp]
  · intro hwent
    obtain ⟨d, hd, hcount⟩ := heq hwent.steady
    simp only [hwent.before, hwent.after, if_true, Option.bind_some, hd, Option.elim_some]
    exact hcount c

theorem keys_of_readUplinks (hlisted : w.listed ⊆ uplinkKeys cfg) {r : Reading}
    (h : w.readUplinks = some r) : r.keys ⊆ uplinkKeys cfg := by
  intro key hkey
  obtain ⟨v, hv⟩ := Option.isSome_iff_exists.mp (AList.lookup_isSome.mpr hkey)
  rw [listed_of_readUplinks h, lookup_tabulate] at hv
  split_ifs at hv with hin
  exact hlisted hin

theorem credited_le (hbefore : w₀.Before w) (hlisted : w.listed ⊆ uplinkKeys cfg)
    {prev curr : Reading} (hprev : w₀.readUplinks = some prev) (hcurr : w.readUplinks = some curr)
    (mark : Option UInt32) (c : Counter) :
    credited prev curr mark c ≤ ((uplinkKeys cfg).map fun key => w₀.forwarded w key c).sum := by
  have hsub : (curr.keys.filter fun key => (key.or mark).isSome) ⊆ uplinkKeys cfg := fun key hkey =>
    keys_of_readUplinks hlisted hcurr (List.mem_of_mem_filter hkey)
  have hnodup : (curr.keys.filter fun key => (key.or mark).isSome).Nodup :=
    List.Nodup.filter _ curr.nodupKeys
  obtain ⟨keys, hperm, hsublist⟩ := List.Nodup.subperm hnodup hsub
  calc credited prev curr mark c
      ≤ ((curr.keys.filter fun key => (key.or mark).isSome).map
          fun key => w₀.forwarded w key c).sum :=
        List.sum_le_sum fun key _ => (difference_readings hbefore hprev hcurr key c).1
    _ = (keys.map fun key => w₀.forwarded w key c).sum := (hperm.map _).sum_eq.symm
    _ ≤ _ := (hsublist.map _).sum_le_sum fun _ _ => Nat.zero_le _

theorem perUplink_of_readings (hbefore : w₀.Before w) (hlisted : w.listed ⊆ uplinkKeys cfg)
    {prev curr : Reading} (hprev : w₀.readUplinks = some prev) (hcurr : w.readUplinks = some curr)
    (active : Option String) (ifaceDelta : HashMap String IfCounters) (hfits : w₀.Fits cfg w) :
    PerUplink cfg w₀ w active (trafficRows cfg.providers ifaceDelta
      (some (attributeCounters prev curr (activeMark cfg.providers cfg.markFor active)))
        cfg.markFor) := by
  intro c
  have hkeys : MarkedBy cfg.markFor cfg.providers curr := by
    intro key hkey
    rcases List.mem_append.mp (keys_of_readUplinks hlisted hcurr hkey) with hin | hin
    · obtain ⟨p, hp, rfl⟩ := List.mem_map.mp hin
      exact Or.inr ⟨p, hp, rfl⟩
    · exact Or.inl (List.mem_singleton.mp hin)
  have hsmall := (credited_le hbefore hlisted hprev hcurr
    (activeMark cfg.providers cfg.markFor active) c).trans_lt (hfits c)
  refine ⟨fun p => ownTraffic prev curr (activeMark cfg.providers cfg.markFor active) c
    (cfg.markFor p), ?_, fun p _ => ?_⟩
  · simp only [trafficRows, List.map_map]
    refine List.map_congr_left fun p hp => ?_
    rw [Function.comp_apply,
      count_attributeCounters hkeys (fun _ hm => activeMark_mem hm) hsmall hp]
  · obtain ⟨hown, hownEq⟩ := difference_readings hbefore hprev hcurr (some (cfg.markFor p)) c
    obtain ⟨hnone, hnoneEq⟩ := difference_readings hbefore hprev hcurr none c
    unfold ownTraffic
    by_cases hactive : activeMark cfg.providers cfg.markFor active = some (cfg.markFor p)
    · simp only [hactive, if_true]
      exact ⟨Nat.add_le_add hown hnone, fun h h' => by rw [hownEq h, hnoneEq h']⟩
    · simp only [hactive, if_false]
      exact ⟨Nat.add_le_add hown (Nat.le_refl 0), fun h _ => by rw [hownEq h]⟩

/-- The rules are read where they are there and the reading does not fail. -/
theorem chain_tick (e : Look) (w : Wires) :
    (∀ r ∈ (e.tick w).chain, w.readUplinks = some r.value) ∧
      ((e.tick w).chain = none ↔ ¬ (e.uplinksRead = true ∧ w.listed ≠ [])) := by
  unfold Look.tick Wires.readUplinks
  by_cases hread : e.uplinksRead = true
  · by_cases hlisted : w.listed = []
    · simp [hread, hlisted]
    · simp [hread, hlisted]
  · simp [hread]

theorem snap_tick {snap : Stamped (HashMap String IfCounters)}
    (h : (e.tick w).snap = some snap) : ∃ readAt, snap = ⟨w.snapshot, readAt⟩ := by
  change (if e.snapRead then some ⟨w.snapshot, some (e.now.nanos : ℤ)⟩ else none) = some snap at h
  split_ifs at h
  exact ⟨_, (Option.some.inj h).symm⟩

theorem counted_iff (hinUse : l.counters.isSome = inUse) (e : Look) (w : Wires) (rows : List Row) :
    Interval.Counted inUse ⟨e, w, rows⟩ ↔ ¬ (l.counters = none ∨ (e.tick w).chain = none) := by
  rw [Interval.Counted, (chain_tick e w).2, ← hinUse]
  cases l.counters with
  | none => simp
  | some c => simp

theorem entries_ne_of_readUplinks {r : Reading} (h : w.readUplinks = some r) : r.entries ≠ [] := by
  intro hempty
  have hlisted : w.listed ≠ [] := by
    intro hnil
    rw [Wires.readUplinks, if_pos hnil] at h
    cases h
  obtain ⟨key, rest, hkeys⟩ := List.exists_cons_of_ne_nil hlisted
  have hlookup := lookup_tabulate w.listed (fun key => reading (w.uplinks key)) key
  rw [← listed_of_readUplinks h, if_pos (hkeys ▸ List.mem_cons_self)] at hlookup
  have hmem := AList.mem_lookup_iff.mp hlookup
  rw [hempty] at hmem
  cases hmem

/-- **The rows of one tick.** -/
theorem accounts_tick (hrem : Remembers cfg inUse b l) (hbefore : b.wires.Before w)
    (hlisted : inUse = true → w.listed ⊆ uplinkKeys cfg)
    (h : trafficTick cfg (e.tick w) l = some (rs, l', installed)) :
    Accounts cfg inUse b ⟨e, w, rs.map Report.row⟩ := by
  obtain ⟨snap, hsnap, hrows, -⟩ := trafficTick_spec h
  have hnow := counted_iff hrem.used e w (rs.map Report.row)
  obtain ⟨hnot, hnone, hbaseline, -⟩ | ⟨prev, curr, hprev, hcurr, -, -, hread⟩ :=
    readOrInstall_cases cfg (e.tick w) l
  · refine Accounts.interfaces (fun h => hnow.mp h hnot) ?_
    rw [hrows, rows_reports, hbaseline, hnone, if_neg Bool.false_ne_true]
    obtain ⟨readAt, rfl⟩ := snap_tick hsnap
    exact perInterface_of_remembers hrem hbefore readAt
  · have hcounted : Interval.Counted inUse ⟨e, w, rs.map Report.row⟩ :=
      hnow.mpr (by rw [hprev, hcurr]; simp)
    have hinUse : inUse = true := hcounted.1
    have hcurrRead := (chain_tick e w).1 curr hcurr
    rcases hread with ⟨hempty, -, hbaseline⟩ | ⟨hne, hbaseline, hsome⟩
    · refine Accounts.baseline (fun hcounted => ?_) hcounted ?_
      · exact entries_ne_of_readUplinks (hrem.counted hcounted prev hprev) hempty
      · change rs.map Report.row = []
        rw [hrows, rows_reports, hbaseline, if_pos rfl]
    · have hb : b.Counted inUse := by
        by_contra hnot
        rw [hrem.uncounted hnot prev hprev] at hne
        exact hne rfl
      refine Accounts.uplinks hb hcounted fun hfits => ?_
      change PerUplink cfg b.wires w e.active (rs.map Report.row)
      rw [hrows, rows_reports, hbaseline, hsome, if_neg Bool.false_ne_true]
      exact perUplink_of_readings hbefore (hlisted hinUse) (hrem.counted hb prev hprev) hcurrRead
        e.active _ hfits

theorem rows_of_first_tick (hprev : l.prev = ∅) (hcounters : ∀ r ∈ l.counters, r.value = ∅)
    (h : trafficTick cfg (e.tick w) l = some (rs, l', installed)) : rs.map Report.row = [] := by
  obtain ⟨snap, -, hrows, -⟩ := trafficTick_spec h
  rw [hrows, rows_reports]
  obtain ⟨-, hnone, hbaseline, -⟩ | ⟨prev, curr, hlast, -, -, -,
      ⟨-, -, hbaseline⟩ | ⟨hne, -⟩⟩ := readOrInstall_cases cfg (e.tick w) l
  · rw [hnone, hbaseline, if_neg Bool.false_ne_true]
    refine interfaceRows_eq_nil (fun i => ?_) _ _
    rw [lookup_mapValues, (lookup_foldl_sampleInterface snap (nodup_watched cfg) (∅, l.prev) i).1,
      hprev]
    simp
  · rw [hbaseline, if_pos rfl]
  · exact absurd (congrArg AList.entries (hcounters prev hlast)) hne

theorem remembers_tick (habsent : w.Absent) (hinUse : l.counters.isSome = inUse) (rows : List Row)
    (h : trafficTick cfg (e.tick w) l = some (rs, l', installed)) :
    Remembers cfg inUse ⟨e, w, rows⟩ l' := by
  obtain ⟨snap, hsnap, -, hprev, hcounters, -⟩ := trafficTick_spec h
  obtain ⟨readAt, rfl⟩ := snap_tick hsnap
  have hnow := counted_iff hinUse e w rows
  have hinterfaces : ∀ i ∈ watched cfg, i ∈ w.present →
      (l'.prev.lookup i).map Stamped.value = some (reading (w.ifaces i)) := by
    intro i hi hpresent
    rw [hprev,
      (lookup_foldl_sampleInterface ⟨w.snapshot, readAt⟩ (nodup_watched cfg) (∅, l.prev) i).2,
      if_pos hi, Stamped.interface, show w.snapshot.lookup i = _ from lookup_tabulate w.present _ i,
      if_pos hpresent]
    rfl
  obtain ⟨hnot, -, -, hempty, hkept, -⟩ | ⟨prev, curr, hlast, hcurr, hread, -⟩ :=
    readOrInstall_cases cfg (e.tick w) l
  · refine ⟨habsent, hinterfaces, ?_, fun h => absurd hnot (hnow.mp h), fun _ r hr => ?_⟩
    · rw [hcounters, ← hinUse]
      exact Bool.eq_iff_iff.mpr (by simpa [Option.isSome_iff_ne_none] using not_congr hkept)
    · rw [hcounters] at hr
      exact hempty r hr
  · have hcounted : Interval.Counted inUse ⟨e, w, rows⟩ := hnow.mpr (by rw [hlast, hcurr]; simp)
    refine ⟨habsent, hinterfaces, ?_, fun _ r hr => ?_, fun h => absurd hcounted h⟩
    · rw [hcounters, hread, ← hinUse, hlast]
      rfl
    · rw [hcounters, hread] at hr
      cases hr
      exact (chain_tick e w).1 curr hcurr

/-! ## All of them -/

/-- What every reachable state of the loop satisfies. -/
structure Metered (cfg : Config) (inUse : Bool) (s : Traffic) : Prop where
  absent : s.wires.Absent
  used : s.loop.counters.isSome = inUse
  listed : inUse = true → s.wires.listed ⊆ uplinkKeys cfg
  fresh : s.log = [] → s.loop.prev = ∅ ∧ ∀ r ∈ s.loop.counters, r.value = ∅
  last : ∀ b ∈ s.log.getLast?, Remembers cfg inUse b s.loop ∧ b.wires.Before s.wires
  first : ∀ b ∈ s.log.head?, b.rows = []
  accounts : s.log.IsChain (Accounts cfg inUse)

variable {s t : Traffic} {ev : TrafficEvent} {evs : List TrafficEvent}

theorem Metered.wires (h : Metered cfg inUse s) (habsent : w.Absent) (hbefore : s.wires.Before w)
    (hlisted : inUse = true → w.listed ⊆ uplinkKeys cfg) :
    Metered cfg inUse { s with wires := w } where
  absent := habsent
  used := h.used
  listed := hlisted
  fresh := h.fresh
  last b hb := ⟨(h.last b hb).1, (h.last b hb).2.trans hbefore⟩
  first := h.first
  accounts := h.accounts

theorem Metered.tick (h : Metered cfg inUse s)
    (htick : trafficTick cfg (e.tick s.wires) s.loop = some (rs, l', installed)) :
    Metered cfg inUse
      { wires := if installed then s.wires.rewrite (uplinkKeys cfg) else s.wires
        loop := l'
        log := s.log ++ [⟨e, s.wires, rs.map Report.row⟩] } := by
  have hlast : ∀ b ∈ s.log.getLast?, Accounts cfg inUse b ⟨e, s.wires, rs.map Report.row⟩ :=
    fun b hb => accounts_tick (h.last b hb).1 (h.last b hb).2 h.listed htick
  have hrem := remembers_tick h.absent h.used (rs.map Report.row) htick
  refine ⟨?_, hrem.used, fun hinUse => ?_, by simp, ?_, ?_, ?_⟩
  · cases installed with
    | true => exact h.absent
    | false => exact h.absent
  · cases installed with
    | true => exact List.Subset.refl _
    | false => exact h.listed hinUse
  · intro b hb
    rw [List.getLast?_concat] at hb
    cases hb
    refine ⟨hrem, ?_⟩
    cases installed with
    | true => exact Wires.before_rewrite _ _
    | false => exact Wires.Before.refl _
  · cases hlog : s.log with
    | nil =>
      intro b hb
      cases hb
      exact rows_of_first_tick (h.fresh hlog).1 (h.fresh hlog).2 htick
    | cons b' log =>
      intro b hb
      cases hb
      exact h.first b' (by rw [hlog]; rfl)
  · refine List.isChain_append.mpr ⟨h.accounts, List.isChain_singleton _, fun b hb b' hb' => ?_⟩
    cases hb'
    exact hlast b hb

/-- **One step.** -/
theorem Metered.step (h : Metered cfg inUse s) (hstep : s.step cfg ev = some t) :
    Metered cfg inUse t := by
  cases ev with
  | uplink key c n =>
    simp only [Traffic.step] at hstep
    split_ifs at hstep
    cases hstep
    exact h.wires h.absent (Wires.before_countUplink _ _ _ _) h.listed
  | interface i c n =>
    simp only [Traffic.step] at hstep
    split_ifs at hstep with hi
    cases hstep
    exact h.wires (h.absent.countInterface hi c n) (Wires.before_countInterface _ _ _ _) h.listed
  | rewrite keys =>
    simp only [Traffic.step] at hstep
    split_ifs at hstep with hkeys
    cases hstep
    exact h.wires h.absent (Wires.before_rewrite _ _) fun _ => hkeys
  | down i =>
    cases hstep
    refine h.wires (h.absent.replace fun i' hi' hne => ?_) (Wires.before_replace _ _ _) h.listed
    exact List.mem_filter.mpr ⟨hi', decide_eq_true hne⟩
  | up i =>
    simp only [Traffic.step] at hstep
    split_ifs at hstep
    cases hstep
    exact h.wires (h.absent.replace fun i' hi' _ => List.mem_cons_of_mem i hi')
      (Wires.before_replace _ _ _) h.listed
  | tick e =>
    simp only [Traffic.step] at hstep
    cases htick : trafficTick cfg (e.tick s.wires) s.loop with
    | none =>
      rw [htick] at hstep
      cases hstep
      exact h
    | some r =>
      obtain ⟨rs, l', installed⟩ := r
      rw [htick] at hstep
      cases hstep
      exact h.tick htick

end Vlb.Balancer
