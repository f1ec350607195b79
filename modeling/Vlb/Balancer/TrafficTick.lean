import Vlb.Lib.Time
import Vlb.Net.Uplinks

/-!
# A tick of the traffic loop

Every tick reads what the interfaces have carried, and what the rules of the uplinks have counted, and
reports by how much they have grown. What was read last is kept, also where the next tick fails.

* `Stamped`: a reading with the moment it was taken at, which the program does not keep.
* `TrafficLoop`, `trafficTick`: what the loop remembers, and one tick.
* `lookup_foldl_sampleInterface`, `readOrInstall_cases`: what becomes of an interface, and of the
  rules.
-/

namespace Vlb.Balancer

open Canary Entries Time Uplinks

/-! ## Readings -/

/-- What was read, and when. The program keeps no record of the moment. -/
structure Stamped (α : Type) where
  value : α
  /-- None where nothing could be read, and this is taken for it. -/
  readAt : Option ℤ
  deriving DecidableEq

/-- The time between two readings. -/
def apart (before after : Option ℤ) : Option ℤ := before.bind fun t => after.map (· - t)

/-- By how much the counters of an interface have grown, and between which moments. -/
structure Growth where
  delta : IfCounters
  apart : Option ℤ

/-- Where counters went back there is no growth. -/
def grown (before after : Stamped IfCounters) : Option Growth :=
  (delta before.value after.value).map fun d => ⟨d, apart before.readAt after.readAt⟩

/-- The counters of an interface in a reading of all of them. -/
def Stamped.interface (snap : Stamped (HashMap String IfCounters)) (iface : String) :
    Option (Stamped IfCounters) :=
  (snap.value.lookup iface).map fun c => ⟨c, snap.readAt⟩

/-! ## The loop -/

/-- What the loop remembers. `counters` is `none` where there are no rules to read. -/
structure TrafficLoop where
  prev : HashMap String (Stamped IfCounters) := ∅
  counters : Option (Stamped Reading) := none
  lastInstallAttempt : Option Instant := none
  uplinkCounters : Bool := false

/-- The keys that the rules of `uplinks::install` have. -/
def uplinkKeys (cfg : Config) : List (Option UInt32) :=
  cfg.providers.map (fun p => some (cfg.markFor p)) ++ [none]

/-- The interfaces of the providers, each once. -/
def watched (cfg : Config) : List String := unseen [] (cfg.providers.map Provider.interface)

/-- Before the first tick. The rules are in use if they are wanted and could be installed. -/
def TrafficLoop.start (manage dryRun installs : Bool) (now : Instant) : TrafficLoop :=
  if manage && !dryRun then
    { counters := if installs then some ⟨∅, none⟩ else none, lastInstallAttempt := some now }
  else {}

/-- What one tick comes upon. -/
structure Tick where
  now : Instant
  /-- `/proc/net/dev`, if it can be read. -/
  snap : Option (Stamped (HashMap String IfCounters))
  /-- The rules of the uplinks, if they are there and can be read. -/
  chain : Option (Stamped Reading)
  /-- Whether the rules could be installed. -/
  installs : Bool
  active : Option String

/-- One of the watched interfaces. -/
def sampleInterface (snap : Stamped (HashMap String IfCounters))
    (acc : HashMap String Growth × HashMap String (Stamped IfCounters)) (iface : String) :
    HashMap String Growth × HashMap String (Stamped IfCounters) :=
  match snap.interface iface with
  | none => acc
  | some curr =>
    let ifaceDelta := match (acc.2.lookup iface).bind (grown · curr) with
      | some d => acc.1.insert iface d
      | none => acc.1
    (ifaceDelta, acc.2.insert iface curr)

/-- What the counters of the uplinks give in one tick. -/
structure UplinkPass where
  /-- What each mark has got, and the time between the two readings. -/
  perMark : Option (HashMap UInt32 IfCounters × Option ℤ) := none
  baselineOnly : Bool := false
  counters : Option (Stamped Reading)
  lastInstallAttempt : Option Instant
  /-- The rules have been written anew. -/
  installed : Bool := false

/-- Rules that cannot be read are installed again, once a minute at most. -/
def readOrInstall (cfg : Config) (e : Tick) (l : TrafficLoop) : UplinkPass :=
  match l.counters with
  | none => { counters := none, lastInstallAttempt := l.lastInstallAttempt }
  | some prevCounts =>
    match e.chain with
    | some curr =>
      let activeMark := activeMark cfg.providers cfg.markFor e.active
      if prevCounts.value.entries = [] then
        { baselineOnly := true, counters := some curr, lastInstallAttempt := l.lastInstallAttempt }
      else
        { perMark := some (attributeCounters prevCounts.value curr.value activeMark,
            apart prevCounts.readAt curr.readAt)
          counters := some curr, lastInstallAttempt := l.lastInstallAttempt }
    | none =>
      let due := l.lastInstallAttempt.all fun t =>
        Duration.fromSecs 60 ≤ e.now.saturatingDurationSince t
      if due then
        { counters := some ⟨∅, prevCounts.readAt⟩, lastInstallAttempt := some e.now
          installed := e.installs }
      else { counters := some ⟨∅, prevCounts.readAt⟩, lastInstallAttempt := l.lastInstallAttempt }

/-- A row that is to be stored. -/
structure Report where
  row : Row
  /-- The time between the readings that the row is about. -/
  apart : Option ℤ

/-- The rows of a tick. -/
def reports (cfg : Config) (ifaceDelta : HashMap String Growth) (u : UplinkPass) : List Report :=
  if u.baselineOnly then []
  else
    (trafficRows cfg.providers (mapValues (fun _ => Growth.delta) ifaceDelta)
        (u.perMark.map Prod.fst) cfg.markFor).map fun row =>
      ⟨row, match u.perMark with
        | some (_, apart) => apart
        | none => (ifaceDelta.lookup row.interface).bind Growth.apart⟩

/-- One tick, with the rows that it reports and whether the rules are new; nothing when the interfaces
cannot be read. -/
def trafficTick (cfg : Config) (e : Tick) (l : TrafficLoop) :
    Option (List Report × TrafficLoop × Bool) :=
  e.snap.map fun snap =>
    let (ifaceDelta, prev) := (watched cfg).foldl (sampleInterface snap) (∅, l.prev)
    let u := readOrInstall cfg e l
    (reports cfg ifaceDelta u,
      { prev, counters := u.counters, lastInstallAttempt := u.lastInstallAttempt
        uplinkCounters := u.perMark.isSome || u.baselineOnly }, u.installed)

/-! ## The interfaces -/

variable {cfg : Config} {snap : Stamped (HashMap String IfCounters)} {e : Tick} {l l' : TrafficLoop}
  {r : Report} {rs : List Report} {installed : Bool}

theorem lookup_sampleInterface (snap : Stamped (HashMap String IfCounters))
    (acc : HashMap String Growth × HashMap String (Stamped IfCounters)) (i i' : String) :
    (sampleInterface snap acc i).1.lookup i' =
        (if i' = i then (acc.2.lookup i).bind fun p => (snap.interface i).bind (grown p) else none).or
          (acc.1.lookup i') ∧
      (sampleInterface snap acc i).2.lookup i' =
        (if i' = i then snap.interface i else none).or (acc.2.lookup i') := by
  unfold sampleInterface
  cases hcurr : snap.interface i with
  | none => simp
  | some curr =>
    by_cases hi : i' = i
    · subst hi
      cases hd : (acc.2.lookup i').bind (grown · curr) with
      | none => simp [hd]
      | some d => simp [hd]
    · cases hd : (acc.2.lookup i).bind (grown · curr) with
      | none => simp [hd, hi, AList.lookup_insert_ne]
      | some d => simp [hd, hi, AList.lookup_insert_ne]

theorem lookup_foldl_sampleInterface (snap : Stamped (HashMap String IfCounters))
    {names : List String} (hnodup : names.Nodup)
    (acc : HashMap String Growth × HashMap String (Stamped IfCounters)) (i : String) :
    (names.foldl (sampleInterface snap) acc).1.lookup i =
        (if i ∈ names then (acc.2.lookup i).bind fun p => (snap.interface i).bind (grown p)
          else none).or (acc.1.lookup i) ∧
      (names.foldl (sampleInterface snap) acc).2.lookup i =
        (if i ∈ names then snap.interface i else none).or (acc.2.lookup i) := by
  induction names generalizing acc with
  | nil => simp
  | cons n names ih =>
    obtain ⟨hn, hrest⟩ := List.nodup_cons.mp hnodup
    obtain ⟨hdelta, hprev⟩ := lookup_sampleInterface snap acc n i
    obtain ⟨ihdelta, ihprev⟩ := ih hrest (sampleInterface snap acc n)
    rw [List.foldl_cons, ihdelta, ihprev, hdelta, hprev]
    by_cases hi : i = n
    · subst hi
      simp [hn]
    · simp [hi]

theorem mem_watched {i : String} : i ∈ watched cfg ↔ ∃ p ∈ cfg.providers, p.interface = i := by
  simp [watched, mem_unseen]

theorem nodup_watched (cfg : Config) : (watched cfg).Nodup := nodup_unseen _ _

theorem lookup_deltas (snap : Stamped (HashMap String IfCounters))
    (prev : HashMap String (Stamped IfCounters)) {i : String} (hi : i ∈ watched cfg) :
    (mapValues (fun _ => Growth.delta)
        ((watched cfg).foldl (sampleInterface snap) (∅, prev)).1).lookup i =
      ((prev.lookup i).map Stamped.value).bind fun p => (snap.value.lookup i).bind (delta p) := by
  rw [lookup_mapValues, (lookup_foldl_sampleInterface snap (nodup_watched cfg) (∅, prev) i).1,
    if_pos hi, AList.lookup_empty, Option.or_none]
  cases prev.lookup i with
  | none => rfl
  | some p =>
    cases hc : snap.value.lookup i with
    | none => simp [Stamped.interface, hc]
    | some c =>
      cases hd : delta p.value c with
      | none => simp [Stamped.interface, hc, grown, hd]
      | some d => simp [Stamped.interface, hc, grown, hd]

theorem lookup_of_mem_trafficRows {providers : List Provider} {markOf : Provider → UInt32}
    {deltas : HashMap String IfCounters} {row : Row}
    (h : row ∈ trafficRows providers deltas none markOf) :
    (deltas.lookup row.interface).isSome = true := by
  cases hd : deltas.lookup row.interface with
  | some d => rfl
  | none =>
    have hnone : (trafficRows providers deltas none markOf).filter
        (fun r => r.interface = row.interface) = [] := interfaceRows_missing hd providers []
    have hrow : row ∈ (trafficRows providers deltas none markOf).filter
        fun r => r.interface = row.interface := List.mem_filter.mpr ⟨h, by simp⟩
    rw [hnone] at hrow
    exact absurd hrow List.not_mem_nil

/-! ## The rules -/

/-- How the rules are read in a tick: not at all, for the first time, or again. -/
theorem readOrInstall_cases (cfg : Config) (e : Tick) (l : TrafficLoop) :
    let u := readOrInstall cfg e l
    ((l.counters = none ∨ e.chain = none) ∧ u.perMark = none ∧ u.baselineOnly = false ∧
        (∀ r ∈ u.counters, r.value = ∅) ∧ (u.counters = none ↔ l.counters = none) ∧
        (u.installed = true → l.counters ≠ none)) ∨
      ∃ prev curr, l.counters = some prev ∧ e.chain = some curr ∧ u.counters = some curr ∧
        u.installed = false ∧ ((prev.value.entries = [] ∧ u.perMark = none ∧ u.baselineOnly = true) ∨
          (prev.value.entries ≠ [] ∧ u.baselineOnly = false ∧ u.perMark = some
            (attributeCounters prev.value curr.value (activeMark cfg.providers cfg.markFor e.active),
              apart prev.readAt curr.readAt))) := by
  unfold readOrInstall
  cases hcounters : l.counters with
  | none => exact Or.inl ⟨Or.inl rfl, rfl, rfl, by simp, by simp, by simp⟩
  | some prev =>
    cases hchain : e.chain with
    | none =>
      refine Or.inl ⟨Or.inr rfl, ?_⟩
      dsimp only
      split_ifs <;> simp
    | some curr =>
      refine Or.inr ⟨prev, curr, rfl, rfl, ?_⟩
      by_cases hempty : prev.value.entries = []
      · simp [hempty]
      · simp [hempty]

theorem rows_reports (cfg : Config) (ifaceDelta : HashMap String Growth) (u : UplinkPass) :
    (reports cfg ifaceDelta u).map Report.row =
      if u.baselineOnly then []
      else trafficRows cfg.providers (mapValues (fun _ => Growth.delta) ifaceDelta)
        (u.perMark.map Prod.fst) cfg.markFor := by
  unfold reports
  split_ifs
  · rfl
  · rw [List.map_map]
    exact List.map_id _

theorem trafficTick_spec (h : trafficTick cfg e l = some (rs, l', installed)) :
    ∃ snap, e.snap = some snap ∧
      let sampled := (watched cfg).foldl (sampleInterface snap) ((∅ : HashMap String Growth), l.prev)
      let u := readOrInstall cfg e l
      rs = reports cfg sampled.1 u ∧ l'.prev = sampled.2 ∧ l'.counters = u.counters ∧
        installed = u.installed := by
  obtain ⟨snap, hsnap, heq⟩ := Option.map_eq_some_iff.mp h
  obtain ⟨rfl, rfl, rfl⟩ := Prod.mk.injEq .. ▸ heq
  exact ⟨snap, hsnap, rfl, rfl, rfl, rfl⟩

end Vlb.Balancer
