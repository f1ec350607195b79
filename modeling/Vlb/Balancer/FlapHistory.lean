import Mathlib.Data.String.Basic
import Vlb.Balancer.Restart
import Vlb.Damping

/-!
# Flap damping across a restart

The daemon keeps the times of its switches in memory and writes every change of the route to the
database. After a restart it reads the times back from there.

* `Change`: a switch, the initial selection or a re-install by the watchdog, as the database has it.
* `failoverTimesSince`, `restoreFlap`: what a restarted daemon reads back.
* `Rfc3339`: what is assumed of chrono's text form of a time.
* `failovers_of_run`: the daemon writes changes only.
* **`effectiveFailback_restart`**: the restarted daemon damps as if it had never stopped.
-/

namespace Vlb.Balancer

open Transition Time Selection

variable {cfg : Config} {s s' s₀ : Sys} {t : TaskId} {es : List Event} {ok : Bool}

/-! ## The changes of the route -/

/-- A change of the route that the database hears of. -/
inductive Change
  /-- A pass switched, from nothing at the initial selection. -/
  | switched (now : DateTime) (current : Option String) (target : String) (reason : String)
      (moves : current ≠ some target)
  /-- The watchdog put the route of the active provider back. -/
  | reinstalled (now : DateTime) (expected : String) (reason : String)

namespace Change

/-- The arguments of `record_failover`. -/
def record : Change → FailoverRecord
  | .switched now current target reason _ =>
    { timestamp := now, fromProvider := current, toProvider := target, reason }
  | .reinstalled now expected reason =>
    { timestamp := now, fromProvider := some expected, toProvider := expected, reason }

/-- When it was. -/
def time (c : Change) : DateTime := c.record.timestamp

/-- What the flap tracker does at the change. -/
def track (c : Change) (flap : FlapTracker) : FlapTracker :=
  match c with
  | .switched now current _ _ _ => if current.isSome then flap.recordSwitch now else flap
  | .reinstalled .. => flap

end Change

/-- The tracker of a daemon that goes on through the changes. -/
def trackAll (flap : FlapTracker) (changes : List Change) : FlapTracker :=
  changes.foldl (fun flap c => c.track flap) flap

/-! ## The database -/

/-- A row of `failover_events`. -/
structure FailoverRow where
  ts : String
  fromProvider : Option String
  toProvider : String
  reason : String
  deriving DecidableEq

/-- `record_failover` -/
def recordFailover (toRfc3339 : DateTime → String) (rows : List FailoverRow) (r : FailoverRecord) :
    List FailoverRow :=
  rows ++ [{ ts := toRfc3339 r.timestamp, fromProvider := r.fromProvider
             toProvider := r.toProvider, reason := r.reason }]

/-- `from_provider IS NOT NULL AND from_provider != to_provider` -/
def FailoverRow.isSwitch (row : FailoverRow) : Bool :=
  row.fromProvider.any fun name => name ≠ row.toProvider

/-- The times of the switches since `since`, newest first. The rows are in the order of their ids;
the query compares texts. -/
def failoverTimesSince (toRfc3339 : DateTime → String) (parse : String → Option DateTime)
    (rows : List FailoverRow) (since : DateTime) (limit : UInt32) : List DateTime :=
  let found := rows.reverse.filter fun row => toRfc3339 since ≤ row.ts ∧ row.isSwitch
  (found.take limit.toNat).filterMap fun row => parse row.ts

/-- The flap tracker of a daemon that starts at `now`; `none` where chrono panics. -/
def restoreFlap (toRfc3339 : DateTime → String) (parse : String → Option DateTime)
    (rows : List FailoverRow) (now : DateTime) (flapWindowSecs : UInt64) : Option FlapTracker := do
  let window ← TimeDelta.seconds flapWindowSecs.toBitVec.toInt
  let since ← now.sub window
  let times := failoverTimesSince toRfc3339 parse rows since 256
  return if times = [] then {} else FlapTracker.withHistory times

/-! ## The text form of a time -/

/-- The first instant of the year 0, in nanoseconds since the epoch. -/
def yearZero : ℤ := -62167219200 * nanosPerSec

/-- The first instant of the year 10000. -/
def yearTenThousand : ℤ := 253402300800 * nanosPerSec

/-- The time is in one of the years 0 to 9999. -/
def InYears (t : DateTime) : Prop := yearZero ≤ t.nanos ∧ t.nanos < yearTenThousand

instance (t : DateTime) : Decidable (InYears t) := inferInstanceAs (Decidable (_ ∧ _))

/-- What is assumed of chrono's `to_rfc3339` and `parse_from_rfc3339`: in the years that are written
with four digits they agree and the order of the texts is that of the times, and the sign of an
earlier year sorts before the digits. -/
structure Rfc3339 (toRfc3339 : DateTime → String) (parse : String → Option DateTime) : Prop where
  parse_toRfc3339 : ∀ t, InYears t → parse (toRfc3339 t) = some t
  monotone : ∀ t u, InYears t → InYears u → t ≤ u → toRfc3339 t ≤ toRfc3339 u
  early : ∀ t u, t.nanos < yearZero → InYears u → toRfc3339 t ≤ toRfc3339 u

/-! ## What the daemon writes -/

theorem ne_of_switchOrKeep {current : Option String} {p : ProviderView} {reason target : String}
    (h : SwitchesTo (switchOrKeep current p reason) target) : current ≠ some target := by
  obtain ⟨reason', h⟩ := h
  unfold switchOrKeep at h
  split_ifs at h with hcurrent
  cases h
  exact hcurrent

theorem ne_of_switchToBest {current : Option String} {ps : List ProviderView}
    {reason target : String} (h : SwitchesTo (switchToBest current ps reason) target) :
    current ≠ some target := by
  unfold switchToBest at h
  split at h
  · exact ne_of_switchOrKeep h
  · obtain ⟨reason', h⟩ := h
    cases h

theorem ne_of_switchesTo {input : SelectionInput} {target : String}
    (h : SwitchesTo input.decide target) : input.current ≠ some target := by
  unfold SelectionInput.decide at h
  split at h
  · split at h
    · split_ifs at h
      · exact ne_of_switchOrKeep h
      · exact ne_of_switchToBest h
    · exact ne_of_switchToBest h
  · split at h
    · obtain ⟨reason, h⟩ := h
      cases h
    · split at h
      · rename_i hnone
        rw [hnone]
        exact nofun
      · rename_i best _ _ cur hcur
        rw [hcur]
        by_cases heq : cur = best.name
        · obtain ⟨reason, h⟩ := h
          rw [if_pos heq] at h
          cases h
        · rw [if_neg heq] at h
          -- every arm that is left switches to `best`, if it switches
          have hbest : target = best.name := by
            obtain ⟨reason, h⟩ := h
            repeat' split at h
            all_goals
              cases h
            all_goals rfl
          rw [hbest]
          exact fun h => heq (Option.some.inj h)

theorem failovers_of_advance (hinit : Initial s₀) (hrun : Run (step cfg) s₀ es s)
    (h : advance cfg s t ok = some s') :
    s'.failovers = s.failovers ∨ ∃ c : Change, s'.failovers = s.failovers ++ [c.record] := by
  rcases advance_cases h with ⟨name, p, -, -, -, rfl⟩ | ⟨_, point, hstate, h⟩ | ⟨point, -, h⟩ |
    ⟨name, point, -, rfl⟩ | ⟨point, -, rfl⟩
  · exact Or.inl rfl
  · cases point with
    | switchCommit a =>
      obtain ⟨hist, wait, r, u, hd⟩ := exists_decidedBy hinit hrun (t := t) (a := a)
        (by rw [hstate]; rfl)
      have hmoves : a.current ≠ some a.target.name := hd.current ▸ ne_of_switchesTo hd.switch
      cases h
      exact Or.inr ⟨.switched a.now a.current a.target.name a.reason hmoves, rfl⟩
    | _ => exact Or.inl ((passStep_writes h).1 fun _ => PassPoint.noConfusion)
  · cases point with
    | record expected =>
      cases h
      exact Or.inr ⟨.reinstalled s.clock expected.name _, rfl⟩
    | _ => exact Or.inl ((watchStep_writes h).2.2 fun _ => WatchPoint.noConfusion)
  · cases point <;> exact Or.inl rfl
  · cases point <;> exact Or.inl rfl

/-- **The daemon writes changes only.** -/
theorem failovers_of_run (hinit : Initial s₀) (hrun : Run (step cfg) s₀ es s) :
    ∃ changes : List Change, s.failovers = s₀.failovers ++ changes.map Change.record := by
  induction hrun with
  | nil => exact ⟨[], by simp⟩
  | @concat es s e s' hrun hstep ih =>
    obtain ⟨changes, ih⟩ := ih
    have hgrows : s'.failovers = s.failovers ∨
        ∃ c : Change, s'.failovers = s.failovers ++ [c.record] := by
      by_cases hadvance : ∃ t ok, e = .advance t ok
      · obtain ⟨t, ok, rfl⟩ := hadvance
        exact failovers_of_advance hinit hrun hstep
      · have hne : ∀ t ok, e ≠ .advance t ok := fun t ok he => hadvance ⟨t, ok, he⟩
        obtain ⟨tasks, health, clock, kernel, rfl⟩ := step_of_ne_advance hstep hne
        exact Or.inl rfl
    rcases hgrows with hsame | ⟨c, hc⟩
    · exact ⟨changes, hsame.trans ih⟩
    · exact ⟨changes ++ [c], by rw [hc, ih, List.map_append, List.append_assoc]; rfl⟩

/-! ## The two trackers -/

variable {toRfc3339 : DateTime → String} {parse : String → Option DateTime} {changes : List Change}

/-- The provider that carried the traffic gave it away. -/
def Change.isSwitch : Change → Bool
  | .switched _ current _ _ _ => current.isSome
  | .reinstalled .. => false

/-- The times of the switches among the changes. -/
def switchTimes (changes : List Change) : List DateTime :=
  (changes.filter Change.isSwitch).map Change.time

/-- The rows that the changes leave in the database. -/
def rowsOf (toRfc3339 : DateTime → String) (changes : List Change) : List FailoverRow :=
  (changes.map Change.record).foldl (recordFailover toRfc3339) []

theorem track_eq (flap : FlapTracker) (c : Change) :
    c.track flap = if c.isSwitch then flap.recordSwitch c.time else flap := by
  cases c <;> rfl

theorem trackAll_eq {l : List DateTime} (hroom : l.length ≤ FlapTracker.capacity) :
    trackAll ⟨l⟩ changes = ⟨(l ++ switchTimes changes).rtake FlapTracker.capacity⟩ := by
  have hpush : ∀ flap, trackAll flap changes =
      ⟨(switchTimes changes).foldl (Recent.push FlapTracker.capacity) flap.switches⟩ := by
    intro flap
    induction changes generalizing flap with
    | nil => rfl
    | cons c changes ih =>
      rw [trackAll, List.foldl_cons, ← trackAll, ih, track_eq, switchTimes, switchTimes]
      cases h : c.isSwitch with
      | false => rw [if_neg Bool.false_ne_true, List.filter_cons_of_neg (by simp [h])]
      | true =>
        rw [if_pos rfl, recordSwitch_eq, List.filter_cons_of_pos h, List.map_cons, List.foldl_cons]
  rw [hpush, Recent.foldl_push _ hroom]

theorem rowsOf_eq_map : rowsOf toRfc3339 changes = changes.map fun c =>
    { ts := toRfc3339 c.time, fromProvider := c.record.fromProvider
      toProvider := c.record.toProvider, reason := c.record.reason } := by
  induction changes using List.reverseRecOn with
  | nil => rfl
  | append_singleton changes c ih =>
    rw [rowsOf, List.map_append, List.foldl_append, ← rowsOf, ih, List.map_append]
    rfl

theorem isSwitch_row (c : Change) :
    (c.record.fromProvider.any fun name => name ≠ c.record.toProvider) = c.isSwitch := by
  cases c with
  | switched now current target reason moves =>
    cases current with
    | none => rfl
    | some cur =>
      have hne : cur ≠ target := fun h => moves (congrArg some h)
      simp [Change.record, Change.isSwitch, hne]
  | reinstalled => simp [Change.record, Change.isSwitch]

theorem failoverTimesSince_rowsOf (hread : ∀ c ∈ changes, parse (toRfc3339 c.time) = some c.time)
    (since : DateTime) (limit : UInt32) :
    failoverTimesSince toRfc3339 parse (rowsOf toRfc3339 changes) since limit =
      (((switchTimes changes).filter fun at_ => toRfc3339 since ≤ toRfc3339 at_).rtake
        limit.toNat).reverse := by
  have hparse : ∀ times : List Change, (∀ c ∈ times, c ∈ changes) →
      (times.filterMap fun c => parse (toRfc3339 c.time)) = times.map Change.time := by
    intro times htimes
    rw [← List.filterMap_eq_map]
    refine List.filterMap_congr fun c hc => ?_
    exact hread c (htimes c hc)
  rw [failoverTimesSince, rowsOf_eq_map, ← List.map_reverse, List.filter_map, ← List.map_take,
    List.filterMap_map, List.rtake_eq_reverse_take_reverse, List.reverse_reverse, switchTimes,
    List.filter_map, List.filter_filter, ← List.map_reverse, ← List.map_take, ← List.filter_reverse]
  simp only [Function.comp_def, FailoverRow.isSwitch, isSwitch_row, Bool.decide_and,
    Bool.decide_eq_true]
  refine hparse _ fun c hc => ?_
  exact List.mem_reverse.mp (List.mem_of_mem_filter (List.mem_of_mem_take hc))

theorem switchTimes_append (before after : List Change) :
    switchTimes (before ++ after) = switchTimes before ++ switchTimes after := by
  rw [switchTimes, List.filter_append, List.map_append]
  rfl

theorem switchTimes_sublist (changes : List Change) :
    (switchTimes changes).Sublist (changes.map Change.time) :=
  List.filter_sublist.map _

theorem withHistory_reverse {times : List DateTime} (hsorted : times.Pairwise (· ≤ ·)) :
    FlapTracker.withHistory times.reverse = ⟨times.rtake FlapTracker.capacity⟩ := by
  have hsort : (times.reverse.mergeSort fun t u => t ≤ u).Pairwise (· ≤ ·) := by
    refine (List.pairwise_mergeSort (fun t u v htu huv => ?_) (fun t u => ?_) _).imp
      of_decide_eq_true
    · exact decide_eq_true (DateTime.le_trans (of_decide_eq_true htu) (of_decide_eq_true huv))
    · simpa using DateTime.le_total t u
  have hperm : (times.reverse.mergeSort fun t u => t ≤ u).Perm times :=
    (List.mergeSort_perm _ _).trans times.reverse_perm
  have heq : (times.reverse.mergeSort fun t u => t ≤ u) = times :=
    hperm.eq_of_pairwise (fun t u _ _ htu hut => DateTime.le_antisymm htu hut) hsort hsorted
  rw [FlapTracker.withHistory, heq, List.rtake]

/-- For windows of any use the two conversions of the configured seconds agree. -/
theorem seconds_eq {secs : UInt64} (h : secs.toNat ≤ 100 * 366 * 86400) :
    TimeDelta.seconds secs.toBitVec.toInt = some (Duration.fromSecs secs).fromStdOrZero := by
  have hint : secs.toBitVec.toInt = secs.toNat := by
    rw [BitVec.toInt_eq_toNat_of_lt (by simp only [UInt64.toNat_toBitVec]; omega)]
    rfl
  have hmax : (Duration.fromSecs secs).nanos ≤ TimeDelta.max := by
    simp only [Duration.fromSecs, nanosPerSec, TimeDelta.max]
    omega
  have hfits : (secs.toNat : ℤ).natAbs * nanosPerSec ≤ TimeDelta.max := hmax
  rw [Duration.fromStdOrZero_eq hmax, hint, TimeDelta.seconds, if_pos hfits]
  rfl

/-- **What a restarted daemon remembers**: the last of the switches that the query finds. -/
theorem restoreFlap_rowsOf (hchrono : Rfc3339 toRfc3339 parse)
    (hyears : ∀ c ∈ changes, InYears c.time)
    (hsorted : (changes.map Change.time).Pairwise (· ≤ ·)) {now since : DateTime}
    {flapWindowSecs : UInt64} (hwindow : flapWindowSecs.toNat ≤ 100 * 366 * 86400)
    (hsince : now.sub (Duration.fromSecs flapWindowSecs).fromStdOrZero = some since) :
    restoreFlap toRfc3339 parse (rowsOf toRfc3339 changes) now flapWindowSecs =
      some ⟨((switchTimes changes).filter fun at_ => toRfc3339 since ≤ toRfc3339 at_).rtake
        FlapTracker.capacity⟩ := by
  have hfound : ((switchTimes changes).filter fun at_ =>
      toRfc3339 since ≤ toRfc3339 at_).Pairwise (· ≤ ·) :=
    hsorted.sublist (List.filter_sublist.trans (switchTimes_sublist changes))
  have hread : ∀ c ∈ changes, parse (toRfc3339 c.time) = some c.time := fun c hc =>
    hchrono.parse_toRfc3339 c.time (hyears c hc)
  have htimes := failoverTimesSince_rowsOf hread since 256
  generalize (switchTimes changes).filter _ = found at hfound htimes ⊢
  have hlast : (found.rtake FlapTracker.capacity).Pairwise (· ≤ ·) :=
    hfound.sublist (List.drop_sublist _ _)
  have hnone : ∀ times, (if times = [] then {} else FlapTracker.withHistory times) =
      FlapTracker.withHistory times := by
    intro times
    split_ifs with h
    · rw [h]
      simp [FlapTracker.withHistory]
    · rfl
  rw [restoreFlap, seconds_eq hwindow, Option.bind_eq_bind, Option.bind_some, hsince,
    Option.bind_eq_bind, Option.bind_some, htimes]
  change some _ = _
  rw [hnone, show UInt32.toNat 256 = FlapTracker.capacity from rfl, withHistory_reverse hlast,
    Recent.rtake_of_length_le]
  rw [Recent.length_rtake]
  exact Nat.min_le_left _ _

/-! ## The same window after a restart -/

/-- The failback window depends on the switches that the tracker remembers of the flap window. -/
theorem effectiveFailback_congr {flap flap' : FlapTracker} {now : DateTime} {window : Duration}
    (h : ∀ cutoff, now.sub window.fromStdOrZero = some cutoff →
      flap.switches.countP (fun at_ => cutoff ≤ at_) =
        flap'.switches.countP fun at_ => cutoff ≤ at_) (base : Duration) (threshold : UInt32)
    (max : Duration) :
    flap.effectiveFailback now base threshold window max =
      flap'.effectiveFailback now base threshold window max := by
  have hcount : flap.switchesInWindow now window = flap'.switchesInWindow now window := by
    refine Option.map_congr fun cutoff hcutoff => ?_
    rw [h cutoff hcutoff]
  rw [FlapTracker.effectiveFailback, hcount, FlapTracker.effectiveFailback]

theorem toRfc3339_le (hchrono : Rfc3339 toRfc3339 parse) {since at_ : DateTime}
    (hat : InYears at_) (hle : since ≤ at_) : toRfc3339 since ≤ toRfc3339 at_ := by
  by_cases hearly : since.nanos < yearZero
  · exact hchrono.early since at_ hearly hat
  · exact hchrono.monotone since at_ ⟨not_lt.mp hearly, lt_of_le_of_lt hle hat.2⟩ hat hle

/-- **Flap damping survives a restart.** Whatever was recorded before it, the daemon that restarts
has at any later time, whatever it has recorded since, the failback window of a daemon that recorded
it all. -/
theorem effectiveFailback_restart (hchrono : Rfc3339 toRfc3339 parse) {before after : List Change}
    (hsorted : ((before ++ after).map Change.time).Pairwise (· ≤ ·))
    (hyears : ∀ c ∈ before, InYears c.time) {restart : DateTime} (hrestart : InYears restart)
    {flapWindowSecs : UInt64} (hwindow : flapWindowSecs.toNat ≤ 100 * 366 * 86400) :
    ∃ flap, restoreFlap toRfc3339 parse (rowsOf toRfc3339 before) restart flapWindowSecs =
        some flap ∧
      ∀ now, restart ≤ now → ∀ base threshold max,
        (trackAll flap after).effectiveFailback now base threshold
            (Duration.fromSecs flapWindowSecs) max =
          (trackAll {} (before ++ after)).effectiveFailback now base threshold
            (Duration.fromSecs flapWindowSecs) max := by
  have hmax : (Duration.fromSecs flapWindowSecs).nanos ≤ TimeDelta.max := by
    simp only [Duration.fromSecs, nanosPerSec, TimeDelta.max]
    omega
  have hin : DateTime.InCalendar
      (restart.nanos - (Duration.fromSecs flapWindowSecs).fromStdOrZero) := by
    rw [Duration.fromStdOrZero_eq hmax]
    simp only [InYears, yearZero, yearTenThousand, DateTime.InCalendar, Duration.fromSecs,
      nanosPerSec] at *
    omega
  have hsince : restart.sub (Duration.fromSecs flapWindowSecs).fromStdOrZero = some ⟨_, hin⟩ :=
    DateTime.sub_eq_some_iff.mpr rfl
  have hsortedBefore : (before.map Change.time).Pairwise (· ≤ ·) := by
    rw [List.map_append] at hsorted
    exact (List.pairwise_append.mp hsorted).1
  refine ⟨_, restoreFlap_rowsOf hchrono hyears hsortedBefore hwindow hsince, fun now hnow base
    threshold max => effectiveFailback_congr (fun cutoff hcutoff => ?_) base threshold max⟩
  have hroom : ∀ times : List DateTime, (times.rtake FlapTracker.capacity).length ≤
      FlapTracker.capacity := fun times => by
    rw [Recent.length_rtake]
    exact Nat.min_le_left _ _
  have hnew : ([] : List DateTime).length ≤ FlapTracker.capacity := Nat.zero_le _
  rw [trackAll_eq (hroom _), trackAll_eq hnew, switchTimes_append, List.nil_append]
  have hlast : (switchTimes before ++ switchTimes after).Pairwise fun t u =>
      decide (cutoff ≤ t) = true → decide (cutoff ≤ u) = true := by
    rw [← switchTimes_append]
    refine (hsorted.sublist (switchTimes_sublist _)).imp fun hle hpast => ?_
    exact decide_eq_true (DateTime.le_trans (of_decide_eq_true hpast) hle)
  have hheld : ∀ at_ ∈ switchTimes before, decide (cutoff ≤ at_) = true →
      decide (toRfc3339 ⟨_, hin⟩ ≤ toRfc3339 at_) = true := by
    -- what the flap window holds later, it held at the restart
    intro at_ hat hpast
    obtain ⟨c, hc, rfl⟩ := List.mem_map.mp ((switchTimes_sublist before).subset hat)
    refine decide_eq_true (toRfc3339_le hchrono (hyears c hc) ?_)
    have hlater : restart.nanos ≤ now.nanos := hnow
    have hcutoff := DateTime.sub_eq_some_iff.mp hcutoff
    have hle : (cutoff.nanos : ℤ) ≤ c.time.nanos := of_decide_eq_true hpast
    change restart.nanos - _ ≤ c.time.nanos
    omega
  dsimp only
  exact Recent.countP_rebuilt hlast hheld

/-! ## A text form

One that is chrono's at three instants, and counts the nanoseconds between them. -/

/-- The last of the three instants up to `t`, and its text. -/
def landmark (t : DateTime) : ℤ × String :=
  if 0 ≤ t.nanos then (0, "1970-01-01T00:00:00+00:00")
  else if -60 * nanosPerSec ≤ t.nanos then (-60 * nanosPerSec, "1969-12-31T23:59:00+00:00")
  else (yearZero, "0000-01-01T00:00:00+00:00")

/-- A landmark, and one zero for each nanosecond since. -/
def tallyText (t : DateTime) : String :=
  String.ofList ((landmark t).2.toList ++
    List.replicate (t.nanos - (landmark t).1).toNat '0')

/-- The instant that the text stands for. -/
def instant (text : List Char) : ℤ :=
  if text = "1970-01-01T00:00:00+00:00".toList then 0
  else if text = "1969-12-31T23:59:00+00:00".toList then -60 * nanosPerSec
  else yearZero

/-- The zeros are counted. -/
def tallyTime (s : String) : Option DateTime :=
  DateTime.epoch.sub (-(instant (s.toList.take 25) + (s.toList.length - 25)))

theorem append_lt_append {p q : List Char} (hlt : p < q) (hlen : p.length = q.length)
    (x y : List Char) : p ++ x < q ++ y := by
  induction p generalizing q with
  | nil => cases q <;> simp_all
  | cons a p ih =>
    cases q with
    | nil => simp at hlen
    | cons b q =>
      rw [List.cons_lt_cons_iff] at hlt
      rw [List.cons_append, List.cons_append, List.cons_lt_cons_iff]
      exact hlt.imp id fun h => ⟨h.1, ih h.2 (by simpa using hlen)⟩

theorem length_landmark (t : DateTime) : (landmark t).2.toList.length = 25 := by
  unfold landmark
  split_ifs <;> decide

theorem instant_landmark (t : DateTime) : instant (landmark t).2.toList = (landmark t).1 := by
  unfold landmark
  split_ifs <;> decide

theorem tallyTime_tallyText {t : DateTime} (h : yearZero ≤ t.nanos) :
    tallyTime (tallyText t) = some t := by
  have hle : (landmark t).1 ≤ t.nanos := by
    unfold landmark
    split_ifs <;> assumption
  have hlen : (tallyText t).toList.length = 25 + (t.nanos - (landmark t).1).toNat := by
    rw [tallyText, String.toList_ofList, List.length_append, length_landmark,
      List.length_replicate]
  have htake : (tallyText t).toList.take 25 = (landmark t).2.toList := by
    rw [tallyText, String.toList_ofList, List.take_left' (length_landmark t)]
  rw [tallyTime, DateTime.sub_eq_some_iff, htake, instant_landmark, hlen, DateTime.epoch]
  dsimp only
  omega

theorem landmark_le {t u : DateTime} (hle : t ≤ u) :
    landmark t = landmark u ∨ (landmark t).2.toList < (landmark u).2.toList := by
  have hle : t.nanos ≤ u.nanos := hle
  unfold landmark
  split_ifs
  all_goals first
    | exact Or.inl rfl
    | exact Or.inr (by decide)
    | omega

theorem tallyText_monotone {t u : DateTime} (hle : t ≤ u) : tallyText t ≤ tallyText u := by
  rw [String.le_iff_toList_le, tallyText, tallyText, String.toList_ofList, String.toList_ofList]
  rcases landmark_le hle with heq | hlt
  · rw [heq]
    have hoffset : (t.nanos - (landmark u).1).toNat ≤ (u.nanos - (landmark u).1).toNat :=
      Int.toNat_le_toNat (Int.sub_le_sub_right hle _)
    obtain ⟨k, hk⟩ := Nat.exists_eq_add_of_le hoffset
    rw [hk, List.replicate_add, ← List.append_assoc]
    exact not_lt.mp (List.not_lt.mpr List.le_append_left)
  · exact le_of_lt (append_lt_append hlt (by rw [length_landmark, length_landmark]) _ _)

theorem tally_rfc3339 : Rfc3339 tallyText tallyTime where
  parse_toRfc3339 _ h := tallyTime_tallyText h.1
  monotone _ _ _ _ h := tallyText_monotone h
  early _ _ ht hu := tallyText_monotone (le_of_lt (lt_of_lt_of_le ht hu.1))

/-- A minute before the epoch. -/
def minuteBefore : DateTime := ⟨-60 * nanosPerSec, by decide⟩

/-- The provider `b` took over from `a` a minute before a restart, its route was put back at the
restart, and then `a` came back. -/
theorem effectiveFailback_restart_example :
    ∃ flap, restoreFlap tallyText tallyTime
        (rowsOf tallyText [.switched minuteBefore (some "a") "b" "'a' is down" (by decide),
          .reinstalled .epoch "b" "route watchdog: external tool replaced our default route"])
        .epoch 60 = some flap ∧
      ∀ now, DateTime.epoch ≤ now → ∀ base threshold max,
        (trackAll flap [.switched .epoch (some "b") "a" "failback" (by decide)]).effectiveFailback
            now base threshold (Duration.fromSecs 60) max =
          (trackAll {} [.switched minuteBefore (some "a") "b" "'a' is down" (by decide),
            .reinstalled .epoch "b" "route watchdog: external tool replaced our default route",
            .switched .epoch (some "b") "a" "failback" (by decide)]).effectiveFailback
            now base threshold (Duration.fromSecs 60) max :=
  effectiveFailback_restart tally_rfc3339 (by decide) (by decide) (by decide) (by decide)

end Vlb.Balancer
