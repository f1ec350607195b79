import Mathlib.Algebra.Order.AbsoluteValue.Basic
import Mathlib.Algebra.Order.Field.Basic
import Mathlib.Algebra.Order.Field.Rat
import Mathlib.Algebra.Order.Ring.Abs
import Mathlib.Tactic.Linarith
import Mathlib.Tactic.Positivity
import Mathlib.Tactic.Ring
import Vlb.Obs.Rollup
import Vlb.Ui.Connections

/-!
# Connected time and availability

The view of a client shows how long it was connected, and beside it which share of the window that
was. The time is that of the connections that are listed, which are the newest, and each counts as a
whole. The share is that of the rollup, which clamps every connection to the window.

* `connected`, `availability`: the two figures.
* `Backed`: a daemon whose queries are over the same tables.
* `OneMeasurement`: what the two figures are to be.
* **`oneMeasurement_iff`**: they are so where what the listed connections have outside the window makes
  up for what the others have inside it.
-/

namespace Vlb.Control

open Entries Time
open Vlb.Stats (onlineIn sessionsOf windowSecs)

/-! ## The two figures -/

/-- The seconds of the connections in the list. -/
def connected (detail : ClientDetail) : ℕ :=
  (detail.sessions.map fun s => s.durationSecs.toNatClampNeg).sum

/-- `availability_pct`, before its rounding to a float. -/
def availability (onlineSecs windowSecs : ℤ) : ℚ :=
  if windowSecs ≤ 0 then 0 else max 0 (min (onlineSecs / windowSecs * 100) 100)

/-- The time, as a share of the window, is the availability, up to a second for each connection. -/
structure OneMeasurement [Floats] (detail : ClientDetail) (connections : ℕ) : Prop where
  shown : detail.availabilityPct = detail.client.availabilityPct (windowSecs detail.windowHours)
  near : |(connected detail : ℚ) / windowSecs detail.windowHours * 100 -
      availability detail.client.onlineSecs.toInt (windowSecs detail.windowHours)| ≤
    connections / windowSecs detail.windowHours * 100

/-! ## The tables -/

def ClientSessionRow.session (s : ClientSessionRow) : Stats.Session DateTime where
  ip := s.ip
  startedAt := s.startedAt
  endedAt := s.endedAt

/-- An entry of the rollup, in the integers that it has. -/
def ClientRollup.ofStats (r : Stats.ClientRollup) : ClientRollup where
  rxBytes := Int64.ofInt r.rxBytes
  txBytes := Int64.ofInt r.txBytes
  disconnects := Int64.ofInt r.disconnects
  onlineSecs := Int64.ofInt r.onlineSecs

/-- The connections and the rollup of a daemon are of the same tables. -/
structure Backed (d : Daemon) (read : String → Option DateTime) (clock : DateTime)
    (describe : Stats.StatsError → String) (samples : List (Stats.Row String Stats.Sample))
    (rows : List ClientSessionRow) : Prop where
  clientSessions : d.db.clientSessions = .ok rows
  clientRollup : ∀ hours, d.db.clientRollup hours =
    ((Stats.clientRollup read clock hours d.now samples
      ((rows.map ClientSessionRow.session).map Stats.Session.stored)).mapError describe).map
        (mapValues fun _ => ClientRollup.ofStats)

/-! ## The connections and the window -/

/-- The start of a window until now, in nanoseconds. -/
def windowFrom (hours : UInt32) (now : DateTime) : ℤ := now.nanos - windowSecs hours * nanosPerSec

/-- The whole seconds that connections have in the window. -/
def inWindow (from_ : ℤ) (now : DateTime) (connections : List ClientSessionRow) : ℤ :=
  (connections.map fun s => onlineIn from_ now s.session).sum

/-- The whole seconds that the listed connections have outside of it. -/
def outside (from_ : ℤ) (now : DateTime) (history : List ClientSessionRow) : ℤ :=
  ((history.reverse.take 50).map fun s =>
    wholeSecs s.startedAt (s.endedAt.getD now) - onlineIn from_ now s.session).sum

/-- The whole seconds that the others have in it. -/
def unlisted (from_ : ℤ) (now : DateTime) (history : List ClientSessionRow) : ℤ :=
  inWindow from_ now (history.reverse.drop 50)

variable {d : Daemon} {read : String → Option DateTime} {clock now : DateTime}
  {describe : Stats.StatsError → String} {samples : List (Stats.Row String Stats.Sample)}
  {rows : List ClientSessionRow} {ip : String} {hours limit : UInt32} {detail : ClientDetail}

theorem toNatClampNeg_secondsBetween (t u : DateTime) :
    ((secondsBetween t u).toNatClampNeg : ℤ) = wholeSecs t u := by
  have hnonneg : 0 ≤ wholeSecs t u := by
    rw [wholeSecs]
    split_ifs with hle
    · exact Int.ediv_nonneg (Int.sub_nonneg_of_le hle) (by decide)
    · exact le_rfl
  rw [← toInt_secondsBetween] at hnonneg ⊢
  exact Int.toNat_of_nonneg hnonneg

theorem sum_durations (now : DateTime) (page : List ClientSessionRow) :
    (((sessionInfos now page).map fun s => s.durationSecs.toNatClampNeg).sum : ℕ) =
      ((page.map fun s => wholeSecs s.startedAt (s.endedAt.getD now)).sum : ℤ) := by
  induction page with
  | nil => rfl
  | cons s page ih =>
    rw [sessionInfos, List.map_cons, List.sum_cons, List.map_cons, List.sum_cons, Nat.cast_add, ih,
      toNatClampNeg_secondsBetween]

/-- What all connections have in the window is what the listed have and what the others have. -/
theorem sum_wholeSecs (from_ : ℤ) (now : DateTime) (history : List ClientSessionRow) :
    ((history.reverse.take 50).map fun s => wholeSecs s.startedAt (s.endedAt.getD now)).sum -
        inWindow from_ now history = outside from_ now history - unlisted from_ now history := by
  have hall : inWindow from_ now history =
      inWindow from_ now (history.reverse.take 50) + unlisted from_ now history := by
    rw [unlisted, inWindow, inWindow, inWindow, ← List.sum_append, ← List.map_append,
      List.take_append_drop, List.map_reverse, List.sum_reverse]
  have hlisted : outside from_ now history + inWindow from_ now (history.reverse.take 50) =
      ((history.reverse.take 50).map fun s => wholeSecs s.startedAt (s.endedAt.getD now)).sum := by
    rw [outside, inWindow, ← List.sum_map_add]
    simp only [Int.sub_add_cancel]
  omega

theorem onlineSecs_clientList [Floats] {clients : List ClientInfo}
    (h : d.clientList hours = .ok clients)
    {c : ClientInfo} (hc : c ∈ clients) :
    ∃ rollup, d.db.clientRollup (clamp hours 1 (24 * 365)) = .ok rollup ∧
      c.onlineSecs = (getD rollup c.ip {}).onlineSecs := by
  obtain ⟨roster, -, h⟩ := bind_eq_ok_iff.mp h
  obtain ⟨rollup, hrollup, h⟩ := bind_eq_ok_iff.mp h
  obtain rfl := Except.ok.inj h
  refine ⟨rollup, hrollup, ?_⟩
  obtain hlisted | hother := List.mem_append.mp (List.mem_mergeSort.mp hc)
  · obtain ⟨row, -, rfl⟩ := List.mem_map.mp hlisted
    rfl
  · obtain ⟨e, -, rfl⟩ := List.mem_map.mp hother
    rfl

theorem clamp_spec (n : UInt32) {lo hi : UInt32} (h : lo ≤ hi) :
    lo ≤ clamp n lo hi ∧ clamp n lo hi ≤ hi := by
  rw [clamp]
  split_ifs with hlo hhi
  · exact ⟨UInt32.le_refl lo, h⟩
  · exact ⟨h, UInt32.le_refl hi⟩
  · exact ⟨UInt32.not_lt.mp hlo, UInt32.not_lt.mp hhi⟩

theorem clamp_of_le {n lo hi : UInt32} (hlo : lo ≤ n) (hhi : n ≤ hi) : clamp n lo hi = n := by
  rw [clamp, if_neg (UInt32.not_lt.mpr hlo), if_neg (UInt32.not_lt.mpr hhi)]

/-- What the connections of a client have in the window is no more than the window has. -/
theorem inWindow_mem (hours : UInt32)
    (hapart : Stats.Apart now ((historyOf rows ip).map ClientSessionRow.session)) :
    0 ≤ inWindow (windowFrom hours now) now (historyOf rows ip) ∧
      inWindow (windowFrom hours now) now (historyOf rows ip) ≤ windowSecs hours := by
  have hleast : 0 ≤ (((historyOf rows ip).map ClientSessionRow.session).map
      (onlineIn (windowFrom hours now) now)).sum := Stats.sum_onlineIn_nonneg _ _
  have hmost := Stats.sum_onlineIn_le_window hours hapart
  rw [List.map_map] at hleast hmost
  exact ⟨hleast, hmost⟩

/-- **What the rollup says of the client in the view**: the whole seconds that all its connections have
in the window. -/
theorem onlineSecs_clientDetail [Floats] (hbacked : Backed d read clock describe samples rows)
    (hformed : Stats.WellFormed read [] (rows.map ClientSessionRow.session))
    (hapart : Stats.Apart d.now ((historyOf rows ip).map ClientSessionRow.session))
    (h : d.clientDetail ip hours limit = .ok detail) :
    detail.client.onlineSecs.toInt =
      inWindow (windowFrom detail.windowHours d.now) d.now (historyOf rows ip) := by
  obtain ⟨⟨clients, hclients, hfind⟩, hhours, -⟩ := clientDetail_eq_ok h
  have hhour : (1 : UInt32) ≤ 24 * 365 := by decide
  obtain ⟨hlo, hhi⟩ := clamp_spec hours hhour
  obtain ⟨out, hout, honline⟩ := onlineSecs_clientList hclients (List.mem_of_find?_eq_some hfind)
  have hip : detail.client.ip = ip := by simpa using List.find?_some hfind
  rw [clamp_of_le hlo hhi, ← hhours, hbacked.clientRollup] at hout
  rw [← hhours] at hlo hhi
  cases hrollup : Stats.clientRollup read clock detail.windowHours d.now samples
      ((rows.map ClientSessionRow.session).map Stats.Session.stored) with
  | error e =>
    rw [hrollup] at hout
    cases hout
  | ok rollup =>
    rw [hrollup] at hout
    obtain rfl := Except.ok.inj hout
    have hown : sessionsOf (rows.map ClientSessionRow.session) ip =
        (historyOf rows ip).map ClientSessionRow.session := List.filter_map
    have hentry : (getD rollup ip {}).onlineSecs =
        (inWindow (windowFrom detail.windowHours d.now) d.now (historyOf rows ip)).bmod (2 ^ 64) := by
      rw [Stats.onlineSecs_clientRollup hformed hlo hrollup ip, hown, List.map_map]
      rfl
    obtain ⟨hleast, hmost⟩ := inWindow_mem detail.windowHours hapart
    have hyear : windowSecs detail.windowHours ≤ 8760 * 3600 := by
      rw [UInt32.le_iff_toNat_le] at hhi
      have hmax : (24 * 365 : UInt32).toNat = 8760 := by decide
      rw [windowSecs]
      omega
    have hexact : (getD rollup ip {}).onlineSecs =
        inWindow (windowFrom detail.windowHours d.now) d.now (historyOf rows ip) :=
      hentry.trans (Int.bmod_eq_of_le (by omega) (by omega))
    have hdefault : ClientRollup.ofStats {} = {} := rfl
    rw [honline, hip, ← hdefault, getD_mapValues, ClientRollup.ofStats, hexact]
    exact Int64.toInt_ofInt_of_le (by omega) (by omega)

/-! ## The law -/

theorem abs_share_sub_le_iff {a b : ℤ} {n : ℕ} {window : ℤ} (hwindow : 0 < window) :
    |(a : ℚ) / window * 100 - b / window * 100| ≤ n / window * 100 ↔ |a - b| ≤ n := by
  have hpos : (0 : ℚ) < 100 / window := div_pos (by norm_num) (Int.cast_pos.mpr hwindow)
  have hshare : (a : ℚ) / window * 100 - b / window * 100 = (a - b) * (100 / window) := by ring
  have hbound : (n : ℚ) / window * 100 = n * (100 / window) := by ring
  rw [hshare, hbound, abs_mul, abs_of_pos hpos, mul_le_mul_iff_of_pos_right hpos]
  exact_mod_cast Iff.rfl

theorem availability_eq {secs window : ℤ} (hwindow : 0 < window) (hnonneg : 0 ≤ secs)
    (hle : secs ≤ window) : availability secs window = secs / window * 100 := by
  have hpos : (0 : ℚ) < window := Int.cast_pos.mpr hwindow
  have hshare : (secs : ℚ) / window ≤ 1 := (div_le_one hpos).mpr (Int.cast_le.mpr hle)
  have hleast : (0 : ℚ) ≤ secs / window * 100 :=
    mul_nonneg (div_nonneg (Int.cast_nonneg hnonneg) hpos.le) (by norm_num)
  rw [availability, if_neg (Int.not_le.mpr hwindow), min_eq_left (by linarith), max_eq_right hleast]

section Law

variable [Floats] (hbacked : Backed d read clock describe samples rows)
  (hformed : Stats.WellFormed read [] (rows.map ClientSessionRow.session))
  (hapart : Stats.Apart d.now ((historyOf rows ip).map ClientSessionRow.session))
  (h : d.clientDetail ip hours limit = .ok detail)

include hbacked hformed hapart h

theorem oneMeasurement_iff_secs : OneMeasurement detail (historyOf rows ip).length ↔
    |(connected detail : ℤ) - detail.client.onlineSecs.toInt| ≤ (historyOf rows ip).length := by
  obtain ⟨-, hhours, hshown, -⟩ := clientDetail_eq_ok h
  have hhour : (1 : UInt32) ≤ 24 * 365 := by decide
  have hpos : 0 < windowSecs detail.windowHours := by
    have hlo := UInt32.le_iff_toNat_le.mp (clamp_spec hours hhour).1
    rw [← hhours] at hlo
    have hone : (1 : UInt32).toNat = 1 := by decide
    rw [windowSecs]
    omega
  have honline := onlineSecs_clientDetail hbacked hformed hapart h
  obtain ⟨hnonneg, hle⟩ := inWindow_mem detail.windowHours hapart
  have hnear : |(connected detail : ℚ) / windowSecs detail.windowHours * 100 -
        availability detail.client.onlineSecs.toInt (windowSecs detail.windowHours)| ≤
          (historyOf rows ip).length / windowSecs detail.windowHours * 100 ↔
      |(connected detail : ℤ) - detail.client.onlineSecs.toInt| ≤ (historyOf rows ip).length := by
    rw [honline, availability_eq hpos hnonneg hle, ← Int.cast_natCast (connected detail)]
    exact abs_share_sub_le_iff hpos
  rw [← hnear]
  exact ⟨fun hone => hone.near, fun hnear => ⟨hshown, hnear⟩⟩

theorem connected_sub_onlineSecs : (connected detail : ℤ) - detail.client.onlineSecs.toInt =
    outside (windowFrom detail.windowHours d.now) d.now (historyOf rows ip) -
      unlisted (windowFrom detail.windowHours d.now) d.now (historyOf rows ip) := by
  rw [connected, sessions_clientDetail hbacked.clientSessions h, sum_durations,
    onlineSecs_clientDetail hbacked hformed hapart h, sum_wholeSecs]

/-- **Connected time and availability are one measurement where what the listed connections have
outside the window makes up for what the others have inside it.** -/
theorem oneMeasurement_iff : OneMeasurement detail (historyOf rows ip).length ↔
    |outside (windowFrom (clamp hours 1 (24 * 365)) d.now) d.now (historyOf rows ip) -
      unlisted (windowFrom (clamp hours 1 (24 * 365)) d.now) d.now (historyOf rows ip)| ≤
        (historyOf rows ip).length := by
  obtain ⟨-, hhours, -⟩ := clientDetail_eq_ok h
  rw [oneMeasurement_iff_secs hbacked hformed hapart h,
    connected_sub_onlineSecs hbacked hformed hapart h, hhours]

end Law

/-! ## Connections in the window, and before it -/

/-- Connections that start in the window and end by now have nothing outside of it. -/
theorem outside_eq_zero {from_ : ℤ} {history : List ClientSessionRow}
    (h : ∀ s ∈ history, from_ ≤ s.startedAt.nanos ∧ s.endedAt.getD now ≤ now) :
    outside from_ now history = 0 := by
  refine List.sum_eq_zero (List.forall_mem_map.mpr fun s hs => ?_)
  obtain ⟨hstart, hend⟩ := h s (List.mem_reverse.mp (List.mem_of_mem_take hs))
  have hend : (s.endedAt.getD now).nanos ≤ now.nanos := hend
  rw [Int.sub_eq_zero, wholeSecs, onlineIn, Spans.overlap]
  simp only [ClientSessionRow.session, min_eq_left hend, max_eq_left hstart]
  split_ifs with hle
  · rw [max_eq_right (Int.sub_nonneg_of_le hle)]
  · rw [max_eq_left (Int.sub_nonpos_of_le (Int.not_le.mp hle).le)]
    rfl

theorem unlisted_eq_zero (from_ : ℤ) {history : List ClientSessionRow} (h : history.length ≤ 50) :
    unlisted from_ now history = 0 := by
  rw [unlisted, List.drop_eq_nil_of_le (by rwa [List.length_reverse])]
  rfl

/-- A daemon over tables without samples. -/
def withTables (read : String → Option DateTime) (rows : List ClientSessionRow) : Daemon :=
  { withSessions rows with
    db := { (withSessions rows).db with
      clientRollup := fun hours => ((Stats.clientRollup read .epoch hours .epoch []
        ((rows.map ClientSessionRow.session).map Stats.Session.stored)).mapError fun _ => "").map
          (mapValues fun _ => ClientRollup.ofStats) } }

theorem backed_withTables (read : String → Option DateTime) (rows : List ClientSessionRow) :
    Backed (withTables read rows) read .epoch (fun _ => "") [] rows where
  clientSessions := rfl
  clientRollup _ := rfl

/-- The start of a window of a day. -/
def aDayBefore : DateTime := Stats.secondsBefore 86400 (by decide)

theorem clientDetail_withTables [Floats] {read : String → Option DateTime}
    {rows : List ClientSessionRow}
    (hformed : Stats.WellFormed read [] (rows.map ClientSessionRow.session)) :
    ∃ detail, (withTables read rows).clientDetail "10.0.0.5" 24 120 = .ok detail ∧
      detail.windowHours = 24 := by
  have hstart : Stats.windowStart .epoch 24 = .ok aDayBefore :=
    Stats.windowStart_eq_ok_iff.mpr (by decide)
  have hyear : aDayBefore.date.year ≤ 9999 := by decide +kernel
  obtain ⟨out, hout, -⟩ :=
    Stats.clientRollup_ok .epoch hformed Stats.smallBytes_nil (by decide) hstart hyear
  have hrollup : (withTables read rows).db.clientRollup 24 =
      .ok (mapValues (fun _ => ClientRollup.ofStats) out) := by
    rw [(backed_withTables read rows).clientRollup]
    exact congrArg (fun r => (Except.mapError _ r).map _) hout
  have hclients : (withTables read rows).clientList (clamp 24 1 (24 * 365)) =
      .ok [buildClientInfo "10.0.0.5" none none none (some .epoch) (some .epoch) none
        ((mapValues (fun _ => ClientRollup.ofStats) out).lookup "10.0.0.5") .epoch] := by
    have hclamp : clamp 24 1 (24 * 365) = 24 := by decide
    have hroster : (withTables read rows).db.clients =
        .ok [⟨"10.0.0.5", none, none, none, .epoch, .epoch⟩] := rfl
    rw [Daemon.clientList, hroster, clamp_of_le (by decide) (by decide), hclamp, hrollup]
    exact congrArg Except.ok (List.mergeSort_singleton _)
  rw [Daemon.clientDetail, hclients]
  exact ⟨_, rfl, rfl⟩

/-- Twelve hours, two days ago. -/
def longAgo : ClientSessionRow where
  ip := "10.0.0.5"
  startedAt := Stats.secondsBefore 172800 (by decide)
  endedAt := some (Stats.secondsBefore 129600 (by decide))
  rxBytes := 0
  txBytes := 0

/-- An hour and a half, until half an hour ago. -/
def lately : ClientSessionRow where
  ip := "10.0.0.5"
  startedAt := Stats.twoHoursBefore
  endedAt := some Stats.halfAnHourBefore
  rxBytes := 0
  txBytes := 0

/-- Reads the times of these connections. -/
def readConnections : String → Option DateTime :=
  Stats.readAmong [longAgo.startedAt, Stats.secondsBefore 129600 (by decide), lately.startedAt,
    Stats.halfAnHourBefore]

theorem wellFormed_readConnections {s : ClientSessionRow} (hs : s ∈ [longAgo, lately]) :
    Stats.WellFormed readConnections [] ([s].map ClientSessionRow.session) := by
  have hread : ∀ s ∈ [longAgo, lately],
      readConnections (Stats.toRfc3339 s.startedAt) = some s.startedAt ∧
        ∀ ended ∈ s.endedAt, FourDigits ended ∧
          readConnections (Stats.toRfc3339 ended) = some ended := by
    decide +kernel
  obtain ⟨hstart, hend⟩ := hread s hs
  constructor
  case samples => exact fun r hr => absurd hr List.not_mem_nil
  case ends =>
    intro s' hs' ended hended
    obtain rfl := List.mem_singleton.mp hs'
    exact (hend ended hended).1
  case readStart =>
    intro s' hs'
    obtain rfl := List.mem_singleton.mp hs'
    exact hstart
  case readEnd =>
    intro s' hs' ended hended
    obtain rfl := List.mem_singleton.mp hs'
    exact (hend ended hended).2

theorem oneMeasurement_lately : let _ := intervals
    ∃ detail, (withTables readConnections [lately]).clientDetail "10.0.0.5" 24 120 = .ok detail ∧
      OneMeasurement detail 1 := by
  let _ := intervals
  have hformed := wellFormed_readConnections (List.mem_cons_of_mem _ List.mem_cons_self)
  have hbacked := backed_withTables readConnections [lately]
  obtain ⟨detail, hdetail, -⟩ := clientDetail_withTables hformed
  refine ⟨detail, hdetail, (oneMeasurement_iff hbacked hformed ?_ hdetail).mpr ?_⟩
  · exact List.pairwise_singleton _ _
  · have hinside : ∀ s ∈ historyOf [lately] "10.0.0.5",
        windowFrom 24 .epoch ≤ s.startedAt.nanos ∧ s.endedAt.getD .epoch ≤ DateTime.epoch := by
      decide
    have houtside := outside_eq_zero hinside
    have hunlisted : unlisted (windowFrom 24 .epoch) .epoch (historyOf [lately] "10.0.0.5") = 0 :=
      unlisted_eq_zero _ (by decide)
    have hclamp : clamp 24 1 (24 * 365) = 24 := by decide
    rw [hclamp]
    exact (congrArg abs (congrArg₂ _ houtside hunlisted)).trans_le (by decide)

/-- A client that left before the window has a connected time of twelve hours in it, and no
availability. -/
theorem not_oneMeasurement :
    ¬ ∀ (_ : Floats) (d : Daemon) (read : String → Option DateTime) (clock : DateTime)
      (describe : Stats.StatsError → String) (samples : List (Stats.Row String Stats.Sample))
      (rows : List ClientSessionRow) (ip : String) (hours limit : UInt32) (detail : ClientDetail),
      Backed d read clock describe samples rows →
      Stats.WellFormed read [] (rows.map ClientSessionRow.session) →
      Stats.Apart d.now ((historyOf rows ip).map ClientSessionRow.session) →
      d.clientDetail ip hours limit = .ok detail →
      OneMeasurement detail (historyOf rows ip).length := by
  intro hall
  let _ := intervals
  have hformed := wellFormed_readConnections (List.mem_cons_self : longAgo ∈ _)
  have hbacked := backed_withTables readConnections [longAgo]
  obtain ⟨detail, hdetail, hhours⟩ := clientDetail_withTables hformed
  have hapart : Stats.Apart (withTables readConnections [longAgo]).now
      ((historyOf [longAgo] "10.0.0.5").map ClientSessionRow.session) := List.pairwise_singleton _ _
  have hone := hall intervals _ _ _ _ _ _ _ _ _ _ hbacked hformed hapart hdetail
  rw [oneMeasurement_iff_secs hbacked hformed hapart hdetail,
    connected_sub_onlineSecs hbacked hformed hapart hdetail, hhours] at hone
  exact absurd hone (by decide)

end Vlb.Control
