import Vlb.Balancer.Clients
import Vlb.Balancer.FlapHistory

/-!
# Settings and the clock

Settings in seconds and hours are turned into chrono's durations, and windows are taken off the
current time. Both panic where chrono has no room for the result. No check bounds these settings.

* `Settings`: the configuration with the sections of the loops that count time.
* `pruneBefore`: the moment before which a table is pruned.
* `Safe`: nothing that the daemon computes of these settings at a moment panics.
* **`safe_iff`**: the settings with which nothing panics between the years 2000 and 2200.
-/

namespace Vlb.ClockArithmetic

open Balancer ClientsLoop Selection Stats Time

/-! ## The settings -/

/-- The section `traffic` of the configuration. -/
structure TrafficConfig where
  enabled : Bool := true
  intervalSecs : UInt64 := 2
  retentionHours : UInt32 := 72

/-- The section `system` of the configuration. -/
structure SystemConfig where
  enabled : Bool := true
  intervalSecs : UInt64 := 2
  retentionHours : UInt32 := 72

/-- All that is made a duration of, or taken off a time. -/
structure Settings extends Config where
  /-- `health.retention_hours`. -/
  healthRetentionHours : UInt32 := 72
  traffic : TrafficConfig := {}
  system : SystemConfig := {}
  clients : ClientsConfig := .default
  /-- `clients.enabled`. -/
  clientsEnabled : Option Bool := none
  /-- `firewall.manage`. -/
  firewallManage : Bool := true

/-- Left unset, this follows the firewall. -/
def Settings.clientsOn (cfg : Settings) : Bool := cfg.clientsEnabled.getD cfg.firewallManage

/-- The checks, in the source's order. -/
def Settings.validate (cfg : Settings) : Except String Unit := do
  validateProviders cfg.providers
  cfg.health.validate
  cfg.routing.validate (maxPriority cfg.providers)
  bailIf (cfg.traffic.enabled ∧ cfg.traffic.intervalSecs = 0)
    "traffic.interval_secs must be >= 1 when traffic.enabled = true"
  bailIf (cfg.system.enabled ∧ cfg.system.intervalSecs = 0)
    "system.interval_secs must be >= 1 when system.enabled = true"
  if cfg.clientsOn then cfg.clients.validate
  cfg.failover.validate

/-! ## What is computed of them -/

/-- chrono's `Duration::hours`, which panics out of its range. -/
def hours (h : ℤ) : Option ℤ := TimeDelta.seconds (h * 3600)

/-- The moment before which a table is pruned; none if everything is kept. The outer `none` is a
panic. -/
def pruneBefore (retentionHours : UInt32) (now : DateTime) : Option (Option DateTime) :=
  if retentionHours = 0 then some none
  else (hours retentionHours.toNat).bind fun window => (now.sub window).map some

/-- What the daemon computes of its settings at this moment does not panic. -/
structure Safe (cfg : Settings) (now : DateTime) : Prop where
  restore : ∀ toRfc3339 parse rows,
    (restoreFlap toRfc3339 parse rows now cfg.failover.flapWindowSecs).isSome
  failback : ∀ flap : FlapTracker, (flap.effectiveFailback now
    (.fromSecs cfg.failover.failbackStableSecs) cfg.failover.flapThreshold
    (.fromSecs cfg.failover.flapWindowSecs) (.fromSecs cfg.failover.maxFailbackStableSecs)).isSome
  clientsLoop : cfg.clientsOn = true → cfg.clients.timing.isSome
  pruneHealth : (pruneBefore cfg.healthRetentionHours now).isSome
  pruneTraffic : cfg.traffic.enabled = true → (pruneBefore cfg.traffic.retentionHours now).isSome
  pruneSystem : cfg.system.enabled = true → (pruneBefore cfg.system.retentionHours now).isSome
  pruneClients : cfg.clientsOn = true → (pruneBefore cfg.clients.retentionHours now).isSome

/-! ## The years -/

/-- The first instant of the year 2000. -/
def yearTwoThousand : DateTime := ⟨946684800 * nanosPerSec, by decide⟩

/-- The last instant of the year 2200. -/
def endOfYearTwentyTwoHundred : DateTime := ⟨7289654400 * nanosPerSec - 1, by decide⟩

/-- The time is in one of the years 2000 to 2200. -/
def Foreseen (now : DateTime) : Prop := yearTwoThousand ≤ now ∧ now ≤ endOfYearTwentyTwoHundred

instance (now : DateTime) : Decidable (Foreseen now) := inferInstanceAs (Decidable (_ ∧ _))

/-! ## The limits -/

/-- The largest window that can be taken off any of these times, in seconds. -/
def longestWindow : ℕ := 8334601228800 + 946684800

/-- The largest window that can be added to any of these times, in seconds. -/
def longestWrapped : ℕ := 8210266876800 - 7289654400

/-- The largest duration in whole seconds. -/
def longestDuration : ℕ := (2 ^ 63 - 1) / 1000

/-- Taken for a signed number of seconds, this is a duration. -/
def Convertible (secs : UInt64) : Prop :=
  secs.toNat ≤ longestDuration ∨ 2 ^ 64 - longestDuration ≤ secs.toNat

/-- Settings that chrono has room for. -/
structure Representable (cfg : Settings) : Prop where
  flapWindow : cfg.failover.flapWindowSecs.toNat ≤ longestWindow ∨
    2 ^ 64 - longestWrapped ≤ cfg.failover.flapWindowSecs.toNat
  offlineAfter : cfg.clientsOn = true → Convertible cfg.clients.offlineAfterSecs
  persistEvery : cfg.clientsOn = true → Convertible cfg.clients.persistEverySecs
  healthRetention : cfg.healthRetentionHours.toNat * 3600 ≤ longestWindow
  trafficRetention : cfg.traffic.enabled = true → cfg.traffic.retentionHours.toNat * 3600 ≤ longestWindow
  systemRetention : cfg.system.enabled = true → cfg.system.retentionHours.toNat * 3600 ≤ longestWindow
  clientsRetention : cfg.clientsOn = true → cfg.clients.retentionHours.toNat * 3600 ≤ longestWindow

/-! ## Each conversion -/

section Conversions

variable {cfg : Settings} {now : DateTime} {secs : UInt64} {δ : ℤ}

theorem sub_isSome_iff : (now.sub δ).isSome = true ↔ DateTime.InCalendar (now.nanos - δ) := by
  unfold DateTime.sub
  split_ifs with h <;> simp [h]

theorem seconds_isSome_iff {s : ℤ} :
    (TimeDelta.seconds s).isSome = true ↔ s.natAbs ≤ longestDuration := by
  unfold TimeDelta.seconds
  have hiff : s.natAbs * nanosPerSec ≤ TimeDelta.max ↔ s.natAbs ≤ longestDuration := by
    simp only [nanosPerSec, TimeDelta.max, longestDuration]
    omega
  rw [← hiff]
  split_ifs with h <;> simp [h]

theorem asI64_eq (n : UInt64) :
    asI64 n = if n.toNat < 2 ^ 63 then (n.toNat : ℤ) else n.toNat - 2 ^ 64 := by
  have hlt := n.toNat_lt
  rw [asI64, BitVec.toInt_eq_toNat_cond, UInt64.toNat_toBitVec]
  split_ifs <;> omega

theorem seconds_asI64_isSome_iff :
    (TimeDelta.seconds (asI64 secs)).isSome = true ↔ Convertible secs := by
  have hlt := secs.toNat_lt
  rw [seconds_isSome_iff, asI64_eq, Convertible, longestDuration]
  split_ifs <;> omega

theorem convertible_max_one (secs : UInt64) : Convertible (max secs 1) ↔ Convertible secs := by
  have hone : (1 : UInt64).toNat = 1 := rfl
  have hmax : (max secs 1).toNat = max secs.toNat 1 := by
    change (if secs ≤ 1 then 1 else secs).toNat = _
    split_ifs with h <;> rw [UInt64.le_iff_toNat_le, hone] at h <;> omega
  rw [Convertible, Convertible, hmax, longestDuration]
  omega

theorem timing_isSome_iff {c : ClientsConfig} : c.timing.isSome = true ↔
    Convertible c.offlineAfterSecs ∧ Convertible c.persistEverySecs := by
  rw [← seconds_asI64_isSome_iff, ← convertible_max_one c.persistEverySecs,
    ← seconds_asI64_isSome_iff, ClientsConfig.timing]
  cases TimeDelta.seconds (asI64 c.offlineAfterSecs) <;>
    cases TimeDelta.seconds (asI64 (max c.persistEverySecs 1)) <;> simp

theorem hours_eq (h : UInt32) : hours h.toNat = some ((h.toNat : ℤ) * 3600 * nanosPerSec) := by
  have hlt := h.toNat_lt
  have hsome : (hours h.toNat).isSome = true := by
    rw [hours, seconds_isSome_iff, longestDuration]
    omega
  unfold hours TimeDelta.seconds at hsome ⊢
  split_ifs at hsome ⊢ with hfits
  · rfl
  · cases hsome

theorem pruneBefore_isSome_iff {h : UInt32} : (pruneBefore h now).isSome = true ↔
    h.toNat = 0 ∨ DateTime.InCalendar (now.nanos - h.toNat * 3600 * nanosPerSec) := by
  have hzero : h = 0 ↔ h.toNat = 0 := UInt32.toNat_inj.symm
  rw [pruneBefore, hours_eq, ← hzero]
  split_ifs with h0
  · simp [h0]
  · rw [Option.bind_some, Option.isSome_map, sub_isSome_iff, or_iff_right h0]

theorem restoreFlap_isSome_iff {toRfc3339 : DateTime → String} {parse : String → Option DateTime}
    {rows : List FailoverRow} : (restoreFlap toRfc3339 parse rows now secs).isSome = true ↔
      (asI64 secs).natAbs ≤ longestDuration ∧
        DateTime.InCalendar (now.nanos - asI64 secs * nanosPerSec) := by
  have hsigned : secs.toBitVec.toInt = asI64 secs := rfl
  rw [restoreFlap, hsigned, ← seconds_isSome_iff, ← sub_isSome_iff]
  unfold TimeDelta.seconds
  split_ifs with hfits
  · cases hsub : now.sub (asI64 secs * nanosPerSec) <;> simp [hsub]
  · simp

theorem effectiveFailback_isSome_iff {flap : FlapTracker} {base window max : Duration}
    {threshold : UInt32} : (flap.effectiveFailback now base threshold window max).isSome = true ↔
      DateTime.InCalendar (now.nanos - window.fromStdOrZero) := by
  rw [FlapTracker.effectiveFailback, FlapTracker.switchesInWindow, Option.isSome_map,
    Option.isSome_map, sub_isSome_iff]

end Conversions

/-! ## All of them -/

section Years

variable {cfg : Settings} {secs : UInt64} {w : ℤ}

/-- A window can be taken off every one of these times if it can be taken off the first and the
last. -/
theorem inCalendar_foreseen_iff :
    (∀ now, Foreseen now → DateTime.InCalendar (now.nanos - w * nanosPerSec)) ↔
      -(longestWrapped : ℤ) ≤ w ∧ w ≤ longestWindow := by
  have hbounds : ∀ n : ℤ, yearTwoThousand.nanos ≤ n → n ≤ endOfYearTwentyTwoHundred.nanos →
      -(longestWrapped : ℤ) ≤ w → w ≤ longestWindow → DateTime.InCalendar (n - w * nanosPerSec) := by
    intro n hfrom hto hlow hhigh
    simp only [DateTime.InCalendar, yearTwoThousand, endOfYearTwentyTwoHundred, nanosPerSec,
      longestWrapped, longestWindow] at *
    omega
  constructor
  · intro hall
    have hfirst := hall yearTwoThousand (by decide)
    have hlast := hall endOfYearTwentyTwoHundred (by decide)
    simp only [DateTime.InCalendar, yearTwoThousand, endOfYearTwentyTwoHundred, nanosPerSec,
      longestWrapped, longestWindow] at *
    omega
  · rintro ⟨hlow, hhigh⟩ now ⟨hfrom, hto⟩
    exact hbounds now.nanos hfrom hto hlow hhigh

theorem restore_safe_iff : (∀ now, Foreseen now → ∀ toRfc3339 parse rows,
    (restoreFlap toRfc3339 parse rows now secs).isSome = true) ↔
      secs.toNat ≤ longestWindow ∨ 2 ^ 64 - longestWrapped ≤ secs.toNat := by
  simp only [restoreFlap_isSome_iff]
  have hlt := secs.toNat_lt
  have hall := inCalendar_foreseen_iff (w := asI64 secs)
  rw [asI64_eq] at hall ⊢
  simp only [longestDuration, longestWindow, longestWrapped] at *
  constructor
  · intro hsafe
    have hcalendar := hall.mp fun now hnow =>
      (hsafe now hnow (fun _ => "") (fun _ => none) []).2
    split_ifs at hcalendar <;> omega
  · intro hbound now hnow _ _ _
    refine ⟨by split_ifs <;> omega, hall.mpr ?_ now hnow⟩
    split_ifs <;> omega

theorem failback_safe {now : DateTime} (hnow : Foreseen now) {flap : FlapTracker}
    {base max : Duration} {threshold : UInt32}
    (hsecs : secs.toNat ≤ longestWindow ∨ 2 ^ 64 - longestWrapped ≤ secs.toNat) :
    (flap.effectiveFailback now base threshold (.fromSecs secs) max).isSome = true := by
  rw [effectiveFailback_isSome_iff, Duration.fromStdOrZero, Duration.fromStd]
  split_ifs with hfits
  · have hle : (secs.toNat : ℤ) ≤ longestWindow := by
      simp only [Duration.fromSecs, TimeDelta.max, nanosPerSec, longestWrapped, longestWindow] at *
      omega
    have hcalendar := inCalendar_foreseen_iff.mpr ⟨by omega, hle⟩ now hnow
    simpa [Duration.fromSecs] using hcalendar
  · rw [Option.getD_none, Int.sub_zero]
    exact now.inCalendar

theorem prune_safe_iff {h : UInt32} :
    (∀ now, Foreseen now → (pruneBefore h now).isSome = true) ↔ h.toNat * 3600 ≤ longestWindow := by
  simp only [pruneBefore_isSome_iff]
  have hall := inCalendar_foreseen_iff (w := (h.toNat : ℤ) * 3600)
  constructor
  · intro hsafe
    by_cases hzero : h.toNat = 0
    · rw [hzero, Nat.zero_mul]
      exact Nat.zero_le _
    · have hcalendar := hall.mp fun now hnow => (hsafe now hnow).resolve_left hzero
      omega
  · intro hle now hnow
    exact Or.inr (hall.mpr (by omega) now hnow)

/-- **Which settings never crash the clock arithmetic.** Nothing panics between the years 2000 and
2200, exactly if chrono has room for each of them. -/
theorem safe_iff : (∀ now, Foreseen now → Safe cfg now) ↔ Representable cfg := by
  constructor
  · intro hsafe
    refine ⟨restore_safe_iff.mp fun now hnow => (hsafe now hnow).restore, fun hon => ?_, fun hon => ?_,
      prune_safe_iff.mp fun now hnow => (hsafe now hnow).pruneHealth,
      fun hon => prune_safe_iff.mp fun now hnow => (hsafe now hnow).pruneTraffic hon,
      fun hon => prune_safe_iff.mp fun now hnow => (hsafe now hnow).pruneSystem hon,
      fun hon => prune_safe_iff.mp fun now hnow => (hsafe now hnow).pruneClients hon⟩
    · exact (timing_isSome_iff.mp ((hsafe yearTwoThousand (by decide)).clientsLoop hon)).1
    · exact (timing_isSome_iff.mp ((hsafe yearTwoThousand (by decide)).clientsLoop hon)).2
  · intro hroom now hnow
    exact {
      restore := restore_safe_iff.mpr hroom.flapWindow now hnow
      failback := fun _ => failback_safe hnow hroom.flapWindow
      clientsLoop := fun hon => timing_isSome_iff.mpr ⟨hroom.offlineAfter hon, hroom.persistEvery hon⟩
      pruneHealth := prune_safe_iff.mpr hroom.healthRetention now hnow
      pruneTraffic := fun hon => prune_safe_iff.mpr (hroom.trafficRetention hon) now hnow
      pruneSystem := fun hon => prune_safe_iff.mpr (hroom.systemRetention hon) now hnow
      pruneClients := fun hon => prune_safe_iff.mpr (hroom.clientsRetention hon) now hnow }

/-- Two uplinks, and a flap window that means for ever. -/
def endless : Settings :=
  { Config.twoUplinks with failover := { flapWindowSecs := 9223372036854775807 } }

/-- The daemon does not start with these settings, which are accepted. -/
theorem endless_not_safe : ¬ ∀ cfg : Settings, cfg.validate = .ok () →
    ∀ now, Foreseen now → Safe cfg now := by
  intro hall
  have hsafe := hall endless (by decide +kernel) yearTwoThousand (by decide)
  have hrestored := hsafe.restore (fun _ => "") (fun _ => none) []
  rw [restoreFlap_isSome_iff] at hrestored
  exact absurd hrestored.1 (by decide)

end Years

end Vlb.ClockArithmetic
