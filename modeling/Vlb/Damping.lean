import Mathlib.Algebra.Order.Ring.Nat
import Vlb.Lib.Recent
import Vlb.Selection

/-!
# The law of the failback window

With `k` switches in the flap window the failback window is to be doubled for each of them past the
threshold, up to the maximum. The tracker remembers a limited number of switches, and doubles a
limited number of times.

* `recorded`, `recent`: a tracker that was told of some switches, and how many of them are recent.
* `doublings`: how many times the tracker doubles.
* **`effectiveFailback_law_iff`**: when the failback window is the one of the law.
-/

namespace Vlb.Selection

open Time

/-- The tracker after these switches, oldest first. -/
def recorded (times : List DateTime) : FlapTracker := times.foldl FlapTracker.recordSwitch {}

/-- How many switches there were since `cutoff`. -/
def recent (times : List DateTime) (cutoff : DateTime) : ℕ := times.countP fun at_ => cutoff ≤ at_

/-- The window that `k` recent switches are to give, in nanoseconds. -/
def lawful (base max : Duration) (threshold k : ℕ) : ℕ :=
  if k ≤ threshold then base.nanos else min max.nanos (base.nanos * 2 ^ (k - threshold))

/-- How many times the tracker doubles. -/
def doublings (threshold k : ℕ) : ℕ := min (min k FlapTracker.capacity - threshold) 16

section Law

variable {times : List DateTime} {now cutoff : DateTime} {base window max : Duration}
  {threshold : UInt32}

theorem recordSwitch_eq (flap : FlapTracker) (at_ : DateTime) :
    flap.recordSwitch at_ = ⟨Recent.push FlapTracker.capacity flap.switches at_⟩ := by
  rw [FlapTracker.recordSwitch, Recent.push, List.rtake]

theorem switches_recorded (times : List DateTime) :
    (recorded times).switches = times.rtake FlapTracker.capacity := by
  have hpush : ∀ flap : FlapTracker, (times.foldl FlapTracker.recordSwitch flap).switches =
      times.foldl (Recent.push FlapTracker.capacity) flap.switches := by
    intro flap
    induction times generalizing flap with
    | nil => rfl
    | cons at_ times ih => rw [List.foldl_cons, List.foldl_cons, ih, recordSwitch_eq]
  rw [recorded, hpush, Recent.foldl_push times (Nat.zero_le _), List.nil_append]

theorem countP_recorded (hsorted : times.Pairwise (· ≤ ·)) (cutoff : DateTime) :
    (recorded times).switches.countP (fun at_ => cutoff ≤ at_) =
      min FlapTracker.capacity (recent times cutoff) := by
  rw [switches_recorded]
  apply Recent.countP_rtake
  exact hsorted.imp fun hle hpast => decide_eq_true (DateTime.le_trans (of_decide_eq_true hpast) hle)

theorem nanos_min (d e : Duration) : (min d e).nanos = min d.nanos e.nanos := by
  change (if d.nanos ≤ e.nanos then d else e).nanos = _
  split_ifs with h
  · exact (min_eq_left h).symm
  · exact (min_eq_right (Nat.le_of_not_le h)).symm

/-- Doubling several times, where what does not fit is the maximum in any case. -/
theorem nanos_checkedMul (base max : Duration) (k : UInt32) :
    (min ((base.checkedMul k).getD max) max).nanos = min (base.nanos * k.toNat) max.nanos := by
  rw [nanos_min]
  unfold Duration.checkedMul
  split_ifs with hfits
  · rfl
  · have hmax := max.inRange
    rw [Option.getD_none, min_self, min_eq_right]
    omega

theorem doublings_eq_zero {threshold k : ℕ} (h : min k FlapTracker.capacity ≤ threshold) :
    doublings threshold k = 0 := by
  rw [doublings, Nat.sub_eq_zero_of_le h, Nat.zero_min]

theorem doublings_le (threshold k : ℕ) : doublings threshold k ≤ k - threshold := by
  unfold doublings
  omega

theorem toNat_pow_doublings (threshold k : ℕ) :
    (UInt32.ofNat (2 ^ doublings threshold k)).toNat = 2 ^ doublings threshold k := by
  have hle : 2 ^ doublings threshold k ≤ 2 ^ 16 :=
    Nat.pow_le_pow_right (by decide) (Nat.min_le_right _ _)
  rw [UInt32.toNat_ofNat', Nat.mod_eq_of_lt (by omega)]

variable (base max threshold) in
theorem effectiveFailback_eq (hsorted : times.Pairwise (· ≤ ·))
    (hcutoff : now.sub window.fromStdOrZero = some cutoff) :
    ∃ d, (recorded times).effectiveFailback now base threshold window max = some d ∧
      d.nanos = min (base.nanos * 2 ^ doublings threshold.toNat (recent times cutoff)) max.nanos := by
  have hcount := countP_recorded hsorted cutoff
  have hlt : min FlapTracker.capacity (recent times cutoff) < 2 ^ 32 :=
    lt_of_le_of_lt (Nat.min_le_left _ _) (by decide)
  have hrecent : (recorded times).switchesInWindow now window =
      some (UInt32.ofNat (min FlapTracker.capacity (recent times cutoff))) := by
    rw [FlapTracker.switchesInWindow, hcutoff, Option.map_some, hcount]
  have htoNat : (UInt32.ofNat (min FlapTracker.capacity (recent times cutoff))).toNat =
      min (recent times cutoff) FlapTracker.capacity := by
    rw [UInt32.toNat_ofNat', Nat.mod_eq_of_lt hlt, min_comm]
  rw [FlapTracker.effectiveFailback, hrecent, Option.map_some]
  refine ⟨_, rfl, ?_⟩
  split_ifs with hfew
  · rw [UInt32.le_iff_toNat_le, htoNat] at hfew
    rw [doublings_eq_zero hfew, Nat.pow_zero, Nat.mul_one, nanos_min]
  · dsimp only
    rw [nanos_checkedMul, htoNat]
    exact congrArg (fun n => min (base.nanos * n) max.nanos) (toNat_pow_doublings _ _)

/-- Doubling fewer times than the law asks makes no difference only where the maximum is reached, or
there is nothing to double. -/
theorem min_mul_pow_eq_iff {b m e n : ℕ} (hle : e ≤ n) :
    min (b * 2 ^ e) m = min m (b * 2 ^ n) ↔ e = n ∨ b = 0 ∨ m ≤ b * 2 ^ e := by
  have hmono : b * 2 ^ e ≤ b * 2 ^ n :=
    Nat.mul_le_mul_left b (Nat.pow_le_pow_right (by decide) hle)
  constructor
  · intro heq
    by_cases hne : e = n
    · exact Or.inl hne
    by_cases hb : b = 0
    · exact Or.inr (Or.inl hb)
    have hlt : b * 2 ^ e < b * 2 ^ n :=
      Nat.mul_lt_mul_of_pos_left (Nat.pow_lt_pow_right (by decide) (by omega)) (by omega)
    omega
  · rintro (rfl | rfl | hmax)
    · rw [min_comm]
    · rw [Nat.zero_mul, Nat.zero_mul, min_comm]
    · rw [min_eq_right hmax, min_eq_left (hmax.trans hmono)]

/-- **When the window is the one of the law.** Where the doublings are not cut short, or there is
nothing to double, or the maximum is reached without the others. -/
theorem effectiveFailback_law_iff (hsorted : times.Pairwise (· ≤ ·)) (hbase : base.nanos ≤ max.nanos)
    (hwindow : window.nanos ≤ TimeDelta.max) (hcutoff : now.sub window.nanos = some cutoff) :
    (((recorded times).effectiveFailback now base threshold window max).map Duration.nanos =
        some (lawful base max threshold.toNat (recent times cutoff))) ↔
      doublings threshold.toNat (recent times cutoff) = recent times cutoff - threshold.toNat ∨
        base.nanos = 0 ∨
        max.nanos ≤ base.nanos * 2 ^ doublings threshold.toNat (recent times cutoff) := by
  rw [← Duration.fromStdOrZero_eq hwindow] at hcutoff
  obtain ⟨d, hd, hnanos⟩ :=
    effectiveFailback_eq base max threshold hsorted hcutoff
  have hlaw : lawful base max threshold.toNat (recent times cutoff) =
      min max.nanos (base.nanos * 2 ^ (recent times cutoff - threshold.toNat)) := by
    unfold lawful
    split_ifs with hfew
    · rw [Nat.sub_eq_zero_of_le hfew, Nat.pow_zero, Nat.mul_one, min_eq_right hbase]
    · rfl
  rw [hd, Option.map_some, Option.some_inj, hnanos, hlaw]
  exact min_mul_pow_eq_iff (doublings_le _ _)

end Law

/-- Five switches, with the default settings: two past the threshold. -/
theorem effectiveFailback_law_five :
    (((recorded (List.replicate 5 .epoch)).effectiveFailback .epoch (.fromSecs 30) 3 (.fromSecs 600)
        (.fromSecs 900)).map Duration.nanos =
      some (lawful (.fromSecs 30) (.fromSecs 900) 3
        (recent (List.replicate 5 .epoch) ⟨-600 * nanosPerSec, by decide⟩))) :=
  (effectiveFailback_law_iff (by decide) (by decide) (by decide)
    (by decide)).mpr (Or.inl (by decide))

/-- From a second to a day, with eighteen switches in the last hour: the tracker doubles sixteen
times, and stays below the day. -/
theorem effectiveFailback_not_lawful :
    ¬ ∀ (times : List DateTime) (now cutoff : DateTime) (base window max : Duration) (threshold : UInt32),
      times.Pairwise (· ≤ ·) → (∀ at_ ∈ times, at_ ≤ now) → 1 ≤ threshold →
        base.nanos ≤ max.nanos → window.nanos ≤ TimeDelta.max → now.sub window.nanos = some cutoff →
          ((recorded times).effectiveFailback now base threshold window max).map Duration.nanos =
            some (lawful base max threshold.toNat (recent times cutoff)) := by
  intro hall
  have hlaw := hall (List.replicate 18 .epoch) .epoch ⟨-3600 * nanosPerSec, by decide⟩ (.fromSecs 1)
    (.fromSecs 3600) (.fromSecs 86400) 1 (by decide) (by decide) (by decide) (by decide) (by decide)
    (by decide)
  revert hlaw
  decide +kernel


end Vlb.Selection
