import Mathlib.Algebra.Ring.Nat
import Mathlib.Order.Lattice
import Mathlib.Tactic.Common

/-!
# Durations and instants

The clocks of a Rust program: `std::time::Instant` with its `Duration`, which is never negative, and
chrono's `DateTime<Utc>` with its signed differences. All of them count nanoseconds here.

* `Duration.fromStd`: the conversion between the two, which fails past `i64::MAX` milliseconds.
* `DateTime.sub`: moving an instant back; chrono panics outside its calendar, which is `none`.
* `fromStdOrZero_le_iff`: below the limit the conversion loses nothing.
-/

namespace Time

/-- Nanoseconds in a second. -/
def nanosPerSec : ℕ := 1000000000

/-- `std::time::Duration`: seconds in 64 bits, and nanoseconds below one second. -/
structure Duration where
  nanos : ℕ
  inRange : nanos < 2 ^ 64 * nanosPerSec
  deriving DecidableEq

/-- The largest `chrono::TimeDelta`: `i64::MAX` milliseconds. A difference of two instants is an
integer count of nanoseconds. -/
def TimeDelta.max : ℕ := (2 ^ 63 - 1) * 1000000

namespace Duration

instance : LE Duration := ⟨fun d e => d.nanos ≤ e.nanos⟩

instance (d e : Duration) : Decidable (d ≤ e) := inferInstanceAs (Decidable (d.nanos ≤ e.nanos))

instance : Min Duration := ⟨fun d e => if d.nanos ≤ e.nanos then d else e⟩

theorem secs_inRange (s : UInt64) : s.toNat * nanosPerSec < 2 ^ 64 * nanosPerSec :=
  Nat.mul_lt_mul_of_pos_right s.toNat_lt (by decide)

/-- `Duration::from_secs`. -/
def fromSecs (s : UInt64) : Duration where
  nanos := s.toNat * nanosPerSec
  inRange := secs_inRange s

/-- `Duration::checked_mul`. -/
def checkedMul (d : Duration) (k : UInt32) : Option Duration :=
  if h : d.nanos * k.toNat < 2 ^ 64 * nanosPerSec then some ⟨d.nanos * k.toNat, h⟩ else none

/-- `TimeDelta::from_std`. -/
def fromStd (d : Duration) : Option ℤ :=
  if d.nanos ≤ TimeDelta.max then some d.nanos else none

/-- `TimeDelta::from_std(d).unwrap_or(TimeDelta::zero())`. -/
def fromStdOrZero (d : Duration) : ℤ := d.fromStd.getD 0

theorem fromStdOrZero_eq {d : Duration} (h : d.nanos ≤ TimeDelta.max) :
    d.fromStdOrZero = d.nanos := by
  simp [fromStdOrZero, fromStd, h]

end Duration

/-- `std::time::Instant`, from some start of the clock on. -/
structure Instant where
  nanos : ℕ
  inRange : nanos < 2 ^ 64 * nanosPerSec
  deriving DecidableEq

namespace Instant

instance : LE Instant := ⟨fun t u => t.nanos ≤ u.nanos⟩

instance (t u : Instant) : Decidable (t ≤ u) := inferInstanceAs (Decidable (t.nanos ≤ u.nanos))

/-- Where that clock starts. -/
def start : Instant where
  nanos := 0
  inRange := by decide

/-- Zero where the other instant is the later one. -/
def saturatingDurationSince (t earlier : Instant) : Duration where
  nanos := t.nanos - earlier.nanos
  inRange := Nat.lt_of_le_of_lt (Nat.sub_le _ _) t.inRange

end Instant

/-- chrono's calendar, as nanoseconds since the epoch. -/
def DateTime.InCalendar (n : ℤ) : Prop :=
  -8334601228800 * nanosPerSec ≤ n ∧ n < 8210266876800 * nanosPerSec

instance (n : ℤ) : Decidable (DateTime.InCalendar n) := inferInstanceAs (Decidable (_ ∧ _))

/-- `chrono::DateTime<Utc>`. -/
structure DateTime where
  nanos : ℤ
  inCalendar : DateTime.InCalendar nanos
  deriving DecidableEq

namespace DateTime

instance : LE DateTime := ⟨fun t u => t.nanos ≤ u.nanos⟩

instance (t u : DateTime) : Decidable (t ≤ u) := inferInstanceAs (Decidable (t.nanos ≤ u.nanos))

theorem le_trans {t u v : DateTime} (htu : t ≤ u) (huv : u ≤ v) : t ≤ v := Int.le_trans htu huv

theorem le_total (t u : DateTime) : t ≤ u ∨ u ≤ t := Int.le_total t.nanos u.nanos

theorem le_antisymm {t u : DateTime} (htu : t ≤ u) (hut : u ≤ t) : t = u := by
  cases t
  cases u
  congr
  exact Int.le_antisymm htu hut

/-- The epoch itself. -/
def epoch : DateTime := ⟨0, by decide⟩

/-- `signed_duration_since`; the calendar is short enough for every difference to be a
`TimeDelta`. -/
def signedDurationSince (t since : DateTime) : ℤ := t.nanos - since.nanos

/-- `t - delta`, which panics outside the calendar. -/
def sub (t : DateTime) (delta : ℤ) : Option DateTime :=
  if h : InCalendar (t.nanos - delta) then some ⟨t.nanos - delta, h⟩ else none

theorem sub_eq_some_iff {t u : DateTime} {delta : ℤ} :
    t.sub delta = some u ↔ u.nanos = t.nanos - delta := by
  unfold sub
  constructor
  · intro h
    split_ifs at h
    cases h
    rfl
  · intro h
    have hin : InCalendar (t.nanos - delta) := h ▸ u.inCalendar
    rw [dif_pos hin, Option.some_inj]
    cases u
    congr
    exact h.symm

theorem signedDurationSince_le_max (t since : DateTime) :
    (t.signedDurationSince since).natAbs ≤ TimeDelta.max := by
  have ht := t.inCalendar
  have hs := since.inCalendar
  simp only [InCalendar, nanosPerSec, signedDurationSince, TimeDelta.max] at *
  omega

end DateTime

/-- `TimeDelta::num_seconds`, which rounds towards zero. -/
def TimeDelta.numSeconds (δ : ℤ) : ℤ := δ.tdiv nanosPerSec

/-- `TimeDelta::num_milliseconds`. -/
def TimeDelta.numMilliseconds (δ : ℤ) : ℤ := δ.tdiv 1000000

/-- `TimeDelta::seconds`, which panics out of its range. -/
def TimeDelta.seconds (secs : ℤ) : Option ℤ :=
  if secs.natAbs * nanosPerSec ≤ TimeDelta.max then some (secs * nanosPerSec) else none

/-- Below the limit, comparing with the converted duration is comparing the nanoseconds. -/
theorem fromStdOrZero_le_iff {d : Duration} (h : d.nanos ≤ TimeDelta.max) (t since : DateTime) :
    d.fromStdOrZero ≤ t.signedDurationSince since ↔ since.nanos + d.nanos ≤ t.nanos := by
  rw [Duration.fromStdOrZero_eq h, DateTime.signedDurationSince]
  omega

end Time
