import Mathlib.Algebra.Ring.Int.Defs
import Mathlib.Tactic.IntervalCases

/-!
# The Gregorian calendar

Days are numbered through, from the first of March of the year 0 on: then the leap day is the last
of its year, and centuries, years and months all begin at a quotient.

* `Periods`: periods that are numbered through and begin at the quotients `(days * m + shift) / count`.
* `Periods.compare_eq`: the period decides, and then the place in it.
* `Date.ofDay`: the date of a day, which is valid.
* `monthStart_add_offset`: the days before its month and its place in it make the number of a day.
* `Date.compare_ofDay`: days are in the order of year, month and day of the month.
-/

namespace Calendar

/-! ## Periods -/

/-- `count` periods in a row have `days` days, and are as even as can be. -/
structure Periods where
  days : ℤ
  count : ℤ
  shift : ℤ
  days_pos : 0 < days
  count_pos : 0 < count

namespace Periods

variable (p : Periods) {m d d' : ℤ}

/-- The first day of a period. -/
def start (m : ℤ) : ℤ := (p.days * m + p.shift) / p.count

/-- The period of a day. -/
def index (d : ℤ) : ℤ := (p.count * d + (p.count - 1 - p.shift)) / p.days

/-- The place of a day in its period. -/
def offset (d : ℤ) : ℤ := d - p.start (p.index d)

theorem start_le_iff : p.start m ≤ d ↔ m ≤ p.index d := by
  have hlast : p.days * m + p.shift < d * p.count + p.count ↔
      m * p.days ≤ p.count * d + (p.count - 1 - p.shift) := by
    rw [Int.mul_comm d p.count, Int.mul_comm m p.days]
    omega
  rw [start, index, Int.ediv_le_iff_le_mul p.count_pos, Int.le_ediv_iff_mul_le p.days_pos, hlast]

theorem lt_start_iff : d < p.start m ↔ p.index d < m := by
  rw [← Int.not_le, p.start_le_iff, Int.not_le]

theorem offset_nonneg : 0 ≤ p.offset d := Int.sub_nonneg_of_le (p.start_le_iff.mpr (Int.le_refl _))

theorem start_add_offset : p.start (p.index d) + p.offset d = d := by
  rw [offset]
  omega

theorem lt_start_succ : d < p.start (p.index d + 1) := p.lt_start_iff.mpr (Int.lt_succ _)

/-- **The period decides, and then the place in it.** -/
theorem compare_eq : compare d d' =
    (compare (p.index d) (p.index d')).then (compare (p.offset d) (p.offset d')) := by
  rcases Int.lt_trichotomy (p.index d) (p.index d') with h | h | h
  · have hlt : d < d' :=
      Int.lt_of_lt_of_le (p.lt_start_iff.mpr h) (p.start_le_iff.mpr (Int.le_refl _))
    rw [Int.compare_eq_lt.mpr hlt, Int.compare_eq_lt.mpr h]
    rfl
  · rw [Int.compare_eq_eq.mpr h, Ordering.then, offset, offset, h, Int.compare_eq_ite_lt,
      Int.compare_eq_ite_lt]
    simp only [Int.sub_lt_sub_right_iff]
  · have hlt : d' < d :=
      Int.lt_of_lt_of_le (p.lt_start_iff.mpr h) (p.start_le_iff.mpr (Int.le_refl _))
    rw [Int.compare_eq_gt.mpr hlt, Int.compare_eq_gt.mpr h]
    rfl

end Periods

/-- A century has 36524 days, and every fourth one has one more. -/
def centuries : Periods := ⟨146097, 4, 0, by decide, by decide⟩

/-- A year of a century has 365 days, and every fourth one has one more. -/
def years : Periods := ⟨1461, 4, 0, by decide, by decide⟩

/-- The months of a year from March on: five in a row have 153 days. -/
def months : Periods := ⟨153, 5, 2, by decide, by decide⟩

theorem centuries_start (c : ℤ) : centuries.start c = 36524 * c + c / 4 := by
  show (146097 * c + 0) / 4 = _
  omega

theorem years_start (y : ℤ) : years.start y = 365 * y + y / 4 := by
  show (1461 * y + 0) / 4 = _
  omega

theorem months_start (m : ℤ) : months.start m = (153 * m + 2) / 5 := rfl

/-! ## Dates -/

/-- The Gregorian rule. -/
def isLeap (year : ℤ) : Bool := year % 4 = 0 ∧ (year % 100 = 0 → year % 400 = 0)

/-- In days. -/
def monthLength (year : ℤ) (month : ℕ) : ℕ :=
  match month with
  | 2 => if isLeap year then 29 else 28
  | 4 | 6 | 9 | 11 => 30
  | _ => 31

theorem monthLength_le (year : ℤ) (month : ℕ) : monthLength year month ≤ 31 := by
  unfold monthLength
  split
  · split_ifs <;> decide
  all_goals decide

/-! ## The first day of a year and of a month -/

/-- The first of March of a year. -/
def yearStart (year : ℤ) : ℤ := centuries.start (year / 100) + years.start (year % 100)

theorem isLeap_century (c : ℤ) : isLeap (100 * c) = decide (c % 4 = 0) := by
  refine decide_eq_decide.mpr ⟨fun h => ?_, fun h => ?_⟩
  · have := h.2 (by omega)
    omega
  · omega

theorem isLeap_year {c y : ℤ} (hpos : 0 < y) (hlt : y < 100) :
    isLeap (100 * c + y) = decide (y % 4 = 0) := by
  refine decide_eq_decide.mpr ⟨fun h => ?_, fun h => ⟨?_, fun hcentury => ?_⟩⟩
  · have := h.1
    omega
  · omega
  · omega

theorem yearStart_succ (year : ℤ) :
    yearStart (year + 1) = yearStart year + if isLeap (year + 1) then 366 else 365 := by
  have hsplit := Int.mul_ediv_add_emod year 100
  have hpos := Int.emod_nonneg year (by decide : (100 : ℤ) ≠ 0)
  have hlt := Int.emod_lt_of_pos year (by decide : (0 : ℤ) < 100)
  rw [yearStart, yearStart, centuries_start, centuries_start, years_start, years_start]
  by_cases hlast : year % 100 = 99
  · -- the year ends in the first one of a century
    have hdiv : (year + 1) / 100 = year / 100 + 1 := by omega
    have hmod : (year + 1) % 100 = 0 := by omega
    have hyear : year + 1 = 100 * (year / 100 + 1) := by omega
    rw [hdiv, hmod, hlast, hyear, isLeap_century]
    generalize year / 100 = c
    by_cases h : (c + 1) % 4 = 0
    · rw [decide_eq_true h, if_pos rfl]
      omega
    · rw [decide_eq_false h, if_neg Bool.false_ne_true]
      omega
  · have hdiv : (year + 1) / 100 = year / 100 := by omega
    have hmod : (year + 1) % 100 = year % 100 + 1 := by omega
    have hyear : year + 1 = 100 * (year / 100) + (year % 100 + 1) := by omega
    rw [hdiv, hmod, hyear, isLeap_year (by omega) (by omega)]
    generalize year % 100 = y at *
    by_cases h : (y + 1) % 4 = 0
    · rw [decide_eq_true h, if_pos rfl]
      omega
    · rw [decide_eq_false h, if_neg Bool.false_ne_true]
      omega

/-- The first day of a month. The months are numbered through, from January of the year 0 on. -/
def monthStart (m : ℤ) : ℤ := yearStart ((m - 2) / 12) + months.start ((m - 2) % 12)

/-- **Each month begins where the one before it ends.** -/
theorem monthStart_succ (m : ℤ) :
    monthStart (m + 1) = monthStart m + monthLength (m / 12) ((m % 12).toNat + 1) := by
  obtain ⟨k, rfl⟩ : ∃ k, m = k + 2 := ⟨m - 2, by omega⟩
  have hpos := Int.emod_nonneg k (by decide : (12 : ℤ) ≠ 0)
  have hlt := Int.emod_lt_of_pos k (by decide : (0 : ℤ) < 12)
  have hsplit := Int.mul_ediv_add_emod k 12
  have hprev : k + 2 - 2 = k := by omega
  have hnext : k + 2 + 1 - 2 = k + 1 := by omega
  rw [monthStart, monthStart, hprev, hnext]
  generalize k / 12 = year at *
  generalize k % 12 = month at *
  by_cases hfeb : month = 11
  · subst hfeb
    have hyear : (k + 1) / 12 = year + 1 := by omega
    have hmonth : (k + 1) % 12 = 0 := by omega
    have hcalendar : (k + 2) / 12 = year + 1 := by omega
    have hnumber : ((k + 2) % 12).toNat + 1 = 2 := by omega
    rw [hyear, hmonth, hcalendar, hnumber, yearStart_succ, monthLength]
    simp only [months_start]
    split_ifs <;> omega
  · have hyear : (k + 1) / 12 = year := by omega
    have hmonth : (k + 1) % 12 = month + 1 := by omega
    have hnumber : ((k + 2) % 12).toNat = ((month + 2) % 12).toNat := by omega
    rw [hyear, hmonth, hnumber, Int.add_assoc]
    congr 1
    interval_cases month
    all_goals first | rfl | contradiction

/-! ## The date of a day -/

/-- The year of a day, from March on. -/
def marchYear (d : ℤ) : ℤ := 100 * centuries.index d + years.index (centuries.offset d)

/-- The place of a day in that year. -/
def yearOffset (d : ℤ) : ℤ := years.offset (centuries.offset d)

/-- The number of the month of a day. -/
def monthNumber (d : ℤ) : ℤ := 12 * marchYear d + months.index (yearOffset d) + 2

/-- The place of a day in its month. -/
def monthOffset (d : ℤ) : ℤ := months.offset (yearOffset d)

theorem yearOfCentury_bounds (d : ℤ) : 0 ≤ years.index (centuries.offset d) ∧
    years.index (centuries.offset d) < 100 := by
  have hnonneg := centuries.offset_nonneg (d := d)
  have hlt := centuries.lt_start_succ (d := d)
  have hsum := centuries.start_add_offset (d := d)
  rw [centuries_start] at hlt hsum
  rw [← years.lt_start_iff, ← years.start_le_iff, years_start, years_start]
  omega

theorem yearStart_add_offset (d : ℤ) : yearStart (marchYear d) + yearOffset d = d := by
  have hcentury := centuries.start_add_offset (d := d)
  have hyear := years.start_add_offset (d := centuries.offset d)
  have hbounds := yearOfCentury_bounds d
  have hdiv : marchYear d / 100 = centuries.index d := by rw [marchYear]; omega
  have hmod : marchYear d % 100 = years.index (centuries.offset d) := by rw [marchYear]; omega
  rw [yearStart, hdiv, hmod, yearOffset]
  omega

theorem lt_yearStart_succ (d : ℤ) : d < yearStart (marchYear d + 1) := by
  have hcentury := centuries.start_add_offset (d := d)
  have hbounds := yearOfCentury_bounds d
  by_cases hlast : years.index (centuries.offset d) = 99
  · have hdiv : (marchYear d + 1) / 100 = centuries.index d + 1 := by rw [marchYear]; omega
    have hmod : (marchYear d + 1) % 100 = 0 := by rw [marchYear]; omega
    have hlt := centuries.lt_start_succ (d := d)
    rw [yearStart, hdiv, hmod]
    show d < centuries.start (centuries.index d + 1) + 0
    rwa [Int.add_zero]
  · have hdiv : (marchYear d + 1) / 100 = centuries.index d := by rw [marchYear]; omega
    have hmod : (marchYear d + 1) % 100 = years.index (centuries.offset d) + 1 := by
      rw [marchYear]; omega
    have hlt := years.lt_start_succ (d := centuries.offset d)
    rw [yearStart, hdiv, hmod]
    omega

theorem monthOfYear_bounds (d : ℤ) : 0 ≤ months.index (yearOffset d) ∧
    months.index (yearOffset d) < 12 := by
  have hnonneg : 0 ≤ yearOffset d := years.offset_nonneg
  have hlt := lt_yearStart_succ d
  rw [yearStart_succ] at hlt
  have hd := yearStart_add_offset d
  have hlength : yearOffset d < 367 := by split_ifs at hlt <;> omega
  rw [← months.lt_start_iff, ← months.start_le_iff, months_start, months_start]
  omega

/-- **The days before its month and its place in the month make the number of a day.** -/
theorem monthStart_add_offset (d : ℤ) : monthStart (monthNumber d) + monthOffset d = d := by
  have hyear := yearStart_add_offset d
  have hmonth := months.start_add_offset (d := yearOffset d)
  have hbounds := monthOfYear_bounds d
  have hdiv : (monthNumber d - 2) / 12 = marchYear d := by rw [monthNumber]; omega
  have hmod : (monthNumber d - 2) % 12 = months.index (yearOffset d) := by rw [monthNumber]; omega
  rw [monthStart, hdiv, hmod, monthOffset]
  omega

theorem lt_monthStart_succ (d : ℤ) : d < monthStart (monthNumber d + 1) := by
  have hyear := yearStart_add_offset d
  have hbounds := monthOfYear_bounds d
  by_cases hlast : months.index (yearOffset d) = 11
  · have hdiv : (monthNumber d + 1 - 2) / 12 = marchYear d + 1 := by rw [monthNumber]; omega
    have hmod : (monthNumber d + 1 - 2) % 12 = 0 := by rw [monthNumber]; omega
    have hlt := lt_yearStart_succ d
    rw [monthStart, hdiv, hmod]
    show d < yearStart (marchYear d + 1) + 0
    rwa [Int.add_zero]
  · have hdiv : (monthNumber d + 1 - 2) / 12 = marchYear d := by rw [monthNumber]; omega
    have hmod : (monthNumber d + 1 - 2) % 12 = months.index (yearOffset d) + 1 := by
      rw [monthNumber]; omega
    have hlt := months.lt_start_succ (d := yearOffset d)
    rw [monthStart, hdiv, hmod]
    omega

/-- A date of the proleptic Gregorian calendar. -/
structure Date where
  year : ℤ
  month : ℕ
  day : ℕ
  month_pos : 1 ≤ month
  month_le : month ≤ 12
  day_pos : 1 ≤ day
  day_le : day ≤ monthLength year month

/-- The date of a day. -/
def Date.ofDay (d : ℤ) : Date where
  year := monthNumber d / 12
  month := (monthNumber d % 12).toNat + 1
  day := (monthOffset d).toNat + 1
  month_pos := Nat.le_add_left 1 _
  month_le := by
    have hlt := Int.emod_lt_of_pos (monthNumber d) (by decide : (0 : ℤ) < 12)
    omega
  day_pos := Nat.le_add_left 1 _
  day_le := by
    have hnonneg : 0 ≤ monthOffset d := months.offset_nonneg
    have hday := monthStart_add_offset d
    have hlt := lt_monthStart_succ d
    rw [monthStart_succ] at hlt
    omega

example : (Date.ofDay 719468).year = 1970 ∧ (Date.ofDay 719468).month = 1 := by decide

/-! ## The order -/

theorem compare_toNat {a b : ℤ} (ha : 0 ≤ a) (hb : 0 ≤ b) :
    compare a.toNat b.toNat = compare a b := by
  rw [Nat.compare_eq_ite_lt, Int.compare_eq_ite_lt]
  congr 1
  · exact propext (by omega)
  · congr 1
    exact propext (by omega)

theorem compare_succ (a b : ℕ) : compare (a + 1) (b + 1) = compare a b := by
  rw [Nat.compare_eq_ite_lt, Nat.compare_eq_ite_lt]
  simp only [Nat.add_lt_add_iff_right]

theorem compare_add_right (a b k : ℤ) : compare (a + k) (b + k) = compare a b := by
  rw [Int.compare_eq_ite_lt, Int.compare_eq_ite_lt]
  simp only [Int.add_lt_add_iff_right]

theorem compare_ediv {k : ℤ} (hk : 0 < k) (a b : ℤ) :
    compare a b = (compare (a / k) (b / k)).then (compare (a % k) (b % k)) := by
  have h : compare a b = _ := (Periods.mk k 1 0 hk Int.one_pos).compare_eq
  simpa [Periods.index, Periods.offset, Periods.start, Int.emod_def] using h

theorem compare_mul_add {k a b r s : ℤ} (hr : 0 ≤ r ∧ r < k) (hs : 0 ≤ s ∧ s < k) :
    compare (k * a + r) (k * b + s) = (compare a b).then (compare r s) := by
  have hk : 0 < k := Int.lt_of_le_of_lt hr.1 hr.2
  rw [compare_ediv hk, Int.mul_add_ediv_left _ _ hk.ne', Int.mul_add_ediv_left _ _ hk.ne',
    Int.mul_add_emod_self_left, Int.mul_add_emod_self_left, Int.ediv_eq_zero_of_lt hr.1 hr.2,
    Int.ediv_eq_zero_of_lt hs.1 hs.2, Int.emod_eq_of_lt hr.1 hr.2, Int.emod_eq_of_lt hs.1 hs.2,
    Int.add_zero, Int.add_zero]

theorem compare_monthNumber (d d' : ℤ) : compare d d' =
    (compare (monthNumber d) (monthNumber d')).then (compare (monthOffset d) (monthOffset d')) := by
  rw [monthNumber, monthNumber, compare_add_right,
    compare_mul_add (monthOfYear_bounds d) (monthOfYear_bounds d'), marchYear, marchYear,
    compare_mul_add (yearOfCentury_bounds d) (yearOfCentury_bounds d'), Ordering.then_assoc,
    Ordering.then_assoc, monthOffset, monthOffset, ← months.compare_eq, yearOffset, yearOffset,
    ← years.compare_eq, ← centuries.compare_eq]

/-- **Days are in the order of year, month and day of the month.** -/
theorem Date.compare_ofDay (d d' : ℤ) : compare d d' =
    (compare (ofDay d).year (ofDay d').year).then
      ((compare (ofDay d).month (ofDay d').month).then (compare (ofDay d).day (ofDay d').day)) := by
  have hmonth (e : ℤ) : 0 ≤ monthNumber e % 12 := Int.emod_nonneg _ (by decide)
  have hoffset (e : ℤ) : 0 ≤ monthOffset e := months.offset_nonneg
  rw [compare_monthNumber, compare_ediv (by decide : (0 : ℤ) < 12), Ordering.then_assoc]
  simp only [ofDay, compare_succ, compare_toNat (hmonth d) (hmonth d'),
    compare_toNat (hoffset d) (hoffset d')]

theorem Date.year_mono {d d' : ℤ} (h : d ≤ d') : (ofDay d).year ≤ (ofDay d').year := by
  by_contra hlt
  have hcompare := compare_ofDay d d'
  rw [Int.compare_eq_gt.mpr (Int.not_le.mp hlt)] at hcompare
  exact absurd (Int.compare_eq_gt.mp hcompare) (Int.not_lt.mpr h)

end Calendar
