import Vlb.Lib.Calendar
import Vlb.Lib.Lexicographic
import Vlb.Lib.Time

/-!
# Times as texts

How chrono's `to_rfc3339` writes a time in UTC: with the offset `+00:00`, and as many groups of three
digits of the fraction of the second as it takes.

* `rfc3339`: the text of a time.
* `compareLex_tail`: fractions of different lengths, with what follows them, are in their order.
* `compareLex_rfc3339`: in the years of four digits, the texts are in the order of the times.
* `compareLex_early`: the sign of an earlier year is below every digit.
-/

namespace Time

open Numerals Lexicographic

/-! ## The text of a time -/

/-- Days are numbered from the first of March of the year 0 on. -/
def DateTime.day (t : DateTime) : ℤ := t.nanos / (86400 * nanosPerSec) + 719468

/-- In UTC. -/
def DateTime.date (t : DateTime) : Calendar.Date := .ofDay t.day

/-- Since midnight. -/
def DateTime.nanosOfDay (t : DateTime) : ℕ := (t.nanos % (86400 * nanosPerSec)).toNat

/-- The seconds of the day. -/
def DateTime.seconds (t : DateTime) : ℕ := t.nanosOfDay / nanosPerSec

/-- The fraction of the second. -/
def DateTime.subsecNanos (t : DateTime) : ℕ := t.nanosOfDay % nanosPerSec

/-- The year has a sign where it has not four digits. -/
def yearText (year : ℤ) : List Char :=
  if 0 ≤ year ∧ year ≤ 9999 then padded 4 year.toNat
  else (if year < 0 then '-' else '+') :: padded 4 year.natAbs

/-- `SecondsFormat::AutoSi` -/
def fraction (nanos : ℕ) : List Char :=
  if nanos = 0 then []
  else if nanos % 1000000 = 0 then '.' :: padded 3 (nanos / 1000000)
  else if nanos % 1000 = 0 then '.' :: padded 6 (nanos / 1000)
  else '.' :: padded 9 nanos

/-- The offset of UTC. -/
def offset : List Char := "+00:00".toList

/-- What comes after the year. -/
def afterYear (t : DateTime) : List Char :=
  '-' :: (padded 2 t.date.month ++ '-' :: (padded 2 t.date.day ++ 'T' ::
    (padded 2 (t.seconds / 3600) ++ ':' :: (padded 2 (t.seconds / 60 % 60) ++ ':' ::
      (padded 2 (t.seconds % 60) ++ (fraction t.subsecNanos ++ offset))))))

/-- The text that `to_rfc3339` makes of a time. -/
def rfc3339 (t : DateTime) : List Char := yearText t.date.year ++ afterYear t

example : String.ofList (rfc3339 ⟨1789932600123000000, by decide⟩) =
    "2026-09-20T19:30:00.123+00:00" := by decide +kernel

/-! ## Fractions -/

/-- The groups of three digits until the rest is zero, and the offset. -/
def tail : ℕ → ℕ → List Char
  | 0, _ => offset
  | k + 1, f => if f = 0 then offset else padded 3 (f / 1000 ^ k) ++ tail k (f % 1000 ^ k)

theorem tail_zero (k : ℕ) : tail k 0 = offset := by
  cases k <;> rfl

theorem tail_succ {k f : ℕ} (h : f ≠ 0) :
    tail (k + 1) f = padded 3 (f / 1000 ^ k) ++ tail k (f % 1000 ^ k) := by
  rw [tail, if_neg h]

theorem fraction_append_offset {f : ℕ} (h : f < nanosPerSec) :
    fraction f ++ offset = if f = 0 then offset else '.' :: tail 3 f := by
  have hthree (hf : f ≠ 0) : tail 3 f = padded 3 (f / 1000000) ++ tail 2 (f % 1000000) :=
    tail_succ hf
  have htwo {g : ℕ} (hg : g ≠ 0) : tail 2 g = padded 3 (g / 1000) ++ tail 1 (g % 1000) :=
    tail_succ hg
  have hone {g : ℕ} (hg : g ≠ 0) : tail 1 g = padded 3 g ++ offset := by
    rw [tail_succ hg, Nat.pow_zero, Nat.div_one]
    rfl
  have hsix {g : ℕ} (hg : g < 1000000) : padded 6 g = padded 3 (g / 1000) ++ padded 3 (g % 1000) :=
    padded_add (v := 3) (w := 3) (by decide) (by decide) hg
  have hnine : padded 9 f = padded 3 (f / 1000000) ++ padded 6 (f % 1000000) :=
    padded_add (v := 3) (w := 6) (by decide) (by decide) h
  have hlt : f < 1000000000 := h
  unfold fraction
  split_ifs with hzero hmilli hmicro
  · rfl
  · rw [hthree hzero, hmilli, tail_zero]
    rfl
  · have hlast : f % 1000000 % 1000 = 0 := by omega
    have hfirst : f / 1000 / 1000 = f / 1000000 := by omega
    have hsecond : f / 1000 % 1000 = f % 1000000 / 1000 := by omega
    rw [hthree hzero, htwo hmilli, hlast, tail_zero, hsix (by omega), hfirst, hsecond,
      ← List.append_assoc]
    rfl
  · have hlast : f % 1000000 % 1000 ≠ 0 := by omega
    rw [hthree hzero, htwo hmilli, hone hlast, hnine, hsix (by omega), ← List.append_assoc,
      ← List.append_assoc]
    simp only [List.cons_append, List.append_assoc]

theorem compareLex_self (xs : List Char) : List.compareLex compare xs xs = .eq :=
  Std.ReflCmp.compare_self

theorem compareLex_cons (c : Char) (xs ys : List Char) :
    List.compareLex compare (c :: xs) (c :: ys) = List.compareLex compare xs ys := by
  have hself : compare c c = .eq := Std.ReflCmp.compare_self
  rw [List.compareLex_cons_cons, hself]
  rfl

theorem compareLex_cons_padded {c : Char} {w n : ℕ} (hc : c.toNat < '0'.toNat) (hw : 0 < w)
    (h : n < 10 ^ w) (xs ys : List Char) :
    List.compareLex compare (c :: xs) (padded w n ++ ys) = .lt ∧
      List.compareLex compare (padded w n ++ ys) (c :: xs) = .gt := by
  have hlength := length_padded hw h
  have hdigits := all_isDigit_padded w n
  cases hpadded : padded w n with
  | nil =>
    rw [hpadded] at hlength
    exact absurd hlength hw.ne
  | cons d ds =>
    rw [hpadded, List.all_cons, Bool.and_eq_true] at hdigits
    have hlt : c.toNat < d.toNat := hc.trans_le (Char.isDigit_iff_toNat.mp hdigits.1).1
    rw [List.cons_append, List.compareLex_cons_cons, List.compareLex_cons_cons, compare_toNat,
      compare_toNat, Nat.compare_eq_lt.mpr hlt, Nat.compare_eq_gt.mpr hlt]
    exact ⟨rfl, rfl⟩

/-- **Fractions of different lengths, with what follows them, are in their order**: the plus sign is
below the digits. -/
theorem compareLex_tail {k f g : ℕ} (hf : f < 1000 ^ k) (hg : g < 1000 ^ k) :
    List.compareLex compare (tail k f) (tail k g) = compare f g := by
  induction k generalizing f g with
  | zero =>
    obtain rfl : f = 0 := Nat.lt_one_iff.mp hf
    obtain rfl : g = 0 := Nat.lt_one_iff.mp hg
    exact compareLex_self _
  | succ k ih =>
    have hpos : 0 < 1000 ^ k := Nat.pow_pos (by decide)
    have hgroup {n : ℕ} (hn : n < 1000 ^ (k + 1)) : n / 1000 ^ k < 10 ^ 3 := by
      show n / 1000 ^ k < 1000
      rwa [Nat.div_lt_iff_lt_mul hpos, Nat.mul_comm, ← Nat.pow_succ]
    have hplus : '+'.toNat < '0'.toNat := by decide
    have hoffset : offset = '+' :: "00:00".toList := rfl
    by_cases hfzero : f = 0 <;> by_cases hgzero : g = 0
    · rw [hfzero, hgzero]
      exact compareLex_self _
    · rw [hfzero, tail_zero, tail_succ hgzero, hoffset,
        (compareLex_cons_padded hplus (by decide) (hgroup hg) _ _).1,
        Nat.compare_eq_lt.mpr (Nat.pos_of_ne_zero hgzero)]
    · rw [hgzero, tail_zero, tail_succ hfzero, hoffset,
        (compareLex_cons_padded hplus (by decide) (hgroup hf) _ _).2,
        Nat.compare_eq_gt.mpr (Nat.pos_of_ne_zero hfzero)]
    · rw [tail_succ hfzero, tail_succ hgzero,
        compareLex_padded (by decide) (hgroup hf) (hgroup hg),
        ih (Nat.mod_lt f hpos) (Nat.mod_lt g hpos), ← compare_div hpos]

theorem compareLex_fraction {f g : ℕ} (hf : f < nanosPerSec) (hg : g < nanosPerSec) :
    List.compareLex compare (fraction f ++ offset) (fraction g ++ offset) = compare f g := by
  have hoffset : offset = '+' :: "00:00".toList := rfl
  have hlt : compare '+' '.' = .lt := by decide
  have hgt : compare '.' '+' = .gt := by decide
  rw [fraction_append_offset hf, fraction_append_offset hg]
  split_ifs with hfzero hgzero hgzero
  · rw [hfzero, hgzero]
    exact compareLex_self _
  · rw [hfzero, Nat.compare_eq_lt.mpr (Nat.pos_of_ne_zero hgzero), hoffset,
      List.compareLex_cons_cons, hlt]
    rfl
  · rw [hgzero, Nat.compare_eq_gt.mpr (Nat.pos_of_ne_zero hfzero), hoffset,
      List.compareLex_cons_cons, hgt]
    rfl
  · rw [compareLex_cons, compareLex_tail (k := 3) hf hg]

/-! ## Times -/

theorem DateTime.seconds_lt (t : DateTime) : t.seconds < 86400 := by
  have hlt := Int.emod_lt_of_pos t.nanos (by decide : (0 : ℤ) < 86400 * nanosPerSec)
  rw [seconds, Nat.div_lt_iff_lt_mul (by decide), nanosOfDay]
  simp only [nanosPerSec] at hlt ⊢
  omega

theorem DateTime.subsecNanos_lt (t : DateTime) : t.subsecNanos < nanosPerSec :=
  Nat.mod_lt _ (by decide)

theorem DateTime.compare_nanos (t u : DateTime) : compare t.nanos u.nanos =
    (compare t.day u.day).then (compare t.nanosOfDay u.nanosOfDay) := by
  have hpos : (0 : ℤ) < 86400 * nanosPerSec := by decide
  rw [Calendar.compare_ediv hpos, day, day, Calendar.compare_add_right, nanosOfDay, nanosOfDay,
    Calendar.compare_toNat (Int.emod_nonneg _ hpos.ne') (Int.emod_nonneg _ hpos.ne')]

theorem DateTime.compare_nanosOfDay (t u : DateTime) : compare t.nanosOfDay u.nanosOfDay =
    (compare (t.seconds / 3600) (u.seconds / 3600)).then
      ((compare (t.seconds / 60 % 60) (u.seconds / 60 % 60)).then
        ((compare (t.seconds % 60) (u.seconds % 60)).then
          (compare t.subsecNanos u.subsecNanos))) := by
  have hhours (n : ℕ) : n / 3600 = n / 60 / 60 := (Nat.div_div_eq_div_mul n 60 60).symm
  rw [hhours, hhours, ← Ordering.then_assoc, ← compare_div (by decide), ← Ordering.then_assoc,
    ← compare_div (by decide), seconds, seconds, subsecNanos, subsecNanos,
    ← compare_div (by decide)]

theorem compareLex_afterYear (t u : DateTime) :
    List.compareLex compare (afterYear t) (afterYear u) =
      ((compare t.date.month u.date.month).then (compare t.date.day u.date.day)).then
        (compare t.nanosOfDay u.nanosOfDay) := by
  have hmonth (d : Calendar.Date) : d.month < 10 ^ 2 := d.month_le.trans_lt (by decide)
  have hday (d : Calendar.Date) : d.day < 10 ^ 2 :=
    (d.day_le.trans (Calendar.monthLength_le d.year d.month)).trans_lt (by decide)
  have hhour (v : DateTime) : v.seconds / 3600 < 10 ^ 2 := by
    have := v.seconds_lt
    omega
  have hsixty (n : ℕ) : n % 60 < 10 ^ 2 := (Nat.mod_lt n (by decide)).trans (by decide)
  rw [afterYear, afterYear, compareLex_cons, compareLex_padded (by decide) (hmonth _) (hmonth _),
    compareLex_cons, compareLex_padded (by decide) (hday _) (hday _), compareLex_cons,
    compareLex_padded (by decide) (hhour t) (hhour u), compareLex_cons,
    compareLex_padded (by decide) (hsixty _) (hsixty _), compareLex_cons,
    compareLex_padded (by decide) (hsixty _) (hsixty _),
    compareLex_fraction t.subsecNanos_lt u.subsecNanos_lt, DateTime.compare_nanosOfDay,
    Ordering.then_assoc]

/-- The time is in a year that is written with four digits. -/
def FourDigits (t : DateTime) : Prop := 0 ≤ t.date.year ∧ t.date.year ≤ 9999

instance (t : DateTime) : Decidable (FourDigits t) := inferInstanceAs (Decidable (_ ∧ _))

theorem rfc3339_fourDigits {t : DateTime} (h : FourDigits t) :
    rfc3339 t = padded 4 t.date.year.toNat ++ afterYear t := by
  rw [rfc3339, yearText]
  exact congrArg (· ++ afterYear t) (if_pos h)

theorem FourDigits.lt {t : DateTime} (h : FourDigits t) : t.date.year.toNat < 10 ^ 4 := by
  have := h.2
  omega

/-- **In the years of four digits, the texts are in the order of the times.** -/
theorem compareLex_rfc3339 {t u : DateTime} (ht : FourDigits t) (hu : FourDigits u) :
    List.compareLex compare (rfc3339 t) (rfc3339 u) = compare t.nanos u.nanos := by
  rw [rfc3339_fourDigits ht, rfc3339_fourDigits hu,
    compareLex_padded (by decide) ht.lt hu.lt, Calendar.compare_toNat ht.1 hu.1,
    compareLex_afterYear, ← Ordering.then_assoc, DateTime.date, DateTime.date,
    ← Calendar.Date.compare_ofDay, DateTime.compare_nanos]

theorem compareLex_early {t u : DateTime} (ht : t.date.year < 0) (hu : FourDigits u) :
    List.compareLex compare (rfc3339 t) (rfc3339 u) = .lt := by
  have hminus : '-'.toNat < '0'.toNat := by decide
  have hnot : ¬ (0 ≤ t.date.year ∧ t.date.year ≤ 9999) := by omega
  rw [rfc3339_fourDigits hu, rfc3339, yearText, if_neg hnot, if_pos ht, List.cons_append]
  exact (compareLex_cons_padded hminus (by decide) hu.lt _ _).1

theorem ascii_rfc3339 (t : DateTime) : ∀ c ∈ rfc3339 t, c.toNat < 128 := by
  have hpadded (w n : ℕ) : ∀ c ∈ padded w n, c.toNat < 128 := fun c hc =>
    (Char.isDigit_iff_toNat.mp (List.all_eq_true.mp (all_isDigit_padded w n) c hc)).2.trans_lt
      (by decide)
  have hcons {c : Char} {cs : List Char} (hc : c.toNat < 128) (hcs : ∀ d ∈ cs, d.toNat < 128) :
      ∀ d ∈ c :: cs, d.toNat < 128 := List.forall_mem_cons.mpr ⟨hc, hcs⟩
  have happend {xs ys : List Char} (hxs : ∀ c ∈ xs, c.toNat < 128) (hys : ∀ c ∈ ys, c.toNat < 128) :
      ∀ c ∈ xs ++ ys, c.toNat < 128 := List.forall_mem_append.mpr ⟨hxs, hys⟩
  have hyear (year : ℤ) : ∀ c ∈ yearText year, c.toNat < 128 := by
    unfold yearText
    split_ifs
    · exact hpadded _ _
    · exact hcons (by decide) (hpadded _ _)
    · exact hcons (by decide) (hpadded _ _)
  have hfraction (f : ℕ) : ∀ c ∈ fraction f, c.toNat < 128 := by
    unfold fraction
    split_ifs
    · exact fun c hc => absurd hc List.not_mem_nil
    all_goals exact hcons (by decide) (hpadded _ _)
  have hoffset : ∀ c ∈ offset, c.toNat < 128 := by
    have hall : (offset.all fun c => decide (c.toNat < 128)) = true := by decide
    exact fun c hc => of_decide_eq_true (List.all_eq_true.mp hall c hc)
  refine happend (hyear _) (hcons (by decide) (happend (hpadded _ _) (hcons (by decide) ?_)))
  refine happend (hpadded _ _) (hcons (by decide) (happend (hpadded _ _) (hcons (by decide) ?_)))
  refine happend (hpadded _ _) (hcons (by decide) (happend (hpadded _ _) ?_))
  exact happend (hfraction _) hoffset

end Time
