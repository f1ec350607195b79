import Vlb.Lib.Numerals

/-!
# Texts in lexicographic order

Lists under `List.compareLex`, which is the bytewise order on ASCII texts.

* `compareLex_append`: parts of equal lengths are compared one after the other.
* `compareLex_eq_lt_iff`: the comparison and the order `List.Lex`.
* `compareLex_digits`: numerals of one length are in the order of their values.
* `compareLex_utf8`: the order of ASCII texts is that of their bytes.
-/

namespace Lexicographic

open Numerals

variable {α : Type} {cmp : α → α → Ordering}

theorem compareLex_append {xs xs' : List α} (h : xs.length = xs'.length) (ys ys' : List α) :
    List.compareLex cmp (xs ++ ys) (xs' ++ ys') =
      (List.compareLex cmp xs xs').then (List.compareLex cmp ys ys') := by
  induction xs generalizing xs' with
  | nil =>
    obtain rfl := List.length_eq_zero_iff.mp h.symm
    rfl
  | cons x xs ih =>
    cases xs' with
    | nil => cases h
    | cons x' xs' =>
      rw [List.cons_append, List.cons_append, List.compareLex_cons_cons, List.compareLex_cons_cons,
        ih (Nat.succ.inj h), Ordering.then_assoc]

theorem compareLex_eq_lt_iff [Std.LawfulEqCmp cmp] {xs ys : List α} :
    List.compareLex cmp xs ys = .lt ↔ List.Lex (fun x y => cmp x y = .lt) xs ys := by
  induction xs generalizing ys with
  | nil =>
    cases ys with
    | nil => simp [List.compareLex_nil_nil]
    | cons y ys => simp [List.compareLex_nil_cons]
  | cons x xs ih =>
    cases ys with
    | nil => simp [List.compareLex_cons_nil]
    | cons y ys =>
      rw [List.compareLex_cons_cons, Ordering.then_eq_lt, ih, List.cons_lex_cons_iff,
        Std.LawfulEqCmp.compare_eq_iff_eq]

/-! ## Numerals -/

theorem compare_toNat (c d : Char) : compare c d = compare c.toNat d.toNat := by
  have hlt : c < d ↔ c.toNat < d.toNat := Iff.rfl
  have heq : c = d ↔ c.toNat = d.toNat := Char.toNat_inj.symm
  change compareOfLessAndEq c d = compareOfLessAndEq c.toNat d.toNat
  simp only [compareOfLessAndEq, hlt, heq]

theorem compare_sub {a b k : ℕ} (ha : k ≤ a) (hb : k ≤ b) : compare (a - k) (b - k) = compare a b := by
  rw [Nat.compare_eq_ite_lt, Nat.compare_eq_ite_lt]
  congr 1
  · exact propext (by omega)
  · congr 1
    exact propext (by omega)

theorem compare_mul_add {k r s : ℕ} (hr : r < k) (hs : s < k) (a b : ℕ) :
    compare (k * a + r) (k * b + s) = (compare a b).then (compare r s) := by
  rcases Nat.lt_trichotomy a b with h | rfl | h
  · have hmul : k * (a + 1) ≤ k * b := Nat.mul_le_mul_left k h
    have hlt : k * a + r < k * b + s := by rw [Nat.mul_succ] at hmul; omega
    rw [Nat.compare_eq_lt.mpr hlt, Nat.compare_eq_lt.mpr h]
    rfl
  · rw [Nat.compare_eq_eq.mpr rfl, Ordering.then, Nat.compare_eq_ite_lt, Nat.compare_eq_ite_lt]
    simp only [Nat.add_lt_add_iff_left]
  · have hmul : k * (b + 1) ≤ k * a := Nat.mul_le_mul_left k h
    have hlt : k * b + s < k * a + r := by rw [Nat.mul_succ] at hmul; omega
    rw [Nat.compare_eq_gt.mpr hlt, Nat.compare_eq_gt.mpr h]
    rfl

/-- **Numerals of one length are in the order of their values.** -/
theorem compareLex_digits {xs ys : List Char} (hxs : xs.all Char.isDigit = true)
    (hys : ys.all Char.isDigit = true) (h : xs.length = ys.length) :
    List.compareLex compare xs ys = compare (value xs) (value ys) := by
  induction xs generalizing ys with
  | nil =>
    obtain rfl := List.length_eq_zero_iff.mp h.symm
    rfl
  | cons x xs ih =>
    cases ys with
    | nil => cases h
    | cons y ys =>
      rw [List.all_cons, Bool.and_eq_true] at hxs hys
      have hlen : xs.length = ys.length := Nat.succ.inj h
      have hx : '0'.toNat ≤ x.toNat := (Char.isDigit_iff_toNat.mp hxs.1).1
      have hy : '0'.toNat ≤ y.toNat := (Char.isDigit_iff_toNat.mp hys.1).1
      have hvalue := value_lt hys.2
      rw [← hlen] at hvalue
      rw [List.compareLex_cons_cons, ih hxs.2 hys.2 hlen, value_cons, value_cons, ← hlen,
        compare_mul_add (value_lt hxs.2) hvalue, compare_sub hx hy, compare_toNat]

theorem eq_of_value {xs ys : List Char} (hxs : xs.all Char.isDigit = true)
    (hys : ys.all Char.isDigit = true) (hlength : xs.length = ys.length)
    (hvalue : value xs = value ys) : xs = ys := by
  have hcompare := compareLex_digits hxs hys hlength
  rw [hvalue, Nat.compare_eq_eq.mpr rfl] at hcompare
  exact Std.LawfulEqCmp.eq_of_compare hcompare

/-- A numeral of a width is the numeral of its leading digits and that of the others. -/
theorem padded_add {v w n : ℕ} (hv : 0 < v) (hw : 0 < w) (h : n < 10 ^ (v + w)) :
    padded (v + w) n = padded v (n / 10 ^ w) ++ padded w (n % 10 ^ w) := by
  have hpow : 0 < 10 ^ w := Nat.pow_pos (by decide)
  have hdiv : n / 10 ^ w < 10 ^ v := by
    rwa [Nat.div_lt_iff_lt_mul hpow, ← Nat.pow_add]
  have hmod : n % 10 ^ w < 10 ^ w := Nat.mod_lt n hpow
  refine eq_of_value (all_isDigit_padded _ _) ?_ ?_ ?_
  · rw [List.all_append, all_isDigit_padded, all_isDigit_padded]
    rfl
  · rw [List.length_append, length_padded hv hdiv, length_padded hw hmod,
      length_padded (Nat.add_pos_left hv w) h]
  · rw [value_append, value_padded, value_padded, value_padded, length_padded hw hmod,
      Nat.div_add_mod]

theorem compareLex_padded {w a b : ℕ} (hw : 0 < w) (ha : a < 10 ^ w) (hb : b < 10 ^ w)
    (xs ys : List Char) : List.compareLex compare (padded w a ++ xs) (padded w b ++ ys) =
      (compare a b).then (List.compareLex compare xs ys) := by
  have hlength : (padded w a).length = (padded w b).length :=
    (length_padded hw ha).trans (length_padded hw hb).symm
  rw [compareLex_append hlength, compareLex_digits (all_isDigit_padded w a)
    (all_isDigit_padded w b) hlength, value_padded, value_padded]

theorem compare_div {k : ℕ} (hk : 0 < k) (a b : ℕ) :
    compare a b = (compare (a / k) (b / k)).then (compare (a % k) (b % k)) := by
  rw [← compare_mul_add (Nat.mod_lt a hk) (Nat.mod_lt b hk), Nat.div_add_mod, Nat.div_add_mod]

/-! ## Bytes -/

theorem compare_ofNat {m n : ℕ} (hm : m < 256) (hn : n < 256) :
    compare (UInt8.ofNat m) (UInt8.ofNat n) = compare m n := by
  have hlt : UInt8.ofNat m < UInt8.ofNat n ↔ m < n := by
    rw [UInt8.lt_iff_toNat_lt, Text.toNat_ofNat_of_lt hm, Text.toNat_ofNat_of_lt hn]
  have heq : UInt8.ofNat m = UInt8.ofNat n ↔ m = n := by
    rw [← UInt8.toNat_inj, Text.toNat_ofNat_of_lt hm, Text.toNat_ofNat_of_lt hn]
  change compareOfLessAndEq (UInt8.ofNat m) (UInt8.ofNat n) = compareOfLessAndEq m n
  simp only [compareOfLessAndEq, hlt, heq]

theorem utf8_ascii {cs : List Char} (h : ∀ c ∈ cs, c.toNat < 128) :
    Text.utf8 cs = cs.map fun c => UInt8.ofNat c.toNat := by
  induction cs with
  | nil => rfl
  | cons c cs ih =>
    have hc : c.val.toNat ≤ 0x7f := Nat.le_of_lt_succ (h c List.mem_cons_self)
    rw [Text.utf8_cons, String.utf8EncodeChar, if_pos hc,
      ih fun d hd => h d (List.mem_cons_of_mem c hd)]
    rfl

/-- **The order of ASCII texts is that of their bytes.** -/
theorem compareLex_utf8 {xs ys : List Char} (hxs : ∀ c ∈ xs, c.toNat < 128)
    (hys : ∀ c ∈ ys, c.toNat < 128) :
    List.compareLex compare (Text.utf8 xs) (Text.utf8 ys) = List.compareLex compare xs ys := by
  rw [utf8_ascii hxs, utf8_ascii hys]
  induction xs generalizing ys with
  | nil => cases ys <;> rfl
  | cons x xs ih =>
    cases ys with
    | nil => rfl
    | cons y ys =>
      have hx := hxs x List.mem_cons_self
      have hy := hys y List.mem_cons_self
      rw [List.map_cons, List.map_cons, List.compareLex_cons_cons, List.compareLex_cons_cons,
        compare_ofNat (by omega) (by omega), compare_toNat,
        ih (fun c hc => hxs c (List.mem_cons_of_mem x hc))
          fun c hc => hys c (List.mem_cons_of_mem y hc)]

end Lexicographic
