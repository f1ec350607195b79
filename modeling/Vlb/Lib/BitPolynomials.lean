import Mathlib.Algebra.BigOperators.Ring.Finset
import Mathlib.Algebra.CharP.Two
import Mathlib.Algebra.Module.BigOperators
import Mathlib.Data.List.Prime
import Mathlib.Data.Nat.Prime.Basic
import Mathlib.Dynamics.PeriodicPts.Defs
import Mathlib.Algebra.Module.Hom

/-!
# Polynomials as bit vectors

A vector of `w` bits is a polynomial over the field with two elements: bit `i` is the coefficient of
`X ^ i`. Where a linear map of bit vectors is a root of `X ^ w + tail`, its powers are computed as
remainders of polynomials, and so is the length of its orbits.

* `mulX`, `mul`, `powX`: arithmetic modulo `X ^ w + tail`.
* `eval`: the value of a polynomial in a ring in which `2 = 0`.
* `eval_mul`, `eval_powX`: the arithmetic is that of the values at a root.
* `smul_pow_ne`: an orbit does not come back before its time.
* `Vec`, `endOf`: bit vectors as a group, and linear maps of it.
* `Primitive`: what is computed to show that a map has one orbit, apart from zero.
* **`iterate_ne`**: from any vector but zero, a map repeats nothing in `2 ^ w - 1` steps.
-/

namespace BitPolynomials

variable {w : ℕ}

/-! ## Arithmetic -/

/-- Horner's rule, for the leading `n` coefficients of `b`. `step` multiplies by the unknown. -/
def horner {α : Type*} (step : α → α) (add : α → α → α) (zero a : α) (b : BitVec w) : ℕ → α
  | 0 => zero
  | n + 1 => add (step (horner step add zero a b n)) (if b.getLsbD (w - (n + 1)) then a else zero)

/-- Times the unknown, modulo `X ^ w + tail`. -/
def mulX (tail p : BitVec w) : BitVec w := if p.msb then p <<< 1 ^^^ tail else p <<< 1

/-- The product, less multiples of the polynomial. -/
def mul (tail a b : BitVec w) : BitVec w := horner (mulX tail) (· ^^^ ·) 0 a b w

/-- The power of the unknown whose exponent has `k` bits. -/
def powX (tail : BitVec w) : ℕ → ℕ → BitVec w
  | 0, _ => 1
  | k + 1, e =>
    let r := powX tail k (e / 2)
    -- the test makes the kernel compute `r` before the products of it
    if r = 0 then 0 else if e % 2 = 1 then mulX tail (mul tail r r) else mul tail r r

/-! ## Values -/

section Values

variable {R M : Type*} [Ring R] [AddCommGroup M] [Module R M] {tail p q : BitVec w} {t : R}

/-- The value at `t`. -/
def eval (t : R) (p : BitVec w) : R := ∑ i ∈ Finset.range w, if p.getLsbD i then t ^ i else 0

/-- **Horner's rule** computes a value. -/
theorem map_horner {α : Type*} {step : α → α} {add : α → α → α} {zero : α} {f : α → M}
    (hstep : ∀ a, f (step a) = t • f a) (hadd : ∀ a b, f (add a b) = f a + f b) (hzero : f zero = 0)
    (a : α) (b : BitVec w) : f (horner step add zero a b w) = eval t b • f a := by
  have hpart : ∀ n ≤ w, f (horner step add zero a b n) =
      (∑ i ∈ Finset.range n, if b.getLsbD (w - n + i) then t ^ i else 0) • f a := by
    intro n hn
    induction n with
    | zero => rw [horner, hzero, Finset.range_zero, Finset.sum_empty, zero_smul]
    | succ n ih =>
      have hindex (i : ℕ) : w - (n + 1) + (i + 1) = w - n + i := by omega
      rw [horner, hadd, hstep, ih (by omega), Finset.sum_range_succ', add_smul, ← mul_smul,
        Finset.mul_sum]
      simp only [hindex, pow_succ', mul_ite, mul_zero, Nat.add_zero, pow_zero]
      split_ifs
      · rw [one_smul]
      · rw [hzero, zero_smul]
  have := hpart w le_rfl
  rwa [Nat.sub_self, Finset.sum_congr rfl fun i _ => by rw [Nat.zero_add]] at this

theorem eval_zero (t : R) : eval t (0 : BitVec w) = 0 := by
  simp [eval]

theorem eval_one (hw : 0 < w) (t : R) : eval t (1 : BitVec w) = 1 := by
  have hbit (i : ℕ) : (1 : BitVec w).getLsbD i = decide (i = 0) := by
    by_cases hi : i = 0
    · simp [hi, hw]
    · simp [hi]
  simp only [eval, hbit, decide_eq_true_eq]
  rw [Finset.sum_ite_eq' (Finset.range w) 0 fun i => t ^ i, if_pos (Finset.mem_range.mpr hw),
    pow_zero]

theorem eval_xor [CharP R 2] (t : R) (p q : BitVec w) : eval t (p ^^^ q) = eval t p + eval t q := by
  rw [eval, eval, eval, ← Finset.sum_add_distrib]
  refine Finset.sum_congr rfl fun i _ => ?_
  rw [BitVec.getLsbD_xor]
  cases p.getLsbD i <;> cases q.getLsbD i <;> simp [CharTwo.add_self_eq_zero]

/-- `t` is a root of `X ^ w + tail`. -/
def IsRoot (tail : BitVec w) (t : R) : Prop := t ^ w = eval t tail

theorem eval_shiftLeft_one (t : R) (p : BitVec w) :
    eval t (p <<< 1) + (if p.msb then t ^ w else 0) = t * eval t p := by
  have hshift : eval t (p <<< 1) + (if p.msb then t ^ w else 0) =
      ∑ i ∈ Finset.range (w + 1), if 0 < i ∧ p.getLsbD (i - 1) then t ^ i else 0 := by
    rw [Finset.sum_range_succ, eval]
    congr 1
    · refine Finset.sum_congr rfl fun i hi => ?_
      have hlt := Finset.mem_range.mp hi
      cases i with
      | zero => simp
      | succ i =>
        have hbit : (p <<< 1).getLsbD (i + 1) = p.getLsbD i := by
          rw [BitVec.getLsbD_shiftLeft, decide_eq_true hlt, Bool.true_and, Nat.add_sub_cancel]
          simp
        rw [hbit, Nat.add_sub_cancel]
        simp
    · cases w with
      | zero => simp [BitVec.msb, BitVec.getMsbD]
      | succ w => simp [BitVec.msb_eq_getLsbD_last]
  rw [hshift, Finset.sum_range_succ', eval, Finset.mul_sum]
  simp [pow_succ']

variable [CharP R 2] (hroot : IsRoot tail t)

include hroot

theorem eval_mulX (p : BitVec w) : eval t (mulX tail p) = t * eval t p := by
  have hshift := eval_shiftLeft_one t p
  unfold mulX
  split_ifs with hmsb
  · rw [if_pos hmsb, hroot] at hshift
    rw [eval_xor, hshift]
  · rw [if_neg hmsb, add_zero] at hshift
    exact hshift

theorem eval_mul (a b : BitVec w) : eval t (mul tail a b) = eval t b * eval t a := by
  have hstep (p : BitVec w) : eval t (mulX tail p) = t • eval t p := eval_mulX hroot p
  exact map_horner hstep (eval_xor t) (eval_zero t) a b

/-- **The powers of a root** are computed as remainders. -/
theorem eval_powX (hw : 0 < w) {k e : ℕ} (he : e < 2 ^ k) : eval t (powX tail k e) = t ^ e := by
  induction k generalizing e with
  | zero =>
    obtain rfl : e = 0 := by omega
    rw [powX, eval_one hw, pow_zero]
  | succ k ih =>
    have hhalf := ih (e := e / 2) (by omega)
    have hsquare : t ^ (e / 2) * t ^ (e / 2) = t ^ (2 * (e / 2)) := by rw [← pow_add, two_mul]
    rw [powX]
    split_ifs with hzero hodd
    · rw [hzero, eval_zero] at hhalf
      rw [eval_zero, ← Nat.div_add_mod e 2, pow_add, ← hsquare, ← hhalf, zero_mul, zero_mul]
    · rw [eval_mulX hroot, eval_mul hroot, hhalf, hsquare, ← pow_succ']
      congr 1
      omega
    · rw [eval_mul hroot, hhalf, hsquare]
      congr 1
      omega

end Values

/-! ## Orbits -/

section Orbits

variable {R M : Type*} [Ring R] [AddCommGroup M] [Module R M] {t : R} {N : ℕ}

/-- **An orbit has full length**: `t ^ N` is the identity, and no `t ^ (N / p)` fixes anything. -/
theorem smul_pow_ne (hone : t ^ N = 1)
    (hprime : ∀ p, p.Prime → p ∣ N → ∃ s, s * (t ^ (N / p) - 1) = 1) {x : M} (hx : x ≠ 0) {i j : ℕ}
    (hij : i < j) (hj : j < i + N) : t ^ i • x ≠ t ^ j • x := by
  intro heq
  have hperiodic {n : ℕ} : Function.IsPeriodicPt (t • · : M → M) n x ↔ t ^ n • x = x := by
    rw [Function.IsPeriodicPt, Function.IsFixedPt, smul_iterate]
  have hback : t ^ (j - i) • x = x := by
    have hunit : IsUnit (t ^ i) := (IsUnit.of_pow_eq_one hone (by omega)).pow i
    rw [← Nat.add_sub_cancel' hij.le, pow_add, mul_smul] at heq
    exact (hunit.smul_left_cancel.mp heq).symm
  have hgcd := (hperiodic.mpr hback).gcd (hperiodic.mpr (hone ▸ one_smul R x))
  have hle : Nat.gcd (j - i) N ≤ j - i := Nat.gcd_le_left N (by omega)
  obtain ⟨m, hm⟩ := Nat.gcd_dvd_right (j - i) N
  have hm1 : m ≠ 1 := by
    rintro rfl
    omega
  obtain ⟨p, hp, k, rfl⟩ := Nat.exists_prime_and_dvd hm1
  have hfixes : t ^ (N / p) • x = x := by
    have hquotient : N / p = Nat.gcd (j - i) N * k := by
      conv_lhs => rw [hm, Nat.mul_left_comm]
      exact Nat.mul_div_cancel_left _ hp.pos
    rw [hquotient]
    exact hperiodic.mp (hgcd.mul_const k)
  obtain ⟨s, hs⟩ := hprime p hp ⟨_, hm.trans (Nat.mul_left_comm _ _ _)⟩
  rw [← one_smul R x, ← hs, mul_smul, sub_smul, hfixes, one_smul, sub_self, smul_zero] at hx
  exact hx rfl

end Orbits

/-! ## Maps of bit vectors -/

/-- Bit vectors, with exclusive or as addition. -/
def Vec (w : ℕ) := BitVec w

namespace Vec

instance : Zero (Vec w) := ⟨BitVec.zero w⟩

instance : Add (Vec w) := ⟨BitVec.xor⟩

instance : Neg (Vec w) := ⟨id⟩

instance : AddCommGroup (Vec w) where
  add_assoc := BitVec.xor_assoc
  zero_add _ := BitVec.zero_xor
  add_zero _ := BitVec.xor_zero
  neg_add_cancel _ := BitVec.xor_self
  add_comm := BitVec.xor_comm
  nsmul := nsmulRec
  zsmul := zsmulRec

theorem add_self (x : Vec w) : x + x = 0 := BitVec.xor_self

end Vec

/-- A map that respects exclusive or. -/
def Linear (f : BitVec w → BitVec w) : Prop := ∀ a b, f (a ^^^ b) = f a ^^^ f b

theorem Linear.zero {f : BitVec w → BitVec w} (hf : Linear f) : f 0 = 0 := by
  have := hf 0 0
  rwa [BitVec.xor_self, BitVec.xor_self] at this

/-- As an endomorphism. -/
def endOf {f : BitVec w → BitVec w} (hf : Linear f) : AddMonoid.End (Vec w) where
  toFun := f
  map_zero' := hf.zero
  map_add' := hf

/-- **Maps are equal** if they are so at the vectors with one bit. -/
theorem end_ext {f g : AddMonoid.End (Vec w)}
    (h : ∀ i < w, f (BitVec.twoPow w i : Vec w) = g (BitVec.twoPow w i : Vec w)) : f = g := by
  have hlow : ∀ (n : ℕ) (x : BitVec w), (∀ i, n ≤ i → x.getLsbD i = false) →
      f (x : Vec w) = g (x : Vec w) := by
    intro n
    induction n with
    | zero =>
      intro x hx
      obtain rfl : x = 0 := BitVec.eq_of_getLsbD_eq fun i _ => by simp [hx i (Nat.zero_le i)]
      exact (map_zero f).trans (map_zero g).symm
    | succ n ih =>
      intro x hx
      cases hbit : x.getLsbD n with
      | false =>
        refine ih x fun i hi => ?_
        rcases Nat.eq_or_lt_of_le hi with rfl | hi
        · exact hbit
        · exact hx i hi
      | true =>
        have hn : n < w := BitVec.lt_of_getLsbD hbit
        have hrest := ih (x ^^^ BitVec.twoPow w n) fun i hi => by
          rw [BitVec.getLsbD_xor, BitVec.getLsbD_twoPow, decide_eq_true hn]
          rcases Nat.eq_or_lt_of_le hi with rfl | hi
          · simp [hbit]
          · simp [hx i hi, Nat.ne_of_lt hi]
        have hsplit : (x : Vec w) =
            (Add.add (x ^^^ BitVec.twoPow w n : BitVec w) (BitVec.twoPow w n) : Vec w) := by
          change x = (x ^^^ BitVec.twoPow w n) ^^^ BitVec.twoPow w n
          rw [BitVec.xor_assoc, BitVec.xor_self, BitVec.xor_zero]
        rw [hsplit]
        exact (map_add f _ _).trans ((congrArg₂ _ hrest (h n hn)).trans (map_add g _ _).symm)
  exact AddMonoidHom.ext fun x => hlow w x fun i hi => BitVec.getLsbD_of_ge x i hi

theorem charP_end (hw : 0 < w) : CharP (AddMonoid.End (Vec w)) 2 := by
  refine CharTwo.of_one_ne_zero_of_two_eq_zero ?_ ?_
  · intro hone
    have hbit : BitVec.twoPow w 0 = 0#w := DFunLike.congr_fun hone (BitVec.twoPow w 0 : Vec w)
    have := congrArg (fun v : BitVec w => v.getLsbD 0) hbit
    simp [hw] at this
  · rw [← one_add_one_eq_two]
    exact AddMonoidHom.ext fun x => Vec.add_self x

/-- The map is a root of `X ^ w + tail`, and the unknown has the order `2 ^ w - 1` there: each factor
of that number is given with an inverse that shows so. -/
structure Primitive (f : BitVec w → BitVec w) (tail : BitVec w) (factors : List (ℕ × BitVec w)) :
    Prop where
  root : ∀ i < w, f^[w] (BitVec.twoPow w i) =
    horner f (· ^^^ ·) 0 (BitVec.twoPow w i) tail w
  order : powX tail w (2 ^ w - 1) = 1
  prod : (factors.map Prod.fst).prod = 2 ^ w - 1
  prime : ∀ p ∈ factors, p.1.Prime
  inverse : ∀ p ∈ factors, mul tail (powX tail w ((2 ^ w - 1) / p.1) ^^^ 1) p.2 = 1

variable {f : BitVec w → BitVec w} {tail : BitVec w} {factors : List (ℕ × BitVec w)}

theorem Primitive.isRoot (h : Primitive f tail factors) (hf : Linear f) : IsRoot tail (endOf hf) := by
  refine end_ext fun i hi => ?_
  rw [AddMonoid.End.coe_pow]
  refine (h.root i hi).trans ?_
  exact map_horner (M := Vec w) (t := endOf hf) (f := fun v => v) (fun _ => rfl) (fun _ _ => rfl) rfl
    (BitVec.twoPow w i) tail

/-- **A primitive map repeats nothing** in `2 ^ w - 1` steps. -/
theorem iterate_ne (h : Primitive f tail factors) (hf : Linear f) {x : BitVec w} (hx : x ≠ 0)
    {i j : ℕ} (hij : i < j) (hj : j < i + (2 ^ w - 1)) : f^[i] x ≠ f^[j] x := by
  have hw : 0 < w := by
    rcases Nat.eq_zero_or_pos w with rfl | hw
    · exact absurd (BitVec.eq_of_getLsbD_eq fun i hi => absurd hi (Nat.not_lt_zero i)) hx
    · exact hw
  have := charP_end hw
  have hroot := h.isRoot hf
  have hlt : 2 ^ w - 1 < 2 ^ w := Nat.sub_lt (Nat.two_pow_pos w) Nat.one_pos
  have hone : endOf hf ^ (2 ^ w - 1) = 1 := by
    rw [← eval_powX hroot hw hlt, h.order, eval_one hw]
  have happly (n : ℕ) (v : Vec w) : (endOf hf ^ n) • v = f^[n] v := by
    rw [AddMonoid.End.smul_def, AddMonoid.End.coe_pow]
    rfl
  intro heq
  refine smul_pow_ne (M := Vec w) hone (fun p hp hdvd => ?_) hx hij hj
    ((happly i x).trans (heq.trans (happly j x).symm))
  · rw [← h.prod] at hdvd
    obtain ⟨d, hd, hpd⟩ := hp.prime.dvd_prod_iff.mp hdvd
    obtain ⟨⟨q, b⟩, hmem, rfl⟩ := List.mem_map.mp hd
    obtain rfl : p = q := (Nat.prime_dvd_prime_iff_eq hp (h.prime _ hmem)).mp hpd
    refine ⟨eval (endOf hf) b, ?_⟩
    have hinverse := congrArg (eval (endOf hf)) (h.inverse _ hmem)
    rwa [eval_mul hroot, eval_xor, eval_powX hroot hw (Nat.lt_of_le_of_lt (Nat.div_le_self _ _) hlt),
      eval_one hw, ← CharTwo.sub_eq_add] at hinverse

end BitPolynomials
