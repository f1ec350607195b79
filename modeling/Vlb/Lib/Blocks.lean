import Mathlib.Algebra.GroupWithZero.Nat
import Mathlib.Tactic.Common

/-!
# Blocks of addresses

A block is the set of addresses of `w` bits that begin like its base.

* `Block.contains`: an address begins like the base.
* `contains_iff`: a block is an interval.
* `contains_single`: a block of full length has one address.
* `contains_iff_mask`: a block is known by a mask.
* `not_contains_of_le`: blocks that follow each other are disjoint.
-/

namespace Blocks

/-- The addresses whose first `length` bits are those of `base`. -/
structure Block (w : ℕ) where
  base : BitVec w
  length : ℕ
  deriving DecidableEq

namespace Block

variable {w : ℕ}

/-- The first bits are those of the base. -/
def contains (b : Block w) (a : BitVec w) : Bool :=
  a.extractLsb' (w - b.length) b.length == b.base.extractLsb' (w - b.length) b.length

/-- How many addresses have the same first bits. -/
def size (b : Block w) : ℕ := 2 ^ (w - b.length)

/-- The first address. -/
def first (b : Block w) : ℕ := b.base.toNat / b.size * b.size

theorem size_pos (b : Block w) : 0 < b.size := Nat.two_pow_pos _

theorem toNat_first_bits {n : ℕ} (hn : n ≤ w) (a : BitVec w) :
    (a.extractLsb' (w - n) n).toNat = a.toNat / 2 ^ (w - n) := by
  have hlt : a.toNat / 2 ^ (w - n) < 2 ^ n := by
    rw [Nat.div_lt_iff_lt_mul (Nat.two_pow_pos _), ← Nat.pow_add, Nat.add_sub_cancel' hn]
    exact a.isLt
  rw [BitVec.extractLsb'_toNat, Nat.shiftRight_eq_div_pow, Nat.mod_eq_of_lt hlt]

theorem contains_iff_div {b : Block w} (hb : b.length ≤ w) (a : BitVec w) :
    b.contains a = true ↔ a.toNat / b.size = b.base.toNat / b.size := by
  rw [contains, beq_iff_eq, ← BitVec.toNat_inj, toNat_first_bits hb, toNat_first_bits hb, size]

/-- **A block is an interval.** -/
theorem contains_iff {b : Block w} (hb : b.length ≤ w) (a : BitVec w) :
    b.contains a = true ↔ b.first ≤ a.toNat ∧ a.toNat < b.first + b.size := by
  have hpos := b.size_pos
  rw [contains_iff_div hb, Nat.div_eq_iff hpos, first]
  constructor
  · rintro ⟨hle, hlt⟩
    exact ⟨hle, by omega⟩
  · rintro ⟨hle, hlt⟩
    exact ⟨hle, by omega⟩

theorem contains_single (a a' : BitVec w) : (Block.mk a w).contains a' = true ↔ a' = a := by
  rw [contains_iff_div (Nat.le_refl w)]
  simp [size, BitVec.toNat_inj]

theorem contains_of_length_eq_zero {b : Block w} (hb : b.length = 0) (a : BitVec w) :
    b.contains a = true := by
  rw [contains_iff_div (hb ▸ Nat.zero_le w), size, hb, Nat.sub_zero, Nat.div_eq_of_lt a.isLt,
    Nat.div_eq_of_lt b.base.isLt]

/-- **A block is known by its mask**, which is one bit for each of the first. -/
theorem contains_iff_mask {b : Block w} (hb : b.length ≤ w) (a : BitVec w) :
    b.contains a = true ↔ b.base &&& BitVec.allOnes w <<< (w - b.length) =
      a &&& BitVec.allOnes w <<< (w - b.length) := by
  rw [contains, beq_iff_eq]
  constructor
  · intro heq
    refine BitVec.eq_of_getLsbD_eq fun i hi => ?_
    by_cases hlow : i < w - b.length
    · simp [hlow]
    · have hbit := congrArg (fun v => v.getLsbD (i - (w - b.length))) heq
      have hlt : i - (w - b.length) < b.length := by omega
      have hi' : w - b.length + (i - (w - b.length)) = i := by omega
      simp only [BitVec.getLsbD_extractLsb', hlt, decide_true, Bool.true_and, hi'] at hbit
      rw [BitVec.getLsbD_and, BitVec.getLsbD_and, hbit]
  · intro heq
    refine BitVec.eq_of_getLsbD_eq fun i hi => ?_
    have hbit := congrArg (fun v => v.getLsbD (w - b.length + i)) heq
    have hlt : w - b.length + i < w := by omega
    simp only [BitVec.getLsbD_and, BitVec.getLsbD_shiftLeft, hlt, decide_true,
      Nat.not_lt.mpr (Nat.le_add_right _ i), decide_false, Bool.not_false,
      Nat.add_sub_cancel_left, BitVec.getLsbD_allOnes, Nat.lt_of_le_of_lt (Nat.le_add_left i _) hlt,
      Bool.and_true] at hbit
    simp only [BitVec.getLsbD_extractLsb', hi, decide_true, Bool.true_and]
    exact hbit.symm

theorem not_contains_of_le {b b' : Block w} (hb : b.length ≤ w) (hb' : b'.length ≤ w)
    (hle : b.first + b.size ≤ b'.first) {a : BitVec w} (ha : b.contains a = true) :
    ¬ b'.contains a = true := by
  rw [contains_iff hb] at ha
  rw [contains_iff hb']
  omega

end Block

end Blocks
