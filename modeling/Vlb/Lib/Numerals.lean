import Mathlib.Algebra.GroupWithZero.Nat
import Vlb.Lib.Text

/-!
# Decimal numerals

* `value`: what a numeral is worth.
* `toDigits_value`: a numeral without leading zeros is how its value is written.
* `padded`: numerals of a width, with leading zeros.
* `number_toDigits_hex`: a hexadecimal number is read as it was written.
* `number_eq`: which texts `str::parse` of an unsigned type reads, and as what.
-/

namespace Numerals

/-- The value of a decimal numeral. -/
def value (cs : List Char) : ℕ := Nat.ofDigitChars 10 cs 0

theorem value_cons (c : Char) (cs : List Char) :
    value (c :: cs) = 10 ^ cs.length * (c.toNat - '0'.toNat) + value cs := by
  rw [value, Nat.ofDigitChars_cons, Nat.ofDigitChars_eq_ofDigitChars_zero, Nat.mul_zero, Nat.zero_add]
  rfl

theorem value_concat (cs : List Char) (c : Char) :
    value (cs ++ [c]) = 10 * value cs + (c.toNat - '0'.toNat) := by
  rw [value, Nat.ofDigitChars_append, Nat.ofDigitChars_cons, Nat.ofDigitChars_nil]
  rfl

theorem value_lt {cs : List Char} (h : cs.all Char.isDigit = true) : value cs < 10 ^ cs.length := by
  induction cs with
  | nil => exact Nat.one_pos
  | cons c cs ih =>
    rw [List.all_cons, Bool.and_eq_true] at h
    obtain ⟨hlow, hhigh⟩ := Char.isDigit_iff_toNat.mp h.1
    have hdigit : c.toNat - '0'.toNat ≤ 9 := Nat.sub_le_sub_right hhigh _
    have hmul := Nat.mul_le_mul_left (10 ^ cs.length) hdigit
    have hrest := ih h.2
    rw [value_cons, List.length_cons, Nat.pow_succ]
    omega

theorem value_dropWhile_zero (cs : List Char) : value (cs.dropWhile (· == '0')) = value cs := by
  induction cs with
  | nil => rfl
  | cons c cs ih =>
    rw [List.dropWhile_cons]
    split_ifs with hc
    · obtain rfl : c = '0' := by simpa using hc
      rw [ih, value_cons, Nat.sub_self, Nat.mul_zero, Nat.zero_add]
    · rfl

theorem value_pos {c : Char} (hdigit : c.isDigit = true) (hc : c ≠ '0') (cs : List Char) :
    0 < value (c :: cs) := by
  have hlow := (Char.isDigit_iff_toNat.mp hdigit).1
  have hne : c.toNat ≠ '0'.toNat := fun heq => hc (Char.toNat_inj.mp heq)
  have hpos : 0 < c.toNat - '0'.toNat := Nat.sub_pos_of_lt (Nat.lt_of_le_of_ne hlow hne.symm)
  rw [value_cons]
  have := Nat.mul_pos (Nat.pow_pos (n := cs.length) (by decide : 0 < 10)) hpos
  omega

theorem sub_zero_lt {c : Char} (h : c.isDigit = true) : c.toNat - '0'.toNat < 10 :=
  Nat.lt_of_le_of_lt (Nat.sub_le_sub_right (Char.isDigit_iff_toNat.mp h).2 _) (by decide)

theorem digitChar_sub_zero {c : Char} (h : c.isDigit = true) :
    (c.toNat - '0'.toNat).digitChar = c := by
  have hall : ∀ n < 58, 48 ≤ n → (n - '0'.toNat).digitChar = Char.ofNat n := by decide
  obtain ⟨hlow, hhigh⟩ := Char.isDigit_iff_toNat.mp h
  have hc := hall c.toNat (Nat.lt_succ_of_le hhigh) hlow
  rwa [Char.ofNat_toNat] at hc

/-- **A numeral without leading zeros is how its value is written.** -/
theorem toDigits_value {c : Char} {cs : List Char} (h : (c :: cs).all Char.isDigit = true)
    (hc : c ≠ '0') : Nat.toDigits 10 (value (c :: cs)) = c :: cs := by
  induction cs using List.reverseRecOn with
  | nil =>
    rw [List.all_cons, List.all_nil, Bool.and_true] at h
    have hvalue : value [c] = c.toNat - '0'.toNat := by rw [value_cons]; simp [value]
    rw [hvalue, Nat.toDigits_of_lt_base (sub_zero_lt h), digitChar_sub_zero h]
  | append_singleton cs d ih =>
    rw [← List.cons_append, List.all_append, Bool.and_eq_true] at h
    have hd : d.isDigit = true := by simpa using h.2
    have hc' : c.isDigit = true := by
      have := h.1
      rw [List.all_cons, Bool.and_eq_true] at this
      exact this.1
    have hsplit := Nat.toDigits_append_toDigits (b := 10) (by decide) (value_pos hc' hc cs)
      (sub_zero_lt hd)
    rw [← List.cons_append, value_concat, ← hsplit, ih h.1,
      Nat.toDigits_of_lt_base (sub_zero_lt hd), digitChar_sub_zero hd]

/-! ## Numerals of a width -/

theorem value_append (cs ds : List Char) :
    value (cs ++ ds) = 10 ^ ds.length * value cs + value ds := by
  rw [value, Nat.ofDigitChars_append, Nat.ofDigitChars_eq_ofDigitChars_zero]
  rfl

/-- `{:0w}` -/
def padded (w n : ℕ) : List Char := (Nat.toDigits 10 n).leftpad w '0'

theorem length_padded {w n : ℕ} (hw : 0 < w) (h : n < 10 ^ w) : (padded w n).length = w := by
  have hlength := (Nat.length_toDigits_le_iff (by decide) hw).mpr h
  rw [padded, List.length_leftpad, Nat.max_eq_left hlength]

theorem all_isDigit_padded (w n : ℕ) : (padded w n).all Char.isDigit = true := by
  rw [padded, List.leftpad, List.all_append, Bool.and_eq_true]
  refine ⟨?_, List.all_eq_true.mpr fun c hc => ?_⟩
  · rw [List.all_eq_true]
    intro c hc
    rw [List.eq_of_mem_replicate hc]
    rfl
  · exact Nat.isDigit_of_mem_toDigits (by decide) (by decide) hc

theorem value_padded (w n : ℕ) : value (padded w n) = n := by
  rw [padded, List.leftpad]
  induction w - (Nat.toDigits 10 n).length with
  | zero => exact Nat.ofDigitChars_toDigits (by decide) (by decide)
  | succ k ih =>
    rw [List.replicate_succ, List.cons_append, value_cons, ih, Nat.sub_self, Nat.mul_zero,
      Nat.zero_add]

/-! ## Reading -/

theorem digit?_eq (c : Char) :
    Text.digit? 10 c = if c.isDigit then some (c.toNat - '0'.toNat) else none := by
  have hdigit : ('0' ≤ c ∧ c ≤ '9') ↔ c.isDigit = true := Char.isDigit_iff_toNat.symm
  simp only [Text.digit?, hdigit]
  by_cases h : c.isDigit = true
  · simp only [if_pos h, if_pos (sub_zero_lt h)]
  · simp only [if_neg h]
    refine if_neg ?_
    split_ifs <;> omega

theorem foldl_none (cs : List Char) : cs.foldl
    (fun n c => n.bind fun n => (Text.digit? 10 c).map (10 * n + ·)) (none : Option ℕ) = none := by
  induction cs with
  | nil => rfl
  | cons c cs ih => exact ih

theorem foldl_digits (cs : List Char) (n : ℕ) : cs.foldl
    (fun n c => n.bind fun n => (Text.digit? 10 c).map (10 * n + ·)) (some n) =
      if cs.all Char.isDigit then some (Nat.ofDigitChars 10 cs n) else none := by
  induction cs generalizing n with
  | nil => rfl
  | cons c cs ih =>
    rw [List.foldl_cons, Option.bind_some, digit?_eq, List.all_cons]
    by_cases hc : c.isDigit = true
    · rw [if_pos hc, Option.map_some, ih, hc, Bool.true_and, Nat.ofDigitChars_cons]
    · rw [if_neg hc, Option.map_none, foldl_none, Bool.eq_false_iff.mpr hc, Bool.false_and]
      rfl

theorem number_eq {cs : List Char} (h : cs.head? ≠ some '+') : Text.number 10 cs =
    if cs ≠ [] ∧ cs.all Char.isDigit = true then some (value cs) else none := by
  rw [Text.number, if_neg h]
  cases cs with
  | nil => rfl
  | cons c cs =>
    rw [foldl_digits]
    simp [value]

/-! ## Hexadecimal -/

theorem exists_hexDigits (n : ℕ) : ∃ ds : List ℕ, ds ≠ [] ∧ (∀ d ∈ ds, d < 16) ∧
    Nat.toDigits 16 n = ds.map Nat.digitChar ∧ ds.foldl (fun n d => 16 * n + d) 0 = n := by
  induction n using Nat.strong_induction_on with
  | _ n ih =>
    rw [Nat.toDigits_eq_if (by decide)]
    split_ifs with hlt
    · exact ⟨[n], by simp, by simpa using hlt, rfl, by simp⟩
    · obtain ⟨ds, -, hds, hdigits, hvalue⟩ := ih (n / 16) (by omega)
      refine ⟨ds ++ [n % 16], by simp, ?_, ?_, ?_⟩
      · exact List.forall_mem_append.mpr ⟨hds, by simpa using Nat.mod_lt n (by decide)⟩
      · rw [hdigits, List.map_append]
        rfl
      · rw [List.foldl_append, hvalue]
        exact Nat.div_add_mod n 16

theorem number_toDigits_hex (n : ℕ) : Text.number 16 (Nat.toDigits 16 n) = some n := by
  have hall : ∀ d < 16, Text.digit? 16 d.digitChar = some d := by decide
  obtain ⟨ds, hne, hds, hdigits, hvalue⟩ := exists_hexDigits n
  rw [hdigits, Text.number_map hne fun d hd => hall d (hds d hd), hvalue]

theorem mem_toDigits_hex {n : ℕ} {c : Char} (h : c ∈ Nat.toDigits 16 n) :
    ∃ d < 16, d.digitChar = c := by
  obtain ⟨ds, -, hds, hdigits, -⟩ := exists_hexDigits n
  rw [hdigits] at h
  obtain ⟨d, hd, heq⟩ := List.mem_map.mp h
  exact ⟨d, hds d hd, heq⟩

theorem not_mem_toDigits_hex {n : ℕ} {c : Char} (hc : ∀ d < 16, d.digitChar ≠ c) :
    c ∉ Nat.toDigits 16 n := by
  intro hmem
  obtain ⟨d, hd, heq⟩ := mem_toDigits_hex hmem
  exact hc d hd heq

end Numerals
