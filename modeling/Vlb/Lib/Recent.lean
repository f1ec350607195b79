import Mathlib.Data.List.DropRight
import Mathlib.Order.Lattice
import Mathlib.Tactic.Common

/-!
# The last entries of a history

A memory that keeps the last `n` entries, against a history of which the recent entries count.

* `push n l x`: append `x`, and keep the last `n` entries.
* `foldl_push`: pushing one after another keeps the last `n` of all.
* **`countP_rtake`**: where the entries that count are the last ones, the memory loses none of them
  that it has room for.
-/

namespace Recent

variable {α : Type*} {n : ℕ} {l : List α} {p q : α → Bool}

/-- Append an entry, and keep the last `n`. -/
def push (n : ℕ) (l : List α) (x : α) : List α := (l ++ [x]).rtake n

theorem rtake_of_length_le (h : l.length ≤ n) : l.rtake n = l := by
  rw [List.rtake, Nat.sub_eq_zero_of_le h, List.drop_zero]

theorem length_rtake (l : List α) (n : ℕ) : (l.rtake n).length = min n l.length := by
  rw [List.rtake, List.length_drop]
  omega

/-- What was forgotten before `b` came would be forgotten after it as well. -/
theorem rtake_rtake_append (a b : List α) : (a.rtake n ++ b).rtake n = (a ++ b).rtake n := by
  by_cases h : a.length ≤ n
  · rw [rtake_of_length_le h]
  · have hlen : (a.take (a.length - n)).length = a.length - n := by
      rw [List.length_take]
      omega
    have hsplit : a ++ b = a.take (a.length - n) ++ (a.rtake n ++ b) := by
      rw [← List.append_assoc, List.rtake, List.take_append_drop]
    have hdrop : (a ++ b).length - n =
        (a.take (a.length - n)).length + ((a.rtake n ++ b).length - n) := by
      rw [hlen, List.length_append, List.length_append, length_rtake]
      omega
    calc (a.rtake n ++ b).rtake n
        = (a.take (a.length - n) ++ (a.rtake n ++ b)).drop ((a ++ b).length - n) := by
          rw [hdrop, List.drop_length_add_append]
          rfl
      _ = (a ++ b).rtake n := by rw [← hsplit, List.rtake]

theorem foldl_push (xs : List α) (h : l.length ≤ n) : xs.foldl (push n) l = (l ++ xs).rtake n := by
  induction xs generalizing l with
  | nil => rw [List.foldl_nil, List.append_nil, rtake_of_length_le h]
  | cons x xs ih =>
    have hpush : (push n l x).length ≤ n := by
      rw [push, length_rtake]
      omega
    rw [List.foldl_cons, ih hpush, push, rtake_rtake_append, List.append_assoc]
    rfl

/-- Of a history in which what counts comes last, the last `n` entries have all that count, up to
`n` of them. -/
theorem countP_rtake (hlast : l.Pairwise fun x y => p x = true → p y = true) :
    (l.rtake n).countP p = min n (l.countP p) := by
  induction l with
  | nil => simp
  | cons x l ih =>
    obtain ⟨hx, hl⟩ := List.pairwise_cons.mp hlast
    by_cases hfit : (x :: l).length ≤ n
    · have hle := List.countP_le_length (p := p) (l := x :: l)
      rw [rtake_of_length_le hfit, Nat.min_eq_right (by omega)]
    · -- the memory is full without `x`
      have hdrop : (x :: l).rtake n = l.rtake n := by
        simp only [List.length_cons] at hfit
        rw [List.rtake, List.length_cons, show l.length + 1 - n = (l.length - n) + 1 by omega,
          List.drop_succ_cons, List.rtake]
      rw [hdrop, ih hl, List.countP_cons]
      by_cases hpx : p x = true
      · have hall : l.countP p = l.length := List.countP_eq_length.mpr fun y hy => hx y hy hpx
        simp only [List.length_cons] at hfit
        rw [hall, if_pos hpx]
        omega
      · rw [if_neg hpx, Nat.add_zero]

theorem countP_filter_of_imp (h : ∀ x ∈ l, p x = true → q x = true) :
    (l.filter q).countP p = l.countP p := by
  rw [List.countP_filter]
  refine List.countP_congr fun x hx => ?_
  constructor
  · intro hpq
    exact (Bool.and_eq_true_iff.mp hpq).1
  · intro hp
    exact Bool.and_eq_true_iff.mpr ⟨hp, h x hx hp⟩

/-- **A memory filled up later**: starting from the entries that count at some time, or from all of
them, the memory has the same count at any later time. -/
theorem countP_rebuilt {old new : List α}
    (hlast : (old ++ new).Pairwise fun x y => p x = true → p y = true)
    (hpq : ∀ x ∈ old, p x = true → q x = true) :
    (((old.filter q).rtake n ++ new).rtake n).countP p = ((old ++ new).rtake n).countP p := by
  have hsub : (old.filter q ++ new).Sublist (old ++ new) :=
    (List.filter_sublist).append (List.Sublist.refl new)
  rw [rtake_rtake_append, countP_rtake hlast, countP_rtake (hlast.sublist hsub),
    List.countP_append, List.countP_append, countP_filter_of_imp hpq]

end Recent
