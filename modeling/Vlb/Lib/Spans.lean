import Mathlib.Algebra.BigOperators.Ring.Finset
import Mathlib.Data.Finset.Card
import Mathlib.Data.Int.Interval

/-!
# Spans in a window

Spans of integers from a start to an end that is not in them.

* `overlap`: how much of a span is in a window.
* `sum_card_le`: sets that are disjoint have no more than a set has that they are in.
* **`sum_overlap_le`**: spans that are disjoint have no more of a window than there is.
* `sum_ediv_le`: what is lost to rounding only makes it less.
-/

namespace Spans

/-- How much of the span from `s` to `e` is in the window from `a` to `b`. -/
def overlap (a b s e : ℤ) : ℤ := max 0 (min e b - max s a)

theorem overlap_nonneg (a b s e : ℤ) : 0 ≤ overlap a b s e := le_max_left _ _

theorem overlap_of_lt {a b s e : ℤ} (h : e < a) : overlap a b s e = 0 := by
  rw [overlap]
  omega

theorem sum_card_le {α : Type*} [DecidableEq α] {S : Finset α} {Fs : List (Finset α)}
    (hpair : Fs.Pairwise Disjoint) (hsub : ∀ F ∈ Fs, F ⊆ S) : (Fs.map Finset.card).sum ≤ S.card := by
  induction Fs generalizing S with
  | nil => exact Nat.zero_le _
  | cons F Fs ih =>
    obtain ⟨hdisjoint, hrest⟩ := List.pairwise_cons.mp hpair
    obtain ⟨hF, hFs⟩ := List.forall_mem_cons.mp hsub
    have hsdiff : ∀ G ∈ Fs, G ⊆ S \ F := fun G hG x hx =>
      Finset.mem_sdiff.mpr ⟨hFs G hG hx, Finset.disjoint_right.mp (hdisjoint G hG) hx⟩
    rw [List.map_cons, List.sum_cons, ← Finset.card_sdiff_add_card_eq_card hF, Nat.add_comm]
    exact Nat.add_le_add_right (ih hrest hsdiff) _

/-- **Spans that are disjoint have no more of a window than there is.** -/
theorem sum_overlap_le {a b : ℤ} (hab : a ≤ b) {spans : List (ℤ × ℤ)}
    (hpair : spans.Pairwise fun p q => ∀ t, ¬ ((p.1 ≤ t ∧ t < p.2) ∧ (q.1 ≤ t ∧ t < q.2))) :
    (spans.map fun p => overlap a b p.1 p.2).sum ≤ b - a := by
  let inside : ℤ × ℤ → Finset ℤ := fun p => Finset.Ico p.1 p.2 ∩ Finset.Ico a b
  have hdisjoint : (spans.map inside).Pairwise Disjoint := by
    refine List.pairwise_map.mpr (hpair.imp fun h => Finset.disjoint_left.mpr fun t ht ht' => ?_)
    exact h t ⟨Finset.mem_Ico.mp (Finset.mem_inter.mp ht).1,
      Finset.mem_Ico.mp (Finset.mem_inter.mp ht').1⟩
  have hsub : ∀ F ∈ spans.map inside, F ⊆ Finset.Ico a b := by
    intro F hF
    obtain ⟨p, -, rfl⟩ := List.mem_map.mp hF
    exact Finset.inter_subset_right
  have hcard := sum_card_le hdisjoint hsub
  rw [Int.card_Ico, List.map_map] at hcard
  -- as many integers are in the span and in the window
  have hoverlap : ∀ s e, overlap a b s e = (Finset.Ico s e ∩ Finset.Ico a b).card := by
    intro s e
    rw [Finset.Ico_inter_Ico, Int.card_Ico, overlap, Int.toNat_eq_max, max_comm]
  have hsum : (spans.map fun p => overlap a b p.1 p.2).sum =
      ((spans.map (Finset.card ∘ inside)).sum : ℕ) := by
    rw [Nat.cast_list_sum, List.map_map]
    exact congrArg List.sum (List.map_congr_left fun p _ => hoverlap p.1 p.2)
  rw [hsum]
  omega

theorem sum_ediv_le {k : ℤ} (hk : 0 < k) (ns : List ℤ) : (ns.map (· / k)).sum ≤ ns.sum / k := by
  induction ns with
  | nil => simp
  | cons n ns ih =>
    rw [List.map_cons, List.sum_cons, List.sum_cons]
    calc n / k + (ns.map (· / k)).sum ≤ n / k + ns.sum / k := Int.add_le_add_left ih _
      _ ≤ (n + ns.sum) / k := by
        rw [Int.le_ediv_iff_mul_le hk, Int.add_mul]
        exact Int.add_le_add (Int.ediv_mul_le _ hk.ne') (Int.ediv_mul_le _ hk.ne')

end Spans
