import Mathlib.Data.List.TakeWhile
import Mathlib.Tactic.Common

/-!
# Deleting the first that matches

A list that a command deletes from one element at a time, the first that matches, and that another
inserts into by a key.

* `drain`: so many deletions.
* `countP_drain`, `filter_drain`: what they take and what they leave.
* `insertBy`: the new element comes after those of its key.
-/

namespace Drain

variable {α : Type} {p q : α → Bool}

/-- Deletes the first element that `p` selects, `n` times. -/
def drain (p : α → Bool) : ℕ → List α → List α
  | 0, l => l
  | n + 1, l => drain p n (l.eraseP p)

theorem drain_of_forall_not {l : List α} (h : ∀ a ∈ l, ¬ p a = true) (n : ℕ) : drain p n l = l := by
  induction n with
  | zero => rfl
  | succ n ih => rw [drain, List.eraseP_of_forall_not h, ih]

theorem drain_sublist (p : α → Bool) (n : ℕ) (l : List α) : (drain p n l).Sublist l := by
  induction n generalizing l with
  | zero => exact List.Sublist.refl l
  | succ n ih => exact (ih _).trans List.eraseP_sublist

theorem countP_eraseP (p : α → Bool) (l : List α) : (l.eraseP p).countP p = l.countP p - 1 := by
  induction l with
  | nil => rfl
  | cons a l ih =>
    by_cases ha : p a = true
    · rw [List.eraseP_cons_of_pos ha, List.countP_cons_of_pos ha, Nat.add_sub_cancel]
    · rw [List.eraseP_cons_of_neg ha, List.countP_cons_of_neg ha, List.countP_cons_of_neg ha, ih]

theorem countP_drain (p : α → Bool) (n : ℕ) (l : List α) :
    (drain p n l).countP p = l.countP p - n := by
  induction n generalizing l with
  | zero => rfl
  | succ n ih => rw [drain, ih, countP_eraseP, Nat.sub_sub, Nat.add_comm]

theorem mem_drain_of_not {a : α} (ha : ¬ p a = true) (n : ℕ) (l : List α) :
    a ∈ drain p n l ↔ a ∈ l := by
  induction n generalizing l with
  | zero => rfl
  | succ n ih => rw [drain, ih, List.mem_eraseP_of_neg ha]

theorem filter_eraseP (h : ∀ a, q a = true → ¬ p a = true) (l : List α) :
    (l.eraseP p).filter q = l.filter q := by
  induction l with
  | nil => rfl
  | cons a l ih =>
    by_cases ha : p a = true
    · have hq : ¬ q a = true := fun hq => h a hq ha
      rw [List.eraseP_cons_of_pos ha, List.filter_cons_of_neg hq]
    · rw [List.eraseP_cons_of_neg ha, List.filter_cons, List.filter_cons, ih]

theorem filter_drain (h : ∀ a, q a = true → ¬ p a = true) (n : ℕ) (l : List α) :
    (drain p n l).filter q = l.filter q := by
  induction n generalizing l with
  | zero => rfl
  | succ n ih => rw [drain, ih, filter_eraseP h]

/-- Nothing of a class is left when all of it was selected, and no more often than there were
deletions. -/
theorem filter_drain_eq_nil_iff (h : ∀ a, p a = true → q a = true) (n : ℕ) (l : List α) :
    (drain p n l).filter q = [] ↔ (∀ a ∈ l, q a = true → p a = true) ∧ l.countP p ≤ n := by
  have hcount : l.countP p ≤ n ↔ (drain p n l).countP p = 0 := by
    rw [countP_drain, Nat.sub_eq_zero_iff_le]
  rw [hcount, List.countP_eq_zero, List.filter_eq_nil_iff]
  constructor
  · intro hnil
    refine ⟨fun a ha hqa => ?_, fun a ha hpa => hnil a ha (h a hpa)⟩
    by_contra hpa
    exact hnil a ((mem_drain_of_not hpa n l).mpr ha) hqa
  · rintro ⟨hall, hnone⟩ a ha hqa
    have hpa := hnone a ha
    exact hpa (hall a ((mem_drain_of_not hpa n l).mp ha) hqa)

/-- A list in the order of a key takes an element after those of its key. -/
def insertBy (key : α → ℕ) (a : α) (l : List α) : List α :=
  l.takeWhile (fun b => key b ≤ key a) ++ a :: l.dropWhile (fun b => key b ≤ key a)

variable {key : α → ℕ} {a : α} {l : List α}

theorem insertBy_perm (key : α → ℕ) (a : α) (l : List α) : (insertBy key a l).Perm (a :: l) := by
  rw [insertBy]
  conv_rhs => rw [← List.takeWhile_append_dropWhile (p := fun b => decide (key b ≤ key a)) (l := l)]
  exact List.perm_middle

theorem mem_insertBy {b : α} : b ∈ insertBy key a l ↔ b = a ∨ b ∈ l :=
  (insertBy_perm key a l).mem_iff.trans List.mem_cons

theorem pairwise_insertBy (h : l.Pairwise fun b c => key b ≤ key c) :
    (insertBy key a l).Pairwise fun b c => key b ≤ key c := by
  have hbelow : ∀ b ∈ l.takeWhile fun b => key b ≤ key a, key b ≤ key a :=
    fun b hb => by simpa using List.mem_takeWhile_imp hb
  have habove : ∀ b ∈ l.dropWhile fun b => key b ≤ key a, key a ≤ key b := by
    intro b hb
    have hsorted := h.sublist (List.dropWhile_sublist fun b => decide (key b ≤ key a))
    cases hdrop : l.dropWhile fun b => decide (key b ≤ key a) with
    | nil =>
      rw [hdrop] at hb
      cases hb
    | cons c rest =>
      have hc : ¬ key c ≤ key a := by
        have hhead := List.head?_dropWhile_not (fun b => decide (key b ≤ key a)) l
        rw [hdrop] at hhead
        simpa using hhead
      rw [hdrop] at hb hsorted
      rcases List.mem_cons.mp hb with rfl | hb
      · omega
      · have := (List.pairwise_cons.mp hsorted).1 b hb
        omega
  refine List.pairwise_append.mpr ⟨h.sublist (List.takeWhile_sublist _), ?_, fun b hb c hc => ?_⟩
  · exact List.pairwise_cons.mpr ⟨habove, h.sublist (List.dropWhile_sublist _)⟩
  · rcases List.mem_cons.mp hc with rfl | hc
    · exact hbelow b hb
    · exact Nat.le_trans (hbelow b hb) (habove c hc)

theorem filter_insertBy_of_not (h : ¬ q a = true) : (insertBy key a l).filter q = l.filter q := by
  rw [insertBy, List.filter_append, List.filter_cons_of_neg h, ← List.filter_append,
    List.takeWhile_append_dropWhile]

theorem filter_insertBy_eq_singleton_iff (h : q a = true) {b : α} :
    (insertBy key a l).filter q = [b] ↔ b = a ∧ l.filter q = [] := by
  have hperm := (insertBy_perm key a l).filter q
  rw [List.filter_cons_of_pos h] at hperm
  constructor
  · intro hb
    rw [hb] at hperm
    obtain ⟨rfl, hnil⟩ := List.cons.inj (List.perm_singleton.mp hperm.symm)
    exact ⟨rfl, hnil⟩
  · rintro ⟨rfl, hnil⟩
    rw [hnil] at hperm
    exact List.perm_singleton.mp hperm

end Drain
