import Mathlib.Data.List.DropRight
import Mathlib.Data.List.Infix
import Mathlib.Tactic.Common

/-!
# Streaks

The run of equal results at the end of a history, and the runs anywhere in it.

* `streak p l`: how many of the last elements of `l` satisfy `p` in a row.
* `HasStreak p k l`: somewhere in `l`, `k` elements in a row satisfy `p`.
* `hasStreak_concat`: a streak is completed by the element that ends it.
* `exists_prefix_rtakeWhile`: a streak was every length up to its own before.
-/

namespace Streak

variable {α : Type*} (p : α → Bool)

/-- The length of the run of `p` at the end of `l`. -/
def streak (l : List α) : ℕ := (l.rtakeWhile p).length

/-- Somewhere in `l`, `k` elements in a row satisfy `p`. -/
def HasStreak (k : ℕ) (l : List α) : Prop := ∃ w, w <:+: l ∧ w.length = k ∧ ∀ x ∈ w, p x

@[simp] theorem streak_nil : streak p [] = 0 := by simp [streak]

theorem streak_concat (l : List α) (x : α) :
    streak p (l ++ [x]) = if p x then streak p l + 1 else 0 := by
  split_ifs with h
  · simp [streak, List.rtakeWhile_concat_pos p l x h]
  · simp [streak, List.rtakeWhile_concat_neg p l x h]

variable {p}

theorem le_streak_iff {k : ℕ} {l : List α} :
    k ≤ streak p l ↔ ∃ w, w <:+ l ∧ w.length = k ∧ ∀ x ∈ w, p x := by
  constructor
  · intro h
    refine ⟨(l.rtakeWhile p).drop (streak p l - k), ?_, ?_, fun x hx => ?_⟩
    · exact (List.drop_suffix _ _).trans (List.rtakeWhile_suffix p l)
    · simp only [List.length_drop, streak] at h ⊢
      omega
    · exact List.mem_rtakeWhile_imp (List.mem_of_mem_drop hx)
  · rintro ⟨w, ⟨v, rfl⟩, rfl, hw⟩
    induction w using List.reverseRecOn generalizing v with
    | nil => simp
    | append_singleton w x ih =>
      have hx : p x = true := hw x (by simp)
      rw [← List.append_assoc, streak_concat, if_pos hx]
      have := ih v fun y hy => hw y (by simp [hy])
      simp only [List.length_append, List.length_singleton]
      omega

theorem hasStreak_concat {k : ℕ} {l : List α} {x : α} :
    HasStreak p k (l ++ [x]) ↔ HasStreak p k l ∨ k ≤ streak p (l ++ [x]) := by
  rw [le_streak_iff]
  constructor
  · rintro ⟨w, hw, hlen, hp⟩
    rcases List.infix_concat_iff.mp hw with hw | hw
    · exact Or.inr ⟨w, hw, hlen, hp⟩
    · exact Or.inl ⟨w, hw, hlen, hp⟩
  · rintro (⟨w, hw, hlen, hp⟩ | ⟨w, hw, hlen, hp⟩)
    · exact ⟨w, hw.trans (List.prefix_append l [x]).isInfix, hlen, hp⟩
    · exact ⟨w, hw.isInfix, hlen, hp⟩

theorem exists_prefix_rtakeWhile {k : ℕ} {l : List α} (h : k ≤ (l.rtakeWhile p).length) :
    ∃ l', l' <+: l ∧ l'.rtakeWhile p = (l.rtakeWhile p).take k := by
  induction l using List.reverseRecOn with
  | nil => exact ⟨[], List.prefix_rfl, by simp⟩
  | append_singleton l x ih =>
    rcases Nat.lt_or_ge k (((l ++ [x]).rtakeWhile p).length) with hlt | hge
    · cases hx : p x with
      | true =>
        rw [List.rtakeWhile_concat_pos p l x hx] at hlt ⊢
        rw [List.length_append, List.length_singleton] at hlt
        obtain ⟨l', hl', htake⟩ := ih (by omega)
        refine ⟨l', hl'.trans (List.prefix_append l [x]), ?_⟩
        rw [htake, List.take_append_of_le_length (by omega)]
      | false =>
        rw [List.rtakeWhile_concat_neg p l x (by simp [hx])] at hlt
        cases hlt
    · exact ⟨l ++ [x], List.prefix_rfl, (List.take_of_length_le hge).symm⟩

theorem hasStreak_nil {k : ℕ} : HasStreak p k [] ↔ k = 0 := by
  constructor
  · rintro ⟨w, hw, rfl, -⟩
    simp [List.infix_nil.mp hw]
  · rintro rfl
    exact ⟨[], List.infix_rfl, rfl, by simp⟩

end Streak
