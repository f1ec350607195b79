import Vlb.Lib.Text

/-!
# Versions

What the tag of a release says, and when one release is newer than another.

* `Version.parse`, `Version.cmp`: a version with a pre-release suffix, and the order of precedence.
* `isNewer_asymm`: of two versions at most one is newer than the other.
-/

namespace Vlb.Update

open Text

/-- A semantic version. `pre` is empty for a final release. -/
structure Version where
  major : ℕ
  minor : ℕ
  patch : ℕ
  pre : List Char
  deriving DecidableEq

/-- Tolerant of a leading `v`. Build metadata is dropped, and a missing minor or patch is 0. -/
def Version.parse (s : List Char) : Option Version := do
  let s := ((trim s).dropWhile (· == 'v')).dropWhile (· == 'V')
  let s := s.takeWhile (· ≠ '+')
  let (core, pre) := (splitOnce '-' s).getD (s, [])
  let parts := core.splitOn '.'
  let major ← parts.head?.bind (fromStrRadix 64 10)
  let minor ← fromStrRadix 64 10 (parts.getD 1 ['0'])
  let patch ← fromStrRadix 64 10 (parts.getD 2 ['0'])
  return { major, minor, patch, pre }

/-- Two identifiers of a suffix: a number is below what is not one. -/
def compareIdentifier (x y : List Char) : Ordering :=
  match fromStrRadix 64 10 x, fromStrRadix 64 10 y with
  | some nx, some ny => compare nx ny
  | some _, none => .lt
  | none, some _ => .gt
  | none, none => compare x y

/-- The loop over the identifiers. Of two suffixes that agree as far as they go, the shorter is
lower. -/
def compareIdentifiers : List (List Char) → List (List Char) → Ordering
  | [], [] => .eq
  | [], _ :: _ => .lt
  | _ :: _, [] => .gt
  | x :: xs, y :: ys => (compareIdentifier x y).then (compareIdentifiers xs ys)

def comparePrerelease (a b : List Char) : Ordering :=
  compareIdentifiers (a.splitOn '.') (b.splitOn '.')

/-- A pre-release is below its final release. -/
def comparePre (a b : List Char) : Ordering :=
  match a.isEmpty, b.isEmpty with
  | true, true => .eq
  | true, false => .gt
  | false, true => .lt
  | false, false => comparePrerelease a b

/-- The three numbers, and then the suffixes. -/
def Version.cmp (v w : Version) : Ordering :=
  (compare v.major w.major).then <| (compare v.minor w.minor).then <|
    (compare v.patch w.patch).then <| comparePre v.pre w.pre

/-- A tag that is not a version is newer than nothing. -/
def isNewer (candidate current : List Char) : Bool :=
  match Version.parse candidate, Version.parse current with
  | some c, some cur => c.cmp cur == .gt
  | _, _ => false

/-! ## The order -/

theorem compareIdentifier_swap (x y : List Char) :
    (compareIdentifier x y).swap = compareIdentifier y x := by
  unfold compareIdentifier
  cases fromStrRadix 64 10 x <;> cases fromStrRadix 64 10 y
  · exact Std.OrientedOrd.eq_swap.symm
  · rfl
  · rfl
  · exact Std.OrientedOrd.eq_swap.symm

theorem compareIdentifiers_swap (xs ys : List (List Char)) :
    (compareIdentifiers xs ys).swap = compareIdentifiers ys xs := by
  induction xs generalizing ys with
  | nil => cases ys <;> rfl
  | cons x xs ih =>
    cases ys with
    | nil => rfl
    | cons y ys =>
      rw [compareIdentifiers, compareIdentifiers, Ordering.swap_then, compareIdentifier_swap, ih]

theorem comparePre_swap (a b : List Char) : (comparePre a b).swap = comparePre b a := by
  unfold comparePre
  cases a.isEmpty <;> cases b.isEmpty
  · exact compareIdentifiers_swap _ _
  all_goals rfl

theorem Version.cmp_swap (v w : Version) : (v.cmp w).swap = w.cmp v := by
  have hnat : ∀ m n : ℕ, (compare m n).swap = compare n m := fun _ _ => Std.OrientedOrd.eq_swap.symm
  simp only [Version.cmp, Ordering.swap_then, hnat, comparePre_swap]

theorem isNewer_iff {candidate current : List Char} :
    isNewer candidate current = true ↔
      ∃ c cur, Version.parse candidate = some c ∧ Version.parse current = some cur ∧
        c.cmp cur = .gt := by
  unfold isNewer
  cases Version.parse candidate <;> cases Version.parse current <;> simp

/-- **No release is newer than one that is newer than it.** -/
theorem isNewer_asymm {a b : List Char} (h : isNewer a b = true) : isNewer b a = false := by
  obtain ⟨va, vb, ha, hb, hgt⟩ := isNewer_iff.mp h
  rw [Bool.eq_false_iff]
  intro hba
  obtain ⟨vb', va', hb', ha', hgt'⟩ := isNewer_iff.mp hba
  obtain rfl : vb = vb' := Option.some.inj (hb.symm.trans hb')
  obtain rfl : va = va' := Option.some.inj (ha.symm.trans ha')
  rw [← Version.cmp_swap, hgt] at hgt'
  injection hgt'

example : isNewer "1.0.0-rc.1".toList "1.0.0-beta.11".toList = true ∧
    isNewer "v1.0.0-alpha.2".toList "1.0.0-alpha.10".toList = false := by decide +kernel

end Vlb.Update
