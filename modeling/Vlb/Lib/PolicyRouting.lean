import Mathlib.Data.List.MinMax

/-!
# Policy routing

A router tries its rules in the order of their preferences. A rule that selects the packet asks a
routing table, which answers by the longest prefix; a rule may decline answers that are too short.

* `Prefix`, `Route`, `lookup`: a table and its answer.
* `Rule`, `Rule.answer`, `resolve`: the rules and theirs.
* `findSome?_eq_of_unique`: where one element has an answer, it is the answer.
* **`findSome?_split`**: what is below a preference answers first, then what is at it, then the rest.
-/

namespace PolicyRouting

variable {w : ℕ} {τ ν : Type}

/-! ## Tables -/

/-- The addresses that agree with `addr` in the first `length` bits. -/
structure Prefix (w : ℕ) where
  addr : BitVec w
  length : ℕ
  deriving DecidableEq

/-- The first bits agree. -/
def Prefix.covers (p : Prefix w) (a : BitVec w) : Bool :=
  a >>> (w - p.length) = p.addr >>> (w - p.length)

/-- A route of a table. -/
structure Route (w : ℕ) (ν : Type) where
  dst : Prefix w
  hop : ν
  deriving DecidableEq

/-- The route of the longest prefix, the first of them. -/
def lookup (routes : List (Route w ν)) (a : BitVec w) : Option (Route w ν) :=
  (routes.filter fun r => r.dst.covers a).argmax fun r => r.dst.length

theorem covers_of_length_eq_zero {p : Prefix w} (h : p.length = 0) (a : BitVec w) :
    p.covers a = true := by
  simp [Prefix.covers, h, BitVec.ushiftRight_eq_zero]

/-- A table that holds a default route, and nothing else, always gives it. -/
theorem lookup_default {r : Route w ν} (h : r.dst.length = 0) (a : BitVec w) :
    lookup [r] a = some r := by
  simp [lookup, covers_of_length_eq_zero h]

/-! ## Rules -/

/-- A rule that sends packets to a table. -/
structure Rule (w : ℕ) (τ : Type) where
  pref : ℕ
  mark : BitVec 32
  mask : BitVec 32
  table : τ
  /-- Answers of this prefix length, or shorter, are declined. -/
  suppress : Option ℕ

namespace Rule

/-- The kernel compares the marks under the mask. -/
def selects (r : Rule w τ) (mark : BitVec 32) : Bool := (mark ^^^ r.mark) &&& r.mask = 0

/-- What the rule answers to a packet that it selects. -/
def answer (tables : τ → List (Route w ν)) (a : BitVec w) (r : Rule w τ) : Option (Route w ν) :=
  (lookup (tables r.table) a).filter fun x => r.suppress.all (· < x.dst.length)

end Rule

/-- The first answer of the rules that select the packet. -/
def resolve (tables : τ → List (Route w ν)) (mark : BitVec 32) (a : BitVec w)
    (rules : List (Rule w τ)) : Option (Route w ν) :=
  rules.findSome? fun r => if r.selects mark then r.answer tables a else none

/-! ## One preference after another -/

theorem findSome?_eq_of_unique {α β : Type*} {f : α → Option β} {l : List α} {a : α} (ha : a ∈ l)
    (h : ∀ x ∈ l, x ≠ a → f x = none) : l.findSome? f = f a := by
  induction l with
  | nil => cases ha
  | cons x l ih =>
    rw [List.findSome?_cons]
    by_cases hx : x = a
    · subst hx
      cases hf : f x with
      | some b => rfl
      | none =>
        refine List.findSome?_eq_none_iff.mpr fun y hy => ?_
        by_cases hyx : y = x
        · exact hyx ▸ hf
        · exact h y (List.mem_cons_of_mem _ hy) hyx
    · rw [h x (List.mem_cons_self ..) hx]
      exact ih ((List.mem_cons.mp ha).resolve_left (Ne.symm hx))
        fun y hy => h y (List.mem_cons_of_mem _ hy)

theorem eq_append_of_sorted {α : Type*} {key : α → ℕ} {l : List α}
    (h : l.Pairwise fun x y => key x ≤ key y) (c : ℕ) :
    l = l.filter (fun x => key x < c) ++ l.filter (fun x => key x = c) ++
      l.filter (fun x => c < key x) := by
  induction l with
  | nil => rfl
  | cons x l ih =>
    obtain ⟨hx, hl⟩ := List.pairwise_cons.mp h
    have hnone {p : α → Bool} (hp : ∀ y ∈ l, p y = false) : l.filter p = [] :=
      List.filter_eq_nil_iff.mpr fun y hy => by simp [hp y hy]
    rcases Nat.lt_trichotomy (key x) c with hlt | heq | hgt
    · simp only [List.filter_cons, hlt, decide_true, if_true, Nat.ne_of_lt hlt, decide_false,
        Bool.false_eq_true, if_false, Nat.lt_asymm hlt, List.cons_append]
      exact congrArg _ (ih hl)
    · have hbelow : l.filter (fun y => key y < c) = [] :=
        hnone fun y hy => decide_eq_false (by have := hx y hy; omega)
      have hrest := ih hl
      rw [hbelow, List.nil_append] at hrest
      simp only [List.filter_cons, heq, Nat.lt_irrefl, decide_false, Bool.false_eq_true, if_false,
        decide_true, if_true, hbelow, List.nil_append, List.cons_append]
      exact congrArg _ hrest
    · have hbelow : l.filter (fun y => key y < c) = [] :=
        hnone fun y hy => decide_eq_false (by have := hx y hy; omega)
      have hat : l.filter (fun y => key y = c) = [] :=
        hnone fun y hy => decide_eq_false (by have := hx y hy; omega)
      have hrest := ih hl
      rw [hbelow, hat, List.nil_append, List.nil_append] at hrest
      simp only [List.filter_cons, Nat.lt_asymm hgt, (Nat.ne_of_lt hgt).symm, decide_false,
        Bool.false_eq_true, if_false, hgt, decide_true, if_true, hbelow, hat, List.nil_append]
      exact congrArg _ hrest

/-- **One value of the key after another**: the first answer is one from below a value, or else from
it, or else from above. -/
theorem findSome?_split {α β : Type*} {f : α → Option β} {key : α → ℕ} {l : List α}
    (h : l.Pairwise fun x y => key x ≤ key y) (c : ℕ) :
    l.findSome? f = (((l.filter fun x => key x < c).findSome? f).or
      ((l.filter fun x => key x = c).findSome? f)).or
        ((l.filter fun x => c < key x).findSome? f) := by
  conv_lhs => rw [eq_append_of_sorted h c]
  simp only [List.findSome?_append]

end PolicyRouting
