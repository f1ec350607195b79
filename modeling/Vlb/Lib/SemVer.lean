import Vlb.Lib.Lexicographic

/-!
# Semantic versions

The versions of Semantic Versioning 2.0.0, as values that cannot be malformed, with the precedence of
its section 11.

* `Version`, `Version.text`: a version, and how it is written.
* `Precedence.Lower`: the order, as the clauses of the standard have it.
* `Precedence.cmp`: the order, computed.
* `Precedence.cmp_eq_lt_iff`, `Precedence.cmp_trans`: the two are the same, and a linear order.
-/

namespace SemVer

open Lexicographic

/-! ## Identifiers -/

/-- An identifier of a pre-release. -/
inductive Identifier
  | numeric (n : ℕ)
  | alphanumeric (text : List Char)
  deriving DecidableEq

namespace Identifier

/-- Numbers are in their order and below every text; texts are in the order of their characters. -/
inductive Lower : Identifier → Identifier → Prop
  | numeric {m n : ℕ} (h : m < n) : Lower (.numeric m) (.numeric n)
  | mixed (n : ℕ) (text : List Char) : Lower (.numeric n) (.alphanumeric text)
  | alphanumeric {x y : List Char} (h : List.Lex (· < ·) x y) :
    Lower (.alphanumeric x) (.alphanumeric y)

/-- Numbers are below texts. -/
def cmp : Identifier → Identifier → Ordering
  | .numeric m, .numeric n => compare m n
  | .numeric _, .alphanumeric _ => .lt
  | .alphanumeric _, .numeric _ => .gt
  | .alphanumeric x, .alphanumeric y => List.compareLex compare x y

theorem cmp_eq_lt_iff {x y : Identifier} : cmp x y = .lt ↔ Lower x y := by
  cases x with
  | numeric m =>
    cases y with
    | numeric n =>
      rw [cmp, Nat.compare_eq_lt]
      constructor
      · exact Lower.numeric
      · rintro (h | -)
        exact h
    | alphanumeric text => exact iff_of_true rfl (.mixed m text)
  | alphanumeric text =>
    cases y with
    | numeric n => exact iff_of_false Ordering.noConfusion nofun
    | alphanumeric text' =>
      have hchar : ∀ c d : Char, compare c d = .lt ↔ c < d := fun c d => by
        rw [compare_toNat, Nat.compare_eq_lt]
        rfl
      rw [cmp, compareLex_eq_lt_iff]
      simp only [hchar]
      constructor
      · exact Lower.alphanumeric
      · rintro (_ | _ | h)
        exact h

instance : Std.OrientedCmp cmp where
  eq_swap {x y} := by
    cases x <;> cases y
    · exact @Std.OrientedCmp.eq_swap _ compare _ _ _
    · rfl
    · rfl
    · exact @Std.OrientedCmp.eq_swap _ (List.compareLex compare) _ _ _

instance : Std.TransCmp cmp where
  isLE_trans {x y z} hxy hyz := by
    cases x with
    | numeric m =>
      cases z with
      | alphanumeric text => rfl
      | numeric n =>
        cases y with
        | numeric k => exact @Std.TransCmp.isLE_trans _ compare _ _ _ _ hxy hyz
        | alphanumeric text => cases hyz
    | alphanumeric text =>
      cases y with
      | numeric k => cases hxy
      | alphanumeric text' =>
        cases z with
        | numeric n => cases hyz
        | alphanumeric text'' =>
          exact @Std.TransCmp.isLE_trans _ (List.compareLex compare) _ _ _ _ hxy hyz

instance : Std.LawfulEqCmp cmp where
  eq_of_compare {x y} h := by
    cases x <;> cases y
    · exact congrArg _ (@Std.LawfulEqCmp.eq_of_compare _ compare _ _ _ h)
    · cases h
    · cases h
    · exact congrArg _ (@Std.LawfulEqCmp.eq_of_compare _ (List.compareLex compare) _ _ _ h)

end Identifier

/-! ## Precedence -/

/-- What precedence depends on. No identifiers stand for a release. -/
structure Precedence where
  major : ℕ
  minor : ℕ
  patch : ℕ
  pre : List Identifier
  deriving DecidableEq

/-- A pre-release is below its release; of two, the first identifiers that differ decide, and of two
that agree as far as they go the shorter is below. -/
inductive PreLower : List Identifier → List Identifier → Prop
  | release (x : Identifier) (xs : List Identifier) : PreLower (x :: xs) []
  | identifiers {x : Identifier} {xs ys : List Identifier} (h : List.Lex Identifier.Lower (x :: xs) ys) :
    PreLower (x :: xs) ys

/-- The comparison of two pre-releases. -/
def cmpPre (xs ys : List Identifier) : Ordering :=
  match xs.isEmpty, ys.isEmpty with
  | true, true => .eq
  | true, false => .gt
  | false, true => .lt
  | false, false => List.compareLex Identifier.cmp xs ys

theorem cmpPre_eq_lt_iff {xs ys : List Identifier} : cmpPre xs ys = .lt ↔ PreLower xs ys := by
  cases xs with
  | nil => cases ys <;> exact iff_of_false Ordering.noConfusion nofun
  | cons x xs =>
    cases ys with
    | nil => exact iff_of_true rfl (.release x xs)
    | cons y ys =>
      have hlex : cmpPre (x :: xs) (y :: ys) = List.compareLex Identifier.cmp (x :: xs) (y :: ys) :=
        rfl
      rw [hlex, compareLex_eq_lt_iff]
      simp only [Identifier.cmp_eq_lt_iff]
      constructor
      · exact PreLower.identifiers
      · rintro (_ | h)
        exact h

instance : Std.OrientedCmp cmpPre where
  eq_swap {xs ys} := by
    cases xs <;> cases ys
    · rfl
    · rfl
    · rfl
    · exact @Std.OrientedCmp.eq_swap _ (List.compareLex Identifier.cmp) _ _ _

instance : Std.TransCmp cmpPre where
  isLE_trans {xs ys zs} hxy hyz := by
    cases xs with
    | nil =>
      cases ys with
      | nil => exact hyz
      | cons y ys => cases hxy
    | cons x xs =>
      cases zs with
      | nil => rfl
      | cons z zs =>
        cases ys with
        | nil => cases hyz
        | cons y ys => exact @Std.TransCmp.isLE_trans _ (List.compareLex Identifier.cmp) _ _ _ _ hxy hyz

instance : Std.LawfulEqCmp cmpPre where
  eq_of_compare {xs ys} h := by
    cases xs <;> cases ys
    · rfl
    · cases h
    · cases h
    · exact @Std.LawfulEqCmp.eq_of_compare _ (List.compareLex Identifier.cmp) _ _ _ h

namespace Precedence

/-- Section 11: major, minor and patch as numbers, and the pre-releases when they are equal. -/
def Lower (a b : Precedence) : Prop :=
  a.major < b.major ∨ a.major = b.major ∧ (a.minor < b.minor ∨ a.minor = b.minor ∧
    (a.patch < b.patch ∨ a.patch = b.patch ∧ PreLower a.pre b.pre))

def cmp (a b : Precedence) : Ordering :=
  (compare a.major b.major).then <| (compare a.minor b.minor).then <|
    (compare a.patch b.patch).then <| cmpPre a.pre b.pre

theorem cmp_eq_lt_iff {a b : Precedence} : cmp a b = .lt ↔ Lower a b := by
  simp only [cmp, Ordering.then_eq_lt, Nat.compare_eq_lt, Nat.compare_eq_eq, cmpPre_eq_lt_iff, Lower]

theorem cmp_eq_eq_iff {a b : Precedence} : cmp a b = .eq ↔ a = b := by
  simp only [cmp, Ordering.then_eq_eq, Std.LawfulEqCmp.compare_eq_iff_eq]
  constructor
  · rintro ⟨hmajor, hminor, hpatch, hpre⟩
    cases a
    cases b
    simp only at hmajor hminor hpatch hpre
    rw [hmajor, hminor, hpatch, hpre]
  · rintro rfl
    exact ⟨rfl, rfl, rfl, rfl⟩

instance : Std.TransCmp fun a b : Precedence => cmpPre a.pre b.pre where
  eq_swap {a b} := @Std.OrientedCmp.eq_swap _ cmpPre _ a.pre b.pre
  isLE_trans {a b c} hab hbc := @Std.TransCmp.isLE_trans _ cmpPre _ a.pre b.pre c.pre hab hbc

instance : Std.TransCmp cmp :=
  inferInstanceAs <| Std.TransCmp <| compareLex (compareOn major) <| compareLex (compareOn minor) <|
    compareLex (compareOn patch) fun a b => cmpPre a.pre b.pre

theorem cmp_swap (a b : Precedence) : (cmp a b).swap = cmp b a := Std.OrientedCmp.eq_swap.symm

theorem cmp_trans {a b c : Precedence} (hab : (cmp a b).isLE = true) (hbc : (cmp b c).isLE = true) :
    (cmp a c).isLE = true := Std.TransCmp.isLE_trans hab hbc

end Precedence

/-! ## Versions -/

/-- The characters of identifiers. -/
def isIdentifierChar (c : Char) : Bool := c.isAlphanum || c == '-'

namespace Identifier

/-- What is no number has a character that is no digit. -/
def Valid : Identifier → Prop
  | .numeric _ => True
  | .alphanumeric text =>
    (∀ c ∈ text, isIdentifierChar c = true) ∧ ∃ c ∈ text, c.isDigit = false

/-- Numbers are written without leading zeros. -/
def text : Identifier → List Char
  | .numeric n => Nat.toDigits 10 n
  | .alphanumeric text => text

end Identifier

/-- A version. No identifiers stand for no suffix. -/
structure Version where
  precedence : Precedence
  build : List (List Char)
  pre_valid : ∀ x ∈ precedence.pre, x.Valid
  build_valid : ∀ b ∈ build, b ≠ [] ∧ ∀ c ∈ b, isIdentifierChar c = true

/-- Identifiers with dots between them. -/
def dotted (parts : List (List Char)) : List Char := ['.'].intercalate parts

theorem mem_dotted {parts : List (List Char)} {c : Char} (h : c ∈ dotted parts) :
    c = '.' ∨ ∃ p ∈ parts, c ∈ p := by
  obtain hdot | hpart := Text.mem_intercalate h
  · exact Or.inl (List.mem_singleton.mp hdot)
  · exact Or.inr hpart

/-- The three numbers. -/
def Precedence.coreText (p : Precedence) : List Char :=
  Nat.toDigits 10 p.major ++ '.' :: Nat.toDigits 10 p.minor ++ '.' :: Nat.toDigits 10 p.patch

/-- The suffix. -/
def Precedence.preText (p : Precedence) : List Char := dotted (p.pre.map Identifier.text)

/-- The version as it is written. -/
def Version.text (v : Version) : List Char :=
  v.precedence.coreText ++
    (if v.precedence.pre = [] then [] else '-' :: v.precedence.preText) ++
    (if v.build = [] then [] else '+' :: dotted v.build)

end SemVer
