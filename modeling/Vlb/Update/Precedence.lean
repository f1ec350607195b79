import Vlb.Lib.SemVer
import Vlb.Update.Version

/-!
# The order of versions

The order that the updater computes, against the precedence of Semantic Versioning. A pre-release
identifier is a number to the updater when it fits into 64 bits.

* `Version.cmp_precedence`: the order is that of what is read.
* `lawful_iff`: when it agrees with equality, beside being a total preorder.
* `parse_tag`: what is read of a valid version.
* `isNewer_iff_lower`: when the newer of two is the one of higher precedence.
-/

namespace Vlb.Update

open Text Numerals

/-! ## What is read -/

/-- An identifier, as the comparison takes it. -/
def readIdentifier (cs : List Char) : SemVer.Identifier :=
  match fromStrRadix 64 10 cs with
  | some n => .numeric n
  | none => .alphanumeric cs

/-- The identifiers of a suffix. -/
def identifiers (pre : List Char) : List (List Char) := if pre.isEmpty then [] else pre.splitOn '.'

def Version.precedence (v : Version) : SemVer.Precedence where
  major := v.major
  minor := v.minor
  patch := v.patch
  pre := (identifiers v.pre).map readIdentifier

theorem compareIdentifier_read (x y : List Char) :
    compareIdentifier x y = SemVer.Identifier.cmp (readIdentifier x) (readIdentifier y) := by
  unfold compareIdentifier readIdentifier
  cases fromStrRadix 64 10 x <;> cases fromStrRadix 64 10 y <;> rfl

theorem compareIdentifiers_read (xs ys : List (List Char)) : compareIdentifiers xs ys =
    List.compareLex SemVer.Identifier.cmp (xs.map readIdentifier) (ys.map readIdentifier) := by
  induction xs generalizing ys with
  | nil => cases ys <;> rfl
  | cons x xs ih =>
    cases ys with
    | nil => rfl
    | cons y ys =>
      rw [compareIdentifiers, List.map_cons, List.map_cons, List.compareLex_cons_cons, ih,
        compareIdentifier_read]

theorem comparePre_read (a b : List Char) : comparePre a b =
    SemVer.cmpPre ((identifiers a).map readIdentifier) ((identifiers b).map readIdentifier) := by
  have hempty : ∀ cs : List Char, cs ≠ [] → ((cs.splitOn '.').map readIdentifier).isEmpty = false :=
    fun cs _ => by simp [List.splitOn_ne_nil]
  cases a with
  | nil =>
    cases b with
    | nil => rfl
    | cons d b => simp [comparePre, identifiers, SemVer.cmpPre, hempty]
  | cons c a =>
    cases b with
    | nil => simp [comparePre, identifiers, SemVer.cmpPre, hempty]
    | cons d b =>
      simp only [comparePre, comparePrerelease, identifiers, SemVer.cmpPre, List.isEmpty_cons,
        Bool.false_eq_true, if_false, hempty _ (List.cons_ne_nil _ _), compareIdentifiers_read]

/-- **The order is that of the precedences read.** -/
theorem Version.cmp_precedence (v w : Version) :
    v.cmp w = SemVer.Precedence.cmp v.precedence w.precedence := by
  rw [Version.cmp, comparePre_read]
  rfl

/-! ## Leading zeros -/

/-- The identifier is a number of 64 bits, perhaps with leading zeros. -/
def IsNumber (cs : List Char) : Prop := cs ≠ [] ∧ cs.all Char.isDigit = true ∧ value cs < 2 ^ 64

instance (cs : List Char) : Decidable (IsNumber cs) := inferInstanceAs (Decidable (_ ∧ _ ∧ _))

/-- A number without its leading zeros, and any other identifier as it is. -/
def withoutZeros (cs : List Char) : List Char :=
  if IsNumber cs then
    let digits := cs.dropWhile (· == '0')
    if digits.isEmpty then ['0'] else digits
  else cs

/-- The versions are written alike, up to leading zeros in the numbers of their suffixes. -/
def SameButZeros (v w : Version) : Prop :=
  v.major = w.major ∧ v.minor = w.minor ∧ v.patch = w.patch ∧
    (identifiers v.pre).map withoutZeros = (identifiers w.pre).map withoutZeros

instance (v w : Version) : Decidable (SameButZeros v w) :=
  inferInstanceAs (Decidable (_ ∧ _ ∧ _ ∧ _))

theorem fromStrRadix_eq {cs : List Char} (h : '+' ∉ cs) :
    fromStrRadix 64 10 cs = if IsNumber cs then some (value cs) else none := by
  have hhead : cs.head? ≠ some '+' := fun hhead => h (List.mem_of_head? hhead)
  rw [fromStrRadix, number_eq hhead]
  by_cases hdigits : cs ≠ [] ∧ cs.all Char.isDigit = true
  · rw [if_pos hdigits, Option.filter_some]
    by_cases hlt : value cs < 2 ^ 64
    · rw [if_pos (decide_eq_true hlt), if_pos ⟨hdigits.1, hdigits.2, hlt⟩]
    · rw [if_neg (by simpa using hlt), if_neg fun hnum => hlt hnum.2.2]
  · rw [if_neg hdigits, if_neg fun hnum => hdigits ⟨hnum.1, hnum.2.1⟩]
    rfl

theorem readIdentifier_of_isNumber {cs : List Char} (h : '+' ∉ cs) (hnum : IsNumber cs) :
    readIdentifier cs = .numeric (value cs) := by
  rw [readIdentifier, fromStrRadix_eq h, if_pos hnum]

theorem readIdentifier_of_not {cs : List Char} (h : '+' ∉ cs) (hnum : ¬ IsNumber cs) :
    readIdentifier cs = .alphanumeric cs := by
  rw [readIdentifier, fromStrRadix_eq h, if_neg hnum]

theorem withoutZeros_eq {cs : List Char} (h : '+' ∉ cs) :
    withoutZeros cs = (readIdentifier cs).text := by
  by_cases hnum : IsNumber cs
  · rw [withoutZeros, if_pos hnum, readIdentifier_of_isNumber h hnum, SemVer.Identifier.text,
      ← value_dropWhile_zero]
    have hdigits : (cs.dropWhile (· == '0')).all Char.isDigit = true :=
      List.all_eq_true.mpr fun c hc =>
        List.all_eq_true.mp hnum.2.1 c ((List.dropWhile_suffix _).subset hc)
    have hhead := List.head?_dropWhile_not (· == '0') cs
    cases hdrop : cs.dropWhile (· == '0') with
    | nil => rfl
    | cons c ds =>
      rw [hdrop] at hhead hdigits
      exact (toDigits_value hdigits (by simpa using hhead)).symm
  · rw [withoutZeros, if_neg hnum, readIdentifier_of_not h hnum]
    rfl

theorem readIdentifier_toDigits {n : ℕ} (h : n < 2 ^ 64) :
    readIdentifier (Nat.toDigits 10 n) = .numeric n := by
  rw [readIdentifier, fromStrRadix, number_toDigits, Option.filter_some, if_pos (decide_eq_true h)]

theorem readIdentifier_withoutZeros {cs : List Char} (h : '+' ∉ cs) :
    readIdentifier (withoutZeros cs) = readIdentifier cs := by
  by_cases hnum : IsNumber cs
  · rw [withoutZeros_eq h, readIdentifier_of_isNumber h hnum]
    exact readIdentifier_toDigits hnum.2.2
  · rw [withoutZeros, if_neg hnum]

/-! ## The laws -/

/-- What an order promises of three values, with one of the two that it compares first. -/
structure Lawful (a b c : Version) : Prop where
  refl : a.cmp a = .eq
  swap : a.cmp b = (b.cmp a).swap
  trans : (a.cmp b).isLE = true → (b.cmp c).isLE = true → (a.cmp c).isLE = true
  trans_lt : a.cmp b = .lt → b.cmp c = .lt → a.cmp c = .lt
  eq_iff : a.cmp b = .eq ↔ a = b

theorem plus_not_mem_pre {s : List Char} {v : Version} (h : Version.parse s = some v) :
    '+' ∉ v.pre := by
  unfold Version.parse at h
  simp only [Option.bind_eq_bind, Option.bind_eq_some_iff, Option.pure_def, Option.some.injEq] at h
  obtain ⟨major, -, minor, -, patch, -, rfl⟩ := h
  generalize hcut : (((trim s).dropWhile (· == 'v')).dropWhile (· == 'V')).takeWhile
    (fun c => decide (c ≠ '+')) = cut
  have hplus : '+' ∉ cut := fun hmem => by
    rw [← hcut] at hmem
    exact absurd (List.mem_takeWhile_imp hmem) (by decide)
  change '+' ∉ ((splitOnce '-' cut).getD (cut, [])).2
  cases hsplit : splitOnce '-' cut with
  | none => exact List.not_mem_nil
  | some parts =>
    intro hmem
    rw [splitOnce_eq_some hsplit] at hplus
    exact hplus (List.mem_append_right _ (List.mem_cons_of_mem _ hmem))

theorem dotted_identifiers (pre : List Char) : SemVer.dotted (identifiers pre) = pre := by
  unfold identifiers
  split_ifs with hempty
  · exact (List.isEmpty_iff.mp hempty).symm
  · exact List.intercalate_splitOn '.'

theorem plus_not_mem_identifiers {pre cs : List Char} (h : '+' ∉ pre) (hcs : cs ∈ identifiers pre) :
    '+' ∉ cs := fun hmem =>
  h (dotted_identifiers pre ▸ Text.mem_intercalate_of_mem hcs hmem)

theorem map_readIdentifier_inj {xs ys : List (List Char)} (hxs : ∀ x ∈ xs, '+' ∉ x)
    (hys : ∀ y ∈ ys, '+' ∉ y) : xs.map readIdentifier = ys.map readIdentifier ↔
      xs.map withoutZeros = ys.map withoutZeros := by
  have hwithout {zs : List (List Char)} (hzs : ∀ z ∈ zs, '+' ∉ z) :
      zs.map withoutZeros = (zs.map readIdentifier).map SemVer.Identifier.text := by
    rw [List.map_map]
    exact List.map_congr_left fun z hz => withoutZeros_eq (hzs z hz)
  have hread {zs : List (List Char)} (hzs : ∀ z ∈ zs, '+' ∉ z) :
      zs.map readIdentifier = (zs.map withoutZeros).map readIdentifier := by
    rw [List.map_map]
    exact List.map_congr_left fun z hz => (readIdentifier_withoutZeros (hzs z hz)).symm
  constructor
  · intro h
    rw [hwithout hxs, hwithout hys, h]
  · intro h
    rw [hread hxs, hread hys, h]

/-- Two parsed versions are equal to the order when leading zeros are all that they differ in. -/
theorem cmp_eq_eq_iff {s t : List Char} {v w : Version} (hv : Version.parse s = some v)
    (hw : Version.parse t = some w) : v.cmp w = .eq ↔ SameButZeros v w := by
  have hpre := map_readIdentifier_inj
    (fun x hx => plus_not_mem_identifiers (plus_not_mem_pre hv) hx)
    (fun y hy => plus_not_mem_identifiers (plus_not_mem_pre hw) hy)
  rw [Version.cmp_precedence, SemVer.Precedence.cmp_eq_eq_iff, SameButZeros, ← hpre]
  simp only [Version.precedence, SemVer.Precedence.mk.injEq]

/-- **The order of parsed versions is lawful where versions that differ do not differ in leading
zeros alone.** -/
theorem lawful_iff {s t : List Char} {a b : Version} (ha : Version.parse s = some a)
    (hb : Version.parse t = some b) (c : Version) :
    Lawful a b c ↔ (SameButZeros a b → a = b) := by
  have hrefl : ∀ v : Version, v.cmp v = .eq := fun v => by
    rw [Version.cmp_precedence, SemVer.Precedence.cmp_eq_eq_iff]
  constructor
  · intro h hsame
    exact h.eq_iff.mp ((cmp_eq_eq_iff ha hb).mpr hsame)
  · intro h
    refine ⟨hrefl a, (Version.cmp_swap b a).symm, ?_, ?_, ?_⟩
    · simp only [Version.cmp_precedence]
      exact SemVer.Precedence.cmp_trans
    · simp only [Version.cmp_precedence]
      exact Std.TransCmp.lt_trans
    · constructor
      · exact fun heq => h ((cmp_eq_eq_iff ha hb).mp heq)
      · rintro rfl
        exact hrefl a

/-- A candidate and its release. -/
theorem lawful_candidate : Lawful ⟨1, 0, 0, "rc.1".toList⟩ ⟨1, 0, 0, []⟩ ⟨1, 0, 1, []⟩ ↔
    (SameButZeros ⟨1, 0, 0, "rc.1".toList⟩ ⟨1, 0, 0, []⟩ →
      (⟨1, 0, 0, "rc.1".toList⟩ : Version) = ⟨1, 0, 0, []⟩) :=
  lawful_iff (s := "1.0.0-rc.1".toList) (t := "1.0.0".toList) (by decide +kernel)
    (by decide +kernel) ⟨1, 0, 1, []⟩

/-- **`1.0.0-01` and `1.0.0-1` are different and compare as equal.** -/
theorem not_lawful : ¬ ∀ (s t u : List Char) (a b c : Version), Version.parse s = some a →
    Version.parse t = some b → Version.parse u = some c → Lawful a b c := by
  intro hall
  have hparse : Version.parse "1.0.0-01".toList = some ⟨1, 0, 0, "01".toList⟩ := by decide +kernel
  have hparse' : Version.parse "1.0.0-1".toList = some ⟨1, 0, 0, "1".toList⟩ := by decide +kernel
  have hlaw := hall _ _ _ _ _ _ hparse hparse' hparse
  exact absurd (hlaw.eq_iff.mp (by decide +kernel)) (by decide +kernel)

/-! ## Valid versions -/

/-- A tag: the version, perhaps after a `v`. -/
def tag (lead : Bool) (v : SemVer.Version) : List Char := (if lead then ['v'] else []) ++ v.text

/-- The three numbers fit into 64 bits. -/
def Fits (p : SemVer.Precedence) : Prop := p.major < 2 ^ 64 ∧ p.minor < 2 ^ 64 ∧ p.patch < 2 ^ 64

instance (p : SemVer.Precedence) : Decidable (Fits p) := inferInstanceAs (Decidable (_ ∧ _ ∧ _))

/-- What the parser makes of a version. -/
def written (p : SemVer.Precedence) : Version := ⟨p.major, p.minor, p.patch, p.preText⟩

/-- The characters of versions. -/
def isTagChar (c : Char) : Bool := SemVer.isIdentifierChar c || c == '.' || c == '+'

theorem fromStrRadix_toDigits (n : ℕ) :
    fromStrRadix 64 10 (Nat.toDigits 10 n) = if n < 2 ^ 64 then some n else none := by
  rw [fromStrRadix, number_toDigits, Option.filter_some]
  simp only [decide_eq_true_eq]

theorem isIdentifierChar_digit {c : Char} (h : c.isDigit = true) : SemVer.isIdentifierChar c = true := by
  simp [SemVer.isIdentifierChar, Char.isAlphanum, h]

theorem digit_of_mem_toDigits {n : ℕ} {c : Char} (h : c ∈ Nat.toDigits 10 n) : c.isDigit = true :=
  Nat.isDigit_of_mem_toDigits (by decide) (by decide) h

/-- An identifier has one character at least, and only those of identifiers. -/
theorem text_valid {x : SemVer.Identifier} (h : x.Valid) :
    x.text ≠ [] ∧ ∀ c ∈ x.text, SemVer.isIdentifierChar c = true := by
  cases x with
  | numeric n => exact ⟨Nat.toDigits_ne_nil, fun c hc => isIdentifierChar_digit (digit_of_mem_toDigits hc)⟩
  | alphanumeric text =>
    obtain ⟨hchars, c, hc, -⟩ := h
    exact ⟨List.ne_nil_of_mem hc, hchars⟩

theorem coreText_char {p : SemVer.Precedence} {c : Char} (h : c ∈ p.coreText) :
    c.isDigit = true ∨ c = '.' := by
  simp only [SemVer.Precedence.coreText, List.mem_append, List.mem_cons] at h
  rcases h with ((h | h | h) | h | h)
  · exact Or.inl (digit_of_mem_toDigits h)
  · exact Or.inr h
  · exact Or.inl (digit_of_mem_toDigits h)
  · exact Or.inr h
  · exact Or.inl (digit_of_mem_toDigits h)

theorem text_char {v : SemVer.Version} {c : Char} (h : c ∈ v.text) : isTagChar c = true := by
  have hdot {ps : List (List Char)} (hps : ∀ p ∈ ps, ∀ c ∈ p, SemVer.isIdentifierChar c = true)
      (hc : c ∈ SemVer.dotted ps) : isTagChar c = true := by
    obtain rfl | ⟨p, hp, hc⟩ := SemVer.mem_dotted hc
    · rfl
    · simp [isTagChar, hps p hp c hc]
  rw [SemVer.Version.text, List.mem_append, List.mem_append] at h
  rcases h with (h | h) | h
  · obtain h | rfl := coreText_char h
    · simp [isTagChar, isIdentifierChar_digit h]
    · rfl
  · split_ifs at h
    · exact absurd h List.not_mem_nil
    · obtain rfl | h := List.mem_cons.mp h
      · rfl
      · refine hdot (fun p hp => ?_) h
        obtain ⟨x, hx, rfl⟩ := List.mem_map.mp hp
        exact (text_valid (v.pre_valid x hx)).2
  · split_ifs at h
    · exact absurd h List.not_mem_nil
    · obtain rfl | h := List.mem_cons.mp h
      · rfl
      · exact hdot (fun b hb => (v.build_valid b hb).2) h

theorem toNat_of_isAlphanum {c : Char} (h : c.isAlphanum = true) : c.toNat < 128 := by
  obtain h | h := Bool.or_eq_true_iff.mp h
  · obtain h | h := Bool.or_eq_true_iff.mp h
    · have hle : c.val ≤ 90 := (of_decide_eq_true h).2
      exact Nat.lt_of_le_of_lt (UInt32.le_iff_toNat_le.mp hle) (by decide)
    · have hle : c.val ≤ 122 := of_decide_eq_true (Bool.and_eq_true_iff.mp h).2
      exact Nat.lt_of_le_of_lt (UInt32.le_iff_toNat_le.mp hle) (by decide)
  · exact Nat.lt_of_le_of_lt (Char.isDigit_iff_toNat.mp h).2 (by decide)

theorem isTagChar_plain {c : Char} (h : isTagChar c = true) : isWhitespace c = false := by
  have hall : ∀ n < 128, isTagChar (Char.ofNat n) = true → isWhitespace (Char.ofNat n) = false := by
    decide +kernel
  have hascii : c.toNat < 128 := by
    simp only [isTagChar, SemVer.isIdentifierChar, Bool.or_eq_true, beq_iff_eq] at h
    rcases h with ((h | rfl) | rfl) | rfl
    · exact toNat_of_isAlphanum h
    all_goals decide
  have hplain := hall c.toNat hascii
  rw [Char.ofNat_toNat] at hplain
  exact hplain h

theorem stripped_tag (lead : Bool) (v : SemVer.Version) :
    ((trim (tag lead v)).dropWhile (· == 'v')).dropWhile (· == 'V') = v.text := by
  have hplain : ∀ c ∈ tag lead v, isWhitespace c = false := by
    intro c hc
    obtain hc | hc := List.mem_append.mp hc
    · cases lead
      · exact absurd hc List.not_mem_nil
      · obtain rfl := List.mem_singleton.mp hc
        decide
    · exact isTagChar_plain (text_char hc)
  have htrim := @trim_append_blanks (tag lead v) [] hplain fun c hc => absurd hc List.not_mem_nil
  obtain ⟨c, cs, hcs, hc⟩ : ∃ c cs, v.text = c :: cs ∧ c.isDigit = true := by
    obtain ⟨c, cs, hcs⟩ := List.exists_cons_of_ne_nil (Nat.toDigits_ne_nil (b := 10)
      (n := v.precedence.major))
    refine ⟨c, _, by rw [SemVer.Version.text, SemVer.Precedence.coreText, hcs]; rfl, ?_⟩
    exact digit_of_mem_toDigits (hcs ▸ List.mem_cons_self ..)
  have hv : (c == 'v') = false := by
    rw [beq_eq_false_iff_ne]
    rintro rfl
    cases hc
  have hV : (c == 'V') = false := by
    rw [beq_eq_false_iff_ne]
    rintro rfl
    cases hc
  rw [List.append_nil] at htrim
  rw [htrim, tag, hcs]
  cases lead <;> simp [hv, hV]

theorem not_mem_coreText {p : SemVer.Precedence} {c : Char} (hdigit : c.isDigit = false)
    (hdot : c ≠ '.') : c ∉ p.coreText := by
  intro h
  obtain h | h := coreText_char h
  · rw [hdigit] at h
    cases h
  · exact hdot h

theorem not_mem_preText {v : SemVer.Version} {c : Char} (hchar : SemVer.isIdentifierChar c = false)
    (hdot : c ≠ '.') : c ∉ v.precedence.preText := by
  intro h
  obtain h | ⟨p, hp, hc⟩ := SemVer.mem_dotted h
  · exact hdot h
  · obtain ⟨x, hx, rfl⟩ := List.mem_map.mp hp
    rw [(text_valid (v.pre_valid x hx)).2 c hc] at hchar
    cases hchar

theorem takeWhile_text (v : SemVer.Version) : v.text.takeWhile (· ≠ '+') = v.precedence.coreText ++
    (if v.precedence.pre = [] then [] else '-' :: v.precedence.preText) := by
  have hfront : ∀ c ∈ v.precedence.coreText ++
      (if v.precedence.pre = [] then [] else '-' :: v.precedence.preText),
      decide (c ≠ '+') = true := by
    intro c hc
    refine decide_eq_true ?_
    rintro rfl
    obtain hc | hc := List.mem_append.mp hc
    · exact not_mem_coreText (by decide) (by decide) hc
    · split_ifs at hc
      · exact absurd hc List.not_mem_nil
      · obtain hc | hc := List.mem_cons.mp hc
        · exact absurd hc (by decide)
        · exact not_mem_preText (by decide) (by decide) hc
  rw [SemVer.Version.text, List.takeWhile_append_of_pos hfront]
  split_ifs <;> simp

theorem splitOnce_text (p : SemVer.Precedence) :
    (splitOnce '-' (p.coreText ++ if p.pre = [] then [] else '-' :: p.preText)).getD
      (p.coreText ++ if p.pre = [] then [] else '-' :: p.preText, []) = (p.coreText, p.preText) := by
  have hcore : '-' ∉ p.coreText := not_mem_coreText (by decide) (by decide)
  by_cases hpre : p.pre = []
  · rw [if_pos hpre, List.append_nil, splitOnce_eq_none hcore, SemVer.Precedence.preText, hpre]
    rfl
  · rw [if_neg hpre, splitOnce_append hcore]
    rfl

theorem splitOn_coreText (p : SemVer.Precedence) : p.coreText.splitOn '.' =
    [Nat.toDigits 10 p.major, Nat.toDigits 10 p.minor, Nat.toDigits 10 p.patch] := by
  have hdot (n : ℕ) : '.' ∉ Nat.toDigits 10 n := Text.not_mem_toDigits (by decide)
  rw [SemVer.Precedence.coreText, List.append_assoc, List.cons_append,
    List.splitOn_append_cons_self_of_not_mem (hdot _),
    List.splitOn_append_cons_self_of_not_mem (hdot _), List.splitOn_eq_singleton (hdot _)]

/-- **What is read of a valid version**: its numbers and its suffix, where the numbers fit. -/
theorem parse_tag (lead : Bool) (v : SemVer.Version) : Version.parse (tag lead v) =
    if Fits v.precedence then some (written v.precedence) else none := by
  unfold Version.parse
  simp only [stripped_tag, takeWhile_text, splitOnce_text, splitOn_coreText]
  simp only [List.head?_cons, Option.bind_some, List.getD_cons_succ, List.getD_cons_zero,
    fromStrRadix_toDigits]
  by_cases hfits : Fits v.precedence
  · obtain ⟨hmajor, hminor, hpatch⟩ := hfits
    rw [if_pos hmajor, if_pos hminor, if_pos hpatch, if_pos ⟨hmajor, hminor, hpatch⟩]
    rfl
  · rw [if_neg hfits]
    by_cases hmajor : v.precedence.major < 2 ^ 64
    · rw [if_pos hmajor]
      by_cases hminor : v.precedence.minor < 2 ^ 64
      · have hpatch : ¬ v.precedence.patch < 2 ^ 64 := fun h => hfits ⟨hmajor, hminor, h⟩
        rw [if_pos hminor, if_neg hpatch]
        rfl
      · rw [if_neg hminor]
        rfl
    · rw [if_neg hmajor]
      rfl

/-! ## The newer of two -/

/-- An identifier, as the comparison takes the text that it is written as. -/
def taken : SemVer.Identifier → SemVer.Identifier
  | .numeric n => if n < 2 ^ 64 then .numeric n else .alphanumeric (Nat.toDigits 10 n)
  | .alphanumeric text => .alphanumeric text

/-- The identifier is compared as a text: it is none that fits into 64 bits. -/
def TakenAsText : SemVer.Identifier → Prop
  | .numeric n => 2 ^ 64 ≤ n
  | .alphanumeric _ => True

/-- Two identifiers that are compared as texts, while their texts are not in the order of their
precedence. One of them at least is a number of more than 64 bits. -/
def Misordered (x y : SemVer.Identifier) : Prop :=
  TakenAsText x ∧ TakenAsText y ∧ List.compareLex compare x.text y.text ≠ x.cmp y

/-- The first identifiers that differ. -/
def firstDifference : List SemVer.Identifier → List SemVer.Identifier →
    Option (SemVer.Identifier × SemVer.Identifier)
  | x :: xs, y :: ys => if x = y then firstDifference xs ys else some (x, y)
  | _, _ => none

/-- The numbers of the two are equal, and the identifiers that decide are misordered. -/
def DecidedWrongly (a b : SemVer.Precedence) : Prop :=
  a.major = b.major ∧ a.minor = b.minor ∧ a.patch = b.patch ∧
    ∃ x y, firstDifference a.pre b.pre = some (x, y) ∧ Misordered x y

theorem readIdentifier_text {x : SemVer.Identifier} (h : x.Valid) :
    readIdentifier x.text = taken x := by
  cases x with
  | numeric n =>
    rw [SemVer.Identifier.text, taken, readIdentifier, fromStrRadix_toDigits]
    split_ifs <;> rfl
  | alphanumeric text =>
    obtain ⟨hchars, c, hc, hdigit⟩ := h
    have hplus : '+' ∉ text := fun hmem => absurd (hchars _ hmem) (by decide)
    refine readIdentifier_of_not hplus fun hnum => ?_
    rw [List.all_eq_true.mp hnum.2.1 c hc] at hdigit
    cases hdigit

theorem taken_of_text {x : SemVer.Identifier} (h : TakenAsText x) :
    taken x = .alphanumeric x.text := by
  cases x with
  | numeric n => exact if_neg (Nat.not_lt.mpr h)
  | alphanumeric text => rfl

theorem taken_of_number {x : SemVer.Identifier} (h : ¬ TakenAsText x) :
    ∃ n < 2 ^ 64, x = .numeric n ∧ taken x = .numeric n := by
  cases x with
  | numeric n =>
    have hlt : n < 2 ^ 64 := Nat.not_le.mp h
    exact ⟨n, hlt, rfl, if_pos hlt⟩
  | alphanumeric text => exact absurd trivial h

theorem cmp_number_text {x : SemVer.Identifier} (h : TakenAsText x) {n : ℕ} (hn : n < 2 ^ 64) :
    SemVer.Identifier.cmp (.numeric n) x = .lt := by
  cases x with
  | numeric m => exact Nat.compare_eq_lt.mpr (Nat.lt_of_lt_of_le hn h)
  | alphanumeric text => rfl

theorem cmp_text_number {x : SemVer.Identifier} (h : TakenAsText x) {n : ℕ} (hn : n < 2 ^ 64) :
    x.cmp (.numeric n) = .gt := by
  rw [@Std.OrientedCmp.eq_swap _ SemVer.Identifier.cmp, cmp_number_text h hn]
  rfl

theorem cmp_taken_iff (x y : SemVer.Identifier) :
    (taken x).cmp (taken y) = x.cmp y ↔ ¬ Misordered x y := by
  by_cases hx : TakenAsText x
  · by_cases hy : TakenAsText y
    · rw [taken_of_text hx, taken_of_text hy, SemVer.Identifier.cmp]
      simp only [Misordered, hx, hy, true_and, ne_eq, not_not]
    · obtain ⟨n, hn, rfl, htaken⟩ := taken_of_number hy
      rw [taken_of_text hx, htaken, cmp_text_number hx hn]
      exact iff_of_true rfl fun h => hy h.2.1
  · obtain ⟨m, hm, rfl, htaken⟩ := taken_of_number hx
    refine iff_of_true ?_ fun h => hx h.1
    rw [htaken]
    by_cases hy : TakenAsText y
    · rw [taken_of_text hy, cmp_number_text hy hm]
      rfl
    · obtain ⟨n, hn, rfl, htaken'⟩ := taken_of_number hy
      rw [htaken']

theorem identifiers_preText (v : SemVer.Version) :
    identifiers v.precedence.preText = v.precedence.pre.map SemVer.Identifier.text := by
  by_cases hpre : v.precedence.pre = []
  · rw [SemVer.Precedence.preText, hpre]
    rfl
  · have hne : v.precedence.pre.map SemVer.Identifier.text ≠ [] := by simpa using hpre
    have hdot : ∀ l ∈ v.precedence.pre.map SemVer.Identifier.text, '.' ∉ l := by
      intro l hl hmem
      obtain ⟨x, hx, rfl⟩ := List.mem_map.mp hl
      exact absurd ((text_valid (v.pre_valid x hx)).2 '.' hmem) (by decide)
    have hempty : v.precedence.preText.isEmpty = false := by
      obtain ⟨x, xs, hxs⟩ := List.exists_cons_of_ne_nil hpre
      have hx : x ∈ v.precedence.pre := hxs ▸ List.mem_cons_self ..
      obtain ⟨c, cs, hcs⟩ := List.exists_cons_of_ne_nil (text_valid (v.pre_valid x hx)).1
      have hmem : c ∈ v.precedence.preText := Text.mem_intercalate_of_mem
        (List.mem_map_of_mem hx) (hcs ▸ List.mem_cons_self ..)
      exact List.isEmpty_eq_false_iff.mpr (List.ne_nil_of_mem hmem)
    rw [identifiers, hempty, if_neg Bool.false_ne_true]
    exact List.splitOn_intercalate '.' hdot hne

theorem precedence_written (v : SemVer.Version) : (written v.precedence).precedence =
    { v.precedence with pre := v.precedence.pre.map taken } := by
  have hpre : (identifiers v.precedence.preText).map readIdentifier = v.precedence.pre.map taken := by
    rw [identifiers_preText, List.map_map]
    exact List.map_congr_left fun x hx => readIdentifier_text (v.pre_valid x hx)
  simp only [Version.precedence, written, hpre]

theorem compareLex_taken {xs ys : List SemVer.Identifier}
    (h : ∀ x y, firstDifference xs ys = some (x, y) → ¬ Misordered x y) :
    List.compareLex SemVer.Identifier.cmp (xs.map taken) (ys.map taken) =
      List.compareLex SemVer.Identifier.cmp xs ys := by
  induction xs generalizing ys with
  | nil => cases ys <;> rfl
  | cons x xs ih =>
    cases ys with
    | nil => rfl
    | cons y ys =>
      rw [List.map_cons, List.map_cons, List.compareLex_cons_cons, List.compareLex_cons_cons]
      by_cases hxy : x = y
      · subst hxy
        rw [firstDifference, if_pos rfl] at h
        have hself : ∀ z : SemVer.Identifier, z.cmp z = .eq := fun _ => Std.ReflCmp.compare_self
        rw [ih h, hself, hself]
      · -- the two differ here, so what follows them does not count
        rw [firstDifference, if_neg hxy] at h
        have hne : x.cmp y ≠ .eq := mt Std.LawfulEqCmp.eq_of_compare hxy
        rw [(cmp_taken_iff x y).mpr (h x y rfl)]
        cases hcmp : x.cmp y
        · rfl
        · exact absurd hcmp hne
        · rfl

theorem cmpPre_taken {xs ys : List SemVer.Identifier}
    (h : ∀ x y, firstDifference xs ys = some (x, y) → ¬ Misordered x y) :
    SemVer.cmpPre (xs.map taken) (ys.map taken) = SemVer.cmpPre xs ys := by
  cases xs with
  | nil => cases ys <;> rfl
  | cons x xs =>
    cases ys with
    | nil => rfl
    | cons y ys => exact compareLex_taken h

theorem cmp_written {a b : SemVer.Version} (h : ¬ DecidedWrongly a.precedence b.precedence) :
    (written a.precedence).cmp (written b.precedence) = a.precedence.cmp b.precedence := by
  rw [Version.cmp_precedence, precedence_written, precedence_written]
  simp only [SemVer.Precedence.cmp]
  cases hmajor : compare a.precedence.major b.precedence.major with
  | lt | gt => rfl
  | eq =>
    cases hminor : compare a.precedence.minor b.precedence.minor with
    | lt | gt => rfl
    | eq =>
      cases hpatch : compare a.precedence.patch b.precedence.patch with
      | lt | gt => rfl
      | eq =>
        rw [Nat.compare_eq_eq] at hmajor hminor hpatch
        rw [cmpPre_taken fun x y hxy hmis => h ⟨hmajor, hminor, hpatch, x, y, hxy, hmis⟩]

/-- **The newer of two valid versions is the one of higher precedence**, where the numbers of both
fit into 64 bits and the two are not decided by identifiers that are misordered. -/
theorem isNewer_iff_lower (a b : SemVer.Version) (lead lead' : Bool)
    (h : ¬ DecidedWrongly a.precedence b.precedence) :
    isNewer (tag lead a) (tag lead' b) = true ↔
      Fits a.precedence ∧ Fits b.precedence ∧ b.precedence.Lower a.precedence := by
  rw [isNewer_iff, parse_tag, parse_tag, ← SemVer.Precedence.cmp_eq_lt_iff,
    ← SemVer.Precedence.cmp_swap, ← cmp_written h]
  constructor
  · rintro ⟨c, cur, hc, hcur, hgt⟩
    split_ifs at hc hcur with ha hb
    cases hc
    cases hcur
    exact ⟨ha, hb, by rw [hgt]; rfl⟩
  · rintro ⟨ha, hb, hlt⟩
    refine ⟨_, _, if_pos ha, if_pos hb, ?_⟩
    rwa [Ordering.swap_eq_lt] at hlt

example : isNewer "1.0.0-20000000000000000000".toList "1.0.0-100000000000000000000".toList = true := by
  decide +kernel

/-- The version that is three numbers. -/
def release (major minor patch : ℕ) : SemVer.Version where
  precedence := ⟨major, minor, patch, []⟩
  build := []
  pre_valid := fun _ hx => absurd hx List.not_mem_nil
  build_valid := fun _ hb => absurd hb List.not_mem_nil

/-- A candidate for a release. -/
def candidate (n : ℕ) : SemVer.Version where
  precedence := ⟨1, 0, 0, [.alphanumeric "rc".toList, .numeric n]⟩
  build := []
  pre_valid := by
    have htext : ∀ c ∈ "rc".toList, SemVer.isIdentifierChar c = true := List.all_eq_true.mp rfl
    simp only [List.forall_mem_cons]
    exact ⟨⟨htext, 'r', by decide, by decide⟩, trivial, fun _ hx => absurd hx List.not_mem_nil⟩
  build_valid := fun _ hb => absurd hb List.not_mem_nil

/-- As texts, the two are the other way round. -/
theorem isNewer_iff_lower_candidates :
    isNewer (tag true (candidate 10)) (tag false (candidate 9)) = true ↔
      Fits (candidate 10).precedence ∧ Fits (candidate 9).precedence ∧
        (candidate 9).precedence.Lower (candidate 10).precedence := by
  refine isNewer_iff_lower (candidate 10) (candidate 9) true false ?_
  rintro ⟨-, -, -, x, y, hxy, hmis⟩
  cases hxy
  exact absurd (show 2 ^ 64 ≤ 10 from hmis.1) (by decide)

/-- **A number of more than 64 bits is no version**, so it is newer than nothing. -/
theorem not_isNewer_iff : ¬ ∀ (a b : SemVer.Version) (lead lead' : Bool),
    isNewer (tag lead a) (tag lead' b) = true ↔ b.precedence.Lower a.precedence := by
  intro hall
  have hnew := (hall (release (2 ^ 64) 0 0) (release 1 0 0) false false).mpr
    (Or.inl (by decide))
  obtain ⟨c, cur, hc, -⟩ := isNewer_iff.mp hnew
  rw [parse_tag, if_neg fun hfits => absurd hfits.1 (by decide)] at hc
  cases hc

end Vlb.Update
