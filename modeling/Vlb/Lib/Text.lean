import Mathlib.Data.List.DropRight
import Mathlib.Data.List.Infix
import Mathlib.Data.String.Basic
import Mathlib.Tactic.Common

/-!
# Text as Rust sees it

The parts of Rust's `char` and `str` that the program's checks and parsers use. A `&str` being
parsed is its list of characters.

* `isWhitespace`: the Unicode property `White_Space`, which is what `char::is_whitespace` tests.
* `trim`, `words`, `splitOnce`, `rsplitOnce`, `hexString`: `str::trim`, `str::split_whitespace`,
  `str::split_once`, `str::rsplit_once` and the format `{:#x}`.
* `splitOnce_append`, `rsplitOnce_append`, `getLast?_trim`: how a text splits, and where a trimmed one
  ends.
* `number`: the number that an integer parser reads, before it is checked against the type
  (`number_toDigits`).
* `contains`, `lines`: `str::contains` and `str::lines`, with what is read of printed lines
  (`lines_printed`).
* `fromUtf8`: `str::from_utf8`, which splits at an ASCII byte (`fromUtf8_append_ascii`).
* `utf8`: the bytes of a text, `str::as_bytes`, from which it is read again (`fromUtf8_utf8`).
* `readLine`: `read_line` from a stream that is cut off; `readLine_of_fits`, `readLine_of_le`.
-/

namespace Text

/-- `char::is_whitespace`. -/
def isWhitespace (c : Char) : Bool :=
  let n := c.toNat
  (9 ≤ n && n ≤ 13) || n == 0x20 || n == 0x85 || n == 0xa0 || n == 0x1680 ||
    (0x2000 ≤ n && n ≤ 0x200a) || n == 0x2028 || n == 0x2029 || n == 0x202f || n == 0x205f ||
    n == 0x3000

/-- `str::trim_start`. -/
def trimStart (cs : List Char) : List Char := cs.dropWhile isWhitespace

/-- `str::trim_end`. -/
def trimEnd (cs : List Char) : List Char := cs.rdropWhile isWhitespace

/-- `str::trim`. -/
def trim (cs : List Char) : List Char := trimEnd (trimStart cs)

/-- `str::split_whitespace`. -/
def words (cs : List Char) : List (List Char) :=
  (cs.splitOnP isWhitespace).filter fun w => !w.isEmpty

/-- `str::split_once`, for a character. -/
def splitOnce (sep : Char) (cs : List Char) : Option (List Char × List Char) :=
  match cs.span (· ≠ sep) with
  | (_, []) => none
  | (before, _ :: after) => some (before, after)

/-- `str::rsplit_once`, for a character. -/
def rsplitOnce (sep : Char) (cs : List Char) : Option (List Char × List Char) :=
  (splitOnce sep cs.reverse).map fun (after, before) => (before.reverse, after.reverse)

/-- `str::strip_prefix`. -/
def stripPrefix (pre cs : List Char) : Option (List Char) :=
  if pre.isPrefixOf cs then some (cs.drop pre.length) else none

/-- `str::to_ascii_lowercase`. -/
def toAsciiLowercase (cs : List Char) : List Char := cs.map Char.toLower

/-- `str::contains`. -/
def contains (pat cs : List Char) : Bool := cs.tails.any pat.isPrefixOf

theorem contains_iff {pat cs : List Char} : contains pat cs = true ↔ pat <:+: cs := by
  simp only [contains, List.any_eq_true, List.mem_tails, List.isPrefixOf_iff_prefix,
    List.infix_iff_prefix_suffix]
  constructor
  · rintro ⟨t, hsuffix, hprefix⟩
    exact ⟨t, hprefix, hsuffix⟩
  · rintro ⟨t, hprefix, hsuffix⟩
    exact ⟨t, hsuffix, hprefix⟩

/-! ## Lines -/

/-- Without the carriage return before a line feed. -/
def stripReturn (line : List Char) : List Char :=
  if line.getLast? = some '\r' then line.dropLast else line

/-- `str::lines`. -/
def lines (cs : List Char) : List (List Char) :=
  let pieces := cs.splitOn '\n'
  pieces.dropLast.map stripReturn ++ pieces.getLast?.toList.filter fun last => !last.isEmpty

/-- What `println!` writes for each of the texts. -/
def printed (texts : List (List Char)) : List Char := texts.flatMap fun l => l ++ ['\n']

theorem lines_cons {l rest : List Char} (h : '\n' ∉ l) :
    lines (l ++ '\n' :: rest) = stripReturn l :: lines rest := by
  have hne : rest.splitOn '\n' ≠ [] := List.splitOn_ne_nil _ _
  simp only [lines, List.splitOn_append_cons_self, List.splitOn_eq_singleton h,
    List.cons_append, List.nil_append, List.dropLast_cons_of_ne_nil hne, List.map_cons,
    List.getLast?_cons_of_ne_nil hne]

/-- **What is printed line by line is read line by line.** -/
theorem lines_printed {texts : List (List Char)} (h : ∀ l ∈ texts, '\n' ∉ l) :
    lines (printed texts) = texts.map stripReturn := by
  induction texts with
  | nil => rfl
  | cons l texts ih =>
    have hsplit : printed (l :: texts) = l ++ '\n' :: printed texts := by
      simp [printed]
    rw [hsplit, lines_cons (h l List.mem_cons_self),
      ih fun l' hl' => h l' (List.mem_cons_of_mem _ hl'), List.map_cons]

theorem contains_stripReturn {pat line : List Char} (hne : pat ≠ []) (hpat : '\r' ∉ pat) :
    contains pat (stripReturn line) = contains pat line := by
  unfold stripReturn
  split_ifs with hlast
  · obtain ⟨init, rfl⟩ := List.getLast?_eq_some_iff.mp hlast
    rw [List.dropLast_concat, Bool.eq_iff_iff, contains_iff, contains_iff, List.infix_concat_iff]
    have hsuffix : ¬ pat <:+ init ++ ['\r'] := by
      intro h
      obtain rfl | ⟨front, rfl, -⟩ := List.suffix_concat_iff.mp h
      · exact hne rfl
      · simp at hpat
    exact (or_iff_right hsuffix).symm
  · rfl

theorem stripReturn_append {xs ys : List Char} (h : ys ≠ []) :
    stripReturn (xs ++ ys) = xs ++ stripReturn ys := by
  unfold stripReturn
  rw [List.getLast?_append_of_ne_nil _ h, List.dropLast_append_of_ne_nil h]
  split_ifs <;> rfl

theorem infix_printed {texts : List (List Char)} {l : List Char} (h : l ∈ texts) :
    l <:+: printed texts := by
  obtain ⟨front, back, rfl⟩ := List.append_of_mem h
  refine ⟨printed front, '\n' :: printed back, ?_⟩
  simp [printed]

/-- What a trimmed line starts with, it starts with after its first blanks. -/
theorem isPrefixOf_trim {pat line : List Char} (h : pat.isPrefixOf (trim line) = true) :
    pat <+: trimStart line :=
  (List.isPrefixOf_iff_prefix.mp h).trans (List.rdropWhile_prefix _ _)

/-! ## Joined texts -/

theorem mem_intercalate {sep : List Char} {ls : List (List Char)} {c : Char}
    (h : c ∈ sep.intercalate ls) : c ∈ sep ∨ ∃ l ∈ ls, c ∈ l := by
  induction ls with
  | nil => simp at h
  | cons l ls ih =>
    cases ls with
    | nil =>
      rw [List.intercalate_singleton] at h
      exact .inr ⟨l, List.mem_cons_self, h⟩
    | cons l' ls =>
      rw [List.intercalate_cons_cons, List.mem_append, List.mem_append] at h
      obtain (hl | hsep) | hrest := h
      · exact .inr ⟨l, List.mem_cons_self, hl⟩
      · exact .inl hsep
      · obtain hsep | ⟨m, hm, hc⟩ := ih hrest
        · exact .inl hsep
        · exact .inr ⟨m, List.mem_cons_of_mem _ hm, hc⟩

theorem mem_intercalate_of_mem {sep : List Char} {ls : List (List Char)} {l : List Char} {c : Char}
    (hl : l ∈ ls) (hc : c ∈ l) : c ∈ sep.intercalate ls := by
  induction ls with
  | nil => exact absurd hl List.not_mem_nil
  | cons l' ls ih =>
    cases ls with
    | nil =>
      obtain rfl := List.mem_singleton.mp hl
      rwa [List.intercalate_singleton]
    | cons m ls =>
      rw [List.intercalate_cons_cons, List.mem_append, List.mem_append]
      obtain rfl | hl := List.mem_cons.mp hl
      · exact .inl (.inl hc)
      · exact .inr (ih hl)

theorem intercalate_ends {P : Char → Prop} (sep : List Char) {ls : List (List Char)} (hne : ls ≠ [])
    (h : ∀ l ∈ ls, ∃ front c, l = front ++ [c] ∧ P c) :
    ∃ front c, sep.intercalate ls = front ++ [c] ∧ P c := by
  induction ls with
  | nil => exact absurd rfl hne
  | cons l ls ih =>
    cases ls with
    | nil =>
      rw [List.intercalate_singleton]
      exact h l List.mem_cons_self
    | cons l' ls =>
      obtain ⟨front, c, hends, hc⟩ := ih (List.cons_ne_nil _ _)
        fun m hm => h m (List.mem_cons_of_mem _ hm)
      refine ⟨l ++ sep ++ front, c, ?_, hc⟩
      rw [List.intercalate_cons_cons, hends, List.append_assoc]
      simp

theorem trim_eq_self (c : Char) (cs : List Char) {d : Char} (hc : isWhitespace c = false)
    (hd : isWhitespace d = false) : trim (c :: cs ++ [d]) = c :: cs ++ [d] := by
  have hstart : trimStart (c :: cs ++ [d]) = c :: cs ++ [d] := by
    rw [trimStart, List.cons_append, List.dropWhile_cons_of_neg (by simp [hc])]
  rw [trim, hstart, trimEnd, List.rdropWhile_concat_neg _ _ _ (by simp [hd])]

theorem trim_line (c : Char) (cs : List Char) {d : Char} (hc : isWhitespace c = false)
    (hd : isWhitespace d = false) : trim (c :: cs ++ [d] ++ ['\n']) = c :: cs ++ [d] := by
  have hstart : trimStart (c :: cs ++ [d] ++ ['\n']) = c :: cs ++ [d] ++ ['\n'] := by
    rw [trimStart, List.cons_append, List.cons_append, List.dropWhile_cons_of_neg (by simp [hc])]
  rw [trim, hstart, trimEnd, List.rdropWhile_concat_pos _ _ _ (by decide),
    List.rdropWhile_concat_neg _ _ _ (by simp [hd])]

theorem trim_append_blanks {cs blanks : List Char} (hcs : ∀ c ∈ cs, isWhitespace c = false)
    (hblanks : ∀ c ∈ blanks, isWhitespace c = true) : trim (cs ++ blanks) = cs := by
  have hend : trimEnd (cs ++ blanks) = cs := by
    rw [trimEnd, List.rdropWhile, List.reverse_append,
      List.dropWhile_append_of_pos fun c hc => hblanks c (List.mem_reverse.mp hc)]
    have hself : cs.reverse.dropWhile isWhitespace = cs.reverse := by
      refine List.dropWhile_eq_self_iff.mpr fun hpos => ?_
      rw [hcs _ (List.mem_reverse.mp (List.getElem_mem hpos))]
      exact Bool.false_ne_true
    rw [hself, List.reverse_reverse]
  rcases cs with _ | ⟨c, cs⟩
  · have hstart : trimStart blanks = [] := List.dropWhile_eq_nil_iff.mpr hblanks
    rw [trim, List.nil_append, hstart]
    rfl
  · have hhead : isWhitespace c = false := hcs c List.mem_cons_self
    have hstart : trimStart (c :: cs ++ blanks) = c :: cs ++ blanks := by
      rw [trimStart, List.cons_append, List.dropWhile_cons_of_neg (by simp [hhead])]
    rw [trim, hstart, hend]

theorem getLast?_trim {cs : List Char} {c : Char} (h : (trim cs).getLast? = some c) :
    isWhitespace c = false := by
  have hne : trim cs ≠ [] := by
    intro hnil
    rw [hnil] at h
    cases h
  have hlast := List.rdropWhile_last_not isWhitespace (trimStart cs) hne
  rw [List.getLast?_eq_some_getLast hne, Option.some.injEq] at h
  rw [← h]
  exact Bool.eq_false_of_not_eq_true hlast

/-! ## Splitting -/

theorem splitOnce_append {sep : Char} {front : List Char} (h : sep ∉ front) (back : List Char) :
    splitOnce sep (front ++ sep :: back) = some (front, back) := by
  have hfront : ∀ c ∈ front, decide (c ≠ sep) = true := fun c hc =>
    decide_eq_true fun heq => h (heq ▸ hc)
  have hspan : (front ++ sep :: back).span (fun c => decide (c ≠ sep)) = (front, sep :: back) := by
    rw [List.span_eq_takeWhile_dropWhile, List.takeWhile_append_of_pos hfront,
      List.dropWhile_append_of_pos hfront]
    simp
  rw [splitOnce, hspan]

theorem splitOnce_eq_none {sep : Char} {cs : List Char} (h : sep ∉ cs) : splitOnce sep cs = none := by
  have hall : ∀ c ∈ cs, decide (c ≠ sep) = true := fun c hc =>
    decide_eq_true fun heq => h (heq ▸ hc)
  have hspan : cs.span (fun c => decide (c ≠ sep)) = (cs, []) := by
    rw [List.span_eq_takeWhile_dropWhile, List.takeWhile_eq_self_iff.mpr hall,
      List.dropWhile_eq_nil_iff.mpr hall]
  rw [splitOnce, hspan]

theorem splitOnce_eq_some {sep : Char} {cs front back : List Char}
    (h : splitOnce sep cs = some (front, back)) : cs = front ++ sep :: back := by
  unfold splitOnce at h
  rw [List.span_eq_takeWhile_dropWhile] at h
  split at h
  · cases h
  · rename_i before c after hspan
    obtain ⟨rfl, rfl⟩ := Prod.mk.inj (Option.some.inj h)
    obtain ⟨hfront, hback⟩ := Prod.mk.inj hspan
    have hsep : c = sep := by
      have hhead := List.head?_dropWhile_not (fun c => decide (c ≠ sep)) cs
      rw [hback] at hhead
      simpa using hhead
    calc cs = cs.takeWhile (fun c => decide (c ≠ sep)) ++ cs.dropWhile (fun c => decide (c ≠ sep)) :=
          List.takeWhile_append_dropWhile.symm
      _ = before ++ sep :: after := by rw [hfront, hback, hsep]

theorem rsplitOnce_append {sep : Char} {back : List Char} (h : sep ∉ back) (front : List Char) :
    rsplitOnce sep (front ++ sep :: back) = some (front, back) := by
  have hreverse : (front ++ sep :: back).reverse = back.reverse ++ sep :: front.reverse := by simp
  rw [rsplitOnce, hreverse, splitOnce_append (mt List.mem_reverse.mp h)]
  simp

theorem rsplitOnce_eq_none {sep : Char} {cs : List Char} (h : sep ∉ cs) :
    rsplitOnce sep cs = none := by
  rw [rsplitOnce, splitOnce_eq_none (mt List.mem_reverse.mp h)]
  rfl

theorem rsplitOnce_eq_some {sep : Char} {cs front back : List Char}
    (h : rsplitOnce sep cs = some (front, back)) : cs = front ++ sep :: back := by
  obtain ⟨⟨after, before⟩, hsplit, hparts⟩ := Option.map_eq_some_iff.mp h
  cases hparts
  rw [← List.reverse_reverse cs, splitOnce_eq_some hsplit]
  simp

theorem stripPrefix_eq_some {pre cs rest : List Char} (h : stripPrefix pre cs = some rest) :
    cs = pre ++ rest := by
  unfold stripPrefix at h
  split_ifs at h with hpre
  cases h
  obtain ⟨tail, rfl⟩ := List.isPrefixOf_iff_prefix.mp hpre
  rw [List.drop_left]

theorem stripPrefix_append (pre rest : List Char) : stripPrefix pre (pre ++ rest) = some rest := by
  rw [stripPrefix, if_pos (List.isPrefixOf_iff_prefix.mpr (List.prefix_append pre rest)),
    List.drop_left]

/-! ## Numbers -/

/-- The value of a digit, in a radix up to sixteen. -/
def digit? (radix : ℕ) (c : Char) : Option ℕ :=
  let value :=
    if '0' ≤ c ∧ c ≤ '9' then c.toNat - '0'.toNat
    else if 'a' ≤ c ∧ c ≤ 'f' then c.toNat - 'a'.toNat + 10
    else if 'A' ≤ c ∧ c ≤ 'F' then c.toNat - 'A'.toNat + 10
    else radix
  if value < radix then some value else none

/-- The number that `from_str_radix` of an unsigned type reads: digits, after at most one plus
sign. -/
def number (radix : ℕ) (cs : List Char) : Option ℕ :=
  let digits := if cs.head? = some '+' then cs.tail else cs
  if digits.isEmpty then none
  else digits.foldl (fun n c => n.bind fun n => (digit? radix c).map (radix * n + ·)) (some 0)

/-- `from_str_radix` of an unsigned type of the given width. -/
def fromStrRadix (bits radix : ℕ) (cs : List Char) : Option ℕ :=
  (number radix cs).filter (· < 2 ^ bits)

theorem number_map {α : Type} {radix : ℕ} {ds : List α} {char : α → Char} {value : α → ℕ}
    (hne : ds ≠ []) (hdigit : ∀ d ∈ ds, digit? radix (char d) = some (value d)) :
    number radix (ds.map char) = some (ds.foldl (fun n d => radix * n + value d) 0) := by
  have hfold (n : ℕ) : (ds.map char).foldl
      (fun n c => n.bind fun n => (digit? radix c).map (radix * n + ·)) (some n) =
        some (ds.foldl (fun n d => radix * n + value d) n) := by
    clear hne
    induction ds generalizing n with
    | nil => rfl
    | cons d ds ih =>
      rw [List.map_cons, List.foldl_cons, List.foldl_cons, Option.bind_some,
        hdigit d List.mem_cons_self, Option.map_some,
        ih fun e he => hdigit e (List.mem_cons_of_mem d he)]
  have hplus : (ds.map char).head? ≠ some '+' := by
    intro hhead
    obtain ⟨d, ds, rfl⟩ := List.exists_cons_of_ne_nil hne
    have hd := hdigit d List.mem_cons_self
    rw [Option.some.inj hhead] at hd
    have hnone : digit? radix '+' = none := if_neg (Nat.lt_irrefl radix)
    rw [hnone] at hd
    cases hd
  rw [number, if_neg hplus, if_neg (by simpa using hne), hfold]

theorem number_toDigits (n : ℕ) : number 10 (Nat.toDigits 10 n) = some n := by
  have hdigit : ∀ c ∈ Nat.toDigits 10 n, digit? 10 (id c) = some (c.toNat - '0'.toNat) := by
    intro c hc
    have hd := Nat.isDigit_of_mem_toDigits (by decide) (by decide) hc
    obtain ⟨hlow, hhigh⟩ := (Char.isDigit_iff_toNat).mp hd
    have hle : '0' ≤ c ∧ c ≤ '9' := ⟨hlow, hhigh⟩
    simp only [digit?, id, if_pos hle]
    rw [if_pos (Nat.lt_of_le_of_lt (Nat.sub_le_sub_right hhigh _) (by decide))]
  have hread := number_map Nat.toDigits_ne_nil hdigit
  rw [List.map_id] at hread
  rw [hread]
  exact congrArg some (Nat.ofDigitChars_toDigits (by decide) (by decide))

theorem getLast?_number {radix n : ℕ} {cs : List Char} {c : Char} (h : number radix cs = some n)
    (hc : cs.getLast? = some c) : (digit? radix c).isSome = true := by
  have hdigits {ds : List Char} {start : Option ℕ} (hlast : ds.getLast? = some c)
      (hfold : ds.foldl (fun n c => n.bind fun n => (digit? radix c).map (radix * n + ·)) start =
        some n) : (digit? radix c).isSome = true := by
    obtain ⟨front, rfl⟩ := List.getLast?_eq_some_iff.mp hlast
    rw [List.foldl_append, List.foldl_cons, List.foldl_nil] at hfold
    obtain ⟨k, -, hdigit⟩ := Option.bind_eq_some_iff.mp hfold
    obtain ⟨d, hd, -⟩ := Option.map_eq_some_iff.mp hdigit
    rw [hd]
    rfl
  unfold number at h
  dsimp only at h
  by_cases hplus : cs.head? = some '+'
  · rw [if_pos hplus] at h
    obtain ⟨ds, rfl⟩ := List.head?_eq_some_iff.mp hplus
    rw [List.tail_cons] at h
    split_ifs at h with hempty
    obtain ⟨d, ds, rfl⟩ := List.exists_cons_of_ne_nil (mt List.isEmpty_iff.mpr hempty)
    rw [List.getLast?_cons_cons] at hc
    exact hdigits hc h
  · rw [if_neg hplus] at h
    split_ifs at h
    exact hdigits hc h

theorem toDigits_head {n : ℕ} (h : 0 < n) : ∃ c cs, Nat.toDigits 10 n = c :: cs ∧ c ≠ '0' := by
  induction n using Nat.strong_induction_on with
  | _ n ih =>
    rw [Nat.toDigits_eq_if (by decide)]
    split_ifs with hlt
    · have hsmall : ∀ m < 10, 0 < m → m.digitChar ≠ '0' := by decide
      exact ⟨n.digitChar, [], rfl, hsmall n hlt h⟩
    · obtain ⟨c, cs, hcs, hc⟩ := ih (n / 10) (by omega) (by omega)
      exact ⟨c, cs ++ [(n % 10).digitChar], by rw [hcs]; rfl, hc⟩

theorem not_mem_toDigits {n : ℕ} {c : Char} (hc : c.isDigit = false) : c ∉ Nat.toDigits 10 n := by
  intro h
  rw [Nat.isDigit_of_mem_toDigits (by decide) (by decide) h] at hc
  injection hc

/-- The text that `{:#x}` gives. -/
def hexString (n : ℕ) : String := "0x" ++ String.ofList (Nat.toDigits 16 n)

example : hexString 0xabc = "0xabc" := by decide

/-! ## UTF-8 -/

/-- `str::as_bytes`. -/
def utf8 (cs : List Char) : List UInt8 := cs.flatMap String.utf8EncodeChar

/-- A byte that continues a character. -/
def isContinuation (b : UInt8) : Bool := 0x80 ≤ b ∧ b ≤ 0xBF

/-- `str::from_utf8`: no overlong forms, no surrogates, nothing past U+10FFFF. -/
def fromUtf8 : List UInt8 → Option (List Char)
  | [] => some []
  | a :: bs =>
    if a < 0x80 then (fromUtf8 bs).map (Char.ofNat a.toNat :: ·)
    else match bs with
      | [] => none
      | b :: bs =>
        let low := b.toNat % 64
        if 0xC2 ≤ a ∧ a ≤ 0xDF ∧ isContinuation b then
          (fromUtf8 bs).map (Char.ofNat (a.toNat % 32 * 64 + low) :: ·)
        else match bs with
          | [] => none
          | c :: bs =>
            let low := low * 64 + c.toNat % 64
            if 0xE0 ≤ a ∧ a ≤ 0xEF ∧ isContinuation b ∧ isContinuation c ∧
                (a = 0xE0 → 0xA0 ≤ b) ∧ (a = 0xED → b ≤ 0x9F) then
              (fromUtf8 bs).map (Char.ofNat (a.toNat % 16 * 4096 + low) :: ·)
            else match bs with
              | [] => none
              | d :: bs =>
                let low := low * 64 + d.toNat % 64
                if 0xF0 ≤ a ∧ a ≤ 0xF4 ∧ isContinuation b ∧ isContinuation c ∧ isContinuation d ∧
                    (a = 0xF0 → 0x90 ≤ b) ∧ (a = 0xF4 → b ≤ 0x8F) then
                  (fromUtf8 bs).map (Char.ofNat (a.toNat % 8 * 262144 + low) :: ·)
                else none

theorem utf8_cons (c : Char) (cs : List Char) : utf8 (c :: cs) = String.utf8EncodeChar c ++ utf8 cs :=
  List.flatMap_cons

theorem utf8_append (cs ds : List Char) : utf8 (cs ++ ds) = utf8 cs ++ utf8 ds := List.flatMap_append

theorem length_utf8_cons (c : Char) (cs : List Char) :
    (utf8 (c :: cs)).length = c.utf8Size + (utf8 cs).length := by
  rw [utf8_cons, List.length_append, String.length_utf8EncodeChar]

theorem toNat_ofNat_of_lt {n : ℕ} (h : n < 256) : (UInt8.ofNat n).toNat = n := by
  rw [UInt8.toNat_ofNat']
  omega

theorem length_utf8_toAsciiLowercase (cs : List Char) :
    (utf8 (toAsciiLowercase cs)).length = (utf8 cs).length := by
  have hsize (c : Char) : c.toLower.utf8Size = c.utf8Size := by
    unfold Char.toLower
    split_ifs with hupper
    · have hlow : c.val.toNat ≤ 90 := hupper.2
      have hsum : (c.val + ('a'.val - 'A'.val)).toNat ≤ 127 := by
        rw [UInt32.toNat_add]
        have hshift : ('a'.val - 'A'.val).toNat = 32 := by decide
        omega
      have hone (d : Char) (h : d.val.toNat ≤ 127) : d.utf8Size = 1 :=
        if_pos (UInt32.le_iff_toNat_le.mpr h)
      rw [hone c (by omega)]
      exact hone _ hsum
    · rfl
  induction cs with
  | nil => rfl
  | cons c cs ih =>
    have hcons : toAsciiLowercase (c :: cs) = c.toLower :: toAsciiLowercase cs := rfl
    rw [hcons, length_utf8_cons, length_utf8_cons, hsize, ih]

theorem toNat_bounds (c : Char) : c.toNat < 0xd800 ∨ 0xdfff < c.toNat ∧ c.toNat < 0x110000 := c.valid

theorem fromUtf8_utf8EncodeChar (c : Char) (bs : List UInt8) :
    fromUtf8 (String.utf8EncodeChar c ++ bs) = (fromUtf8 bs).map (c :: ·) := by
  have hbounds := toNat_bounds c
  have hchar : c.val.toNat = c.toNat := rfl
  have hof {n : ℕ} (h : n = c.toNat) : Char.ofNat n = c := by rw [h, Char.ofNat_toNat]
  unfold String.utf8EncodeChar
  simp only [hchar]
  split_ifs with h₁ h₂ h₃
  · have ha := toNat_ofNat_of_lt (n := c.toNat) (by omega)
    rw [List.singleton_append, fromUtf8.eq_def]
    simp only [UInt8.lt_iff_toNat_lt, ha, UInt8.reduceToNat]
    rw [if_pos (by omega), hof rfl]
  · have ha := toNat_ofNat_of_lt (n := c.toNat / 64 % 0x20 + 0xc0) (by omega)
    have hb := toNat_ofNat_of_lt (n := c.toNat % 0x40 + 0x80) (by omega)
    rw [List.cons_append, List.singleton_append, fromUtf8.eq_def]
    simp only [isContinuation, UInt8.lt_iff_toNat_lt, UInt8.le_iff_toNat_le, ha, hb, UInt8.reduceToNat,
      decide_eq_true_eq]
    rw [if_neg (by omega), if_pos (by omega), hof (by omega)]
  · have ha := toNat_ofNat_of_lt (n := c.toNat / 4096 % 0x10 + 0xe0) (by omega)
    have hb := toNat_ofNat_of_lt (n := c.toNat / 64 % 0x40 + 0x80) (by omega)
    have hc := toNat_ofNat_of_lt (n := c.toNat % 0x40 + 0x80) (by omega)
    rw [List.cons_append, List.cons_append, List.singleton_append, fromUtf8.eq_def]
    simp only [isContinuation, UInt8.lt_iff_toNat_lt, UInt8.le_iff_toNat_le, ← UInt8.toNat_inj, ha, hb,
      hc, UInt8.reduceToNat, decide_eq_true_eq]
    rw [if_neg (by omega), if_neg (by omega), if_pos (by omega), hof (by omega)]
  · have ha := toNat_ofNat_of_lt (n := c.toNat / 262144 % 0x08 + 0xf0) (by omega)
    have hb := toNat_ofNat_of_lt (n := c.toNat / 4096 % 0x40 + 0x80) (by omega)
    have hc := toNat_ofNat_of_lt (n := c.toNat / 64 % 0x40 + 0x80) (by omega)
    have hd := toNat_ofNat_of_lt (n := c.toNat % 0x40 + 0x80) (by omega)
    rw [List.cons_append, List.cons_append, List.cons_append, List.singleton_append, fromUtf8.eq_def]
    simp only [isContinuation, UInt8.lt_iff_toNat_lt, UInt8.le_iff_toNat_le, ← UInt8.toNat_inj, ha, hb,
      hc, hd, UInt8.reduceToNat, decide_eq_true_eq]
    rw [if_neg (by omega), if_neg (by omega), if_neg (by omega), if_pos (by omega), hof (by omega)]

/-- **What is written in UTF-8 is read as it was.** -/
theorem fromUtf8_utf8 (cs : List Char) : fromUtf8 (utf8 cs) = some cs := by
  induction cs with
  | nil => rfl
  | cons c cs ih => rw [utf8_cons, fromUtf8_utf8EncodeChar, ih, Option.map_some]

theorem toNat_of_mem_utf8EncodeChar {b : UInt8} {c : Char} (hb : b < 0x80)
    (h : b ∈ String.utf8EncodeChar c) : c.toNat = b.toNat := by
  have hval {n : ℕ} (hn : n < 256) (h : b = UInt8.ofNat n) : b.toNat = n := by
    rw [h, toNat_ofNat_of_lt hn]
  have hbounds := toNat_bounds c
  have hchar : c.val.toNat = c.toNat := rfl
  simp only [UInt8.lt_iff_toNat_lt, UInt8.reduceToNat] at hb
  unfold String.utf8EncodeChar at h
  simp only [hchar] at h
  split_ifs at h
  · exact (hval (by omega) (List.mem_singleton.mp h)).symm
  all_goals
    simp only [List.mem_cons, List.not_mem_nil, or_false] at h
  · rcases h with h | h <;> have := hval (by omega) h <;> omega
  · rcases h with h | h | h <;> have := hval (by omega) h <;> omega
  · rcases h with h | h | h | h <;> have := hval (by omega) h <;> omega

theorem not_mem_utf8 {b : UInt8} {c : Char} {cs : List Char} (hb : b < 0x80)
    (hc : c.toNat = b.toNat) (hno : c ∉ cs) : b ∉ utf8 cs := by
  intro hmem
  obtain ⟨d, hd, hbyte⟩ := List.mem_flatMap.mp hmem
  have hchar : d = c := Char.toNat_inj.mp ((toNat_of_mem_utf8EncodeChar hb hbyte).trans hc.symm)
  exact hno (hchar ▸ hd)

/-! ## Lines of a stream -/

/-- `read_line`, of a stream of which at most `limit` bytes are taken. -/
def readLine (limit : ℕ) (stream : List UInt8) : List UInt8 :=
  (stream.take limit).takeWhile (· ≠ 10) ++ ((stream.take limit).dropWhile (· ≠ 10)).take 1

theorem readLine_of_fits {limit : ℕ} {cs : List Char} (h : '\n' ∉ cs)
    (hfits : (utf8 (cs ++ ['\n'])).length ≤ limit) :
    readLine limit (utf8 (cs ++ ['\n'])) = utf8 (cs ++ ['\n']) := by
  have hnot : ∀ b ∈ utf8 cs, decide (b ≠ 10) = true := fun b hb =>
    decide_eq_true fun hten => not_mem_utf8 (by decide) rfl h (hten ▸ hb)
  have hline : utf8 (cs ++ ['\n']) = utf8 cs ++ [10] := by
    rw [utf8_append]
    rfl
  rw [readLine, List.take_of_length_le hfits, hline, List.takeWhile_append_of_pos hnot,
    List.dropWhile_append_of_pos hnot]
  simp

theorem readLine_of_le {limit : ℕ} {cs : List Char} (h : '\n' ∉ cs)
    (hfits : (utf8 cs).length ≤ limit) :
    readLine limit (utf8 (cs ++ ['\n'])) = utf8 cs ∨
      readLine limit (utf8 (cs ++ ['\n'])) = utf8 (cs ++ ['\n']) := by
  have hline : utf8 (cs ++ ['\n']) = utf8 cs ++ [10] := by
    rw [utf8_append]
    rfl
  obtain hlt | heq := Nat.lt_or_eq_of_le hfits
  · refine .inr (readLine_of_fits h ?_)
    rw [hline, List.length_append]
    exact hlt
  · have hnot : ∀ b ∈ utf8 cs, decide (b ≠ 10) = true := fun b hb =>
      decide_eq_true fun hten => not_mem_utf8 (by decide) rfl h (hten ▸ hb)
    rw [readLine, hline, ← heq, List.take_left, List.takeWhile_eq_self_iff.mpr hnot,
      List.dropWhile_eq_nil_iff.mpr hnot]
    exact .inl (List.append_nil _)

end Text
