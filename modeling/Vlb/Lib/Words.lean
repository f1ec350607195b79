import Vlb.Lib.Text

/-!
# The words of a text

How `str::split_whitespace` cuts a text that is put together of words and blanks.

* `words_append`: a blank cuts a text in two.
* `words_plain`: a text without blanks is one word.
* `words_cons`: the first word of a text.
* `words_spaced`: words with a space between them.
* `trim_of_ends`, `trim_concat`: what trimming leaves, and what it takes off.
* `afterFirst`: what comes after `str::find`, which does not see what ends at a separator
  (`afterFirst_append`).
* `trimMatches`: `str::trim_matches`, which takes off quotation marks (`trimMatches_quoted`).
-/

namespace Text

variable {xs ys : List Char} {sep : Char}

theorem words_append (hsep : isWhitespace sep = true) :
    words (xs ++ sep :: ys) = words xs ++ words ys := by
  rw [words, List.splitOnP_append_cons xs ys hsep, List.filter_append]
  rfl

theorem words_plain (hne : xs ≠ []) (h : ∀ c ∈ xs, isWhitespace c = false) : words xs = [xs] := by
  rw [words, List.splitOnP_eq_singleton h, List.filter_cons_of_pos (by simpa using hne)]
  rfl

theorem words_cons_blank (hsep : isWhitespace sep = true) : words (sep :: xs) = words xs := by
  rw [← List.nil_append (sep :: xs), words_append hsep]
  rfl

theorem words_cons (hne : xs ≠ []) (h : ∀ c ∈ xs, isWhitespace c = false)
    (hsep : isWhitespace sep = true) : words (xs ++ sep :: ys) = xs :: words ys := by
  rw [words_append hsep, words_plain hne h]
  rfl

/-- Nothing in the text is blank. -/
def Plain (cs : List Char) : Prop := ∀ c ∈ cs, isWhitespace c = false

instance (cs : List Char) : Decidable (Plain cs) := List.decidableBAll _ cs

theorem isWhitespace_of_isDigit {c : Char} (h : c.isDigit = true) : isWhitespace c = false := by
  have hall : ∀ m < 58, 48 ≤ m → isWhitespace (Char.ofNat m) = false := by decide
  obtain ⟨hlow, hhigh⟩ := Char.isDigit_iff_toNat.mp h
  have hplain := hall c.toNat (Nat.lt_succ_of_le hhigh) hlow
  rwa [Char.ofNat_toNat] at hplain

theorem exists_getLast? {w : List Char} (hne : w ≠ []) (hw : Plain w) :
    ∃ d, w.getLast? = some d ∧ isWhitespace d = false :=
  ⟨w.getLast hne, List.getLast?_eq_some_getLast hne, hw _ (List.getLast_mem hne)⟩

theorem words_replicate (n : ℕ) : words (List.replicate n ' ' ++ xs) = words xs := by
  have hblank : isWhitespace ' ' = true := by decide
  induction n with
  | zero => rfl
  | succ n ih => rw [List.replicate_succ, List.cons_append, words_cons_blank hblank, ih]

/-- **Words with a space between them are the words of the text.** -/
theorem words_spaced {ws : List (List Char)} (h : ∀ w ∈ ws, w ≠ [] ∧ Plain w) :
    words ([' '].intercalate ws) = ws := by
  induction ws with
  | nil => rfl
  | cons w ws ih =>
    obtain ⟨⟨hne, hplain⟩, hrest⟩ := List.forall_mem_cons.mp h
    cases ws with
    | nil => rw [List.intercalate_singleton, words_plain hne hplain]
    | cons w' ws =>
      have hblank : isWhitespace ' ' = true := by decide
      rw [List.intercalate_cons_cons, List.append_assoc, List.singleton_append,
        words_cons hne hplain hblank, ih hrest]

theorem spaced_concat {ws : List (List Char)} (hne : ws ≠ []) (w : List Char) :
    [' '].intercalate (ws ++ [w]) = [' '].intercalate ws ++ ' ' :: w := by
  induction ws with
  | nil => exact absurd rfl hne
  | cons v ws ih =>
    cases ws with
    | nil => simp [List.intercalate_cons_cons]
    | cons v' ws =>
      rw [List.cons_append, List.cons_append, List.intercalate_cons_cons, ← List.cons_append,
        ih (List.cons_ne_nil v' ws), List.intercalate_cons_cons, List.append_assoc (v ++ [' '])]

theorem not_mem_spaced {ws : List (List Char)} {c : Char} (h : ∀ w ∈ ws, Plain w)
    (hblank : isWhitespace c = true) (hne : c ≠ ' ') : c ∉ [' '].intercalate ws := by
  intro hmem
  obtain hspace | ⟨w, hw, hc⟩ := mem_intercalate hmem
  · exact hne (List.mem_singleton.mp hspace)
  · exact absurd hblank (Bool.eq_false_iff.mp (h w hw c hc))

theorem getLast?_spaced {ws : List (List Char)} {w : List Char} {d : Char}
    (hlast : ws.getLast? = some w) (hd : w.getLast? = some d) :
    ([' '].intercalate ws).getLast? = some d := by
  induction ws with
  | nil => cases hlast
  | cons v ws ih =>
    cases ws with
    | nil =>
      have hword : v = w := by simpa using hlast
      rw [List.intercalate_singleton, hword, hd]
    | cons v' ws =>
      have hrest := ih (by rw [← hlast, List.getLast?_cons_cons])
      have hne : [' '].intercalate (v' :: ws) ≠ [] := fun hnil => by
        rw [hnil] at hrest
        cases hrest
      rw [List.intercalate_cons_cons, List.getLast?_append_of_ne_nil _ hne, hrest]

/-! ## Trimming -/

theorem trim_of_ends {c d : Char} {cs : List Char} (hhead : cs.head? = some c)
    (hlast : cs.getLast? = some d) (hc : isWhitespace c = false) (hd : isWhitespace d = false) :
    trim cs = cs := by
  obtain ⟨rest, rfl⟩ := List.head?_eq_some_iff.mp hhead
  obtain ⟨front, hfront⟩ := List.getLast?_eq_some_iff.mp hlast
  cases front with
  | nil =>
    rw [hfront, trim, trimStart, List.nil_append, List.dropWhile_cons_of_neg (by simp [hd]),
      trimEnd, ← List.nil_append [d], List.rdropWhile_concat_neg _ _ _ (by simp [hd])]
  | cons c' front =>
    have hcc : c = c' := (List.cons.inj hfront).1
    rw [hfront, ← hcc]
    exact trim_eq_self c front hc hd

theorem trim_concat {cs : List Char} {c : Char} (hc : isWhitespace c = true) :
    trim (cs ++ [c]) = trim cs := by
  rw [trim, trim, trimStart, List.dropWhile_append]
  split_ifs with hempty
  · rw [trimStart, List.isEmpty_iff.mp hempty, List.dropWhile_cons_of_pos hc]
    rfl
  · rw [trimEnd, List.rdropWhile_concat_pos _ _ _ hc]
    rfl

theorem trim_append_replicate (cs : List Char) (n : ℕ) :
    trim (cs ++ List.replicate n ' ') = trim cs := by
  have hblank : isWhitespace ' ' = true := by decide
  induction n with
  | zero => rw [List.replicate_zero, List.append_nil]
  | succ n ih => rw [List.replicate_succ', ← List.append_assoc, trim_concat hblank, ih]

theorem trim_stripReturn (line : List Char) : trim (stripReturn line) = trim line := by
  have hblank : isWhitespace '\r' = true := by decide
  rw [stripReturn]
  split_ifs with hlast
  · obtain ⟨front, rfl⟩ := List.getLast?_eq_some_iff.mp hlast
    rw [List.dropLast_concat, trim_concat hblank]
  · rfl

theorem words_stripReturn (line : List Char) : words (stripReturn line) = words line := by
  have hblank : isWhitespace '\r' = true := by decide
  rw [stripReturn]
  split_ifs with hlast
  · obtain ⟨front, rfl⟩ := List.getLast?_eq_some_iff.mp hlast
    rw [List.dropLast_concat, words_append hblank]
    exact (List.append_nil _).symm
  · rfl

theorem isInfix_trim (cs : List Char) : trim cs <:+: cs :=
  (List.rdropWhile_prefix _ _).isInfix.trans (List.dropWhile_suffix _).isInfix

/-! ## Finding -/

/-- What comes after the first place at which `str::find` finds the text. -/
def afterFirst (pat : List Char) : List Char → Option (List Char)
  | [] => stripPrefix pat []
  | c :: cs => (stripPrefix pat (c :: cs)).or (afterFirst pat cs)

variable {pat : List Char}

theorem afterFirst_self (pat rest : List Char) : afterFirst pat (pat ++ rest) = some rest := by
  have hstrip := stripPrefix_append pat rest
  cases hcs : pat ++ rest with
  | nil => rwa [hcs] at hstrip
  | cons c cs =>
    rw [hcs] at hstrip
    rw [afterFirst, hstrip, Option.some_or]

theorem stripPrefix_eq_none {cs : List Char} (h : ¬ pat <+: cs) : stripPrefix pat cs = none :=
  if_neg (mt List.isPrefixOf_iff_prefix.mp h)

theorem afterFirst_eq_none {cs : List Char} (h : ¬ pat <:+: cs) : afterFirst pat cs = none := by
  induction cs with
  | nil => exact stripPrefix_eq_none fun hpre => h hpre.isInfix
  | cons c cs ih =>
    have hrest := ih fun hin => h (hin.trans (List.suffix_cons c cs).isInfix)
    rw [afterFirst, stripPrefix_eq_none fun hpre => h hpre.isInfix, hrest]
    rfl

theorem prefix_of_append (hsep : sep ∉ pat) (h : pat <+: xs ++ sep :: ys) : pat <+: xs := by
  obtain ⟨rest, hrest⟩ := h
  obtain ⟨back, hxs, -⟩ | ⟨back, hpat, hys⟩ := List.append_eq_append_iff.mp hrest
  · exact ⟨back, hxs.symm⟩
  · cases back with
    | nil => exact ⟨[], by rw [hpat, List.append_nil, List.append_nil]⟩
    | cons c back =>
      have hc : sep = c := (List.cons.inj hys).1
      exact absurd (by rw [hpat, hc]; simp) hsep

/-- **What is not in the text before a separator is found after it.** -/
theorem afterFirst_append (hne : pat ≠ []) (hsep : sep ∉ pat) (h : ¬ pat <:+: xs) :
    afterFirst pat (xs ++ sep :: ys) = afterFirst pat ys := by
  induction xs with
  | nil =>
    have hstart : ¬ pat <+: sep :: ys := by
      intro hpre
      have hnil : pat <+: [] := prefix_of_append hsep hpre
      exact hne (List.prefix_nil.mp hnil)
    rw [List.nil_append, afterFirst, stripPrefix_eq_none hstart, Option.none_or]
  | cons x xs ih =>
    have hstart : ¬ pat <+: x :: xs ++ sep :: ys := fun hpre =>
      h (prefix_of_append hsep hpre).isInfix
    have hrest := ih fun hin => h (hin.trans (List.suffix_cons x xs).isInfix)
    rw [List.cons_append] at hstart ⊢
    rw [afterFirst, stripPrefix_eq_none hstart, Option.none_or, hrest]

/-! ## Quotation marks -/

/-- `str::trim_matches`, for a character. -/
def trimMatches (c : Char) (cs : List Char) : List Char :=
  (cs.dropWhile (· == c)).rdropWhile (· == c)

/-- A text, maybe between quotation marks. -/
def quoted (quotes : Bool) (cs : List Char) : List Char :=
  if quotes then '"' :: (cs ++ ['"']) else cs

theorem dropWhile_eq_self {c : Char} {cs : List Char} (h : c ∉ cs) :
    cs.dropWhile (· == c) = cs := by
  cases cs with
  | nil => rfl
  | cons d cs =>
    have hne : ¬ (d == c) = true := fun heq => h (by simp [beq_iff_eq.mp heq])
    rw [List.dropWhile_cons, if_neg hne]

theorem rdropWhile_eq_self {c : Char} {cs : List Char} (h : c ∉ cs) :
    cs.rdropWhile (· == c) = cs := by
  rw [List.rdropWhile, dropWhile_eq_self (mt List.mem_reverse.mp h), List.reverse_reverse]

theorem trimMatches_quoted {cs : List Char} (h : '"' ∉ cs) (quotes : Bool) :
    trimMatches '"' (quoted quotes cs) = cs := by
  cases quotes with
  | false => rw [quoted, if_neg Bool.false_ne_true, trimMatches, dropWhile_eq_self h,
      rdropWhile_eq_self h]
  | true =>
    rw [quoted, if_pos rfl, trimMatches, List.dropWhile_cons, if_pos (beq_self_eq_true _)]
    cases cs with
    | nil => rfl
    | cons c cs =>
      have hne : ¬ (c == '"') = true := fun heq => h (by simp [beq_iff_eq.mp heq])
      have hmark : (c :: cs ++ ['"']).rdropWhile (· == '"') = (c :: cs).rdropWhile (· == '"') :=
        List.rdropWhile_concat_pos _ _ _ (beq_self_eq_true '"')
      rw [List.cons_append, List.dropWhile_cons, if_neg hne, ← List.cons_append, hmark,
        rdropWhile_eq_self h]

theorem head?_trimMatches {c d : Char} {cs : List Char} (hhead : cs.head? = some d) (hne : d ≠ c) :
    (trimMatches c cs).head? = some d := by
  obtain ⟨rest, rfl⟩ := List.head?_eq_some_iff.mp hhead
  have hneg : ¬ (d == c) = true := fun heq => hne (beq_iff_eq.mp heq)
  obtain ⟨back, hback⟩ := List.rdropWhile_prefix (· == c) (d :: rest)
  rw [trimMatches, List.dropWhile_cons, if_neg hneg]
  cases hkept : (d :: rest).rdropWhile (· == c) with
  | nil =>
    have hall := List.rdropWhile_eq_nil_iff.mp hkept d List.mem_cons_self
    exact absurd hall hneg
  | cons e kept =>
    rw [hkept] at hback
    exact congrArg some (List.cons.inj hback).1

end Text
