import Vlb.Lib.Numerals
import Vlb.Lib.Words

/-!
# Dumps of counted rules

`iptables-save -c` prints every rule on a line of its own, with its counters in front, and other
lines between them.

* `counted`: a rule with its counters; `splitCounts` and `readCounts` take it apart.
* `text`: the dump of some entries, with other lines between them.
* **`filterMap_text`**: a reader of lines that skips the others finds the entries.
* `Layout`: how entries are written whose lines are read by their words.
-/

namespace Dumps

open Text

/-! ## Counted rules -/

/-- `[packets:bytes] rule` -/
def counted (packets bytes : UInt64) (rule : List Char) : List Char :=
  '[' :: (Nat.toDigits 10 packets.toNat ++ ':' :: (Nat.toDigits 10 bytes.toNat ++
    ']' :: ' ' :: rule))

/-- `str::parse::<u64>` -/
def parseU64 (cs : List Char) : Option UInt64 := (fromStrRadix 64 10 cs).map UInt64.ofNat

/-- What is between the brackets, and what comes after them. -/
def splitCounts (line : List Char) : Option (List Char × List Char) :=
  (stripPrefix ['['] (trim line)).bind (splitOnce ']')

/-- The packets and the bytes. -/
def readCounts (counts : List Char) : Option (UInt64 × UInt64) :=
  (splitOnce ':' counts).bind fun parts =>
    (parseU64 (trim parts.1)).bind fun pkts =>
      (parseU64 (trim parts.2)).map fun bytes => (pkts, bytes)

variable {packets bytes : UInt64} {rule : List Char}

theorem parseU64_toDigits (n : UInt64) : parseU64 (Nat.toDigits 10 n.toNat) = some n := by
  rw [parseU64, fromStrRadix, number_toDigits, Option.filter_some,
    if_pos (decide_eq_true n.toNat_lt), Option.map_some, UInt64.ofNat_toNat]

theorem plain_toDigits (n : ℕ) : Plain (Nat.toDigits 10 n) := fun _ hc =>
  isWhitespace_of_isDigit (Nat.isDigit_of_mem_toDigits (by decide) (by decide) hc)

theorem trim_toDigits (n : ℕ) : trim (Nat.toDigits 10 n) = Nat.toDigits 10 n := by
  have h := trim_append_blanks (plain_toDigits n) (List.forall_mem_nil _)
  rwa [List.append_nil] at h

theorem readCounts_digits (packets bytes : UInt64) :
    readCounts (Nat.toDigits 10 packets.toNat ++ ':' :: Nat.toDigits 10 bytes.toNat) =
      some (packets, bytes) := by
  rw [readCounts, splitOnce_append (not_mem_toDigits rfl), Option.bind_some, trim_toDigits,
    trim_toDigits, parseU64_toDigits, parseU64_toDigits]
  rfl

theorem getLast?_counted {d : Char} (hlast : rule.getLast? = some d) :
    (counted packets bytes rule).getLast? = some d := by
  have hne : rule ≠ [] := fun h => by rw [h] at hlast; cases hlast
  have hsplit : counted packets bytes rule = ('[' :: (Nat.toDigits 10 packets.toNat ++
      ':' :: (Nat.toDigits 10 bytes.toNat ++ [']', ' ']))) ++ rule := by simp [counted]
  rw [hsplit, List.getLast?_append_of_ne_nil _ hne, hlast]

theorem newline_not_mem_counted (h : '\n' ∉ rule) : '\n' ∉ counted packets bytes rule := by
  have hdigits (n : ℕ) : '\n' ∉ Nat.toDigits 10 n := not_mem_toDigits rfl
  simp [counted, hdigits, h]

/-- **A counted rule is taken apart as it was put together.** -/
theorem splitCounts_counted {d : Char} (hlast : rule.getLast? = some d)
    (hd : isWhitespace d = false) : splitCounts (counted packets bytes rule) =
      some (Nat.toDigits 10 packets.toNat ++ ':' :: Nat.toDigits 10 bytes.toNat, ' ' :: rule) := by
  have hcounts : ']' ∉ Nat.toDigits 10 packets.toNat ++ ':' :: Nat.toDigits 10 bytes.toNat := by
    rw [List.mem_append, List.mem_cons]
    rintro (h | h | h)
    · exact not_mem_toDigits rfl h
    · exact absurd h (by decide)
    · exact not_mem_toDigits rfl h
  have htrim : trim (counted packets bytes rule) = counted packets bytes rule :=
    trim_of_ends rfl (getLast?_counted hlast) (by decide) hd
  have hopen : counted packets bytes rule = ['['] ++ ((Nat.toDigits 10 packets.toNat ++
      ':' :: Nat.toDigits 10 bytes.toNat) ++ ']' :: (' ' :: rule)) := by simp [counted]
  rw [splitCounts, htrim, hopen, stripPrefix_append, Option.bind_some, splitOnce_append hcounts]

theorem isInfix_splitCounts {line counts rest : List Char}
    (h : splitCounts line = some (counts, rest)) : rest <:+: line := by
  obtain ⟨inner, hinner, hsplit⟩ := Option.bind_eq_some_iff.mp h
  have hline := stripPrefix_eq_some hinner
  have hrest := splitOnce_eq_some hsplit
  refine List.IsInfix.trans ?_ (isInfix_trim line)
  rw [hline, hrest]
  exact ⟨['['] ++ counts ++ [']'], [], by simp⟩

/-! ## Dumps -/

variable {α β : Type}

/-- The entries of a dump, each on its line, and the other lines between them. -/
abbrev Dump (α : Type) := List (α ⊕ List Char)

/-- What is printed. -/
def text (render : α → List Char) (d : Dump α) : List Char := printed (d.map (Sum.elim render id))

/-- The entries among the lines. -/
def entries (d : Dump α) : List α := d.filterMap Sum.getLeft?

/-- **A reader of lines that skips the others finds the entries.** -/
theorem filterMap_text {read : List Char → Option β} {render : α → List Char} {value : α → β}
    {d : Dump α}
    (hentry : ∀ a, .inl a ∈ d → '\n' ∉ render a ∧ read (stripReturn (render a)) = some (value a))
    (hother : ∀ l, .inr l ∈ d → '\n' ∉ l ∧ read (stripReturn l) = none) :
    (lines (text render d)).filterMap read = (entries d).map value := by
  have hline : ∀ l ∈ d.map (Sum.elim render id), '\n' ∉ l := by
    intro l hl
    obtain ⟨a | l, hmem, rfl⟩ := List.mem_map.mp hl
    · exact (hentry a hmem).1
    · exact (hother l hmem).1
  rw [text, lines_printed hline, List.map_map, List.filterMap_map, entries, List.map_filterMap]
  refine List.filterMap_congr fun x hx => ?_
  cases x with
  | inl a => exact (hentry a hx).2
  | inr l => exact (hother l hx).2

/-- How entries are written: the words are given, the blanks between them are not. -/
structure Layout (α : Type) (ws : α → List (List Char)) where
  line : α → List Char
  words_line : ∀ a, words (line a) = ws a
  oneLine : ∀ a, '\n' ∉ line a

/-- One blank between two words. -/
def Layout.plain {ws : α → List (List Char)} (h : ∀ a, ∀ w ∈ ws a, w ≠ [] ∧ Plain w) :
    Layout α ws where
  line a := [' '].intercalate (ws a)
  words_line a := words_spaced (h a)
  oneLine a := not_mem_spaced (fun w hw => (h a w hw).2) (by decide) (by decide)

/-- **A reader of lines** finds what the entries say, where some of them say nothing. -/
theorem filterMap_lines {read : List Char → Option β} {render : α → List Char} {value : α → Option β}
    {d : Dump α}
    (hentry : ∀ a, .inl a ∈ d → '\n' ∉ render a ∧ read (stripReturn (render a)) = value a)
    (hother : ∀ l, .inr l ∈ d → '\n' ∉ l ∧ read (stripReturn l) = none) :
    (lines (text render d)).filterMap read = (entries d).filterMap value := by
  have hline : ∀ l ∈ d.map (Sum.elim render id), '\n' ∉ l := by
    intro l hl
    obtain ⟨a | l, hmem, rfl⟩ := List.mem_map.mp hl
    · exact (hentry a hmem).1
    · exact (hother l hmem).1
  rw [text, lines_printed hline, List.map_map, List.filterMap_map, entries,
    List.filterMap_filterMap]
  refine List.filterMap_congr fun x hx => ?_
  cases x with
  | inl a => exact (hentry a hx).2
  | inr l => exact (hother l hx).2

/-- **A reader of words** finds the entries, whatever the blanks. -/
theorem filterMap_layout {ws : α → List (List Char)} {read : List (List Char) → Option β}
    {value : α → Option β} (layout : Layout α ws) {d : Dump α}
    (hentry : ∀ a, .inl a ∈ d → read (ws a) = value a)
    (hother : ∀ l, .inr l ∈ d → '\n' ∉ l ∧ read (words l) = none) :
    (lines (text layout.line d)).filterMap (fun l => read (words l)) =
      (entries d).filterMap value := by
  refine filterMap_lines (fun a ha => ⟨layout.oneLine a, ?_⟩)
    fun l hl => ⟨(hother l hl).1, ?_⟩
  · rw [words_stripReturn, layout.words_line, hentry a ha]
  · rw [words_stripReturn, (hother l hl).2]

theorem stripReturn_of_last {line : List Char} {d : Char} (hlast : line.getLast? = some d)
    (hd : d ≠ '\r') : stripReturn line = line := by
  rw [stripReturn, if_neg]
  rw [hlast]
  exact fun h => hd (Option.some.inj h)

end Dumps
