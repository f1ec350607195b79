import Vlb.Net.Entity

/-!
# Line endings of a response

A head may end its lines with carriage return and line feed, or with bare line feeds. The end of the
head is looked for in the first style before the second, in as much of the body as is in reach.

* `HeadText`: a status line and header lines, which `wire` writes in either style.
* `findSubslice_blank`: where the blank line after the lines is found.
* `headEnd_lf`: where a head of line feeds is cut.
* **`styleIndependent_iff`**: the bodies that the style makes no difference for.
-/

namespace Vlb.Http

/-! ## Responses in either style -/

/-- How a line is ended. -/
inductive LineEnding
  | crlf
  | lf

/-- The characters of it. -/
def LineEnding.chars : LineEnding → List Char
  | .crlf => ['\r', '\n']
  | .lf => ['\n']

/-- The status line and the header lines of a response, as text. -/
structure HeadText where
  statusLine : List Char
  headerLines : List (List Char)
  plain : ∀ l ∈ statusLine :: headerLines, l ≠ [] ∧ '\r' ∉ l ∧ '\n' ∉ l

namespace HeadText

/-- The status line and the headers. -/
def lines (h : HeadText) : List (List Char) := h.statusLine :: h.headerLines

/-- The head in a style, up to the end of its blank line. -/
def text (h : HeadText) (e : LineEnding) : List Char :=
  (h.lines.flatMap fun l => l ++ e.chars) ++ e.chars

/-- The head in the style `e`. -/
def wire (h : HeadText) (e : LineEnding) : List UInt8 := Text.utf8 (h.text e)

end HeadText

/-- Both are rejected, or both are parsed to the same. -/
inductive SameOutcome : Except HttpError HttpResponse → Except HttpError HttpResponse → Prop
  | parsed (r : HttpResponse) : SameOutcome (.ok r) (.ok r)
  | rejected (e e' : HttpError) : SameOutcome (.error e) (.error e')

theorem sameOutcome_refl (x : Except HttpError HttpResponse) : SameOutcome x x := by
  cases x with
  | ok r => exact .parsed r
  | error e => exact .rejected e e

theorem SameOutcome.body_eq {x y : Except HttpError HttpResponse} {b c : List UInt8}
    (h : SameOutcome x y) (hx : x.map HttpResponse.body = .ok b)
    (hy : y.map HttpResponse.body = .ok c) : b = c := by
  cases h with
  | parsed r => exact Except.ok.inj (hx.symm.trans hy)
  | rejected e e' => cases hx

/-- The style of the head makes no difference: in either, the head ends at its blank line, and the
response is the same. -/
structure StyleIndependent (h : HeadText) (body : List UInt8) (maxBody : UInt64) : Prop where
  same : SameOutcome (parseResponse (h.wire .crlf ++ body) maxBody)
    (parseResponse (h.wire .lf ++ body) maxBody)
  crlf_end : headEnd (h.wire .crlf ++ body) = some (h.wire .crlf).length
  lf_end : headEnd (h.wire .lf ++ body) = some (h.wire .lf).length

/-! ## First occurrences -/

section Find

variable {haystack needle : List UInt8}

theorem findSubslice_cons_of_not_prefix {b : UInt8} {bs : List UInt8} (hne : needle ≠ [])
    (h : ¬ needle <+: b :: bs) :
    findSubslice (b :: bs) needle = (findSubslice bs needle).map (· + 1) := by
  ext i
  rw [findSubslice_eq_some hne, Option.map_eq_some_iff]
  cases i with
  | zero =>
    constructor
    · exact fun hfound => absurd hfound.1 h
    · rintro ⟨j, -, hj⟩
      cases hj
  | succ i =>
    simp only [List.drop_succ_cons]
    constructor
    · rintro ⟨hfound, hfirst⟩
      refine ⟨i, (findSubslice_eq_some hne).mpr ⟨hfound, fun j hj => ?_⟩, rfl⟩
      exact hfirst (j + 1) (Nat.succ_lt_succ hj)
    · rintro ⟨j, hj, hji⟩
      obtain rfl : j = i := Nat.succ.inj hji
      obtain ⟨hfound, hfirst⟩ := (findSubslice_eq_some hne).mp hj
      refine ⟨hfound, fun k hk => ?_⟩
      cases k with
      | zero => exact h
      | succ k => exact hfirst k (Nat.lt_of_succ_lt_succ hk)

theorem findSubslice_skip {e : UInt8} {skipped : List UInt8} (hneedle : needle.head? = some e)
    (h : e ∉ skipped) (bs : List UInt8) : findSubslice (skipped ++ bs) needle =
      (findSubslice bs needle).map (skipped.length + ·) := by
  obtain ⟨es, rfl⟩ := List.head?_eq_some_iff.mp hneedle
  induction skipped with
  | nil => simp
  | cons b skipped ih =>
    have hhead : ¬ e :: es <+: b :: (skipped ++ bs) := fun hpre =>
      h (List.mem_cons.mpr (Or.inl (List.cons_prefix_cons.mp hpre).1))
    rw [List.cons_append, findSubslice_cons_of_not_prefix (List.cons_ne_nil e es) hhead,
      ih fun hmem => h (List.mem_cons_of_mem b hmem), Option.map_map]
    congr 1
    funext i
    simp only [Function.comp_apply, List.length_cons]
    omega

theorem findSubslice_take {i reach : ℕ} (h : findSubslice haystack needle = some i)
    (hreach : i + needle.length ≤ reach) : findSubslice (haystack.take reach) needle = some i := by
  have hne := findSubslice_ne_nil h
  obtain ⟨hfound, hfirst⟩ := (findSubslice_eq_some hne).mp h
  refine (findSubslice_eq_some hne).mpr ⟨?_, fun j hj hpre => hfirst j hj ?_⟩
  · rw [List.drop_take]
    exact List.prefix_take_iff.mpr ⟨hfound, by omega⟩
  · rw [List.drop_take] at hpre
    exact hpre.trans (List.take_prefix _ _)

/-- **The blank line after the lines** is the first, whatever follows it: no line is empty or has
the first byte of the line ending. -/
theorem findSubslice_blank {e : UInt8} {es : List UInt8} (hes : e ∉ es) (l : List UInt8)
    (ls : List (List UInt8)) (hplain : ∀ m ∈ l :: ls, m ≠ [] ∧ e ∉ m) (body : List UInt8) :
    ∃ i, findSubslice (((l :: ls).flatMap fun m => m ++ e :: es) ++ (e :: es ++ body))
        (e :: es ++ e :: es) = some i ∧
      i + (es.length + 1) = ((l :: ls).flatMap fun m => m ++ e :: es).length := by
  have hneedle : (e :: es ++ e :: es).head? = some e := rfl
  have hl := (hplain l List.mem_cons_self).2
  induction ls generalizing l with
  | nil =>
    have hzero : findSubslice (e :: es ++ (e :: es ++ body)) (e :: es ++ e :: es) = some 0 := by
      refine (findSubslice_eq_some (List.cons_ne_nil _ _)).mpr
        ⟨?_, fun j hj => absurd hj (Nat.not_lt_zero j)⟩
      exact ⟨body, by simp⟩
    refine ⟨l.length, ?_, by simp⟩
    rw [List.flatMap_singleton, List.append_assoc, findSubslice_skip hneedle hl, hzero]
    rfl
  | cons m ls ih =>
    obtain ⟨hm, hem⟩ := hplain m (List.mem_cons_of_mem l List.mem_cons_self)
    obtain ⟨i, hi, hlen⟩ := ih m (fun n hn => hplain n (List.mem_cons_of_mem l hn)) hem
    generalize hrest : ((m :: ls).flatMap fun m => m ++ e :: es) ++ (e :: es ++ body) = rest at hi
    -- the line ending before the next line is no blank line, since the next line has a first byte
    have hnot : ¬ e :: es ++ e :: es <+: e :: (es ++ rest) := by
      intro hpre
      rw [← List.cons_append, List.prefix_append_right_inj, ← hrest] at hpre
      obtain ⟨b, m, rfl⟩ := List.exists_cons_of_ne_nil hm
      exact hem (List.mem_cons.mpr (Or.inl (List.cons_prefix_cons.mp hpre).1))
    have hne : e :: es ++ e :: es ≠ [] := List.cons_ne_nil _ _
    refine ⟨l.length + (es.length + i + 1), ?_, ?_⟩
    · rw [List.flatMap_cons, List.append_assoc, List.append_assoc, hrest,
        findSubslice_skip hneedle hl, List.cons_append,
        findSubslice_cons_of_not_prefix hne hnot, findSubslice_skip hneedle hes, hi]
      rfl
    · rw [List.flatMap_cons, List.length_append, List.length_append, ← hlen, List.length_cons]
      omega

end Find

/-! ## Heads -/

section Heads

variable (h : HeadText) (e : LineEnding) (body : List UInt8)

/-- A line keeps its text when the carriage returns at its end are trimmed. -/
theorem headLines_line {l : List Char} (hcr : '\r' ∉ l) (hlf : '\n' ∉ l) (rest : List Char) :
    headLines (l ++ e.chars ++ rest) = l :: headLines rest := by
  have hplain {k : ℕ} : headLines (l ++ List.replicate k '\r') = [l] := by
    have hnot : '\n' ∉ l ++ List.replicate k '\r' := by
      simp [hlf]
    have hself : l.rdropWhile (· = '\r') = l := by
      refine List.rdropWhile_eq_self_iff.mpr fun hne heq => hcr ?_
      rw [← of_decide_eq_true heq]
      exact List.getLast_mem hne
    have htrim : (l ++ List.replicate k '\r').rdropWhile (· = '\r') = l := by
      rw [List.rdropWhile, List.reverse_append, List.reverse_replicate,
        List.dropWhile_append_of_pos (by simp)]
      exact hself
    rw [headLines, List.splitOn_eq_singleton hnot, List.map_singleton, htrim]
  cases e with
  | crlf =>
    have hone : headLines (l ++ ['\r']) = [l] := hplain (k := 1)
    have hsplit : l ++ LineEnding.crlf.chars ++ rest = l ++ ['\r'] ++ '\n' :: rest := by
      simp [LineEnding.chars]
    rw [hsplit, headLines_append, hone]
    rfl
  | lf =>
    have hnone : headLines l = [l] := by simpa using hplain (k := 0)
    have hsplit : l ++ LineEnding.lf.chars ++ rest = l ++ '\n' :: rest := by
      simp [LineEnding.chars]
    rw [hsplit, headLines_append, hnone]
    rfl

/-- The lines that the client reads are the lines of the head, in either style. -/
theorem HeadText.headLines_text : headLines (h.text e) = h.lines ++ [[], []] := by
  have hlines : ∀ ls : List (List Char), (∀ l ∈ ls, '\r' ∉ l ∧ '\n' ∉ l) →
      headLines ((ls.flatMap fun l => l ++ e.chars) ++ e.chars) = ls ++ [[], []] := by
    intro ls hplain
    induction ls with
    | nil =>
      have hblank : headLines ([] ++ e.chars ++ []) = [] :: headLines [] :=
        headLines_line e List.not_mem_nil List.not_mem_nil []
      rw [List.append_nil] at hblank
      exact hblank
    | cons l ls ih =>
      obtain ⟨hcr, hlf⟩ := hplain l List.mem_cons_self
      rw [List.flatMap_cons, List.append_assoc, headLines_line e hcr hlf,
        ih fun m hm => hplain m (List.mem_cons_of_mem l hm)]
      rfl
  exact hlines h.lines fun l hl => (h.plain l hl).2

theorem HeadText.parseHead_wire : parseHead (h.wire e) = parseLines (h.lines ++ [[], []]) := by
  rw [parseHead, HeadText.wire, Text.fromUtf8_utf8]
  exact congrArg parseLines (h.headLines_text e)

theorem HeadText.wire_eq : h.wire e =
    ((h.lines.map Text.utf8).flatMap fun m => m ++ Text.utf8 e.chars) ++ Text.utf8 e.chars := by
  rw [HeadText.wire, HeadText.text, Text.utf8_append, List.flatMap_map, Text.utf8,
    List.flatMap_assoc]
  congr 2
  funext l
  exact Text.utf8_append l e.chars

theorem HeadText.line_plain {m : List UInt8} (hm : m ∈ h.lines.map Text.utf8) :
    m ≠ [] ∧ cr ∉ m ∧ lf ∉ m := by
  obtain ⟨l, hl, rfl⟩ := List.mem_map.mp hm
  obtain ⟨hne, hcr, hlf⟩ := h.plain l hl
  refine ⟨?_, Text.not_mem_utf8 (by decide) rfl hcr, Text.not_mem_utf8 (by decide) rfl hlf⟩
  obtain ⟨c, cs, rfl⟩ := List.exists_cons_of_ne_nil hne
  rw [Text.utf8_cons]
  simp [String.utf8EncodeChar_ne_nil]

theorem HeadText.findSubslice_wire {b : UInt8} {bs : List UInt8}
    (hchars : Text.utf8 e.chars = b :: bs) (hbs : b ∉ bs) (hb : b = cr ∨ b = lf) :
    ∃ i, findSubslice (h.wire e ++ body) (b :: bs ++ b :: bs) = some i ∧
      i + (b :: bs ++ b :: bs).length = (h.wire e).length := by
  have hplain : ∀ m ∈ h.lines.map Text.utf8, m ≠ [] ∧ b ∉ m := by
    intro m hm
    obtain ⟨hne, hcr, hlf⟩ := h.line_plain hm
    rcases hb with rfl | rfl
    · exact ⟨hne, hcr⟩
    · exact ⟨hne, hlf⟩
  obtain ⟨i, hi, hlen⟩ := findSubslice_blank hbs (Text.utf8 h.statusLine)
    (h.headerLines.map Text.utf8) hplain body
  rw [h.wire_eq, hchars, List.append_assoc]
  refine ⟨i, hi, ?_⟩
  rw [List.length_append, List.length_append, List.length_cons, ← Nat.add_assoc, hlen]
  rfl

theorem HeadText.length_wire_crlf : (h.wire .crlf).length ≤ 2 * (h.wire .lf).length := by
  have hcrlf : Text.utf8 LineEnding.crlf.chars = crlf := by decide
  have hlf : Text.utf8 LineEnding.lf.chars = [lf] := by decide
  rw [h.wire_eq, h.wire_eq, hcrlf, hlf]
  induction h.lines.map Text.utf8 with
  | nil => decide
  | cons m ms ih =>
    simp only [List.flatMap_cons, List.length_append, crlf, List.length_cons,
      List.length_nil] at ih ⊢
    omega

variable {h body}

theorem headEnd_crlf (hsize : (h.wire .crlf).length ≤ maxHead + 4) :
    headEnd (h.wire .crlf ++ body) = some (h.wire .crlf).length := by
  have hchars : Text.utf8 LineEnding.crlf.chars = [cr, lf] := by decide
  obtain ⟨i, hi, hlen⟩ := h.findSubslice_wire .crlf body hchars (by decide) (Or.inl rfl)
  have htake := findSubslice_take hi (hlen.trans_le hsize)
  rw [headEnd, crlf, htake, ← hlen]
  rfl

/-- **A head of line feeds** is cut after the first blank line between carriage returns in the part
of the body that is in reach. -/
theorem headEnd_lf (hsize : (h.wire .lf).length ≤ maxHead + 2) :
    headEnd (h.wire .lf ++ body) =
      ((findSubslice (body.take (maxHead + 4 - (h.wire .lf).length)) (crlf ++ crlf)).map
        ((h.wire .lf).length + · + 4)).or (some (h.wire .lf).length) := by
  have hchars : Text.utf8 LineEnding.lf.chars = [lf] := by decide
  obtain ⟨i, hi, hlen⟩ := h.findSubslice_wire .lf body hchars (by decide) (Or.inr rfl)
  have htake := findSubslice_take hi (hlen.trans_le hsize)
  have hcr : cr ∉ h.wire .lf := by
    rw [h.wire_eq, hchars]
    intro hmem
    rcases List.mem_append.mp hmem with hmem | hmem
    · obtain ⟨m, hm, hin⟩ := List.mem_flatMap.mp hmem
      rcases List.mem_append.mp hin with hin | hin
      · exact (h.line_plain hm).2.1 hin
      · exact absurd (List.mem_singleton.mp hin) (by decide)
    · exact absurd (List.mem_singleton.mp hmem) (by decide)
  have hskip : findSubslice ((h.wire .lf ++ body).take (maxHead + 4)) (crlf ++ crlf) =
      (findSubslice (body.take (maxHead + 4 - (h.wire .lf).length)) (crlf ++ crlf)).map
        ((h.wire .lf).length + ·) := by
    rw [List.take_append, List.take_of_length_le (by omega)]
    exact findSubslice_skip rfl hcr _
  have hsecond : findSubslice ((h.wire .lf ++ body).take (maxHead + 2)) [lf, lf] = some i := htake
  rw [headEnd, hskip, hsecond, Option.map_map, Option.map_some, ← hlen]
  rfl

end Heads

/-- **The style makes no difference** just when there is no blank line between carriage returns in
the part of the body that is searched for the end of a head of line feeds. -/
theorem styleIndependent_iff {h : HeadText} (hsize : (h.wire .lf).length < 16 * 1024)
    (body : List UInt8) (maxBody : UInt64) : StyleIndependent h body maxBody ↔
      ¬ crlf ++ crlf <:+: body.take (maxHead + 4 - (h.wire .lf).length) := by
  have hdouble := h.length_wire_crlf
  have hcrlf : headEnd (h.wire .crlf ++ body) = some (h.wire .crlf).length :=
    headEnd_crlf (by unfold maxHead; omega)
  have hreach : (h.wire .lf).length ≤ maxHead + 2 := by unfold maxHead; omega
  have hlf : headEnd (h.wire .lf ++ body) = _ := headEnd_lf hreach
  have hnone : findSubslice (body.take (maxHead + 4 - (h.wire .lf).length)) (crlf ++ crlf) = none ↔
      _ := findSubslice_eq_none (by decide)
  rw [← hnone]
  constructor
  · intro hsame
    by_contra hsome
    obtain ⟨i, hi⟩ := Option.ne_none_iff_exists'.mp hsome
    have hend := hsame.lf_end
    rw [hlf, hi, Option.map_some, Option.some_or, Option.some.injEq] at hend
    omega
  · intro hno
    rw [hno, Option.map_none, Option.none_or] at hlf
    refine ⟨?_, hcrlf, hlf⟩
    have hequal : parseResponse (h.wire .crlf ++ body) maxBody =
        parseResponse (h.wire .lf ++ body) maxBody := by
      rw [parseResponse, parseResponse, hcrlf, hlf]
      dsimp only
      rw [List.take_left, List.take_left, List.drop_left, List.drop_left, h.parseHead_wire .crlf,
        h.parseHead_wire .lf]
    rw [hequal]
    exact sameOutcome_refl _

theorem okLines_plain : ∀ l ∈ ["HTTP/1.1 200 OK".toList], l ≠ [] ∧ '\r' ∉ l ∧ '\n' ∉ l := by decide

/-- A response without headers. -/
def okHead : HeadText where
  statusLine := "HTTP/1.1 200 OK".toList
  headerLines := []
  plain := okLines_plain

/-- A body of one line reads the same in either style. -/
theorem styleIndependent_line : StyleIndependent okHead [97, 13, 10] 100 :=
  (styleIndependent_iff (by decide +kernel) _ _).mpr (by decide +kernel)

/-- With a blank line in the body, the response that ends its head with line feeds loses the part of
the body before it. -/
theorem not_same_outcome : ¬ ∀ (h : HeadText), (h.wire .lf).length < 16 * 1024 →
    ∀ (body : List UInt8) (maxBody : UInt64),
      SameOutcome (parseResponse (h.wire .crlf ++ body) maxBody)
        (parseResponse (h.wire .lf ++ body) maxBody) := by
  intro hall
  have hsame := hall okHead (by decide +kernel) [97, 13, 10, 13, 10, 98] 100
  have hcrlf : (parseResponse (okHead.wire .crlf ++ [97, 13, 10, 13, 10, 98]) 100).map
      HttpResponse.body = .ok [97, 13, 10, 13, 10, 98] := by decide +kernel
  have hlf : (parseResponse (okHead.wire .lf ++ [97, 13, 10, 13, 10, 98]) 100).map
      HttpResponse.body = .ok [98] := by decide +kernel
  exact absurd (hsame.body_eq hcrlf hlf) (by decide)

end Vlb.Http
