import Vlb.Lib.Dumps
import Vlb.Net.Uplinks

/-!
# Reading the uplink counters

The counting rules are written as input of `iptables-restore`, and their counters are read back
from what `iptables-save -c` prints of the whole table. A rule is known by its comment.

* `rules`: the chain, as it is written. `Rule.line` is one rule.
* `parse`: the counters, as they are read.
* `readLine_counted`, `readLine_other`: one lemma for each kind of line.
* **`parse_saved`**: every mark is read with its own counters, and nothing else is.
-/

namespace Vlb.Uplinks

open Canary Dumps Entries Text

/-! ## Writing -/

/-- The source's `CHAIN`. -/
def chain : List Char := "VLB_UPLINKS".toList

/-- The source's `UNMARKED`. -/
def unmarked : List Char := "unmarked".toList

/-- Of a connection. -/
inductive Direction
  | original
  | reply
  deriving DecidableEq

def Direction.ctdir : Direction → List Char
  | .original => "ORIGINAL".toList
  | .reply => "REPLY".toList

def Direction.tag : Direction → List Char
  | .original => "up".toList
  | .reply => "down".toList

/-- What a rule counts: a mark, or what has none, in one direction. -/
structure Rule where
  key : Option UInt32
  direction : Direction
  deriving DecidableEq

/-- `{m:#x}` -/
def hex (m : UInt32) : List Char := '0' :: 'x' :: Nat.toDigits 16 m.toNat

/-- The mark, or the word for none. -/
def keyText : Option UInt32 → List Char
  | some m => hex m
  | none => unmarked

namespace Rule

/-- What the reader finds the rule by. -/
def comment (r : Rule) : List Char := "vlb:".toList ++ (r.direction.tag ++ ':' :: keyText r.key)

/-- `-m connmark`, where there is a mark. -/
def connmark (mask : UInt32) (r : Rule) : List (List Char) :=
  match r.key with
  | some m => ["-m".toList, "connmark".toList, "--mark".toList, hex m ++ '/' :: hex mask]
  | none => []

/-- The words after the name of the chain, up to the comment. -/
def conditions (mask : UInt32) (r : Rule) : List (List Char) :=
  r.connmark mask ++ ["-m".toList, "conntrack".toList, "--ctdir".toList, r.direction.ctdir,
    "-m".toList, "comment".toList, "--comment".toList]

/-- The words of a rule, with its comment between quotation marks or not. -/
def words (mask : UInt32) (quotes : Bool) (r : Rule) : List (List Char) :=
  "-A".toList :: chain :: (r.conditions mask ++ [quoted quotes r.comment, "-j".toList,
    "RETURN".toList])

/-- The rule in a dump. -/
def line (mask : UInt32) (quotes : Bool) (r : Rule) : List Char :=
  [' '].intercalate (r.words mask quotes)

end Rule

/-- Both rules of a key. -/
def rulesOf (key : Option UInt32) : List Rule := [⟨key, .original⟩, ⟨key, .reply⟩]

/-- All rules of the chain. -/
def chainRules (marks : List UInt32) : List Rule := (marks.map some ++ [none]).flatMap rulesOf

/-- The rules, as `iptables-restore --noflush` input. -/
def rules (marks : List UInt32) (mask : UInt32) : List Char :=
  printed ("*filter".toList :: (':' :: (chain ++ " -".toList)) ::
    ((chainRules marks).map (Rule.line mask false) ++ ["COMMIT".toList]))

example : Rule.line 0xffff false ⟨some 0x200, .reply⟩ =
    ("-A VLB_UPLINKS -m connmark --mark 0x200/0xffff -m conntrack --ctdir REPLY -m comment " ++
      "--comment vlb:down:0x200 -j RETURN").toList := by decide +kernel

/-! ## Reading -/

/-- `str::trim_start_matches("0x")`. -/
def trimStart0x : List Char → List Char
  | '0' :: 'x' :: rest => trimStart0x rest
  | cs => cs

/-- The mark that a tag names. -/
def readKey (key : List Char) : Option (Option UInt32) :=
  if key = unmarked then some none
  else (fromStrRadix 32 16 (trimStart0x key)).map fun m => some (UInt32.ofNat m)

/-- What a word has after `vlb:`. -/
def tagOf (word : List Char) : Option (List Char) := stripPrefix "vlb:".toList (trimMatches '"' word)

/-- What is read of a line. -/
structure Counted where
  key : Option UInt32
  dir : List Char
  packets : UInt64
  bytes : UInt64
  deriving DecidableEq

/-- How the rules of the chain begin. -/
def ownRule : List Char := "-A ".toList ++ chain ++ [' ']

/-- The body of the loop of `parse`; `none` where it continues. -/
def readLine (line : List Char) : Option Counted := do
  let (counts, rule) ← splitCounts line
  if contains ownRule rule then
    let (packets, bytes) ← readCounts counts
    let tag ← (Text.words rule).findSome? tagOf
    let (dir, key) ← splitOnce ':' tag
    let key ← readKey key
    return { key, dir, packets, bytes }
  else none

/-- Download is what comes in reply. -/
def Counted.record (c : Counted) (entry : IfCounters) : IfCounters :=
  if c.dir = "down".toList then { entry with rxBytes := c.bytes, rxPackets := c.packets }
  else if c.dir = "up".toList then { entry with txBytes := c.bytes, txPackets := c.packets }
  else entry

/-- Our counters, of what `iptables-save -c` prints. -/
def parse (save : List Char) : Reading :=
  ((lines save).filterMap readLine).foldl (fun out c => upsert noTraffic c.record c.key out) ∅

/-! ## What the words of a rule are -/

section Words

variable {mask m : UInt32} {r : Rule} {key : Option UInt32} {w : List Char}

/-- No blanks, and no quotation marks. -/
def Bare (cs : List Char) : Prop := ∀ c ∈ cs, isWhitespace c = false ∧ c ≠ '"'

instance (cs : List Char) : Decidable (Bare cs) := List.decidableBAll _ cs

theorem bare_hex (m : UInt32) : Bare (hex m) := by
  have hdigits : ∀ d < 16, isWhitespace d.digitChar = false ∧ d.digitChar ≠ '"' := by decide
  intro c hc
  obtain rfl | rfl | hc : c = '0' ∨ c = 'x' ∨ c ∈ Nat.toDigits 16 m.toNat := by
    simpa [hex] using hc
  · decide
  · decide
  · obtain ⟨d, hd, rfl⟩ := Numerals.mem_toDigits_hex hc
    exact hdigits d hd

theorem plain_hex (m : UInt32) : Plain (hex m) := fun c hc => (bare_hex m c hc).1

theorem bare_comment (r : Rule) : Bare r.comment := by
  have hname : Bare "vlb:".toList := by decide
  have htag : Bare r.direction.tag := by cases r.direction <;> decide
  have hkey : Bare (keyText r.key) := by
    cases r.key with
    | none =>
      have hunmarked : Bare unmarked := by decide
      exact hunmarked
    | some m => exact bare_hex m
  exact List.forall_mem_append.mpr ⟨hname,
    List.forall_mem_append.mpr ⟨htag, List.forall_mem_cons.mpr ⟨by decide, hkey⟩⟩⟩

theorem tagOf_eq_none {c : Char} (hhead : w.head? = some c) (hquote : c ≠ '"') (hv : c ≠ 'v') :
    tagOf w = none := by
  have hkept := head?_trimMatches hhead hquote
  rw [tagOf, Option.eq_none_iff_forall_ne_some]
  intro rest hrest
  rw [stripPrefix_eq_some hrest] at hkept
  exact hv (Option.some.inj hkept).symm

theorem trimStart0x_eq_self {cs : List Char} (h : 'x' ∉ cs) : trimStart0x cs = cs := by
  unfold trimStart0x
  split
  · exact absurd (by simp) h
  · rfl

/-- **A key is read as it was written.** -/
theorem readKey_keyText (key : Option UInt32) : readKey (keyText key) = some key := by
  cases key with
  | none => rfl
  | some m =>
    have hother : keyText (some m) ≠ unmarked := fun h => by
      have hhead := (List.cons.inj h).1
      exact absurd hhead (by decide)
    have hdigits : trimStart0x (keyText (some m)) = Nat.toDigits 16 m.toNat :=
      trimStart0x_eq_self (Numerals.not_mem_toDigits_hex (by decide))
    rw [readKey, if_neg hother, hdigits, fromStrRadix, Numerals.number_toDigits_hex,
      Option.filter_some, if_pos (decide_eq_true m.toNat_lt), Option.map_some, UInt32.ofNat_toNat]

/-- A word that is not taken for a tag. -/
def Skipped (w : List Char) : Prop := (w ≠ [] ∧ Plain w) ∧ tagOf w = none

instance (w : List Char) : Decidable (Skipped w) :=
  inferInstanceAs (Decidable ((w ≠ [] ∧ Plain w) ∧ tagOf w = none))

theorem skipped_mark (m mask : UInt32) : Skipped (hex m ++ '/' :: hex mask) := by
  refine ⟨⟨by simp [hex], ?_⟩, tagOf_eq_none rfl (by decide) (by decide)⟩
  exact List.forall_mem_append.mpr
    ⟨plain_hex m, List.forall_mem_cons.mpr ⟨by decide, plain_hex mask⟩⟩

theorem skipped_direction (d : Direction) : ∀ w ∈ ["-m".toList, "conntrack".toList,
    "--ctdir".toList, d.ctdir, "-m".toList, "comment".toList, "--comment".toList], Skipped w := by
  cases d <;> decide

theorem skipped_conditions (mask : UInt32) (r : Rule) :
    ∀ w ∈ "-A".toList :: chain :: r.conditions mask, Skipped w := by
  obtain ⟨key, direction⟩ := r
  refine List.forall_mem_cons.mpr ⟨by decide, List.forall_mem_cons.mpr ⟨by decide, ?_⟩⟩
  refine List.forall_mem_append.mpr ⟨?_, ?_⟩
  · cases key with
    | none => exact List.forall_mem_nil _
    | some m =>
      have hfixed : ∀ w ∈ ["-m".toList, "connmark".toList, "--mark".toList], Skipped w := by decide
      exact List.forall_mem_append.mpr ⟨hfixed, List.forall_mem_singleton.mpr (skipped_mark m mask)⟩
  · exact skipped_direction direction

theorem tagOf_comment (quotes : Bool) (r : Rule) :
    tagOf (quoted quotes r.comment) = some (r.direction.tag ++ ':' :: keyText r.key) := by
  have hquote : '"' ∉ r.comment := fun h => (bare_comment r '"' h).2 rfl
  rw [tagOf, trimMatches_quoted hquote, Rule.comment, stripPrefix_append]

theorem isWord_words (mask : UInt32) (quotes : Bool) (r : Rule) :
    ∀ w ∈ r.words mask quotes, w ≠ [] ∧ Plain w := by
  have hcomment : quoted quotes r.comment ≠ [] ∧ Plain (quoted quotes r.comment) := by
    have hplain : Plain r.comment := fun c hc => (bare_comment r c hc).1
    cases quotes with
    | false => exact ⟨by simp [quoted, Rule.comment], hplain⟩
    | true =>
      refine ⟨by simp [quoted], List.forall_mem_cons.mpr ⟨by decide, ?_⟩⟩
      exact List.forall_mem_append.mpr ⟨hplain, List.forall_mem_singleton.mpr (by decide)⟩
  have hend : ∀ w ∈ ["-j".toList, "RETURN".toList], w ≠ [] ∧ Plain w := by decide
  have hstart : ∀ w ∈ "-A".toList :: chain :: r.conditions mask, w ≠ [] ∧ Plain w :=
    fun w hw => (skipped_conditions mask r w hw).1
  exact List.forall_mem_append.mpr ⟨hstart, List.forall_mem_cons.mpr ⟨hcomment, hend⟩⟩

theorem findSome?_line (mask : UInt32) (quotes : Bool) (r : Rule) :
    (Text.words (' ' :: r.line mask quotes)).findSome? tagOf =
      some (r.direction.tag ++ ':' :: keyText r.key) := by
  have hskip : ("-A".toList :: chain :: r.conditions mask).findSome? tagOf = none :=
    List.findSome?_eq_none_iff.mpr fun w hw => (skipped_conditions mask r w hw).2
  have hsplit : r.words mask quotes = ("-A".toList :: chain :: r.conditions mask) ++
      [quoted quotes r.comment, "-j".toList, "RETURN".toList] := by simp [Rule.words]
  have hblank : isWhitespace ' ' = true := by decide
  rw [words_cons_blank hblank, Rule.line, words_spaced (isWord_words mask quotes r), hsplit,
    List.findSome?_append, hskip, Option.none_or,
    List.findSome?_cons, tagOf_comment]

end Words

/-! ## Lines -/

variable {mask : UInt32}

theorem getLast?_line (mask : UInt32) (quotes : Bool) (r : Rule) :
    (r.line mask quotes).getLast? = some 'N' := by
  refine getLast?_spaced (w := "RETURN".toList) ?_ rfl
  rw [Rule.words, ← List.cons_append, ← List.cons_append, List.getLast?_append_cons]
  rfl

theorem contains_ownRule_line (mask : UInt32) (quotes : Bool) (r : Rule) :
    contains ownRule (' ' :: r.line mask quotes) = true := by
  obtain ⟨w, ws, hrest⟩ : ∃ w ws, r.conditions mask ++ [quoted quotes r.comment, "-j".toList,
    "RETURN".toList] = w :: ws := List.exists_cons_of_ne_nil (by simp)
  rw [contains_iff, Rule.line, Rule.words, hrest]
  exact ⟨[' '], [' '].intercalate (w :: ws), by simp [ownRule, List.intercalate_cons_cons]⟩

/-- **A rule is read with its counters.** -/
theorem readLine_counted (packets bytes : UInt64) (mask : UInt32) (quotes : Bool) (r : Rule) :
    readLine (stripReturn (counted packets bytes (r.line mask quotes))) =
      some ⟨r.key, r.direction.tag, packets, bytes⟩ := by
  have hlast := getLast?_line mask quotes r
  have hcolon : ':' ∉ r.direction.tag := by cases r.direction <;> decide
  rw [stripReturn_of_last (getLast?_counted hlast) (by decide), readLine,
    splitCounts_counted hlast (by decide)]
  simp only [Option.bind_eq_bind, Option.bind_some, contains_ownRule_line, if_true,
    readCounts_digits, findSome?_line, splitOnce_append hcolon, readKey_keyText]
  rfl

/-- **A line that does not have the beginning of a rule is skipped.** -/
theorem readLine_other {l : List Char} (h : contains ownRule l = false) :
    readLine (stripReturn l) = none := by
  cases hsplit : splitCounts (stripReturn l) with
  | none => rw [readLine, hsplit]; rfl
  | some parts =>
    obtain ⟨counts, rule⟩ := parts
    have hrule : contains ownRule rule = false := by
      rw [Bool.eq_false_iff, ne_eq, contains_iff]
      intro hin
      have hline := contains_iff.mpr (hin.trans (isInfix_splitCounts hsplit))
      rw [contains_stripReturn (by decide) (by decide), h] at hline
      cases hline
    rw [readLine, hsplit]
    simp only [Option.bind_eq_bind, Option.bind_some, hrule, Bool.false_eq_true, if_false]

/-! ## Readings -/

section Readings

variable {key : Option UInt32} {keys : List (Option UInt32)} {marks : List UInt32}

theorem key_of_mem_rulesOf : ∀ r ∈ rulesOf key, r.key = key := by
  intro r hr
  rcases List.mem_pair.mp hr with rfl | rfl <;> rfl

theorem nodup_keys (hmarks : marks.Nodup) : (marks.map some ++ [none]).Nodup := by
  rw [List.nodup_append']
  exact ⟨hmarks.map fun _ _ => Option.some.inj, List.nodup_singleton _, by simp⟩

theorem mem_keys_chainRules :
    key ∈ (chainRules marks).map Rule.key ↔ key ∈ marks.map some ++ [none] := by
  simp only [chainRules, List.mem_map, List.mem_flatMap, rulesOf, List.mem_pair]
  constructor
  · rintro ⟨r, ⟨k, hk, rfl | rfl⟩, rfl⟩ <;> exact hk
  · intro hkey
    exact ⟨⟨key, .original⟩, ⟨key, hkey, Or.inl rfl⟩, rfl⟩

/-- What is read of a rule that has counted so much. -/
def countedRule (packets bytes : Rule → UInt64) (r : Rule) : Counted :=
  ⟨r.key, r.direction.tag, packets r, bytes r⟩

/-- How a rule is saved. -/
def saved (mask : UInt32) (packets bytes : Rule → UInt64) (quotes : Rule → Bool) (r : Rule) :
    List Char :=
  counted (packets r) (bytes r) (r.line mask (quotes r))

variable {mask : UInt32} {packets bytes : Rule → UInt64} {quotes : Rule → Bool} {d : Dump Rule}

theorem newline_not_mem_saved (r : Rule) : '\n' ∉ saved mask packets bytes quotes r :=
  newline_not_mem_counted
    (not_mem_spaced (fun w hw => (isWord_words mask (quotes r) r w hw).2) (by decide) (by decide))

theorem parse_text (hother : ∀ l, .inr l ∈ d → '\n' ∉ l ∧ contains ownRule l = false) :
    parse (text (saved mask packets bytes quotes) d) =
      (entries d).foldl (fun out r => upsert noTraffic (countedRule packets bytes r).record r.key out)
        ∅ := by
  have hlines : (lines (text (saved mask packets bytes quotes) d)).filterMap readLine =
      (entries d).map (countedRule packets bytes) := by
    refine filterMap_text (fun r _ => ⟨newline_not_mem_saved r, ?_⟩)
      fun l hl => ⟨(hother l hl).1, ?_⟩
    · exact readLine_counted (packets r) (bytes r) mask (quotes r) r
    · exact readLine_other (hother l hl).2
  rw [parse, hlines, List.foldl_map]
  rfl

/-- **The uplink counters are read as the rules have counted**: there is one entry for every mark
and one for what has none, with what came in reply as `rx` and the rest as `tx`. -/
theorem parse_saved {marks : List UInt32} (hmarks : marks.Nodup) (mask : UInt32)
    (packets bytes : Rule → UInt64) (quotes : Rule → Bool) {d : Dump Rule}
    (hrules : entries d = chainRules marks)
    (hother : ∀ l, .inr l ∈ d → '\n' ∉ l ∧ contains ownRule l = false) :
    (parse (text (saved mask packets bytes quotes) d)).keys.Perm (none :: marks.map some) ∧
      ∀ key ∈ none :: marks.map some,
        (parse (text (saved mask packets bytes quotes) d)).lookup key = some
          { rxBytes := bytes ⟨key, .reply⟩, rxPackets := packets ⟨key, .reply⟩
            txBytes := bytes ⟨key, .original⟩, txPackets := packets ⟨key, .original⟩ } := by
  have hnodup := nodup_keys hmarks
  have hswap : (marks.map some ++ [none]).Perm (none :: marks.map some) :=
    List.perm_append_singleton _ _
  have hkeys (key : Option UInt32) : key ∈ parse (text (saved mask packets bytes quotes) d) ↔
      key ∈ none :: marks.map some := by
    rw [parse_text hother, mem_foldl_upsert, hrules, mem_keys_chainRules, hswap.mem_iff]
    simp
  refine ⟨(List.perm_ext_iff_of_nodup (AList.keys_nodup _) (hswap.nodup_iff.mp hnodup)).mpr hkeys,
    ?_⟩
  intro key hkey
  -- each key has its two rules
  have hown : (chainRules marks).filter (fun r => r.key = key) = rulesOf key :=
    filter_flatMap_of_nodup id (fun _ => key_of_mem_rulesOf) (by rwa [List.map_id])
      (hswap.mem_iff.mpr hkey)
  rw [lookup_eq_getD ((hkeys key).mpr hkey) noTraffic, parse_text hother, getD_foldl_upsert, hrules,
    hown]
  rfl

/-- The rules of one mark, among those of other chains. -/
def savedFilter : Dump Rule :=
  [.inr "*filter".toList, .inr ":FORWARD ACCEPT [0:0]".toList, .inr ":VLB_UPLINKS - [0:0]".toList,
    .inr "[10:1500] -A FORWARD -j VLB_UPLINKS".toList, .inl ⟨some 0x200, .original⟩,
    .inl ⟨some 0x200, .reply⟩, .inl ⟨none, .original⟩, .inl ⟨none, .reply⟩,
    .inr "[5:500] -A VLB_CLIENTS -d 10.0.0.50/32 -m comment --comment vlb:dl:10.0.0.50".toList,
    .inr "COMMIT".toList]

theorem parse_savedFilter :
    (parse (text (saved 0xffff (fun r => if r.key.isSome then 7 else 3)
      (fun r => if r.direction = .reply then 9000 else 700) fun r => r.key.isNone) savedFilter)).lookup
        (some 0x200) = some ⟨9000, 7, 700, 7⟩ := by
  have hother :
      ∀ l ∈ savedFilter.filterMap Sum.getRight?, '\n' ∉ l ∧ contains ownRule l = false := by
    decide
  exact (parse_saved (List.nodup_singleton (0x200 : UInt32)) 0xffff _ _ _ rfl
    fun l hl => hother l (List.mem_filterMap.mpr ⟨.inr l, hl, rfl⟩)).2 (some 0x200) (by decide)

end Readings

end Vlb.Uplinks
