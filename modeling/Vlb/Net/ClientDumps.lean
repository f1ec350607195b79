import Vlb.Lib.Dumps
import Vlb.Net.Clients

/-!
# Reading the client counters

The counters of the clients are read from `iptables-save -c`, or, where that cannot be run, from the
listing that `iptables -L -x -v -n` prints. A rule is known by the tag and the address in its
comment, wherever in the line that is.

* `Rule.args`: a rule, as `add_rules` gives it to `iptables`. `saveLine` and `Layout.line` are how
  the two programs print it.
* `taggedIp`: the client and the direction that a line names.
* `parseIptablesSave`, `parseIptablesList`: the two readers.
* `parseIptablesSave_text`, `parseIptablesList_text`: each finds what is `listed` of the rules.
* **`readers_agree`**: both find the same counters, those of the clients that have rules.
-/

namespace Vlb

/-! ## Addresses -/

namespace Ipv4Addr

theorem toList_display (ip : Ipv4Addr) : ip.display.toList =
    ['.'].intercalate ([24, 16, 8, 0].map fun i => Nat.toDigits 10 (ip.extractLsb' i 8).toNat) := by
  rw [display, String.toList_intercalate, List.map_map]
  simp [Function.comp_def]

theorem parseOctet_toDigits (b : BitVec 8) : parseOctet (Nat.toDigits 10 b.toNat) = some b := by
  have hall : ∀ n < 256, parseOctet (Nat.toDigits 10 n) = some (BitVec.ofNat 8 n) := by
    decide +kernel
  rw [hall b.toNat b.isLt, BitVec.ofNat_toNat, BitVec.setWidth_eq]

theorem ofOctets_extract (ip : Ipv4Addr) : ofOctets (ip.extractLsb' 24 8) (ip.extractLsb' 16 8)
    (ip.extractLsb' 8 8) (ip.extractLsb' 0 8) = ip := by
  rw [ofOctets, BitVec.extractLsb'_append_extractLsb'_eq_extractLsb' (by decide),
    BitVec.extractLsb'_append_extractLsb'_eq_extractLsb' (by decide),
    BitVec.extractLsb'_append_extractLsb'_eq_extractLsb' (by decide)]
  exact BitVec.extractLsb'_eq_self

/-- **An address is read as it was written.** -/
theorem parse_display (ip : Ipv4Addr) : parse ip.display = some ip := by
  have hdots : ∀ l ∈ [24, 16, 8, 0].map fun i => Nat.toDigits 10 (ip.extractLsb' i 8).toNat,
      '.' ∉ l := by
    intro l hl
    obtain ⟨i, -, rfl⟩ := List.mem_map.mp hl
    exact Text.not_mem_toDigits rfl
  rw [parse, toList_display, List.splitOn_intercalate _ hdots (by simp)]
  simp only [List.map_cons, List.map_nil, parseOctet_toDigits]
  exact congrArg some (ofOctets_extract ip)

theorem of_mem_display {ip : Ipv4Addr} {c : Char} (h : c ∈ ip.display.toList) :
    (c.isDigit || c == '.') = true := by
  rw [toList_display] at h
  obtain hdot | ⟨l, hl, hc⟩ := Text.mem_intercalate h
  · rw [List.mem_singleton.mp hdot]
    rfl
  · obtain ⟨i, -, rfl⟩ := List.mem_map.mp hl
    rw [Nat.isDigit_of_mem_toDigits (by decide) (by decide) hc, Bool.true_or]

theorem not_mem_display {ip : Ipv4Addr} {c : Char} (h : (c.isDigit || c == '.') = false) :
    c ∉ ip.display.toList := fun hc => by
  rw [of_mem_display hc] at h
  cases h

end Ipv4Addr

namespace Clients

open Dumps Entries Text

/-! ## Writing -/

/-- The source's `CHAIN`. -/
def chain : List Char := "VLB_CLIENTS".toList

/-- `TAG_DL` and `TAG_UL`. -/
def Direction.tag : Direction → List Char
  | .download => "vlb:dl:".toList
  | .upload => "vlb:ul:".toList

/-- What the rule matches the client by. -/
def Direction.flag : Direction → List Char
  | .download => "-d".toList
  | .upload => "-s".toList

/-- The tag and the client. -/
def Rule.comment (r : Rule) : List Char := r.direction.tag ++ r.ip.display.toList

/-- A rule, up to its comment. -/
def Rule.condition (r : Rule) : List (List Char) :=
  ["-A".toList, chain, r.direction.flag, r.ip.display.toList ++ "/32".toList, "-m".toList,
    "comment".toList, "--comment".toList]

/-- What `add_rules` gives to `iptables`, after the name of the table. It is printed as it was
given, maybe with quotation marks around the comment. -/
def Rule.args (quotes : Bool) (r : Rule) : List (List Char) :=
  r.condition ++ [quoted quotes r.comment]

/-- A line of `iptables-save -c`. -/
def saveLine (quotes : Rule → Bool) (r : Rule) : List Char :=
  counted r.packets r.bytes ([' '].intercalate (r.args (quotes r)))

/-- Nothing here is taken for a tag. -/
def Untagged (cs : List Char) : Prop :=
  contains Direction.download.tag cs = false ∧ contains Direction.upload.tag cs = false

instance (cs : List Char) : Decidable (Untagged cs) :=
  inferInstanceAs (Decidable (_ = false ∧ _ = false))

/-- How `iptables -L -x -v -n` lays a rule out: the blanks before its counters, and the columns
between them and the comment. -/
structure Layout where
  packetsPad : Rule → ℕ
  bytesPad : Rule → ℕ
  columns : Rule → List Char
  untagged : ∀ r, Untagged (columns r)
  oneLine : ∀ r, '\n' ∉ columns r

/-- A line of `iptables -L -x -v -n`. -/
def Layout.line (layout : Layout) (r : Rule) : List Char :=
  List.replicate (layout.packetsPad r) ' ' ++ (Nat.toDigits 10 r.packets.toNat ++ ' ' ::
    (List.replicate (layout.bytesPad r) ' ' ++ (Nat.toDigits 10 r.bytes.toNat ++ ' ' ::
      (layout.columns r ++ ' ' :: ("/*".toList ++ ' ' :: (r.comment ++ " */".toList))))))

/-! ## Reading -/

/-- The address after the tag, if the tag is there. -/
def addressAfter (d : Direction) (line : List Char) : Option Ipv4Addr :=
  (afterFirst d.tag line).bind fun rest =>
    Ipv4Addr.parse (String.ofList (rest.takeWhile fun c => c.isDigit || c == '.'))

/-- `tagged_ip` -/
def taggedIp (line : List Char) : Option (Ipv4Addr × Direction) :=
  [Direction.download, Direction.upload].findSome? fun d => (addressAfter d line).map (·, d)

/-- The body of the loop of `parse_iptables_save`; `none` where it continues. -/
def readSaveLine (line : List Char) : Option Rule := do
  let (counts, rule) ← splitCounts line
  let (packets, bytes) ← readCounts counts
  let (ip, direction) ← taggedIp rule
  return { ip, direction, packets, bytes }

/-- The body of the loop of `parse_iptables_list`. -/
def readListLine (line : List Char) : Option Rule :=
  match words line with
  | pkts :: bytes :: _ => do
    let packets ← parseU64 pkts
    let bytes ← parseU64 bytes
    let (ip, direction) ← taggedIp line
    return { ip, direction, packets, bytes }
  | _ => none

/-- What is read of `iptables-save -c`. -/
def parseIptablesSave (stdout : List Char) : Reading :=
  listed ((lines stdout).filterMap readSaveLine)

/-- What is read of `iptables -L -v -x -n`. -/
def parseIptablesList (stdout : List Char) : Reading :=
  listed ((lines stdout).filterMap readListLine)

/-! ## Tags -/

section Tags

variable {cs front rest : List Char} {sep : Char} {ip : Ipv4Addr} {d : Direction} {r : Rule}

theorem Untagged.no_tag (h : Untagged cs) (d : Direction) : ¬ d.tag <:+: cs := by
  intro hin
  have hcontains := contains_iff.mpr hin
  cases d with
  | download => rw [h.1] at hcontains; cases hcontains
  | upload => rw [h.2] at hcontains; cases hcontains

theorem untagged_iff : Untagged cs ↔ ∀ d : Direction, ¬ d.tag <:+: cs := by
  refine ⟨Untagged.no_tag, fun h => ⟨?_, ?_⟩⟩
  · exact Bool.eq_false_iff.mpr fun hcontains => h .download (contains_iff.mp hcontains)
  · exact Bool.eq_false_iff.mpr fun hcontains => h .upload (contains_iff.mp hcontains)

theorem Untagged.of_part (h : Untagged cs) (hin : front <:+: cs) : Untagged front :=
  untagged_iff.mpr fun d hd => h.no_tag d (hd.trans hin)

theorem untagged_of_not_mem (h : 'v' ∉ cs) : Untagged cs := by
  refine untagged_iff.mpr fun d hin => h (hin.subset ?_)
  cases d <;> decide

theorem taggedIp_untagged (h : Untagged cs) : taggedIp cs = none := by
  have hnone (d : Direction) : addressAfter d cs = none := by
    rw [addressAfter, afterFirst_eq_none (h.no_tag d)]
    rfl
  simp only [taggedIp, List.findSome?_cons, hnone, Option.map_none, List.findSome?_nil]

theorem taggedIp_skip (h : Untagged front) (hsep : ∀ d : Direction, sep ∉ d.tag) :
    taggedIp (front ++ sep :: rest) = taggedIp rest := by
  have hskip (d : Direction) : addressAfter d (front ++ sep :: rest) = addressAfter d rest := by
    have hne : d.tag ≠ [] := by cases d <;> decide
    rw [addressAfter, afterFirst_append hne (hsep d) (h.no_tag d)]
    rfl
  simp only [taggedIp, List.findSome?_cons, hskip]

theorem addressAfter_comment (hrest : ∀ c ∈ rest.head?, (c.isDigit || c == '.') = false) :
    addressAfter r.direction (r.comment ++ rest) = some r.ip := by
  have htake : (r.ip.display.toList ++ rest).takeWhile (fun c => c.isDigit || c == '.') =
      r.ip.display.toList := by
    rw [List.takeWhile_append_of_pos fun c hc => Ipv4Addr.of_mem_display hc]
    cases rest with
    | nil => rw [List.takeWhile_nil, List.append_nil]
    | cons c rest =>
      have hstop := hrest c rfl
      rw [List.takeWhile_cons, hstop, if_neg Bool.false_ne_true, List.append_nil]
  rw [addressAfter, Rule.comment, List.append_assoc, afterFirst_self, Option.bind_some, htake,
    String.ofList_toList, Ipv4Addr.parse_display]

/-- **The client is found by its comment.** -/
theorem taggedIp_comment (hrest : ∀ c ∈ rest.head?, (c.isDigit || c == '.') = false)
    (hv : 'v' ∉ rest) : taggedIp (r.comment ++ rest) = some (r.ip, r.direction) := by
  have hown := addressAfter_comment (r := r) hrest
  obtain ⟨ip, direction, packets, bytes⟩ := r
  cases direction with
  | download =>
    rw [taggedIp, List.findSome?_cons, hown]
    rfl
  | upload =>
    -- the tag of a download is no part of this comment
    have hother : ¬ Direction.download.tag <:+: Direction.upload.tag ++ ip.display.toList ++ rest := by
      have hnot : 'v' ∉ "lb:ul:".toList ++ ip.display.toList ++ rest := by
        simp only [List.mem_append, not_or]
        exact ⟨⟨by decide, Ipv4Addr.not_mem_display rfl⟩, hv⟩
      have hsplit : Direction.upload.tag ++ ip.display.toList ++ rest =
          'v' :: ("lb:ul:".toList ++ ip.display.toList ++ rest) := rfl
      rw [hsplit, List.infix_cons_iff, not_or]
      refine ⟨?_, fun hin => hnot (hin.subset (by decide))⟩
      rintro ⟨back, hback⟩
      have hfifth : some 'd' = some 'u' := congrArg (fun cs : List Char => cs[4]?) hback
      exact absurd hfifth (by decide)
    have hnone : addressAfter .download (Direction.upload.tag ++ ip.display.toList ++ rest) = none := by
      rw [addressAfter, afterFirst_eq_none hother]
      rfl
    rw [Rule.comment] at hown ⊢
    simp only [taggedIp, List.findSome?_cons, hnone, hown, Option.map_none, Option.map_some]

end Tags

/-! ## Lines -/

section Lines

variable {quotes : Rule → Bool} {layout : Layout} {r : Rule} {l : List Char}

theorem plain_display (ip : Ipv4Addr) : Plain ip.display.toList := by
  intro c hc
  obtain hdigit | hdot := Bool.or_eq_true_iff.mp (Ipv4Addr.of_mem_display hc)
  · exact isWhitespace_of_isDigit hdigit
  · rw [beq_iff_eq.mp hdot]
    rfl

theorem isWord_condition (r : Rule) : ∀ w ∈ r.condition, w ≠ [] ∧ Plain w ∧ 'v' ∉ w := by
  have hfixed : ∀ w ∈ ["-A".toList, chain, "-m".toList, "comment".toList, "--comment".toList],
      w ≠ [] ∧ Plain w ∧ 'v' ∉ w := by decide
  have hflag : r.direction.flag ≠ [] ∧ Plain r.direction.flag ∧ 'v' ∉ r.direction.flag := by
    cases r.direction <;> decide
  have hip : r.ip.display.toList ++ "/32".toList ≠ [] ∧
      Plain (r.ip.display.toList ++ "/32".toList) ∧ 'v' ∉ r.ip.display.toList ++ "/32".toList := by
    have hlength : Plain "/32".toList := by decide
    refine ⟨List.append_ne_nil_of_right_ne_nil _ (by decide), ?_, ?_⟩
    · exact List.forall_mem_append.mpr ⟨plain_display r.ip, hlength⟩
    · exact List.not_mem_append (Ipv4Addr.not_mem_display rfl) (by decide)
  simp only [Rule.condition, List.forall_mem_cons] at hfixed ⊢
  obtain ⟨happend, hchain, hm, hcomment, hname, hnil⟩ := hfixed
  exact ⟨happend, hchain, hflag, hip, hm, hcomment, hname, hnil⟩

theorem isWord_quoted (quotes : Bool) (r : Rule) :
    quoted quotes r.comment ≠ [] ∧ Plain (quoted quotes r.comment) := by
  have htag : r.direction.tag ≠ [] ∧ Plain r.direction.tag := by cases r.direction <;> decide
  have hplain : Plain r.comment := List.forall_mem_append.mpr ⟨htag.2, plain_display r.ip⟩
  cases quotes with
  | false => exact ⟨List.append_ne_nil_of_left_ne_nil htag.1 _, hplain⟩
  | true =>
    refine ⟨by simp [quoted], List.forall_mem_cons.mpr ⟨by decide, ?_⟩⟩
    exact List.forall_mem_append.mpr ⟨hplain, List.forall_mem_singleton.mpr (by decide)⟩

theorem taggedIp_quoted (quotes : Bool) (r : Rule) :
    taggedIp (quoted quotes r.comment) = some (r.ip, r.direction) := by
  cases quotes with
  | false =>
    have h : taggedIp (r.comment ++ []) = some (r.ip, r.direction) :=
      taggedIp_comment (by simp) List.not_mem_nil
    rwa [List.append_nil] at h
  | true =>
    have hmark : taggedIp ([] ++ '"' :: (r.comment ++ ['"'])) = taggedIp (r.comment ++ ['"']) :=
      taggedIp_skip (by decide) fun d => by cases d <;> decide
    rw [List.nil_append] at hmark
    rw [quoted, if_pos rfl, hmark, taggedIp_comment (by simp) (by decide)]

theorem space_not_mem_tag (d : Direction) : ' ' ∉ d.tag := by cases d <;> decide

/-- **`iptables-save` prints a rule that is read as it is.** -/
theorem readSaveLine_saveLine (quotes : Rule → Bool) (r : Rule) :
    readSaveLine (stripReturn (saveLine quotes r)) = some r := by
  obtain ⟨hne, hplain⟩ := isWord_quoted (quotes r) r
  obtain ⟨d, hd, hblank⟩ := exists_getLast? hne hplain
  have hlast : ([' '].intercalate (r.args (quotes r))).getLast? = some d :=
    getLast?_spaced List.getLast?_concat hd
  have hreturn : d ≠ '\r' := fun h => by rw [h] at hblank; exact absurd hblank (by decide)
  have hfront : Untagged (' ' :: [' '].intercalate r.condition) := by
    refine untagged_of_not_mem fun hv => ?_
    obtain hv | hv := List.mem_cons.mp hv
    · exact absurd hv (by decide)
    · obtain hv | ⟨w, hw, hv⟩ := mem_intercalate hv
      · exact absurd (List.mem_singleton.mp hv) (by decide)
      · exact (isWord_condition r w hw).2.2 hv
  have htag : taggedIp (' ' :: [' '].intercalate (r.args (quotes r))) =
      some (r.ip, r.direction) := by
    have hsome : r.condition ≠ [] := List.cons_ne_nil _ _
    rw [Rule.args, spaced_concat hsome, ← List.cons_append,
      taggedIp_skip hfront space_not_mem_tag, taggedIp_quoted]
  rw [saveLine, stripReturn_of_last (getLast?_counted hlast) hreturn, readSaveLine,
    splitCounts_counted hlast hblank]
  simp only [Option.bind_eq_bind, Option.bind_some, readCounts_digits, htag]
  rfl

theorem newline_not_mem_saveLine (quotes : Rule → Bool) (r : Rule) : '\n' ∉ saveLine quotes r := by
  refine newline_not_mem_counted (not_mem_spaced ?_ (by decide) (by decide))
  exact List.forall_mem_append.mpr ⟨fun w hw => (isWord_condition r w hw).2.1,
    List.forall_mem_singleton.mpr (isWord_quoted (quotes r) r).2⟩

/-- **The listing shows a rule that is read as it is.** -/
theorem readListLine_line (layout : Layout) (r : Rule) :
    readListLine (stripReturn (layout.line r)) = some r := by
  have hblank : isWhitespace ' ' = true := by decide
  have hlast : (layout.line r).getLast? = some '/' := by
    simp [Layout.line, List.getLast?_cons_of_ne_nil]
  have hwords : words (layout.line r) = Nat.toDigits 10 r.packets.toNat ::
      Nat.toDigits 10 r.bytes.toNat :: words (layout.columns r ++ ' ' :: ("/*".toList ++ ' ' ::
        (r.comment ++ " */".toList))) := by
    rw [Layout.line, words_replicate, words_cons Nat.toDigits_ne_nil (plain_toDigits _) hblank,
      words_replicate, words_cons Nat.toDigits_ne_nil (plain_toDigits _) hblank]
  have hcounter (pad : ℕ) (n : UInt64) :
      Untagged (List.replicate pad ' ' ++ Nat.toDigits 10 n.toNat) :=
    untagged_of_not_mem (List.not_mem_append (fun h => absurd (List.eq_of_mem_replicate h) (by decide))
      (not_mem_toDigits rfl))
  have htag : taggedIp (layout.line r) = some (r.ip, r.direction) := by
    rw [Layout.line, ← List.append_assoc, taggedIp_skip (hcounter _ _) space_not_mem_tag,
      ← List.append_assoc, taggedIp_skip (hcounter _ _) space_not_mem_tag,
      taggedIp_skip (layout.untagged r) space_not_mem_tag,
      taggedIp_skip (by decide) space_not_mem_tag, taggedIp_comment (by simp) (by decide)]
  rw [stripReturn_of_last hlast (by decide), readListLine, hwords]
  simp only [parseU64_toDigits, Option.bind_eq_bind, Option.bind_some, htag]
  rfl

theorem newline_not_mem_line (layout : Layout) (r : Rule) : '\n' ∉ layout.line r := by
  have hdigits (n : ℕ) : '\n' ∉ Nat.toDigits 10 n := not_mem_toDigits rfl
  have htag : '\n' ∉ r.direction.tag := by cases r.direction <;> decide
  have hip : '\n' ∉ r.ip.display.toList := Ipv4Addr.not_mem_display rfl
  simp [Layout.line, Rule.comment, hdigits, htag, hip, layout.oneLine r]

theorem Untagged.stripReturn (h : Untagged l) : Untagged (stripReturn l) := by
  unfold Untagged
  rwa [contains_stripReturn (by decide) (by decide), contains_stripReturn (by decide) (by decide)]

/-- **Untagged lines are passed over.** -/
theorem readSaveLine_untagged (h : Untagged l) : readSaveLine (stripReturn l) = none := by
  cases hsplit : splitCounts (stripReturn l) with
  | none => rw [readSaveLine, hsplit]; rfl
  | some parts =>
    obtain ⟨counts, rule⟩ := parts
    have hrule : taggedIp rule = none :=
      taggedIp_untagged (h.stripReturn.of_part (isInfix_splitCounts hsplit))
    rw [readSaveLine, hsplit]
    simp [hrule]

theorem readListLine_untagged (h : Untagged l) : readListLine (stripReturn l) = none := by
  rw [readListLine, taggedIp_untagged h.stripReturn]
  split <;> simp

end Lines

/-! ## Readings -/

section Readings

variable {d : Dump Rule} {rules : List Rule} {quotes : Rule → Bool} {layout : Layout}
  {m : Reading} {hasRules : Ipv4Addr → Bool} {ip : Ipv4Addr}

/-- What is printed of some rules, in any order, between untagged lines. -/
structure Shows (d : Dump Rule) (rules : List Rule) : Prop where
  entries : (entries d).Perm rules
  others : ∀ l, .inr l ∈ d → '\n' ∉ l ∧ Untagged l

/-- **`iptables-save` tells what the rules have counted.** -/
theorem parseIptablesSave_text (h : Shows d rules) :
    parseIptablesSave (text (saveLine quotes) d) = listed (entries d) := by
  have hlines : (lines (text (saveLine quotes) d)).filterMap readSaveLine = (entries d).map id := by
    refine filterMap_text (fun r _ => ⟨newline_not_mem_saveLine quotes r, ?_⟩)
      fun l hl => ⟨(h.others l hl).1, readSaveLine_untagged (h.others l hl).2⟩
    exact readSaveLine_saveLine quotes r
  rw [parseIptablesSave, hlines, List.map_id]

/-- **So does the listing.** -/
theorem parseIptablesList_text (h : Shows d rules) :
    parseIptablesList (text layout.line d) = listed (entries d) := by
  have hlines : (lines (text layout.line d)).filterMap readListLine = (entries d).map id := by
    refine filterMap_text (fun r _ => ⟨newline_not_mem_line layout r, ?_⟩)
      fun l hl => ⟨(h.others l hl).1, readListLine_untagged (h.others l hl).2⟩
    exact readListLine_line layout r
  rw [parseIptablesList, hlines, List.map_id]

/-- The two rules of a client, with its counters. -/
def rulesOf (e : Sigma fun _ : Ipv4Addr => ClientCounters) : List Rule :=
  [⟨e.1, .download, e.2.rxPackets, e.2.rxBytes⟩, ⟨e.1, .upload, e.2.txPackets, e.2.txBytes⟩]

/-- The rules that `add_rules` has installed, of some of the clients. -/
def installed (m : Reading) (hasRules : Ipv4Addr → Bool) : List Rule :=
  (m.entries.filter fun e => hasRules e.1).flatMap rulesOf

theorem ip_of_mem_rulesOf (e : Sigma fun _ : Ipv4Addr => ClientCounters) :
    ∀ r ∈ rulesOf e, r.ip = e.1 := by
  intro r hr
  rcases List.mem_pair.mp hr with rfl | rfl <;> rfl

theorem lookup_listed_of_not_mem (h : ∀ r ∈ rules, r.ip ≠ ip) :
    (listed rules).lookup ip = none := by
  rw [AList.lookup_eq_none, mem_listed]
  rintro ⟨d, hd⟩
  obtain ⟨r, hr, hkey⟩ := List.mem_map.mp hd
  exact h r hr (congrArg Prod.fst hkey)

theorem lookup_listed {c : ClientCounters}
    (h : (rules.filter fun r => r.ip = ip).Perm (rulesOf ⟨ip, c⟩)) :
    (listed rules).lookup ip = some c := by
  have hcomm : ∀ r ∈ rules.filter (fun r => r.ip = ip),
      ∀ r' ∈ rules.filter (fun r => r.ip = ip),
      ∀ e, r'.record (r.record e) = r.record (r'.record e) := by
    intro r hr r' hr' e
    obtain hr := List.mem_pair.mp (h.mem_iff.mp hr)
    obtain hr' := List.mem_pair.mp (h.mem_iff.mp hr')
    rcases hr with rfl | rfl <;> rcases hr' with rfl | rfl <;> rfl
  have hvalue : getD (listed rules) ip .zero = c := by
    rw [listed, getD_foldl_upsert, h.foldl_eq' hcomm]
    rfl
  have hmem : ip ∈ listed rules := by
    have hfirst : (⟨ip, .download, c.rxPackets, c.rxBytes⟩ : Rule) ∈ rules :=
      (List.mem_filter.mp (h.mem_iff.mpr List.mem_cons_self)).1
    exact mem_listed.mpr ⟨.download, List.mem_map_of_mem hfirst⟩
  rw [lookup_eq_getD hmem .zero, hvalue]

theorem lookup_listed_installed (h : rules.Perm (installed m hasRules)) (ip : Ipv4Addr) :
    (listed rules).lookup ip = if hasRules ip then m.lookup ip else none := by
  have hmem {r : Rule} (hr : r ∈ rules) (hip : r.ip = ip) :
      hasRules ip = true ∧ ∃ c, m.lookup ip = some c := by
    obtain ⟨e, he, hre⟩ := List.mem_flatMap.mp (h.mem_iff.mp hr)
    obtain ⟨hentry, hrules⟩ := List.mem_filter.mp he
    have hkey : e.1 = ip := (ip_of_mem_rulesOf e r hre).symm.trans hip
    obtain ⟨ip', c⟩ := e
    obtain rfl : ip' = ip := hkey
    exact ⟨hrules, c, AList.mem_lookup_iff.mpr hentry⟩
  have hskip (hnone : ¬ (hasRules ip = true ∧ ∃ c, m.lookup ip = some c)) :
      (listed rules).lookup ip = none :=
    lookup_listed_of_not_mem fun r hr hip => hnone (hmem hr hip)
  split_ifs with hrules
  · cases hlookup : m.lookup ip with
    | none => exact hskip fun ⟨_, c, hc⟩ => by rw [hlookup] at hc; cases hc
    | some c =>
      have hentry : ⟨ip, c⟩ ∈ m.entries.filter fun e => hasRules e.1 :=
        List.mem_filter.mpr ⟨AList.mem_lookup_iff.mp hlookup, hrules⟩
      have hnodup : ((m.entries.filter fun e => hasRules e.1).map Sigma.fst).Nodup :=
        (List.filter_sublist.map _).nodup m.nodupKeys
      have hown := filter_flatMap_of_nodup Sigma.fst ip_of_mem_rulesOf hnodup hentry
      exact lookup_listed (hown ▸ h.filter _)
  · exact hskip fun ⟨hyes, _⟩ => hrules hyes

/-- **Both readers find the same counters**: those of the clients that have rules. -/
theorem readers_agree (m : Reading) (hasRules : Ipv4Addr → Bool) (quotes : Rule → Bool)
    (layout : Layout) {saved shown : Dump Rule} (hsaved : Shows saved (installed m hasRules))
    (hshown : Shows shown (installed m hasRules)) (ip : Ipv4Addr) :
    (parseIptablesSave (text (saveLine quotes) saved)).lookup ip =
        (if hasRules ip then m.lookup ip else none) ∧
      (parseIptablesList (text layout.line shown)).lookup ip =
        (if hasRules ip then m.lookup ip else none) := by
  rw [parseIptablesSave_text hsaved, parseIptablesList_text hshown]
  exact ⟨lookup_listed_installed hsaved.entries ip, lookup_listed_installed hshown.entries ip⟩

/-- The columns as they are wide now. -/
def wide : Layout where
  packetsPad r := 8 - (Nat.toDigits 10 r.packets.toNat).length
  bytesPad r := 10 - (Nat.toDigits 10 r.bytes.toNat).length
  columns r :=
    let ip := r.ip.display.toList.rightpad 20 ' '
    let any := "0.0.0.0/0".toList.rightpad 20 ' '
    "           all  --  *      *       ".toList ++
      if r.direction = .download then any ++ ' ' :: ip else ip ++ ' ' :: any
  untagged r := by
    have hv : 'v' ∉ r.ip.display.toList := Ipv4Addr.not_mem_display rfl
    refine untagged_of_not_mem ?_
    split_ifs <;> simp [List.rightpad, hv]
  oneLine r := by
    have hfeed : '\n' ∉ r.ip.display.toList := Ipv4Addr.not_mem_display rfl
    split_ifs <;> simp [List.rightpad, hfeed]

/-- A client that has moved something both ways. -/
def oneClient : Reading := AList.singleton (.ofOctets 10 0 0 50) ⟨5000, 10, 600, 4⟩

/-- Its two rules, under the line of another chain. -/
def oneClientDump (other : List Char) : Dump Rule :=
  .inr other :: (installed oneClient fun _ => true).map .inl

theorem shows_oneClientDump {other : List Char} (h : '\n' ∉ other ∧ Untagged other) :
    Shows (oneClientDump other) (installed oneClient fun _ => true) where
  entries := List.Perm.of_eq rfl
  others l hl := by
    have hother : l = other := by simpa [oneClientDump] using hl
    rwa [hother]

theorem readers_agree_oneClient :
    (parseIptablesSave (text (saveLine fun r => r.direction = .download)
      (oneClientDump "[9:1234] -A FORWARD -j VLB_CLIENTS".toList))).lookup (.ofOctets 10 0 0 50) =
        some ⟨5000, 10, 600, 4⟩ ∧
      (parseIptablesList (text wide.line
        (oneClientDump "Chain VLB_CLIENTS (1 references)".toList))).lookup (.ofOctets 10 0 0 50) =
          some ⟨5000, 10, 600, 4⟩ :=
  readers_agree oneClient (fun _ => true) _ wide (shows_oneClientDump (by decide))
    (shows_oneClientDump (by decide)) (.ofOctets 10 0 0 50)

end Readings

end Clients

end Vlb
