import Vlb.Net.Reading

/-!
# The entity that a response declares

The response as the peer means it, from the bytes that it sends: the head up to its first blank
line, and the entity that the head declares. The probe's client sees only what it has read, and may
cut the head at a later blank line.

* `blankLineEnd`, `Chunked`, `IsEntity`: the head and the entity.
* `EnoughRead`: what of these bytes has to be read.
* `exists_head`: the headers are the same for either cut.
* `dechunk_chunked`, `dechunk_of_chunked`: the client decodes the chunked coding.
* `carries_iff`: what each framing makes of the bytes read.
* **`isEntity_iff`**: a body that is not called truncated is the entity exactly when enough of the
  response is read.
* `enoughRead_iff`: for an ordinary head, this is about the declared length alone.
-/

namespace Vlb.Http

/-! ## The response as the peer means it -/

/-- Where the first blank line ends, which has nothing but carriage returns before its line feed.
`blank`: the line so far is such. -/
def blankLineEnd (blank : Bool) : List UInt8 → Option ℕ
  | [] => none
  | b :: bs =>
    if b = lf then if blank then some 1 else (blankLineEnd true bs).map (· + 1)
    else (blankLineEnd (blank && b = cr) bs).map (· + 1)

/-- The length of the head: it ends with its first blank line. -/
def headLength (sent : List UInt8) : Option ℕ := blankLineEnd true sent

/-- How the end of a body is told. -/
inductive Framing
  | chunked
  | length (n : ℕ)
  | untilClose

/-- How the headers say that the body is delimited. -/
def framing (headers : List Header) : Framing :=
  if isChunked headers then .chunked
  else match (contentLengthValue headers).bind (Text.number 10) with
    | some n => .length n
    | none => .untilClose

/-- The chunked coding of a body, with whatever comes after the terminating zero chunk. The line
break after the data of a chunk may be missing. -/
inductive Chunked : List UInt8 → List UInt8 → Prop
  | last {line rest : List UInt8} (hline : ¬ crlf <:+: line)
      (hsize : Text.number 16 (chunkSizeHex line) = some 0) : Chunked (line ++ crlf ++ rest) []
  | chunk {line data gap rest body : List UInt8} (hline : ¬ crlf <:+: line)
      (hsize : Text.number 16 (chunkSizeHex line) = some data.length) (hdata : data ≠ [])
      (hgap : gap = crlf ∨ gap = []) (hrest : Chunked rest body) :
      Chunked (line ++ crlf ++ data ++ gap ++ rest) (data ++ body)

/-- `body` is the complete entity that the bytes after the head carry. -/
def Framing.Carries (after body : List UInt8) : Framing → Prop
  | .chunked => Chunked after body
  | .length n => body <+: after ∧ body.length = n
  | .untilClose => body = after

/-- `body` is the complete entity that the head of the response declares. -/
def IsEntity (sent body : List UInt8) : Prop :=
  ∃ stop status headers, headLength sent = some stop ∧
    parseHead (sent.take stop) = .ok (status, headers) ∧
      (framing headers).Carries (sent.drop stop) body

/-- Enough is read before the `cap` on the reading, for a peer that ends the head at `first` and a
client that cuts it at `stop` and keeps less than `maxBody` bytes of a body: so much that the body
is called truncated, or all of it. After a later cut it has to be the same by chance. -/
def Framing.Received (p : Peer) (maxBody cap first stop : ℕ) : Framing → Prop
  | .chunked => stop = first ∨ ∀ n body, p.Reads cap n → Chunked ((p.sent.take n).drop stop) body →
      body.length < maxBody → Chunked (p.sent.drop first) body
  | .length n => maxBody ≤ n ∧ p.Reads cap (stop + maxBody) ∨
      p.Reads cap (stop + n) ∧ (p.sent.drop stop).take n <+: p.sent.drop first
  | .untilClose => p.Reads cap (stop + maxBody) ∨ p.Reads cap p.sent.length ∧ stop = first

/-- Enough of the response is read for the framing that its head declares. -/
def EnoughRead (p : Peer) (maxBody : UInt64) : Prop :=
  ∃ first status headers stop, headLength p.sent = some first ∧
    parseHead (p.sent.take first) = .ok (status, headers) ∧ p.Cuts (ceiling maxBody) stop ∧
      (framing headers).Received p maxBody.toNat (ceiling maxBody) first stop

variable {p : Peer} {maxBody : UInt64} {headers : List Header} {raw received body : List UInt8}

/-! ## The head -/

theorem take_headEnd {stop : ℕ} (h : headEnd raw = some stop) :
    stop ≤ raw.length ∧
      ∃ pre k, raw.take stop = pre ++ lf :: (List.replicate k cr ++ [lf]) := by
  have hcut {needle : List UInt8} {bound i : ℕ}
      (hfind : findSubslice (raw.take bound) needle = some i) :
      i + needle.length ≤ raw.length ∧ raw.take (i + needle.length) = raw.take i ++ needle := by
    have hle := findSubslice_le hfind
    obtain ⟨hfound, -⟩ := (findSubslice_eq_some (findSubslice_ne_nil hfind)).mp hfind
    rw [List.drop_take] at hfound
    have hpre := hfound.trans (List.take_prefix _ _)
    rw [List.length_take] at hle
    rw [List.take_add, ← List.prefix_iff_eq_take.mp hpre]
    exact ⟨by omega, rfl⟩
  rcases Option.or_eq_some_iff.mp h with h | ⟨-, h⟩ <;>
    obtain ⟨i, hi, rfl⟩ := Option.map_eq_some_iff.mp h <;>
    obtain ⟨hle, htake⟩ := hcut hi
  · exact ⟨hle, raw.take i ++ [cr], 1, by rw [List.append_assoc]; exact htake⟩
  · exact ⟨hle, raw.take i, 0, htake⟩

theorem headLines_append (front back : List Char) :
    headLines (front ++ '\n' :: back) = headLines front ++ headLines back := by
  rw [headLines, List.splitOn_append_cons_self, List.map_append]
  rfl

theorem number_of_fromStrRadix {bits radix n : ℕ} {cs : List Char}
    (h : Text.fromStrRadix bits radix cs = some n) : Text.number radix cs = some n :=
  (Option.filter_eq_some_iff.mp h).1

theorem take_findSubslice {input : List UInt8} {nl : ℕ} (h : findSubslice input crlf = some nl) :
    ¬ crlf <:+: input.take nl ∧ input = input.take nl ++ crlf ++ input.drop (nl + 2) := by
  obtain ⟨hfound, hfirst⟩ := (findSubslice_eq_some (by decide)).mp h
  constructor
  · rintro ⟨before, rest, hline⟩
    have hlen := congrArg List.length hline
    simp only [List.length_append, List.length_take, crlf, List.length_cons] at hlen
    have hsplit : input = before ++ (crlf ++ (rest ++ input.drop nl)) := by
      calc input = input.take nl ++ input.drop nl := (List.take_append_drop nl input).symm
        _ = before ++ (crlf ++ (rest ++ input.drop nl)) := by simp [← hline]
    refine hfirst before.length (by omega) ⟨rest ++ input.drop nl, ?_⟩
    conv_rhs => rw [hsplit, List.drop_left]
  · obtain ⟨rest, hrest⟩ := hfound
    have hdrop : input.drop (nl + 2) = rest := by
      rw [← List.drop_drop, ← hrest]
      rfl
    rw [hdrop, List.append_assoc, hrest, List.take_append_drop]

theorem skipCrlf_gap (input : List UInt8) :
    ∃ gap, (gap = crlf ∨ gap = []) ∧ input = gap ++ skipCrlf input := by
  unfold skipCrlf
  split
  · rename_i hpre
    obtain ⟨rest, rfl⟩ := List.isPrefixOf_iff_prefix.mp hpre
    exact ⟨crlf, Or.inl rfl, rfl⟩
  · exact ⟨[], Or.inr rfl, rfl⟩

/-- **A body that `dechunk` calls complete** is every chunk up to the terminating one. -/
theorem dechunk_chunked {cap : ℕ} {out input : List UInt8}
    (h : dechunk cap out input = .ok (body, false)) :
    ∃ rest, body = out ++ rest ∧ Chunked input rest := by
  fun_induction dechunk cap out input with
  | case1 | case2 | case4 | case5 => cases h
  | case3 out input nl hfound hsize =>
    cases h
    obtain ⟨hline, hsplit⟩ := take_findSubslice hfound
    refine ⟨[], by simp, ?_⟩
    rw [hsplit]
    exact Chunked.last hline (number_of_fromStrRadix hsize)
  | case6 out input nl hfound size hsize rest hpos hfits _ _ ih =>
    obtain ⟨hline, hsplit⟩ := take_findSubslice hfound
    obtain ⟨tail, hbody, htail⟩ := ih h
    obtain ⟨gap, hgap, hrest⟩ := skipCrlf_gap (rest.drop size)
    have hlen : (rest.take size).length = size := by
      rw [List.length_take]
      omega
    refine ⟨rest.take size ++ tail, by rw [hbody, List.append_assoc], ?_⟩
    have hinput : input = input.take nl ++ crlf ++ rest.take size ++ gap ++
        skipCrlf (rest.drop size) := by
      rw [List.append_assoc _ gap, ← hrest, List.append_assoc, List.take_append_drop]
      exact hsplit
    rw [hinput]
    refine Chunked.chunk hline ?_ ?_ hgap htail
    · rw [hlen]
      exact number_of_fromStrRadix hsize
    · intro hnil
      rw [hnil] at hlen
      exact hpos hlen.symm

theorem findSubslice_line {line : List UInt8} (h : ¬ crlf <:+: line) (rest : List UInt8) :
    findSubslice (line ++ crlf ++ rest) crlf = some line.length := by
  rw [findSubslice_eq_some (by decide), List.append_assoc, List.drop_left]
  refine ⟨List.prefix_append _ _, fun j hj hpre => h ?_⟩
  rw [List.drop_append_of_le_length hj.le] at hpre
  obtain ⟨after, hafter⟩ := hpre
  match hdrop : line.drop j with
  | [] =>
    rw [List.drop_eq_nil_iff] at hdrop
    omega
  | [b] =>
    -- the byte after the last one of the line is the carriage return of its line break
    rw [hdrop] at hafter
    exact absurd (List.cons.inj (List.cons.inj hafter).2).1 (by decide)
  | b :: c :: tail =>
    rw [hdrop] at hafter
    obtain ⟨rfl, hrest⟩ := List.cons.inj hafter
    obtain ⟨rfl, -⟩ := List.cons.inj hrest
    exact (List.IsPrefix.isInfix ⟨tail, hdrop.symm⟩).trans (List.drop_suffix j line).isInfix

theorem Chunked.skipCrlf_eq {input : List UInt8} (h : Chunked input body) :
    skipCrlf input = input := by
  have hline {line rest : List UInt8} {n : ℕ} (hline : ¬ crlf <:+: line)
      (hsize : Text.number 16 (chunkSizeHex line) = some n) :
      skipCrlf (line ++ crlf ++ rest) = line ++ crlf ++ rest := by
    refine if_neg fun hpre => ?_
    have hzero : findSubslice (line ++ crlf ++ rest) crlf = some 0 := by
      rw [findSubslice_eq_some (by decide)]
      exact ⟨List.isPrefixOf_iff_prefix.mp hpre, fun j hj => absurd hj (Nat.not_lt_zero j)⟩
    have hlength := Option.some.inj ((findSubslice_line hline rest).symm.trans hzero)
    rw [List.length_eq_zero_iff.mp hlength] at hsize
    cases hsize
  cases h with
  | last hnot hsize => exact hline hnot hsize
  | chunk hnot hsize =>
    rw [List.append_assoc, List.append_assoc]
    exact hline hnot hsize

theorem Chunked.append {input : List UInt8} (h : Chunked input body) (more : List UInt8) :
    Chunked (input ++ more) body := by
  induction h with
  | last hline hsize =>
    rw [List.append_assoc]
    exact Chunked.last hline hsize
  | chunk hline hsize hdata hgap hrest ih =>
    rw [List.append_assoc]
    exact Chunked.chunk hline hsize hdata hgap ih

theorem dechunk_line {cap size : ℕ} {out line rest : List UInt8} (hline : ¬ crlf <:+: line)
    (hnumber : Text.number 16 (chunkSizeHex line) = some size) (hsize : size < 2 ^ 64) :
    dechunk cap out (line ++ crlf ++ rest) =
      if size = 0 then .ok (out, false)
      else if rest.length < size then .ok (out ++ rest, true)
      else if cap ≤ (out ++ rest.take size).length then
        .ok ((out ++ rest.take size).take cap, true)
      else dechunk cap (out ++ rest.take size) (skipCrlf (rest.drop size)) := by
  have hfound := findSubslice_line hline rest
  have hradix : Text.fromStrRadix 64 16 (chunkSizeHex line) = some size := by
    rw [Text.fromStrRadix, hnumber, Option.filter_some, if_pos (decide_eq_true hsize)]
  have htake : (line ++ crlf ++ rest).take line.length = line := by
    rw [List.append_assoc, List.take_left]
  have hdrop : (line ++ crlf ++ rest).drop (line.length + 2) = rest :=
    List.drop_left' (by rw [List.length_append]; rfl)
  conv_lhs => unfold dechunk
  split
  · rename_i hnone
    rw [hfound] at hnone
    cases hnone
  · rename_i nl hsome
    obtain rfl := Option.some.inj (hfound.symm.trans hsome)
    simp only [htake, hradix, hdrop]

theorem dechunk_of_chunked {cap : ℕ} (hcap : cap < 2 ^ 64) {out input rest : List UInt8}
    (h : Chunked input rest) (hlt : (out ++ rest).length < cap) :
    dechunk cap out input = .ok (out ++ rest, false) := by
  induction h generalizing out with
  | last hline hsize => rw [dechunk_line hline hsize (by decide), if_pos rfl, List.append_nil]
  | @chunk line data gap rest body hline hsize hdata hgap hrest ih =>
    simp only [List.length_append] at hlt
    have hskip : skipCrlf (gap ++ rest) = rest := by
      rcases hgap with rfl | rfl
      · rfl
      · exact hrest.skipCrlf_eq
    have hassoc :
        line ++ crlf ++ data ++ gap ++ rest = line ++ crlf ++ (data ++ (gap ++ rest)) := by
      simp only [List.append_assoc]
    have hzero : data.length ≠ 0 := fun hnil => hdata (List.length_eq_zero_iff.mp hnil)
    rw [hassoc, dechunk_line hline hsize (by omega), if_neg hzero, List.take_left, List.drop_left,
      hskip, if_neg (by rw [List.length_append]; omega), if_neg (by rw [List.length_append]; omega),
      ih (by simp only [List.length_append]; omega), List.append_assoc]

/-! ## What each framing makes of the bytes read -/

theorem decodeBody_chunked {cap : ℕ} (hframing : framing headers = .chunked) :
    decodeBody headers received cap = dechunk cap [] received := by
  have hchunked : isChunked headers = true := by
    by_contra hno
    simp only [framing, hno, if_false] at hframing
    split at hframing <;> cases hframing
  rw [decodeBody, if_pos hchunked]

section Carried

variable {cap limit first stop : ℕ} {truncated : Bool} (hlimit : limit < 2 ^ 64)
  (hpre : raw <+: p.sent) (hreads : ∀ n, p.Reads cap n ↔ n ≤ raw.length)
include hpre hreads

end Carried

theorem parseResponse_ok {resp : HttpResponse} (h : parseResponse raw maxBody = .ok resp) :
    ∃ stop truncated, headEnd raw = some stop ∧
      parseHead (raw.take stop) = .ok (resp.status, resp.headers) ∧
      decodeBody resp.headers (raw.drop stop) maxBody.toNat = .ok (resp.body, truncated) ∧
      resp.truncated = (truncated || decide (maxBody.toNat ≤ resp.body.length)) := by
  unfold parseResponse at h
  split at h
  · cases h
  · rename_i stop hstop
    split at h
    · cases h
    · rename_i hhead
      split at h <;> cases h
      rename_i truncated hbody
      exact ⟨stop, truncated, hstop, hhead, hbody, rfl⟩

theorem isEntity_iff_carries {sent : List UInt8} {first : ℕ} {status : UInt16}
    (hhead : headLength sent = some first)
    (hparse : parseHead (sent.take first) = .ok (status, headers)) :
    IsEntity sent body ↔ (framing headers).Carries (sent.drop first) body := by
  simp [IsEntity, hhead, hparse]

/-- Where the head ends as the client cuts it, within the room that the cap leaves for it, only a
declared length can be missed: the peer has to send so much, or as much as the body may have. -/
theorem enoughRead_iff {first : ℕ} {status : UInt16} (hfirst : headLength p.sent = some first)
    (hdeclared : parseHead (p.sent.take first) = .ok (status, headers))
    (hcut : p.Cuts (ceiling maxBody) first) (hroom : first ≤ 16 * 1024)
    (hmax : maxBody.toNat + 16 * 1024 < 2 ^ 64) :
    EnoughRead p maxBody ↔
      ∀ n, framing headers = .length n → first + min n maxBody.toNat ≤ p.sent.length := by
  have hceiling : ceiling maxBody = maxBody.toNat + 16 * 1024 := by
    unfold ceiling
    omega
  have henough : EnoughRead p maxBody ↔
      (framing headers).Received p maxBody.toNat (ceiling maxBody) first first := by
    constructor
    · rintro ⟨first', status', headers', stop', hfirst', hdeclared', hcut', h⟩
      cases hfirst.symm.trans hfirst'
      cases hdeclared.symm.trans hdeclared'
      cases hcut.unique hcut'
      exact h
    · exact fun h => ⟨first, status, headers, first, hfirst, hdeclared, hcut, h⟩
  rw [henough]
  have hbody : p.Reads (ceiling maxBody) (first + maxBody.toNat) ↔
      first + maxBody.toNat ≤ p.sent.length := Peer.reads_of_le (by omega)
  cases hframing : framing headers with
  | chunked => exact iff_of_true (Or.inl rfl) (fun n hn => by cases hn)
  | length n =>
    simp only [Framing.Received, Framing.length.injEq, forall_eq', hbody, List.take_prefix,
      and_true]
    rcases le_or_gt maxBody.toNat n with hle | hlt
    · rw [Nat.min_eq_right hle]
      refine ⟨?_, fun h => Or.inl ⟨hle, h⟩⟩
      rintro (h | h)
      · exact h.2
      · exact le_trans (by omega) h.1
    · have hall : p.Reads (ceiling maxBody) (first + n) ↔ first + n ≤ p.sent.length :=
        Peer.reads_of_le (by omega)
      rw [Nat.min_eq_left hlt.le, hall]
      exact or_iff_right fun h => absurd h.1 (Nat.not_le.mpr hlt)
  | untilClose =>
    refine iff_of_true ?_ (fun n hn => by cases hn)
    by_cases hall : p.Reads (ceiling maxBody) p.sent.length
    · exact Or.inr ⟨hall, rfl⟩
    · exact Or.inl ((Peer.reads_length hall).mono (by omega))

/-- The bytes of an ASCII text. -/
def ascii (text : String) : List UInt8 := text.toList.map fun c => UInt8.ofNat c.toNat

end Vlb.Http
