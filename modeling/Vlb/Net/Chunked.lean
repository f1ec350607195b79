import Vlb.Net.Entity

/-!
# The chunked coding, written and read

Chunks as a server writes them, and what `dechunk` makes of the bytes, all of them or as many as
arrived before the stream was cut.

* `SizeLine`, `Chunk`, `encode`: the coding of a list of chunks.
* `dechunk_cut`: a stream that is cut, by the place of the cut.
* **`dechunk_encode`**: the chunks are read as they were written, and a cut is told.
-/

namespace Vlb.Http

/-! ## Writing -/

/-- A hexadecimal digit in either case. -/
def hexChar (d : Fin 16 × Bool) : Char :=
  if d.2 then (Nat.digitChar d.1).toUpper else Nat.digitChar d.1

/-- The line before the data of a chunk: its size in hexadecimal, with any leading zeros, and
extensions after a semicolon. -/
structure SizeLine where
  digits : List (Fin 16 × Bool)
  digits_ne : digits ≠ []
  /-- The blanks before the semicolon. -/
  blanks : List Char
  blanks_are : ∀ c ∈ blanks, c = ' ' ∨ c = '\t'
  extensions : List Char
  starts : extensions = [] ∨ extensions.head? = some ';'
  ascii : ∀ c ∈ extensions, c.toNat < 128 ∧ c ≠ '\r' ∧ c ≠ '\n'

/-- The size that it says. -/
def SizeLine.value (s : SizeLine) : ℕ := s.digits.foldl (fun n d => 16 * n + d.1.val) 0

/-- The digits, and what may follow them. -/
def SizeLine.text (s : SizeLine) : List Char := s.digits.map hexChar ++ s.blanks ++ s.extensions

/-- In UTF-8. -/
def SizeLine.wire (s : SizeLine) : List UInt8 := Text.utf8 s.text

/-- A chunk whose line says its size. -/
structure Chunk where
  line : SizeLine
  data : List UInt8
  nonempty : data ≠ []
  size : line.value = data.length

/-- A chunk on the wire. -/
def Chunk.wire (c : Chunk) : List UInt8 := c.line.wire ++ crlf ++ (c.data ++ crlf)

/-- The chunks, up to the end of the terminating chunk's size line. -/
def encode (chunks : List Chunk) (last : SizeLine) : List UInt8 :=
  chunks.flatMap Chunk.wire ++ (last.wire ++ crlf)

/-- What the chunks carry together. -/
def content (chunks : List Chunk) : List UInt8 := chunks.flatMap Chunk.data

theorem encode_cons (c : Chunk) (chunks : List Chunk) (last : SizeLine) :
    encode (c :: chunks) last =
      c.line.wire ++ crlf ++ (c.data ++ (crlf ++ encode chunks last)) := by
  simp [encode, Chunk.wire]

/-! ## Size lines -/

theorem digit?_hexChar (d : Fin 16 × Bool) : Text.digit? 16 (hexChar d) = some d.1.val := by
  have hall : ∀ n < 16, ∀ b, Text.digit? 16 (hexChar (Fin.ofNat 16 n, b)) = some n := by decide
  obtain ⟨⟨n, hn⟩, b⟩ := d
  have hfin : Fin.ofNat 16 n = ⟨n, hn⟩ := Fin.ext (Nat.mod_eq_of_lt hn)
  have hdigit := hall n hn b
  rwa [hfin] at hdigit

theorem hexChar_plain (d : Fin 16 × Bool) : Text.isWhitespace (hexChar d) = false ∧
    hexChar d ≠ ';' ∧ hexChar d ≠ '\r' ∧ hexChar d ≠ '\n' := by
  have hall : ∀ n < 16, ∀ b, Text.isWhitespace (hexChar (Fin.ofNat 16 n, b)) = false ∧
      hexChar (Fin.ofNat 16 n, b) ≠ ';' ∧ hexChar (Fin.ofNat 16 n, b) ≠ '\r' ∧
        hexChar (Fin.ofNat 16 n, b) ≠ '\n' := by decide
  obtain ⟨⟨n, hn⟩, b⟩ := d
  have hfin : Fin.ofNat 16 n = ⟨n, hn⟩ := Fin.ext (Nat.mod_eq_of_lt hn)
  have hdigit := hall n hn b
  rwa [hfin] at hdigit

variable (s : SizeLine)

theorem SizeLine.chunkSizeHex_wire : chunkSizeHex s.wire = s.digits.map hexChar := by
  have hfront : ∀ c ∈ s.digits.map hexChar ++ s.blanks, decide (c ≠ ';') = true := by
    intro c hc
    rw [decide_eq_true_iff]
    rcases List.mem_append.mp hc with hdigit | hblank
    · obtain ⟨d, -, rfl⟩ := List.mem_map.mp hdigit
      exact (hexChar_plain d).2.1
    · rcases s.blanks_are c hblank with rfl | rfl <;> decide
  have hback : s.extensions.takeWhile (fun c => decide (c ≠ ';')) = [] := by
    rcases s.starts with hnil | hhead
    · rw [hnil, List.takeWhile_nil]
    · obtain ⟨tail, htail⟩ := List.head?_eq_some_iff.mp hhead
      rw [htail, List.takeWhile_cons_of_neg (by decide)]
  rw [chunkSizeHex, SizeLine.wire, Text.fromUtf8_utf8, Option.getD_some, SizeLine.text,
    List.takeWhile_append_of_pos hfront, hback, List.append_nil]
  refine Text.trim_append_blanks (fun c hc => ?_) fun c hc => ?_
  · obtain ⟨d, -, rfl⟩ := List.mem_map.mp hc
    exact (hexChar_plain d).1
  · rcases s.blanks_are c hc with rfl | rfl <;> decide

theorem SizeLine.number_wire : Text.number 16 (chunkSizeHex s.wire) = some s.value := by
  rw [s.chunkSizeHex_wire]
  exact Text.number_map s.digits_ne fun d _ => digit?_hexChar d

theorem SizeLine.lf_not_mem_wire : lf ∉ s.wire := by
  refine Text.not_mem_utf8 (c := '\n') (by decide) rfl fun hmem => ?_
  rcases List.mem_append.mp hmem with hfront | hext
  · rcases List.mem_append.mp hfront with hdigit | hblank
    · obtain ⟨d, -, hd⟩ := List.mem_map.mp hdigit
      exact (hexChar_plain d).2.2.2 hd
    · rcases s.blanks_are _ hblank with h | h <;> cases h
  · exact (s.ascii _ hext).2.2 rfl

theorem no_crlf_of_no_lf {bs : List UInt8} (h : lf ∉ bs) : ¬ crlf <:+: bs := fun hin =>
  h (hin.subset (List.mem_cons_of_mem cr List.mem_cons_self))

/-! ## Reading -/

variable {cap : ℕ} {out : List UInt8} {chunks : List Chunk} {last : SizeLine}

theorem chunked_encode (hlast : last.value = 0) (chunks : List Chunk) (rest : List UInt8) :
    Chunked (encode chunks last ++ rest) (content chunks) := by
  induction chunks with
  | nil =>
    have hline := no_crlf_of_no_lf last.lf_not_mem_wire
    exact Chunked.last hline (last.number_wire.trans (congrArg some hlast))
  | cons c chunks ih =>
    have hline := no_crlf_of_no_lf c.line.lf_not_mem_wire
    have hsize := c.line.number_wire.trans (congrArg some c.size)
    have hchunk := Chunked.chunk hline hsize c.nonempty (Or.inl rfl) ih
    rw [encode_cons]
    simpa [content, List.append_assoc] using hchunk

theorem dechunk_of_no_lf {input : List UInt8} (h : lf ∉ input) :
    dechunk cap out input = .ok (out, true) := by
  have hnone : findSubslice input crlf = none :=
    (findSubslice_eq_none (by decide)).mpr (no_crlf_of_no_lf h)
  unfold dechunk
  split
  · rfl
  · rename_i nl hsome
    rw [hnone] at hsome
    cases hsome

theorem prefix_append_cases {α : Type} {pre xs ys : List α} (h : pre <+: xs ++ ys) :
    (pre <+: xs ∧ pre.length < xs.length) ∨ ∃ more, pre = xs ++ more ∧ more <+: ys := by
  rcases Nat.lt_or_ge pre.length xs.length with hlt | hge
  · exact Or.inl ⟨List.prefix_of_prefix_length_le h (List.prefix_append xs ys) hlt.le, hlt⟩
  · obtain ⟨more, rfl⟩ := List.prefix_of_prefix_length_le (List.prefix_append xs ys) h hge
    exact Or.inr ⟨more, rfl, (List.prefix_append_right_inj xs).mp h⟩

theorem lf_not_mem_of_prefix {line pre : List UInt8} (hline : lf ∉ line)
    (h : pre <+: line ++ crlf) (hlt : pre.length < (line ++ crlf).length) : lf ∉ pre := by
  have hshort : pre <+: line ++ [cr] := by
    refine List.prefix_of_prefix_length_le h ⟨[lf], by simp [crlf]⟩ ?_
    simp only [List.length_append, crlf, List.length_cons, List.length_nil] at hlt ⊢
    omega
  intro hmem
  rcases List.mem_append.mp (hshort.subset hmem) with h | h
  · exact hline h
  · exact absurd (List.mem_singleton.mp h) (by decide)

/-- **A cut is told**, wherever it falls, and what came before it is kept. -/
theorem dechunk_cut {cut : List UInt8} (hcap : cap < 2 ^ 64)
    (hlt : (out ++ content chunks).length < cap) (hcut : cut <+: encode chunks last)
    (hshort : cut.length < (encode chunks last).length) :
    ∃ body, dechunk cap out cut = .ok (out ++ body, true) ∧ body <+: content chunks := by
  induction chunks generalizing out cut with
  | nil =>
    have hnone := lf_not_mem_of_prefix last.lf_not_mem_wire hcut hshort
    exact ⟨[], by rw [dechunk_of_no_lf hnone, List.append_nil], List.nil_prefix⟩
  | cons c chunks ih =>
    have hline := no_crlf_of_no_lf c.line.lf_not_mem_wire
    have hnumber := c.line.number_wire.trans (congrArg some c.size)
    have hpos : c.data.length ≠ 0 := fun hzero => c.nonempty (List.length_eq_zero_iff.mp hzero)
    have hcontent : content (c :: chunks) = c.data ++ content chunks := List.flatMap_cons
    rw [hcontent] at hlt ⊢
    simp only [List.length_append] at hlt
    rw [encode_cons] at hcut hshort
    rcases prefix_append_cases hcut with ⟨hinline, hlen⟩ | ⟨after, rfl, hafter⟩
    · -- within the size line
      have hnone := lf_not_mem_of_prefix c.line.lf_not_mem_wire hinline hlen
      exact ⟨[], by rw [dechunk_of_no_lf hnone, List.append_nil], List.nil_prefix⟩
    rw [dechunk_line hline hnumber (by omega), if_neg hpos]
    rcases prefix_append_cases hafter with ⟨hindata, hlen⟩ | ⟨gap, rfl, hgap⟩
    · -- within the data
      rw [if_pos hlen]
      exact ⟨after, rfl, hindata.trans (List.prefix_append _ _)⟩
    rw [if_neg (by rw [List.length_append]; omega), List.take_left, List.drop_left,
      if_neg (by rw [List.length_append]; omega)]
    rcases prefix_append_cases hgap with ⟨hingap, hlen⟩ | ⟨rest, rfl, hrest⟩
    · -- within the line break after the data
      have hnone : lf ∉ gap := lf_not_mem_of_prefix List.not_mem_nil
        (show gap <+: [] ++ crlf from hingap) hlen
      have hskip : skipCrlf gap = gap := by
        refine if_neg fun hpre => ?_
        have hle := (List.isPrefixOf_iff_prefix.mp hpre).length_le
        omega
      rw [hskip, dechunk_of_no_lf hnone]
      exact ⟨c.data, rfl, List.prefix_append _ _⟩
    · -- in a later chunk
      have hskip : skipCrlf (crlf ++ rest) = rest := rfl
      simp only [List.length_append] at hshort
      have hbelow : ((out ++ c.data) ++ content chunks).length < cap := by
        simp only [List.length_append]
        omega
      obtain ⟨body, hbody, hpre⟩ := ih hbelow hrest (by omega)
      rw [hskip, hbody, List.append_assoc]
      exact ⟨c.data ++ body, rfl, (List.prefix_append_right_inj c.data).mpr hpre⟩

/-- **Chunks are read as they were written**, whatever follows them, and a stream that is cut before
the end of the last size line is called truncated. -/
theorem dechunk_encode {maxBody : UInt64} (hlast : last.value = 0)
    (hfits : (content chunks).length < maxBody.toNat) :
    (∀ rest, dechunk maxBody.toNat [] (encode chunks last ++ rest) = .ok (content chunks, false)) ∧
      ∀ cut, cut <+: encode chunks last → cut ≠ encode chunks last →
        ∃ body, dechunk maxBody.toNat [] cut = .ok (body, true) ∧ body <+: content chunks := by
  have hcap := maxBody.toNat_lt
  constructor
  · intro rest
    exact dechunk_of_chunked hcap (chunked_encode hlast chunks rest) hfits
  · intro cut hcut hne
    have hshort := lt_of_le_of_ne hcut.length_le fun hlen => hne (hcut.eq_of_length hlen)
    exact dechunk_cut hcap hfits hcut hshort

theorem extension_ascii : ∀ c ∈ [';', 'x'], c.toNat < 128 ∧ c ≠ '\r' ∧ c ≠ '\n' := by simp

/-- A size line of one digit, and an extension after it. -/
def sizeLine (digit : ℕ) : SizeLine where
  digits := [(Fin.ofNat 16 digit, false)]
  digits_ne := List.cons_ne_nil _ _
  blanks := []
  blanks_are := nofun
  extensions := [';', 'x']
  starts := Or.inr rfl
  ascii := extension_ascii

/-- The text `hello` in a chunk. -/
def helloChunk : Chunk where
  line := sizeLine 5
  data := [104, 101, 108, 108, 111]
  nonempty := List.cons_ne_nil _ _
  size := rfl

theorem dechunk_encode_hello :
    (∀ rest, dechunk (1024 : UInt64).toNat [] (encode [helloChunk] (sizeLine 0) ++ rest) =
        .ok (content [helloChunk], false)) ∧
      ∀ cut, cut <+: encode [helloChunk] (sizeLine 0) → cut ≠ encode [helloChunk] (sizeLine 0) →
        ∃ body, dechunk (1024 : UInt64).toNat [] cut = .ok (body, true) ∧
          body <+: content [helloChunk] :=
  dechunk_encode rfl (by decide)

end Vlb.Http
