import Vlb.Net.Entity

/-!
# The cap on a body

No body that a caller gets should be longer than it asked for, and a body that is cut to the cap is
called truncated.

* `CapRespected`: what the caller relies on.
* `Overruns`: the chunked bodies that pass the cap, in a chunk that does not arrive in full.
* **`capRespected_iff`**: the cap is respected for every other response.
-/

namespace Vlb.Http

/-- The body is within the cap, and a larger cap would have brought no other body unless it is
called truncated. -/
structure CapRespected (raw : List UInt8) (maxBody : UInt64) (r : HttpResponse) : Prop where
  fits : r.body.length ≤ maxBody.toNat
  told : ∀ larger, maxBody ≤ larger → r.truncated = true ∨
    ∃ r', parseResponse raw larger = .ok r' ∧ r'.body = r.body

/-- After `n` bytes of content, chunks that stay below the cap together, and then one that ends with
the input before its size is reached, with which the content passes the cap. -/
inductive Overruns (cap : ℕ) : ℕ → List UInt8 → Prop
  | cut {n size : ℕ} {line rest : List UInt8} (hline : ¬ crlf <:+: line)
      (hsize : Text.fromStrRadix 64 16 (chunkSizeHex line) = some size) (hcut : rest.length < size)
      (hover : cap < n + rest.length) : Overruns cap n (line ++ crlf ++ rest)
  | chunk {n : ℕ} {line data rest : List UInt8} (hline : ¬ crlf <:+: line)
      (hsize : Text.fromStrRadix 64 16 (chunkSizeHex line) = some data.length) (hdata : data ≠ [])
      (hbelow : n + data.length < cap) (hrest : Overruns cap (n + data.length) (skipCrlf rest)) :
      Overruns cap n (line ++ crlf ++ (data ++ rest))

/-- The response is chunked, and its body overruns the cap. -/
def ResponseOverruns (raw : List UInt8) (maxBody : UInt64) : Prop :=
  ∃ stop status headers, headEnd raw = some stop ∧
    parseHead (raw.take stop) = .ok (status, headers) ∧ isChunked headers = true ∧
      Overruns maxBody.toNat 0 (raw.drop stop)

variable {cap : ℕ} {out input body raw : List UInt8} {truncated : Bool} {maxBody : UInt64}

/-! ## Chunks -/

theorem dechunk_sized {size : ℕ} {line rest : List UInt8} (hline : ¬ crlf <:+: line)
    (hsize : Text.fromStrRadix 64 16 (chunkSizeHex line) = some size) :
    dechunk cap out (line ++ crlf ++ rest) =
      if size = 0 then .ok (out, false)
      else if rest.length < size then .ok (out ++ rest, true)
      else if cap ≤ (out ++ rest.take size).length then
        .ok ((out ++ rest.take size).take cap, true)
      else dechunk cap (out ++ rest.take size) (skipCrlf (rest.drop size)) :=
  dechunk_line hline (number_of_fromStrRadix hsize)
    (of_decide_eq_true (Option.filter_eq_some_iff.mp hsize).2)

/-- **An overrun passes the cap.** -/
theorem dechunk_of_overruns (h : Overruns cap out.length input) :
    ∃ body, dechunk cap out input = .ok (body, true) ∧ cap < body.length := by
  generalize hn : out.length = n at h
  induction h generalizing out with
  | @cut n size line rest hline hsize hcut hover =>
    rw [dechunk_sized hline hsize, if_neg (by omega), if_pos hcut]
    exact ⟨out ++ rest, rfl, by rw [List.length_append]; omega⟩
  | @chunk n line data rest hline hsize hdata hbelow hrest ih =>
    have hpos := List.length_pos_iff.mpr hdata
    rw [dechunk_sized hline hsize, if_neg (by omega), List.take_left, List.drop_left,
      if_neg (by rw [List.length_append]; omega), if_neg (by rw [List.length_append]; omega)]
    exact ih (by rw [List.length_append, hn])

theorem dechunk_length_le (hout : out.length ≤ cap) (hno : ¬ Overruns cap out.length input)
    (h : dechunk cap out input = .ok (body, truncated)) : body.length ≤ cap := by
  fun_induction dechunk cap out input with
  | case1 out input hnone =>
    cases h
    exact hout
  | case2 => cases h
  | case3 out input nl hfound hsize =>
    cases h
    exact hout
  | case4 out input nl hfound size hsize rest hpos hcut =>
    cases h
    obtain ⟨hline, hsplit⟩ := take_findSubslice hfound
    by_contra hover
    rw [List.length_append] at hover
    exact hno (hsplit ▸ Overruns.cut hline hsize hcut (Nat.lt_of_not_le hover))
  | case5 out input nl hfound size hsize rest hpos hfits full hfull =>
    cases h
    rw [List.length_take]
    exact Nat.min_le_left _ _
  | case6 out input nl hfound size hsize rest hpos hfits full hfull ih =>
    obtain ⟨hline, hsplit⟩ := take_findSubslice hfound
    have hlen : (rest.take size).length = size := by
      rw [List.length_take]
      omega
    have hfull' : full.length = out.length + (rest.take size).length := List.length_append
    refine ih (by omega) (fun hover => hno ?_) h
    rw [hsplit, ← List.take_append_drop size (input.drop (nl + 2))]
    have hbelow : out.length + (rest.take size).length < cap := by omega
    refine Overruns.chunk hline (hlen.symm ▸ hsize) ?_ hbelow (hfull' ▸ hover)
    intro hnil
    rw [hnil] at hlen
    exact hpos hlen.symm

/-- A chunked body that is read to its end is read so with any larger cap. -/
theorem dechunk_larger {larger : ℕ} (hle : cap ≤ larger) (hlarger : larger < 2 ^ 64)
    (hlt : body.length < cap) (h : dechunk cap [] input = .ok (body, false)) :
    dechunk larger [] input = .ok (body, false) := by
  obtain ⟨rest, hbody, hchunked⟩ := dechunk_chunked h
  obtain rfl : body = rest := hbody
  exact dechunk_of_chunked hlarger hchunked (by rw [List.nil_append]; omega)

/-! ## Bodies -/

theorem decodeBody_of_chunked {headers : List Header} (h : isChunked headers = true) :
    decodeBody headers input cap = dechunk cap [] input := if_pos h

theorem decodeBody_of_not_chunked {headers : List Header} (h : isChunked headers = false)
    (input : List UInt8) : ∃ slice, ∀ cap, decodeBody headers input cap =
      if cap < slice.length then .ok (slice.take cap, true) else .ok (slice, false) := by
  have hneg : ¬ isChunked headers = true := by rw [h]; exact Bool.false_ne_true
  exact ⟨_, fun cap => if_neg hneg⟩

theorem decodeBody_length_le {headers : List Header}
    (hno : isChunked headers = true → ¬ Overruns cap 0 input)
    (h : decodeBody headers input cap = .ok (body, truncated)) : body.length ≤ cap := by
  cases hchunked : isChunked headers with
  | true =>
    rw [decodeBody_of_chunked hchunked] at h
    have hstart : ([] : List UInt8).length ≤ cap := Nat.zero_le cap
    exact dechunk_length_le hstart (hno hchunked) h
  | false =>
    obtain ⟨slice, hslice⟩ := decodeBody_of_not_chunked hchunked input
    rw [hslice] at h
    split_ifs at h with hlt
    · cases h
      exact List.length_take_le _ _
    · cases h
      exact Nat.le_of_not_lt hlt

theorem decodeBody_larger {headers : List Header} {larger : ℕ} (hle : cap ≤ larger)
    (hlarger : larger < 2 ^ 64) (hlt : body.length < cap)
    (h : decodeBody headers input cap = .ok (body, false)) :
    decodeBody headers input larger = .ok (body, false) := by
  cases hchunked : isChunked headers with
  | true =>
    rw [decodeBody_of_chunked hchunked] at h ⊢
    exact dechunk_larger hle hlarger hlt h
  | false =>
    obtain ⟨slice, hslice⟩ := decodeBody_of_not_chunked hchunked input
    rw [hslice] at h ⊢
    by_cases hlong : cap < slice.length
    · rw [if_pos hlong] at h
      cases h
    · rw [if_neg hlong] at h
      rw [if_neg (by omega), h]

/-! ## Responses -/

theorem parseResponse_eq_ok {r : HttpResponse} : parseResponse raw maxBody = .ok r ↔
    ∃ stop status headers body truncated, headEnd raw = some stop ∧
      parseHead (raw.take stop) = .ok (status, headers) ∧
      decodeBody headers (raw.drop stop) maxBody.toNat = .ok (body, truncated) ∧
      r = { status, headers, body, truncated := truncated || maxBody.toNat ≤ body.length } := by
  unfold parseResponse
  constructor
  · intro h
    split at h
    · cases h
    rename_i stop hstop
    split at h
    · cases h
    rename_i status headers hhead
    split at h
    · cases h
    rename_i body truncated hbody
    cases h
    exact ⟨stop, status, headers, body, truncated, hstop, hhead, hbody, rfl⟩
  · rintro ⟨stop, status, headers, body, truncated, hstop, hhead, hbody, rfl⟩
    simp only [hstop, hhead, hbody]

/-- **Cut bodies are told.** -/
theorem told_of_parseResponse {r : HttpResponse} (h : parseResponse raw maxBody = .ok r)
    {larger : UInt64} (hle : maxBody ≤ larger) : r.truncated = true ∨
      ∃ r', parseResponse raw larger = .ok r' ∧ r'.body = r.body := by
  obtain ⟨stop, status, headers, body, truncated, hstop, hhead, hbody, rfl⟩ :=
    parseResponse_eq_ok.mp h
  cases hcut : (truncated || decide (maxBody.toNat ≤ body.length)) with
  | true => exact Or.inl rfl
  | false =>
    rw [Bool.or_eq_false_iff, decide_eq_false_iff_not, Nat.not_le] at hcut
    rw [hcut.1] at hbody
    have hlarger := decodeBody_larger (UInt64.le_iff_toNat_le.mp hle) larger.toNat_lt hcut.2 hbody
    exact Or.inr ⟨_, parseResponse_eq_ok.mpr
      ⟨stop, status, headers, body, false, hstop, hhead, hlarger, rfl⟩, rfl⟩

/-- **The cap is respected** unless the response is chunked and overruns it. -/
theorem capRespected_iff (raw : List UInt8) (maxBody : UInt64) :
    (∀ r, parseResponse raw maxBody = .ok r → CapRespected raw maxBody r) ↔
      ¬ ResponseOverruns raw maxBody := by
  constructor
  · rintro hall ⟨stop, status, headers, hstop, hhead, hchunked, hover⟩
    have hstart : Overruns maxBody.toNat ([] : List UInt8).length (raw.drop stop) := hover
    obtain ⟨body, hbody, hlt⟩ := dechunk_of_overruns hstart
    rw [← decodeBody_of_chunked hchunked] at hbody
    have hfits := (hall _ (parseResponse_eq_ok.mpr
      ⟨stop, status, headers, body, true, hstop, hhead, hbody, rfl⟩)).fits
    exact absurd hfits (Nat.not_le.mpr hlt)
  · intro hno r h
    refine ⟨?_, fun larger => told_of_parseResponse h⟩
    obtain ⟨stop, status, headers, body, truncated, hstop, hhead, hbody, rfl⟩ :=
      parseResponse_eq_ok.mp h
    exact decodeBody_length_le
      (fun hchunked hover => hno ⟨stop, status, headers, hstop, hhead, hchunked, hover⟩) hbody

/-- A chunk of 255 bytes, of which three arrive. -/
def cutResponse : List UInt8 :=
  Text.utf8 "HTTP/1.1 200 OK\r\nTransfer-Encoding: chunked\r\n\r\nff\r\nabc".toList

/-- With a cap of two bytes, the body has three. -/
theorem not_capRespected : ¬ ∀ (raw : List UInt8) (maxBody : UInt64) (r : HttpResponse),
    parseResponse raw maxBody = .ok r → CapRespected raw maxBody r := by
  intro hall
  have hparse : (parseResponse cutResponse 2).map HttpResponse.body = .ok [97, 98, 99] := by
    decide +kernel
  cases h : parseResponse cutResponse 2 with
  | error e =>
    rw [h] at hparse
    cases hparse
  | ok r =>
    rw [h] at hparse
    have hbody : r.body = [97, 98, 99] := Except.ok.inj hparse
    have hfits := (hall _ _ r h).fits
    rw [hbody] at hfits
    exact absurd hfits (by decide)

end Vlb.Http
