import Mathlib.Data.List.Infix
import Vlb.Lib.Text

/-!
# The probe's HTTP client

One request, one response, connection closed. A response is read up to a cap that does not know the
framing, and then parsed.

* `readToCap`: the reading, from what the peer sends.
* `parseResponse`: the head, and the body as its headers frame it.
* `dechunk`: the chunked coding.
-/

namespace Vlb.Http

/-- A header name, in lower case, and its value. -/
abbrev Header := String × String

/-- What the client makes of a response. -/
structure HttpResponse where
  status : UInt16
  headers : List Header
  body : List UInt8
  /-- The body hit the cap and was cut short. -/
  truncated : Bool
  deriving DecidableEq

/-- Why it makes nothing of it. -/
inductive HttpError
  | readFailed
  /-- The peer closed the connection without sending a response. -/
  | closedEarly
  /-- No header terminator in the first 64 KiB. -/
  | noTerminator
  /-- The header block is not valid UTF-8. -/
  | headNotUtf8
  | emptyStatusLine
  | malformedStatusLine (line : List Char)
  | notHttp (line : List Char)
  | noStatusCode (line : List Char)
  | malformedChunkSize (size : List Char)
  deriving DecidableEq

instance decidableEqExcept {α β : Type} [DecidableEq α] [DecidableEq β] :
    DecidableEq (Except α β)
  | .error a, .error b => decidable_of_iff (a = b) (by simp)
  | .ok a, .ok b => decidable_of_iff (a = b) (by simp)
  | .error _, .ok _ => isFalse nofun
  | .ok _, .error _ => isFalse nofun

/-! ## Reading -/

/-- What one read brings. -/
structure Segment where
  bytes : List UInt8
  nonempty : bytes ≠ []
  fits : bytes.length ≤ 8 * 1024

/-- What the peer sends, as the reads bring it, and how the connection ends. -/
structure Peer where
  segments : List Segment
  /-- The last read fails, where it could have told the end of the stream. -/
  fails : Bool

/-- Every byte that the peer sends. -/
def Peer.sent (p : Peer) : List UInt8 := p.segments.flatMap Segment.bytes

/-- The loop of `read_to_cap`. -/
def readLoop (ceiling : ℕ) (fails : Bool) :
    List Segment → List UInt8 → Except HttpError (List UInt8)
  | [], buf => if fails then .error .readFailed else .ok buf
  | seg :: segs, buf =>
    let buf := buf ++ seg.bytes
    if ceiling ≤ buf.length then .ok buf else readLoop ceiling fails segs buf

/-- `max_body.saturating_add(16 * 1024)`. -/
def ceiling (maxBody : UInt64) : ℕ := min (maxBody.toNat + 16 * 1024) (2 ^ 64 - 1)

/-- All that is read of the response. -/
def readToCap (p : Peer) (maxBody : UInt64) : Except HttpError (List UInt8) :=
  match readLoop (ceiling maxBody) p.fails p.segments [] with
  | .error e => .error e
  | .ok buf => if buf.isEmpty then .error .closedEarly else .ok buf

/-! ## Parsing -/

def cr : UInt8 := 13

def lf : UInt8 := 10

def crlf : List UInt8 := [cr, lf]

/-- How far the end of the head is looked for. -/
def maxHead : ℕ := 64 * 1024

/-- Where the needle is first. -/
def findSubslice (haystack needle : List UInt8) : Option ℕ :=
  if needle.isEmpty ∨ haystack.length < needle.length then none
  else haystack.tails.findIdx? needle.isPrefixOf

/-- Where the head ends: after the first empty line between carriage returns, or else between line
feeds. -/
def headEnd (raw : List UInt8) : Option ℕ :=
  ((findSubslice (raw.take (maxHead + 4)) (crlf ++ crlf)).map (· + 4)).or
    ((findSubslice (raw.take (maxHead + 2)) [lf, lf]).map (· + 2))

/-- The version and the status. -/
def parseStatusLine (line : List Char) : Except HttpError UInt16 :=
  match Text.words line with
  | [] => .error (.malformedStatusLine line)
  | version :: rest =>
    if "HTTP/".toList.isPrefixOf version then
      match rest.head?.bind (Text.fromStrRadix 16 10) with
      | none => .error (.noStatusCode line)
      | some status => .ok (UInt16.ofNat status)
    else .error (.notHttp line)

/-- One header line: a continuation of the previous value, a header, or nothing. -/
def pushLine (headers : List Header) (line : List Char) : List Header :=
  if line.head? = some ' ' ∨ line.head? = some '\t' then
    match headers.getLast? with
    | none => headers
    | some (name, value) =>
      headers.dropLast ++ [(name, value ++ " " ++ String.ofList (Text.trim line))]
  else match Text.splitOnce ':' line with
    | none => headers
    | some (k, v) =>
      headers ++
        [(String.ofList (Text.toAsciiLowercase (Text.trim k)), String.ofList (Text.trim v))]

/-- The lines of the head. -/
def headLines (head : List Char) : List (List Char) :=
  (head.splitOn '\n').map fun l => l.rdropWhile (· = '\r')

/-- The status, and the headers up to the first empty line. -/
def parseLines : List (List Char) → Except HttpError (UInt16 × List Header)
  | [] => .error .emptyStatusLine
  | statusLine :: lines =>
    match parseStatusLine statusLine with
    | .error e => .error e
    | .ok status => .ok (status, (lines.takeWhile (· ≠ [])).foldl pushLine [])

/-- The status and the headers. -/
def parseHead (head : List UInt8) : Except HttpError (UInt16 × List Header) :=
  match Text.fromUtf8 head with
  | none => .error .headNotUtf8
  | some head => parseLines (headLines head)

/-- `Transfer-Encoding` names the chunked coding. -/
def isChunked (headers : List Header) : Bool :=
  headers.any fun h =>
    h.1 = "transfer-encoding" ∧ "chunked".toList <:+: Text.toAsciiLowercase h.2.toList

/-- The value of the first `Content-Length`. -/
def contentLengthValue (headers : List Header) : Option (List Char) :=
  (headers.find? fun h => h.1 = "content-length").map fun h => h.2.toList

/-- The digits of a chunk's size line, before the extensions. -/
def chunkSizeHex (line : List UInt8) : List Char :=
  Text.trim (((Text.fromUtf8 line).getD []).takeWhile (· ≠ ';'))

theorem findSubslice_eq_some {haystack needle : List UInt8} {i : ℕ} (hne : needle ≠ []) :
    findSubslice haystack needle = some i ↔
      needle <+: haystack.drop i ∧ ∀ j < i, ¬ needle <+: haystack.drop j := by
  have hpos := List.length_pos_iff.mpr hne
  have hfits (hpre : needle <+: haystack.drop i) : i + needle.length ≤ haystack.length := by
    have hlen := hpre.length_le
    rw [List.length_drop] at hlen
    omega
  unfold findSubslice
  split
  · rename_i hshort
    simp only [List.isEmpty_iff, hne, false_or] at hshort
    simp only [reduceCtorEq, false_iff, not_and]
    intro hpre
    have := hfits hpre
    omega
  · simp only [List.findIdx?_eq_some_iff_getElem, List.getElem_tails, List.isPrefixOf_iff_prefix,
      List.length_tails]
    refine ⟨fun ⟨_, hfound, hfirst⟩ => ⟨hfound, hfirst⟩, fun ⟨hfound, hfirst⟩ => ?_⟩
    have := hfits hfound
    exact ⟨by omega, hfound, hfirst⟩

theorem findSubslice_eq_none {haystack needle : List UInt8} (hne : needle ≠ []) :
    findSubslice haystack needle = none ↔ ¬ needle <:+: haystack := by
  unfold findSubslice
  split
  · rename_i hshort
    simp only [List.isEmpty_iff, hne, false_or] at hshort
    exact iff_of_true rfl fun hin => absurd hin.length_le (Nat.not_le.mpr hshort)
  · simp only [List.findIdx?_eq_none_iff, List.mem_tails, List.infix_iff_prefix_suffix, not_exists,
      not_and, Bool.eq_false_iff, List.isPrefixOf_iff_prefix, ne_eq]
    exact forall_congr' fun t => imp_not_comm

theorem findSubslice_ne_nil {haystack needle : List UInt8} {i : ℕ}
    (h : findSubslice haystack needle = some i) : needle ≠ [] := by
  rintro rfl
  simp [findSubslice] at h

theorem findSubslice_le {haystack needle : List UInt8} {i : ℕ}
    (h : findSubslice haystack needle = some i) : i + needle.length ≤ haystack.length := by
  have hne := findSubslice_ne_nil h
  have hpos := List.length_pos_iff.mpr hne
  have hlen := ((findSubslice_eq_some hne).mp h).1.length_le
  rw [List.length_drop] at hlen
  omega

/-- Skip the chunk's trailing CRLF. -/
def skipCrlf (input : List UInt8) : List UInt8 :=
  if crlf.isPrefixOf input then input.drop 2 else input

theorem skipCrlf_length_le (input : List UInt8) : (skipCrlf input).length ≤ input.length := by
  unfold skipCrlf
  split <;> simp

/-- The body so far, and whether it was cut. -/
def dechunk (maxBody : ℕ) (out input : List UInt8) : Except HttpError (List UInt8 × Bool) :=
  match _h : findSubslice input crlf with
  | none => .ok (out, true)
  | some nl =>
    match Text.fromStrRadix 64 16 (chunkSizeHex (input.take nl)) with
    | none => .error (.malformedChunkSize (chunkSizeHex (input.take nl)))
    | some size =>
      let rest := input.drop (nl + 2)
      if size = 0 then .ok (out, false)
      else if rest.length < size then .ok (out ++ rest, true)
      else
        let out := out ++ rest.take size
        if maxBody ≤ out.length then .ok (out.take maxBody, true)
        else dechunk maxBody out (skipCrlf (rest.drop size))
termination_by input.length
decreasing_by
  have hfound : nl + 2 ≤ input.length := findSubslice_le (by assumption)
  have hskip := skipCrlf_length_le ((input.drop (nl + 2)).drop size)
  simp only [List.length_drop] at hskip
  omega

/-- The body, and whether it was cut short. -/
def decodeBody (headers : List Header) (rawBody : List UInt8) (maxBody : ℕ) :
    Except HttpError (List UInt8 × Bool) :=
  if isChunked headers then dechunk maxBody [] rawBody
  else
    let stop := match (contentLengthValue headers).bind (Text.fromStrRadix 64 10) with
      | some n => min n rawBody.length
      | none => rawBody.length
    let slice := rawBody.take stop
    if maxBody < slice.length then .ok (slice.take maxBody, true) else .ok (slice, false)

/-- The head is cut, read, and the body taken by its framing. -/
def parseResponse (raw : List UInt8) (maxBody : UInt64) : Except HttpError HttpResponse :=
  match headEnd raw with
  | none => .error .noTerminator
  | some stop =>
    match parseHead (raw.take stop) with
    | .error e => .error e
    | .ok (status, headers) =>
      match decodeBody headers (raw.drop stop) maxBody.toNat with
      | .error e => .error e
      | .ok (body, truncated) =>
        .ok { status, headers, body, truncated := truncated || maxBody.toNat ≤ body.length }

end Vlb.Http
