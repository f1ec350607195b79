import Vlb.Lib.Words
import Vlb.Net.Interception
import Vlb.Net.LineEndings

/-!
# Targets that can pass

A target that no response satisfies holds every provider down. Some targets that the configuration
accepts are such: those that expect the status of a portal, and those that expect more bytes than
a probe reads.

* `Passes`: the responses with which a target passes.
* `response`: a complete response with a given status and body.
* `canPass_iff`: the accepted targets that can pass.
-/

namespace Vlb.Canary

open Time Http Text

variable {sha256 : List UInt8 → Digest} {net : Network} {probe : Probe} {target : CanaryTarget}
  {latency : Duration} {resp : HttpResponse} {p : Peer}

/-! ## The verdict of one response -/

/-- What a response has with which the target passes. -/
structure Passes (sha256 : List UInt8 → Digest) (target : CanaryTarget) (resp : HttpResponse) :
    Prop where
  direct : isRedirect resp = false
  noPortal : resp.status ≠ 511
  status : resp.status = target.expectStatus
  whole : target.expect ≠ .statusOnly → resp.truncated = false
  body : target.expect.Admits sha256 resp.body

theorem judge_isOk_iff :
    (judge sha256 target latency resp).isOk = true ↔ Passes sha256 target resp := by
  unfold judge
  split_ifs with hredirect h511 hstatus hrejected htruncated
  · exact iff_of_false Bool.false_ne_true fun h => absurd hredirect (by simp [h.direct])
  · exact iff_of_false Bool.false_ne_true fun h => h.noPortal h511
  · exact iff_of_false Bool.false_ne_true fun h => hstatus h.status
  · exact iff_of_false Bool.false_ne_true fun h => hstatus h.status
  · exact iff_of_false Bool.false_ne_true fun h =>
      absurd htruncated.1 (by simp [h.whole htruncated.2])
  · -- what is left is the comparison of the body
    have hpasses : Passes sha256 target resp ↔ target.expect.Admits sha256 resp.body := by
      refine ⟨Passes.body, fun hbody => ⟨?_, h511, not_not.mp hstatus, fun hexpect => ?_, hbody⟩⟩
      · simpa using hredirect
      · simpa [hexpect] using htruncated
    rw [hpasses]
    cases hexpect : target.expect with
    | statusOnly => exact iff_of_true rfl trivial
    | exact want =>
      simp only [ContentExpectation.Admits]
      split_ifs with h <;> simp [CanaryVerdict.isOk, h]
    | sha256 want =>
      simp only [ContentExpectation.Admits]
      split_ifs with h <;> simp [CanaryVerdict.isOk, h]
    | contains marker =>
      simp only [ContentExpectation.Admits, ← hasSubslice_iff]
      split_ifs with h <;> simp [CanaryVerdict.isOk, h]

theorem checkOne_isOk_iff (h : Answers net probe target p) :
    (checkOne sha256 net probe target).isOk = true ↔
      ∃ raw resp, readToCap p canaryMaxBody = .ok raw ∧
        parseResponse raw canaryMaxBody = .ok resp ∧ Passes sha256 target resp := by
  obtain ⟨ip, fromDns, hlocate, hroutable, hp⟩ := h
  have hrange : (if fromDns then nonRoutableRange ip else none) = none := by
    cases fromDns with
    | true => exact hroutable rfl
    | false => rfl
  have hanswer {raw : List UInt8} {resp : HttpResponse} (hread : readToCap p canaryMaxBody = .ok raw)
      (hparse : parseResponse raw canaryMaxBody = .ok resp) :
      fetch net (probe.request target ip) = .ok resp :=
    fetch_eq_ok_iff.mpr ⟨p, raw, hp, hread, hparse⟩
  cases hfetch : fetch net (probe.request target ip) with
  | error e =>
    have hcheck : checkOne sha256 net probe target = .unreachable (.failed e) := by
      simp only [checkOne, hlocate, hrange, hfetch]
    rw [hcheck]
    refine iff_of_false Bool.false_ne_true ?_
    rintro ⟨raw, resp, hread, hparse, -⟩
    cases hfetch.symm.trans (hanswer hread hparse)
  | ok resp =>
    have hcheck : checkOne sha256 net probe target =
        judge sha256 target (net.elapsed (probe.request target ip)) resp := by
      simp only [checkOne, hlocate, hrange, hfetch]
    rw [hcheck, judge_isOk_iff]
    constructor
    · intro hpasses
      obtain ⟨p', raw, hp', hread, hparse⟩ := fetch_eq_ok_iff.mp hfetch
      cases hp.symm.trans hp'
      exact ⟨raw, resp, hread, hparse, hpasses⟩
    · rintro ⟨raw, resp', hread, hparse, hpasses⟩
      cases hfetch.symm.trans (hanswer hread hparse)
      exact hpasses

/-! ## A response made for a target -/

/-- A response head that has a status and no header. -/
def statusHead (status : UInt16) : HeadText where
  statusLine := "HTTP/1.1".toList ++ ' ' :: Nat.toDigits 10 status.toNat
  headerLines := []
  plain := by
    intro l hl
    obtain rfl := List.mem_singleton.mp hl
    have hdigit {c : Char} (hc : c.isDigit = false) (hfront : c ∉ "HTTP/1.1".toList)
        (hspace : c ≠ ' ') : c ∉ "HTTP/1.1".toList ++ ' ' :: Nat.toDigits 10 status.toNat := by
      intro hmem
      obtain hmem | hmem := List.mem_append.mp hmem
      · exact hfront hmem
      · obtain hmem | hmem := List.mem_cons.mp hmem
        · exact hspace hmem
        · exact not_mem_toDigits hc hmem
    exact ⟨List.append_ne_nil_of_right_ne_nil _ (List.cons_ne_nil _ _),
      hdigit rfl (by decide) (by decide), hdigit rfl (by decide) (by decide)⟩

/-- A peer that sends the bytes one at a time, and closes. -/
def sending (bytes : List UInt8) : Peer where
  segments := bytes.map fun b => ⟨[b], List.cons_ne_nil b [], by simp⟩
  fails := false

theorem sent_sending (bytes : List UInt8) : (sending bytes).sent = bytes := by
  simp [Peer.sent, sending, List.flatMap_map]

theorem readLoop_all {stop : ℕ} {segs : List Segment} {buf : List UInt8}
    (h : (buf ++ segs.flatMap Segment.bytes).length < stop) :
    readLoop stop false segs buf = .ok (buf ++ segs.flatMap Segment.bytes) := by
  induction segs generalizing buf with
  | nil => simp [readLoop]
  | cons seg segs ih =>
    rw [List.flatMap_cons, ← List.append_assoc] at h ⊢
    rw [readLoop, if_neg ?_, ih h]
    rw [List.length_append] at h
    omega

theorem parseStatusLine_statusHead (status : UInt16) :
    parseStatusLine (statusHead status).statusLine = .ok status := by
  have hdigits : ∀ c ∈ Nat.toDigits 10 status.toNat, isWhitespace c = false := fun c hc =>
    isWhitespace_of_isDigit (Nat.isDigit_of_mem_toDigits (by decide) (by decide) hc)
  have hversion : ∀ c ∈ "HTTP/1.1".toList, isWhitespace c = false := fun c hc => by
    have hall : ("HTTP/1.1".toList.all fun c => !isWhitespace c) = true := by decide
    simpa using List.all_eq_true.mp hall c hc
  have hspace : isWhitespace ' ' = true := by decide
  have hne : "HTTP/1.1".toList ≠ [] := by decide
  have hwords : words ("HTTP/1.1".toList ++ ' ' :: Nat.toDigits 10 status.toNat) =
      ["HTTP/1.1".toList, Nat.toDigits 10 status.toNat] := by
    rw [words_cons hne hversion hspace, words_plain Nat.toDigits_ne_nil hdigits]
  have hread : fromStrRadix 16 10 (Nat.toDigits 10 status.toNat) = some status.toNat := by
    rw [fromStrRadix, number_toDigits, Option.filter_some, if_pos (decide_eq_true status.toNat_lt)]
  have hhttp : "HTTP/".toList.isPrefixOf "HTTP/1.1".toList = true := by decide
  change parseStatusLine ("HTTP/1.1".toList ++ ' ' :: Nat.toDigits 10 status.toNat) = _
  rw [parseStatusLine, hwords]
  simp only [hhttp, if_true, List.head?_cons, Option.bind_some, hread, UInt16.ofNat_toNat]

theorem length_utf8_le (cs : List Char) : (utf8 cs).length ≤ 4 * cs.length := by
  induction cs with
  | nil => exact Nat.le_refl 0
  | cons c cs ih =>
    have hsize := c.utf8Size_le_four
    rw [length_utf8_cons, List.length_cons]
    omega

theorem length_text {h : HeadText} (hbare : h.headerLines = []) :
    (h.text .crlf).length = h.statusLine.length + 4 := by
  rw [HeadText.text, HeadText.lines, hbare]
  simp [LineEnding.chars]

theorem length_statusHead (status : UInt16) : ((statusHead status).wire .crlf).length ≤ 72 := by
  have hsmall : status.toNat < 10 ^ 5 := Nat.lt_of_lt_of_le status.toNat_lt (by decide)
  have hdigits := (Nat.length_toDigits_le_iff (by decide) (by decide)).mpr hsmall
  have hbytes : ((statusHead status).wire .crlf).length ≤
      4 * ((statusHead status).text .crlf).length :=
    length_utf8_le _
  have hversion : "HTTP/1.1".toList.length = 8 := by decide
  have hline : ("HTTP/1.1".toList ++ ' ' :: Nat.toDigits 10 status.toNat).length =
      8 + ((Nat.toDigits 10 status.toNat).length + 1) := by
    rw [List.length_append, List.length_cons, hversion]
  have htext := length_text (h := statusHead status) rfl
  have hstatus : (statusHead status).statusLine.length =
      ("HTTP/1.1".toList ++ ' ' :: Nat.toDigits 10 status.toNat).length := rfl
  omega

theorem blankLineEnd_line {line rest : List UInt8} (h : lf ∉ line) :
    blankLineEnd false (line ++ lf :: rest) =
      (blankLineEnd true rest).map (· + (line.length + 1)) := by
  induction line with
  | nil => simp [blankLineEnd]
  | cons b line ih =>
    rw [List.mem_cons, not_or] at h
    rw [List.cons_append, blankLineEnd, if_neg (Ne.symm h.1), Bool.false_and, ih h.2, Option.map_map]
    congr 1

theorem headLength_bare {h : HeadText} (hbare : h.headerLines = []) (body : List UInt8) :
    headLength (h.wire .crlf ++ body) = some (h.wire .crlf).length := by
  have hcrlf : utf8 LineEnding.crlf.chars = [cr, lf] := by decide
  have hline : utf8 h.statusLine ∈ h.lines.map utf8 := List.mem_map_of_mem List.mem_cons_self
  obtain ⟨hne, hcr, hlf⟩ := h.line_plain hline
  have hwire : h.wire .crlf = utf8 h.statusLine ++ [cr, lf] ++ [cr, lf] := by
    rw [h.wire_eq, HeadText.lines, hbare, hcrlf]
    simp
  obtain ⟨b, bs, hbs⟩ := List.exists_cons_of_ne_nil hne
  rw [hbs] at hcr hlf hwire
  rw [List.mem_cons, not_or] at hcr hlf
  have hrest : lf ∉ bs ++ [cr] := fun hmem =>
    (List.mem_append.mp hmem).elim hlf.2 (by decide)
  have hsplit : h.wire .crlf ++ body = b :: (bs ++ [cr] ++ lf :: (cr :: lf :: body)) := by
    rw [hwire]
    simp
  have hnotcr : decide (b = cr) = false := decide_eq_false (Ne.symm hcr.1)
  rw [headLength, hsplit, blankLineEnd, if_neg (Ne.symm hlf.1), hnotcr, Bool.true_and,
    blankLineEnd_line hrest, hwire]
  simp [blankLineEnd, cr, lf]
  omega

theorem readToCap_sending {bytes : List UInt8} {maxBody : UInt64} (hne : bytes ≠ [])
    (hlt : bytes.length < ceiling maxBody) :
    readToCap (sending bytes) maxBody = .ok bytes := by
  have hread : readLoop (ceiling maxBody) (sending bytes).fails (sending bytes).segments [] =
      .ok bytes := by
    have hsent : [] ++ (sending bytes).segments.flatMap Segment.bytes = bytes := sent_sending bytes
    have hall : readLoop (ceiling maxBody) false (sending bytes).segments [] =
        .ok ([] ++ (sending bytes).segments.flatMap Segment.bytes) := readLoop_all (by rwa [hsent])
    rwa [hsent] at hall
  have hempty : bytes.isEmpty = false := by rwa [List.isEmpty_eq_false_iff]
  rw [readToCap, hread]
  simp only [hempty, Bool.false_eq_true, if_false]

/-- A body that ends where the stream ends, below the cap, is taken whole. -/
theorem decodeBody_bare {body : List UInt8} {cap : ℕ} (hbody : body.length < cap) :
    decodeBody [] body cap = .ok (body, false) := by
  have hchunked : isChunked [] = false := rfl
  have hlength : contentLengthValue [] = none := rfl
  rw [decodeBody, hchunked, if_neg Bool.false_ne_true, hlength]
  simp only [Option.bind_none, List.take_length]
  rw [if_neg (Nat.not_lt.mpr hbody.le)]

theorem parseHead_statusHead (status : UInt16) :
    parseHead ((statusHead status).wire .crlf) = .ok (status, []) := by
  rw [HeadText.parseHead_wire, HeadText.lines, List.cons_append, parseLines,
    parseStatusLine_statusHead]
  rfl

/-- The bytes of a response that has a status, no header and the body. -/
def response (status : UInt16) (body : List UInt8) : List UInt8 :=
  (statusHead status).wire .crlf ++ body

theorem response_ne_nil (status : UInt16) (body : List UInt8) : response status body ≠ [] := by
  have hline : utf8 (statusHead status).statusLine ∈ (statusHead status).lines.map utf8 :=
    List.mem_map_of_mem List.mem_cons_self
  obtain ⟨hne, -⟩ := (statusHead status).line_plain hline
  refine List.append_ne_nil_of_left_ne_nil ?_ _
  rw [HeadText.wire_eq, HeadText.lines, List.map_cons, List.flatMap_cons]
  simp [hne]

theorem isEntity_response (status : UInt16) (body : List UInt8) :
    IsEntity (response status body) body := by
  have hparse : parseHead (((statusHead status).wire .crlf ++ body).take
      ((statusHead status).wire .crlf).length) = .ok (status, []) := by
    rw [List.take_left, parseHead_statusHead]
  rw [response, isEntity_iff_carries (headLength_bare rfl body) hparse, List.drop_left]
  rfl

theorem parseResponse_response (status : UInt16) {body : List UInt8} {maxBody : UInt64}
    (hbody : body.length < maxBody.toNat) :
    parseResponse (response status body) maxBody = .ok ⟨status, [], body, false⟩ := by
  have hsize : ((statusHead status).wire .crlf).length ≤ maxHead + 4 :=
    (length_statusHead status).trans (by decide)
  rw [parseResponse, response, headEnd_crlf hsize]
  simp only [List.take_left, List.drop_left, parseHead_statusHead, decodeBody_bare hbody,
    Bool.false_or]
  rw [decide_eq_false (Nat.not_le.mpr hbody)]

theorem length_response_lt (status : UInt16) {body : List UInt8}
    (hbody : body.length < canaryMaxBody.toNat) :
    (response status body).length < ceiling canaryMaxBody := by
  have hcap : canaryMaxBody.toNat = 262144 := by decide
  have hhead := length_statusHead status
  rw [hcap] at hbody
  rw [response, List.length_append, ceiling, hcap]
  omega

/-! ## What can pass -/

/-- The server has a complete response with which the target passes, on whatever network it is
answered. -/
def CanPass (sha256 : List UInt8 → Digest) (target : CanaryTarget) : Prop :=
  ∃ p body, IsEntity p.sent body ∧ (∃ net probe, Answers net probe target p) ∧
    ∀ net probe, Answers net probe target p → (checkOne sha256 net probe target).isOk = true

/-- How many bytes the body has at least. -/
def ContentExpectation.size : ContentExpectation → ℕ
  | .exact bytes => bytes.length
  | .contains marker => (utf8 marker.toList).length
  | .sha256 _ | .statusOnly => 0

/-- The status is none of a portal, and the body is below the cap of a probe. -/
def Passable (target : CanaryTarget) : Prop :=
  target.expectStatus ≠ 511 ∧ target.expect.size < canaryMaxBody.toNat

instance (target : CanaryTarget) : Decidable (Passable target) :=
  inferInstanceAs (Decidable (_ ∧ _))

/-- The digest that the target expects is one of a body below the cap. -/
def DigestOfSmall (sha256 : List UInt8 → Digest) (target : CanaryTarget) : Prop :=
  ∀ digest, target.expect = .sha256 digest →
    ∃ body, body.length < canaryMaxBody.toNat ∧ sha256 body = digest

/-- A network on which the peer answers every probe. -/
def answering (p : Peer) : Network where
  resolve := fun _ => some (Ipv4Addr.ofOctets 192 0 2 1)
  exchange := fun _ => .answered p
  elapsed := fun _ => Duration.fromSecs 0

theorem answers_answering (probe : Probe) (target : CanaryTarget) (p : Peer) :
    Answers (answering p) probe target p := by
  cases hhost : target.url.hostAsIp with
  | some ip =>
    have hlocate : locate (answering p) target = some (ip, false) := by simp only [locate, hhost]
    exact ⟨ip, false, hlocate, fun h => absurd h Bool.false_ne_true, rfl⟩
  | none =>
    have hlocate : locate (answering p) target = some (Ipv4Addr.ofOctets 192 0 2 1, true) := by
      simp [locate, hhost, answering]
    exact ⟨_, true, hlocate, fun _ => by decide, rfl⟩

theorem exists_admitted (hdigest : DigestOfSmall sha256 target)
    (hsize : target.expect.size < canaryMaxBody.toNat) :
    ∃ body, body.length < canaryMaxBody.toNat ∧ target.expect.Admits sha256 body := by
  cases hexpect : target.expect with
  | exact bytes => exact ⟨bytes, by simpa [hexpect, ContentExpectation.size] using hsize, rfl⟩
  | sha256 digest => exact hdigest digest hexpect
  | contains marker =>
    exact ⟨utf8 marker.toList, by simpa [hexpect, ContentExpectation.size] using hsize,
      List.infix_refl _⟩
  | statusOnly => exact ⟨[], by decide, trivial⟩

/-- What passes is below the cap: a body that reaches it is called truncated. -/
theorem Passes.size_lt {raw : List UInt8} (h : Passes sha256 target resp)
    (hparse : parseResponse raw canaryMaxBody = .ok resp) :
    target.expect.size < canaryMaxBody.toNat := by
  obtain ⟨-, truncated, -, -, -, htruncated⟩ := parseResponse_ok hparse
  have hwhole (hexpect : target.expect ≠ .statusOnly) :
      resp.body.length < canaryMaxBody.toNat := by
    rw [h.whole hexpect, eq_comm, Bool.or_eq_false_iff, decide_eq_false_iff_not] at htruncated
    exact Nat.not_le.mp htruncated.2
  have hbody := h.body
  have hcap : 0 < canaryMaxBody.toNat := by decide
  cases hexpect : target.expect with
  | exact bytes =>
    rw [hexpect] at hbody
    have hbytes : resp.body = bytes := hbody
    rw [ContentExpectation.size, ← hbytes]
    exact hwhole (by simp [hexpect])
  | contains marker =>
    rw [hexpect] at hbody
    have hmarker : utf8 marker.toList <:+: resp.body := hbody
    exact hmarker.length_le.trans_lt (hwhole (by simp [hexpect]))
  | sha256 digest => exact hcap
  | statusOnly => exact hcap

/-- **The accepted targets that can pass** are those that expect another status than that of a
portal, and fewer bytes than a probe reads. -/
theorem canPass_iff (htarget : Configured target) (hdigest : DigestOfSmall sha256 target) :
    CanPass sha256 target ↔ Passable target := by
  constructor
  · rintro ⟨p, -, -, ⟨net, probe, hanswers⟩, hpasses⟩
    obtain ⟨raw, resp, -, hparse, h⟩ := (checkOne_isOk_iff hanswers).mp (hpasses net probe hanswers)
    exact ⟨fun h511 => h.noPortal (h.status.trans h511), h.size_lt hparse⟩
  · rintro ⟨h511, hsize⟩
    obtain ⟨body, hlt, hbody⟩ := exists_admitted hdigest hsize
    have hdirect : isRedirect ⟨target.expectStatus, [], body, false⟩ = false := by
      rw [Bool.eq_false_iff]
      exact fun h => htarget.expectStatus (status_of_isRedirect h)
    have hread := readToCap_sending (response_ne_nil target.expectStatus body)
      (length_response_lt target.expectStatus hlt)
    have hparse := parseResponse_response target.expectStatus hlt
    have hentity := isEntity_response target.expectStatus body
    rw [← sent_sending (response target.expectStatus body)] at hentity
    refine ⟨_, body, hentity, ⟨_, ⟨Duration.fromSecs 1, none, ""⟩, answers_answering _ target _⟩,
      fun net probe hanswers => ?_⟩
    exact (checkOne_isOk_iff hanswers).mpr
      ⟨_, _, hread, hparse, hdirect, h511, rfl, fun _ => rfl, hbody⟩

/-- A target that can pass. -/
def loginCheck : CanaryTarget where
  url := { scheme := .http, host := "example.com", port := 80, path := "/" }
  expectStatus := 200
  expect := .contains "Example Domain"

theorem loginCheck_configured : Configured loginCheck :=
  ⟨{ targets := [{ url := "http://example.com/", expectContains := some "Example Domain" }] },
    [loginCheck], by decide +kernel, List.mem_singleton.mpr rfl⟩

theorem canPass_loginCheck : CanPass noDigest loginCheck := by
  have hsmall : Passable loginCheck := ⟨by decide, by decide +kernel⟩
  exact (canPass_iff loginCheck_configured (by intro digest h; cases h)).mpr hsmall

/-! ## The status of a portal -/

/-- One that cannot. -/
def portalStatus : CanaryTarget where
  url := { scheme := .http, host := "example.com", port := 80, path := "/" }
  expectStatus := 511
  expect := .statusOnly

theorem portalStatus_configured : Configured portalStatus :=
  ⟨{ targets := [{ url := "http://example.com/", expectStatus := 511 }] },
    [portalStatus], by decide +kernel, List.mem_singleton.mpr rfl⟩

/-- A target that expects the status of a portal is accepted, and never passes. -/
theorem not_canPass : ¬ ∀ (sha256 : List UInt8 → Digest) (target : CanaryTarget),
    Configured target → DigestOfSmall sha256 target → CanPass sha256 target := by
  intro hall
  obtain ⟨p, -, -, ⟨net, probe, hanswers⟩, hpasses⟩ :=
    hall noDigest portalStatus portalStatus_configured (by intro digest h; cases h)
  obtain ⟨-, resp, -, -, h⟩ := (checkOne_isOk_iff hanswers).mp (hpasses net probe hanswers)
  exact h.noPortal h.status

end Vlb.Canary
