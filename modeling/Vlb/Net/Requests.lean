import Vlb.Net.Canary
import Vlb.Net.UrlDisplay

/-!
# Requests on the wire

A request is written from three texts of other people's making: the path and the host of a URL, and
the user agent of the configuration.

* `buildRequest`: the bytes.
* `cutAtCrlf`: how the receiver cuts them into lines.
* **`buildRequest_lines`**: whatever the texts, the lines are the request line and its headers.
-/

namespace Vlb.Http

open Canary

/-- `char::is_control`. -/
def isControl (c : Char) : Bool := c.toNat < 0x20 || (0x7f ≤ c.toNat && c.toNat ≤ 0x9f)

/-- Strip anything that could end a header line. -/
def sanitizeHeaderValue (v : String) : String :=
  String.ofList ((v.toList.filter fun c => c ≠ '\r' && c ≠ '\n' && !isControl c).take 200)

/-- The bytes that are sent. -/
def buildRequest (req : HttpRequest) : List UInt8 :=
  let text := "GET " ++ req.url.path ++ " HTTP/1.1\r\n" ++
    "Host: " ++ req.url.hostHeader ++ "\r\n" ++
    "User-Agent: " ++ sanitizeHeaderValue req.userAgent ++ "\r\n" ++
    "Accept: */*\r\n" ++
    "Accept-Encoding: identity\r\n" ++
    "Cache-Control: no-cache, no-store\r\n" ++
    "Pragma: no-cache\r\n" ++
    "Connection: close\r\n\r\n"
  Text.utf8 text.toList

/-! ## Lines -/

/-- The pieces of the bytes between line breaks. -/
def cutAtCrlf : List UInt8 → List (List UInt8)
  | [] => [[]]
  | [b] => [[b]]
  | a :: b :: bs =>
    if a = cr ∧ b = lf then [] :: cutAtCrlf bs else (cutAtCrlf (b :: bs)).modifyHead (a :: ·)

/-- The seven headers of a request, each with its value. -/
def requestHeaders (req : HttpRequest) : List (String × String) :=
  [("Host", req.url.hostHeader),
    ("User-Agent", sanitizeHeaderValue req.userAgent),
    ("Accept", "*/*"),
    ("Accept-Encoding", "identity"),
    ("Cache-Control", "no-cache, no-store"),
    ("Pragma", "no-cache"),
    ("Connection", "close")]

/-- The first line. -/
def requestLine (path : String) : List UInt8 := Text.utf8 ("GET " ++ path ++ " HTTP/1.1").toList

/-- A name and its value. -/
def headerLine (h : String × String) : List UInt8 := Text.utf8 (h.1 ++ ": " ++ h.2).toList

/-- The lines of the bytes are the request line, the seven headers and one empty line, and no text
in them can be taken for more than it is. -/
structure OneRequest (req : HttpRequest) (wire : List UInt8) : Prop where
  lines : cutAtCrlf wire =
    requestLine req.url.path :: (requestHeaders req).map headerLine ++ [[], []]
  path : ∀ c ∈ req.url.path.toList, c ≠ ' ' ∧ c ≠ '\r' ∧ c ≠ '\n'
  values : ∀ h ∈ requestHeaders req, ∀ c ∈ h.2.toList, c ≠ '\r' ∧ c ≠ '\n'

theorem cutAtCrlf_line {line : List UInt8} (h : cr ∉ line) (rest : List UInt8) :
    cutAtCrlf (line ++ crlf ++ rest) = line :: cutAtCrlf rest := by
  induction line with
  | nil => exact if_pos ⟨rfl, rfl⟩
  | cons a line ih =>
    have ha : a ≠ cr := fun heq => h (List.mem_cons.mpr (Or.inl heq.symm))
    have htail := ih fun hmem => h (List.mem_cons_of_mem a hmem)
    obtain ⟨b, bs, hbs⟩ : ∃ b bs, line ++ crlf ++ rest = b :: bs := by
      cases line <;> exact ⟨_, _, rfl⟩
    rw [List.cons_append, List.cons_append, hbs, cutAtCrlf, if_neg fun heq => ha heq.1, ← hbs,
      htail]
    rfl

/-- Lines without carriage returns, written one by one, are the lines that are cut. -/
theorem cutAtCrlf_lines {lines : List (List UInt8)} (h : ∀ l ∈ lines, cr ∉ l) (rest : List UInt8) :
    cutAtCrlf ((lines.flatMap fun l => l ++ crlf) ++ rest) = lines ++ cutAtCrlf rest := by
  induction lines with
  | nil => rfl
  | cons l lines ih =>
    rw [List.flatMap_cons, List.append_assoc, cutAtCrlf_line (h l List.mem_cons_self),
      ih fun m hm => h m (List.mem_cons_of_mem l hm)]
    rfl

/-! ## The texts -/

theorem sanitizeHeaderValue_clean (v : String) {c : Char}
    (hc : c ∈ (sanitizeHeaderValue v).toList) : c ≠ '\r' ∧ c ≠ '\n' := by
  rw [sanitizeHeaderValue, String.toList_ofList] at hc
  have hkept := List.of_mem_filter (List.mem_of_mem_take hc)
  simp only [Bool.and_eq_true, decide_eq_true_eq] at hkept
  exact hkept.1

variable {req : HttpRequest}

theorem requestHeaders_clean (h : req.url.WellFormed) {p : String × String}
    (hp : p ∈ requestHeaders req) {c : Char} (hc : c ∈ p.2.toList) : c ≠ '\r' ∧ c ≠ '\n' := by
  have hfixed : ∀ v ∈ ["*/*", "identity", "no-cache, no-store", "no-cache", "close"],
      v.toList.all (fun c => c ≠ '\r' ∧ c ≠ '\n') = true := by decide
  simp only [requestHeaders, List.mem_cons, List.not_mem_nil, or_false] at hp
  rcases hp with rfl | rfl | rfl | rfl | rfl | rfl | rfl
  · rcases Url.hostHeader_chars h hc with hhost | rfl
    · refine ⟨?_, ?_⟩ <;> rintro rfl <;> exact absurd hhost (by decide)
    · decide
  · exact sanitizeHeaderValue_clean req.userAgent hc
  all_goals exact of_decide_eq_true (List.all_eq_true.mp (hfixed _ (by decide)) c hc)

/-- The names of the headers, and what else is fixed, have no carriage return. -/
theorem lines_clean (h : req.url.WellFormed) {l : List UInt8}
    (hl : l ∈ requestLine req.url.path :: (requestHeaders req).map headerLine) : cr ∉ l := by
  rcases List.mem_cons.mp hl with rfl | hl
  · refine Text.not_mem_utf8 (c := '\r') (by decide) rfl fun hc => ?_
    have hget : '\r' ∉ "GET ".toList := by decide
    have hversion : '\r' ∉ " HTTP/1.1".toList := by decide
    simp only [String.toList_append, List.mem_append] at hc
    rcases hc with (hc | hc) | hc
    · exact hget hc
    · exact absurd (h.path_clean '\r' hc) (by decide)
    · exact hversion hc
  · obtain ⟨p, hp, rfl⟩ := List.mem_map.mp hl
    refine Text.not_mem_utf8 (c := '\r') (by decide) rfl fun hc => ?_
    have hnames : ∀ n ∈ ["Host", "User-Agent", "Accept", "Accept-Encoding", "Cache-Control",
        "Pragma", "Connection"], '\r' ∉ n.toList := by decide
    have hname : p.1 ∈ (requestHeaders req).map Prod.fst := List.mem_map_of_mem hp
    have hcolon : '\r' ∉ ": ".toList := by decide
    simp only [String.toList_append, List.mem_append] at hc
    rcases hc with (hc | hc) | hc
    · exact hnames p.1 hname hc
    · exact hcolon hc
    · exact (requestHeaders_clean h hp hc).1 rfl

theorem buildRequest_eq (req : HttpRequest) : buildRequest req =
    ((requestLine req.url.path :: (requestHeaders req).map headerLine).flatMap
      fun l => l ++ crlf) ++ crlf := by
  have hcrlf : crlf = Text.utf8 "\r\n".toList := by decide
  have hget : " HTTP/1.1\r\n" = " HTTP/1.1" ++ "\r\n" := by decide
  have hhost : "Host: " = "Host" ++ ": " := by decide
  have hagent : "User-Agent: " = "User-Agent" ++ ": " := by decide
  have haccept : "Accept: */*\r\n" = "Accept" ++ ": " ++ "*/*" ++ "\r\n" := by decide
  have hencoding : "Accept-Encoding: identity\r\n" =
      "Accept-Encoding" ++ ": " ++ "identity" ++ "\r\n" := by decide
  have hcache : "Cache-Control: no-cache, no-store\r\n" =
      "Cache-Control" ++ ": " ++ "no-cache, no-store" ++ "\r\n" := by decide
  have hpragma : "Pragma: no-cache\r\n" = "Pragma" ++ ": " ++ "no-cache" ++ "\r\n" := by decide
  have hclose : "Connection: close\r\n\r\n" =
      "Connection" ++ ": " ++ "close" ++ "\r\n" ++ "\r\n" := by decide
  simp only [buildRequest, hget, hhost, hagent, haccept, hencoding, hcache, hpragma, hclose,
    requestHeaders, List.map_cons, List.map_nil, List.flatMap_cons, List.flatMap_nil, requestLine,
    headerLine, hcrlf, ← Text.utf8_append, List.append_nil, String.toList_append, List.append_assoc]

/-- **A request cannot be split.** -/
theorem buildRequest_lines {raw : String} (h : Url.parse raw = .ok req.url) :
    OneRequest req (buildRequest req) := by
  have hwell := Url.parse_wellFormed h
  refine ⟨?_, fun c hc => ?_, fun p hp c hc => requestHeaders_clean hwell hp hc⟩
  · rw [buildRequest_eq, cutAtCrlf_lines fun l hl => lines_clean hwell hl]
    rfl
  · have hclean := hwell.path_clean c hc
    refine ⟨?_, ?_, ?_⟩ <;> rintro rfl <;> exact absurd hclean (by decide)

/-- A user agent that tries to add a header. -/
def injectingRequest : HttpRequest where
  url := { scheme := .https, host := "example.com", port := 443, path := "/p?q=1" }
  connectIp := Ipv4Addr.ofOctets 93 184 216 34
  mark := some 0x200
  timeout := Time.Duration.fromSecs 5
  maxBody := 1024
  userAgent := "vlb/1.0\r\nX-Injected: yes"

theorem buildRequest_lines_injecting :
    OneRequest injectingRequest (buildRequest injectingRequest) :=
  buildRequest_lines
    (show Url.parse "https://example.com/p?q=1" = .ok injectingRequest.url by decide +kernel)

end Vlb.Http
