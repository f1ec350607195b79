import Vlb.Config

/-!
# URLs

The subset of URLs that the probes speak: `http` or `https`, an explicit host, a port and a path.

* `Url.parse`: the parser, with what it refuses.
* `Url.hostAsIp`: the address of a host that is an IPv4 literal.
* `Url.parse_wellFormed`: what the parser promises to those who write requests.
-/

namespace Vlb

/-! ## IPv4 literals -/

namespace Ipv4Addr

/-- One of the four numbers, without leading zeros. -/
def parseOctet (cs : List Char) : Option (BitVec 8) :=
  if cs ≠ [] ∧ cs.length ≤ 3 ∧ cs.all Char.isDigit = true ∧ (cs.head? = some '0' → cs.length = 1) then
    let n := Nat.ofDigitChars 10 cs 0
    if n < 256 then some (BitVec.ofNat 8 n) else none
  else none

/-- `Ipv4Addr::from_str`. -/
def parse (s : String) : Option Ipv4Addr :=
  match s.toList.splitOn '.' with
  | [a, b, c, d] => do
    return ofOctets (← parseOctet a) (← parseOctet b) (← parseOctet c) (← parseOctet d)
  | _ => none

example : parse "192.168.0.10" = some (ofOctets 192 168 0 10) := by decide

example : parse "192.168.0.010" = none := by decide

end Ipv4Addr

/-! ## Parsing -/

inductive Scheme
  | http
  | https
  deriving DecidableEq

def Scheme.defaultPort : Scheme → UInt16
  | .http => 80
  | .https => 443

def Scheme.asStr : Scheme → String
  | .http => "http"
  | .https => "https"

/-- A URL as it is requested. -/
structure Url where
  scheme : Scheme
  host : String
  port : UInt16
  /-- Path and query, as on the request line. -/
  path : String
  deriving DecidableEq

/-- What is wrong with a URL. Every message quotes the URL as well. -/
inductive UrlError
  | badScheme
  | userinfo
  | ipv6Literal
  | invalidPort (port : List Char)
  | portZero
  | emptyHost
  | invalidHost (host : List Char)
  | invalidPath
  deriving DecidableEq

namespace Url

/-- The characters of a DNS name or of an IPv4 literal. -/
def isHostChar (c : Char) : Bool := c.isAlphanum || c == '.' || c == '-' || c == '_'

/-- The characters that would end the request line. -/
def isForbiddenInPath (c : Char) : Bool := c == '\r' || c == '\n' || c == ' '

/-- Only these two schemes are known. -/
def splitScheme (raw : List Char) : Except UrlError (Scheme × List Char) :=
  match Text.stripPrefix "https://".toList raw with
  | some rest => .ok (.https, rest)
  | none =>
    match Text.stripPrefix "http://".toList raw with
    | some rest => .ok (.http, rest)
    | none => .error .badScheme

/-- The authority, and the path up to the fragment. -/
def splitPath (rest : List Char) : List Char × List Char :=
  let rest := rest.takeWhile (· ≠ '#')
  let path := rest.dropWhile (· ≠ '/')
  (rest.takeWhile (· ≠ '/'), if path.isEmpty then ['/'] else path)

/-- A port of zero is refused. -/
def splitPort (scheme : Scheme) (authority : List Char) : Except UrlError (List Char × UInt16) :=
  match Text.rsplitOnce ':' authority with
  | none => .ok (authority, scheme.defaultPort)
  | some (host, port) =>
    match Text.fromStrRadix 16 10 port with
    | none => .error (.invalidPort port)
    | some n => if n = 0 then .error .portZero else .ok (host, UInt16.ofNat n)

/-- `Url::parse`. -/
def parse (raw : String) : Except UrlError Url := do
  let (scheme, rest) ← splitScheme (Text.trim raw.toList)
  let (authority, path) := splitPath rest
  if '@' ∈ authority then throw .userinfo
  if authority.head? = some '[' then throw .ipv6Literal
  let (host, port) ← splitPort scheme authority
  if host.isEmpty then throw .emptyHost
  if !host.all isHostChar then throw (.invalidHost host)
  if path.any isForbiddenInPath then throw .invalidPath
  return {
    scheme, port
    host := String.ofList (Text.toAsciiLowercase host)
    path := String.ofList path }

/-- `host`, or `host:port` where the port is not the scheme's own. -/
def hostHeader (u : Url) : String :=
  if u.port = u.scheme.defaultPort then u.host else u.host ++ ":" ++ toString u.port.toNat

/-- The `Display` form. -/
def display (u : Url) : String := u.scheme.asStr ++ "://" ++ u.hostHeader ++ u.path

/-- The address of a host that needs no resolving. -/
def hostAsIp (u : Url) : Option Ipv4Addr := Ipv4Addr.parse u.host

/-! ## What a parsed URL promises -/

/-- The URL can be written into a request line and a `Host` header. -/
structure WellFormed (u : Url) : Prop where
  port : u.port ≠ 0
  host_ne : u.host ≠ ""
  host : ∀ c ∈ u.host.toList, isHostChar c = true
  path : u.path.toList.head? = some '/'
  path_clean : ∀ c ∈ u.path.toList, isForbiddenInPath c = false

theorem isHostChar_toLower {c : Char} (h : isHostChar c = true) : isHostChar c.toLower = true := by
  have hletters : ∀ n < 91, 65 ≤ n → isHostChar (Char.ofNat n).toLower = true := by decide
  by_cases hupper : 65 ≤ c.toNat ∧ c.toNat < 91
  · rw [← Char.ofNat_toNat c]
    exact hletters c.toNat hupper.2 hupper.1
  · unfold Char.toLower
    split
    · rename_i hrange
      obtain ⟨hlow, hhigh⟩ := hrange
      have hlow : 65 ≤ c.toNat := hlow
      have hhigh : c.toNat ≤ 90 := hhigh
      omega
    · exact h

theorem splitPort_ne_zero {scheme : Scheme} {authority host : List Char} {port : UInt16}
    (h : splitPort scheme authority = .ok (host, port)) : port ≠ 0 := by
  unfold splitPort at h
  split at h
  · cases h
    cases scheme <;> decide
  · split at h
    · cases h
    · rename_i n hn
      split_ifs at h with hzero
      cases h
      have hlt : n < 2 ^ 16 := of_decide_eq_true (Option.filter_eq_some_iff.mp hn).2
      intro heq
      have := congrArg UInt16.toNat heq
      rw [UInt16.toNat_ofNat_of_lt' hlt] at this
      exact hzero this

theorem splitPath_head (rest : List Char) : (splitPath rest).2.head? = some '/' := by
  simp only [splitPath]
  split
  · rfl
  · rename_i hne
    rw [List.isEmpty_iff] at hne
    obtain ⟨c, hc⟩ := Option.ne_none_iff_exists'.mp (mt List.head?_eq_none_iff.mp hne)
    have := List.head?_dropWhile_not (fun x => decide (x ≠ '/')) (rest.takeWhile (· ≠ '#'))
    rw [hc] at this ⊢
    simpa using this

/-- **What `parse` accepts is well formed.** -/
theorem parse_wellFormed {raw : String} {u : Url} (h : parse raw = .ok u) : u.WellFormed := by
  simp only [parse, bind, Except.bind, pure, Except.pure, throw, throwThe, MonadExceptOf.throw] at h
  repeat' split at h
  all_goals try contradiction
  rename_i hport hne hhost hpath
  cases h
  simp only [Bool.not_eq_true', Bool.not_eq_false] at hhost
  refine ⟨splitPort_ne_zero hport, ?_, ?_, ?_, ?_⟩
  · intro hempty
    have := congrArg String.toList hempty
    simp [Text.toAsciiLowercase] at this
    simp [this] at hne
  · intro c hc
    simp only [Text.toAsciiLowercase, String.toList_ofList, List.mem_map] at hc
    obtain ⟨d, hd, rfl⟩ := hc
    exact isHostChar_toLower (List.all_eq_true.mp hhost d hd)
  · rw [String.toList_ofList]
    exact splitPath_head _
  · intro c hc
    rw [String.toList_ofList] at hc
    simpa using fun hbad => hpath (List.any_eq_true.mpr ⟨c, hc, hbad⟩)

end Url

end Vlb
