import Vlb.Net.Entity
import Vlb.Net.Requests
import Vlb.Net.UrlDisplay

/-!
# Downloads that follow redirects

What the updater downloads is run as root, so every request of a chain of redirects has to be
authenticated. Each hop resolves the host, sends one request, and either ends the download or goes on
to the place that the response names.

* `getFollowingRedirects`: the loop, with the requests that it makes.
* `resolveLocation_https`: where a redirect can lead.
* **`getFollowingRedirects_safe`**: what holds of every download, whatever the servers answer.
-/

namespace Vlb.Update

open Canary Http Time

/-! ## One hop -/

/-- An address, as the system's resolver gives them. -/
inductive IpAddr
  | v4 (ip : Ipv4Addr)
  | v6 (ip : BitVec 128)
  deriving DecidableEq

/-- What the world makes of one hop. -/
structure Hop where
  lookup : String → Option (List IpAddr)
  net : Network

/-- Why a download fails. -/
inductive DownloadError
  | invalidUrl (e : UrlError)
  | lookupFailed (host : String)
  | noIpv4 (host : String)
  | fetch (e : FetchError)
  | tooManyRedirects (url : String)
  | noLocation (current : Url) (status : UInt16)
  | relative (location : List Char) (base : Url)
  | downgrade (base target : Url)
  | rateLimited (status : UInt16)
  | notFound (current : Url)
  | status (current : Url) (status : UInt16)
  | truncated (current : Url) (maxBody : UInt64)
  deriving DecidableEq

def IpAddr.v4? : IpAddr → Option Ipv4Addr
  | .v4 ip => some ip
  | .v6 _ => none

/-- The first IPv4 address of the host. -/
def resolveSystem (lookup : String → Option (List IpAddr)) (host : String) :
    Except DownloadError Ipv4Addr :=
  match lookup host with
  | none => .error (.lookupFailed host)
  | some addrs =>
    match addrs.findSome? IpAddr.v4? with
    | some ip => .ok ip
    | none => .error (.noIpv4 host)

def connectIp (lookup : String → Option (List IpAddr)) (u : Url) : Except DownloadError Ipv4Addr :=
  match u.hostAsIp with
  | some ip => .ok ip
  | none => resolveSystem lookup u.host

/-- `Url::parse`, its error among those of a download. -/
def parseUrl (raw : String) : Except DownloadError Url :=
  match Url.parse raw with
  | .ok u => .ok u
  | .error e => .error (.invalidUrl e)

/-- The URL of a `Location`, before the check on its scheme. -/
def locationTarget (base : Url) (loc : List Char) : Except DownloadError Url :=
  if "http://".toList <+: loc ∨ "https://".toList <+: loc then parseUrl (String.ofList loc)
  else if ['/'] <+: loc then
    parseUrl (base.scheme.asStr ++ "://" ++ base.hostHeader ++ String.ofList loc)
  else .error (.relative loc base)

/-- A downgrade is refused. -/
def resolveLocation (base : Url) (location : String) : Except DownloadError Url :=
  match locationTarget base (Text.trim location.toList) with
  | .error e => .error e
  | .ok target =>
    if base.scheme = .https ∧ target.scheme = .http then .error (.downgrade base target)
    else .ok target

def maxRedirects : ℕ := 5

def netTimeout : Duration := Duration.fromSecs 60

/-- Where a response leads. -/
inductive Turn
  | next (u : Url)
  | done (body : List UInt8)

/-- One turn of the loop, on the response. -/
def turn (hop : ℕ) (url : String) (maxBody : UInt64) (current : Url) (resp : HttpResponse) :
    Except DownloadError Turn :=
  if isRedirect resp then
    if hop = maxRedirects then .error (.tooManyRedirects url)
    else match header resp "location" with
      | none => .error (.noLocation current resp.status)
      | some location =>
        match resolveLocation current location with
        | .error e => .error e
        | .ok target => .ok (.next target)
  else if resp.status = 403 ∨ resp.status = 429 then .error (.rateLimited resp.status)
  else if resp.status = 404 then .error (.notFound current)
  else if ¬ (200 ≤ resp.status ∧ resp.status < 300) then .error (.status current resp.status)
  else if resp.truncated then .error (.truncated current maxBody)
  else .ok (.done resp.body)

/-- The request of one hop, on the default route. -/
def downloadRequest (version : String) (maxBody : UInt64) (u : Url) (ip : Ipv4Addr) :
    HttpRequest where
  url := u
  connectIp := ip
  mark := none
  timeout := netTimeout
  maxBody := maxBody
  userAgent := "vlb/" ++ version ++ " (self-update)"

/-! ## The loop -/

/-- How a download ends. -/
inductive Download
  | ok (body : List UInt8)
  | failed (e : DownloadError)
  /-- Control has reached `unreachable!`. -/
  | unreachable
  deriving DecidableEq

/-- What one caller passes. -/
structure Order where
  version : String
  url : String
  maxBody : UInt64

/-- So many hops that are left, from one on, with the requests made. -/
def follow (o : Order) (world : ℕ → Hop) : ℕ → ℕ → Url → Download × List HttpRequest
  | 0, _, _ => (.unreachable, [])
  | left + 1, hop, current =>
    match connectIp (world hop).lookup current with
    | .error e => (.failed e, [])
    | .ok ip =>
      let req := downloadRequest o.version o.maxBody current ip
      match fetch (world hop).net req with
      | .error e => (.failed (.fetch e), [req])
      | .ok resp =>
        match turn hop o.url o.maxBody current resp with
        | .error e => (.failed e, [req])
        | .ok (.done body) => (.ok body, [req])
        | .ok (.next target) =>
          let (result, requests) := follow o world left (hop + 1) target
          (result, req :: requests)

/-- The download, over at most `maxRedirects` redirects. -/
def getFollowingRedirects (o : Order) (world : ℕ → Hop) : Download × List HttpRequest :=
  match parseUrl o.url with
  | .error e => (.failed e, [])
  | .ok u => follow o world (maxRedirects + 1) 0 u

/-! ## Where a redirect leads -/

variable {o : Order} {world : ℕ → Hop} {base current target : Url}

theorem parseUrl_eq_ok {raw : String} {u : Url} : parseUrl raw = .ok u ↔ Url.parse raw = .ok u := by
  unfold parseUrl
  cases Url.parse raw <;> simp

theorem resolveLocation_eq_ok {location : String} : resolveLocation base location = .ok target ↔
    locationTarget base (Text.trim location.toList) = .ok target ∧
      ¬ (base.scheme = .https ∧ target.scheme = .http) := by
  unfold resolveLocation
  cases htarget : locationTarget base (Text.trim location.toList) with
  | error e => simp
  | ok t =>
    by_cases hdown : base.scheme = .https ∧ t.scheme = .http
    · simp only [if_pos hdown, reduceCtorEq, false_iff, Except.ok.injEq, not_and]
      rintro rfl hno
      exact hno hdown.1 hdown.2
    · simp only [if_neg hdown, Except.ok.injEq]
      constructor
      · rintro rfl
        exact ⟨rfl, hdown⟩
      · exact And.left

/-- **No redirect leads from https to http.** -/
theorem resolveLocation_https {location : String} (hbase : base.scheme = .https)
    (h : resolveLocation base location = .ok target) : target.scheme = .https := by
  have hdown := (resolveLocation_eq_ok.mp h).2
  cases hscheme : target.scheme with
  | http => exact absurd ⟨hbase, hscheme⟩ hdown
  | https => rfl

/-! ## One turn -/

theorem turn_next {hop : ℕ} {url : String} {maxBody : UInt64} {resp : HttpResponse}
    (h : turn hop url maxBody current resp = .ok (.next target)) :
    hop ≠ maxRedirects ∧ ∃ location, resolveLocation current location = .ok target := by
  unfold turn at h
  split_ifs at h with hredirect hhop
  · refine ⟨hhop, ?_⟩
    cases hlocation : header resp "location" with
    | none => simp [hlocation] at h
    | some location =>
      cases hresolve : resolveLocation current location with
      | error e => simp [hlocation, hresolve] at h
      | ok t =>
        obtain rfl : t = target := by simpa [hlocation, hresolve] using h
        exact ⟨location, hresolve⟩
  · cases h

theorem turn_done {hop : ℕ} {url : String} {maxBody : UInt64} {resp : HttpResponse}
    {body : List UInt8} (h : turn hop url maxBody current resp = .ok (.done body)) :
    200 ≤ resp.status ∧ resp.status < 300 ∧ resp.truncated = false ∧ resp.body = body := by
  unfold turn at h
  split_ifs at h with hredirect hhop hrate hfound hstatus htruncated
  · cases hlocation : header resp "location" with
    | none => simp [hlocation] at h
    | some location => cases hresolve : resolveLocation current location <;> simp [hlocation, hresolve] at h
  · obtain rfl : resp.body = body := by simpa using h
    exact ⟨hstatus.1, hstatus.2, by simpa using htruncated, rfl⟩

/-- What one hop comes to: no request, or one with which the download ends, or one that leads on. -/
inductive OneHop (o : Order) (world : ℕ → Hop) (left hop : ℕ) (current : Url) :
    Download × List HttpRequest → Prop
  | unresolved (e : DownloadError) : OneHop o world left hop current (.failed e, [])
  | refused (ip : Ipv4Addr) (e : DownloadError) :
    OneHop o world left hop current
      (.failed e, [downloadRequest o.version o.maxBody current ip])
  | done (ip : Ipv4Addr) (resp : HttpResponse) (body : List UInt8)
    (hfetch : fetch (world hop).net (downloadRequest o.version o.maxBody current ip) = .ok resp)
    (hturn : turn hop o.url o.maxBody current resp = .ok (.done body)) :
    OneHop o world left hop current (.ok body, [downloadRequest o.version o.maxBody current ip])
  | next (ip : Ipv4Addr) (resp : HttpResponse) (target : Url)
    (hturn : turn hop o.url o.maxBody current resp = .ok (.next target)) :
    OneHop o world left hop current
      ((follow o world left (hop + 1) target).1,
        downloadRequest o.version o.maxBody current ip :: (follow o world left (hop + 1) target).2)

theorem follow_succ (o : Order) (world : ℕ → Hop) (left hop : ℕ) (current : Url) :
    OneHop o world left hop current (follow o world (left + 1) hop current) := by
  unfold follow
  cases connectIp (world hop).lookup current with
  | error e => exact .unresolved e
  | ok ip =>
    cases hfetch : fetch (world hop).net (downloadRequest o.version o.maxBody current ip) with
    | error e => simpa only [hfetch] using OneHop.refused ip _
    | ok resp =>
      cases hturn : turn hop o.url o.maxBody current resp with
      | error e => simpa only [hfetch, hturn] using OneHop.refused ip _
      | ok t =>
        cases t with
        | done body => simpa only [hfetch, hturn] using OneHop.done ip resp body hfetch hturn
        | next target => simpa only [hfetch, hturn] using OneHop.next ip resp target hturn

/-! ## Every chain -/

theorem follow_length (o : Order) (world : ℕ → Hop) (left hop : ℕ) (current : Url) :
    (follow o world left hop current).2.length ≤ left := by
  induction left generalizing hop current with
  | zero => exact Nat.le_refl 0
  | succ left ih =>
    have hstep := follow_succ o world left hop current
    generalize follow o world (left + 1) hop current = r at hstep ⊢
    cases hstep with
    | unresolved e => exact Nat.zero_le _
    | refused | done => exact Nat.succ_le_succ (Nat.zero_le left)
    | next ip resp target hturn => exact Nat.succ_le_succ (ih (hop + 1) target)

/-- What holds of a URL and survives every redirect holds of every request. -/
theorem follow_requests {P : Url → Prop}
    (hkeeps : ∀ {base target : Url} {location : String}, P base →
      resolveLocation base location = .ok target → P target)
    (left hop : ℕ) (hcurrent : P current) :
    ∀ req ∈ (follow o world left hop current).2, P req.url := by
  induction left generalizing hop current with
  | zero => exact fun _ hreq => absurd hreq List.not_mem_nil
  | succ left ih =>
    have hstep := follow_succ o world left hop current
    generalize follow o world (left + 1) hop current = r at hstep ⊢
    cases hstep with
    | unresolved e => exact fun _ hreq => absurd hreq List.not_mem_nil
    | refused | done => exact fun _ hreq => List.mem_singleton.mp hreq ▸ hcurrent
    | next ip resp target hturn =>
      obtain ⟨-, location, hlocation⟩ := turn_next hturn
      exact List.forall_mem_cons.mpr ⟨hcurrent, ih (hop + 1) (hkeeps hcurrent hlocation)⟩

theorem follow_body {body : List UInt8} (left hop : ℕ)
    (h : (follow o world left hop current).1 = .ok body) :
    ∃ req resp, (follow o world left hop current).2.getLast? = some req ∧
      fetch (world (hop + ((follow o world left hop current).2.length - 1))).net req = .ok resp ∧
      200 ≤ resp.status ∧ resp.status < 300 ∧ resp.truncated = false ∧ resp.body = body := by
  induction left generalizing hop current with
  | zero => cases h
  | succ left ih =>
    have hstep := follow_succ o world left hop current
    generalize follow o world (left + 1) hop current = r at hstep h ⊢
    cases hstep with
    | unresolved | refused => cases h
    | done ip resp taken hfetch hturn =>
      obtain rfl : taken = body := by simpa using h
      exact ⟨_, resp, rfl, hfetch, turn_done hturn⟩
    | next ip resp target hturn =>
      obtain ⟨req, resp, hlast, hfetch, hresp⟩ := ih (hop + 1) h
      refine ⟨req, resp, ?_, ?_, hresp⟩
      · rw [List.getLast?_cons, hlast]
        rfl
      · have hpos : 0 < (follow o world left (hop + 1) target).2.length :=
          List.length_pos_of_mem (List.mem_of_getLast? hlast)
        rw [List.length_cons, Nat.add_sub_cancel]
        rwa [Nat.add_assoc, Nat.add_sub_cancel' hpos] at hfetch

theorem follow_reachable (left hop : ℕ) (hleft : left + hop = maxRedirects + 1) (hpos : 0 < left) :
    (follow o world left hop current).1 ≠ .unreachable := by
  induction left generalizing hop current with
  | zero => exact absurd hpos (Nat.lt_irrefl 0)
  | succ left ih =>
    have hstep := follow_succ o world left hop current
    generalize follow o world (left + 1) hop current = r at hstep ⊢
    cases hstep with
    | unresolved | refused | done => exact Download.noConfusion
    | next ip resp target hturn =>
      have hhop := (turn_next hturn).1
      exact ih (hop + 1) (by omega) (by omega)

/-- What a download may do. -/
structure Safe (world : ℕ → Hop) (r : Download × List HttpRequest) : Prop where
  few : r.2.length ≤ maxRedirects + 1
  https : ∀ req ∈ r.2, req.url.scheme = .https
  whole : ∀ body, r.1 = .ok body → ∃ req resp, r.2.getLast? = some req ∧
    fetch (world (r.2.length - 1)).net req = .ok resp ∧
    200 ≤ resp.status ∧ resp.status < 300 ∧ resp.truncated = false ∧ resp.body = body
  reachable : r.1 ≠ .unreachable

/-- **Whatever the servers answer**, a download that starts at an https URL asks no more than six
times, and by https only, and takes nothing but a whole body. -/
theorem getFollowingRedirects_safe (o : Order) (world : ℕ → Hop) {u : Url}
    (hurl : Url.parse o.url = .ok u) (hscheme : u.scheme = .https) :
    Safe world (getFollowingRedirects o world) := by
  rw [getFollowingRedirects, parseUrl_eq_ok.mpr hurl]
  refine ⟨follow_length o world _ 0 u, follow_requests resolveLocation_https _ 0 hscheme,
    fun body hbody => ?_, follow_reachable _ 0 rfl (Nat.succ_pos _)⟩
  simpa only [Nat.zero_add] using follow_body (maxRedirects + 1) 0 hbody

/-- The answer of a server that sends a request on to the same place. -/
def bounce : Segment :=
  ⟨ascii "HTTP/1.1 302 Found\r\nLocation: /vlb.tar.gz\r\n\r\n", by decide, by decide⟩

/-- Every server sends every request on. -/
def bouncing : Hop where
  lookup := fun _ => none
  net := {
    resolve := fun _ => none
    exchange := fun _ => .answered { segments := [bounce], fails := false }
    elapsed := fun _ => Duration.fromSecs 0 }

def asset : Order where
  version := "0.1.0"
  url := "https://192.0.2.1/vlb.tar.gz"
  maxBody := 4096

theorem getFollowingRedirects_safe_asset :
    Safe (fun _ => bouncing) (getFollowingRedirects asset fun _ => bouncing) :=
  getFollowingRedirects_safe asset _ (u := ⟨.https, "192.0.2.1", 443, "/vlb.tar.gz"⟩) (by decide) rfl

example : (getFollowingRedirects asset fun _ => bouncing).1 = .failed (.tooManyRedirects asset.url) ∧
    (getFollowingRedirects asset fun _ => bouncing).2.length = 6 := by decide +kernel

end Vlb.Update
