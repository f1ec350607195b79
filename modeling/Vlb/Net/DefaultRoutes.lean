import Vlb.Lib.Entries
import Vlb.Net.ClientDumps
import Vlb.Net.Router

/-!
# Reading the default routes

What the kernel has for default routes is read from `ip -4 route show default`, which prints each on
a line of its own, as words. Some words are keywords with a value after them; the others are skipped.

* `parseAllDefaults`: the reader; `scan` is its walk over the words of a line.
* `DefaultRoute`, `Shown`: a route, and a line that shows it.
* `scan_words`: one attribute of a line.
* **`parseAllDefaults_text`**: the routes are read as they are shown, in their order.
-/

namespace Vlb.Router

open Dumps Entries Text

/-! ## Reading -/

/-- What has been read of a line. -/
structure Fields where
  gateway : Option Ipv4Addr := none
  interface : Option String := none
  metric : Option UInt32 := none
  proto : Option String := none

/-- What a keyword does with its value, which is missing at the end of a line; `none` for a word that
is no keyword. -/
def Fields.take (f : Fields) (token : List Char) (value : Option (List Char)) : Option Fields :=
  if token = "via".toList then
    some { f with gateway := value.bind fun v => Ipv4Addr.parse (String.ofList v) }
  else if token = "dev".toList then some { f with interface := value.map String.ofList }
  else if token = "metric".toList then
    some { f with metric := value.bind fun v => (fromStrRadix 32 10 v).map UInt32.ofNat }
  else if token = "proto".toList then some { f with proto := value.map String.ofList }
  else none

/-- The loop over the words. -/
def scan (f : Fields) : List (List Char) → Fields
  | [] => f
  | [token] => (f.take token none).getD f
  | token :: value :: rest =>
    match f.take token (some value) with
    | some f => scan f rest
    | none => scan f (value :: rest)

/-- A route without a gateway is not a candidate. -/
def Fields.route (f : Fields) : Option InstalledRoute := do
  let gateway ← f.gateway
  let interface ← f.interface
  return { gateway, interface, metric := f.metric, proto := f.proto }

/-- How the lines of default routes begin. -/
def defaultPrefix : List Char := "default ".toList

/-- The body of the loop of `parse_all_defaults`; `none` where it continues. -/
def readDefault (line : List Char) : Option InstalledRoute :=
  let line := trim line
  if defaultPrefix.isPrefixOf line then (scan {} (words line)).route else none

/-- Every default route in the output, in the order of the kernel. -/
def parseAllDefaults (stdout : List Char) : List InstalledRoute := (lines stdout).filterMap readDefault

/-! ## Showing -/

/-- The words that the reader knows. -/
def keywords : List (List Char) := ["via".toList, "dev".toList, "metric".toList, "proto".toList]

/-- A name, a value or a flag. -/
structure Name where
  text : String
  nonempty : text.toList ≠ []
  plain : Plain text.toList
  notKeyword : text.toList ∉ keywords
  deriving DecidableEq

/-- A default route with all that `ip` shows of it. -/
structure DefaultRoute where
  gateway : Ipv4Addr
  interface : Name
  metric : Option UInt32
  proto : Option Name
  src : Option Name
  scope : Option Name
  flags : List Name

/-- What the parser is to make of a route. -/
def DefaultRoute.installed (r : DefaultRoute) : InstalledRoute where
  gateway := r.gateway
  interface := r.interface.text
  metric := r.metric
  proto := r.proto.map Name.text

/-- A part of a line. -/
inductive Attribute
  | via (gateway : Ipv4Addr)
  | dev (interface : Name)
  | metric (n : UInt32)
  | proto (name : Name)
  | src (source : Name)
  | scope (name : Name)
  | flag (name : Name)
  deriving DecidableEq

/-- How it is shown. -/
def Attribute.words : Attribute → List (List Char)
  | .via gateway => ["via".toList, gateway.display.toList]
  | .dev interface => ["dev".toList, interface.text.toList]
  | .metric n => ["metric".toList, Nat.toDigits 10 n.toNat]
  | .proto name => ["proto".toList, name.text.toList]
  | .src source => ["src".toList, source.text.toList]
  | .scope name => ["scope".toList, name.text.toList]
  | .flag name => [name.text.toList]

/-- In the order in which `ip` shows them. -/
def DefaultRoute.attributes (r : DefaultRoute) : List Attribute :=
  .via r.gateway :: .dev r.interface :: (r.metric.toList.map .metric ++ r.proto.toList.map .proto ++
    r.src.toList.map .src ++ r.scope.toList.map .scope ++ r.flags.map .flag)

/-- How a route is shown: its attributes in some order, and blanks at the end. -/
structure Shown where
  route : DefaultRoute
  order : List Attribute
  perm : order.Perm route.attributes
  blanks : ℕ := 0

/-- The words of the line. -/
def Shown.words (s : Shown) : List (List Char) := "default".toList :: s.order.flatMap Attribute.words

/-- With blanks at its end, as `ip` leaves them. -/
def Shown.line (s : Shown) : List Char := [' '].intercalate s.words ++ List.replicate s.blanks ' '

/-! ## The walk over the words -/

/-- What an attribute is to change. -/
def Fields.set (f : Fields) : Attribute → Fields
  | .via gateway => { f with gateway := some gateway }
  | .dev interface => { f with interface := some interface.text }
  | .metric n => { f with metric := some n }
  | .proto name => { f with proto := some name.text }
  | .src _ | .scope _ | .flag _ => f

theorem scan_skip {token : List Char} (h : token ∉ keywords) (f : Fields) (rest : List (List Char)) :
    scan f (token :: rest) = scan f rest := by
  have htake (value : Option (List Char)) : f.take token value = none := by
    simp only [keywords, List.mem_cons, List.not_mem_nil, or_false, not_or] at h
    rw [Fields.take, if_neg h.1, if_neg h.2.1, if_neg h.2.2.1, if_neg h.2.2.2]
  cases rest with
  | nil => exact congrArg (Option.getD · f) (htake none)
  | cons value rest => rw [scan, htake]

theorem scan_take {token value : List Char} {f f' : Fields} (h : f.take token (some value) = some f')
    (rest : List (List Char)) : scan f (token :: value :: rest) = scan f' rest := by
  rw [scan, h]

/-- **One attribute of a line.** -/
theorem scan_words (f : Fields) (x : Attribute) (rest : List (List Char)) :
    scan f (x.words ++ rest) = scan (f.set x) rest := by
  cases x with
  | via gateway =>
    refine scan_take ?_ rest
    rw [Fields.take, if_pos rfl, Option.bind_some, String.ofList_toList, Ipv4Addr.parse_display]
    rfl
  | dev interface =>
    refine scan_take ?_ rest
    rw [Fields.take, if_neg (by decide), if_pos rfl, Option.map_some, String.ofList_toList]
    rfl
  | metric n =>
    refine scan_take ?_ rest
    rw [Fields.take, if_neg (by decide), if_neg (by decide), if_pos rfl, Option.bind_some,
      fromStrRadix, number_toDigits, Option.filter_some, if_pos (decide_eq_true n.toNat_lt),
      Option.map_some, UInt32.ofNat_toNat]
    rfl
  | proto name =>
    refine scan_take ?_ rest
    rw [Fields.take, if_neg (by decide), if_neg (by decide), if_neg (by decide), if_pos rfl,
      Option.map_some, String.ofList_toList]
    rfl
  | src source =>
    have hsrc : "src".toList ∉ keywords := by decide
    exact (scan_skip hsrc f _).trans (scan_skip source.notKeyword f rest)
  | scope name =>
    have hscope : "scope".toList ∉ keywords := by decide
    exact (scan_skip hscope f _).trans (scan_skip name.notKeyword f rest)
  | flag name => exact scan_skip name.notKeyword f rest

theorem scan_flatMap (f : Fields) (order : List Attribute) :
    scan f (order.flatMap Attribute.words) = order.foldl Fields.set f := by
  induction order generalizing f with
  | nil => rfl
  | cons x order ih => rw [List.flatMap_cons, scan_words, ih, List.foldl_cons]

/-! ## The attributes of a route -/

def Attribute.gateway? : Attribute → Option Ipv4Addr
  | .via gateway => some gateway
  | _ => none

def Attribute.interface? : Attribute → Option String
  | .dev interface => some interface.text
  | _ => none

def Attribute.metric? : Attribute → Option UInt32
  | .metric n => some n
  | _ => none

def Attribute.proto? : Attribute → Option String
  | .proto name => some name.text
  | _ => none

variable {s : Shown} {β : Type}

/-- What the attributes say in their order, where at most one of them says it. -/
theorem filterMap_order {value : Attribute → Option β} {o : Option β}
    (h : s.route.attributes.filterMap value = o.toList) : (s.order.filterMap value).getLast? = o := by
  have hperm : (s.order.filterMap value).Perm o.toList := h ▸ s.perm.filterMap value
  cases o with
  | none => rw [List.perm_nil.mp hperm]; rfl
  | some b => rw [List.perm_singleton.mp hperm]; rfl

theorem filterMap_attributes (r : DefaultRoute) :
    r.attributes.filterMap Attribute.gateway? = (some r.gateway).toList ∧
      r.attributes.filterMap Attribute.interface? = (some r.interface.text).toList ∧
      r.attributes.filterMap Attribute.metric? = r.metric.toList ∧
      r.attributes.filterMap Attribute.proto? = (r.proto.map Name.text).toList := by
  simp only [DefaultRoute.attributes, List.filterMap_cons, List.filterMap_append, List.filterMap_map,
    Function.comp_def, Attribute.gateway?, Attribute.interface?, Attribute.metric?, Attribute.proto?]
  cases r.proto <;> simp

theorem field_scan {field : Fields → Option β} {value : Attribute → Option β} {o : Option β}
    (hset : ∀ f x, field (f.set x) = (value x).or (field f)) (hnone : field {} = none)
    (h : s.route.attributes.filterMap value = o.toList) : field (scan {} s.words) = o := by
  have hdefault : "default".toList ∉ keywords := by decide
  have hwords : scan {} s.words = s.order.foldl Fields.set {} :=
    (scan_skip hdefault {} _).trans (scan_flatMap {} s.order)
  rw [hwords, foldl_assign hset, filterMap_order h, hnone, Option.or_none]

/-- **The words of a line are read as its route.** -/
theorem route_words (s : Shown) : (scan {} s.words).route = some s.route.installed := by
  obtain ⟨hgateway, hinterface, hmetric, hproto⟩ := filterMap_attributes s.route
  have hgateway : (scan {} s.words).gateway = some s.route.gateway :=
    field_scan (by rintro f (_ | _) <;> rfl) rfl hgateway
  have hinterface : (scan {} s.words).interface = some s.route.interface.text :=
    field_scan (by rintro f (_ | _) <;> rfl) rfl hinterface
  have hmetric : (scan {} s.words).metric = s.route.metric :=
    field_scan (by rintro f (_ | _) <;> rfl) rfl hmetric
  have hproto : (scan {} s.words).proto = s.route.proto.map Name.text :=
    field_scan (by rintro f (_ | _) <;> rfl) rfl hproto
  rw [Fields.route, hgateway, hinterface, hmetric, hproto]
  rfl

/-! ## Lines -/

theorem isWord_words (s : Shown) : ∀ w ∈ s.words, w ≠ [] ∧ Plain w := by
  have hfixed : ∀ w ∈ "default".toList :: "src".toList :: "scope".toList :: keywords,
      w ≠ [] ∧ Plain w := by decide
  simp only [keywords, List.forall_mem_cons] at hfixed
  obtain ⟨hdefault, hsrc, hscope, hvia, hdev, hmetric, hproto, hnil⟩ := hfixed
  have hname (name : Name) : name.text.toList ≠ [] ∧ Plain name.text.toList :=
    ⟨name.nonempty, name.plain⟩
  have hgateway (ip : Ipv4Addr) : ip.display.toList ≠ [] ∧ Plain ip.display.toList := by
    refine ⟨fun hempty => ?_, Clients.plain_display ip⟩
    rw [Ipv4Addr.toList_display, List.map_cons, List.map_cons, List.intercalate_cons_cons] at hempty
    simp at hempty
  have hpair {k v : List Char} (hk : k ≠ [] ∧ Plain k) (hv : v ≠ [] ∧ Plain v) :
      ∀ w ∈ [k, v], w ≠ [] ∧ Plain w :=
    List.forall_mem_cons.mpr ⟨hk, List.forall_mem_cons.mpr ⟨hv, List.forall_mem_nil _⟩⟩
  intro w hw
  obtain rfl | hw := List.mem_cons.mp hw
  · exact hdefault
  · obtain ⟨x, -, hx⟩ := List.mem_flatMap.mp hw
    cases x with
    | via gateway => exact hpair hvia (hgateway gateway) w hx
    | dev name => exact hpair hdev (hname name) w hx
    | metric n => exact hpair hmetric ⟨Nat.toDigits_ne_nil, plain_toDigits n.toNat⟩ w hx
    | proto name => exact hpair hproto (hname name) w hx
    | src name => exact hpair hsrc (hname name) w hx
    | scope name => exact hpair hscope (hname name) w hx
    | flag name =>
      rw [List.mem_singleton.mp hx]
      exact hname name

theorem spaced_words (s : Shown) : ∃ rest, [' '].intercalate s.words = defaultPrefix ++ rest := by
  have hvia : Attribute.via s.route.gateway ∈ s.order := s.perm.mem_iff.mpr List.mem_cons_self
  have hne : s.order.flatMap Attribute.words ≠ [] := List.ne_nil_of_mem
    (List.mem_flatMap.mpr ⟨_, hvia, List.mem_cons_self⟩)
  obtain ⟨w, ws, hws⟩ := List.exists_cons_of_ne_nil hne
  rw [Shown.words, hws, List.intercalate_cons_cons]
  exact ⟨_, rfl⟩

theorem trim_line (s : Shown) : trim s.line = [' '].intercalate s.words := by
  obtain ⟨rest, hrest⟩ := spaced_words s
  have hne : s.words ≠ [] := List.cons_ne_nil _ _
  obtain ⟨hlastNe, hlastPlain⟩ := isWord_words s _ (List.getLast_mem hne)
  obtain ⟨d, hd, hblank⟩ := exists_getLast? hlastNe hlastPlain
  have hlast := getLast?_spaced (List.getLast?_eq_some_getLast hne) hd
  have hhead : ([' '].intercalate s.words).head? = some 'd' := by
    rw [hrest]
    rfl
  rw [Shown.line, trim_append_replicate, trim_of_ends hhead hlast (by decide) hblank]

/-- **A line that shows a route is read as the route.** -/
theorem readDefault_line (s : Shown) : readDefault s.line = some s.route.installed := by
  obtain ⟨rest, hrest⟩ := spaced_words s
  have hprefix : defaultPrefix.isPrefixOf ([' '].intercalate s.words) = true := by
    rw [hrest]
    exact List.isPrefixOf_iff_prefix.mpr (List.prefix_append _ _)
  simp only [readDefault, trim_line, hprefix, if_true, words_spaced (isWord_words s), route_words]

theorem newline_not_mem_line (s : Shown) : '\n' ∉ s.line := by
  have hwords : '\n' ∉ [' '].intercalate s.words :=
    not_mem_spaced (fun w hw => (isWord_words s w hw).2) (by decide) (by decide)
  exact List.not_mem_append hwords fun h => absurd (List.eq_of_mem_replicate h) (by decide)

/-- A line that does not begin so, where its blanks are left out, is skipped. -/
theorem readDefault_other {l : List Char} (h : ¬ defaultPrefix <+: trimStart l) :
    readDefault l = none := by
  have htrim : trim l <+: trimStart l := List.rdropWhile_prefix _ _
  exact if_neg fun hprefix => h ((List.isPrefixOf_iff_prefix.mp hprefix).trans htrim)

theorem readDefault_stripReturn (l : List Char) : readDefault (stripReturn l) = readDefault l := by
  simp only [readDefault, trim_stripReturn]

/-- **The routes are read as they are shown, in their order**, whatever other lines there are. -/
theorem parseAllDefaults_text {d : Dump Shown}
    (hother : ∀ l, .inr l ∈ d → '\n' ∉ l ∧ ¬ defaultPrefix <+: trimStart l) :
    parseAllDefaults (text Shown.line d) = (entries d).map fun s => s.route.installed := by
  refine filterMap_text (fun s _ => ?_) fun l hl => ?_
  · rw [readDefault_stripReturn]
    exact ⟨newline_not_mem_line s, readDefault_line s⟩
  · obtain ⟨hline, hbegins⟩ := hother l hl
    rw [readDefault_stripReturn]
    exact ⟨hline, readDefault_other hbegins⟩

/-! ## Two default routes -/

def ens18 : Name := ⟨"ens18", by decide, by decide, by decide⟩

/-- The daemon's own route. -/
def staticRoute : DefaultRoute where
  gateway := 0x0a000002
  interface := ens18
  metric := some 0
  proto := some ⟨"static", by decide, by decide, by decide⟩
  src := none
  scope := none
  flags := [⟨"onlink", by decide, by decide, by decide⟩]

/-- A route that was written by a DHCP client. -/
def dhcpRoute : DefaultRoute where
  gateway := 0x0a000001
  interface := ens18
  metric := some 100
  proto := some ⟨"dhcp", by decide, by decide, by decide⟩
  src := some ⟨"10.0.0.50", by decide, by decide, by decide⟩
  scope := none
  flags := []

def twoDefaults : Dump Shown :=
  [.inl ⟨staticRoute,
      [.via 0x0a000002, .dev ens18, .proto ⟨"static", by decide, by decide, by decide⟩,
        .metric 0, .flag ⟨"onlink", by decide, by decide, by decide⟩], by decide, 1⟩,
    .inr "10.0.0.0/24 dev ens18 scope link".toList,
    .inl ⟨dhcpRoute, dhcpRoute.attributes.reverse, List.reverse_perm _, 0⟩]

theorem parseAllDefaults_twoDefaults : parseAllDefaults (text Shown.line twoDefaults) =
    (entries twoDefaults).map fun s => s.route.installed := by
  refine parseAllDefaults_text fun l hl => ?_
  obtain rfl : l = "10.0.0.0/24 dev ens18 scope link".toList := by simpa [twoDefaults] using hl
  decide

/-- A line that begins with a blank is read like those that begin with `default`. -/
theorem not_parseAllDefaults : ¬ ∀ d : Dump Shown,
    (∀ l, .inr l ∈ d → '\n' ∉ l ∧ ¬ defaultPrefix <+: l) →
    parseAllDefaults (text Shown.line d) = (entries d).map fun s => s.route.installed := by
  intro hall
  have hnone := hall [.inr " default via 10.0.0.9 dev ens19".toList] fun l hl => by
    obtain rfl : l = " default via 10.0.0.9 dev ens19".toList := by simpa using hl
    decide
  exact absurd (congrArg List.length hnone) (by decide +kernel)

end Vlb.Router
