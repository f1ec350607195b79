import Vlb.Net.LanHosts

/-!
# What hosts are called

The names of the hosts are in the lease files of a DHCP server, of which there are two kinds, and in
the hosts file. Each of them is read line by line, and what a later line says counts.

* `parseDnsmasqLeases`, `parseKeaLeases`, `parseHostsFile`: the three readers.
* `shortHostname`: a name without its domain.
* `DnsmasqLease`, `KeaTable`, `HostsLine`: what is in such files.
* `lookup_parseDnsmasqLeases`, `lookup_parseKeaLeases`, `lookup_parseHostsFile`: the last name that a
  file gives to an address is found.
-/

namespace Vlb.Clients

open Dumps Entries Text

/-! ## Reading -/

/-- Names by address. -/
abbrev HostNames := HashMap Ipv4Addr String

/-- A name is inserted for each line that has one. -/
def collect (named : List (Ipv4Addr × String)) : HostNames :=
  named.foldl (fun out x => out.insert x.1 x.2) ∅

/-- The body of the loop of `parse_dnsmasq_leases`; `none` where it continues. -/
def readDnsmasqLease : List (List Char) → Option (Ipv4Addr × String)
  | _ :: _ :: ip :: name :: _ => do
    let ip ← Ipv4Addr.parse (String.ofList ip)
    if name ≠ ['*'] ∧ name ≠ [] then return (ip, String.ofList name) else none
  | _ => none

/-- One lease a line. -/
def parseDnsmasqLeases (text : List Char) : HostNames :=
  collect ((lines text).filterMap fun line => readDnsmasqLease (words line))

def address : List Char := "address".toList

def hostname : List Char := "hostname".toList

/-- The body of the loop of `parse_kea_leases`. -/
def readKeaLease (ipAt nameAt : ℕ) (f : List (List Char)) : Option (Ipv4Addr × String) := do
  let ip ← f[ipAt]?
  let name ← f[nameAt]?
  let ip ← Ipv4Addr.parse (String.ofList (trim ip))
  if trim name ≠ [] then return (ip, String.ofList (trim name)) else none

/-- The header says where the columns are. -/
def parseKeaLeases (text : List Char) : HostNames :=
  match lines text with
  | [] => ∅
  | header :: rows =>
    let cols := (header.splitOn ',').map trim
    match cols.idxOf? address, cols.idxOf? hostname with
    | some ipAt, some nameAt =>
      collect (rows.filterMap fun line => readKeaLease ipAt nameAt (line.splitOn ','))
    | _, _ => ∅

/-- The body of the loop of `parse_hosts_file`. A line goes up to its comment. -/
def readHosts (line : List Char) : Option (Ipv4Addr × String) :=
  match words (line.takeWhile (· ≠ '#')) with
  | ip :: name :: _ => do
    let ip ← Ipv4Addr.parse (String.ofList ip)
    if ip.isLoopback then none else return (ip, String.ofList name)
  | _ => none

/-- One address a line, with its names. -/
def parseHostsFile (text : List Char) : HostNames := collect ((lines text).filterMap readHosts)

/-- A name without its domain. An address is left alone. -/
def shortHostname (name : String) : String :=
  if (Ipv4Addr.parse name).isSome then name
  else
    match splitOnce '.' name.toList with
    | some (head, _) => if head = [] then name else String.ofList head
    | none => name

example : ["laptop.lan", "10.0.0.50", ".lan", "laptop"].map shortHostname =
    ["laptop", "10.0.0.50", ".lan", "laptop"] := by decide

/-! ## Files -/

/-- A line of dnsmasq: `*` stands for no name. -/
structure DnsmasqLease where
  expiry : Token []
  mac : Token []
  ip : Ipv4Addr
  name : Option (Token [['*']])
  rest : List (Token [])

namespace DnsmasqLease

/-- The words of the line. -/
def words (l : DnsmasqLease) : List (List Char) :=
  l.expiry.chars :: l.mac.chars :: l.ip.display.toList :: (l.name.map Token.chars).getD ['*'] ::
    l.rest.map Token.chars

/-- What the line says. -/
def named (l : DnsmasqLease) : Option (Ipv4Addr × String) :=
  l.name.map fun name => (l.ip, String.ofList name.chars)

theorem readDnsmasqLease_words (l : DnsmasqLease) : readDnsmasqLease l.words = l.named := by
  unfold readDnsmasqLease DnsmasqLease.words named
  cases l.name with
  | none => simp [Ipv4Addr.parse_display]
  | some name =>
    have hstar : name.chars ≠ ['*'] := fun heq => name.free (List.mem_singleton.mpr heq)
    simp [Ipv4Addr.parse_display, hstar, name.nonempty]

theorem isWord_words (l : DnsmasqLease) : ∀ w ∈ l.words, w ≠ [] ∧ Plain w := by
  have hname : (l.name.map Token.chars).getD ['*'] ≠ [] ∧
      Plain ((l.name.map Token.chars).getD ['*']) := by
    cases l.name with
    | none => exact ⟨by decide, by decide⟩
    | some name => exact ⟨name.nonempty, name.plain⟩
  rw [DnsmasqLease.words, List.forall_mem_cons, List.forall_mem_cons, List.forall_mem_cons,
    List.forall_mem_cons]
  exact ⟨⟨l.expiry.nonempty, l.expiry.plain⟩, ⟨l.mac.nonempty, l.mac.plain⟩,
    ⟨display_ne_nil l.ip, plain_display l.ip⟩, hname, plain_chars l.rest⟩

end DnsmasqLease

/-- A column of Kea's table. -/
inductive KeaColumn
  | address
  | hostname
  | other (title : List Char)
  deriving DecidableEq

/-- What the header calls it. -/
def KeaColumn.title : KeaColumn → List Char
  | .address => Clients.address
  | .hostname => Clients.hostname
  | .other title => title

/-- A row of the table. -/
structure KeaLease where
  ip : Ipv4Addr
  name : List Char
  /-- What is in the other columns. -/
  other : List Char → List Char

namespace KeaLease

/-- What the row has in the column. -/
def field (l : KeaLease) : KeaColumn → List Char
  | .address => l.ip.display.toList
  | .hostname => l.name
  | .other title => l.other title

/-- What the row says. -/
def named (l : KeaLease) : Option (Ipv4Addr × String) :=
  if trim l.name ≠ [] then some (l.ip, String.ofList (trim l.name)) else none

end KeaLease

/-- What can be in a field, and what in a line. -/
def FieldText (cs : List Char) : Prop := ',' ∉ cs ∧ '\n' ∉ cs ∧ '\r' ∉ cs

/-- Kea's table, with its columns in whatever order, and with other lines among the rows. -/
structure KeaTable where
  columns : List KeaColumn
  hasAddress : .address ∈ columns
  hasHostname : .hostname ∈ columns
  titles : ∀ title, .other title ∈ columns →
    FieldText title ∧ trim title ≠ address ∧ trim title ≠ hostname
  rows : Dump KeaLease
  fields : ∀ r, .inl r ∈ rows → ∀ c ∈ columns, FieldText (r.field c)
  /-- There is no lease in the other lines. -/
  others : ∀ l, .inr l ∈ rows → '\n' ∉ l ∧
    readKeaLease (columns.idxOf .address) (columns.idxOf .hostname) ((stripReturn l).splitOn ',') = none

namespace KeaTable

/-- The first line. -/
def header (t : KeaTable) : List Char := [','].intercalate (t.columns.map KeaColumn.title)

/-- The line of a lease. -/
def row (t : KeaTable) (r : KeaLease) : List Char := [','].intercalate (t.columns.map r.field)

/-- The file, with lines among the rows that name nobody. -/
def text (t : KeaTable) : List Char :=
  printed (t.header :: t.rows.map (Sum.elim t.row id))

end KeaTable

/-- A line of the hosts file, which may end in a comment. -/
structure HostsLine where
  ip : Ipv4Addr
  name : List Char
  aliases : List (List Char)
  body : List Char
  words_body : words body = ip.display.toList :: name :: aliases
  plain : '#' ∉ body ∧ '\n' ∉ body
  comment : Option (List Char)
  comment_line : ∀ c ∈ comment, '\n' ∉ c

namespace HostsLine

/-- With a comment perhaps. -/
def line (l : HostsLine) : List Char :=
  l.body ++ (l.comment.toList.flatMap fun comment => '#' :: comment)

/-- What the line says. The names of this machine are no news. -/
def named (l : HostsLine) : Option (Ipv4Addr × String) :=
  if l.ip.isLoopback then none else some (l.ip, String.ofList l.name)

end HostsLine

/-! ## What a file says -/

/-- The last name that is given to an address. -/
def lastNamed (named : List (Ipv4Addr × String)) (ip : Ipv4Addr) : Option String :=
  (named.filter fun x => x.1 = ip).getLast?.map Prod.snd

theorem lookup_collect (named : List (Ipv4Addr × String)) (ip : Ipv4Addr) :
    (collect named).lookup ip = lastNamed named ip := by
  unfold collect
  induction named using List.reverseRecOn with
  | nil => rfl
  | append_singleton named x ih =>
    rw [List.foldl_append, List.foldl_cons, List.foldl_nil, lastNamed, List.filter_append]
    by_cases hip : x.1 = ip
    · subst hip
      simp [AList.lookup_insert]
    · rw [AList.lookup_insert_ne (Ne.symm hip), ih]
      simp [hip, lastNamed]

/-- **The leases of dnsmasq are those of its lines.** -/
theorem lookup_parseDnsmasqLeases (layout : Dumps.Layout DnsmasqLease DnsmasqLease.words)
    {d : Dump DnsmasqLease} (hother : ∀ l, .inr l ∈ d → '\n' ∉ l ∧ readDnsmasqLease (words l) = none)
    (ip : Ipv4Addr) : (parseDnsmasqLeases (text layout.line d)).lookup ip =
      lastNamed ((entries d).filterMap DnsmasqLease.named) ip := by
  rw [parseDnsmasqLeases, lookup_collect,
    filterMap_layout layout (fun l _ => l.readDnsmasqLease_words) hother]

theorem idxOf?_map {α : Type} [DecidableEq α] {f : α → List Char} {a : α} {l : List α} (ha : a ∈ l)
    (h : ∀ x ∈ l, f x = f a → x = a) : (l.map f).idxOf? (f a) = some (l.idxOf a) := by
  induction l with
  | nil => cases ha
  | cons x l ih =>
    rw [List.forall_mem_cons] at h
    rw [List.map_cons, List.idxOf?_cons]
    by_cases hx : x = a
    · simp [hx]
    · have hfx : f x ≠ f a := fun heq => hx (h.1 heq)
      have ha : a ∈ l := (List.mem_cons.mp ha).resolve_left (Ne.symm hx)
      simp [hfx, hx, ih ha h.2]

namespace KeaTable

theorem title_ne (t : KeaTable) {c : KeaColumn} (hc : c ∈ t.columns) :
    FieldText c.title ∧ (trim c.title = address → c = .address) ∧
      (trim c.title = hostname → c = .hostname) := by
  cases c with
  | address =>
    exact ⟨⟨by decide, by decide, by decide⟩, fun _ => rfl, fun h => absurd h (by decide)⟩
  | hostname =>
    exact ⟨⟨by decide, by decide, by decide⟩, fun h => absurd h (by decide), fun _ => rfl⟩
  | other title =>
    obtain ⟨hfield, haddress, hhostname⟩ := t.titles title hc
    exact ⟨hfield, fun h => absurd h haddress, fun h => absurd h hhostname⟩

theorem line_intercalate {fs : List (List Char)} (hne : fs ≠ []) (h : ∀ f ∈ fs, FieldText f) :
    '\n' ∉ [','].intercalate fs ∧ stripReturn ([','].intercalate fs) = [','].intercalate fs ∧
      ([','].intercalate fs).splitOn ',' = fs := by
  have hnot {c : Char} (hc : c ≠ ',') (hfs : ∀ f ∈ fs, c ∉ f) : c ∉ [','].intercalate fs := by
    intro hmem
    obtain hsep | ⟨f, hf, hcf⟩ := mem_intercalate hmem
    · exact hc (List.mem_singleton.mp hsep)
    · exact hfs f hf hcf
  refine ⟨hnot (by decide) fun f hf => (h f hf).2.1, ?_,
    List.splitOn_intercalate _ (fun f hf => (h f hf).1) hne⟩
  rw [stripReturn, if_neg]
  exact fun hlast => hnot (by decide) (fun f hf => (h f hf).2.2) (List.mem_of_getLast? hlast)

theorem line_header (t : KeaTable) : '\n' ∉ t.header ∧ stripReturn t.header = t.header ∧
    t.header.splitOn ',' = t.columns.map KeaColumn.title := by
  refine line_intercalate (List.ne_nil_of_mem (List.mem_map_of_mem t.hasAddress)) ?_
  intro f hf
  obtain ⟨c, hc, rfl⟩ := List.mem_map.mp hf
  exact (t.title_ne hc).1

theorem readKeaLease_row (t : KeaTable) {r : KeaLease} (hr : .inl r ∈ t.rows) : '\n' ∉ t.row r ∧
    readKeaLease (t.columns.idxOf .address) (t.columns.idxOf .hostname)
      ((stripReturn (t.row r)).splitOn ',') = r.named := by
  have hfields : ∀ f ∈ t.columns.map r.field, FieldText f := by
    intro f hf
    obtain ⟨c, hc, rfl⟩ := List.mem_map.mp hf
    exact t.fields r hr c hc
  have hne : t.columns.map r.field ≠ [] := List.ne_nil_of_mem (List.mem_map_of_mem t.hasAddress)
  obtain ⟨hline, hreturn, hsplit⟩ := line_intercalate hne hfields
  have hget {c : KeaColumn} (hc : c ∈ t.columns) :
      (t.columns.map r.field)[t.columns.idxOf c]? = some (r.field c) := by
    rw [List.getElem?_map, List.getElem?_idxOf hc, Option.map_some]
  have htrim : trim r.ip.display.toList = r.ip.display.toList :=
    (congrArg trim (List.append_nil _).symm).trans
      (trim_append_blanks (plain_display r.ip) (by simp))
  refine ⟨hline, ?_⟩
  rw [row, hreturn, hsplit, readKeaLease, hget t.hasAddress, hget t.hasHostname]
  simp [KeaLease.field, KeaLease.named, htrim, Ipv4Addr.parse_display]

theorem lines_text (t : KeaTable) : lines t.text = t.header :: lines (Dumps.text t.row t.rows) := by
  have hrows : ∀ l ∈ t.rows.map (Sum.elim t.row id), '\n' ∉ l := by
    intro l hl
    obtain ⟨r | l, hmem, rfl⟩ := List.mem_map.mp hl
    · exact (t.readKeaLease_row hmem).1
    · exact (t.others l hmem).1
  rw [text, lines_printed (List.forall_mem_cons.mpr ⟨t.line_header.1, hrows⟩), Dumps.text,
    lines_printed hrows, List.map_cons, t.line_header.2.1]

end KeaTable

/-- **The leases of Kea are those of its rows**, wherever the columns are. -/
theorem lookup_parseKeaLeases (t : KeaTable) (ip : Ipv4Addr) :
    (parseKeaLeases t.text).lookup ip = lastNamed ((entries t.rows).filterMap KeaLease.named) ip := by
  have haddress : trim KeaColumn.address.title = address := by decide
  have hhostname : trim KeaColumn.hostname.title = hostname := by decide
  have hipAt := idxOf?_map (f := fun c => trim (KeaColumn.title c)) t.hasAddress
    fun c hc h => (t.title_ne hc).2.1 h
  have hnameAt := idxOf?_map (f := fun c => trim (KeaColumn.title c)) t.hasHostname
    fun c hc h => (t.title_ne hc).2.2 h
  rw [haddress] at hipAt
  rw [hhostname] at hnameAt
  rw [parseKeaLeases, t.lines_text]
  simp only [t.line_header.2.2, List.map_map, Function.comp_def, hipAt, hnameAt]
  rw [lookup_collect, filterMap_lines (fun r hr => t.readKeaLease_row hr) t.others]

theorem parseKeaLeases_of_lacking {text : List Char}
    (h : ∀ header ∈ (lines text).head?, address ∉ (header.splitOn ',').map trim ∨
      hostname ∉ (header.splitOn ',').map trim) : parseKeaLeases text = ∅ := by
  unfold parseKeaLeases
  cases hlines : lines text with
  | nil => rfl
  | cons header rows =>
    rw [hlines] at h
    simp only
    rcases h header rfl with hnone | hnone
    · rw [List.idxOf?_eq_none_iff.mpr hnone]
    · rw [List.idxOf?_eq_none_iff.mpr hnone]
      split <;> simp_all

namespace HostsLine

theorem words_stripReturn_body (line : List Char) :
    words ((stripReturn line).takeWhile (· ≠ '#')) = words (line.takeWhile (· ≠ '#')) := by
  have hblank : isWhitespace '\r' = true := by decide
  rw [stripReturn]
  split_ifs with hlast
  · obtain ⟨front, rfl⟩ := List.getLast?_eq_some_iff.mp hlast
    rw [List.dropLast_concat, List.takeWhile_append]
    split_ifs with hall
    · have hfront : front.takeWhile (· ≠ '#') = front :=
        (List.takeWhile_prefix _).eq_of_length hall
      have hreturn : ['\r'].takeWhile (· ≠ '#') = ['\r'] := by decide
      rw [hfront, hreturn, words_append hblank]
      exact (List.append_nil _).symm
    · rfl
  · rfl

theorem readHosts_line (l : HostsLine) : readHosts (stripReturn l.line) = l.named := by
  have hbody : l.line.takeWhile (· ≠ '#') = l.body := by
    have hall : l.body.takeWhile (· ≠ '#') = l.body :=
      List.takeWhile_eq_self_iff.mpr fun c hc => decide_eq_true fun heq => l.plain.1 (heq ▸ hc)
    rw [line, List.takeWhile_append, hall, if_pos rfl]
    cases l.comment <;> simp
  rw [readHosts, words_stripReturn_body, hbody, l.words_body]
  unfold named
  cases hloopback : l.ip.isLoopback <;> simp [Ipv4Addr.parse_display, hloopback]

theorem newline_not_mem_line (l : HostsLine) : '\n' ∉ l.line := by
  rw [line, List.mem_append, not_or]
  refine ⟨l.plain.2, ?_⟩
  cases hcomment : l.comment with
  | none => simp
  | some c => simpa using l.comment_line c hcomment

end HostsLine

/-- **The names of the hosts file are those of its lines.** -/
theorem lookup_parseHostsFile {d : Dump HostsLine}
    (hother : ∀ l, .inr l ∈ d → '\n' ∉ l ∧ readHosts (stripReturn l) = none) (ip : Ipv4Addr) :
    (parseHostsFile (text HostsLine.line d)).lookup ip =
      lastNamed ((entries d).filterMap HostsLine.named) ip := by
  rw [parseHostsFile, lookup_collect,
    filterMap_lines (fun l _ => ⟨l.newline_not_mem_line, l.readHosts_line⟩) hother]

end Vlb.Clients
