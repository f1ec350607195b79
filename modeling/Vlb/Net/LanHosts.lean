import Mathlib.Data.Finset.Union
import Vlb.Lib.Blocks
import Vlb.Net.ClientDumps

/-!
# Who is on the LAN

The hosts of the LAN are those that `ip -4 neigh show` names; which addresses are never a client's
is read from `ip -4 addr show`. Both print words, with other words among them.

* `parseNeighbours`, `parseLocalAddrs`: the two readers.
* `NeighbourEntry`, `AddrEntry`: the entries of the kernel, and their words.
* `LanSettings.params`: what the loop over the clients makes of the addresses.
* `parseNeighbours_text`, `parseLocalAddrs_text`: each entry is read as it is.
* **`candidates_text`**: who is accepted as a client.
-/

namespace Vlb.Clients

open Dumps Text

/-! ## Neighbours -/

def lladdr : List Char := "lladdr".toList

/-- The last `lladdr` of the line counts, and what comes after it. -/
def macOf (mac : Option String) : List (List Char) → Option String
  | [] => mac
  | t :: rest =>
    macOf (if t = lladdr then rest.head?.map fun m => String.ofList (toAsciiLowercase m) else mac)
      rest

/-- The states in which a host answers, or was said to be there. -/
def reachableStates : List (List Char) :=
  ["REACHABLE", "DELAY", "PROBE", "PERMANENT", "NOARP"].map String.toList

/-- The body of the loop of `parse_neighbours`; `none` where it continues. -/
def readNeighbour (tokens : List (List Char)) : Option Neighbour := do
  let first ← tokens.head?
  let ip ← Ipv4Addr.parse (String.ofList first)
  let mac := macOf none tokens
  let state := tokens.getLast?.getD []
  let reachable := reachableStates.contains state
  if mac.isNone && !reachable then none
  else return { ip, mac, reachable, stale := decide (state = "STALE".toList) }

/-- The entries of `ip -4 neigh show`. -/
def parseNeighbours (stdout : List Char) : List Neighbour :=
  (lines stdout).filterMap fun line => readNeighbour (words line)

/-- A word that is none of the given ones. -/
structure Token (reserved : List (List Char)) where
  chars : List Char
  nonempty : chars ≠ []
  plain : Plain chars
  free : chars ∉ reserved

/-- An entry of the neighbour table. The interface is shown where all of them are listed. -/
structure NeighbourEntry where
  ip : Ipv4Addr
  dev : Option (Token [lladdr])
  mac : Option (Token [lladdr])
  flags : List (Token [lladdr])
  state : Token [lladdr]

namespace NeighbourEntry

/-- What is between the address and the hardware address. -/
def device (e : NeighbourEntry) : List (List Char) :=
  e.dev.toList.flatMap fun dev => ["dev".toList, dev.chars]

/-- The words of the entry. -/
def words (e : NeighbourEntry) : List (List Char) :=
  e.ip.display.toList :: (e.device ++ (e.mac.toList.flatMap fun mac => [lladdr, mac.chars]) ++
    e.flags.map Token.chars ++ [e.state.chars])

/-- The state says that the host is there. -/
def answers (e : NeighbourEntry) : Bool := reachableStates.contains e.state.chars

/-- There is a host: it has a hardware address, or its state says so. -/
def isHost (e : NeighbourEntry) : Bool := e.mac.isSome || e.answers

/-- What is read of the entry. -/
def neighbour (e : NeighbourEntry) : Neighbour where
  ip := e.ip
  mac := e.mac.map fun mac => String.ofList (toAsciiLowercase mac.chars)
  reachable := e.answers
  stale := decide (e.state.chars = "STALE".toList)

end NeighbourEntry

/-! ## Addresses -/

def inet : List Char := "inet".toList

def brd : List Char := "brd".toList

/-- What comes after the first `key` of the line. -/
def tokenAfter (key : List Char) : List (List Char) → Option (List Char)
  | [] => none
  | t :: rest => if t = key then rest.head? else tokenAfter key rest

/-- An address with the length of its prefix, which is 32 where it is missing or no number. -/
def readCidr (cidr : List Char) : Option Cidr :=
  let (addr, prefixLen) := match splitOnce '/' cidr with
    | some (a, p) => (a, ((fromStrRadix 8 10 p).map UInt8.ofNat).getD 32)
    | none => (cidr, 32)
  (Ipv4Addr.parse (String.ofList addr)).map fun addr => ⟨addr, prefixLen⟩

/-- The body of the loop of `parse_local_addrs`: the network, and the broadcast address. -/
def readAddr (tokens : List (List Char)) : Option (Cidr × Option Ipv4Addr) := do
  let cidr ← tokenAfter inet tokens
  let net ← readCidr cidr
  return (net, (tokenAfter brd tokens).bind fun b => Ipv4Addr.parse (String.ofList b))

/-- The addresses of the machine, and its broadcast addresses. -/
def addressesOf (read : List (Cidr × Option Ipv4Addr)) : Finset Ipv4Addr :=
  (read.flatMap fun a => a.1.addr :: a.2.toList).toFinset

/-- What is read of `ip -4 addr show`. -/
def parseLocalAddrs (stdout : List Char) : Finset Ipv4Addr × List Cidr :=
  let read := (lines stdout).filterMap fun line => readAddr (words line)
  (addressesOf read, read.map Prod.fst)

/-- An address of an interface. `between` is what else is shown before the broadcast address, and
`after` comes behind it. -/
structure AddrEntry where
  ip : Ipv4Addr
  prefixLen : Option UInt8
  between : List (Token [brd])
  broadcast : Option Ipv4Addr
  after : List (Token [brd])

namespace AddrEntry

/-- A point-to-point address has no length. -/
def cidr (e : AddrEntry) : List Char :=
  e.ip.display.toList ++ (e.prefixLen.toList.flatMap fun p => '/' :: Nat.toDigits 10 p.toNat)

def words (e : AddrEntry) : List (List Char) :=
  inet :: e.cidr :: (e.between.map Token.chars ++
    (e.broadcast.toList.flatMap fun b => [brd, b.display.toList]) ++ e.after.map Token.chars)

/-- The network of the address. -/
def net (e : AddrEntry) : Cidr where
  addr := e.ip
  prefixLen := e.prefixLen.getD 32

end AddrEntry

/-! ## Clients -/

/-- What the settings say about the hosts of the LAN. -/
structure LanSettings where
  lanInterface : Option String
  gateways : List Ipv4Addr
  exclude : List Ipv4Addr
  maxTracked : ℕ
  presenceProbe : Bool

/-- `clients_loop`, after it has read the addresses: `addrShow` is what `ip -4 addr show` printed,
unless it failed. -/
def LanSettings.params (s : LanSettings) (addrShow : Option (List Char)) : SampleParams :=
  let (own, nets) := (addrShow.map parseLocalAddrs).getD (∅, [])
  { lanInterface := s.lanInterface
    excluded := own ∪ s.gateways.toFinset ∪ s.exclude.toFinset
    lanNetworks := if s.lanInterface.isSome then nets else []
    maxTracked := s.maxTracked
    presenceProbe := s.presenceProbe }

/-- The addresses that share a network with an address. -/
def AddrEntry.block (e : AddrEntry) : Blocks.Block 32 := ⟨e.ip, (e.prefixLen.getD 32).toNat⟩

/-- The host may be a client: it is neither a gateway nor this machine nor all of a network, and it
is in a network of the LAN, where one is known. -/
def LanSettings.Serves (s : LanSettings) (addrs : List AddrEntry) (ip : Ipv4Addr) : Prop :=
  isTrackable ip = true ∧ ip ∉ s.gateways ∧ ip ∉ s.exclude ∧
  (∀ a ∈ addrs, ip ≠ a.ip ∧ a.broadcast ≠ some ip) ∧
  (s.lanInterface = none ∨ addrs = [] ∨
    ∃ a ∈ addrs, a.block.length ≤ 32 ∧ a.block.contains ip = true)

instance (s : LanSettings) (addrs : List AddrEntry) (ip : Ipv4Addr) : Decidable (s.Serves addrs ip) :=
  inferInstanceAs (Decidable (_ ∧ _ ∧ _ ∧ _ ∧ _))

/-! ## Reading neighbours -/

variable {reserved : List (List Char)} {key : List Char}

theorem macOf_append {ws : List (List Char)} (h : lladdr ∉ ws) (mac : Option String)
    (rest : List (List Char)) : macOf mac (ws ++ rest) = macOf mac rest := by
  induction ws with
  | nil => rfl
  | cons t ws ih =>
    rw [List.mem_cons, not_or] at h
    rw [List.cons_append, macOf, if_neg (Ne.symm h.1), ih h.2]

theorem macOf_of_not_mem {ws : List (List Char)} (h : lladdr ∉ ws) (mac : Option String) :
    macOf mac ws = mac := by
  have := macOf_append h mac []
  rwa [List.append_nil] at this

theorem not_mem_chars (h : key ∈ reserved) (ts : List (Token reserved)) :
    key ∉ ts.map Token.chars := by
  intro hmem
  obtain ⟨t, -, ht⟩ := List.mem_map.mp hmem
  exact t.free (ht ▸ h)

theorem display_ne {ip : Ipv4Addr} {c : Char} (hc : c ∈ key) (h : (c.isDigit || c == '.') = false) :
    ip.display.toList ≠ key := fun heq => Ipv4Addr.not_mem_display h (heq ▸ hc)

theorem macOf_words (e : NeighbourEntry) : macOf none e.words =
    e.mac.map fun mac => String.ofList (toAsciiLowercase mac.chars) := by
  have hip : e.ip.display.toList ≠ lladdr := display_ne (c := 'l') (by decide) (by decide)
  have hdevice : lladdr ∉ e.device := by
    unfold NeighbourEntry.device
    cases e.dev with
    | none => simp
    | some dev =>
      have hfree := dev.free
      simp only [Option.toList_some, List.flatMap_cons, List.flatMap_nil, List.append_nil,
        List.mem_cons, List.not_mem_nil, or_false, not_or] at hfree ⊢
      exact ⟨by decide, Ne.symm hfree⟩
  have hrest : lladdr ∉ e.flags.map Token.chars ++ [e.state.chars] := by
    have := not_mem_chars (List.mem_singleton_self lladdr) (e.flags ++ [e.state])
    rwa [List.map_append] at this
  rw [NeighbourEntry.words, macOf, if_neg hip, List.append_assoc, List.append_assoc,
    macOf_append hdevice]
  cases hmac : e.mac with
  | none => exact macOf_of_not_mem hrest none
  | some mac =>
    have hfree : mac.chars ≠ lladdr := fun heq => mac.free (List.mem_singleton.mpr heq)
    simp only [Option.toList_some, List.flatMap_cons, List.flatMap_nil, List.append_nil,
      List.cons_append, List.nil_append, macOf, if_true, List.head?_cons, if_neg hfree]
    exact macOf_of_not_mem hrest _

/-- **An entry is read as it is**, if there is a host. -/
theorem readNeighbour_words (e : NeighbourEntry) :
    readNeighbour e.words = if e.isHost then some e.neighbour else none := by
  have hstate : e.words.getLast?.getD [] = e.state.chars := by
    rw [NeighbourEntry.words, ← List.cons_append, List.getLast?_concat, Option.getD_some]
  have hhead : e.words.head? = some e.ip.display.toList := rfl
  have hread : readNeighbour e.words =
      if e.neighbour.mac.isNone && !e.answers then none else some e.neighbour := by
    simp only [readNeighbour, hhead, Option.bind_eq_bind, Option.bind_some, String.ofList_toList,
      Ipv4Addr.parse_display, macOf_words, hstate]
    rfl
  have hmac : e.neighbour.mac.isNone = !e.mac.isSome := by
    rw [NeighbourEntry.neighbour, Option.isNone_map, ← Option.not_isSome]
  rw [hread, hmac, NeighbourEntry.isHost]
  cases e.mac.isSome <;> cases e.answers <;> rfl

theorem readNeighbour_other {tokens : List (List Char)}
    (h : ∀ t ∈ tokens.head?, Ipv4Addr.parse (String.ofList t) = none) :
    readNeighbour tokens = none := by
  unfold readNeighbour
  cases hhead : tokens.head? with
  | none => rfl
  | some t => simp [h t hhead]

/-- **The neighbours are the hosts of the table**, in its order. -/
theorem parseNeighbours_text (layout : Dumps.Layout NeighbourEntry NeighbourEntry.words)
    {d : Dump NeighbourEntry} (hother : ∀ l, .inr l ∈ d → '\n' ∉ l ∧
      ∀ t ∈ (words l).head?, Ipv4Addr.parse (String.ofList t) = none) :
    parseNeighbours (text layout.line d) =
      ((entries d).filter NeighbourEntry.isHost).map NeighbourEntry.neighbour := by
  rw [parseNeighbours, filterMap_layout layout (fun e _ => readNeighbour_words e)
    fun l hl => ⟨(hother l hl).1, readNeighbour_other (hother l hl).2⟩]
  induction entries d with
  | nil => rfl
  | cons e es ih =>
    rw [List.filterMap_cons, List.filter_cons]
    cases e.isHost <;> simp [ih]

/-! ## Reading addresses -/

theorem tokenAfter_append {ws : List (List Char)} (h : key ∉ ws) (rest : List (List Char)) :
    tokenAfter key (ws ++ rest) = tokenAfter key rest := by
  induction ws with
  | nil => rfl
  | cons t ws ih =>
    rw [List.mem_cons, not_or] at h
    rw [List.cons_append, tokenAfter, if_neg (Ne.symm h.1), ih h.2]

theorem tokenAfter_of_not_mem {ws : List (List Char)} (h : key ∉ ws) : tokenAfter key ws = none := by
  have := tokenAfter_append h []
  rwa [List.append_nil] at this

theorem readCidr_cidr (e : AddrEntry) : readCidr e.cidr = some e.net := by
  have hslash : '/' ∉ e.ip.display.toList := Ipv4Addr.not_mem_display (by decide)
  unfold readCidr AddrEntry.cidr AddrEntry.net
  cases hprefix : e.prefixLen with
  | none =>
    simp [splitOnce_eq_none hslash, Ipv4Addr.parse_display]
  | some p =>
    have hdigits : fromStrRadix 8 10 (Nat.toDigits 10 p.toNat) = some p.toNat := by
      rw [fromStrRadix, number_toDigits, Option.filter_some, if_pos (decide_eq_true p.toNat_lt)]
    simp [splitOnce_append hslash, hdigits, Ipv4Addr.parse_display]

/-- **An address is read as it is.** -/
theorem readAddr_words (e : AddrEntry) : readAddr e.words = some (e.net, e.broadcast) := by
  have hbefore : brd ∉ inet :: e.cidr :: e.between.map Token.chars := by
    have hcidr : brd ≠ e.cidr := by
      intro heq
      have hhead : ('b' : Char) ∈ e.cidr := heq ▸ List.mem_cons_self
      rcases List.mem_append.mp hhead with h | h
      · exact Ipv4Addr.not_mem_display (by decide) h
      · obtain ⟨p, -, h⟩ := List.mem_flatMap.mp h
        rcases List.mem_cons.mp h with h | h
        · exact absurd h (by decide)
        · exact not_mem_toDigits (by decide) h
    simp only [List.mem_cons, not_or]
    exact ⟨by decide, hcidr, not_mem_chars (List.mem_singleton_self _) _⟩
  have hafter := not_mem_chars (List.mem_singleton_self brd) e.after
  have hwords : e.words = (inet :: e.cidr :: e.between.map Token.chars) ++
      ((e.broadcast.toList.flatMap fun b => [brd, b.display.toList]) ++
        e.after.map Token.chars) := by
    rw [AddrEntry.words, List.append_assoc, List.cons_append, List.cons_append]
  have hbrd : tokenAfter brd e.words = e.broadcast.map fun b => b.display.toList := by
    rw [hwords, tokenAfter_append hbefore]
    cases e.broadcast with
    | none => exact tokenAfter_of_not_mem hafter
    | some b => rfl
  have hinet : tokenAfter inet e.words = some e.cidr := rfl
  simp only [readAddr, hinet, readCidr_cidr, hbrd, Option.bind_eq_bind, Option.bind_some,
    Option.pure_def]
  cases e.broadcast <;> simp [Ipv4Addr.parse_display]

theorem readAddr_other {tokens : List (List Char)} (h : inet ∉ tokens) : readAddr tokens = none := by
  unfold readAddr
  rw [tokenAfter_of_not_mem h]
  rfl

/-- **The addresses and the networks are those of the interfaces.** -/
theorem parseLocalAddrs_text (layout : Dumps.Layout AddrEntry AddrEntry.words) {d : Dump AddrEntry}
    (hother : ∀ l, .inr l ∈ d → '\n' ∉ l ∧ inet ∉ words l) :
    parseLocalAddrs (text layout.line d) =
      (addressesOf ((entries d).map fun e => (e.net, e.broadcast)),
        (entries d).map AddrEntry.net) := by
  have hread : (lines (text layout.line d)).filterMap (fun line => readAddr (words line)) =
      (entries d).map fun e => (e.net, e.broadcast) := by
    rw [filterMap_layout layout (fun e _ => readAddr_words e)
      fun l hl => ⟨(hother l hl).1, readAddr_other (hother l hl).2⟩]
    exact congrFun List.filterMap_eq_map _
  rw [parseLocalAddrs, hread, List.map_map]
  rfl

theorem mem_addressesOf {addrs : List AddrEntry} {ip : Ipv4Addr} :
    ip ∈ addressesOf (addrs.map fun e => (e.net, e.broadcast)) ↔
      ∃ a ∈ addrs, ip = a.ip ∨ a.broadcast = some ip := by
  simp only [addressesOf, List.mem_toFinset, List.mem_flatMap, List.mem_map, List.mem_cons,
    Option.mem_toList]
  constructor
  · rintro ⟨-, ⟨a, ha, rfl⟩, hip⟩
    exact ⟨a, ha, hip⟩
  · rintro ⟨a, ha, hip⟩
    exact ⟨_, ⟨a, ha, rfl⟩, hip⟩

/-! ## The clients of the LAN -/

theorem net_contains_iff (e : AddrEntry) (ip : Ipv4Addr) :
    e.net.contains ip = true ↔ e.block.length ≤ 32 ∧ e.block.contains ip = true := by
  unfold Cidr.contains AddrEntry.net AddrEntry.block
  by_cases hzero : e.prefixLen.getD 32 = 0
  · have hlength : (e.prefixLen.getD 32).toNat = 0 := by rw [hzero]; rfl
    simp only [hzero, if_true, true_iff]
    exact ⟨Nat.zero_le _, Blocks.Block.contains_of_length_eq_zero rfl ip⟩
  · by_cases hlong : 32 < e.prefixLen.getD 32
    · have hlength := UInt8.lt_iff_toNat_lt.mp hlong
      simp only [if_neg hzero, if_pos hlong]
      exact ⟨fun h => (Bool.false_ne_true h).elim, fun h => absurd h.1 (Nat.not_le.mpr hlength)⟩
    · have hlength : (e.prefixLen.getD 32).toNat ≤ 32 :=
        UInt8.le_iff_toNat_le.mp (UInt8.not_lt.mp hlong)
      rw [if_neg hzero, if_neg hlong, Blocks.Block.contains_iff_mask hlength, beq_iff_eq]
      exact ⟨fun h => ⟨hlength, h⟩, fun h => h.2⟩

theorem accepts_iff (p : SampleParams) (ip : Ipv4Addr) : p.accepts ip = true ↔
    isTrackable ip = true ∧ ip ∉ p.excluded ∧
      (p.lanNetworks = [] ∨ ∃ n ∈ p.lanNetworks, n.contains ip = true) := by
  unfold SampleParams.accepts
  cases isTrackable ip <;> by_cases hex : ip ∈ p.excluded <;> simp [hex]

/-- **The settings and the addresses decide who is accepted.** -/
theorem accepts_params (s : LanSettings) (layout : Dumps.Layout AddrEntry AddrEntry.words)
    {d : Dump AddrEntry} (hother : ∀ l, .inr l ∈ d → '\n' ∉ l ∧ inet ∉ words l) (ip : Ipv4Addr) :
    (s.params (some (text layout.line d))).accepts ip = true ↔ s.Serves (entries d) ip := by
  have hown : ip ∉ addressesOf ((entries d).map fun e => (e.net, e.broadcast)) ↔
      ∀ a ∈ entries d, ip ≠ a.ip ∧ a.broadcast ≠ some ip := by
    rw [mem_addressesOf]
    simp only [not_exists, not_and, not_or]
  have hnets : ((entries d).map AddrEntry.net = [] ∨
      ∃ n ∈ (entries d).map AddrEntry.net, n.contains ip = true) ↔
      entries d = [] ∨ ∃ a ∈ entries d, a.block.length ≤ 32 ∧ a.block.contains ip = true := by
    simp only [List.map_eq_nil_iff, List.mem_map, exists_exists_and_eq_and, net_contains_iff]
  rw [accepts_iff, LanSettings.Serves, LanSettings.params]
  simp only [Option.map_some, Option.getD_some, parseLocalAddrs_text layout hother,
    Finset.mem_union, List.mem_toFinset, not_or, hown]
  cases hlan : s.lanInterface with
  | none =>
    simp only [Option.isSome_none, Bool.false_eq_true, if_false, true_or, and_true]
    constructor
    · rintro ⟨htrack, ⟨hn, hg⟩, he⟩
      exact ⟨htrack, hg, he, hn⟩
    · rintro ⟨htrack, hg, he, hn⟩
      exact ⟨htrack, ⟨hn, hg⟩, he⟩
  | some dev =>
    simp only [Option.isSome_some, if_true, hnets, reduceCtorEq, false_or]
    constructor
    · rintro ⟨htrack, ⟨⟨hn, hg⟩, he⟩, hnet⟩
      exact ⟨htrack, hg, he, hn, hnet⟩
    · rintro ⟨htrack, hg, he, hn, hnet⟩
      exact ⟨htrack, ⟨⟨hn, hg⟩, he⟩, hnet⟩

/-- **The clients are the hosts that the settings serve**, in the order of the table, whatever else
the two programs print and however they set the words apart. -/
theorem candidates_text (s : LanSettings) (neigh : Dumps.Layout NeighbourEntry NeighbourEntry.words)
    (addr : Dumps.Layout AddrEntry AddrEntry.words) {hosts : Dump NeighbourEntry}
    {addrs : Dump AddrEntry}
    (hhosts : ∀ l, .inr l ∈ hosts → '\n' ∉ l ∧
      ∀ t ∈ (words l).head?, Ipv4Addr.parse (String.ofList t) = none)
    (haddrs : ∀ l, .inr l ∈ addrs → '\n' ∉ l ∧ inet ∉ words l) :
    (parseNeighbours (text neigh.line hosts)).filter
        (fun n => (s.params (some (text addr.line addrs))).accepts n.ip) =
      ((entries hosts).filter fun e => e.isHost && decide (s.Serves (entries addrs) e.ip)).map
        NeighbourEntry.neighbour := by
  rw [parseNeighbours_text neigh hhosts, List.filter_map, List.filter_filter]
  refine congrArg (List.map _) (List.filter_congr fun e _ => ?_)
  have haccepts := accepts_params s addr haddrs e.ip
  rw [Function.comp_apply, Bool.and_comm, NeighbourEntry.neighbour]
  congr 1
  rw [Bool.eq_iff_iff, haccepts, decide_eq_true_iff]

/-! ## A LAN -/

theorem display_ne_nil (ip : Ipv4Addr) : ip.display.toList ≠ [] := by
  intro hempty
  have hparse := Ipv4Addr.parse_display ip
  rw [← String.ofList_toList (s := ip.display), hempty] at hparse
  cases hparse

theorem plain_chars (ts : List (Token reserved)) :
    ∀ w ∈ ts.map Token.chars, w ≠ [] ∧ Plain w := by
  intro w hw
  obtain ⟨t, -, rfl⟩ := List.mem_map.mp hw
  exact ⟨t.nonempty, t.plain⟩

theorem NeighbourEntry.isWord_words (e : NeighbourEntry) : ∀ w ∈ e.words, w ≠ [] ∧ Plain w := by
  have hdevice : ∀ w ∈ e.device, w ≠ [] ∧ Plain w := by
    unfold NeighbourEntry.device
    cases e.dev with
    | none => simp
    | some dev => simpa using ⟨by decide, dev.nonempty, dev.plain⟩
  have hmac : ∀ w ∈ e.mac.toList.flatMap fun mac => [lladdr, mac.chars], w ≠ [] ∧ Plain w := by
    cases e.mac with
    | none => simp
    | some mac => simpa using ⟨by decide, mac.nonempty, mac.plain⟩
  have hstate : ∀ w ∈ [e.state.chars], w ≠ [] ∧ Plain w := by
    simpa using ⟨e.state.nonempty, e.state.plain⟩
  rw [NeighbourEntry.words, List.forall_mem_cons, List.forall_mem_append, List.forall_mem_append,
    List.forall_mem_append]
  exact ⟨⟨display_ne_nil e.ip, plain_display e.ip⟩, ⟨⟨hdevice, hmac⟩, plain_chars e.flags⟩, hstate⟩

theorem AddrEntry.isWord_words (e : AddrEntry) : ∀ w ∈ e.words, w ≠ [] ∧ Plain w := by
  have hcidr : e.cidr ≠ [] ∧ Plain e.cidr := by
    refine ⟨List.append_ne_nil_of_left_ne_nil (display_ne_nil e.ip) _,
      List.forall_mem_append.mpr ⟨plain_display e.ip, ?_⟩⟩
    cases e.prefixLen with
    | none => simp
    | some p => simpa using ⟨by decide, plain_toDigits p.toNat⟩
  have hbroadcast : ∀ w ∈ e.broadcast.toList.flatMap fun b => [brd, b.display.toList],
      w ≠ [] ∧ Plain w := by
    cases e.broadcast with
    | none => simp
    | some b =>
      exact List.forall_mem_cons.mpr ⟨by decide,
        List.forall_mem_cons.mpr ⟨⟨display_ne_nil b, plain_display b⟩, List.forall_mem_nil _⟩⟩
  rw [AddrEntry.words, List.forall_mem_cons, List.forall_mem_cons, List.forall_mem_append,
    List.forall_mem_append]
  exact ⟨by decide, hcidr, ⟨plain_chars e.between, hbroadcast⟩, plain_chars e.after⟩

/-- `ip -4 neigh show`, with one blank between two words. -/
def neighShow : Dumps.Layout NeighbourEntry NeighbourEntry.words := .plain NeighbourEntry.isWord_words

/-- `ip -4 addr show`, likewise. -/
def addrShow : Dumps.Layout AddrEntry AddrEntry.words := .plain AddrEntry.isWord_words

/-- A phone that answers, a host that never did, and the router beyond. -/
def homeHosts : Dump NeighbourEntry :=
  [.inl ⟨Ipv4Addr.ofOctets 10 0 0 50, none, some ⟨"02:42:0A:00:00:32".toList, by decide, by decide,
      by decide⟩, [], ⟨"REACHABLE".toList, by decide, by decide, by decide⟩⟩,
    .inl ⟨Ipv4Addr.ofOctets 10 0 0 52, none, none, [],
      ⟨"FAILED".toList, by decide, by decide, by decide⟩⟩,
    .inl ⟨Ipv4Addr.ofOctets 10 0 0 2, none, none, [],
      ⟨"PERMANENT".toList, by decide, by decide, by decide⟩⟩]

/-- The gateway's own address. -/
def homeAddrs : Dump AddrEntry :=
  [.inr "2: lan0: <BROADCAST,MULTICAST,UP> mtu 1500".toList,
    .inl ⟨Ipv4Addr.ofOctets 10 0 0 1, some 24, [], some (Ipv4Addr.ofOctets 10 0 0 255), []⟩,
    .inr "       valid_lft forever preferred_lft forever".toList]

/-- A LAN behind one interface. -/
def home : LanSettings where
  lanInterface := some "lan0"
  gateways := [Ipv4Addr.ofOctets 10 0 0 2]
  exclude := []
  maxTracked := 256
  presenceProbe := true

/-- The phone is the client. -/
theorem candidates_text_home :
    (parseNeighbours (text neighShow.line homeHosts)).filter
        (fun n => (home.params (some (text addrShow.line homeAddrs))).accepts n.ip) =
      [⟨Ipv4Addr.ofOctets 10 0 0 50, some "02:42:0a:00:00:32", true, false⟩] := by
  rw [candidates_text home neighShow addrShow]
  · decide +kernel
  · intro l hl
    simp [homeHosts] at hl
  · intro l hl
    simp only [homeAddrs, List.mem_cons, reduceCtorEq, Sum.inr.injEq, List.not_mem_nil, or_false,
      false_or] at hl
    rcases hl with rfl | rfl
    · decide
    · decide

end Vlb.Clients
