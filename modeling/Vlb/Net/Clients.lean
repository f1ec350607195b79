import Mathlib.Data.Finset.Card
import Mathlib.Data.List.AList
import Vlb.Config
import Vlb.Lib.Entries
import Vlb.Lib.Interrupted
import Vlb.Lib.Time
import Vlb.Net.Throughput

/-!
# Counting what each client moves

One chain of the firewall holds two counting rules a client, one for each direction. A monitor adds
them as it discovers clients, reads their counters in every round, and reports by how much they have
grown. It works through commands, each of which may fail, or not run at all; and the daemon may be
stopped at any of them.

* `Kernel`: the chain, with what `iptables` does to it.
* `Shell`: programs that run commands; `Moment` says how one of them ends.
* `ClientMonitor.sample`, `ClientMonitor.forget`: the monitor.
* `Kernel.Extends`: rules are added at the end, and no counter goes back.
* `bytes_listed`: a reading has the counters of the chain.
-/

namespace Vlb.Clients

open Entries Interrupted Time

/-! ## Counters -/

/-- Bytes and packets towards the client and from it, as `traffic::IfCounters` has them for an
interface. -/
structure ClientCounters where
  rxBytes : UInt64
  rxPackets : UInt64
  txBytes : UInt64
  txPackets : UInt64
  deriving DecidableEq

/-- Of the traffic of a client. -/
inductive Direction
  /-- Towards the client, matched by its destination. -/
  | download
  /-- From the client. -/
  | upload
  deriving DecidableEq

namespace ClientCounters

/-- `ClientCounters::default()`. -/
def zero : ClientCounters := ⟨0, 0, 0, 0⟩

/-- Nothing where a counter went back. -/
def delta (prev curr : ClientCounters) : Option ClientCounters := do
  let rxBytes ← Canary.checkedSub curr.rxBytes prev.rxBytes
  let rxPackets ← Canary.checkedSub curr.rxPackets prev.rxPackets
  let txBytes ← Canary.checkedSub curr.txBytes prev.txBytes
  let txPackets ← Canary.checkedSub curr.txPackets prev.txPackets
  return { rxBytes, rxPackets, txBytes, txPackets }

/-- Nothing has been counted. -/
def isZero (c : ClientCounters) : Bool :=
  c.rxBytes == 0 && c.txBytes == 0 && c.rxPackets == 0 && c.txPackets == 0

/-- The bytes of a direction. -/
def octets (c : ClientCounters) : Direction → UInt64
  | .download => c.rxBytes
  | .upload => c.txBytes

/-- As a number. -/
def bytes (c : ClientCounters) (d : Direction) : ℕ := (c.octets d).toNat

theorem bytes_of_isZero {c : ClientCounters} (h : c.isZero = true) (d : Direction) : c.bytes d = 0 := by
  simp only [isZero, Bool.and_eq_true, beq_iff_eq] at h
  obtain ⟨⟨⟨hrx, htx⟩, -⟩, -⟩ := h
  cases d
  · exact congrArg UInt64.toNat hrx
  · exact congrArg UInt64.toNat htx

@[simp] theorem bytes_zero (d : Direction) : zero.bytes d = 0 := by cases d <;> rfl

end ClientCounters

/-! ## Whom to count -/

/-- An entry of the neighbour table. -/
structure Neighbour where
  ip : Ipv4Addr
  mac : Option String
  reachable : Bool
  stale : Bool
  deriving DecidableEq

/-- What a round reports of a client. -/
structure ClientObservation where
  ip : Ipv4Addr
  mac : Option String
  delta : ClientCounters
  seen : Bool
  deriving DecidableEq

/-- A network, with the length of its prefix. -/
structure Cidr where
  addr : Ipv4Addr
  prefixLen : UInt8

/-- The network has the address. -/
def Cidr.contains (n : Cidr) (ip : Ipv4Addr) : Bool :=
  if n.prefixLen = 0 then true
  else if 32 < n.prefixLen then false
  else
    let mask := BitVec.allOnes 32 <<< (32 - n.prefixLen.toNat)
    n.addr &&& mask == ip &&& mask

/-- An address that a host can have. -/
def isTrackable (ip : Ipv4Addr) : Bool :=
  !(ip.isLoopback || ip.isMulticast || ip.isBroadcast || ip.isUnspecified || ip.isLinkLocal)

/-- Whom a round accepts, and how many. -/
structure SampleParams where
  lanInterface : Option String
  excluded : Finset Ipv4Addr
  lanNetworks : List Cidr
  maxTracked : ℕ
  presenceProbe : Bool

/-- The address is one of a client. -/
def SampleParams.accepts (p : SampleParams) (ip : Ipv4Addr) : Bool :=
  if !isTrackable ip || decide (ip ∈ p.excluded) then false
  else p.lanNetworks.isEmpty || p.lanNetworks.any fun n => n.contains ip

/-! ## The chain -/

/-- A counting rule. Its comment names the client and the direction. -/
structure Rule where
  ip : Ipv4Addr
  direction : Direction
  packets : UInt64
  bytes : UInt64
  deriving DecidableEq

/-- Which rule it is. -/
abbrev Key := Ipv4Addr × Direction

/-- The client and the direction. -/
def Rule.key (r : Rule) : Key := (r.ip, r.direction)

/-- A counter does not go back; at its end it stays. -/
def grow (counter n : UInt64) : UInt64 := if counter ≤ counter + n then counter + n else counter

/-- What the kernel has seen of each client, in packets and bytes. -/
abbrev Traffic := Key → UInt64 × UInt64

/-- The rule has counted what came meanwhile. -/
def Rule.count (t : Traffic) (r : Rule) : Rule :=
  { r with packets := grow r.packets (t r.key).1, bytes := grow r.bytes (t r.key).2 }

/-- The part of the filter table that this is about. -/
structure Kernel where
  /-- The rules of `VLB_CLIENTS`, if there is such a chain. -/
  chain : Option (List Rule)
  /-- `FORWARD` jumps to it. -/
  hooked : Bool
  deriving DecidableEq

namespace Kernel

/-- The rules of the chain, if it is there. -/
def rules (k : Kernel) : List Rule := k.chain.getD []

/-- What they are for. -/
def keys (k : Kernel) : List Key := k.rules.map Rule.key

/-- Every rule that matches counts. -/
def count (t : Traffic) (k : Kernel) : Kernel := { k with chain := k.chain.map (List.map (Rule.count t)) }

/-- `-N`, which fails where the chain exists. -/
def newChain (k : Kernel) : Bool × Kernel :=
  match k.chain with
  | none => (true, { k with chain := some [] })
  | some _ => (false, k)

/-- `-C FORWARD -j`. -/
def isHooked (k : Kernel) : Bool × Kernel := (k.chain.isSome && k.hooked, k)

/-- `-I FORWARD 1 -j`. -/
def hook (k : Kernel) : Bool × Kernel :=
  if k.chain.isSome then (true, { k with hooked := true }) else (false, k)

/-- `-C`. -/
def hasRule (key : Key) (k : Kernel) : Bool × Kernel := (decide (key ∈ k.keys), k)

/-- `-A`. -/
def append (key : Key) (k : Kernel) : Bool × Kernel :=
  match k.chain with
  | some rules => (true, { k with chain := some (rules ++ [⟨key.1, key.2, 0, 0⟩]) })
  | none => (false, k)

/-- `-D`, which deletes the first rule that matches. -/
def delete (key : Key) (k : Kernel) : Bool × Kernel :=
  match k.chain with
  | some rules =>
    (decide (key ∈ k.keys), { k with chain := some (rules.eraseP fun r => r.key = key) })
  | none => (false, k)

end Kernel

/-- What one rule puts into a reading. -/
def Rule.record (r : Rule) (c : ClientCounters) : ClientCounters :=
  match r.direction with
  | .download => { c with rxBytes := r.bytes, rxPackets := r.packets }
  | .upload => { c with txBytes := r.bytes, txPackets := r.packets }

/-- The counters by client. -/
abbrev Reading := HashMap Ipv4Addr ClientCounters

/-- What `parse_iptables_save` and `parse_iptables_list` find in a listing of these rules. -/
def listed (rules : List Rule) : Reading :=
  rules.foldl (fun out r => upsert .zero r.record r.ip out) ∅

/-! ## Commands -/

/-- The invocation of one command, with the traffic that is counted until then. -/
structure Moment where
  outcome : Outcome
  traffic : Traffic

/-- What is recorded here of a run. The program keeps no such record. -/
inductive Note
  /-- `-A`, and whether it succeeded. -/
  | appended (key : Key) (ok : Bool)
  /-- `-D`, and whether it succeeded. -/
  | deleted (key : Key) (ok : Bool)
  /-- What `read_counters` got hold of, at startup or in a round; `none` where neither listing could
  be read. -/
  | read (startup : Bool) (counters : Option Reading)
  /-- What a round reported. -/
  | reported (out : List ClientObservation)
  deriving DecidableEq

/-- The kernel, the commands to come, and what has been noted. -/
structure World where
  kernel : Kernel
  /-- The commands to come. The process is stopped at the first one that is not in it. -/
  script : List Moment
  /-- The newest first. -/
  notes : List Note

/-- A program that runs commands. -/
abbrev Shell (α : Type) := Prog World α

/-- The next command finds what has been counted until then. -/
def World.next (w : World) : Option (Outcome × World) :=
  match w.script with
  | [] => none
  | m :: script => some (m.outcome, { w with kernel := w.kernel.count m.traffic, script })

/-- The invocation of a command that does `effect`, and what it gives where it runs. -/
def invoke {α : Type} (effect : Kernel → α × Kernel) (otherwise : Outcome → α) : Shell α :=
  command World.next (fun w => ((effect w.kernel).1, { w with kernel := (effect w.kernel).2 }))
    fun o w => (otherwise o, w)

/-- `run_ok`; `none` where the command could not be spawned. -/
def runOk (effect : Kernel → Bool × Kernel) : Shell (Option Bool) :=
  invoke (fun k => (some (effect k).1, (effect k).2)) Outcome.failure

/-- `run_stdout`, of a command that changes nothing. -/
def runStdout {α : Type} (output : Kernel → Option α) : Shell (Option α) :=
  invoke (fun k => (output k, k)) fun _ => none

/-- Something is noted for the proofs, and nothing done. -/
def note (n : Note) : Shell Unit := fun w => (some (), { w with notes := n :: w.notes })

/-! ## The monitor -/

def maxNewRulesPerTick : ℕ := 8

def maxProbesPerTick : ℕ := 8

def presenceProbeEvery : Duration := Duration.fromSecs 30

/-- What the monitor keeps from round to round. -/
structure ClientMonitor where
  dryRun : Bool
  /-- The counters of the previous reading. -/
  prev : Reading := ∅
  /-- The clients that have rules. -/
  tracked : Finset Ipv4Addr := ∅
  chainReady : Bool := false
  /-- Whether the reading at startup worked. -/
  countersKnown : Bool := false
  /-- When each stale neighbour was last pinged, in nanoseconds. -/
  lastProbe : HashMap Ipv4Addr ℕ := ∅

/-- The chain is made and hooked, where it is not. -/
def ensureChain : Shell (Except String Unit) := do
  let _ ← runOk Kernel.newChain
  let hooked := (← runOk Kernel.isHooked).getD false
  if hooked then
    return .ok ()
  else
    match ← runOk Kernel.hook with
    | none => return .error "failed to invoke iptables to install the accounting chain"
    | some false =>
      return .error "could not hook VLB_CLIENTS into FORWARD; per-client traffic cannot be counted"
    | some true => return .ok ()

/-- The counters of every client; none at all where neither listing could be read. -/
def readCounters (startup : Bool) : Shell (Except String Reading) := do
  match ← runStdout fun k => some (listed k.rules) with
  | some counters =>
    note (.read startup (some counters))
    return .ok counters
  | none =>
    match ← runStdout fun k => k.chain.map listed with
    | some counters =>
      note (.read startup (some counters))
      return .ok counters
    | none =>
      note (.read startup none)
      return .ok ∅

/-- `ip neigh show`, of an interface or of all. -/
def readNeighbours (lan : Option String → List Neighbour) (dev : Option String) :
    Shell (Except String (List Neighbour)) := do
  match ← runStdout fun _ => some (lan dev) with
  | some neighbours => return .ok neighbours
  | none => return .error "`ip neigh show` could not be read"

/-- The check before a rule is added, which is skipped where the reading at startup has told which
rules there are. -/
def isThere (countersKnown : Bool) (key : Key) : Shell Bool := do
  if countersKnown then
    return false
  else
    let found ← runOk (Kernel.hasRule key)
    return found.getD false

/-- The body of the loop of `add_rules`. -/
def addRule (countersKnown : Bool) (key : Key) : Shell (Except String Unit) := do
  if ← isThere countersKnown key then
    return .ok ()
  else
    let added ← runOk (Kernel.append key)
    note (.appended key (added.getD false))
    match added with
    | none => return .error "failed to invoke iptables"
    | some false => return .error ("iptables refused the counting rule for " ++ key.1.display)
    | some true => return .ok ()

/-- Both rules of a client; the second one is not tried after a failure. -/
def addRules (countersKnown : Bool) (ip : Ipv4Addr) : Shell (Except String Unit) := do
  match ← addRule countersKnown (ip, .download) with
  | .error e => return .error e
  | .ok () => addRule countersKnown (ip, .upload)

namespace ClientMonitor

/-- The start of `sample`: the chain, and whatever rules the previous run left behind. -/
def startUp (m : ClientMonitor) : Shell (Except String ClientMonitor) := do
  if m.chainReady then
    return .ok m
  else
    match ← ensureChain with
    | .error e => return .error e
    | .ok () =>
      let m := { m with chainReady := true }
      match ← readCounters true with
      | .ok counters =>
        return .ok { m with tracked := counters.keys.toFinset, prev := counters, countersKnown := true }
      | .error _ => return .ok m

/-- The loop that installs the rules of the clients that have none yet. -/
def installNew (params : SampleParams) : List Neighbour → ℕ → ClientMonitor → Shell ClientMonitor
  | [], _, m => pure m
  | n :: candidates, installed, m =>
    if n.ip ∈ m.tracked then installNew params candidates installed m
    else if maxNewRulesPerTick ≤ installed then pure m
    else if params.maxTracked ≤ m.tracked.card then pure m
    else do
      match ← addRules m.countersKnown n.ip with
      | .error _ => installNew params candidates installed m
      | .ok () =>
        installNew params candidates (installed + 1) { m with tracked := insert n.ip m.tracked }

/-- The stale neighbours that are due for a ping. -/
def due (m : ClientMonitor) (candidates : List Neighbour) (now : ℕ) : List Ipv4Addr :=
  (((candidates.filter fun n => n.stale && !n.reachable).map Neighbour.ip).filter fun ip =>
    match m.lastProbe.lookup ip with
    | some t => presenceProbeEvery.nanos ≤ now - t
    | none => true).take maxProbesPerTick

/-- The pings. What comes of them is in the next listing of the neighbours. -/
def nudge (params : SampleParams) (candidates : List Neighbour) (now : ℕ) (m : ClientMonitor) :
    Shell ClientMonitor := do
  if params.presenceProbe then
    let due := m.due candidates now
    let m := { m with lastProbe := due.foldl (fun probes ip => probes.insert ip now) m.lastProbe }
    if !due.isEmpty then
      let _ ← runOk fun k => (true, k)
    return m
  else
    return m

/-- The difference that is reported for a client. -/
def difference (m : ClientMonitor) (counters : Reading) (ip : Ipv4Addr) : ClientCounters :=
  let curr := getD counters ip .zero
  match m.prev.lookup ip with
  | some prev => (ClientCounters.delta prev curr).getD .zero
  | none => curr

/-- The loop over the candidates at the end of `sample`. -/
def observe (counters : Reading) : List Neighbour → ClientMonitor → List ClientObservation × ClientMonitor
  | [], m => ([], m)
  | n :: candidates, m =>
    let delta := m.difference counters n.ip
    let obs := { ip := n.ip, mac := n.mac, delta, seen := n.reachable || !delta.isZero }
    let (out, m') :=
      observe counters candidates { m with prev := m.prev.insert n.ip (getD counters n.ip .zero) }
    (obs :: out, m')

/-- One round, at the instant `now`. `lan` is what `ip neigh show` prints. The monitor keeps what it
has learnt where the round fails. -/
def sample (params : SampleParams) (lan : Option String → List Neighbour) (now : ℕ)
    (m : ClientMonitor) : Shell (Except String (List ClientObservation) × ClientMonitor) := do
  if m.dryRun then
    return (.ok [], m)
  else
    match ← m.startUp with
    | .error e => return (.error e, m)
    | .ok m =>
      match ← readNeighbours lan params.lanInterface with
      | .error e => return (.error e, m)
      | .ok neighbours =>
        let candidates := neighbours.filter fun n => params.accepts n.ip
        let m ← installNew params candidates 0 m
        match ← readCounters false with
        | .error e => return (.error e, m)
        | .ok counters =>
          let m ← m.nudge params candidates now
          let (out, m) := m.observe counters candidates
          note (.reported out)
          return (.ok out, m)

/-- `-D`, whose result is ignored. -/
def deleteRule (key : Key) : Shell Unit := do
  let deleted ← runOk (Kernel.delete key)
  note (.deleted key (deleted.getD false))

/-- The client's rules go, and what is known of it. -/
def forget (ip : Ipv4Addr) (m : ClientMonitor) : Shell ClientMonitor := do
  if m.dryRun then
    return m
  else
    let known := decide (ip ∈ m.tracked)
    let m := { m with
      prev := m.prev.erase ip, lastProbe := m.lastProbe.erase ip, tracked := m.tracked.erase ip }
    if known then
      deleteRule (ip, .download)
      deleteRule (ip, .upload)
    return m

end ClientMonitor

/-! ## Counters of the chain -/

/-- The counter of a rule: of the last one, where there are several. -/
def counter (rules : List Rule) (key : Key) : ℕ :=
  rules.foldl (fun c r => if r.key = key then r.bytes.toNat else c) 0

/-- What the kernel has counted under the key. -/
def Kernel.counter (k : Kernel) (key : Key) : ℕ := Clients.counter k.rules key

section Counters

variable {rules : List Rule} {r : Rule} {key : Key} {ip : Ipv4Addr} {d : Direction} {t : Traffic}

@[simp] theorem counter_nil : counter [] key = 0 := rfl

theorem counter_concat :
    counter (rules ++ [r]) key = if r.key = key then r.bytes.toNat else counter rules key := by
  simp only [counter, List.foldl_append, List.foldl_cons, List.foldl_nil]

theorem counter_eq_zero (h : key ∉ rules.map Rule.key) : counter rules key = 0 := by
  induction rules using List.reverseRecOn with
  | nil => rfl
  | append_singleton rules r ih =>
    rw [List.map_append, List.mem_append, not_or, List.map_singleton, List.mem_singleton] at h
    rw [counter_concat, if_neg (Ne.symm h.2), ih h.1]

theorem le_grow (counter n : UInt64) : counter.toNat ≤ (grow counter n).toNat := by
  unfold grow
  split_ifs with h
  · exact UInt64.le_iff_toNat_le.mp h
  · exact le_refl _

@[simp] theorem Rule.key_count : (r.count t).key = r.key := rfl

theorem counter_count_le : counter rules key ≤ counter (rules.map (Rule.count t)) key := by
  induction rules using List.reverseRecOn with
  | nil => exact le_refl _
  | append_singleton rules r ih =>
    rw [List.map_append, List.map_singleton, counter_concat, counter_concat, Rule.key_count]
    split_ifs
    · exact le_grow _ _
    · exact ih

theorem listed_concat : listed (rules ++ [r]) = upsert .zero r.record r.ip (listed rules) := by
  simp only [listed, List.foldl_append, List.foldl_cons, List.foldl_nil]

theorem mem_listed : ip ∈ listed rules ↔ ∃ d, (ip, d) ∈ rules.map Rule.key := by
  induction rules using List.reverseRecOn with
  | nil => simp [listed]
  | append_singleton rules r ih =>
    rw [listed_concat, upsert, AList.mem_insert, ih, List.map_append, List.map_singleton]
    simp only [List.mem_append, List.mem_singleton, exists_or, Rule.key, Prod.mk.injEq]
    constructor
    · rintro (rfl | h)
      · exact Or.inr ⟨r.direction, rfl, rfl⟩
      · exact Or.inl h
    · rintro (h | ⟨_, rfl, _⟩)
      · exact Or.inr h
      · exact Or.inl rfl

theorem Rule.bytes_record (r : Rule) (c : ClientCounters) (d : Direction) :
    (r.record c).bytes d = if r.direction = d then r.bytes.toNat else c.bytes d := by
  obtain ⟨ip, direction, packets, bytes⟩ := r
  cases direction <;> cases d <;> rfl

theorem bytes_listed (rules : List Rule) (ip : Ipv4Addr) (d : Direction) :
    (getD (listed rules) ip .zero).bytes d = counter rules (ip, d) := by
  induction rules using List.reverseRecOn with
  | nil => exact ClientCounters.bytes_zero d
  | append_singleton rules r ih =>
    rw [listed_concat, getD_upsert, counter_concat]
    by_cases h : ip = r.ip
    · rw [if_pos h, Rule.bytes_record, ← h, ih]
      simp only [Rule.key, Prod.mk.injEq, h, true_and]
    · rw [if_neg h, ih, if_neg fun hkey => h (congrArg Prod.fst hkey).symm]

end Counters

/-! ## What the commands do to the chain -/

/-- The rules `added` have come at the end, and no other counter has gone back. -/
structure Kernel.Extends (k k' : Kernel) (added : List Key) : Prop where
  keys : k'.keys = k.keys ++ added
  counter_le : ∀ key ∉ added, k.counter key ≤ k'.counter key

namespace Kernel

variable {k k' k'' : Kernel} {added added' : List Key} {key : Key} {t : Traffic}

theorem Extends.refl (k : Kernel) : k.Extends k [] := ⟨by simp, fun _ _ => le_refl _⟩

theorem Extends.trans (h : k.Extends k' added) (h' : k'.Extends k'' added') :
    k.Extends k'' (added ++ added') := by
  refine ⟨by rw [h'.keys, h.keys, List.append_assoc], fun key hkey => ?_⟩
  rw [List.mem_append, not_or] at hkey
  exact (h.counter_le key hkey.1).trans (h'.counter_le key hkey.2)

theorem Extends.then (h : k.Extends k' added) (h' : k'.Extends k'' []) : k.Extends k'' added := by
  simpa using h.trans h'

theorem Extends.counter_le_of_fresh (h : k.Extends k' added) (hfresh : ∀ key ∈ added, key ∉ k.keys)
    (key : Key) : k.counter key ≤ k'.counter key := by
  by_cases hkey : key ∈ added
  · have hzero : k.counter key = 0 := counter_eq_zero (hfresh key hkey)
    omega
  · exact h.counter_le key hkey

@[simp] theorem rules_count : (k.count t).rules = k.rules.map (Rule.count t) := by
  unfold rules count
  cases k.chain <;> rfl

theorem extends_count : k.Extends (k.count t) [] := by
  constructor
  · simp only [keys, rules_count, List.map_map, List.append_nil]
    rfl
  · intro key _
    rw [counter, counter, rules_count]
    exact counter_count_le

theorem extends_newChain : k.Extends k.newChain.2 [] := by
  unfold newChain
  cases hchain : k.chain with
  | none =>
    refine ⟨by simp [keys, rules, hchain], fun key _ => ?_⟩
    simp [counter, rules, hchain]
  | some rules => exact Extends.refl k

theorem extends_hook : k.Extends k.hook.2 [] := by
  unfold hook
  split_ifs
  · exact ⟨by simp [keys, rules], fun _ _ => le_refl _⟩
  · exact Extends.refl k

theorem extends_append (h : (k.append key).1 = true) : k.Extends (k.append key).2 [key] := by
  unfold append at h ⊢
  cases hchain : k.chain with
  | none => simp [hchain] at h
  | some rules =>
    constructor
    · simp [keys, Kernel.rules, hchain, Rule.key]
    · intro other hother
      have hne : (⟨key.1, key.2, 0, 0⟩ : Rule).key ≠ other :=
        fun hkey : key = other => hother (hkey ▸ List.mem_singleton_self key)
      simp only [counter, Kernel.rules, hchain, Option.getD_some, counter_concat]
      rw [if_neg hne]

theorem append_snd_of_false (h : (k.append key).1 = false) : (k.append key).2 = k := by
  unfold append at h ⊢
  cases hchain : k.chain with
  | none => rfl
  | some rules => simp [hchain] at h

end Kernel

end Vlb.Clients
