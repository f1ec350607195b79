import Vlb.Balancer.Clients
import Vlb.Net.HostNames

/-!
# What clients are called

A client's name comes from the operator, from the lease files, from the hosts file, or from a
reverse lookup. Lookups are slow and often find nothing, so that they are few, and remembered.

* `NameResolver.hostname`: the sources of a name, cheapest first.
* `discover`: the names of a tick, with what they cost.
* `Naming.step`: the loop over the clients, as far as names go.
* **`lookups_paced`**: how often the resolver and the files are asked, over every run.
* **`hostname_sources`**: the files that a name comes from.
* **`hostname_kept`**: a client keeps its name.
-/

namespace Vlb.ClientsLoop

open Clients Entries Stats Text Time

/-! ## Sources -/

/-- `NAME_REFRESH`. -/
def nameRefresh : ℕ := 60 * nanosPerSec

/-- `PTR_TTL`. -/
def ptrTtl : ℕ := 600 * nanosPerSec

/-- `MAX_PTR_PER_TICK`. -/
def maxPtrPerTick : ℕ := 3

/-- What the world answers while a name is looked for. Instants are in nanoseconds. -/
structure Sources where
  now : ℕ
  /-- When the files have been read. -/
  asked : ℕ
  /-- When a reverse lookup has come back. -/
  done : ℕ
  ordered : asked ≤ done
  /-- The files that can be read. -/
  file : String → Option (List Char)
  /-- What `getent hosts` prints, unless it fails or takes longer than two seconds. -/
  getent : Ipv4Addr → Option (List Char)

/-- `getent` prints the address and then the name. -/
def reverseLookup (w : Sources) (ip : Ipv4Addr) : Option String :=
  (w.getent ip).bind fun text =>
    (words text)[1]?.bind fun name =>
      if name = [] ∨ (Ipv4Addr.parse (String.ofList name)).isSome then none
      else some (String.ofList name)

/-- The names by address, as they are configured, leased and looked up. -/
structure NameResolver where
  labelsByMac : HashMap String String
  labelsByIp : HashMap Ipv4Addr String
  leaseFiles : List String
  leases : HostNames
  hosts : HostNames
  leasesReadAt : Option ℕ
  ptrCache : HashMap Ipv4Addr (Option String × ℕ)
  usePtr : Bool

namespace NameResolver

/-- Nothing has been read yet. -/
def new (labelsByMac : HashMap String String) (labelsByIp : HashMap Ipv4Addr String)
    (leaseFiles : List String) (usePtr : Bool) : NameResolver where
  labelsByMac := labelsByMac
  labelsByIp := labelsByIp
  leaseFiles := leaseFiles
  leases := ∅
  hosts := ∅
  leasesReadAt := none
  ptrCache := ∅
  usePtr := usePtr

/-- The operator's own name for a client. -/
def label (r : NameResolver) (ip : Ipv4Addr) (mac : Option String) : Option String :=
  match r.labelsByIp.lookup ip with
  | some l => some l
  | none => mac.bind fun mac => r.labelsByMac.lookup (String.ofList (toAsciiLowercase mac.toList))

/-- The files are read again. -/
def rereads (r : NameResolver) (w : Sources) : Bool :=
  !r.leasesReadAt.any fun t => w.now - t < nameRefresh

/-- The format goes by the file's name. -/
def parseLeases (path : String) (text : List Char) : HostNames :=
  if ".csv".toList.isSuffixOf path.toList then parseKeaLeases text else parseDnsmasqLeases text

/-- `HashMap::extend`: what is added counts. -/
def extend (m more : HostNames) : HostNames := more ∪ m

/-- Later lease files count, and a hosts file that cannot be read leaves its names as they were. -/
def refreshFiles (r : NameResolver) (w : Sources) : NameResolver :=
  if r.rereads w then
    { r with
      leasesReadAt := some w.now
      leases := r.leaseFiles.foldl (fun leases path =>
        ((w.file path).map fun text => extend leases (parseLeases path text)).getD leases) ∅
      hosts := ((w.file "/etc/hosts").map parseHostsFile).getD r.hosts }
  else r

/-- A reverse lookup that is still good, even if it has found nothing. -/
def cached (r : NameResolver) (w : Sources) (ip : Ipv4Addr) : Option (Option String) :=
  (r.ptrCache.lookup ip).bind fun (found, at_) =>
    if w.asked - at_ < ptrTtl then some found else none

/-- The part of `hostname` after the files: the name, what is left of the budget, and what the
resolver keeps. -/
def find (r : NameResolver) (w : Sources) (ip : Ipv4Addr) (budget : ℕ) :
    Option String × ℕ × NameResolver :=
  match (r.leases.lookup ip).or (r.hosts.lookup ip) with
  | some n => (some (shortHostname n), budget, r)
  | none =>
    if !r.usePtr then (none, budget, r)
    else
      match r.cached w ip with
      | some found => (found, budget, r)
      | none =>
        if budget = 0 then (none, budget, r)
        else
          let found := (reverseLookup w ip).map shortHostname
          (found, budget - 1, { r with ptrCache := r.ptrCache.insert ip (found, w.done) })

/-- The files are read when it is time, and then the name is looked for. -/
def hostname (r : NameResolver) (w : Sources) (ip : Ipv4Addr) (budget : ℕ) :
    Option String × ℕ × NameResolver :=
  (r.refreshFiles w).find w ip budget

/-- A fresh tick's worth of lookups. -/
def ptrBudget (r : NameResolver) : ℕ := if r.usePtr then maxPtrPerTick else 0

/-- A reverse lookup is made, with the files as they are. -/
def asks (r : NameResolver) (w : Sources) (ip : Ipv4Addr) (budget : ℕ) : Bool :=
  ((r.leases.lookup ip).or (r.hosts.lookup ip)).isNone && r.usePtr && (r.cached w ip).isNone &&
    decide (0 < budget)

variable {r : NameResolver} {w : Sources} {ip : Ipv4Addr} {budget : ℕ}

theorem refreshFiles_usePtr : (r.refreshFiles w).usePtr = r.usePtr := by
  unfold refreshFiles
  split_ifs <;> rfl

theorem refreshFiles_ptrCache : (r.refreshFiles w).ptrCache = r.ptrCache := by
  unfold refreshFiles
  split_ifs <;> rfl

theorem refreshFiles_leasesReadAt : (r.refreshFiles w).leasesReadAt =
    if r.rereads w then some w.now else r.leasesReadAt := by
  unfold refreshFiles
  split_ifs <;> rfl

/-- **What a name costs**: at most one lookup, which is remembered. -/
theorem find_spec (r : NameResolver) (w : Sources) (ip : Ipv4Addr) (budget : ℕ) :
    ∃ found, r.find w ip budget =
      if r.asks w ip budget then
        (found, budget - 1, { r with ptrCache := r.ptrCache.insert ip (found, w.done) })
      else (found, budget, r) := by
  unfold find asks
  cases (r.leases.lookup ip).or (r.hosts.lookup ip) with
  | some n => exact ⟨_, rfl⟩
  | none =>
    cases r.usePtr with
    | false => exact ⟨_, rfl⟩
    | true =>
      cases r.cached w ip with
      | some found => exact ⟨_, rfl⟩
      | none =>
        by_cases hbudget : budget = 0
        · exact ⟨none, by simp [hbudget]⟩
        · exact ⟨(reverseLookup w ip).map shortHostname,
            by simp [hbudget, Nat.pos_of_ne_zero hbudget]⟩

theorem ptrTtl_le_of_asks (h : r.asks w ip budget = true) {found : Option String} {at_ : ℕ}
    (hcache : r.ptrCache.lookup ip = some (found, at_)) : at_ + ptrTtl ≤ w.asked := by
  simp only [asks, Bool.and_eq_true, cached, hcache, Option.bind_some, Option.isNone_iff_eq_none] at h
  have hold := h.1.2
  have hpos : 0 < ptrTtl := by decide
  split_ifs at hold with hfresh
  omega

end NameResolver

/-! ## A tick -/

/-- A reverse lookup that was made. -/
structure Lookup where
  ip : Ipv4Addr
  started : ℕ
  finished : ℕ

/-- What the loop over the observations keeps. The program has no record of the lookups and of when
the files were read. -/
structure Asking where
  resolver : NameResolver
  budget : ℕ
  discovered : HashMap Ipv4Addr (Option String × Option String)
  lookups : List Lookup
  reads : List ℕ

/-- One observation. Only who has no name is looked for. -/
def askName (unnamed : Ipv4Addr → Bool) (a : Asking) (c : ClientObservation × Sources) : Asking :=
  let (o, w) := c
  let label := a.resolver.label o.ip o.mac
  if unnamed o.ip then
    let (hostname, budget, resolver) := a.resolver.hostname w o.ip a.budget
    { resolver, budget
      discovered := a.discovered.insert o.ip (hostname, label)
      lookups :=
        if (a.resolver.refreshFiles w).asks w o.ip a.budget then
          a.lookups ++ [⟨o.ip, w.asked, w.done⟩]
        else a.lookups
      reads := if a.resolver.rereads w then a.reads ++ [w.now] else a.reads }
  else { a with discovered := a.discovered.insert o.ip (none, label) }

/-- What a tick finds out about the clients that it has observed, one after the other. -/
def discover (unnamed : Ipv4Addr → Bool) (calls : List (ClientObservation × Sources)) (a : Asking) :
    Asking := calls.foldl (askName unnamed) a

/-- The loop over the clients, as far as names go. -/
structure Naming where
  resolver : NameResolver
  live : Live
  lookups : List Lookup
  reads : List ℕ

/-- What happens to the names in the live state. -/
inductive NameEvent
  /-- A tick, with what the world answers for each observation. -/
  | tick (t : Timing) (now : DateTime) (calls : List (ClientObservation × Sources))
  /-- The id of a new session is put into the live state. -/
  | enterSession (ip : Ipv4Addr) (id : ℕ)

namespace Naming

/-- The client has no name yet. -/
def unnamed (n : Naming) (ip : Ipv4Addr) : Bool := ((n.live.lookup ip).bind ClientState.hostname).isNone

/-- A tick begins with all of its budget. -/
def asking (n : Naming) (calls : List (ClientObservation × Sources)) : Asking :=
  discover n.unnamed calls ⟨n.resolver, n.resolver.ptrBudget, ∅, n.lookups, n.reads⟩

/-- A tick finds out names, takes the observations in, and forgets who is gone. -/
def step (n : Naming) : NameEvent → Naming
  | .tick t now calls =>
    let a := n.asking calls
    { resolver := a.resolver
      live := remaining t now (takeIn ⟨now, calls.map Prod.fst, a.discovered⟩ n.live)
      lookups := a.lookups
      reads := a.reads }
  | .enterSession ip id =>
    match n.live.lookup ip with
    | some c => { n with live := n.live.insert ip { c with sessionId := some id } }
    | none => n

/-- From the state `n` on. -/
def run (n : Naming) (es : List NameEvent) : Naming := es.foldl step n

theorem run_concat (n : Naming) (es : List NameEvent) (e : NameEvent) :
    n.run (es ++ [e]) = (n.run es).step e := by
  rw [run, List.foldl_append]
  rfl

end Naming

/-! ## What names cost -/

section Costs

variable {unnamed : Ipv4Addr → Bool} {a : Asking} {calls : List (ClientObservation × Sources)}

theorem askName_of_named {o : ClientObservation} (h : unnamed o.ip = false) (a : Asking)
    (w : Sources) : askName unnamed a (o, w) =
      { a with discovered := a.discovered.insert o.ip (none, a.resolver.label o.ip o.mac) } := by
  simp [askName, h]

theorem askName_of_unnamed {o : ClientObservation} (h : unnamed o.ip = true) (a : Asking)
    (w : Sources) : ∃ found, askName unnamed a (o, w) =
      if (a.resolver.refreshFiles w).asks w o.ip a.budget then
        { resolver := { a.resolver.refreshFiles w with
            ptrCache := a.resolver.ptrCache.insert o.ip (found, w.done) }
          budget := a.budget - 1
          discovered := a.discovered.insert o.ip (found, a.resolver.label o.ip o.mac)
          lookups := a.lookups ++ [⟨o.ip, w.asked, w.done⟩]
          reads := if a.resolver.rereads w then a.reads ++ [w.now] else a.reads }
      else
        { resolver := a.resolver.refreshFiles w
          budget := a.budget
          discovered := a.discovered.insert o.ip (found, a.resolver.label o.ip o.mac)
          lookups := a.lookups
          reads := if a.resolver.rereads w then a.reads ++ [w.now] else a.reads } := by
  obtain ⟨found, hfind⟩ := (a.resolver.refreshFiles w).find_spec w o.ip a.budget
  refine ⟨found, ?_⟩
  simp only [askName, h, if_true, NameResolver.hostname, hfind,
    NameResolver.refreshFiles_ptrCache]
  split_ifs <;> rfl

/-- **One observation** makes at most one lookup, for who has no name, where none is remembered. -/
theorem askName_lookup (unnamed : Ipv4Addr → Bool) (a : Asking) (o : ClientObservation)
    (w : Sources) :
    ((askName unnamed a (o, w)).lookups = a.lookups ∧
      (askName unnamed a (o, w)).budget = a.budget ∧
      (askName unnamed a (o, w)).resolver.ptrCache = a.resolver.ptrCache) ∨
    unnamed o.ip = true ∧ (a.resolver.refreshFiles w).asks w o.ip a.budget = true ∧
      (askName unnamed a (o, w)).lookups = a.lookups ++ [⟨o.ip, w.asked, w.done⟩] ∧
      (askName unnamed a (o, w)).budget = a.budget - 1 ∧
      ∃ found, (askName unnamed a (o, w)).resolver.ptrCache =
        a.resolver.ptrCache.insert o.ip (found, w.done) := by
  cases hunnamed : unnamed o.ip with
  | false =>
    rw [askName_of_named hunnamed]
    exact Or.inl ⟨rfl, rfl, rfl⟩
  | true =>
    obtain ⟨found, hask⟩ := askName_of_unnamed hunnamed a w
    by_cases hasks : (a.resolver.refreshFiles w).asks w o.ip a.budget = true
    · rw [hask, if_pos hasks]
      exact Or.inr ⟨rfl, hasks, rfl, rfl, found, rfl⟩
    · rw [hask, if_neg hasks]
      exact Or.inl ⟨rfl, rfl, NameResolver.refreshFiles_ptrCache⟩

theorem askName_read (unnamed : Ipv4Addr → Bool) (a : Asking) (o : ClientObservation) (w : Sources) :
    ((askName unnamed a (o, w)).reads = a.reads ∧
      (askName unnamed a (o, w)).resolver.leasesReadAt = a.resolver.leasesReadAt) ∨
    a.resolver.rereads w = true ∧ (askName unnamed a (o, w)).reads = a.reads ++ [w.now] ∧
      (askName unnamed a (o, w)).resolver.leasesReadAt = some w.now := by
  cases hunnamed : unnamed o.ip with
  | false =>
    rw [askName_of_named hunnamed]
    exact Or.inl ⟨rfl, rfl⟩
  | true =>
    obtain ⟨found, hask⟩ := askName_of_unnamed hunnamed a w
    have hread : (askName unnamed a (o, w)).resolver.leasesReadAt =
        (a.resolver.refreshFiles w).leasesReadAt := by
      rw [hask]
      split_ifs <;> rfl
    have hreads : (askName unnamed a (o, w)).reads =
        if a.resolver.rereads w then a.reads ++ [w.now] else a.reads := by
      rw [hask]
      split_ifs <;> rfl
    rw [hread, hreads, NameResolver.refreshFiles_leasesReadAt]
    split_ifs with hrereads
    · exact Or.inr ⟨hrereads, rfl, rfl⟩
    · exact Or.inl ⟨rfl, rfl⟩

/-- What was looked up is remembered, and was not looked up again before its time. -/
structure Remembers (cache : HashMap Ipv4Addr (Option String × ℕ)) (lookups : List Lookup) :
    Prop where
  cached : ∀ l ∈ lookups, ∃ found at_, cache.lookup l.ip = some (found, at_) ∧ l.finished ≤ at_
  spaced : lookups.Pairwise fun a b => a.ip = b.ip → a.finished + ptrTtl ≤ b.started

/-- The files were not read again before their time. -/
structure Refreshes (readAt : Option ℕ) (reads : List ℕ) : Prop where
  last : ∀ t ∈ reads, ∃ t', readAt = some t' ∧ t ≤ t'
  spaced : reads.Pairwise fun a b => a + nameRefresh ≤ b

theorem remembers_askName (h : Remembers a.resolver.ptrCache a.lookups) (o : ClientObservation)
    (w : Sources) : Remembers (askName unnamed a (o, w)).resolver.ptrCache
      (askName unnamed a (o, w)).lookups := by
  obtain ⟨hlookups, -, hcache⟩ | ⟨-, hasks, hlookups, -, found, hcache⟩ :=
    askName_lookup unnamed a o w
  · rw [hlookups, hcache]
    exact h
  · -- what is remembered of this address is too old
    have hold : ∀ l ∈ a.lookups, l.ip = o.ip → l.finished + ptrTtl ≤ w.asked := by
      intro l hl hip
      obtain ⟨found', at_, hlookup, hle⟩ := h.cached l hl
      rw [hip, ← NameResolver.refreshFiles_ptrCache (w := w)] at hlookup
      have := NameResolver.ptrTtl_le_of_asks hasks hlookup
      omega
    rw [hlookups, hcache]
    constructor
    · intro l hl
      rcases List.mem_append.mp hl with hl | hl
      · by_cases hip : l.ip = o.ip
        · have hle := hold l hl hip
          have hordered := w.ordered
          exact ⟨found, w.done, by rw [hip, AList.lookup_insert], by omega⟩
        · rw [AList.lookup_insert_ne hip]
          exact h.cached l hl
      · rw [List.mem_singleton.mp hl]
        exact ⟨found, w.done, AList.lookup_insert _, le_rfl⟩
    · refine List.pairwise_append.mpr ⟨h.spaced, List.pairwise_singleton _ _, ?_⟩
      intro l hl l' hl' hip
      rw [List.mem_singleton.mp hl'] at hip ⊢
      exact hold l hl hip

theorem refreshes_askName (h : Refreshes a.resolver.leasesReadAt a.reads) (o : ClientObservation)
    (w : Sources) : Refreshes (askName unnamed a (o, w)).resolver.leasesReadAt
      (askName unnamed a (o, w)).reads := by
  obtain ⟨hreads, hreadAt⟩ | ⟨hrereads, hreads, hreadAt⟩ := askName_read unnamed a o w
  · rw [hreads, hreadAt]
    exact h
  · have hold : ∀ t ∈ a.reads, t + nameRefresh ≤ w.now := by
      intro t ht
      obtain ⟨t', hlast, hle⟩ := h.last t ht
      have hpos : 0 < nameRefresh := by decide
      simp only [NameResolver.rereads, hlast, Option.any_some, Bool.not_eq_true',
        decide_eq_false_iff_not] at hrereads
      omega
    rw [hreads, hreadAt]
    constructor
    · intro t ht
      refine ⟨w.now, rfl, ?_⟩
      rcases List.mem_append.mp ht with ht | ht
      · have := hold t ht
        omega
      · exact (List.mem_singleton.mp ht).le
    · refine List.pairwise_append.mpr ⟨h.spaced, List.pairwise_singleton _ _, ?_⟩
      intro t ht t' ht'
      rw [List.mem_singleton.mp ht']
      exact hold t ht

theorem spends_discover (unnamed : Ipv4Addr → Bool) (a : Asking)
    (calls : List (ClientObservation × Sources)) :
    ∃ new, (discover unnamed calls a).lookups = a.lookups ++ new ∧
      new.length + (discover unnamed calls a).budget = a.budget ∧
      ∀ l ∈ new, unnamed l.ip = true := by
  induction calls generalizing a with
  | nil => exact ⟨[], by simp [discover]⟩
  | cons c calls ih =>
    obtain ⟨o, w⟩ := c
    obtain ⟨new, hnew, hbudget, hunnamed⟩ := ih (askName unnamed a (o, w))
    have hdiscover : discover unnamed ((o, w) :: calls) a =
        discover unnamed calls (askName unnamed a (o, w)) := rfl
    rw [hdiscover]
    obtain ⟨hlookups, hsame, -⟩ | ⟨ho, hasks, hlookups, hspent, -⟩ := askName_lookup unnamed a o w
    · exact ⟨new, by rw [← hlookups]; exact hnew, by rw [← hsame]; exact hbudget, hunnamed⟩
    · have hpos : 0 < a.budget := by
        simp only [NameResolver.asks, Bool.and_eq_true, decide_eq_true_eq] at hasks
        exact hasks.2
      rw [hlookups, List.append_assoc] at hnew
      rw [hspent] at hbudget
      refine ⟨[⟨o.ip, w.asked, w.done⟩] ++ new, hnew, ?_, ?_⟩
      · rw [List.length_append, List.length_singleton]
        omega
      · exact List.forall_mem_append.mpr ⟨by simpa using ho, hunnamed⟩

end Costs

namespace Naming

/-- A start of the daemon, with the clients that it has resumed. -/
def start (resolver : NameResolver) (live : Live) : Naming where
  resolver := resolver
  live := live
  lookups := []
  reads := []

theorem remembers_discover {unnamed : Ipv4Addr → Bool} {calls : List (ClientObservation × Sources)}
    {a : Asking} (h : Remembers a.resolver.ptrCache a.lookups) :
    Remembers (discover unnamed calls a).resolver.ptrCache (discover unnamed calls a).lookups := by
  induction calls generalizing a with
  | nil => exact h
  | cons c calls ih => exact ih (remembers_askName h c.1 c.2)

theorem refreshes_discover {unnamed : Ipv4Addr → Bool} {calls : List (ClientObservation × Sources)}
    {a : Asking} (h : Refreshes a.resolver.leasesReadAt a.reads) :
    Refreshes (discover unnamed calls a).resolver.leasesReadAt (discover unnamed calls a).reads := by
  induction calls generalizing a with
  | nil => exact h
  | cons c calls ih => exact ih (refreshes_askName h c.1 c.2)

theorem step_enterSession (n : Naming) (ip : Ipv4Addr) (id : ℕ) :
    ∃ live, n.step (.enterSession ip id) = { n with live := live } := by
  simp only [step]
  cases n.live.lookup ip with
  | none => exact ⟨n.live, rfl⟩
  | some c => exact ⟨_, rfl⟩

/-- The resolver remembers what it has asked, in every state that is reached. -/
theorem remembers_run (resolver : NameResolver) (live : Live) (es : List NameEvent) :
    Remembers ((start resolver live).run es).resolver.ptrCache
        ((start resolver live).run es).lookups ∧
      Refreshes ((start resolver live).run es).resolver.leasesReadAt
        ((start resolver live).run es).reads := by
  induction es using List.reverseRecOn with
  | nil =>
    exact ⟨⟨fun l hl => absurd hl List.not_mem_nil, List.Pairwise.nil⟩,
      ⟨fun t ht => absurd ht List.not_mem_nil, List.Pairwise.nil⟩⟩
  | append_singleton es e ih =>
    rw [run_concat]
    cases e with
    | tick t now calls =>
      exact ⟨remembers_discover (a := ⟨_, _, ∅, _, _⟩) ih.1,
        refreshes_discover (a := ⟨_, _, ∅, _, _⟩) ih.2⟩
    | enterSession ip id =>
      obtain ⟨live', hstep⟩ := step_enterSession ((start resolver live).run es) ip id
      rw [hstep]
      exact ih

theorem spends_step (n : Naming) (e : NameEvent) :
    ∃ new, (n.step e).lookups = n.lookups ++ new ∧ new.length ≤ maxPtrPerTick ∧
      ∀ l ∈ new, n.unnamed l.ip = true := by
  cases e with
  | tick t now calls =>
    obtain ⟨new, hnew, hbudget, hunnamed⟩ := spends_discover n.unnamed
      ⟨n.resolver, n.resolver.ptrBudget, ∅, n.lookups, n.reads⟩ calls
    have hle : n.resolver.ptrBudget ≤ maxPtrPerTick := by
      unfold NameResolver.ptrBudget
      split_ifs <;> omega
    refine ⟨new, hnew, ?_, hunnamed⟩
    simp only at hbudget
    omega
  | enterSession ip id =>
    obtain ⟨live, hstep⟩ := step_enterSession n ip id
    rw [hstep]
    exact ⟨[], (List.append_nil _).symm, Nat.zero_le _, fun l hl => absurd hl List.not_mem_nil⟩

/-- **Lookups are few**, over every run: no address is looked up again within ten minutes, and the
files are not read again within a minute. Whatever comes next makes at most three lookups, and none
for a client that has a name. -/
theorem lookups_paced (resolver : NameResolver) (live : Live) (es : List NameEvent) :
    ((start resolver live).run es).lookups.Pairwise
        (fun a b => a.ip = b.ip → a.finished + ptrTtl ≤ b.started) ∧
      ((start resolver live).run es).reads.Pairwise (fun a b => a + nameRefresh ≤ b) ∧
      ∀ e, ∃ new, (((start resolver live).run es).step e).lookups =
          ((start resolver live).run es).lookups ++ new ∧
        new.length ≤ maxPtrPerTick ∧
        ∀ l ∈ new, ((start resolver live).run es).unnamed l.ip = true :=
  have h := remembers_run resolver live es
  ⟨h.1.spaced, h.2.spaced, spends_step _⟩

end Naming

/-! ## Where names come from -/

/-- A lease file in the settings. What is in a file is told by how its path ends. -/
inductive LeaseFile (layout : Dumps.Layout DnsmasqLease DnsmasqLease.words)
  | dnsmasq (path : String) (notCsv : ".csv".toList.isSuffixOf path.toList = false)
      (d : Dumps.Dump DnsmasqLease)
      (other : ∀ l, .inr l ∈ d → '\n' ∉ l ∧ readDnsmasqLease (words l) = none)
  | kea (path : String) (csv : ".csv".toList.isSuffixOf path.toList = true) (table : KeaTable)
  /-- A table that lacks one of the two columns. -/
  | lacking (path : String) (csv : ".csv".toList.isSuffixOf path.toList = true) (text : List Char)
      (lacks : ∀ header ∈ (lines text).head?, address ∉ (header.splitOn ',').map trim ∨
        Clients.hostname ∉ (header.splitOn ',').map trim)
  /-- A file that is not there. -/
  | unreadable (path : String)

namespace LeaseFile

variable {layout : Dumps.Layout DnsmasqLease DnsmasqLease.words}

/-- Where the file is. -/
def path : LeaseFile layout → String
  | dnsmasq path _ _ _ | kea path _ _ | lacking path _ _ _ | unreadable path => path

/-- What is in it, if it can be read. -/
def text : LeaseFile layout → Option (List Char)
  | dnsmasq _ _ d _ => some (Dumps.text layout.line d)
  | kea _ _ table => some table.text
  | lacking _ _ text _ => some text
  | unreadable _ => none

/-- The names that it gives, in their order. -/
def named : LeaseFile layout → List (Ipv4Addr × String)
  | dnsmasq _ _ d _ => (Dumps.entries d).filterMap DnsmasqLease.named
  | kea _ _ table => (Dumps.entries table.rows).filterMap KeaLease.named
  | lacking .. | unreadable _ => []

end LeaseFile

theorem lookup_extend (m more : HostNames) (ip : Ipv4Addr) :
    (NameResolver.extend m more).lookup ip = (more.lookup ip).or (m.lookup ip) := by
  unfold NameResolver.extend
  cases hmore : more.lookup ip with
  | some name => rw [AList.lookup_union_left (AList.lookup_isSome.mp (by rw [hmore]; rfl)), hmore]; rfl
  | none => rw [AList.lookup_union_right (AList.lookup_eq_none.mp hmore)]; rfl

theorem lastNamed_append (named more : List (Ipv4Addr × String)) (ip : Ipv4Addr) :
    lastNamed (named ++ more) ip = (lastNamed more ip).or (lastNamed named ip) := by
  unfold lastNamed
  rw [List.filter_append, List.getLast?_append]
  cases (more.filter fun x => x.1 = ip).getLast? <;> rfl

theorem lookup_leaseFile {layout : Dumps.Layout DnsmasqLease DnsmasqLease.words}
    (f : LeaseFile layout) (leases : HostNames) (ip : Ipv4Addr) :
    ((f.text.map fun text => NameResolver.extend leases (NameResolver.parseLeases f.path text)).getD
        leases).lookup ip = (lastNamed f.named ip).or (leases.lookup ip) := by
  cases f with
  | dnsmasq path notCsv d other =>
    simp only [LeaseFile.text, LeaseFile.path, LeaseFile.named, Option.map_some, Option.getD_some]
    rw [lookup_extend, NameResolver.parseLeases, if_neg (ne_true_of_eq_false notCsv),
      lookup_parseDnsmasqLeases layout other]
  | kea path csv table =>
    simp only [LeaseFile.text, LeaseFile.path, LeaseFile.named, Option.map_some, Option.getD_some]
    rw [lookup_extend, NameResolver.parseLeases, if_pos csv, lookup_parseKeaLeases]
  | lacking path csv text lacks =>
    simp only [LeaseFile.text, LeaseFile.path, LeaseFile.named, Option.map_some, Option.getD_some]
    rw [lookup_extend, NameResolver.parseLeases, if_pos csv, parseKeaLeases_of_lacking lacks]
    rfl
  | unreadable path => rfl

section Files

variable {layout : Dumps.Layout DnsmasqLease DnsmasqLease.words} {files : List (LeaseFile layout)}
  {hostsFile : Option (Dumps.Dump HostsLine)} {w : Sources} {r : NameResolver}

theorem lookup_leases (hfiles : ∀ f ∈ files, w.file f.path = f.text) (ip : Ipv4Addr) :
    (files.map LeaseFile.path |>.foldl (fun leases path =>
      ((w.file path).map fun text =>
        NameResolver.extend leases (NameResolver.parseLeases path text)).getD leases) ∅).lookup ip =
      lastNamed (files.flatMap LeaseFile.named) ip := by
  induction files using List.reverseRecOn with
  | nil => rfl
  | append_singleton files f ih =>
    rw [List.forall_mem_append, List.forall_mem_singleton] at hfiles
    rw [List.map_append, List.foldl_append, List.map_singleton, List.foldl_cons, List.foldl_nil,
      hfiles.2, lookup_leaseFile, ih hfiles.1, List.flatMap_append, List.flatMap_singleton,
      lastNamed_append]

/-- **Where a name comes from**: it is the last one that a lease gives, over the files in their
order, or else the last one in the hosts file, as it was when it could last be read, or else what a
lookup has found not long ago, or else what a lookup finds now, if one is left. The domain is cut
off. -/
theorem hostname_sources (hrereads : r.rereads w = true)
    (hpaths : r.leaseFiles = files.map LeaseFile.path)
    (hfiles : ∀ f ∈ files, w.file f.path = f.text)
    (hhosts : w.file "/etc/hosts" = hostsFile.map (Dumps.text HostsLine.line))
    (hother : ∀ d ∈ hostsFile, ∀ l, .inr l ∈ d → '\n' ∉ l ∧ readHosts (stripReturn l) = none)
    (ip : Ipv4Addr) (budget : ℕ) :
    (r.hostname w ip budget).1 =
      (((lastNamed (files.flatMap LeaseFile.named) ip).or
        (hostsFile.elim (r.hosts.lookup ip) fun d =>
          lastNamed ((Dumps.entries d).filterMap HostsLine.named) ip)).map shortHostname).or
        (if r.usePtr then
          (r.cached w ip).getD
            (if 0 < budget then (reverseLookup w ip).map shortHostname else none)
        else none) := by
  have hleases : (r.refreshFiles w).leases.lookup ip =
      lastNamed (files.flatMap LeaseFile.named) ip := by
    rw [NameResolver.refreshFiles, if_pos hrereads, hpaths]
    exact lookup_leases hfiles ip
  have hnames : (r.refreshFiles w).hosts.lookup ip =
      hostsFile.elim (r.hosts.lookup ip) fun d =>
        lastNamed ((Dumps.entries d).filterMap HostsLine.named) ip := by
    rw [NameResolver.refreshFiles, if_pos hrereads, hhosts]
    cases hostsFile with
    | none => rfl
    | some d => exact lookup_parseHostsFile (hother d rfl) ip
  have hcached : (r.refreshFiles w).cached w ip = r.cached w ip := by
    rw [NameResolver.cached, NameResolver.refreshFiles_ptrCache]
    rfl
  rw [NameResolver.hostname, NameResolver.find, hleases, hnames, hcached,
    NameResolver.refreshFiles_usePtr]
  cases (lastNamed (files.flatMap LeaseFile.named) ip).or
      (hostsFile.elim (r.hosts.lookup ip) fun d =>
        lastNamed ((Dumps.entries d).filterMap HostsLine.named) ip) with
  | some name => rfl
  | none =>
    cases r.usePtr with
    | false => rfl
    | true =>
      cases r.cached w ip with
      | some found => rfl
      | none =>
        obtain rfl | hpos := Nat.eq_zero_or_pos budget
        · rfl
        · simp [hpos, hpos.ne']

/-- The leases of dnsmasq, with one blank between two words. -/
def dnsmasqLeases : Dumps.Layout DnsmasqLease DnsmasqLease.words :=
  .plain DnsmasqLease.isWord_words

def tablet : Ipv4Addr := .ofOctets 10 0 0 61

/-- The leases of two hosts, of which the phone has been given a name before, and a line that is cut
off. -/
def homeLeases : LeaseFile dnsmasqLeases :=
  .dnsmasq "/var/lib/misc/dnsmasq.leases" (by decide)
    [.inl ⟨⟨"1700000000".toList, by decide, by decide, by decide⟩,
      ⟨"02:42:0a:00:00:3c".toList, by decide, by decide, by decide⟩, phone,
      some ⟨"handset.lan".toList, by decide, by decide, by decide⟩, []⟩,
     .inr "1700000100 02:42:0a:00:00:3d".toList,
     .inl ⟨⟨"1700000200".toList, by decide, by decide, by decide⟩,
      ⟨"02:42:0a:00:00:3d".toList, by decide, by decide, by decide⟩, tablet, none, []⟩]
    (fun l hl => by
      simp only [List.mem_cons, reduceCtorEq, Sum.inr.injEq, List.not_mem_nil, or_false,
        false_or] at hl
      subst hl
      decide)

/-- A table that names the phone, with its columns in an order of its own. -/
def homeTable : KeaTable where
  columns := [.other "expire".toList, .hostname, .address]
  hasAddress := by decide
  hasHostname := by decide
  titles := by
    intro title htitle
    simp only [List.mem_cons, KeaColumn.other.injEq, reduceCtorEq, List.not_mem_nil, or_false] at htitle
    subst htitle
    exact ⟨⟨by decide, by decide, by decide⟩, by decide, by decide⟩
  rows := [.inr "# rotated".toList, .inl ⟨phone, "phone.lan".toList, fun _ => "1700000300".toList⟩]
  fields := by
    intro r hr
    simp only [List.mem_cons, reduceCtorEq, Sum.inl.injEq, List.not_mem_nil, or_false,
      false_or] at hr
    subst hr
    simp only [List.forall_mem_cons]
    exact ⟨⟨by decide, by decide, by decide⟩, ⟨by decide, by decide, by decide⟩,
      ⟨by decide, by decide, by decide⟩, by simp⟩
  others := by
    intro l hl
    simp only [List.mem_cons, reduceCtorEq, Sum.inr.injEq, List.not_mem_nil, or_false] at hl
    subst hl
    decide

/-- dnsmasq's leases, Kea's, and a file that is not there. -/
def homeFiles : List (LeaseFile dnsmasqLeases) :=
  [homeLeases, .kea "/var/lib/kea/kea-leases4.csv" (by decide) homeTable,
    .unreadable "/tmp/dhcp.leases"]

/-- The hosts of the house, after this machine's own names. -/
def homeHosts : Dumps.Dump HostsLine :=
  [.inl ⟨.ofOctets 127 0 0 1, "localhost".toList, [], "127.0.0.1 localhost".toList, by decide +kernel,
      ⟨by decide, by decide⟩, none, by simp⟩,
    .inr "# the house".toList,
    .inl ⟨tablet, "tablet.lan".toList, ["tablet".toList], "10.0.0.61 tablet.lan tablet ".toList,
      by decide +kernel, ⟨by decide, by decide⟩, some " upstairs".toList, by simp⟩]

/-- Nobody answers a lookup. -/
def homeSources : Sources where
  now := 0
  asked := 0
  done := 0
  ordered := le_rfl
  file := fun path =>
    if path = "/etc/hosts" then some (Dumps.text HostsLine.line homeHosts)
    else (homeFiles.find? fun f => f.path = path).bind LeaseFile.text
  getent := fun _ => none

theorem hostname_sources_home :
    ((NameResolver.new ∅ ∅ (homeFiles.map LeaseFile.path) true).hostname homeSources phone 3).1 =
        some "phone" ∧
      ((NameResolver.new ∅ ∅ (homeFiles.map LeaseFile.path) true).hostname homeSources tablet 3).1 =
        some "tablet" := by
  have hother : ∀ d ∈ some homeHosts, ∀ l, .inr l ∈ d → '\n' ∉ l ∧ readHosts (stripReturn l) = none := by
    rintro d ⟨⟩ l hl
    simp only [homeHosts, List.mem_cons, reduceCtorEq, Sum.inr.injEq, List.not_mem_nil, or_false,
      false_or] at hl
    subst hl
    decide
  have hfiles : ∀ f ∈ homeFiles, homeSources.file f.path = f.text := by
    simp only [homeFiles, List.forall_mem_cons]
    exact ⟨rfl, rfl, rfl, by simp⟩
  have hhosts : homeSources.file "/etc/hosts" = (some homeHosts).map (Dumps.text HostsLine.line) := rfl
  have hsources := fun ip => hostname_sources (r := .new ∅ ∅ (homeFiles.map LeaseFile.path) true) rfl
    rfl hfiles hhosts hother ip 3
  exact ⟨(hsources phone).trans (by decide +kernel), (hsources tablet).trans (by decide +kernel)⟩

end Files

/-! ## Names are kept -/

section Kept

variable {ip : Ipv4Addr} {c : ClientState} {name : String} {f : Folding} {live : Live}

/-- Nothing has been found out about the name of a client. -/
def NothingFound (discovered : HashMap Ipv4Addr (Option String × Option String)) (ip : Ipv4Addr) :
    Prop := ∀ d ∈ discovered.lookup ip, d.1 = none

theorem hostname_learn (c : ClientState) (mac label : Option String) :
    (c.learn mac none label).1.hostname = c.hostname := by
  unfold ClientState.learn
  dsimp only
  split_ifs <;> first | rfl | simp_all

theorem hostname_observed (c : ClientState) (mac label : Option String) (δ : ClientCounters)
    (now : DateTime) (seen : Bool) :
    (c.observed mac none label δ now seen).hostname = c.hostname := by
  rw [← hostname_learn c mac label]
  unfold ClientState.observed ClientState.see
  split_ifs <;> rfl

theorem hostname_pass (t : Timing) (now : DateTime) (c : ClientState) :
    (pass t now c).hostname = c.hostname := by
  obtain ⟨pending, since, heq⟩ := pass_eq now t c
  rw [heq]
  cases hout : timesOut t now c with
  | true => rw [presence_of_timesOut hout]
  | false => rw [presence_of_not_timesOut hout]

/-- A client has a name. -/
def Named (live : Live) (ip : Ipv4Addr) (name : String) : Prop :=
  ∃ c, live.lookup ip = some c ∧ c.hostname = some name

theorem named_foldObservation (now : DateTime) (o : ClientObservation)
    (h : Named f.live ip name) (hfound : NothingFound f.discovered ip) :
    Named (foldObservation now f o).live ip name ∧
      NothingFound (foldObservation now f o).discovered ip := by
  obtain ⟨c, hc, hname⟩ := h
  by_cases hip : ip = o.ip
  · subst hip
    have hnone : ((f.discovered.lookup o.ip).getD (none, none)).1 = none := by
      cases hd : f.discovered.lookup o.ip with
      | none => rfl
      | some d => exact hfound d hd
    refine ⟨⟨(getD f.live o.ip (.new now)).observed o.mac
      ((f.discovered.lookup o.ip).getD (none, none)).1
      ((f.discovered.lookup o.ip).getD (none, none)).2 o.delta now o.seen,
      AList.lookup_insert _, ?_⟩, ?_⟩
    · rw [hnone, hostname_observed, getD_of_lookup hc, hname]
    · intro d hd
      simp [foldObservation] at hd
  · refine ⟨⟨c, (AList.lookup_insert_ne hip).trans hc, hname⟩, ?_⟩
    intro d hd
    exact hfound d ((AList.lookup_erase_ne hip).symm.trans hd)

theorem named_takeIn (i : Sampled) (h : Named live ip name) (hfound : NothingFound i.discovered ip) :
    Named (takeIn i live).live ip name := by
  have hkept : ∀ (observations : List ClientObservation) (f : Folding), Named f.live ip name →
      NothingFound f.discovered ip →
      Named (observations.foldl (foldObservation i.now) f).live ip name := by
    intro observations
    induction observations with
    | nil => exact fun f h _ => h
    | cons o observations ih =>
      intro f h hfound
      have hstep := named_foldObservation i.now o h hfound
      exact ih _ hstep.1 hstep.2
  exact hkept i.observations ⟨live, i.discovered, [], []⟩ h hfound

theorem nothingFound_discover {unnamed : Ipv4Addr → Bool} (h : unnamed ip = false)
    (calls : List (ClientObservation × Sources)) (a : Asking) (ha : NothingFound a.discovered ip) :
    NothingFound (discover unnamed calls a).discovered ip := by
  induction calls generalizing a with
  | nil => exact ha
  | cons c calls ih =>
    obtain ⟨o, w⟩ := c
    refine ih (askName unnamed a (o, w)) ?_
    intro d hd
    by_cases hip : ip = o.ip
    · subst hip
      rw [askName_of_named h, AList.lookup_insert] at hd
      rw [← Option.mem_some_iff.mp hd]
    · refine ha d ?_
      cases ho : unnamed o.ip with
      | false =>
        rw [askName_of_named ho] at hd
        exact (AList.lookup_insert_ne hip).symm.trans hd
      | true =>
        obtain ⟨found, hask⟩ := askName_of_unnamed ho a w
        have hdiscovered : (askName unnamed a (o, w)).discovered =
            a.discovered.insert o.ip (found, a.resolver.label o.ip o.mac) := by
          rw [hask]
          split_ifs <;> rfl
        rw [hdiscovered] at hd
        exact (AList.lookup_insert_ne hip).symm.trans hd

end Kept

namespace Naming

variable {n : Naming} {ip : Ipv4Addr} {name : String}

theorem unnamed_of_named (h : Named n.live ip name) : n.unnamed ip = false := by
  obtain ⟨c, hc, hname⟩ := h
  rw [unnamed, hc, Option.bind_some, hname]
  rfl

theorem named_step (h : Named n.live ip name) (e : NameEvent)
    (hstays : ((n.step e).live.lookup ip).isSome) : Named (n.step e).live ip name := by
  cases e with
  | tick t now calls =>
    have hfound : NothingFound (n.asking calls).discovered ip :=
      nothingFound_discover (unnamed_of_named h) calls _ fun d hd => absurd hd (by simp)
    obtain ⟨c, hc, hname⟩ := named_takeIn ⟨now, calls.map Prod.fst, (n.asking calls).discovered⟩
      h hfound
    obtain ⟨c', hc'⟩ := Option.isSome_iff_exists.mp hstays
    obtain ⟨c'', hc'', rfl⟩ := of_lookup_remaining hc'
    rw [hc, Option.some.injEq] at hc''
    exact ⟨_, hc', by rw [hostname_pass, ← hc'', hname]⟩
  | enterSession ip' id =>
    obtain ⟨c, hc, hname⟩ := h
    simp only [step]
    cases hc' : n.live.lookup ip' with
    | none => exact ⟨c, hc, hname⟩
    | some c' =>
      by_cases hip : ip = ip'
      · subst hip
        rw [hc, Option.some.injEq] at hc'
        exact ⟨_, AList.lookup_insert _, by rw [← hc', hname]⟩
      · exact ⟨c, (AList.lookup_insert_ne hip).trans hc, hname⟩

/-- **A client keeps its name**, in every run and for as long as it is known, and nobody asks for
the name again. -/
theorem hostname_kept (n : Naming) (es : List NameEvent) (ip : Ipv4Addr) (name : String)
    (h : Named n.live ip name) (hstays : ∀ pre, pre <+: es → ((n.run pre).live.lookup ip).isSome) :
    Named (n.run es).live ip name ∧
      ∃ new, (n.run es).lookups = n.lookups ++ new ∧ ∀ l ∈ new, l.ip ≠ ip := by
  induction es using List.reverseRecOn with
  | nil => exact ⟨h, [], (List.append_nil _).symm, fun l hl => absurd hl List.not_mem_nil⟩
  | append_singleton es e ih =>
    obtain ⟨hnamed, new, hnew, hothers⟩ :=
      ih fun pre hpre => hstays pre (hpre.trans (List.prefix_append _ _))
    have hlast := hstays (es ++ [e]) List.prefix_rfl
    rw [run_concat] at hlast ⊢
    obtain ⟨asked, hasked, -, hunnamed⟩ := spends_step (n.run es) e
    refine ⟨named_step hnamed e hlast, new ++ asked, ?_, ?_⟩
    · rw [hasked, hnew, List.append_assoc]
    · refine List.forall_mem_append.mpr ⟨hothers, fun l hl hip => ?_⟩
      have := hunnamed l hl
      rw [hip, unnamed_of_named hnamed] at this
      exact Bool.false_ne_true this

/-- The phone is at the door, and moves some bytes. -/
def atHome : ClientObservation := ⟨phone, some "02:42:0a:00:00:3c", ⟨1500, 1, 60, 1⟩, true⟩

/-- There are no files, and a lookup finds another name. -/
def elsewhere : Sources where
  now := 700 * nanosPerSec
  asked := 700 * nanosPerSec
  done := 700 * nanosPerSec
  ordered := le_rfl
  file := fun _ => none
  getent := fun _ => some "10.0.0.60 iphone.example".toList

/-- The phone is seen twice, when the leases name it otherwise, and when a lookup would. -/
def sightings : List NameEvent :=
  let timing : Timing := ⟨60 * nanosPerSec, 300 * nanosPerSec, 720⟩
  [.tick timing (moment 10) [(atHome, homeSources)], .enterSession phone 7,
    .tick timing (moment 710) [(atHome, elsewhere)]]

/-- The phone as it was resumed. -/
def known : Naming :=
  start (.new ∅ ∅ (homeFiles.map LeaseFile.path) true)
    (AList.singleton phone { ClientState.new (moment 0) with hostname := some "kitchen" })

theorem hostname_kept_phone :
    Named (known.run sightings).live phone "kitchen" ∧
      ∃ new, (known.run sightings).lookups = known.lookups ++ new ∧ ∀ l ∈ new, l.ip ≠ phone :=
  hostname_kept known sightings phone "kitchen" ⟨_, rfl, rfl⟩ (by
    intro pre hpre
    have hpre := (List.mem_inits _ _).mpr hpre
    have hall : ∀ pre ∈ sightings.inits, ((known.run pre).live.lookup phone).isSome = true := by
      simp only [sightings, List.inits, List.map, List.forall_mem_cons]
      refine ⟨by decide +kernel, by decide +kernel, by decide +kernel, by decide +kernel, by simp⟩
    exact hall pre hpre)

end Naming

end Vlb.ClientsLoop
