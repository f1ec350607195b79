import Vlb.Balancer.TrafficTick
import Vlb.Lib.Transition
import Vlb.Net.Clients

/-!
# The time a counter was counted over

Two loops read counters and report by how much they have grown. What was read last is kept, also where
the next tick fails. The time that the growth is put down to is kept apart from it: one loop takes its
interval, the other the time since its last tick.

* `TrafficTick.samples`: what the traffic loop stores, over `trafficTick`.
* `ClientsState.tick`: the counters of the clients, with `observe` of the monitor.
* `observe_readings`: the readings that the monitor compares.
* `TrafficOnTime`, `ClientsOnTime`: no tick has failed, come late or missed a counter since the reading
  that it is compared with.
* **`exact_of_onTime`**: every sample and every rate is over the time between its readings, in runs of
  such ticks.
-/

namespace Vlb.Sampling

open Balancer Canary Entries Time Transition

/-- What the two loops read of the configuration. -/
structure Settings where
  config : Config
  /-- `traffic.interval_secs`. -/
  trafficIntervalSecs : UInt64
  /-- `clients.interval_secs`. -/
  clientsIntervalSecs : UInt64

/-- A loop's interval in nanoseconds. -/
def interval (secs : UInt64) : ℤ := (max secs.toNat 1 : ℕ) * nanosPerSec

/-! ## The interfaces and the uplinks -/

/-- A tick, and whether the database takes a row. -/
structure TrafficTick extends Tick where
  stores : Uplinks.Row → Bool

/-- A row as it is stored. -/
structure Sample where
  row : Uplinks.Row
  /-- `interval_s`, in nanoseconds. -/
  interval : ℤ
  /-- The time between the readings that the row is about. -/
  apart : Option ℤ

/-- The rows of a tick, which are stored with the loop's interval whatever has passed. -/
def TrafficTick.samples (cfg : Settings) (i : TrafficTick) (rows : List Report) : List Sample :=
  (rows.filter fun r => i.stores r.row).map fun r =>
    ⟨r.row, interval cfg.trafficIntervalSecs, r.apart⟩

/-! ## The clients -/

/-- What a call of `sample` comes upon. -/
structure Round where
  /-- Whether the chain can be set up, if it has not been. -/
  chain : Bool
  /-- The reading at startup. -/
  startup : Stamped Clients.Reading
  /-- The neighbours that are accepted, if they can be read. -/
  neighbours : Option (List Clients.Neighbour)
  counters : Stamped Clients.Reading

/-- An observation, and the two readings that it compares. -/
structure Observed where
  ip : Ipv4Addr
  delta : Clients.ClientCounters
  before : Option (Stamped Clients.ClientCounters)
  after : Stamped Clients.ClientCounters

/-- A rate is the growth divided by the elapsed time, in nanoseconds. -/
structure Rate where
  observed : Observed
  elapsed : ℤ

/-- What the client loop keeps for its rates. -/
structure ClientsState where
  lastTick : Option ℤ := none
  chainReady : Bool := false
  prev : HashMap Ipv4Addr (Stamped Clients.ClientCounters) := ∅
  /-- What the rates of the live clients were computed from. -/
  rates : HashMap Ipv4Addr Rate := ∅

/-- A turn of the client loop. -/
structure ClientTick where
  instant : ℤ
  round : Round
  /-- Clients that have been gone for too long. Their rates are set to 0. -/
  offline : List Ipv4Addr
  forgotten : List Ipv4Addr

/-- The counter of a client in a reading. -/
def counterAt (counters : Stamped Clients.Reading) (ip : Ipv4Addr) :
    Stamped Clients.ClientCounters :=
  ⟨getD counters.value ip .zero, counters.readAt⟩

/-- The growth that is reported; all there is where there is no last reading. -/
def growth (before : Option (Stamped Clients.ClientCounters))
    (after : Stamped Clients.ClientCounters) : Clients.ClientCounters :=
  match before with
  | some before => (Clients.ClientCounters.delta before.value after.value).getD .zero
  | none => after.value

/-- The loop over the candidates at the end of `sample`. -/
def observe (counters : Stamped Clients.Reading) :
    List Clients.Neighbour → HashMap Ipv4Addr (Stamped Clients.ClientCounters) →
      List Observed × HashMap Ipv4Addr (Stamped Clients.ClientCounters)
  | [], prev => ([], prev)
  | n :: candidates, prev =>
    let before := prev.lookup n.ip
    let after := counterAt counters n.ip
    let (out, prev') := observe counters candidates (prev.insert n.ip after)
    (⟨n.ip, growth before after, before, after⟩ :: out, prev')

/-- The last readings after the start of a round: where the chain is set up, the reading at startup. -/
def lastReadings (s : ClientsState) (r : Round) :
    HashMap Ipv4Addr (Stamped Clients.ClientCounters) :=
  if s.chainReady then s.prev else mapValues (fun _ c => ⟨c, r.startup.readAt⟩) r.startup.value

/-- `sample`; nothing where it fails. -/
def sample (s : ClientsState) (r : Round) : Option (List Observed) × ClientsState :=
  if !s.chainReady && !r.chain then (none, s)
  else
    let prev := lastReadings s r
    match r.neighbours with
    | none => (none, { s with chainReady := true, prev })
    | some candidates =>
      let (out, prev) := observe r.counters candidates prev
      (some out, { s with chainReady := true, prev })

/-- The time since the last tick, at least a millisecond. -/
def elapsed (cfg : Settings) (s : ClientsState) (i : ClientTick) : ℤ :=
  max ((s.lastTick.map (i.instant - ·)).getD (interval cfg.clientsIntervalSecs)) 1000000

/-- A round that fails leaves the rates, though its start is noted. -/
def ClientsState.tick (cfg : Settings) (s : ClientsState) (i : ClientTick) : ClientsState :=
  let elapsed := elapsed cfg s i
  let (observed, s) := sample { s with lastTick := some i.instant } i.round
  match observed with
  | none => s
  | some observed =>
    let rates := observed.foldl (fun rates o => rates.insert o.ip ⟨o, elapsed⟩) s.rates
    { s with
      prev := i.forgotten.foldl (fun prev ip => prev.erase ip) s.prev
      rates := (i.offline ++ i.forgotten).foldl (fun rates ip => rates.erase ip) rates }

/-! ## The two loops -/

/-- Both loops, and what has been stored of the traffic. -/
structure Sys where
  traffic : TrafficLoop
  clients : ClientsState
  stored : List Sample
  /-- The ticks before. The program keeps no record of them. -/
  lastTraffic : Option TrafficTick := none
  lastClients : Option ClientTick := none

/-- A turn of either. -/
inductive Event
  | traffic (i : TrafficTick)
  | clients (i : ClientTick)

/-- A start. -/
def initial (manage dryRun installs : Bool) (now : Instant) : Sys where
  traffic := .start manage dryRun installs now
  clients := {}
  stored := []

/-- A tick of the traffic loop. -/
def sampleTraffic (cfg : Settings) (s : Sys) (i : TrafficTick) : Sys :=
  match trafficTick cfg.config i.toTick s.traffic with
  | some (rows, traffic, _) =>
    { s with traffic, stored := s.stored ++ i.samples cfg rows, lastTraffic := some i }
  | none => { s with lastTraffic := some i }

/-- The loops do not touch each other. -/
def step (cfg : Settings) (s : Sys) : Event → Option Sys
  | .traffic i => some (sampleTraffic cfg s i)
  | .clients i => some { s with clients := s.clients.tick cfg i, lastClients := some i }

/-! ## Exactness -/

/-- The stored time is the time between the readings. -/
def Sample.Exact (r : Sample) : Prop := r.apart = some r.interval

/-- So is the time that a rate is divided by, if it is of two readings. -/
def Rate.Exact (r : Rate) : Prop :=
  ∀ before ∈ r.observed.before,
    (Clients.ClientCounters.delta before.value r.observed.after.value).isSome →
      apart before.readAt r.observed.after.readAt = some r.elapsed

/-- Every sample and every rate is over the time between its readings. -/
structure Exact (s : Sys) : Prop where
  samples : ∀ r ∈ s.stored, r.Exact
  rates : ∀ ip, ∀ r ∈ s.clients.rates.lookup ip, r.Exact

/-! ## Ticks that come on time -/

/-- One reading is so many seconds, but at least one, later than the other. -/
def SecondsLater (secs : UInt64) (before after : Option ℤ) : Prop :=
  ∃ t ∈ before, after = some (t + (max secs.toNat 1 : ℕ) * 1000000000)

/-- The uplinks are in use, and a tick finds their rules. -/
def CountsUplinks (s : TrafficLoop) (i : TrafficTick) : Prop :=
  s.counters.isSome = true ∧ i.chain.isSome = true

/-- The tick before did not fail, found the counters whose growth is reported now, and read them one
interval ago. -/
@[mk_iff]
structure TrafficOnTime (cfg : Settings) (s : Sys) (i : TrafficTick) : Prop where
  uplinks : ∀ last ∈ s.traffic.counters, ∀ curr ∈ i.chain, last.value.entries ≠ [] →
    ∃ before ∈ s.lastTraffic, before.snap.isSome = true ∧ ∃ chain ∈ before.chain,
      SecondsLater cfg.trafficIntervalSecs chain.readAt curr.readAt
  interfaces : ¬ CountsUplinks s.traffic i → ∀ snap ∈ i.snap, ∀ iface ∈ watched cfg.config,
    ∀ curr ∈ snap.value.lookup iface, ∀ last ∈ s.traffic.prev.lookup iface,
      (delta last.value curr).isSome = true →
        ∃ before ∈ s.lastTraffic, ∃ snap' ∈ before.snap, (snap'.value.lookup iface).isSome = true ∧
          SecondsLater cfg.trafficIntervalSecs snap'.readAt snap.readAt

/-- The round read the counter of the client, at least a millisecond before the other one, and both
read it equally long after their start. -/
def ReadBefore (before i : ClientTick) (ip : Ipv4Addr) : Prop :=
  (∃ listed ∈ before.round.neighbours, ip ∈ listed.map Clients.Neighbour.ip) ∧
    before.instant + 1000000 ≤ i.instant ∧
    ∃ t ∈ before.round.counters.readAt,
      i.round.counters.readAt = some (i.instant + (t - before.instant))

/-- Nobody is listed twice, and the round before did not fail and read the counters whose growth is
reported now. -/
@[mk_iff]
structure ClientsOnTime (s : Sys) (i : ClientTick) : Prop where
  once : ∀ candidates ∈ i.round.neighbours, (candidates.map Clients.Neighbour.ip).Nodup
  counters : ∀ candidates ∈ i.round.neighbours, ∀ n ∈ candidates,
    ∀ last ∈ (lastReadings s.clients i.round).lookup n.ip,
      (Clients.ClientCounters.delta last.value
          (counterAt i.round.counters n.ip).value).isSome = true →
        s.clients.chainReady = true ∧ ∃ before ∈ s.lastClients, ReadBefore before i n.ip

/-- The turn has come on time. -/
def OnTime (cfg : Settings) (s : Sys) (e : Event) (_ : Sys) : Prop :=
  match e with
  | .traffic i => TrafficOnTime cfg s i
  | .clients i => ClientsOnTime s i

/-! ## The samples -/

section Traffic

variable {cfg : Settings} {s : Sys} {i : TrafficTick}

/-- What the tick before has left. -/
structure LastRead (cfg : Settings) (s : Sys) : Prop where
  uplinks : ∀ before ∈ s.lastTraffic, before.snap.isSome = true → ∀ chain ∈ before.chain,
    ∀ last ∈ s.traffic.counters, last = chain
  interfaces : ∀ before ∈ s.lastTraffic, ∀ snap ∈ before.snap, ∀ iface ∈ watched cfg.config,
    (snap.value.lookup iface).isSome = true → s.traffic.prev.lookup iface = snap.interface iface

theorem lastRead_tick (i : TrafficTick) : LastRead cfg (sampleTraffic cfg s i) := by
  unfold sampleTraffic
  cases htick : trafficTick cfg.config i.toTick s.traffic with
  | none =>
    have hsnap : i.snap = none := Option.map_eq_none_iff.mp htick
    constructor
    · intro before hbefore hsome
      cases hbefore
      rw [hsnap] at hsome
      cases hsome
    · intro before hbefore snap hin
      cases hbefore
      rw [hsnap] at hin
      cases hin
  | some r =>
    obtain ⟨rows, l, installed⟩ := r
    obtain ⟨snap, hsnap, -, hprev, hcounters, -⟩ := trafficTick_spec htick
    constructor
    · intro before hbefore _ chain hchain last hlast
      cases hbefore
      rw [hcounters, Option.mem_def] at hlast
      rw [Option.mem_def] at hchain
      obtain ⟨hnone | hnone, -, -, -, hkept, -⟩ | ⟨prev, curr, -, hcurr, hread, -⟩ :=
        readOrInstall_cases cfg.config i.toTick s.traffic
      · rw [hkept.mpr hnone] at hlast
        cases hlast
      · rw [hnone] at hchain
        cases hchain
      · rw [hread] at hlast
        rw [hcurr] at hchain
        exact (Option.some.inj hlast).symm.trans (Option.some.inj hchain)
    · intro before hbefore snap' hsnap' iface hin hsome
      cases hbefore
      have heq : snap' = snap := Option.some.inj ((Option.mem_def.mp hsnap').symm.trans hsnap)
      have hlookup := (lookup_foldl_sampleInterface snap (nodup_watched cfg.config)
        (∅, s.traffic.prev) iface).2
      obtain ⟨c, hc⟩ := Option.isSome_iff_exists.mp hsome
      rw [if_pos hin] at hlookup
      rw [heq] at hc ⊢
      rw [hprev, hlookup, Stamped.interface, hc]
      rfl

theorem apart_of_secondsLater {before after : Option ℤ} {secs : UInt64}
    (h : SecondsLater secs before after) : apart before after = some (interval secs) := by
  obtain ⟨t, ht, rfl⟩ := h
  have hinterval : interval secs = (max secs.toNat 1 : ℕ) * 1000000000 := rfl
  rw [Option.mem_def.mp ht, apart, Option.bind_some, Option.map_some, Option.some_inj, hinterval]
  omega

theorem grown_of_lookup {snap : Stamped (HashMap String IfCounters)} {iface : String} {g : Growth}
    (h : ((watched cfg.config).foldl (sampleInterface snap)
      ((∅ : HashMap String Growth), s.traffic.prev)).1.lookup iface = some g) :
    iface ∈ watched cfg.config ∧ ∃ last curr, s.traffic.prev.lookup iface = some last ∧
      snap.value.lookup iface = some curr ∧ (delta last.value curr).isSome = true ∧
      g.apart = apart last.readAt snap.readAt := by
  rw [(lookup_foldl_sampleInterface snap (nodup_watched cfg.config) (∅, s.traffic.prev) iface).1,
    AList.lookup_empty, Option.or_none] at h
  split_ifs at h with hin
  · obtain ⟨last, hlast, h⟩ := Option.bind_eq_some_iff.mp h
    obtain ⟨curr, hcurr, h⟩ := Option.bind_eq_some_iff.mp h
    obtain ⟨c, hc, rfl⟩ := Option.map_eq_some_iff.mp hcurr
    obtain ⟨d, hd, rfl⟩ := Option.map_eq_some_iff.mp h
    exact ⟨hin, last, c, hlast, hc, Option.isSome_of_eq_some hd, rfl⟩

/-- **A tick of the traffic loop.** -/
theorem samples_exact (hread : LastRead cfg s) (h : TrafficOnTime cfg s i) {rows : List Report}
    {l : TrafficLoop} {installed : Bool}
    (htick : trafficTick cfg.config i.toTick s.traffic = some (rows, l, installed)) :
    ∀ r ∈ i.samples cfg rows, r.Exact := by
  intro r hr
  obtain ⟨report, hreport, rfl⟩ := List.mem_map.mp hr
  have hreport := List.mem_of_mem_filter hreport
  change report.apart = some (interval cfg.trafficIntervalSecs)
  obtain ⟨snap, hsnap, hrows, -⟩ := trafficTick_spec htick
  rw [hrows, reports] at hreport
  obtain ⟨hnot, hnone, hbaseline, -⟩ | ⟨last, curr, hlast, hcurr, -, -,
      ⟨-, -, hbaseline⟩ | ⟨hne, hbaseline, hsome⟩⟩ :=
    readOrInstall_cases cfg.config i.toTick s.traffic
  · rw [hbaseline, if_neg Bool.false_ne_true, hnone] at hreport
    obtain ⟨row, hrow, rfl⟩ := List.mem_map.mp hreport
    have hgrew := lookup_of_mem_trafficRows hrow
    rw [lookup_mapValues, Option.isSome_map] at hgrew
    obtain ⟨g, hg⟩ := Option.isSome_iff_exists.mp hgrew
    obtain ⟨hin, last, curr, hlast, hcurr, hd, happart⟩ := grown_of_lookup hg
    have hcounts : ¬ CountsUplinks s.traffic i := by
      rintro ⟨hcounters, hchain⟩
      rcases hnot with hnot | hnot
      · rw [hnot] at hcounters
        cases hcounters
      · rw [hnot] at hchain
        cases hchain
    obtain ⟨before, hbefore, snap', hsnap', hfound, hlater⟩ :=
      h.interfaces hcounts snap hsnap _ hin curr hcurr last hlast hd
    have hprev := hread.interfaces before hbefore snap' hsnap' _ hin hfound
    obtain ⟨c, hc⟩ := Option.isSome_iff_exists.mp hfound
    rw [hlast, Stamped.interface, hc, Option.map_some, Option.some_inj] at hprev
    rw [hprev] at happart
    rw [hg, Option.bind_some, happart]
    exact apart_of_secondsLater hlater
  · rw [hbaseline, if_pos rfl] at hreport
    cases hreport
  · rw [hbaseline, if_neg Bool.false_ne_true, hsome] at hreport
    obtain ⟨row, -, rfl⟩ := List.mem_map.mp hreport
    obtain ⟨before, hbefore, hfound, chain, hchain, hlater⟩ := h.uplinks last hlast curr hcurr hne
    rw [hread.uplinks before hbefore hfound chain hchain last hlast]
    exact apart_of_secondsLater hlater

end Traffic

/-! ## The rates -/

section Rates

variable {cfg : Settings} {s : ClientsState} {i : ClientTick}
  {counters : Stamped Clients.Reading} {candidates : List Clients.Neighbour}
  {prev : HashMap Ipv4Addr (Stamped Clients.ClientCounters)} {ip : Ipv4Addr}

/-- The readings that the monitor compares: it reports the same growth of the same clients, and keeps
the same counters. -/
theorem observe_readings {m : Clients.ClientMonitor}
    (hprev : ∀ ip, m.prev.lookup ip = (prev.lookup ip).map Stamped.value) :
    ((m.observe counters.value candidates).1.map fun o => (o.ip, o.delta)) =
        (observe counters candidates prev).1.map (fun o => (o.ip, o.delta)) ∧
      ∀ ip, (m.observe counters.value candidates).2.prev.lookup ip =
        ((observe counters candidates prev).2.lookup ip).map Stamped.value := by
  induction candidates generalizing m prev with
  | nil => exact ⟨rfl, hprev⟩
  | cons n candidates ih =>
    have hdelta : m.difference counters.value n.ip =
        growth (prev.lookup n.ip) (counterAt counters n.ip) := by
      unfold Clients.ClientMonitor.difference growth
      rw [hprev]
      cases prev.lookup n.ip <;> rfl
    have hkept : ∀ ip, (m.prev.insert n.ip (getD counters.value n.ip .zero)).lookup ip =
        ((prev.insert n.ip (counterAt counters n.ip)).lookup ip).map Stamped.value := by
      intro ip
      by_cases hip : ip = n.ip
      · rw [hip, AList.lookup_insert, AList.lookup_insert]
        rfl
      · rw [AList.lookup_insert_ne hip, AList.lookup_insert_ne hip, hprev]
    obtain ⟨hout, hlast⟩ := ih (m := { m with
      prev := m.prev.insert n.ip (getD counters.value n.ip .zero) }) hkept
    refine ⟨?_, hlast⟩
    rw [Clients.ClientMonitor.observe, observe]
    simp only [List.map_cons, hout, hdelta]

/-- A client that is listed once is compared with its last reading before the round. -/
theorem mem_observe (hnodup : (candidates.map Clients.Neighbour.ip).Nodup) {o : Observed}
    (ho : o ∈ (observe counters candidates prev).1) : ∃ n ∈ candidates,
      o.before = prev.lookup n.ip ∧ o.after = counterAt counters n.ip := by
  induction candidates generalizing prev with
  | nil => exact absurd ho List.not_mem_nil
  | cons n candidates ih =>
    rw [List.map_cons, List.nodup_cons] at hnodup
    rcases List.mem_cons.mp ho with rfl | ho
    · exact ⟨n, List.mem_cons_self, rfl, rfl⟩
    · obtain ⟨n', hn', hbefore, hafter⟩ := ih hnodup.2 ho
      refine ⟨n', List.mem_cons_of_mem _ hn', ?_, hafter⟩
      have hne : n'.ip ≠ n.ip := fun h => hnodup.1 (h ▸ List.mem_map_of_mem hn')
      rw [hbefore, AList.lookup_insert_ne hne]

theorem lookup_rates {observed : List Observed} {elapsed : ℤ} {rates : HashMap Ipv4Addr Rate} {r : Rate}
    (h : (observed.foldl (fun rates o => rates.insert o.ip ⟨o, elapsed⟩) rates).lookup ip = some r) :
    rates.lookup ip = some r ∨ ∃ o ∈ observed, r = ⟨o, elapsed⟩ := by
  induction observed generalizing rates with
  | nil => exact Or.inl h
  | cons o observed ih =>
    rcases ih h with h | ⟨o', ho', rfl⟩
    · by_cases hip : ip = o.ip
      · rw [hip, AList.lookup_insert, Option.some_inj] at h
        exact Or.inr ⟨o, List.mem_cons_self, h.symm⟩
      · rw [AList.lookup_insert_ne hip] at h
        exact Or.inl h
    · exact Or.inr ⟨o', List.mem_cons_of_mem _ ho', rfl⟩

theorem lookup_erased {ν : Type} {ips : List Ipv4Addr} {m : HashMap Ipv4Addr ν} {v : ν}
    (h : (ips.foldl (fun m ip => m.erase ip) m).lookup ip = some v) : m.lookup ip = some v := by
  induction ips generalizing m with
  | nil => exact h
  | cons gone ips ih =>
    have h := ih h
    by_cases hip : ip = gone
    · rw [hip, AList.lookup_erase] at h
      cases h
    · rwa [AList.lookup_erase_ne hip] at h

/-- What the round before has left of a client that it has read. -/
def LastRound (s : Sys) : Prop :=
  ∀ before ∈ s.lastClients, s.clients.lastTick = some before.instant ∧
    (s.clients.chainReady = true → ∀ listed ∈ before.round.neighbours,
      ∀ ip ∈ listed.map Clients.Neighbour.ip, ∀ last ∈ s.clients.prev.lookup ip,
        last = counterAt before.round.counters ip)

theorem lookup_observe (h : ip ∈ candidates.map Clients.Neighbour.ip) :
    (observe counters candidates prev).2.lookup ip = some (counterAt counters ip) := by
  have hkept : ∀ (candidates : List Clients.Neighbour)
      (prev : HashMap Ipv4Addr (Stamped Clients.ClientCounters)),
      prev.lookup ip = some (counterAt counters ip) →
        (observe counters candidates prev).2.lookup ip = some (counterAt counters ip) := by
    intro candidates
    induction candidates with
    | nil => exact fun prev h => h
    | cons n candidates ih =>
      intro prev hprev
      refine ih _ ?_
      by_cases hip : ip = n.ip
      · rw [hip, AList.lookup_insert]
      · rw [AList.lookup_insert_ne hip, hprev]
  induction candidates generalizing prev with
  | nil => cases h
  | cons n candidates ih =>
    rcases List.mem_cons.mp h with rfl | h
    · exact hkept candidates _ (AList.lookup_insert _)
    · exact ih h

theorem lastRound_tick (cfg : Settings) (s : Sys) (i : ClientTick) :
    LastRound { s with clients := s.clients.tick cfg i, lastClients := some i } := by
  intro before hbefore
  cases hbefore
  dsimp only
  unfold ClientsState.tick sample
  dsimp only
  split_ifs with hchain
  · refine ⟨rfl, fun hready => ?_⟩
    rw [Bool.and_eq_true, Bool.not_eq_true', Bool.not_eq_true'] at hchain
    exact absurd hready (ne_true_of_eq_false hchain.1)
  · cases hneighbours : i.round.neighbours with
    | none => exact ⟨rfl, fun _ listed hlisted => by cases hlisted⟩
    | some candidates =>
      refine ⟨rfl, fun _ listed hlisted ip hip last hlast => ?_⟩
      cases hlisted
      have hlast := lookup_erased (Option.mem_def.mp hlast)
      rw [lookup_observe hip] at hlast
      exact (Option.some.inj hlast).symm

/-- **A tick of the client loop.** -/
theorem rates_exact {s : Sys} (hround : LastRound s) (h : ClientsOnTime s i)
    (hrates : ∀ ip, ∀ r ∈ s.clients.rates.lookup ip, r.Exact) :
    ∀ ip, ∀ r ∈ (s.clients.tick cfg i).rates.lookup ip, r.Exact := by
  intro ip r hr
  have hprev : lastReadings { s.clients with lastTick := some i.instant } i.round =
    lastReadings s.clients i.round := rfl
  unfold ClientsState.tick sample at hr
  rw [hprev] at hr
  dsimp only at hr
  split_ifs at hr with hchain
  · exact hrates ip r hr
  · cases hneighbours : i.round.neighbours with
    | none => rw [hneighbours] at hr; exact hrates ip r hr
    | some candidates =>
      rw [hneighbours] at hr
      rcases lookup_rates (lookup_erased hr) with hr | ⟨o, ho, rfl⟩
      · exact hrates ip r hr
      · obtain ⟨n, hn, hbefore, hafter⟩ := mem_observe (h.once candidates hneighbours) ho
        intro last hlast hgrew
        rw [hbefore] at hlast
        rw [hafter] at hgrew ⊢
        obtain ⟨hready, before, hlastRound, ⟨listed, hlisted, hin⟩, hms, t, ht, hnow⟩ :=
          h.counters candidates hneighbours n hn last hlast hgrew
        obtain ⟨htick, hkept⟩ := hround before hlastRound
        rw [lastReadings, if_pos hready] at hlast
        rw [hkept hready listed hlisted n.ip hin last hlast]
        change apart before.round.counters.readAt i.round.counters.readAt =
          some (elapsed cfg s.clients i)
        rw [Option.mem_def.mp ht, hnow, apart, Option.bind_some, Option.map_some, Option.some_inj, elapsed, htick,
          Option.map_some, Option.getD_some]
        omega

end Rates

/-- What holds in every state of a run of ticks that come on time. -/
structure Steady (cfg : Settings) (s : Sys) : Prop where
  exactSoFar : Exact s
  read : LastRead cfg s
  round : LastRound s

theorem steady_step {cfg : Settings} {s t : Sys} {e : Event} (h : Steady cfg s)
    (hstep : step cfg s e = some t) (honTime : OnTime cfg s e t) : Steady cfg t := by
  cases e with
  | traffic i =>
    cases hstep
    refine ⟨?_, lastRead_tick i, ?_⟩
    · unfold sampleTraffic
      cases htick : trafficTick cfg.config i.toTick s.traffic with
      | none => exact ⟨h.exactSoFar.samples, h.exactSoFar.rates⟩
      | some r =>
        obtain ⟨rows, l, installed⟩ := r
        refine ⟨fun r hr => ?_, h.exactSoFar.rates⟩
        rcases List.mem_append.mp hr with hr | hr
        · exact h.exactSoFar.samples r hr
        · exact samples_exact h.read honTime htick r hr
    · have hclients : (sampleTraffic cfg s i).clients = s.clients ∧
          (sampleTraffic cfg s i).lastClients = s.lastClients := by
        unfold sampleTraffic
        split <;> exact ⟨rfl, rfl⟩
      intro before hbefore
      rw [hclients.2] at hbefore
      rw [hclients.1]
      exact h.round before hbefore
  | clients i =>
    cases hstep
    exact ⟨⟨h.exactSoFar.samples, rates_exact h.round honTime h.exactSoFar.rates⟩,
      ⟨h.read.uplinks, h.read.interfaces⟩, lastRound_tick cfg s i⟩

/-- **Rates use the time the bytes were counted over**, in runs in which no tick has failed, come late
or missed a counter since the reading that it is compared with. -/
theorem exact_of_onTime {cfg : Settings} {manage dryRun installs : Bool} {now : Instant}
    {es : List Event} {s : Sys} (hrun : Run (step cfg) (initial manage dryRun installs now) es s)
    (honTime : AllSteps (step cfg) (OnTime cfg) (initial manage dryRun installs now) es) :
    Exact s := by
  have hinitial : Steady cfg (initial manage dryRun installs now) := by
    refine ⟨⟨fun r hr => ?_, fun ip r hr => ?_⟩, ⟨fun before hbefore => ?_, fun before hbefore => ?_⟩,
      fun before hbefore => ?_⟩
    · cases hr
    · cases hr
    · cases hbefore
    · cases hbefore
    · cases hbefore
  exact (hrun.invariant (fun _ _ _ h hstep honTime => steady_step h hstep honTime) honTime
    hinitial).exactSoFar

/-! ## A gateway -/

/-- Two uplinks, which are sampled every two seconds, and clients every five. -/
def gateway : Settings := ⟨Config.twoUplinks, 2, 5⟩

/-- A start at the first instant, with rules for the uplinks. -/
def started : Sys := initial true false true Instant.start

/-- A tick that finds these bytes on `eth0`, and as many under the first mark, or cannot read the
counters. -/
def reading (secs : UInt64) (bytes marked : Option UInt64) : Event :=
  .traffic {
    now := ⟨secs.toNat * nanosPerSec, Duration.secs_inRange secs⟩
    snap := bytes.map fun n => ⟨AList.insert "eth0" ⟨n, 0, 0, 0⟩ ∅, some (secs.toNat * nanosPerSec)⟩
    chain := marked.map fun n =>
      ⟨AList.insert (some 0x200) ⟨n, 0, 0, 0⟩ ∅, some (secs.toNat * nanosPerSec)⟩
    installs := true
    active := none
    stores := fun _ => true }

def phone : Ipv4Addr := .ofOctets 10 0 0 60

/-- A tick that finds the phone with these bytes, or cannot read the neighbours. -/
def listing (secs : ℕ) (bytes : Option UInt64) : Event :=
  .clients {
    instant := secs * nanosPerSec
    round := {
      chain := true
      startup := ⟨∅, some 0⟩
      neighbours := bytes.map fun _ => [⟨phone, none, true, false⟩]
      counters := ⟨AList.insert phone ⟨bytes.getD 0, 0, 0, 0⟩ ∅, some (secs * nanosPerSec)⟩ }
    offline := []
    forgotten := [] }

instance (secs : UInt64) (before after : Option ℤ) : Decidable (SecondsLater secs before after) :=
  inferInstanceAs (Decidable (∃ t ∈ before, _))

instance (s : TrafficLoop) (i : TrafficTick) : Decidable (CountsUplinks s i) :=
  inferInstanceAs (Decidable (_ ∧ _))

instance (before i : ClientTick) (ip : Ipv4Addr) : Decidable (ReadBefore before i ip) :=
  inferInstanceAs (Decidable ((∃ listed ∈ before.round.neighbours, _) ∧ _ ∧ ∃ t ∈ _, _))

instance (cfg : Settings) (s : Sys) (e : Event) (t : Sys) : Decidable (OnTime cfg s e t) :=
  match e with
  | .traffic i => decidable_of_iff _ (trafficOnTime_iff cfg s i).symm
  | .clients i => decidable_of_iff _ (clientsOnTime_iff s i).symm

/-- Ticks that come on time: one whose rows are by interface, one that finds the rules for the first
time, and one whose rows are by uplink. -/
def onTime : List Event :=
  [reading 0 (some 100) none, reading 2 (some 300) none, reading 4 (some 400) (some 7),
    reading 6 (some 500) (some 107), listing 0 (some 0), listing 5 (some 40)]

theorem exact_onTime : ∃ s, Run (step gateway) started onTime s ∧
    s.stored.map (fun r => (r.row.provider, r.row.delta.rxBytes, r.interval)) =
        [("fibre", 200, 2000000000), ("fibre", 100, 2000000000), ("lte", 0, 2000000000)] ∧
      (s.clients.rates.lookup phone).map (fun r => (r.observed.delta.rxBytes, r.elapsed)) =
        some (40, 5000000000) ∧ Exact s := by
  have hsome : (exec (step gateway) started onTime).isSome = true := by decide +kernel
  have hrun := run_get hsome
  refine ⟨_, hrun, Run.of_all
      (P := fun s => s.stored.map (fun r => (r.row.provider, r.row.delta.rxBytes, r.interval)) =
        [("fibre", 200, 2000000000), ("fibre", 100, 2000000000), ("lte", 0, 2000000000)])
      (by decide +kernel) hrun,
    Run.of_all (P := fun s => (s.clients.rates.lookup phone).map
      (fun r => (r.observed.delta.rxBytes, r.elapsed)) = some (40, 5000000000)) (by decide +kernel) hrun, ?_⟩
  exact exact_of_onTime hrun
    (allSteps_of_check (c := fun s e t => decide (OnTime gateway s e t)) (fun _ _ _ => of_decide_eq_true)
      (by decide +kernel))

/-- Where one tick in between fails, the next one reports what has passed in two intervals. -/
def failedTick : List Event :=
  [reading 0 (some 100) none, reading 2 none none, reading 4 (some 300) none,
    listing 0 (some 0), listing 5 none, listing 10 (some 40)]

/-- A sample over four seconds is stored as one over two, and what a client has moved in ten seconds
is divided by five. -/
theorem not_exact_failedTick :
    (¬ ∀ cfg manage dryRun installs now es s,
      Run (step cfg) (initial manage dryRun installs now) es s → ∀ r ∈ s.stored, r.Exact) ∧
      ¬ ∀ cfg manage dryRun installs now es s,
        Run (step cfg) (initial manage dryRun installs now) es s →
          ∀ ip, ∀ r ∈ s.clients.rates.lookup ip, r.Exact := by
  have hsome : (exec (step gateway) started failedTick).isSome = true := by decide +kernel
  have hrun := run_get hsome
  constructor
  · intro hall
    have hstored := Run.of_all (P := fun s => s.stored.map (fun r => (r.apart, r.interval)) =
      [(some 4000000000, 2000000000)]) (by decide +kernel) hrun
    obtain ⟨r, hr, hvalues⟩ := List.map_eq_singleton_iff.mp hstored
    have hexact := hall _ _ _ _ _ _ _ hrun r (hr ▸ List.mem_singleton_self r)
    rw [Prod.mk.injEq] at hvalues
    rw [Sample.Exact, hvalues.1, hvalues.2] at hexact
    exact absurd hexact (by decide)
  · intro hall
    have hrate := Run.of_all (P := fun s => (s.clients.rates.lookup phone).map
      (fun r => (r.observed.before, r.observed.after, r.elapsed)) =
        some (some ⟨⟨0, 0, 0, 0⟩, some 0⟩, ⟨⟨40, 0, 0, 0⟩, some 10000000000⟩, 5000000000))
      (by decide +kernel) hrun
    obtain ⟨r, hr, hvalues⟩ := Option.map_eq_some_iff.mp hrate
    simp only [Prod.mk.injEq] at hvalues
    obtain ⟨hbefore, hafter, helapsed⟩ := hvalues
    have hexact := hall _ _ _ _ _ _ _ hrun phone r hr _ hbefore (by rw [hafter]; decide)
    rw [hafter, helapsed] at hexact
    exact absurd hexact (by decide)

end Vlb.Sampling
