import Vlb.Config
import Vlb.Lib.Transition
import Vlb.Net.Clients
import Vlb.Obs.ClientTables

/-!
# The clients loop

Every few seconds the loop takes what was observed of the clients into its live state, and collects
what is to be written: who came, who left, and the traffic that has gathered since it was last
written. The writes follow, one after another, outside the lock; any of them may fail. At shutdown
another task writes what has gathered, and the loop is then stopped at whatever it waits for.

* `ClientsConfig`, `Timing`: the settings, and the durations that the loop makes of them.
* `foldObservation`, `presence`, `bucket`, `fold`: a tick, under the lock.
* `Op`, `perform`: the writes of a tick.
* `step`: the loop, the shutdown and the restarts of the daemon; `Moves`, `step_cases`: what a step
  can do.
-/

namespace Vlb.ClientsLoop

open Clients Entries Stats Time Transition

/-! ## Settings -/

/-- The section `clients` of the configuration. -/
structure ClientsConfig where
  intervalSecs : UInt64
  persistEverySecs : UInt64
  offlineAfterSecs : UInt64
  retentionHours : UInt32
  maxTracked : ℕ

namespace ClientsConfig

/-- `ClientsConfig::default()`. -/
def default : ClientsConfig where
  intervalSecs := 5
  persistEverySecs := 60
  offlineAfterSecs := 180
  retentionHours := 168
  maxTracked := 512

/-- The part of `Config::validate` that is about these settings. -/
def validate (c : ClientsConfig) : Except String Unit := do
  bailIf (c.intervalSecs = 0) "clients.interval_secs must be >= 1"
  bailIf (c.offlineAfterSecs.toNat < min (c.intervalSecs.toNat * 3) (2 ^ 64 - 1))
    ("clients.offline_after_secs (" ++ toString c.offlineAfterSecs ++
      ") must be at least 3× clients.interval_secs (" ++ toString c.intervalSecs ++
      "), otherwise one missed reply is recorded as a disconnection")
  bailIf (c.persistEverySecs < c.intervalSecs)
    ("clients.persist_every_secs (" ++ toString c.persistEverySecs ++
      ") must be >= clients.interval_secs (" ++ toString c.intervalSecs ++ ")")
  bailIf (c.maxTracked = 0 ∨ 4096 < c.maxTracked) "clients.max_tracked must be between 1 and 4096"

theorem validate_default : default.validate = .ok () := by decide +kernel

end ClientsConfig

/-- What the loop goes by, in nanoseconds. -/
structure Timing where
  offlineAfter : ℤ
  persistEvery : ℤ
  retentionHours : UInt32
  deriving DecidableEq

/-- The seconds are taken for signed ones. -/
def ClientsConfig.timing (c : ClientsConfig) : Option Timing := do
  let offlineAfter ← TimeDelta.seconds (asI64 c.offlineAfterSecs)
  let persistEvery ← TimeDelta.seconds (asI64 (max c.persistEverySecs 1))
  return { offlineAfter, persistEvery, retentionHours := c.retentionHours }

/-- 24 hours. -/
def forgetAfter : ℤ := 24 * 3600 * nanosPerSec

/-! ## The live state -/

/-- What the daemon keeps of a client. -/
structure ClientState where
  mac : Option String
  hostname : Option String
  label : Option String
  firstSeen : DateTime
  lastSeen : DateTime
  online : Bool
  sessionId : Option ℕ
  sessionStarted : Option DateTime
  /-- Traffic since the last write. -/
  pending : ClientCounters
  pendingSince : DateTime
  deriving DecidableEq

/-- `+=`, field by field. -/
def addCounters (c d : ClientCounters) : ClientCounters where
  rxBytes := c.rxBytes + d.rxBytes
  rxPackets := c.rxPackets + d.rxPackets
  txBytes := c.txBytes + d.txBytes
  txPackets := c.txPackets + d.txPackets

namespace ClientState

/-- Of a client that has not been known. -/
def new (now : DateTime) : ClientState where
  mac := none
  hostname := none
  label := none
  firstSeen := now
  lastSeen := now
  online := false
  sessionId := none
  sessionStarted := none
  pending := .zero
  pendingSince := now

/-- Of a session that the previous run has left open. -/
def resumed (now : DateTime) (known : Option ClientRow) (row : ClientSessionRow) : ClientState where
  mac := known.bind ClientRow.mac
  hostname := known.bind ClientRow.hostname
  label := known.bind ClientRow.label
  firstSeen := (known.map ClientRow.firstSeen).getD row.startedAt
  lastSeen := now
  online := true
  sessionId := some row.id
  sessionStarted := some row.startedAt
  pending := .zero
  pendingSince := now

/-- What has been found out about the client, and whether it is news. -/
def learn (c : ClientState) (mac hostname label : Option String) : ClientState × Bool :=
  let (c, changed) := if mac.isSome ∧ c.mac ≠ mac then ({ c with mac }, true) else (c, false)
  let (c, changed) :=
    if hostname.isSome ∧ c.hostname ≠ hostname then ({ c with hostname }, true) else (c, changed)
  if c.label ≠ label then ({ c with label }, true) else (c, changed)

/-- The bytes go to the bucket. -/
def count (c : ClientState) (delta : ClientCounters) : ClientState :=
  { c with pending := addCounters c.pending delta }

/-- The client was seen, or not; whether it has come. -/
def see (c : ClientState) (now : DateTime) (seen : Bool) : ClientState × Bool :=
  if seen then
    if c.online then ({ c with lastSeen := now }, false)
    else ({ c with lastSeen := now, online := true, sessionStarted := some now }, true)
  else (c, false)

end ClientState

/-- The clients by their addresses. -/
abbrev Live := HashMap Ipv4Addr ClientState

/-- What the roster is to say of a client. -/
structure Facts where
  ip : Ipv4Addr
  mac : Option String
  hostname : Option String
  label : Option String
  deriving DecidableEq

/-- Traffic to be written, with the session that it belongs to. -/
structure Flush where
  session : Option ℕ
  row : ClientSampleRow
  deriving DecidableEq

/-! ## A tick -/

/-- What a tick goes by. -/
structure Sampled where
  now : DateTime
  observations : List ClientObservation
  /-- The hostname and the label of each of them. -/
  discovered : HashMap Ipv4Addr (Option String × Option String)

/-- What a tick collects while it goes over the clients. -/
structure Folding where
  live : Live
  discovered : HashMap Ipv4Addr (Option String × Option String)
  opens : List (Ipv4Addr × DateTime)
  upserts : List Facts

/-- The loop over the observations. -/
def foldObservation (now : DateTime) (f : Folding) (o : ClientObservation) : Folding :=
  let (hostname, label) := (f.discovered.lookup o.ip).getD (none, none)
  let fresh := (f.live.lookup o.ip).isNone
  let (c, changed) := (getD f.live o.ip (.new now)).learn o.mac hostname label
  let (c, opened) := (c.count o.delta).see now o.seen
  { live := f.live.insert o.ip c
    discovered := f.discovered.erase o.ip
    opens := if opened then f.opens ++ [(o.ip, now)] else f.opens
    upserts :=
      if fresh || changed then f.upserts ++ [⟨o.ip, c.mac, c.hostname, c.label⟩] else f.upserts }

section Passing

variable (t : Timing) (now : DateTime)

/-- Has the client not been seen for too long? -/
def timesOut (c : ClientState) : Bool :=
  c.online && decide (t.offlineAfter < now.signedDurationSince c.lastSeen)

/-- A client that is gone, and its session, which ended when it was last seen. -/
def presence (c : ClientState) : ClientState × Option (ℕ × DateTime) :=
  if timesOut t now c then
    ({ c with online := false, sessionId := none, sessionStarted := none },
      c.sessionId.map fun id => (id, c.lastSeen))
  else (c, none)

/-- The bucket is old enough to be written. -/
def isDue (c : ClientState) : Bool := decide (t.persistEvery ≤ now.signedDurationSince c.pendingSince)

/-- The bucket that is due, if there is anything in it. -/
def bucket (ip : Ipv4Addr) (c : ClientState) : Option Flush :=
  if isDue t now c && !c.pending.isZero then
    some
      { session := c.sessionId
        row :=
          { ts := now
            ip
            spanMillis := TimeDelta.numMilliseconds (now.signedDurationSince c.pendingSince)
            counters := c.pending } }
  else none

/-- What is left of a client when the loop has passed over it. -/
def pass (c : ClientState) : ClientState :=
  let c := (presence t now c).1
  if isDue t now c then { c with pending := .zero, pendingSince := now } else c

/-- The client has been gone for long. -/
def isForgotten (c : ClientState) : Bool :=
  !c.online && decide (forgetAfter < now.signedDurationSince c.lastSeen)

end Passing

/-- A bucket without bytes is not written. -/
def hasBytes (c : ClientCounters) : Bool := c.rxBytes ≠ 0 ∨ c.txBytes ≠ 0

/-- A step of the loop outside the lock. -/
inductive Op
  | upsert (facts : Facts) (now : DateTime)
  | closeSession (id : ℕ) (ended : DateTime)
  | openSession (ip : Ipv4Addr) (startedAt : DateTime)
  /-- The id of a new session is put into the live state, under the lock. -/
  | enterSession (ip : Ipv4Addr) (id : ℕ)
  | flush (f : Flush)
  /-- `ClientMonitor::forget`. -/
  | forget (ip : Ipv4Addr)
  | prune
  deriving DecidableEq

/-- The loop waits here, and may be stopped. -/
def Op.isAwait : Op → Bool
  | .enterSession .. | .forget _ => true
  | _ => false

/-- The clients that have been gone for a day. -/
def forgets (now : DateTime) (live : Live) : List Ipv4Addr :=
  (live.entries.filter fun e => isForgotten now e.2).map Sigma.fst

/-- The live state with the observations of a tick taken in. -/
def takeIn (i : Sampled) (live : Live) : Folding :=
  i.observations.foldl (foldObservation i.now) ⟨live, i.discovered, [], []⟩

/-- What is left of everyone, and whom to forget. -/
def passAll (t : Timing) (now : DateTime) (live : Live) : Live :=
  mapValues (fun _ c => pass t now c) live

/-- The sessions that a tick closes, with their ends. -/
def closes (t : Timing) (now : DateTime) (live : Live) : List (ℕ × DateTime) :=
  live.entries.filterMap fun e => (presence t now e.2).2

/-- The buckets that a tick writes. -/
def flushes (t : Timing) (now : DateTime) (live : Live) : List Flush :=
  live.entries.filterMap fun e => bucket t now e.1 (presence t now e.2).1

/-- The steps that follow, in their order. -/
def writes (t : Timing) (now : DateTime) (f : Folding) : List Op :=
  f.upserts.map (fun facts => .upsert facts now) ++
    (closes t now f.live).map (fun c => .closeSession c.1 c.2) ++
    f.opens.map (fun o => .openSession o.1 o.2) ++
    (flushes t now f.live).map .flush ++
    (forgets now (passAll t now f.live)).map .forget

/-- The live state after a tick. -/
def remaining (t : Timing) (now : DateTime) (f : Folding) : Live :=
  (forgets now (passAll t now f.live)).foldl (fun live ip => live.erase ip) (passAll t now f.live)

/-! ## The process -/

/-- How far the shutdown has come. -/
inductive Shutdown
  | running
  /-- The loops have been told to stop. -/
  | signalled
  /-- The buckets have been taken, and these are still to be written. -/
  | flushing (rest : List Flush)
  /-- The loops are stopped where they wait. -/
  | aborting
  deriving DecidableEq

/-- What a process of the daemon has in memory. -/
structure Process where
  timing : Timing
  live : Live
  lastPrune : DateTime
  /-- The steps that the current tick has left; none between two ticks. -/
  work : List Op := []
  /-- The loop has not come to its end. -/
  looping : Bool := true
  shutdown : Shutdown := .running

/-- What is recorded here of a process. The program keeps no such record. -/
structure Ledger where
  /-- What was taken into the live state. -/
  folded : List ClientObservation := []
  /-- The samples that were written. -/
  written : List ClientSampleRow := []
  /-- Those whose write failed. -/
  failed : List ClientSampleRow := []
  /-- The buckets of the clients that were forgotten. -/
  forgotten : List (Ipv4Addr × ClientCounters) := []

/-- The database, and the process if there is one. -/
structure Sys where
  db : ClientTables
  process : Option Process
  ledger : Ledger

/-- On a new database. -/
def initial : Sys := ⟨.empty, none, {}⟩

/-- The sessions that were left open, in the live state. -/
def resume (now : DateTime) (roster : HashMap Ipv4Addr ClientRow) (rows : List ClientSessionRow) : Live :=
  rows.foldl (fun live row => live.insert row.ip (.resumed now (roster.lookup row.ip) row)) ∅

/-- The buckets that the shutdown takes. -/
def takeBuckets (now : DateTime) (live : Live) : List Flush :=
  (live.entries.filter fun e => !e.2.pending.isZero).map fun e =>
    { session := e.2.sessionId
      row :=
        { ts := now
          ip := e.1
          spanMillis :=
            max (TimeDelta.numMilliseconds (now.signedDurationSince e.2.pendingSince)) 1
          counters := e.2.pending } }

/-- The buckets after they have been taken. -/
def emptied (now : DateTime) (live : Live) : Live :=
  mapValues (fun _ c => if c.pending.isZero then c else { c with pending := .zero, pendingSince := now })
    live

/-- Which of the writes of a step succeed, in turn. -/
abbrev Succeeds := Fin 3 → Bool

/-- The first of them, or the only one. -/
def Succeeds.first (ok : Succeeds) : Bool := ok 0

/-- The two writes of a bucket. -/
def writeBucket (db : ClientTables) (f : Flush) (ok : Succeeds) : ClientTables :=
  let db := if ok 0 then db.recordClientSample f.row else db
  match f.session with
  | some id =>
    if ok 1 then db.addSessionBytes id f.row.counters.rxBytes f.row.counters.txBytes else db
  | none => db

/-- A bucket has been written, or not. -/
def Ledger.bucket (l : Ledger) (f : Flush) (ok : Succeeds) : Ledger :=
  if ok 0 then { l with written := l.written ++ [f.row] } else { l with failed := l.failed ++ [f.row] }

/-- A step of the loop. `work` is what comes after it, and `clock` what the clock says. -/
def perform (s : Sys) (p : Process) (work : List Op) (ok : Succeeds) (clock : DateTime) : Op → Sys
  | .upsert f now =>
    { s with
      db := if ok 0 then s.db.upsertClient f.ip f.mac f.hostname f.label now else s.db
      process := some { p with work } }
  | .closeSession id ended =>
    { s with
      db := if ok 0 then s.db.closeClientSession id ended else s.db
      process := some { p with work } }
  | .openSession ip startedAt =>
    if ok 0 then
      { s with
        db := (s.db.openClientSession ip startedAt).2
        process := some
          { p with work := .enterSession ip (s.db.openClientSession ip startedAt).1 :: work } }
    else { s with process := some { p with work } }
  | .enterSession ip id =>
    let live :=
      match p.live.lookup ip with
      | some c => p.live.insert ip { c with sessionId := some id }
      | none => p.live
    { s with process := some { p with live, work } }
  | .flush f =>
    let db := writeBucket s.db f ok
    { db := if ok 2 then db.upsertClient f.row.ip none none none f.row.ts else db
      process := some { p with work }
      ledger := s.ledger.bucket f ok }
  | .forget _ => { s with process := some { p with work } }
  | .prune =>
    match pruneCutoff p.timing.retentionHours clock with
    | none => { s with process := none }
    | some cutoff =>
      let db := if ok 0 then s.db.pruneSamples cutoff else s.db
      { s with
        db := if ok 0 && ok 1 then db.pruneSessions cutoff else db
        process := some { p with work } }

/-- Whether a tick ends with pruning. -/
def prunes (p : Process) (now : DateTime) : Bool :=
  p.timing.retentionHours ≠ 0 ∧ 3600 < TimeDelta.numSeconds (now.signedDurationSince p.lastPrune)

/-- The part of a tick that is under the lock. -/
def fold (s : Sys) (p : Process) (i : Sampled) : Sys :=
  let f := takeIn i p.live
  let prune := prunes p i.now
  let passed := passAll p.timing i.now f.live
  { s with
    process := some
      { p with
        live := remaining p.timing i.now f
        work := writes p.timing i.now f ++ if prune then [.prune] else []
        lastPrune := if prune then i.now else p.lastPrune }
    ledger :=
      { s.ledger with
        folded := s.ledger.folded ++ i.observations
        forgotten := s.ledger.forgotten ++
          (forgets i.now passed).map fun ip => (ip, (getD passed ip (.new i.now)).pending) } }

/-- What happens, in any order. -/
inductive Event
  /-- The daemon is started. Either of the two tables that are read may be unreadable. -/
  | start (cfg : ClientsConfig) (now : DateTime) (rosterRead sessionsRead : Bool)
  /-- The process ends, for whatever reason. -/
  | stop
  | tick (i : Sampled)
  /-- The next step of the tick. -/
  | proceed (ok : Succeeds) (clock : DateTime)
  | signal
  /-- `flush_client_buckets`, under the lock. -/
  | take (now : DateTime)
  /-- The shutdown writes one of its buckets. -/
  | hand (ok : Succeeds)
  | abort
  /-- The loop is stopped where it waits. -/
  | cancel
  /-- The loop has noticed the signal between two ticks. -/
  | leave

/-- The loop waits: between two ticks, or at a step that does. -/
def Process.waits (p : Process) : Bool :=
  match p.work with
  | [] => true
  | op :: _ => op.isAwait

/-- A process takes up the clients and the sessions that it can read. -/
def start (s : Sys) (timing : Timing) (now : DateTime) (rosterRead sessionsRead : Bool) : Sys where
  db := s.db
  process := some
    { timing
      live := resume now (if rosterRead then s.db.clients else ∅)
        (if sessionsRead then s.db.openClientSessions else [])
      lastPrune := now }
  ledger := {}

/-- What a process does. -/
def run (s : Sys) (p : Process) : Event → Option Sys
  | .start .. => none
  | .stop => some { s with process := none }
  | .tick i => if p.looping && p.work.isEmpty then some (fold s p i) else none
  | .proceed ok clock =>
    match p.work with
    | op :: work => if p.looping then some (perform s p work ok clock op) else none
    | [] => none
  | .signal =>
    if p.shutdown = .running then some { s with process := some { p with shutdown := .signalled } }
    else none
  | .take now =>
    if p.shutdown = .signalled then
      some
        { s with
          process := some
            { p with live := emptied now p.live, shutdown := .flushing (takeBuckets now p.live) } }
    else none
  | .hand ok =>
    match p.shutdown with
    | .flushing (f :: rest) =>
      some
        { db := writeBucket s.db f ok
          process := some { p with shutdown := .flushing rest }
          ledger := s.ledger.bucket f ok }
    | _ => none
  | .abort =>
    if p.shutdown = .flushing [] then
      some { s with process := some { p with shutdown := .aborting } }
    else none
  | .cancel =>
    if p.shutdown = .aborting ∧ p.looping ∧ p.waits then
      some { s with process := some { p with looping := false } }
    else none
  | .leave =>
    if p.shutdown ≠ .running ∧ p.looping ∧ p.work.isEmpty then
      some { s with process := some { p with looping := false } }
    else none

/-- Only a start makes a process. -/
def step (s : Sys) (e : Event) : Option Sys :=
  match s.process, e with
  | none, .start cfg now rosterRead sessionsRead =>
    cfg.timing.map fun t => start s t now rosterRead sessionsRead
  | none, _ => none
  | some p, e => run s p e

/-- What an event makes of a process, and when. -/
inductive Moves (s : Sys) (p : Process) : Event → Sys → Prop
  | stop : Moves s p .stop { s with process := none }
  | tick {i : Sampled} (hlooping : p.looping = true) (hwork : p.work = []) :
      Moves s p (.tick i) (fold s p i)
  | proceed {op : Op} {work : List Op} {ok : Succeeds} {clock : DateTime} (hlooping : p.looping = true)
      (hwork : p.work = op :: work) : Moves s p (.proceed ok clock) (perform s p work ok clock op)
  | signal (hshutdown : p.shutdown = .running) :
      Moves s p .signal { s with process := some { p with shutdown := .signalled } }
  | take {now : DateTime} (hshutdown : p.shutdown = .signalled) :
      Moves s p (.take now)
        { s with
          process := some
            { p with live := emptied now p.live, shutdown := .flushing (takeBuckets now p.live) } }
  | hand {f : Flush} {rest : List Flush} {ok : Succeeds} (hshutdown : p.shutdown = .flushing (f :: rest)) :
      Moves s p (.hand ok)
        { db := writeBucket s.db f ok
          process := some { p with shutdown := .flushing rest }
          ledger := s.ledger.bucket f ok }
  | abort (hshutdown : p.shutdown = .flushing []) :
      Moves s p .abort { s with process := some { p with shutdown := .aborting } }
  | cancel (hshutdown : p.shutdown = .aborting) (hlooping : p.looping = true) (hwaits : p.waits = true) :
      Moves s p .cancel { s with process := some { p with looping := false } }
  | leave (hshutdown : p.shutdown ≠ .running) (hlooping : p.looping = true) (hwork : p.work = []) :
      Moves s p .leave { s with process := some { p with looping := false } }

theorem Moves.of_run {s s' : Sys} {p : Process} {e : Event} (h : run s p e = some s') :
    Moves s p e s' := by
  cases e with
  | start cfg now rosterRead sessionsRead => cases h
  | stop =>
    cases h
    exact .stop
  | tick i =>
    simp only [run, Option.ite_none_right_eq_some, Bool.and_eq_true, List.isEmpty_iff] at h
    obtain ⟨⟨hlooping, hwork⟩, heq⟩ := h
    cases heq
    exact .tick hlooping hwork
  | proceed ok clock =>
    cases hwork : p.work with
    | nil => simp [run, hwork] at h
    | cons op work =>
      simp only [run, hwork, Option.ite_none_right_eq_some] at h
      obtain ⟨hlooping, heq⟩ := h
      cases heq
      exact .proceed hlooping hwork
  | signal =>
    simp only [run, Option.ite_none_right_eq_some] at h
    obtain ⟨hshutdown, heq⟩ := h
    cases heq
    exact .signal hshutdown
  | take now =>
    simp only [run, Option.ite_none_right_eq_some] at h
    obtain ⟨hshutdown, heq⟩ := h
    cases heq
    exact .take hshutdown
  | hand ok =>
    simp only [run] at h
    split at h
    next f rest hshutdown =>
      cases h
      exact .hand hshutdown
    next => cases h
  | abort =>
    simp only [run, Option.ite_none_right_eq_some] at h
    obtain ⟨hshutdown, heq⟩ := h
    cases heq
    exact .abort hshutdown
  | cancel =>
    simp only [run, Option.ite_none_right_eq_some] at h
    obtain ⟨⟨hshutdown, hlooping, hwaits⟩, heq⟩ := h
    cases heq
    exact .cancel hshutdown hlooping hwaits
  | leave =>
    simp only [run, Option.ite_none_right_eq_some, List.isEmpty_iff] at h
    obtain ⟨⟨hshutdown, hlooping, hwork⟩, heq⟩ := h
    cases heq
    exact .leave hshutdown hlooping hwork

theorem step_cases {s s' : Sys} {e : Event} (h : step s e = some s') :
    (∃ cfg t now rosterRead sessionsRead, s.process = none ∧ cfg.timing = some t ∧
      e = .start cfg now rosterRead sessionsRead ∧ s' = start s t now rosterRead sessionsRead) ∨
    ∃ p, s.process = some p ∧ Moves s p e s' := by
  unfold step at h
  split at h
  next cfg now rosterRead sessionsRead hp =>
    obtain ⟨t, ht, rfl⟩ := Option.map_eq_some_iff.mp h
    exact Or.inl ⟨cfg, t, now, rosterRead, sessionsRead, hp, ht, rfl, rfl⟩
  next => cases h
  next p hp => exact Or.inr ⟨p, hp, .of_run h⟩

theorem folded_bucket (l : Ledger) (f : Flush) (ok : Succeeds) : (l.bucket f ok).folded = l.folded := by
  unfold Ledger.bucket
  split_ifs <;> rfl

theorem forgotten_bucket (l : Ledger) (f : Flush) (ok : Succeeds) :
    (l.bucket f ok).forgotten = l.forgotten := by
  unfold Ledger.bucket
  split_ifs <;> rfl

/-! ## A phone -/

def phone : Ipv4Addr := .ofOctets 10 0 0 60

/-- So many seconds after the epoch. -/
def moment (secs : ℕ) : DateTime := (DateTime.epoch.sub (-(secs * nanosPerSec))).getD .epoch

/-- A tick at that moment, which finds the phone, or does not, and what it has moved since. -/
def glance (secs : ℕ) (seen : Bool) (delta : ClientCounters) : Event :=
  .tick ⟨moment secs, [⟨phone, none, delta, seen⟩], ∅⟩

/-- The next step of the tick, whose writes all succeed. -/
def proceeds : Event := .proceed (fun _ => true) .epoch

/-- The phone comes, and is entered. -/
def arrival (cfg : ClientsConfig) : List Event :=
  [.start cfg (moment 0) true true, glance 5 true .zero, proceeds, proceeds, proceeds]

/-! ## What a tick makes of a client -/

section Client

variable {c : ClientState} {mac hostname label : Option String} {δ : ClientCounters}
  {now : DateTime} {seen : Bool} {t : Timing}

variable (c mac hostname label) in
theorem learn_eq : ∃ mac' hostname' label', (c.learn mac hostname label).1 =
    { c with mac := mac', hostname := hostname', label := label' } := by
  unfold ClientState.learn
  dsimp only
  split_ifs <;> exact ⟨_, _, _, rfl⟩

/-- A client after one observation. -/
def ClientState.observed (c : ClientState) (mac hostname label : Option String) (δ : ClientCounters)
    (now : DateTime) (seen : Bool) : ClientState :=
  (((c.learn mac hostname label).1.count δ).see now seen).1

variable (c mac hostname label δ now seen) in
theorem observed_eq : ∃ mac' hostname' label' started, c.observed mac hostname label δ now seen =
    { c with
      mac := mac', hostname := hostname', label := label'
      pending := addCounters c.pending δ
      online := c.online || seen
      lastSeen := if seen then now else c.lastSeen
      sessionStarted := started } := by
  obtain ⟨m, h, l, heq⟩ := learn_eq c mac hostname label
  refine ⟨m, h, l, if seen && !c.online then some now else c.sessionStarted, ?_⟩
  rw [ClientState.observed, heq]
  unfold ClientState.see ClientState.count
  cases seen <;> cases c.online <;> simp

theorem observed_sessionId : (c.observed mac hostname label δ now seen).sessionId = c.sessionId := by
  obtain ⟨m, h, l, st, heq⟩ := observed_eq c mac hostname label δ now seen
  rw [heq]

theorem observed_pending :
    (c.observed mac hostname label δ now seen).pending = addCounters c.pending δ := by
  obtain ⟨m, h, l, st, heq⟩ := observed_eq c mac hostname label δ now seen
  rw [heq]

theorem observed_online :
    (c.observed mac hostname label δ now seen).online = (c.online || seen) := by
  obtain ⟨m, h, l, st, heq⟩ := observed_eq c mac hostname label δ now seen
  rw [heq]

theorem observed_lastSeen :
    (c.observed mac hostname label δ now seen).lastSeen = if seen then now else c.lastSeen := by
  obtain ⟨m, h, l, st, heq⟩ := observed_eq c mac hostname label δ now seen
  rw [heq]

theorem see_snd :
    (((c.learn mac hostname label).1.count δ).see now seen).2 = (seen && !c.online) := by
  obtain ⟨m, h, l, heq⟩ := learn_eq c mac hostname label
  rw [heq]
  unfold ClientState.see ClientState.count
  cases seen <;> cases c.online <;> rfl

end Client

section Folding

variable {f : Folding} {o : ClientObservation} {now : DateTime} {ip : Ipv4Addr} {live : Live}
  {i : Sampled} {t : Timing}

theorem lookup_foldObservation (now : DateTime) (f : Folding) (o : ClientObservation) :
    ∃ mac hostname label, ∀ ip, (foldObservation now f o).live.lookup ip =
      if ip = o.ip then
        some ((getD f.live o.ip (.new now)).observed mac hostname label o.delta now o.seen)
      else f.live.lookup ip := by
  refine ⟨o.mac, ((f.discovered.lookup o.ip).getD (none, none)).1,
    ((f.discovered.lookup o.ip).getD (none, none)).2, fun ip => ?_⟩
  split_ifs with h
  · rw [h]
    exact AList.lookup_insert _
  · exact AList.lookup_insert_ne h

theorem opens_foldObservation (now : DateTime) (f : Folding) (o : ClientObservation) :
    (foldObservation now f o).opens =
      if o.seen && !(getD f.live o.ip (.new now)).online then f.opens ++ [(o.ip, now)]
      else f.opens := by
  rw [← see_snd]
  rfl

/-- What the observations have made of the live state. -/
structure Takes (now : DateTime) (live : Live) (f : Folding) : Prop where
  /-- Nobody gets a session, or loses one. -/
  session : ∀ ip c, f.live.lookup ip = some c →
    c.sessionId = (live.lookup ip).bind ClientState.sessionId
  /-- Nobody goes. -/
  online : ∀ ip c, live.lookup ip = some c →
    ∃ c', f.live.lookup ip = some c' ∧ (c.online = true → c'.online = true)
  /-- Those who come were not there. -/
  came : ∀ ip startedAt, (ip, startedAt) ∈ f.opens →
    (∃ c, f.live.lookup ip = some c ∧ c.online = true ∧ c.lastSeen = now) ∧
      ∀ c ∈ live.lookup ip, c.online = false
  once : (f.opens.map Prod.fst).Nodup

theorem kept_foldObservation {c : ClientState} (o : ClientObservation)
    (hc : f.live.lookup ip = some c) :
    ∃ c', (foldObservation now f o).live.lookup ip = some c' ∧
      (c.online = true → c'.online = true) ∧ (c.lastSeen = now → c'.lastSeen = now) := by
  obtain ⟨mac, hostname, label, hlookup⟩ := lookup_foldObservation now f o
  by_cases hip : ip = o.ip
  · subst hip
    have hself := getD_of_lookup hc (.new now)
    refine ⟨_, (hlookup o.ip).trans (if_pos rfl), fun honline => ?_, fun hseen => ?_⟩
    · rw [observed_online, hself, honline, Bool.true_or]
    · rw [observed_lastSeen, hself, hseen, ite_self]
  · exact ⟨c, ((hlookup ip).trans (if_neg hip)).trans hc, id, id⟩

theorem Takes.observe (h : Takes now live f) (o : ClientObservation) :
    Takes now live (foldObservation now f o) := by
  obtain ⟨mac, hostname, label, hlookup⟩ := lookup_foldObservation now f o
  have hself := (hlookup o.ip).trans (if_pos rfl)
  have hnone : f.live.lookup o.ip = none → live.lookup o.ip = none := by
    intro hc
    cases hlive : live.lookup o.ip with
    | none => rfl
    | some c =>
      obtain ⟨c', hc', -⟩ := h.online o.ip c hlive
      rw [hc] at hc'
      cases hc'
  -- Who comes by this observation was not online.
  have hoffline : (getD f.live o.ip (.new now)).online = false →
      ∀ c, f.live.lookup o.ip = some c → c.online = false := by
    intro hoff c hc
    rwa [getD_of_lookup hc] at hoff
  refine ⟨fun ip c hc => ?_, fun ip c hc => ?_, fun ip startedAt hin => ?_, ?_⟩
  · by_cases hip : ip = o.ip
    · subst hip
      rw [hself] at hc
      cases hc
      rw [observed_sessionId]
      cases hbefore : f.live.lookup o.ip with
      | some c => rw [getD_of_lookup hbefore, h.session o.ip c hbefore]
      | none =>
        rw [getD_of_lookup_none hbefore, hnone hbefore]
        rfl
    · exact h.session ip c (((hlookup ip).trans (if_neg hip)).symm.trans hc)
  · obtain ⟨c', hc', honline⟩ := h.online ip c hc
    obtain ⟨c'', hc'', honline', -⟩ := kept_foldObservation o hc'
    exact ⟨c'', hc'', fun hc => honline' (honline hc)⟩
  · have hearlier : (ip, startedAt) ∈ f.opens →
        (∃ c, (foldObservation now f o).live.lookup ip = some c ∧ c.online = true ∧
          c.lastSeen = now) ∧ ∀ c ∈ live.lookup ip, c.online = false := by
      intro hin
      obtain ⟨⟨c, hc, honline, hseen⟩, hbefore⟩ := h.came ip startedAt hin
      obtain ⟨c', hc', honline', hseen'⟩ := kept_foldObservation o hc
      exact ⟨⟨c', hc', honline' honline, hseen' hseen⟩, hbefore⟩
    rw [opens_foldObservation] at hin
    split_ifs at hin with hcome
    · rcases List.mem_append.mp hin with hin | hin
      · exact hearlier hin
      · rw [List.mem_singleton] at hin
        cases hin
        rw [Bool.and_eq_true, Bool.not_eq_true'] at hcome
        refine ⟨⟨_, hself, ?_, ?_⟩, fun c hc => ?_⟩
        · rw [observed_online, hcome.1, Bool.or_true]
        · rw [observed_lastSeen, hcome.1, if_pos rfl]
        · obtain ⟨c', hc', honline⟩ := h.online o.ip c hc
          by_contra hne
          rw [Bool.not_eq_false] at hne
          exact Bool.noConfusion ((hoffline hcome.2 c' hc').symm.trans (honline hne))
    · exact hearlier hin
  · rw [opens_foldObservation]
    split_ifs with hcome
    · rw [Bool.and_eq_true, Bool.not_eq_true'] at hcome
      rw [List.map_append, List.nodup_append']
      refine ⟨h.once, List.nodup_singleton _, fun ip hin hnew => ?_⟩
      rw [List.map_singleton, List.mem_singleton] at hnew
      subst hnew
      obtain ⟨⟨ip, startedAt⟩, hopen, hip⟩ := List.mem_map.mp hin
      obtain ⟨⟨c, hc, honline, -⟩, -⟩ := h.came ip startedAt hopen
      have hip : ip = o.ip := hip
      exact Bool.noConfusion ((hoffline hcome.2 c (hip ▸ hc)).symm.trans honline)
    · exact h.once

theorem takes_takeIn (i : Sampled) (live : Live) : Takes i.now live (takeIn i live) := by
  have hinit : Takes i.now live ⟨live, i.discovered, [], []⟩ :=
    ⟨fun ip c hc => (congrArg (Option.bind · ClientState.sessionId) hc).symm,
      fun ip c hc => ⟨c, hc, id⟩, fun ip startedAt hin => absurd hin List.not_mem_nil,
      List.nodup_nil⟩
  unfold takeIn
  generalize (⟨live, i.discovered, [], []⟩ : Folding) = f at hinit ⊢
  induction i.observations generalizing f with
  | nil => exact hinit
  | cons o observations ih => exact ih _ (hinit.observe o)

/-! ## What passing over the clients does -/

variable {c c' : ClientState} {id : ℕ} {ended : DateTime}

theorem presence_of_timesOut (h : timesOut t now c = true) : presence t now c =
    ({ c with online := false, sessionId := none, sessionStarted := none },
      c.sessionId.map fun id => (id, c.lastSeen)) := if_pos h

theorem presence_of_not_timesOut (h : timesOut t now c = false) : presence t now c = (c, none) :=
  if_neg (ne_true_of_eq_false h)

variable (t now c) in
theorem pass_eq : ∃ pending pendingSince,
    pass t now c = { (presence t now c).1 with pending, pendingSince } := by
  unfold pass
  dsimp only
  split_ifs <;> exact ⟨_, _, rfl⟩

variable (t now c) in
theorem pass_online : (pass t now c).online = (c.online && !timesOut t now c) := by
  obtain ⟨pending, since, heq⟩ := pass_eq now t c
  rw [heq]
  cases hout : timesOut t now c with
  | true => rw [presence_of_timesOut hout, Bool.not_true, Bool.and_false]
  | false => rw [presence_of_not_timesOut hout, Bool.not_false, Bool.and_true]

variable (t now c) in
theorem pass_sessionId :
    (pass t now c).sessionId = if timesOut t now c then none else c.sessionId := by
  obtain ⟨pending, since, heq⟩ := pass_eq now t c
  rw [heq]
  cases hout : timesOut t now c with
  | true => rw [presence_of_timesOut hout, if_pos rfl]
  | false => rw [presence_of_not_timesOut hout, if_neg Bool.false_ne_true]

theorem mem_forgets : ip ∈ forgets now live ↔ ∃ c, live.lookup ip = some c ∧ isForgotten now c = true := by
  simp only [forgets, List.mem_map, List.mem_filter]
  constructor
  · rintro ⟨⟨ip, c⟩, ⟨hin, hc⟩, rfl⟩
    exact ⟨c, AList.mem_lookup_iff.mpr hin, hc⟩
  · rintro ⟨c, hlookup, hc⟩
    exact ⟨⟨ip, c⟩, ⟨AList.mem_lookup_iff.mp hlookup, hc⟩, rfl⟩

theorem lookup_foldl_erase (ips : List Ipv4Addr) (live : Live) (ip : Ipv4Addr) :
    (ips.foldl (fun live ip => live.erase ip) live).lookup ip =
      if ip ∈ ips then none else live.lookup ip := by
  induction ips generalizing live with
  | nil => simp
  | cons ip' ips ih =>
    rw [List.foldl_cons, ih]
    by_cases hin : ip ∈ ips
    · rw [if_pos hin, if_pos (List.mem_cons_of_mem _ hin)]
    · rw [if_neg hin]
      by_cases hip : ip = ip'
      · rw [hip, AList.lookup_erase, if_pos List.mem_cons_self]
      · rw [AList.lookup_erase_ne hip, if_neg (by simp [hip, hin])]

theorem lookup_remaining (t : Timing) (now : DateTime) (f : Folding) (ip : Ipv4Addr) :
    (remaining t now f).lookup ip = ((f.live.lookup ip).map (pass t now)).filter fun c =>
      !isForgotten now c := by
  rw [remaining, lookup_foldl_erase, passAll, lookup_mapValues]
  cases hc : f.live.lookup ip with
  | none => simp
  | some c =>
    have hiff : ip ∈ forgets now (mapValues (fun _ c => pass t now c) f.live) ↔
        isForgotten now (pass t now c) = true := by
      rw [mem_forgets, lookup_mapValues, hc]
      simp
    cases hforgotten : isForgotten now (pass t now c) <;>
      simp [hiff, hforgotten, Option.filter_some]

theorem of_lookup_remaining (h : (remaining t now f).lookup ip = some c') :
    ∃ c, f.live.lookup ip = some c ∧ c' = pass t now c := by
  rw [lookup_remaining, Option.filter_eq_some_iff] at h
  obtain ⟨c, hc, heq⟩ := Option.map_eq_some_iff.mp h.1
  exact ⟨c, hc, heq.symm⟩

theorem mem_flushes {flush : Flush} : flush ∈ flushes t now live ↔
    ∃ ip c, live.lookup ip = some c ∧ bucket t now ip (presence t now c).1 = some flush := by
  simp only [flushes, List.mem_filterMap]
  constructor
  · rintro ⟨⟨ip, c⟩, hin, hbucket⟩
    exact ⟨ip, c, AList.mem_lookup_iff.mpr hin, hbucket⟩
  · rintro ⟨ip, c, hlookup, hbucket⟩
    exact ⟨⟨ip, c⟩, AList.mem_lookup_iff.mp hlookup, hbucket⟩

/-- A bucket is written as it was, with the session that the client still has. -/
theorem of_bucket {flush : Flush} (h : bucket t now ip c = some flush) :
    isDue t now c = true ∧ flush.session = c.sessionId ∧ flush.row.ip = ip ∧ flush.row.counters = c.pending := by
  unfold bucket at h
  split_ifs at h with hdue
  cases h
  exact ⟨(Bool.and_eq_true _ _ ▸ hdue).1, rfl, rfl, rfl⟩

variable (t now c) in
theorem presence_pending : (presence t now c).1.pending = c.pending ∧
    (presence t now c).1.pendingSince = c.pendingSince := by
  unfold presence
  split_ifs <;> exact ⟨rfl, rfl⟩

theorem mem_closes : (id, ended) ∈ closes t now live ↔
    ∃ ip c, live.lookup ip = some c ∧ timesOut t now c = true ∧ c.sessionId = some id ∧
      ended = c.lastSeen := by
  simp only [closes, List.mem_filterMap]
  constructor
  · rintro ⟨⟨ip, c⟩, hin, hclose⟩
    unfold presence at hclose
    split_ifs at hclose with hout
    obtain ⟨id', hid', heq⟩ := Option.map_eq_some_iff.mp hclose
    cases heq
    exact ⟨ip, c, AList.mem_lookup_iff.mpr hin, hout, hid', rfl⟩
  · rintro ⟨ip, c, hlookup, hout, hid, rfl⟩
    refine ⟨⟨ip, c⟩, AList.mem_lookup_iff.mp hlookup, ?_⟩
    simp only [presence, hout, if_true, hid, Option.map_some]

theorem mem_writes_closeSession {prune : List Op} (hprune : ∀ op ∈ prune, op = .prune) :
    .closeSession id ended ∈ writes t now f ++ prune ↔ (id, ended) ∈ closes t now f.live := by
  have hnot : Op.closeSession id ended ∉ prune := fun hin => Op.noConfusion (hprune _ hin)
  simp [writes, hnot]

theorem mem_writes_openSession {prune : List Op} (hprune : ∀ op ∈ prune, op = .prune) :
    .openSession ip ended ∈ writes t now f ++ prune ↔ (ip, ended) ∈ f.opens := by
  have hnot : Op.openSession ip ended ∉ prune := fun hin => Op.noConfusion (hprune _ hin)
  simp [writes, hnot]

theorem not_mem_writes_enterSession {prune : List Op}
    (hprune : ∀ op ∈ prune, op = .prune) : .enterSession ip id ∉ writes t now f ++ prune := by
  have hnot : Op.enterSession ip id ∉ prune := fun hin => Op.noConfusion (hprune _ hin)
  simp [writes, hnot]

variable (t now c) in
theorem pass_lastSeen : (pass t now c).lastSeen = c.lastSeen := by
  obtain ⟨pending, since, heq⟩ := pass_eq now t c
  rw [heq]
  unfold presence
  split_ifs <;> rfl

end Folding

/-! ## What a start makes of the table -/

section Start

variable {now : DateTime} {roster : HashMap Ipv4Addr ClientRow} {rows : List ClientSessionRow}
  {ip : Ipv4Addr}

theorem lookup_resume {c : ClientState} (h : (resume now roster rows).lookup ip = some c) :
    ∃ row ∈ rows, row.ip = ip ∧ c = .resumed now (roster.lookup row.ip) row := by
  induction rows using List.reverseRecOn with
  | nil => cases h
  | append_singleton rows row ih =>
    rw [resume, List.foldl_append, List.foldl_cons, List.foldl_nil] at h
    by_cases hip : ip = row.ip
    · subst hip
      rw [AList.lookup_insert] at h
      exact ⟨row, List.mem_append_right rows List.mem_cons_self, rfl, (Option.some.inj h).symm⟩
    · rw [AList.lookup_insert_ne hip] at h
      obtain ⟨row', hin, hrow⟩ := ih h
      exact ⟨row', List.mem_append_left [row] hin, hrow⟩

variable (now roster) in
theorem lookup_resume_isSome {row : ClientSessionRow} (h : row ∈ rows) :
    ∃ c, (resume now roster rows).lookup row.ip = some c := by
  induction rows using List.reverseRecOn with
  | nil => cases h
  | append_singleton rows row' ih =>
    rw [resume, List.foldl_append, List.foldl_cons, List.foldl_nil]
    by_cases hip : row.ip = row'.ip
    · rw [hip]
      exact ⟨_, AList.lookup_insert _⟩
    · rw [AList.lookup_insert_ne hip]
      rcases List.mem_append.mp h with hin | hin
      · exact ih hin
      · exact absurd (congrArg ClientSessionRow.ip (List.mem_singleton.mp hin)) hip

theorem mem_openClientSessions {db : ClientTables} {row : ClientSessionRow} :
    row ∈ db.openClientSessions ↔ row ∈ db.sessions.rows ∧ row.endedAt = none := by
  simp [ClientTables.openClientSessions]

end Start

end Vlb.ClientsLoop
