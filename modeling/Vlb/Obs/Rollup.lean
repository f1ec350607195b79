import Vlb.Lib.Spans
import Vlb.Obs.Windows

/-!
# What the clients did in a window

The dashboard asks for the bytes, the disconnections and the connected time of each client.

* `clientRollup`: two queries over texts, and the clamping of each session to the window.
* `Rollup`: what each client is to have, in terms of the times.
* `entry_addSession`: the sessions of a client, one after the other.
* **`clientRollup_law`**: where the window starts before the year 10000 and nothing overflows, the
  clients have it.
-/

namespace Vlb.Stats

open Time Entries

/-! ## The rollup -/

/-- A row of `client_samples`, without its time. -/
structure Sample where
  ip : String
  rxBytes : ℤ
  txBytes : ℤ

/-- What the window has of a client. -/
structure ClientRollup where
  rxBytes : ℤ := 0
  txBytes : ℤ := 0
  /-- Sessions that ended inside the window. -/
  disconnects : ℤ := 0
  /-- Seconds the client was present inside the window. -/
  onlineSecs : ℤ := 0
  deriving DecidableEq

/-- A text that is no time reads as the time of reading. -/
def parseTs (read : String → Option DateTime) (clock : DateTime) (raw : String) : DateTime :=
  (read raw).getD clock

def Session.parsed (parse : String → DateTime) (s : Session String) : Session DateTime where
  ip := s.ip
  startedAt := parse s.startedAt
  endedAt := s.endedAt.map parse

/-- `SELECT ip, COALESCE(SUM(rx_bytes),0), COALESCE(SUM(tx_bytes),0) … GROUP BY ip` -/
def volumes (samples : List Sample) : Except StatsError (List (String × ℤ × ℤ)) :=
  (samples.map Sample.ip).dedup.mapM fun ip => do
    let own := samples.filter fun s => s.ip = ip
    return (ip, ← sqlSum (own.map Sample.rxBytes), ← sqlSum (own.map Sample.txBytes))

/-- `+=` on an `i64`, which wraps in a release. -/
def addI64 (a b : ℤ) : ℤ := (a + b).bmod (2 ^ 64)

/-- What a session adds to the entry of its client. -/
def addSession (cutoff now : DateTime) (s : Session DateTime) (e : ClientRollup) : ClientRollup :=
  let first := if s.startedAt ≤ cutoff then cutoff else s.startedAt
  let last := if now ≤ s.endedAt.getD now then now else s.endedAt.getD now
  let secs := TimeDelta.numSeconds (last.signedDurationSince first)
  let e := if last ≤ first then e else { e with onlineSecs := addI64 e.onlineSecs secs }
  if s.endedAt.isSome then { e with disconnects := e.disconnects + 1 } else e

/-- The first loop, over the sums. -/
def addVolumes (sums : List (String × ℤ × ℤ)) : HashMap String ClientRollup :=
  sums.foldl (fun out x => upsert {} (fun e => { e with rxBytes := x.2.1, txBytes := x.2.2 }) x.1 out)
    ∅

/-- The second loop, over the sessions. -/
def addSessions (cutoff now : DateTime) (sessions : List (Session DateTime))
    (out : HashMap String ClientRollup) : HashMap String ClientRollup :=
  sessions.foldl (fun out s => upsert {} (addSession cutoff now s) s.ip out) out

/-- The sums and the sessions by client. -/
def clientRollup (read : String → Option DateTime) (clock : DateTime) (hours : UInt32)
    (now : DateTime) (samples : List (Row String Sample)) (sessions : List (Session String)) :
    Except StatsError (HashMap String ClientRollup) := do
  let cutoff ← windowStart now (max hours 1)
  let cutoffS := toRfc3339 cutoff
  let sums ← volumes ((since .text cutoffS samples).map Row.data)
  let touched := (touching .text cutoffS sessions).map (Session.parsed (parseTs read clock))
  return addSessions cutoff now touched (addVolumes sums)

/-! ## What the clients are to have -/

/-- The whole seconds of a session in the window from `from_`, in nanoseconds, until now. -/
def onlineIn (from_ : ℤ) (now : DateTime) (s : Session DateTime) : ℤ :=
  Spans.overlap from_ now.nanos s.startedAt.nanos (s.endedAt.getD now).nanos / nanosPerSec

/-- It lasts at that instant, in nanoseconds. -/
def Session.Lasts (now : DateTime) (s : Session DateTime) (t : ℤ) : Prop :=
  s.startedAt.nanos ≤ t ∧ t < (s.endedAt.getD now).nanos

/-- No instant is in two of the sessions. -/
def Apart (now : DateTime) (sessions : List (Session DateTime)) : Prop :=
  sessions.Pairwise fun s s' => ∀ t, ¬ (s.Lasts now t ∧ s'.Lasts now t)

/-- The sessions of one client. -/
def sessionsOf (sessions : List (Session DateTime)) (ip : String) : List (Session DateTime) :=
  sessions.filter fun s => s.ip = ip

/-- The samples of a client from the start of the window on. -/
def samplesOf (from_ : ℤ) (samples : List (Row DateTime Sample)) (ip : String) : List Sample :=
  (samples.filter fun r => from_ ≤ r.ts.nanos ∧ r.data.ip = ip).map Row.data

/-- What the entries say of the clients in the window of so many hours until now. -/
structure Rollup (hours : UInt32) (now : DateTime) (samples : List (Row DateTime Sample))
    (sessions : List (Session DateTime)) (entry : String → ClientRollup) : Prop where
  onlineSecs : ∀ ip, (entry ip).onlineSecs =
    ((sessionsOf sessions ip).map
      (onlineIn (now.nanos - windowSecs hours * nanosPerSec) now)).sum
  nonneg : ∀ ip, 0 ≤ (entry ip).onlineSecs
  le_window : ∀ ip, Apart now (sessionsOf sessions ip) → (entry ip).onlineSecs ≤ windowSecs hours
  disconnects : ∀ ip, (entry ip).disconnects = (sessionsOf sessions ip).countP fun s =>
    s.endedAt.any fun ended => now.nanos - windowSecs hours * nanosPerSec ≤ ended.nanos
  rxBytes : ∀ ip, (entry ip).rxBytes =
    ((samplesOf (now.nanos - windowSecs hours * nanosPerSec) samples ip).map Sample.rxBytes).sum
  txBytes : ∀ ip, (entry ip).txBytes =
    ((samplesOf (now.nanos - windowSecs hours * nanosPerSec) samples ip).map Sample.txBytes).sum

/-! ## The bytes -/

variable {hours : UInt32} {now start : DateTime} {e : ClientRollup}

/-- The samples are of byte counts that add up to less than `2 ^ 63`. -/
structure SmallBytes (samples : List Sample) : Prop where
  rx_nonneg : ∀ s ∈ samples, 0 ≤ s.rxBytes
  tx_nonneg : ∀ s ∈ samples, 0 ≤ s.txBytes
  rx_lt : (samples.map Sample.rxBytes).sum < 2 ^ 63
  tx_lt : (samples.map Sample.txBytes).sum < 2 ^ 63

theorem SmallBytes.sublist {samples own : List Sample} (h : SmallBytes samples)
    (hown : own.Sublist samples) : SmallBytes own where
  rx_nonneg s hs := h.rx_nonneg s (hown.subset hs)
  tx_nonneg s hs := h.tx_nonneg s (hown.subset hs)
  rx_lt := ((hown.map _).sum_le_sum (List.forall_mem_map.mpr h.rx_nonneg)).trans_lt h.rx_lt
  tx_lt := ((hown.map _).sum_le_sum (List.forall_mem_map.mpr h.tx_nonneg)).trans_lt h.tx_lt

theorem SmallBytes.sqlSum_ok {own : List Sample} (h : SmallBytes own) :
    sqlSum (own.map Sample.rxBytes) = .ok (own.map Sample.rxBytes).sum ∧
      sqlSum (own.map Sample.txBytes) = .ok (own.map Sample.txBytes).sum :=
  ⟨Stats.sqlSum_ok (List.forall_mem_map.mpr h.rx_nonneg) h.rx_lt,
    Stats.sqlSum_ok (List.forall_mem_map.mpr h.tx_nonneg) h.tx_lt⟩

/-- The samples of one client. -/
def ownOf (samples : List Sample) (ip : String) : List Sample := samples.filter fun s => s.ip = ip

/-- The sums of each client that has a sample. -/
def sumsOf (samples : List Sample) : List (String × ℤ × ℤ) :=
  (samples.map Sample.ip).dedup.map fun ip =>
    (ip, ((ownOf samples ip).map Sample.rxBytes).sum, ((ownOf samples ip).map Sample.txBytes).sum)

theorem volumes_ok {samples : List Sample} (h : SmallBytes samples) :
    volumes samples = .ok (sumsOf samples) := by
  refine mapM_ok fun ip _ => ?_
  obtain ⟨hrx, htx⟩ := (h.sublist (List.filter_sublist (p := fun s => s.ip = ip))).sqlSum_ok
  simp only [hrx, htx]
  rfl

theorem getD_addVolumes (samples : List Sample) (ip : String) :
    getD (addVolumes (sumsOf samples)) ip {} =
      { rxBytes := ((ownOf samples ip).map Sample.rxBytes).sum
        txBytes := ((ownOf samples ip).map Sample.txBytes).sum } := by
  rw [addVolumes, getD_foldl_upsert, sumsOf, List.filter_map, List.foldl_map]
  have hfilter : ((samples.map Sample.ip).dedup.filter fun k => decide (k = ip)) =
      List.replicate (if ip ∈ samples.map Sample.ip then 1 else 0) ip := by
    rw [← List.count_dedup, List.filter_eq]
  simp only [Function.comp_def, hfilter]
  split_ifs with hmem
  · rfl
  · have hnone : ownOf samples ip = [] := List.filter_eq_nil_iff.mpr fun s hs hip =>
      hmem (List.mem_map.mpr ⟨s, hs, of_decide_eq_true hip⟩)
    rw [hnone]
    rfl

/-! ## The sessions -/

theorem nanos_max (t u : DateTime) : (if t ≤ u then u else t).nanos = max t.nanos u.nanos := by
  rw [apply_ite DateTime.nanos, max_def]
  rfl

theorem nanos_min (t u : DateTime) : (if u ≤ t then u else t).nanos = min t.nanos u.nanos := by
  rw [apply_ite DateTime.nanos, min_comm, min_def]
  rfl

/-- What the clamping of both ends leaves of a session is its overlap with the window. -/
theorem onlineIn_eq (s : Session DateTime) {first last : DateTime}
    (hfirst : first.nanos = max s.startedAt.nanos start.nanos)
    (hlast : last.nanos = min (s.endedAt.getD now).nanos now.nanos) :
    onlineIn start.nanos now s =
      if last ≤ first then 0 else TimeDelta.numSeconds (last.signedDurationSince first) := by
  rw [onlineIn, Spans.overlap, ← hfirst, ← hlast]
  split_ifs with hle
  · have hle : last.nanos ≤ first.nanos := hle
    rw [max_eq_left (by omega)]
    rfl
  · have hlt : first.nanos < last.nanos := Int.not_le.mp hle
    have hnonneg : 0 ≤ last.nanos - first.nanos := by omega
    rw [max_eq_right hnonneg, TimeDelta.numSeconds, DateTime.signedDurationSince,
      Int.tdiv_eq_ediv_of_nonneg hnonneg]

theorem addSession_eq (s : Session DateTime) (he : e.onlineSecs.bmod (2 ^ 64) = e.onlineSecs) :
    addSession start now s e =
      { e with onlineSecs := (e.onlineSecs + onlineIn start.nanos now s).bmod (2 ^ 64)
               disconnects := e.disconnects + if s.endedAt.isSome then 1 else 0 } := by
  rw [onlineIn_eq s (nanos_max s.startedAt start) (nanos_min (s.endedAt.getD now) now), addSession]
  generalize (if s.startedAt ≤ start then start else s.startedAt) = first
  generalize (if now ≤ s.endedAt.getD now then now else s.endedAt.getD now) = last
  by_cases hle : last ≤ first
  · simp only [if_pos hle, Int.add_zero, he]
    split_ifs
    · rfl
    · rw [Int.add_zero]
  · simp only [if_neg hle]
    split_ifs
    · rfl
    · rw [Int.add_zero]
      rfl

/-- **The sessions of a client, one after the other.** -/
theorem entry_addSession (sessions : List (Session DateTime))
    (he : e.onlineSecs.bmod (2 ^ 64) = e.onlineSecs) :
    sessions.foldl (fun e s => addSession start now s e) e =
      { e with
        onlineSecs := (e.onlineSecs + (sessions.map (onlineIn start.nanos now)).sum).bmod (2 ^ 64)
        disconnects := e.disconnects + sessions.countP fun s => s.endedAt.isSome } := by
  induction sessions generalizing e with
  | nil =>
    rw [List.foldl_nil, List.map_nil, List.sum_nil, Int.add_zero, he]
    simp
  | cons s sessions ih =>
    have hadded : addSession start now s e = _ := addSession_eq s he
    have hrest := ih (e := addSession start now s e) (by rw [hadded]; exact Int.bmod_bmod)
    rw [List.foldl_cons, hrest, hadded, List.map_cons, List.sum_cons, List.countP_cons]
    simp only [Int.bmod_add_bmod, Int.add_assoc, ClientRollup.mk.injEq, true_and, and_true]
    push_cast
    omega

/-! ## The law -/

variable {read : String → Option DateTime} {clock : DateTime}
  {samples : List (Row DateTime Sample)} {sessions : List (Session DateTime)}

/-- The timestamps are of the years that RFC 3339 has, and are read as they were written. -/
structure WellFormed (read : String → Option DateTime) (samples : List (Row DateTime Sample))
    (sessions : List (Session DateTime)) : Prop where
  samples : ∀ r ∈ samples, FourDigits r.ts
  ends : EndsDatable sessions
  readStart : ∀ s ∈ sessions, read (toRfc3339 s.startedAt) = some s.startedAt
  readEnd : ∀ s ∈ sessions, ∀ ended, s.endedAt = some ended → read (toRfc3339 ended) = some ended

theorem parsed_stored (h : WellFormed read samples sessions) {touched : List (Session DateTime)}
    (htouched : touched.Sublist sessions) :
    (touched.map Session.stored).map (Session.parsed (parseTs read clock)) = touched := by
  rw [List.map_map]
  refine (List.map_congr_left fun s hs => ?_).trans (List.map_id touched)
  have hmem := htouched.subset hs
  have hstarted : parseTs read clock (toRfc3339 s.startedAt) = s.startedAt := by
    rw [parseTs, h.readStart s hmem, Option.getD_some]
  have hended : (s.endedAt.map toRfc3339).map (parseTs read clock) = s.endedAt := by
    cases hended : s.endedAt with
    | none => rfl
    | some ended =>
      rw [Option.map_some, Option.map_some, parseTs, h.readEnd s hmem ended hended,
        Option.getD_some]
  rw [Function.comp_apply, Session.stored, Session.parsed, hstarted, hended]
  rfl

theorem onlineIn_of_lt {s : Session DateTime} {ended : DateTime} {from_ : ℤ}
    (hended : s.endedAt = some ended) (hlt : ended.nanos < from_) : onlineIn from_ now s = 0 := by
  rw [onlineIn, hended, Option.getD_some, Spans.overlap_of_lt hlt]
  rfl

theorem sum_touching (sessions : List (Session DateTime)) :
    (((touching .time start sessions)).map (onlineIn start.nanos now)).sum =
      (sessions.map (onlineIn start.nanos now)).sum := by
  rw [touching_time]
  refine sum_map_filter_of_zero fun s _ hnot => ?_
  cases hended : s.endedAt with
  | none => simp [hended] at hnot
  | some ended =>
    have hnot : ¬ start ≤ ended := by simpa [hended] using hnot
    exact onlineIn_of_lt hended (Int.not_le.mp hnot)

theorem countP_touching (sessions : List (Session DateTime)) :
    (touching .time start sessions).countP (fun s => s.endedAt.isSome) =
      sessions.countP fun s => s.endedAt.any (start ≤ ·) := by
  rw [touching_time, List.countP_filter]
  refine List.countP_congr fun s _ => ?_
  cases s.endedAt <;> simp

/-- What all sessions of a client have of the window is at most the window, if they are apart. -/
theorem sum_onlineIn_le {from_ : ℤ} (hfrom : from_ ≤ now.nanos) (h : Apart now sessions) :
    (sessions.map (onlineIn from_ now)).sum ≤ (now.nanos - from_) / nanosPerSec := by
  have hpair : (sessions.map fun s => (s.startedAt.nanos, (s.endedAt.getD now).nanos)).Pairwise
      fun p q => ∀ t, ¬ ((p.1 ≤ t ∧ t < p.2) ∧ (q.1 ≤ t ∧ t < q.2)) := List.pairwise_map.mpr h
  have hoverlap := Spans.sum_overlap_le hfrom hpair
  have hround := Spans.sum_ediv_le (k := nanosPerSec) (by decide) (sessions.map fun s =>
    Spans.overlap from_ now.nanos s.startedAt.nanos (s.endedAt.getD now).nanos)
  rw [List.map_map] at hoverlap hround
  exact hround.trans (Int.ediv_le_ediv (by decide) hoverlap)

theorem sum_onlineIn_le_window (hours : UInt32) (h : Apart now sessions) :
    (sessions.map (onlineIn (now.nanos - windowSecs hours * nanosPerSec) now)).sum ≤
      windowSecs hours := by
  have hwindow : 0 ≤ windowSecs hours := by rw [windowSecs]; omega
  have hnanos : (0 : ℤ) < nanosPerSec := by decide
  have hle : now.nanos - windowSecs hours * nanosPerSec ≤ now.nanos :=
    Int.sub_le_self _ (Int.mul_nonneg hwindow hnanos.le)
  have hsum := sum_onlineIn_le hle h
  rwa [Int.sub_sub_self, Int.mul_ediv_cancel _ hnanos.ne'] at hsum

theorem sum_onlineIn_nonneg (from_ : ℤ) (sessions : List (Session DateTime)) :
    0 ≤ (sessions.map (onlineIn from_ now)).sum :=
  List.sum_nonneg (List.forall_mem_map.mpr fun _ _ =>
    Int.ediv_nonneg (Spans.overlap_nonneg _ _ _ _) (by decide))

theorem ownOf_since (samples : List (Row DateTime Sample)) (ip : String) :
    ownOf ((since .time start samples).map Row.data) ip = samplesOf start.nanos samples ip := by
  rw [since_time, ownOf, List.filter_map, List.filter_filter, samplesOf]
  refine congrArg (List.map Row.data) (List.filter_congr fun r _ => ?_)
  rw [Bool.decide_and, Bool.and_comm]
  rfl

theorem data_stored (rows : List (Row DateTime Sample)) :
    (rows.map Row.stored).map Row.data = rows.map Row.data := List.map_map

theorem max_one (h : 1 ≤ hours) : max hours 1 = hours := by
  show (if hours ≤ 1 then 1 else hours) = hours
  split_ifs with hle
  · exact UInt32.le_antisymm h hle
  · rfl

theorem clientRollup_ok (clock : DateTime) (hformed : WellFormed read samples sessions)
    (hbytes : SmallBytes (samples.map Row.data)) (hhours : 1 ≤ hours)
    (hstart : windowStart now hours = .ok start) (hyear : start.date.year ≤ 9999) :
    ∃ out, clientRollup read clock hours now (samples.map Row.stored)
        (sessions.map Session.stored) = .ok out ∧
      ∀ ip, getD out ip {} =
        { rxBytes := ((samplesOf start.nanos samples ip).map Sample.rxBytes).sum
          txBytes := ((samplesOf start.nanos samples ip).map Sample.txBytes).sum
          disconnects := (sessionsOf sessions ip).countP fun s => s.endedAt.any (start ≤ ·)
          onlineSecs :=
            ((sessionsOf sessions ip).map (onlineIn start.nanos now)).sum.bmod (2 ^ 64) } := by
  have hselected : ((since .time start samples).map Row.data).Sublist (samples.map Row.data) :=
    List.filter_sublist.map _
  have htouched : (touching .time start sessions).Sublist sessions := List.filter_sublist
  refine ⟨addSessions start now (touching .time start sessions)
    (addVolumes (sumsOf ((since .time start samples).map Row.data))), ?_, fun ip => ?_⟩
  · rw [clientRollup, max_one hhours, hstart]
    simp only [bind, Except.bind, pure, Except.pure]
    rw [since_stored hformed.samples hyear, data_stored, volumes_ok (hbytes.sublist hselected)]
    simp only [touching_stored hformed.ends hyear, parsed_stored hformed htouched]
  · have hown : ((touching .time start sessions).filter fun s => decide (s.ip = ip)) =
        touching .time start (sessionsOf sessions ip) := by
      rw [touching_time, touching_time, sessionsOf, List.filter_comm]
    rw [addSessions, getD_foldl_upsert, getD_addVolumes, hown, entry_addSession _ rfl, ownOf_since,
      sum_touching, countP_touching]
    simp only [Int.zero_add]

theorem onlineSecs_addVolumes (sums : List (String × ℤ × ℤ)) (ip : String) :
    (getD (addVolumes sums) ip {}).onlineSecs = 0 := by
  have hfold (l : List (String × ℤ × ℤ)) (e : ClientRollup) :
      (l.foldl (fun e x => { e with rxBytes := x.2.1, txBytes := x.2.2 }) e).onlineSecs =
        e.onlineSecs := by
    induction l generalizing e with
    | nil => rfl
    | cons x l ih => exact ih _
  rw [addVolumes, getD_foldl_upsert, hfold]
  rfl

/-- A text that is below that of the window's start is of a time before it, in any year. -/
theorem lt_of_before {t : DateTime} (ht : FourDigits t)
    (hbefore : Column.text.before (toRfc3339 t) (toRfc3339 start) = true) :
    t.nanos < start.nanos := by
  by_cases hyear : start.date.year ≤ 9999
  · rw [before_toRfc3339 ht hyear] at hbefore
    exact of_decide_eq_true hbefore
  · by_contra hle
    have hmono := DateTime.year_mono (Int.not_lt.mp hle)
    exact hyear (hmono.trans ht.2)

/-- The seconds of a client, whatever the bytes are and wherever the window starts. -/
theorem onlineSecs_clientRollup {texts : List (Row String Sample)} {out : HashMap String ClientRollup}
    (hformed : WellFormed read [] sessions) (hhours : 1 ≤ hours)
    (h : clientRollup read clock hours now texts (sessions.map Session.stored) = .ok out)
    (ip : String) :
    (getD out ip {}).onlineSecs = ((sessionsOf sessions ip).map
      (onlineIn (now.nanos - windowSecs hours * nanosPerSec) now)).sum.bmod (2 ^ 64) := by
  rw [clientRollup, max_one hhours] at h
  cases hstart : windowStart now hours with
  | error e =>
    rw [hstart] at h
    cases h
  | ok start =>
    rw [hstart] at h
    cases hsums : volumes ((since .text (toRfc3339 start) texts).map Row.data) with
    | error e =>
      simp only [bind, Except.bind, hsums] at h
      cases h
    | ok sums =>
      simp only [bind, Except.bind, hsums] at h
      obtain rfl := Except.ok.inj h
      rw [← windowStart_eq_ok_iff.mp hstart, touching, List.filter_map,
        parsed_stored hformed List.filter_sublist, addSessions, getD_foldl_upsert,
        entry_addSession _ (by rw [onlineSecs_addVolumes]; rfl), onlineSecs_addVolumes, Int.zero_add,
        List.filter_comm]
      refine congrArg (Int.bmod · (2 ^ 64)) (sum_map_filter_of_zero fun s hs hnot => ?_)
      cases hended : s.endedAt with
      | none => simp [Session.stored, hended] at hnot
      | some ended =>
        have hbefore : Column.text.before (toRfc3339 ended) (toRfc3339 start) = true := by
          simpa [Session.stored, hended] using hnot
        have hdate := hformed.ends s (List.mem_of_mem_filter hs) ended hended
        exact onlineIn_of_lt hended (lt_of_before hdate hbefore)

/-- **The client rollup law**, where the window starts at a date before the year 10000 and no
client's seconds overflow. -/
theorem clientRollup_law (hformed : WellFormed read samples sessions)
    (hbytes : SmallBytes (samples.map Row.data)) (hhours : 1 ≤ hours)
    (hstart : windowStart now hours = .ok start) (hyear : start.date.year ≤ 9999)
    (hsecs : ∀ ip, ((sessionsOf sessions ip).map (onlineIn start.nanos now)).sum < 2 ^ 63) :
    ∃ out, clientRollup read clock hours now (samples.map Row.stored)
        (sessions.map Session.stored) = .ok out ∧
      Rollup hours now samples sessions fun ip => getD out ip {} := by
  obtain ⟨out, hout, hentry⟩ := clientRollup_ok clock hformed hbytes hhours hstart hyear
  have hfrom := windowStart_eq_ok_iff.mp hstart
  have hnonneg (ip : String) : 0 ≤ ((sessionsOf sessions ip).map (onlineIn start.nanos now)).sum :=
    sum_onlineIn_nonneg _ _
  have honline (ip : String) : (getD out ip {}).onlineSecs =
      ((sessionsOf sessions ip).map (onlineIn start.nanos now)).sum := by
    rw [hentry]
    exact Int.bmod_eq_of_le (by have := hnonneg ip; omega) (by have := hsecs ip; omega)
  refine ⟨out, hout, ?_⟩
  constructor
  case onlineSecs => exact fun ip => hfrom ▸ honline ip
  case nonneg => exact fun ip => (hnonneg ip).trans_eq (honline ip).symm
  case le_window =>
    intro ip hapart
    rw [honline ip, hfrom]
    exact sum_onlineIn_le_window hours hapart
  case disconnects =>
    intro ip
    rw [hentry, ← hfrom]
    rfl
  case rxBytes => exact fun ip => by rw [hentry, ← hfrom]
  case txBytes => exact fun ip => by rw [hentry, ← hfrom]

/-! ## A window of an hour -/

/-- Reads the texts of some times. -/
def readAmong (times : List DateTime) (raw : String) : Option DateTime :=
  times.find? fun t => toRfc3339 t = raw

def secondsBefore (secs : ℕ) (h : DateTime.InCalendar (-secs * nanosPerSec)) : DateTime :=
  ⟨-secs * nanosPerSec, h⟩

def twoHoursBefore : DateTime := secondsBefore 7200 (by decide)

def halfAnHourBefore : DateTime := secondsBefore 1800 (by decide)

/-- A client left half an hour ago, and has come back ten minutes ago. -/
def hourSessions : List (Session DateTime) :=
  [⟨"10.0.0.5", twoHoursBefore, some halfAnHourBefore⟩,
    ⟨"10.0.0.5", secondsBefore 600 (by decide), none⟩]

def hourSamples : List (Row DateTime Sample) :=
  [⟨secondsBefore 5400 (by decide), ⟨"10.0.0.5", 100, 10⟩⟩, ⟨halfAnHourBefore, ⟨"10.0.0.5", 20, 2⟩⟩]

def readHour : String → Option DateTime :=
  readAmong [twoHoursBefore, halfAnHourBefore, secondsBefore 600 (by decide)]

theorem clientRollup_law_hour :
    ∃ out, clientRollup readHour .epoch 1 .epoch (hourSamples.map Row.stored)
        (hourSessions.map Session.stored) = .ok out ∧
      Rollup 1 .epoch hourSamples hourSessions fun ip => getD out ip {} := by
  have hformed : WellFormed readHour hourSamples hourSessions := by
    refine ⟨by decide +kernel, ?_, by decide +kernel, ?_⟩
    · intro s hs ended hended
      rcases List.mem_pair.mp hs with rfl | rfl
      · cases hended
        decide +kernel
      · cases hended
    · intro s hs ended hended
      rcases List.mem_pair.mp hs with rfl | rfl
      · cases hended
        decide +kernel
      · cases hended
  have hbytes : SmallBytes (hourSamples.map Row.data) :=
    ⟨by decide, by decide, by decide, by decide⟩
  have hstart : windowStart .epoch 1 = .ok (secondsBefore 3600 (by decide)) :=
    windowStart_eq_ok_iff.mpr (by decide)
  refine clientRollup_law hformed hbytes (by decide) hstart (by decide +kernel) fun ip => ?_
  by_cases hip : "10.0.0.5" = ip
  · subst hip
    decide +kernel
  · simp [sessionsOf, hourSessions, hip]

/-! ## Other windows -/

/-- The law, for the windows and sessions with a property. -/
def LawFor (p : UInt32 → DateTime → List (Session DateTime) → Prop) : Prop :=
  ∀ read clock hours now samples sessions, WellFormed read samples sessions →
    SmallBytes (samples.map Row.data) → 1 ≤ hours → p hours now sessions →
      ∃ out, clientRollup read clock hours now (samples.map Row.stored)
          (sessions.map Session.stored) = .ok out ∧
        Rollup hours now samples sessions fun ip => getD out ip {}

/-- Noon on the second day of the year 10001. -/
def tenThousandOne : DateTime := ⟨253434052800 * nanosPerSec, by decide⟩

/-- A second before the year 10000. -/
def lastSecond : DateTime := ⟨253402300799 * nanosPerSec, by decide⟩

def lastSession : Session DateTime := ⟨"10.0.0.5", lastSecond, some lastSecond⟩

/-- The first second of the year 0. -/
def yearZero : DateTime := ⟨-62167219200 * nanosPerSec, by decide⟩

/-- The last second of the calendar. -/
def lastOfAll : DateTime := ⟨8210266876799 * nanosPerSec, by decide⟩

/-- A session that was never closed. -/
def openSession : Session DateTime := ⟨"10.0.0.5", yearZero, none⟩

/-- Together they last for more seconds than an `i64` has. -/
def manySessions : List (Session DateTime) := List.replicate 1114953 openSession

theorem wellFormed_many : WellFormed (readAmong [yearZero]) [] manySessions where
  samples := by simp
  ends s hs ended hended := by
    rw [List.eq_of_mem_replicate hs] at hended
    cases hended
  readStart s hs := by
    rw [List.eq_of_mem_replicate hs]
    decide +kernel
  readEnd s hs ended hended := by
    rw [List.eq_of_mem_replicate hs] at hended
    cases hended

theorem smallBytes_nil : SmallBytes [] := ⟨by simp, by simp, by decide, by decide⟩

/-- The law is not one of every window: some starts are no dates, at others the texts are not in
order, and the seconds of many sessions overflow. -/
theorem not_lawFor : ¬ LawFor (fun _ _ _ => True) ∧
    ¬ LawFor (fun hours now _ => ∃ start, windowStart now hours = .ok start) ∧
    ¬ LawFor (fun hours now _ =>
      ∃ start, windowStart now hours = .ok start ∧ start.date.year ≤ 9999) := by
  refine ⟨fun hlaw => ?_, fun hlaw => ?_, fun hlaw => ?_⟩
  · obtain ⟨out, hout, -⟩ := hlaw (fun _ => none) .epoch 4294967295 .epoch [] []
      ⟨by simp, by simp [EndsDatable], by simp, by simp⟩ smallBytes_nil (by decide) trivial
    cases hout
  · have hformed : WellFormed (readAmong [lastSecond]) [] [lastSession] := by
      refine ⟨by simp, ?_, by decide +kernel, ?_⟩
      · intro s hs ended hended
        obtain rfl := List.mem_singleton.mp hs
        cases hended
        decide +kernel
      · intro s hs ended hended
        obtain rfl := List.mem_singleton.mp hs
        cases hended
        decide +kernel
    have hcount : (clientRollup (readAmong [lastSecond]) .epoch 1 tenThousandOne []
        [lastSession.stored]).toOption.map (fun out => (getD out "10.0.0.5" {}).disconnects) =
          some 1 := by decide +kernel
    obtain ⟨out, hout, hrollup⟩ := hlaw _ .epoch 1 tenThousandOne [] [lastSession] hformed
      smallBytes_nil (by decide) ⟨⟨253434049200 * nanosPerSec, by decide⟩,
        windowStart_eq_ok_iff.mpr (by decide)⟩
    have hlaw := hrollup.disconnects "10.0.0.5"
    have hzero : (sessionsOf [lastSession] "10.0.0.5").countP (fun s => s.endedAt.any fun ended =>
        tenThousandOne.nanos - windowSecs 1 * nanosPerSec ≤ ended.nanos) = 0 := by decide
    rw [hzero] at hlaw
    have hout : clientRollup (readAmong [lastSecond]) .epoch 1 tenThousandOne []
      [lastSession.stored] = .ok out := hout
    rw [hout] at hcount
    have hone : (getD out "10.0.0.5" {}).disconnects = 1 := Option.some_inj.mp hcount
    rw [hlaw] at hone
    exact absurd hone (by decide)
  · let start : DateTime := ⟨-7251615385201 * nanosPerSec, by decide⟩
    have hstart : windowStart lastOfAll 4294967295 = .ok start :=
      windowStart_eq_ok_iff.mpr (by decide)
    have hyear : start.date.year ≤ 9999 := by decide +kernel
    obtain ⟨out, hout, hentry⟩ := clientRollup_ok .epoch wellFormed_many smallBytes_nil
      (by decide) hstart hyear
    obtain ⟨out', hout', hrollup⟩ := hlaw (readAmong [yearZero]) .epoch 4294967295 lastOfAll []
      manySessions wellFormed_many smallBytes_nil (by decide) ⟨_, hstart, hyear⟩
    cases hout.symm.trans hout'
    have hnonneg := hrollup.nonneg "10.0.0.5"
    have hown : sessionsOf manySessions "10.0.0.5" = manySessions :=
      List.filter_eq_self.mpr fun s hs => by rw [List.eq_of_mem_replicate hs]; rfl
    have hsecs : onlineIn start.nanos lastOfAll openSession = 8272434095999 := by decide
    rw [hentry, hown, manySessions, List.map_replicate, List.sum_replicate, hsecs] at hnonneg
    exact absurd hnonneg (by decide)

end Vlb.Stats
