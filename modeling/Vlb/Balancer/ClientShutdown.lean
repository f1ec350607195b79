import Vlb.Balancer.Clients

/-!
# What a shutdown leaves behind

The bytes of a client are moved from its observations to the bucket in the live state, from there to
the steps of a tick or to the list of the shutdown, and from these to the samples. No move loses any,
but the loop may be stopped between two of them.

* `bytesFor`: the bytes of a client among several counters.
* `Accounted`: all that was observed is in one place or another; a lemma for each kind of step.
* `bytesFor_pass`: passing over the clients keeps the bytes of each.
* `Loses`, `Late`: the steps that lose bytes, and the bytes that come after the shutdown has taken the
  buckets.
* `lost_iff`: what has been lost in a run can be told from its steps.
* **`nothing_lost_iff`**: what is observed is written, if and only if no step loses bytes and none
  come late.
-/

namespace Vlb.ClientsLoop

open Clients Entries Stats Time Transition

/-- The bytes of a client among these counters. -/
def bytesFor (ip : Ipv4Addr) (d : Direction) (l : List (Ipv4Addr × ClientCounters)) : ℕ :=
  (l.map fun e => if e.1 = ip then e.2.bytes d else 0).sum

/-- The bytes of the observations. -/
def observed (observations : List ClientObservation) : List (Ipv4Addr × ClientCounters) :=
  observations.map fun o => (o.ip, o.delta)

/-- The bytes of the samples. -/
def inRows (rows : List ClientSampleRow) : List (Ipv4Addr × ClientCounters) :=
  rows.map fun r => (r.ip, r.counters)

/-- The buckets of the live state. -/
def gathered (live : Live) : List (Ipv4Addr × ClientCounters) :=
  live.entries.map fun e => (e.1, e.2.pending)

/-- The bucket that a step writes. -/
def Op.bucket : Op → Option ClientSampleRow
  | .flush f => some f.row
  | _ => none

/-- The buckets that the shutdown has taken and not written. -/
def Shutdown.buckets : Shutdown → List ClientSampleRow
  | .flushing rest => rest.map Flush.row
  | _ => []

/-- The bytes that are not written, and that no one is about to write once the loop has stopped: in
the live state, in the steps that it had left, in failed writes, and with clients that were forgotten. -/
def leftBehind (l : Ledger) (p : Process) : List (Ipv4Addr × ClientCounters) :=
  gathered p.live ++ inRows (p.work.filterMap Op.bucket) ++ inRows l.failed ++ l.forgotten

/-- All that was observed is somewhere. -/
def Accounted (l : Ledger) (p : Process) : Prop :=
  ∀ ip d, bytesFor ip d (observed l.folded) =
    bytesFor ip d (inRows l.written) + bytesFor ip d (inRows p.shutdown.buckets) +
      bytesFor ip d (leftBehind l p)

/-- No bucket overflows in a tick. -/
def Fits (s : Sys) (e : Event) (_ : Sys) : Prop :=
  match e with
  | .tick i => ∀ p ∈ s.process, ∀ ip d,
    bytesFor ip d (gathered p.live) + bytesFor ip d (observed i.observations) < 2 ^ 64
  | _ => True

/-- The loops have been stopped, and waited for. -/
def Process.finished (p : Process) : Prop := p.shutdown = .aborting ∧ p.looping = false

section Bytes

variable {ip : Ipv4Addr} {d : Direction} {l l' : List (Ipv4Addr × ClientCounters)}

@[simp] theorem bytesFor_nil : bytesFor ip d [] = 0 := rfl

@[simp] theorem bytesFor_cons (e : Ipv4Addr × ClientCounters) :
    bytesFor ip d (e :: l) = (if e.1 = ip then e.2.bytes d else 0) + bytesFor ip d l := rfl

@[simp] theorem bytesFor_append : bytesFor ip d (l ++ l') = bytesFor ip d l + bytesFor ip d l' := by
  simp [bytesFor]

theorem hasBytes_eq_false_iff {c : ClientCounters} : hasBytes c = false ↔ ∀ d, c.bytes d = 0 := by
  simp only [hasBytes, decide_eq_false_iff_not, not_or, not_not]
  constructor
  · rintro ⟨hrx, htx⟩ (_ | _)
    · exact congrArg UInt64.toNat hrx
    · exact congrArg UInt64.toNat htx
  · intro h
    exact ⟨UInt64.toNat_inj.mp (h .download), UInt64.toNat_inj.mp (h .upload)⟩

theorem bytesFor_eq_zero_iff :
    (∀ ip d, bytesFor ip d l = 0) ↔ ∀ e ∈ l, hasBytes e.2 = false := by
  induction l with
  | nil => simp
  | cons e l ih =>
    simp only [bytesFor_cons, Nat.add_eq_zero_iff, forall_and, ih, List.forall_mem_cons,
      hasBytes_eq_false_iff]
    refine and_congr_left fun _ => ⟨fun h d => ?_, fun h ip d => ?_⟩
    · simpa using h e.1 d
    · rw [h d, ite_self]

theorem bytesFor_gathered (live : Live) :
    bytesFor ip d (gathered live) = ((live.lookup ip).map fun c => c.pending.bytes d).getD 0 := by
  rw [← sum_entries_ite live ip fun c => c.pending.bytes d]
  unfold bytesFor gathered
  rw [List.map_map]
  rfl

theorem bytes_addCounters {c δ : ClientCounters} (hfits : c.bytes d + δ.bytes d < 2 ^ 64) :
    (addCounters c δ).bytes d = c.bytes d + δ.bytes d := by
  cases d
  · exact (UInt64.toNat_add _ _).trans (Nat.mod_eq_of_lt hfits)
  · exact (UInt64.toNat_add _ _).trans (Nat.mod_eq_of_lt hfits)

end Bytes

/-! ## A tick -/

section Tick

variable {ip : Ipv4Addr} {d : Direction} {f : Folding} {o : ClientObservation} {now : DateTime}
  {t : Timing} {live : Live} {i : Sampled}

variable (now) in
theorem bytesFor_foldObservation
    (hfits : bytesFor ip d (gathered f.live) + bytesFor ip d [(o.ip, o.delta)] < 2 ^ 64) :
    bytesFor ip d (gathered (foldObservation now f o).live) =
      bytesFor ip d (gathered f.live) + bytesFor ip d [(o.ip, o.delta)] := by
  obtain ⟨mac, hostname, label, hlookup⟩ := lookup_foldObservation now f o
  simp only [bytesFor_cons, bytesFor_nil, Nat.add_zero, bytesFor_gathered] at hfits ⊢
  rw [hlookup]
  by_cases hip : ip = o.ip
  · subst hip
    have hbefore : ((f.live.lookup o.ip).map fun c => c.pending.bytes d).getD 0 =
        (getD f.live o.ip (.new now)).pending.bytes d := by
      unfold getD
      cases f.live.lookup o.ip with
      | some c => rfl
      | none => exact (ClientCounters.bytes_zero d).symm
    rw [hbefore, if_pos rfl] at hfits
    rw [hbefore, if_pos rfl, if_pos rfl, Option.map_some, Option.getD_some, observed_pending,
      bytes_addCounters hfits]
  · rw [if_neg hip, if_neg (Ne.symm hip), Nat.add_zero]

theorem bytesFor_foldl {observations : List ClientObservation}
    (hfits : bytesFor ip d (gathered f.live) + bytesFor ip d (observed observations) < 2 ^ 64) :
    bytesFor ip d (gathered (observations.foldl (foldObservation now) f).live) =
      bytesFor ip d (gathered f.live) + bytesFor ip d (observed observations) := by
  induction observations generalizing f with
  | nil => rfl
  | cons o observations ih =>
    have hcons : bytesFor ip d (observed (o :: observations)) =
        bytesFor ip d [(o.ip, o.delta)] + bytesFor ip d (observed observations) := by
      simp [observed]
    rw [hcons, ← Nat.add_assoc] at hfits
    have hone := bytesFor_foldObservation now (lt_of_le_of_lt (Nat.le_add_right _ _) hfits)
    rw [List.foldl_cons, ih (by rw [hone]; exact hfits), hone, hcons, Nat.add_assoc]

theorem bytesFor_takeIn
    (hfits : bytesFor ip d (gathered live) + bytesFor ip d (observed i.observations) < 2 ^ 64) :
    bytesFor ip d (gathered (takeIn i live).live) =
      bytesFor ip d (gathered live) + bytesFor ip d (observed i.observations) :=
  bytesFor_foldl hfits

theorem bytes_pass (c : ClientState) :
    (pass t now c).pending.bytes d = if isDue t now c then 0 else c.pending.bytes d := by
  obtain ⟨hpending, hsince⟩ := presence_pending now t c
  have hdue : isDue t now (presence t now c).1 = isDue t now c := by rw [isDue, hsince, isDue]
  unfold pass
  dsimp only
  rw [hdue]
  split_ifs
  · exact ClientCounters.bytes_zero d
  · rw [hpending]

theorem bytesFor_bucket (e : Sigma fun _ : Ipv4Addr => ClientState) :
    bytesFor ip d (inRows ((bucket t now e.1 (presence t now e.2).1).map Flush.row).toList) =
      if e.1 = ip then (if isDue t now e.2 then e.2.pending.bytes d else 0) else 0 := by
  obtain ⟨hpending, hsince⟩ := presence_pending now t e.2
  have hdue : isDue t now (presence t now e.2).1 = isDue t now e.2 := by rw [isDue, hsince, isDue]
  unfold bucket
  rw [hdue, hpending]
  cases isDue t now e.2 with
  | false => simp [inRows]
  | true =>
    cases hzero : e.2.pending.isZero with
    | false => simp [inRows]
    | true => simp [inRows, ClientCounters.bytes_of_isZero hzero]

theorem bytesFor_flushes : bytesFor ip d (inRows ((flushes t now live).map Flush.row)) =
    ((live.lookup ip).map fun c => if isDue t now c then c.pending.bytes d else 0).getD 0 := by
  rw [← sum_entries_ite live ip fun c => if isDue t now c then c.pending.bytes d else 0]
  unfold flushes
  induction live.entries with
  | nil => rfl
  | cons e entries ih =>
    rw [List.map_cons, List.sum_cons, ← ih, ← bytesFor_bucket, List.filterMap_cons]
    cases bucket t now e.1 (presence t now e.2).1 with
    | none => simp [inRows]
    | some f => simp [inRows]

theorem nodup_forgets : (forgets now live).Nodup :=
  List.Nodup.sublist (List.filter_sublist.map _) live.nodupKeys

variable (ip d t now f) in
theorem bytesFor_remaining (default : ClientState) :
    bytesFor ip d (gathered (remaining t now f)) +
        bytesFor ip d ((forgets now (passAll t now f.live)).map fun ip =>
          (ip, (getD (passAll t now f.live) ip default).pending)) =
      bytesFor ip d (gathered (passAll t now f.live)) := by
  unfold remaining
  generalize passAll t now f.live = passed
  have hforgotten : bytesFor ip d ((forgets now passed).map fun ip =>
      (ip, (getD passed ip default).pending)) =
        if ip ∈ forgets now passed then (getD passed ip default).pending.bytes d else 0 := by
    rw [← sum_keys_ite nodup_forgets ip fun ip => (getD passed ip default).pending.bytes d]
    unfold bytesFor
    rw [List.map_map]
    rfl
  rw [hforgotten, bytesFor_gathered, bytesFor_gathered, lookup_foldl_erase]
  split_ifs with hin
  · obtain ⟨c, hc, -⟩ := mem_forgets.mp hin
    simp [getD, hc]
  · rw [Nat.add_zero]

variable (ip d t now f) in
theorem bytesFor_pass (default : ClientState) :
    bytesFor ip d (gathered (remaining t now f)) +
        bytesFor ip d (inRows ((flushes t now f.live).map Flush.row)) +
        bytesFor ip d ((forgets now (passAll t now f.live)).map fun ip =>
          (ip, (getD (passAll t now f.live) ip default).pending)) =
      bytesFor ip d (gathered f.live) := by
  have hremaining := bytesFor_remaining ip d f now t default
  have hpassed : bytesFor ip d (gathered (passAll t now f.live)) +
      bytesFor ip d (inRows ((flushes t now f.live).map Flush.row)) = bytesFor ip d (gathered f.live) := by
    rw [bytesFor_flushes, bytesFor_gathered, bytesFor_gathered, passAll, lookup_mapValues, Option.map_map]
    cases f.live.lookup ip with
    | none => rfl
    | some c =>
      simp only [Option.map_some, Option.getD_some, Function.comp_apply, bytes_pass]
      split_ifs
      · rw [Nat.zero_add]
      · rw [Nat.add_zero]
  omega

theorem filterMap_bucket_writes {prune : List Op} (hprune : ∀ op ∈ prune, op = .prune) :
    (writes t now f ++ prune).filterMap Op.bucket = (flushes t now f.live).map Flush.row := by
  have hnone : prune.filterMap Op.bucket = [] := by
    rw [List.filterMap_eq_nil_iff]
    intro op hop
    rw [hprune op hop]
    rfl
  simp [writes, hnone, Op.bucket, Function.comp_def, List.filterMap_map]

end Tick

/-! ## The shutdown -/

section Taking

variable {ip : Ipv4Addr} {d : Direction} {now : DateTime} {live : Live}

variable (ip d now live) in
theorem bytesFor_takeBuckets :
    bytesFor ip d (inRows ((takeBuckets now live).map Flush.row)) = bytesFor ip d (gathered live) := by
  simp only [bytesFor, inRows, gathered, takeBuckets, List.map_map, Function.comp_def]
  apply sum_map_filter_of_zero
  intro e _ hzero
  rw [Bool.not_eq_false'] at hzero
  rw [ClientCounters.bytes_of_isZero hzero, ite_self]

variable (ip d now live) in
theorem bytesFor_emptied : bytesFor ip d (gathered (emptied now live)) = 0 := by
  rw [bytesFor_gathered, emptied, lookup_mapValues, Option.map_map]
  cases live.lookup ip with
  | none => rfl
  | some c =>
    rw [Option.map_some, Option.getD_some, Function.comp_apply]
    split_ifs with hzero
    · exact ClientCounters.bytes_of_isZero hzero d
    · exact ClientCounters.bytes_zero d

end Taking

/-! ## The runs -/

section Runs

variable {s s' : Sys} {p : Process} {e : Event} {ip : Ipv4Addr} {d : Direction} {f : Flush}
  {ok : Succeeds} {op : Op} {work : List Op} {clock : DateTime}

theorem bytesFor_leftBehind (l : Ledger) (p : Process) : bytesFor ip d (leftBehind l p) =
    bytesFor ip d (gathered p.live) + bytesFor ip d (inRows (p.work.filterMap Op.bucket)) +
      bytesFor ip d (inRows l.failed) + bytesFor ip d l.forgotten := by
  simp only [leftBehind, bytesFor_append]

variable (ip d) in
theorem bytesFor_ledger (l : Ledger) (f : Flush) (ok : Succeeds) :
    bytesFor ip d (inRows (l.bucket f ok).written) + bytesFor ip d (inRows (l.bucket f ok).failed) =
      bytesFor ip d (inRows l.written) + bytesFor ip d (inRows l.failed) +
        bytesFor ip d (inRows [f.row]) := by
  unfold Ledger.bucket inRows
  cases ok 0
  · simp only [if_neg Bool.false_ne_true, List.map_append, bytesFor_append]
    omega
  · simp only [if_pos, List.map_append, bytesFor_append]
    omega

theorem bytesFor_enter (live : Live) (ip : Ipv4Addr) (id : ℕ) (ip' : Ipv4Addr) (d : Direction) :
    bytesFor ip' d (gathered (match live.lookup ip with
      | some c => live.insert ip { c with sessionId := some id }
      | none => live)) = bytesFor ip' d (gathered live) := by
  cases hc : live.lookup ip with
  | none => rfl
  | some c =>
    simp only [bytesFor_gathered]
    by_cases hip : ip' = ip
    · subst hip
      rw [AList.lookup_insert, hc]
      rfl
    · rw [AList.lookup_insert_ne hip]

theorem Accounted.perform (h : Accounted s.ledger p) (hwork : p.work = op :: work) :
    ∀ q ∈ (perform s p work ok clock op).process, Accounted (perform s p work ok clock op).ledger q := by
  have hsame : ∀ {live work'}, (∀ ip d, bytesFor ip d (gathered live) = bytesFor ip d (gathered p.live)) →
      work'.filterMap Op.bucket = p.work.filterMap Op.bucket →
        Accounted s.ledger { p with live, work := work' } := by
    intro live work' hlive hbuckets ip d
    have hip := h ip d
    simp only [bytesFor_leftBehind, hlive, hbuckets] at hip ⊢
    exact hip
  cases op with
  | upsert facts now =>
    exact fun q hq => Option.some.inj hq ▸ hsame (fun _ _ => rfl) (by rw [hwork]; rfl)
  | closeSession id ended =>
    exact fun q hq => Option.some.inj hq ▸ hsame (fun _ _ => rfl) (by rw [hwork]; rfl)
  | openSession ip startedAt =>
    unfold ClientsLoop.perform
    cases ok 0
    · exact fun q hq => Option.some.inj hq ▸ hsame (fun _ _ => rfl) (by rw [hwork]; rfl)
    · exact fun q hq => Option.some.inj hq ▸ hsame (fun _ _ => rfl) (by rw [hwork]; rfl)
  | enterSession ip id =>
    exact fun q hq => Option.some.inj hq ▸ hsame (bytesFor_enter p.live ip id) (by rw [hwork]; rfl)
  | flush f =>
    refine fun q hq => Option.some.inj hq ▸ fun ip d => ?_
    have hip := h ip d
    have hledger := bytesFor_ledger ip d s.ledger f ok
    have hbuckets : bytesFor ip d (inRows (p.work.filterMap Op.bucket)) =
        bytesFor ip d (inRows [f.row]) + bytesFor ip d (inRows (work.filterMap Op.bucket)) := by
      rw [hwork, ← bytesFor_append]
      rfl
    simp only [ClientsLoop.perform, bytesFor_leftBehind, folded_bucket, forgotten_bucket] at hip ⊢
    omega
  | forget ip =>
    exact fun q hq => Option.some.inj hq ▸ hsame (fun _ _ => rfl) (by rw [hwork]; rfl)
  | prune =>
    unfold ClientsLoop.perform
    cases pruneCutoff p.timing.retentionHours clock with
    | none => exact fun q hq => by cases hq
    | some cutoff =>
      exact fun q hq => Option.some.inj hq ▸ hsame (fun _ _ => rfl) (by rw [hwork]; rfl)

theorem Accounted.move (h : Accounted s.ledger p) (hp : s.process = some p) (hmove : Moves s p e s')
    (hfits : Fits s e s') : ∀ q ∈ s'.process, Accounted s'.ledger q := by
  cases hmove with
  | stop => exact fun q hq => by cases hq
  | @tick i _ hwork =>
    refine fun q hq => Option.some.inj hq ▸ fun ip d => ?_
    have hip := h ip d
    have htaken := bytesFor_takeIn (hfits p hp ip d)
    have hpass := bytesFor_pass ip d (takeIn i p.live) i.now p.timing (.new i.now)
    have hprune : ∀ op ∈ if prunes p i.now then [Op.prune] else [], op = .prune := by
      intro op hop
      split_ifs at hop
      · exact List.mem_singleton.mp hop
      · cases hop
    have hbuckets : bytesFor ip d (inRows ([].filterMap Op.bucket)) = 0 := rfl
    have hfolded : bytesFor ip d (observed (s.ledger.folded ++ i.observations)) =
        bytesFor ip d (observed s.ledger.folded) + bytesFor ip d (observed i.observations) := by
      rw [observed, List.map_append, bytesFor_append]
      rfl
    rw [bytesFor_leftBehind, hwork, hbuckets] at hip
    simp only [fold, bytesFor_leftBehind, filterMap_bucket_writes hprune, hfolded, bytesFor_append]
    omega
  | proceed _ hwork => exact h.perform hwork
  | @take now hshutdown =>
    refine fun q hq => Option.some.inj hq ▸ fun ip d => ?_
    have hip := h ip d
    have htaken := bytesFor_takeBuckets ip d now p.live
    have hempty := bytesFor_emptied ip d now p.live
    have hnone : bytesFor ip d (inRows (Shutdown.buckets .signalled)) = 0 := rfl
    rw [bytesFor_leftBehind, hshutdown, hnone] at hip
    simp only [bytesFor_leftBehind, Shutdown.buckets]
    omega
  | @hand f rest ok hshutdown =>
    refine fun q hq => Option.some.inj hq ▸ fun ip d => ?_
    have hip := h ip d
    have hledger := bytesFor_ledger ip d s.ledger f ok
    have hbuckets : bytesFor ip d (inRows (Shutdown.buckets (.flushing (f :: rest)))) =
        bytesFor ip d (inRows [f.row]) + bytesFor ip d (inRows (Shutdown.buckets (.flushing rest))) := by
      rw [← bytesFor_append]
      rfl
    rw [hshutdown] at hip
    simp only [bytesFor_leftBehind, folded_bucket, forgotten_bucket] at hip ⊢
    omega
  | signal hshutdown =>
    refine fun q hq => Option.some.inj hq ▸ fun ip d => ?_
    have hip := h ip d
    rw [hshutdown] at hip
    exact hip
  | abort hshutdown =>
    refine fun q hq => Option.some.inj hq ▸ fun ip d => ?_
    have hip := h ip d
    rw [hshutdown] at hip
    exact hip
  | cancel | leave => exact fun q hq => Option.some.inj hq ▸ h

theorem accounted_start {t : Timing} {now : DateTime} {rosterRead sessionsRead : Bool} :
    ∀ q ∈ (start s t now rosterRead sessionsRead).process,
      Accounted (start s t now rosterRead sessionsRead).ledger q := by
  refine fun q hq => Option.some.inj hq ▸ fun ip d => ?_
  rw [bytesFor_leftBehind, bytesFor_gathered]
  dsimp only
  cases hc : (resume now (if rosterRead then s.db.clients else ∅)
      (if sessionsRead then s.db.openClientSessions else [])).lookup ip with
  | none => rfl
  | some c =>
    obtain ⟨row, -, -, rfl⟩ := lookup_resume hc
    have hpending : ∀ known, (ClientState.resumed now known row).pending.bytes d = 0 :=
      fun _ => ClientCounters.bytes_zero d
    rw [Option.map_some, Option.getD_some, hpending]
    rfl

theorem accounted_step (h : ∀ p ∈ s.process, Accounted s.ledger p) (hstep : step s e = some s')
    (hfits : Fits s e s') : ∀ p ∈ s'.process, Accounted s'.ledger p := by
  rcases step_cases hstep with ⟨cfg, t, now, rosterRead, sessionsRead, -, -, rfl, rfl⟩ | ⟨p, hp, hmove⟩
  · exact accounted_start
  · exact (h p hp).move hp hmove hfits

end Runs

/-! ## What loses bytes -/

/-- The shutdown has taken the buckets. -/
def Process.taken (p : Process) : Bool :=
  match p.shutdown with
  | .flushing _ | .aborting => true
  | .running | .signalled => false

/-- Whether a tick finds the bucket of a client due. -/
def dueAt (p : Process) (now : DateTime) (ip : Ipv4Addr) : Bool :=
  isDue p.timing now (getD p.live ip (.new now))

/-- The steps that lose bytes. -/
inductive Loses (p : Process) : Event → Prop
  /-- A client is forgotten with its bucket, which is not due. -/
  | forget {i : Sampled} {ip : Ipv4Addr} {d : Direction}
      (hforgotten : ip ∈ forgets i.now (passAll p.timing i.now (takeIn i p.live).live))
      (hdue : dueAt p i.now ip = false)
      (hbytes : 0 < bytesFor ip d (gathered p.live) + bytesFor ip d (observed i.observations)) :
      Loses p (.tick i)
  /-- The write of a bucket fails. -/
  | write {f : Flush} {work : List Op} {ok : Succeeds} {clock : DateTime}
      (hwork : p.work = .flush f :: work) (hbytes : hasBytes f.row.counters = true)
      (hfails : ok 0 = false) : Loses p (.proceed ok clock)
  /-- So does one of the shutdown. -/
  | hand {f : Flush} {rest : List Flush} {ok : Succeeds} (hshutdown : p.shutdown = .flushing (f :: rest))
      (hbytes : hasBytes f.row.counters = true) (hfails : ok 0 = false) : Loses p (.hand ok)
  /-- The loop is stopped before it has come to a bucket that it has moved out of the live state. -/
  | cancel {f : Flush} (hflush : .flush f ∈ p.work) (hbytes : hasBytes f.row.counters = true) :
      Loses p .cancel

/-- The step of the run loses bytes. -/
def LosesAt (s : Sys) (e : Event) (_ : Sys) : Prop := ∃ p ∈ s.process, Loses p e

/-- A tick takes bytes of the client in, after the shutdown has taken the buckets, and its bucket is
not due. -/
def TakesLate (ip : Ipv4Addr) (d : Direction) (s : Sys) (e : Event) (_ : Sys) : Prop :=
  ∃ p ∈ s.process, ∃ i, e = .tick i ∧ p.taken = true ∧ 0 < bytesFor ip d (observed i.observations) ∧
    dueAt p i.now ip = false

/-- The step is no tick that finds the client's bucket due. -/
def NotDue (ip : Ipv4Addr) (s : Sys) (e : Event) (_ : Sys) : Prop :=
  ∀ p ∈ s.process, ∀ i, e = .tick i → dueAt p i.now ip = false

/-- Bytes that came late, and whose bucket has not been due since. -/
def Late (ip : Ipv4Addr) (d : Direction) : Sys → List Event → Prop :=
  SinceStep step (NotDue ip) (TakesLate ip d)

/-- A process begins. -/
def Event.isStart : Event → Bool
  | .start .. => true
  | _ => false

section Lost

variable {s s' : Sys} {p q : Process} {e : Event} {ip : Ipv4Addr} {d : Direction} {i : Sampled}
  {live : Live} {l : Ledger} {f : Flush} {ok : Succeeds}

theorem pendingSince_takeIn (i : Sampled) (live : Live) (ip : Ipv4Addr) :
    (getD (takeIn i live).live ip (.new i.now)).pendingSince =
      (getD live ip (.new i.now)).pendingSince := by
  have hone (f : Folding) (o : ClientObservation) :
      (getD (foldObservation i.now f o).live ip (.new i.now)).pendingSince =
        (getD f.live ip (.new i.now)).pendingSince := by
    obtain ⟨mac, hostname, label, hlookup⟩ := lookup_foldObservation i.now f o
    by_cases hip : ip = o.ip
    · subst hip
      obtain ⟨m, h, l, started, heq⟩ := observed_eq (getD f.live o.ip (.new i.now)) mac hostname label
        o.delta i.now o.seen
      rw [getD_of_lookup ((hlookup o.ip).trans (if_pos rfl)), heq]
    · rw [getD, (hlookup ip).trans (if_neg hip), getD]
  unfold takeIn
  have hall (f : Folding) : (getD (i.observations.foldl (foldObservation i.now) f).live ip
      (.new i.now)).pendingSince = (getD f.live ip (.new i.now)).pendingSince := by
    induction i.observations generalizing f with
    | nil => rfl
    | cons o observations ih => rw [List.foldl_cons, ih, hone]
  exact hall _

theorem isDue_takeIn (p : Process) (i : Sampled) (ip : Ipv4Addr) :
    isDue p.timing i.now (getD (takeIn i p.live).live ip (.new i.now)) = dueAt p i.now ip := by
  rw [dueAt, isDue, isDue, pendingSince_takeIn]

theorem bytes_passAll (t : Timing) (now : DateTime) (live : Live) (ip : Ipv4Addr) (d : Direction) :
    (getD (passAll t now live) ip (.new now)).pending.bytes d =
      if isDue t now (getD live ip (.new now)) then 0 else bytesFor ip d (gathered live) := by
  rw [bytesFor_gathered, passAll, getD, getD, lookup_mapValues]
  cases live.lookup ip with
  | none =>
    simp only [Option.map_none, Option.getD_none, ite_self]
    exact ClientCounters.bytes_zero d
  | some c =>
    simp only [Option.map_some, Option.getD_some]
    exact bytes_pass c

theorem bytesFor_afterTick
    (hfits : bytesFor ip d (gathered p.live) + bytesFor ip d (observed i.observations) < 2 ^ 64) :
    bytesFor ip d (gathered (remaining p.timing i.now (takeIn i p.live))) =
      if ip ∈ forgets i.now (passAll p.timing i.now (takeIn i p.live).live) then 0
      else if dueAt p i.now ip then 0
      else bytesFor ip d (gathered p.live) + bytesFor ip d (observed i.observations) := by
  have hbytes := bytes_passAll p.timing i.now (takeIn i p.live).live ip d
  rw [isDue_takeIn, bytesFor_takeIn hfits] at hbytes
  rw [← hbytes, bytesFor_gathered, remaining, lookup_foldl_erase, getD]
  split_ifs with hin
  · rfl
  · cases (passAll p.timing i.now (takeIn i p.live).live).lookup ip with
    | none => exact (ClientCounters.bytes_zero d).symm
    | some c => rfl

theorem hasBytes_eq_true_iff {c : ClientCounters} : hasBytes c = true ↔ ∃ d, 0 < c.bytes d := by
  rw [← Bool.not_eq_false, hasBytes_eq_false_iff, not_forall]
  exact exists_congr fun d => Nat.pos_iff_ne_zero.symm

/-- Nothing has been lost for good. -/
structure Spared (l : Ledger) (p : Process) : Prop where
  failed : ∀ r ∈ l.failed, hasBytes r.counters = false
  forgotten : ∀ e ∈ l.forgotten, hasBytes e.2 = false
  stopped : p.looping = false → ∀ f, .flush f ∈ p.work → hasBytes f.row.counters = false

theorem failed_bucket_iff : (∀ r ∈ (l.bucket f ok).failed, hasBytes r.counters = false) ↔
    (∀ r ∈ l.failed, hasBytes r.counters = false) ∧
      ¬ (hasBytes f.row.counters = true ∧ ok 0 = false) := by
  unfold Ledger.bucket
  cases hok : ok 0
  · simp [or_imp, forall_and]
  · simp

theorem spared_bucket_iff {work : List Op} (hwork : p.looping = false → work = p.work)
    (hq : q.work = work) (hlooping : q.looping = p.looping) :
    Spared (l.bucket f ok) q ↔ Spared l p ∧ ¬ (hasBytes f.row.counters = true ∧ ok 0 = false) := by
  have hstopped : (q.looping = false → ∀ f, .flush f ∈ q.work → hasBytes f.row.counters = false) ↔
      (p.looping = false → ∀ f, .flush f ∈ p.work → hasBytes f.row.counters = false) := by
    rw [hlooping, hq]
    exact forall_congr' fun h => by rw [hwork h]
  constructor
  · rintro ⟨hfailed, hforgotten, hq⟩
    obtain ⟨hfailed, hwrites⟩ := failed_bucket_iff.mp hfailed
    exact ⟨⟨hfailed, forgotten_bucket l f ok ▸ hforgotten, hstopped.mp hq⟩, hwrites⟩
  · rintro ⟨⟨hfailed, hforgotten, hp⟩, hwrites⟩
    exact ⟨failed_bucket_iff.mpr ⟨hfailed, hwrites⟩, (forgotten_bucket l f ok).symm ▸ hforgotten,
      hstopped.mpr hp⟩

theorem forgotten_iff (hfits : Fits s (.tick i) s') (hp : s.process = some p) :
    (∀ ip ∈ forgets i.now (passAll p.timing i.now (takeIn i p.live).live),
        hasBytes (getD (passAll p.timing i.now (takeIn i p.live).live) ip (.new i.now)).pending =
          false) ↔
      ¬ Loses p (.tick i) := by
  have hbytes (ip : Ipv4Addr) (d : Direction) :
      (getD (passAll p.timing i.now (takeIn i p.live).live) ip (.new i.now)).pending.bytes d =
        if dueAt p i.now ip then 0
        else bytesFor ip d (gathered p.live) + bytesFor ip d (observed i.observations) := by
    rw [bytes_passAll, isDue_takeIn, bytesFor_takeIn (hfits p hp ip d)]
  constructor
  · intro h hloses
    cases hloses with
    | @forget _ ip d hforgotten hdue hpos =>
      have hzero := hasBytes_eq_false_iff.mp (h ip hforgotten) d
      rw [hbytes, if_neg (ne_true_of_eq_false hdue)] at hzero
      omega
  · intro h ip hforgotten
    rw [← Bool.not_eq_true, hasBytes_eq_true_iff]
    rintro ⟨d, hpos⟩
    rw [hbytes] at hpos
    split_ifs at hpos with hdue
    · exact absurd hpos (Nat.lt_irrefl 0)
    · exact h (.forget hforgotten (Bool.eq_false_of_not_eq_true hdue) hpos)

theorem spared_of_looping (hp : p.looping = true) (hq : q.looping = true) :
    Spared l q ↔ Spared l p := by
  constructor
  · rintro ⟨hfailed, hforgotten, -⟩
    exact ⟨hfailed, hforgotten, fun h => absurd hp (ne_true_of_eq_false h)⟩
  · rintro ⟨hfailed, hforgotten, -⟩
    exact ⟨hfailed, hforgotten, fun h => absurd hq (ne_true_of_eq_false h)⟩

theorem spared_congr (hwork : q.work = p.work) (hlooping : q.looping = p.looping) :
    Spared l q ↔ Spared l p := by
  constructor
  · rintro ⟨hfailed, hforgotten, hstopped⟩
    exact ⟨hfailed, hforgotten, hwork ▸ hlooping ▸ hstopped⟩
  · rintro ⟨hfailed, hforgotten, hstopped⟩
    exact ⟨hfailed, hforgotten, hwork ▸ hlooping ▸ hstopped⟩

/-- What a step of the loop leaves as it was. -/
structure Frame (p q : Process) : Prop where
  looping : q.looping = p.looping
  shutdown : q.shutdown = p.shutdown
  bytes : ∀ ip d, bytesFor ip d (gathered q.live) = bytesFor ip d (gathered p.live)

theorem frame_perform {work : List Op} {clock : DateTime} {op : Op} :
    ∀ q ∈ (perform s p work ok clock op).process, Frame p q := by
  cases op with
  | openSession ip startedAt =>
    unfold ClientsLoop.perform
    cases ok 0
    · exact fun q hq => Option.some.inj hq ▸ ⟨rfl, rfl, fun _ _ => rfl⟩
    · exact fun q hq => Option.some.inj hq ▸ ⟨rfl, rfl, fun _ _ => rfl⟩
  | enterSession ip id =>
    exact fun q hq => Option.some.inj hq ▸ ⟨rfl, rfl, bytesFor_enter p.live ip id⟩
  | prune =>
    unfold ClientsLoop.perform
    cases pruneCutoff p.timing.retentionHours clock with
    | none => exact fun q hq => by cases hq
    | some cutoff => exact fun q hq => Option.some.inj hq ▸ ⟨rfl, rfl, fun _ _ => rfl⟩
  | upsert | closeSession | flush | forget =>
    exact fun q hq => Option.some.inj hq ▸ ⟨rfl, rfl, fun _ _ => rfl⟩

theorem ledger_perform {work : List Op} {clock : DateTime} {op : Op} (hop : ∀ f, op ≠ .flush f) :
    (perform s p work ok clock op).ledger = s.ledger := by
  cases op with
  | flush f => exact absurd rfl (hop f)
  | openSession ip startedAt =>
    unfold ClientsLoop.perform
    cases ok 0 <;> rfl
  | prune =>
    unfold ClientsLoop.perform
    cases pruneCutoff p.timing.retentionHours clock <;> rfl
  | upsert | closeSession | enterSession | forget => rfl

theorem loses_write_iff {work : List Op} {clock : DateTime} (hwork : p.work = .flush f :: work) :
    Loses p (.proceed ok clock) ↔ hasBytes f.row.counters = true ∧ ok 0 = false := by
  constructor
  · rintro ⟨⟩
    rename_i hwork' hbytes hfails
    rw [hwork] at hwork'
    cases hwork'
    exact ⟨hbytes, hfails⟩
  · exact fun ⟨hbytes, hfails⟩ => .write hwork hbytes hfails

theorem loses_hand_iff {rest : List Flush} (hshutdown : p.shutdown = .flushing (f :: rest)) :
    Loses p (.hand ok) ↔ hasBytes f.row.counters = true ∧ ok 0 = false := by
  constructor
  · rintro ⟨⟩
    rename_i hshutdown' hbytes hfails
    rw [hshutdown] at hshutdown'
    cases hshutdown'
    exact ⟨hbytes, hfails⟩
  · exact fun ⟨hbytes, hfails⟩ => .hand hshutdown hbytes hfails

/-- A step of the loop loses bytes where it fails to write a bucket that has some. -/
theorem spared_perform {work : List Op} {clock : DateTime} {op : Op} (hlooping : p.looping = true)
    (hwork : p.work = op :: work) (hq : (perform s p work ok clock op).process = some q) :
    Spared (perform s p work ok clock op).ledger q ↔
      Spared s.ledger p ∧ ¬ Loses p (.proceed ok clock) := by
  have hsame : q.looping = true := (frame_perform q hq).looping.trans hlooping
  by_cases hflush : ∃ f, op = .flush f
  · obtain ⟨f, rfl⟩ := hflush
    have hbucket : Spared (s.ledger.bucket f ok) p ↔
        Spared s.ledger p ∧ ¬ (hasBytes f.row.counters = true ∧ ok 0 = false) :=
      spared_bucket_iff (fun _ => rfl) rfl rfl
    have hon : Spared (s.ledger.bucket f ok) q ↔ Spared (s.ledger.bucket f ok) p :=
      spared_of_looping hlooping hsame
    rw [loses_write_iff hwork]
    exact hon.trans hbucket
  · have hnot : ∀ f, op ≠ .flush f := fun f h => hflush ⟨f, h⟩
    rw [ledger_perform hnot, spared_of_looping hlooping hsame]
    refine (and_iff_left fun hloses => ?_).symm
    cases hloses with
    | write hwork' =>
      rw [hwork] at hwork'
      cases hwork'
      exact hnot _ rfl

/-- **What one step loses.** -/
theorem Moves.spared_iff (hmove : Moves s p e s') (hp : s.process = some p)
    (hq : s'.process = some q) (hfits : Fits s e s') :
    Spared s'.ledger q ↔ Spared s.ledger p ∧ ¬ Loses p e := by
  cases hmove with
  | stop => cases hq
  | @tick i hlooping hwork =>
    cases hq
    have hforgotten := forgotten_iff hfits hp
    have hon : p.looping = false → False := fun h => Bool.noConfusion (hlooping.symm.trans h)
    constructor
    · rintro ⟨hfailed, hall, -⟩
      obtain ⟨hbefore, hnew⟩ := List.forall_mem_append.mp hall
      exact ⟨⟨hfailed, hbefore, fun h => (hon h).elim⟩, hforgotten.mp (List.forall_mem_map.mp hnew)⟩
    · rintro ⟨⟨hfailed, hbefore, -⟩, hloses⟩
      refine ⟨hfailed, List.forall_mem_append.mpr ⟨hbefore, ?_⟩, fun h => (hon h).elim⟩
      exact List.forall_mem_map.mpr (hforgotten.mpr hloses)
  | proceed hlooping hwork => exact spared_perform hlooping hwork hq
  | @take now hshutdown =>
    cases hq
    rw [and_iff_left (fun h : Loses p (.take now) => nomatch h)]
    exact spared_congr rfl rfl
  | hand hshutdown =>
    cases hq
    rw [loses_hand_iff hshutdown]
    exact spared_bucket_iff (fun _ => rfl) rfl rfl
  | signal hshutdown =>
    cases hq
    rw [and_iff_left (fun h : Loses p .signal => nomatch h)]
    exact spared_congr rfl rfl
  | abort hshutdown =>
    cases hq
    rw [and_iff_left (fun h : Loses p .abort => nomatch h)]
    exact spared_congr rfl rfl
  | cancel hshutdown hlooping =>
    cases hq
    constructor
    · rintro ⟨hfailed, hforgotten, hstopped⟩
      refine ⟨⟨hfailed, hforgotten, fun h => absurd hlooping (ne_true_of_eq_false h)⟩, fun h => ?_⟩
      cases h with
      | cancel hflush hbytes => exact absurd hbytes (ne_true_of_eq_false (hstopped rfl _ hflush))
    · rintro ⟨⟨hfailed, hforgotten, -⟩, hloses⟩
      exact ⟨hfailed, hforgotten, fun _ f hflush =>
        Bool.eq_false_of_not_eq_true fun hbytes => hloses (.cancel hflush hbytes)⟩
  | leave hshutdown hlooping hwork =>
    cases hq
    rw [and_iff_left (fun h : Loses p .leave => nomatch h)]
    constructor
    · rintro ⟨hfailed, hforgotten, -⟩
      exact ⟨hfailed, hforgotten, fun h => absurd hlooping (ne_true_of_eq_false h)⟩
    · rintro ⟨hfailed, hforgotten, -⟩
      refine ⟨hfailed, hforgotten, fun _ f hflush => ?_⟩
      rw [show ({ p with looping := false } : Process).work = p.work from rfl, hwork] at hflush
      cases hflush

/-- Once the buckets have been taken, the live state has the bytes that came late. -/
def HoldsLate (ip : Ipv4Addr) (d : Direction) (p : Process) (late : Prop) : Prop :=
  if p.taken then 0 < bytesFor ip d (gathered p.live) ↔ late else ¬ late

theorem HoldsLate.congr {late : Prop} (h : HoldsLate ip d p late) (htaken : q.taken = p.taken)
    (hbytes : bytesFor ip d (gathered q.live) = bytesFor ip d (gathered p.live)) :
    HoldsLate ip d q late := by
  rwa [HoldsLate, htaken, hbytes]

theorem HoldsLate.tick {late : Prop} (h : HoldsLate ip d p late) (hp : s.process = some p)
    (hq : (fold s p i).process = some q) (hfits : Fits s (.tick i) s') (hkept : ¬ Loses p (.tick i)) :
    HoldsLate ip d q
      (TakesLate ip d s (.tick i) s' ∨ NotDue ip s (.tick i) s' ∧ late) := by
  cases hq
  have hafter := bytesFor_afterTick (hfits p hp ip d)
  have hlate : TakesLate ip d s (.tick i) s' ↔
      p.taken = true ∧ 0 < bytesFor ip d (observed i.observations) ∧ dueAt p i.now ip = false := by
    simp [TakesLate, hp]
  have hnotDue : NotDue ip s (.tick i) s' ↔ dueAt p i.now ip = false := by
    simp [NotDue, hp]
  unfold HoldsLate at h ⊢
  rw [hlate, hnotDue]
  change if p.taken then _ else _
  cases htaken : p.taken with
  | false =>
    rw [htaken, if_neg Bool.false_ne_true] at h
    simp [h]
  | true =>
    rw [htaken, if_pos rfl] at h
    rw [if_pos rfl, hafter, ← h]
    cases hdue : dueAt p i.now ip with
    | true => simp
    | false =>
      -- A client whose bucket is not due is forgotten only if there is nothing in it.
      have hforgotten : ip ∈ forgets i.now (passAll p.timing i.now (takeIn i p.live).live) →
          bytesFor ip d (gathered p.live) + bytesFor ip d (observed i.observations) = 0 :=
        fun hin => Nat.eq_zero_of_not_pos fun hpos => hkept (.forget hin hdue hpos)
      simp only [true_and, and_true, Bool.false_eq_true, if_false]
      split_ifs with hin
      · have := hforgotten hin
        omega
      · omega

theorem HoldsLate.move {late : Prop} (h : HoldsLate ip d p late) (hmove : Moves s p e s')
    (hp : s.process = some p) (hq : s'.process = some q) (hfits : Fits s e s')
    (hkept : ¬ Loses p e) : HoldsLate ip d q (TakesLate ip d s e s' ∨ NotDue ip s e s' ∧ late) := by
  have hother (he : ∀ i, e ≠ .tick i) : (TakesLate ip d s e s' ∨ NotDue ip s e s' ∧ late) ↔ late := by
    have hlate : ¬ TakesLate ip d s e s' := by
      rintro ⟨_, -, i, heq, -⟩
      exact he i heq
    have hnot : NotDue ip s e s' := fun _ _ i heq => absurd heq (he i)
    rw [or_iff_right hlate, and_iff_right hnot]
  cases hmove with
  | stop => cases hq
  | tick hlooping hwork => exact h.tick hp hq hfits hkept
  | proceed hlooping hwork =>
    rw [hother fun i h => by cases h]
    have hframe := frame_perform q hq
    exact h.congr (by rw [Process.taken, hframe.shutdown, Process.taken]) (hframe.bytes ip d)
  | @take now hshutdown =>
    rw [hother fun i h => by cases h]
    cases hq
    have hbefore : p.taken = false := by rw [Process.taken, hshutdown]
    rw [HoldsLate, hbefore, if_neg Bool.false_ne_true] at h
    have hempty := bytesFor_emptied ip d now p.live
    change 0 < bytesFor ip d (gathered (emptied now p.live)) ↔ late
    rw [hempty]
    exact iff_of_false (Nat.lt_irrefl 0) h
  | hand hshutdown =>
    rw [hother fun i h => by cases h]
    cases hq
    exact h.congr (by simp [Process.taken, hshutdown]) rfl
  | signal hshutdown =>
    rw [hother fun i h => by cases h]
    cases hq
    exact h.congr (by simp [Process.taken, hshutdown]) rfl
  | abort hshutdown =>
    rw [hother fun i h => by cases h]
    cases hq
    exact h.congr (by simp [Process.taken, hshutdown]) rfl
  | cancel | leave =>
    rw [hother fun i h => by cases h]
    cases hq
    exact h.congr rfl rfl

theorem lost_iff {s₀ s₁ s : Sys} {cfg : ClientsConfig} {now : DateTime} {rosterRead sessionsRead : Bool}
    {life : List Event} {p : Process}
    (hstart : step s₀ (.start cfg now rosterRead sessionsRead) = some s₁)
    (hrun : Run step s₁ life s) (hlife : ∀ e ∈ life, e.isStart = false)
    (hfits : AllSteps step Fits s₁ life) (hp : s.process = some p) :
    (Spared s.ledger p ↔ AllSteps step (fun t e u => ¬ LosesAt t e u) s₁ life) ∧
      (Spared s.ledger p → ∀ ip d, HoldsLate ip d p (Late ip d s₁ life)) := by
  induction hrun generalizing p with
  | nil =>
    rcases step_cases hstart with ⟨_, t, _, _, _, -, -, -, rfl⟩ | ⟨q, hq, hmove⟩
    · cases hp
      refine ⟨iff_of_true ⟨List.forall_mem_nil _, List.forall_mem_nil _, fun h => by cases h⟩
        (allSteps_nil _ _), fun _ ip d => ?_⟩
      exact not_sinceStep_nil _ _ _
    · cases hmove
  | @concat es t e u hrun hstep ih =>
    rw [List.forall_mem_append, List.forall_mem_singleton] at hlife
    rw [allSteps_concat hrun] at hfits
    rcases step_cases hstep with ⟨_, _, _, _, _, -, -, rfl, -⟩ | ⟨q, hq, hmove⟩
    · cases hlife.2
    · obtain ⟨hspared, hlate⟩ := ih hlife.1 hfits.1 hq
      have hone := hmove.spared_iff hq hp (hfits.2 u hstep)
      have hloses : LosesAt t e u ↔ Loses q e := by simp [LosesAt, hq]
      constructor
      · rw [hone, hspared, allSteps_concat hrun]
        simp only [hstep, Option.some.injEq, forall_eq', hloses]
      · intro h ip d
        obtain ⟨hbefore, hkept⟩ := hone.mp h
        have hmoved := (hlate hbefore ip d).move hmove hq hp (hfits.2 u hstep) hkept
        rwa [Late, sinceStep_concat hrun hstep]

end Lost

/-- Once the loop is stopped, what is left behind is what came late and what the steps have lost. -/
theorem leftBehind_spared_iff {l : Ledger} {p : Process} (hstopped : p.looping = false) :
    (∀ e ∈ leftBehind l p, hasBytes e.2 = false) ↔
      (∀ e ∈ gathered p.live, hasBytes e.2 = false) ∧ Spared l p := by
  have hwork : (∀ e ∈ inRows (p.work.filterMap Op.bucket), hasBytes e.2 = false) ↔
      ∀ f, .flush f ∈ p.work → hasBytes f.row.counters = false := by
    simp only [inRows, List.forall_mem_map, List.mem_filterMap]
    constructor
    · exact fun h f hflush => h f.row ⟨.flush f, hflush, rfl⟩
    · rintro h r ⟨op, hop, hbucket⟩
      cases op with
      | flush f =>
        cases hbucket
        exact h f hop
      | _ => cases hbucket
  have hfailed : (∀ e ∈ inRows l.failed, hasBytes e.2 = false) ↔
      ∀ r ∈ l.failed, hasBytes r.counters = false := List.forall_mem_map
  simp only [leftBehind, List.forall_mem_append, hwork, hfailed]
  constructor
  · rintro ⟨⟨⟨hlive, hflush⟩, hfailed⟩, hforgotten⟩
    exact ⟨hlive, hfailed, hforgotten, fun _ => hflush⟩
  · rintro ⟨hlive, hfailed, hforgotten, hflush⟩
    exact ⟨⟨⟨hlive, hflush hstopped⟩, hfailed⟩, hforgotten⟩

/-- **What a shutdown loses.** When it has finished, what the process has observed is written, if and
only if none of its steps lost bytes, and those that came after the buckets were taken have gone into
a bucket that was due. -/
theorem nothing_lost_iff {s₀ s₁ s : Sys} {cfg : ClientsConfig} {now : DateTime}
    {rosterRead sessionsRead : Bool} {life : List Event} {p : Process}
    (hstart : step s₀ (.start cfg now rosterRead sessionsRead) = some s₁)
    (hrun : Run step s₁ life s) (hlife : ∀ e ∈ life, e.isStart = false)
    (hfits : AllSteps step Fits s₁ life) (hp : s.process = some p) (hfinished : p.finished) :
    (∀ ip d, bytesFor ip d (observed s.ledger.folded) = bytesFor ip d (inRows s.ledger.written)) ↔
      AllSteps step (fun t e u => ¬ LosesAt t e u) s₁ life ∧ ∀ ip d, ¬ Late ip d s₁ life := by
  obtain ⟨hspared, hlate⟩ := lost_iff hstart hrun hlife hfits hp
  have hstarted : ∀ q ∈ s₁.process, Accounted s₁.ledger q := by
    rcases step_cases hstart with ⟨_, t, _, _, _, -, -, -, rfl⟩ | ⟨q, hq, hmove⟩
    · exact accounted_start
    · cases hmove
  have haccounted := hrun.invariant (fun _ _ _ h hstep hfits => accounted_step h hstep hfits) hfits
    hstarted p hp
  obtain ⟨hshutdown, hstopped⟩ := hfinished
  have htaken : p.taken = true := by rw [Process.taken, hshutdown]
  have hnone : ∀ ip d, bytesFor ip d (inRows p.shutdown.buckets) = 0 := by
    intro ip d
    rw [hshutdown]
    rfl
  have hleft : (∀ ip d, bytesFor ip d (observed s.ledger.folded) =
      bytesFor ip d (inRows s.ledger.written)) ↔
        ∀ e ∈ leftBehind s.ledger p, hasBytes e.2 = false := by
    rw [← bytesFor_eq_zero_iff]
    refine forall_congr' fun ip => forall_congr' fun d => ?_
    have hip := haccounted ip d
    rw [hnone] at hip
    omega
  have hlive (h : Spared s.ledger p) : (∀ e ∈ gathered p.live, hasBytes e.2 = false) ↔
      ∀ ip d, ¬ Late ip d s₁ life := by
    rw [← bytesFor_eq_zero_iff]
    refine forall_congr' fun ip => forall_congr' fun d => ?_
    have hholds := hlate h ip d
    rw [HoldsLate, htaken, if_pos rfl] at hholds
    rw [← hholds, Nat.not_lt, Nat.le_zero]
  rw [hleft, leftBehind_spared_iff hstopped, ← hspared, and_comm]
  exact and_congr_right hlive

/-! ## A tick in the middle of a shutdown -/

/-- The shutdown takes and writes what there is, and the loop is stopped; before that, it may have
passed over the clients once more. -/
def halt (last : List Event) : List Event :=
  arrival .default ++ [glance 10 true ⟨1000, 1, 0, 0⟩, .signal, .take (moment 12)] ++ last ++
    [.hand fun _ => true, .abort, .cancel]

/-- All writes succeed. -/
def Succeeding (_ : Sys) (e : Event) (_ : Sys) : Prop :=
  match e with
  | .proceed ok _ | .hand ok => ∀ i, ok i = true
  | _ => True

instance (s : Sys) (e : Event) (t : Sys) : Decidable (Succeeding s e t) :=
  match e with
  | .proceed _ _ | .hand _ => inferInstanceAs (Decidable (∀ _ : Fin 3, _))
  | .start _ _ _ _ | .stop | .tick _ | .signal | .take _ | .abort | .cancel | .leave => isTrue trivial

/-- Little enough, whoever it belongs to. -/
def fitsEasily (s : Sys) (e : Event) (_ : Sys) : Bool :=
  match e, s.process with
  | .tick i, some p => [Direction.download, .upload].all fun d =>
    decide (((gathered p.live).map fun e => e.2.bytes d).sum +
      ((observed i.observations).map fun e => e.2.bytes d).sum < 2 ^ 64)
  | _, _ => true

theorem bytesFor_le_sum (ip : Ipv4Addr) (d : Direction) (l : List (Ipv4Addr × ClientCounters)) :
    bytesFor ip d l ≤ (l.map fun e => e.2.bytes d).sum := by
  apply List.sum_le_sum
  intro e _
  split_ifs
  · exact le_refl _
  · exact Nat.zero_le _

theorem fits_of_fitsEasily {s : Sys} {e : Event} {t : Sys} (h : fitsEasily s e t = true) :
    Fits s e t := by
  cases e with
  | tick i =>
    intro p hp ip d
    rw [Option.mem_def] at hp
    simp only [fitsEasily, hp, List.all_eq_true, decide_eq_true_eq] at h
    have hd := h d (by cases d <;> simp)
    have hlive := bytesFor_le_sum ip d (gathered p.live)
    have hnew := bytesFor_le_sum ip d (observed i.observations)
    omega
  | _ => trivial

/-- No client is forgotten, all writes succeed, and the loop is stopped with nothing to write. -/
def losesNothing (s : Sys) (e : Event) (_ : Sys) : Bool :=
  match e, s.process with
  | .tick i, some p => (forgets i.now (passAll p.timing i.now (takeIn i p.live).live)).isEmpty
  | .proceed ok _, some _ | .hand ok, some _ => ok.first
  | .cancel, some p => p.work.all fun op => op.bucket.isNone
  | _, _ => true

theorem not_losesAt_of_losesNothing {s : Sys} {e : Event} {t : Sys} (h : losesNothing s e t = true) :
    ¬ LosesAt s e t := by
  rintro ⟨p, hp, hloses⟩
  rw [Option.mem_def] at hp
  cases hloses with
  | forget hforgotten =>
    simp only [losesNothing, hp, List.isEmpty_iff] at h
    rw [h] at hforgotten
    cases hforgotten
  | write _ _ hfails | hand _ _ hfails =>
    simp only [losesNothing, hp] at h
    exact Bool.noConfusion (h.symm.trans hfails)
  | cancel hflush =>
    simp only [losesNothing, hp, List.all_eq_true] at h
    cases h _ hflush

/-- No tick comes after the buckets were taken. -/
def inTime (s : Sys) (e : Event) (_ : Sys) : Bool :=
  match e, s.process with
  | .tick _, some p => !p.taken
  | _, _ => true

theorem not_late_of_inTime {s : Sys} {es : List Event}
    (h : AllSteps step (fun s e t => inTime s e t = true) s es) (ip : Ipv4Addr) (d : Direction) :
    ¬ Late ip d s es := by
  intro hlate
  refine someStep_iff_not_allSteps.mp hlate.someStep fun pre e post t u hes hpre hstep => ?_
  rintro ⟨p, hp, i, rfl, htaken, -⟩
  have hin := h pre _ post t u hes hpre hstep
  rw [Option.mem_def] at hp
  simp only [inTime, hp, htaken] at hin
  cases hin

/-- Without another tick, everything is written. -/
theorem nothing_lost_halt : ∃ s, Run step initial (halt []) s ∧
    bytesFor phone .download (inRows s.ledger.written) = 1000 ∧
      ∀ ip d, bytesFor ip d (observed s.ledger.folded) = bytesFor ip d (inRows s.ledger.written) := by
  have hsome : (exec step initial (halt [])).isSome = true := by decide +kernel
  have hrun := run_get hsome
  have hend := Run.of_all (P := fun s => (s.process.any fun p =>
    decide (p.shutdown = .aborting) && !p.looping) = true) (by decide +kernel) hrun
  refine ⟨_, hrun, Run.of_all
    (P := fun s => bytesFor phone .download (inRows s.ledger.written) = 1000) (by decide +kernel) hrun, ?_⟩
  rw [Option.any_eq_true] at hend
  obtain ⟨p, hp, hend⟩ := hend
  simp only [Bool.and_eq_true, decide_eq_true_eq, Bool.not_eq_true'] at hend
  have hfits : AllSteps step Fits initial (halt []) :=
    allSteps_of_check (c := fitsEasily) (fun _ _ _ => fits_of_fitsEasily) (by decide +kernel)
  have hkept : AllSteps step (fun s e t => ¬ LosesAt s e t) initial (halt []) :=
    allSteps_of_check (c := losesNothing) (fun _ _ _ => not_losesAt_of_losesNothing)
      (by decide +kernel)
  have hinTime : AllSteps step (fun s e t => inTime s e t = true) initial (halt []) :=
    allSteps_of_check (c := inTime) (fun _ _ _ => id) (by decide +kernel)
  obtain ⟨s₁, hstart, hlife⟩ := run_cons_iff.mp hrun
  exact (nothing_lost_iff hstart hlife (by decide) ((allSteps_cons hstart).mp hfits).2 hp hend).mpr
    ⟨((allSteps_cons hstart).mp hkept).2, not_late_of_inTime ((allSteps_cons hstart).mp hinTime).2⟩

/-- A tick that comes after the buckets were taken is not written. -/
theorem bytes_lost :
    ¬ ∀ (es : List Event) (s : Sys) (p : Process), Run step initial es s →
      AllSteps step Succeeding initial es → s.process = some p → p.finished →
        ∀ ip d, bytesFor ip d (observed s.ledger.folded) = bytesFor ip d (inRows s.ledger.written) := by
  intro hall
  have hsome : (exec step initial (halt [glance 15 true ⟨200, 1, 0, 0⟩])).isSome = true := by
    decide +kernel
  have hrun := run_get hsome
  have hsucceeding : AllSteps step Succeeding initial (halt [glance 15 true ⟨200, 1, 0, 0⟩]) :=
    allSteps_of_check (c := fun s e t => decide (Succeeding s e t)) (fun _ _ _ => of_decide_eq_true)
      (by decide +kernel)
  have hend := Run.of_all (P := fun s => (s.process.any fun p =>
    decide (p.shutdown = .aborting) && !p.looping) = true) (by decide +kernel) hrun
  have hnot := Run.of_all (P := fun s => bytesFor phone .download (observed s.ledger.folded) ≠
    bytesFor phone .download (inRows s.ledger.written)) (by decide +kernel) hrun
  rw [Option.any_eq_true] at hend
  obtain ⟨p, hp, hend⟩ := hend
  simp only [Bool.and_eq_true, decide_eq_true_eq, Bool.not_eq_true'] at hend
  exact hnot (hall _ _ p hrun hsucceeding hp hend phone .download)

end Vlb.ClientsLoop
