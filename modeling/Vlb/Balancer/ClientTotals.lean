import Vlb.Balancer.Clients

/-!
# Sessions and samples

The traffic of a bucket is written twice: as a sample, and to the totals of the session that the
client has. A bucket that is due while the client has no session goes to the samples alone.

* `Booked`: every session that the live state or a step refers to has its row.
* `WithSession`: a bucket with bytes in it is only written while its client has a session.
* `totals_equal`: then the sessions of a client add up to its samples.
-/

namespace Vlb.ClientsLoop

open Clients Entries Stats Time Transition

/-- The bytes of every client are the same in both tables. -/
def Balanced (db : ClientTables) : Prop := ∀ ip d, db.sessions.total ip d = sampleTotal db.samples ip d

/-- The settings are accepted, nothing is pruned, and every write succeeds. -/
def Undisturbed (_ : Sys) (e : Event) (_ : Sys) : Prop :=
  match e with
  | .start cfg _ _ _ => cfg.validate = .ok () ∧ cfg.retentionHours = 0
  | .proceed ok _ | .hand ok => ∀ i, ok i = true
  | _ => True

/-- When a bucket with bytes in it is due, or is taken at shutdown, the client has a session, which
does not end in this tick. -/
def WithSession (s : Sys) (e : Event) (_ : Sys) : Prop :=
  match e with
  | .tick i => ∀ p ∈ s.process, ∀ ip, ∀ c ∈ (takeIn i p.live).live.lookup ip,
    isDue p.timing i.now c = true → hasBytes c.pending = true →
      c.sessionId.isSome = true ∧ timesOut p.timing i.now c = false
  | .take _ => ∀ p ∈ s.process, ∀ ip, ∀ c ∈ p.live.lookup ip,
    hasBytes c.pending = true → c.sessionId.isSome = true
  | _ => True

/-- The session of the bucket is one of the client, unless there is nothing to add to it. -/
def Flush.Bookable (sessions : Sessions) (f : Flush) : Prop :=
  (∀ id ∈ f.session, sessions.Has id f.row.ip) ∧
    (hasBytes f.row.counters = true → f.session.isSome = true)

/-- A step that leaves the sessions and the samples in balance. -/
def Op.Bookable (sessions : Sessions) : Op → Prop
  | .enterSession ip id => sessions.Has id ip
  | .flush f => f.Bookable sessions
  | .prune => False
  | _ => True

/-- Every session that is referred to has its row, and no row is pruned. -/
structure Booked (sessions : Sessions) (p : Process) : Prop where
  retention : p.timing.retentionHours = 0
  live : ∀ ip, ∀ c ∈ p.live.lookup ip, ∀ id ∈ c.sessionId, sessions.Has id ip
  work : ∀ op ∈ p.work, op.Bookable sessions
  rest : ∀ rest, p.shutdown = .flushing rest → ∀ f ∈ rest, f.Bookable sessions

section Steps

variable {sessions sessions' : Sessions} {p : Process} {db : ClientTables} {f : Flush} {ok : Succeeds}
  {op : Op} {work : List Op} {s s' : Sys} {clock : DateTime}

theorem Flush.Bookable.mono (h : f.Bookable sessions)
    (hmono : ∀ id ip, sessions.Has id ip → sessions'.Has id ip) : f.Bookable sessions' :=
  h.imp_left fun hrow id hid => hmono id f.row.ip (hrow id hid)

theorem Op.Bookable.mono (h : op.Bookable sessions)
    (hmono : ∀ id ip, sessions.Has id ip → sessions'.Has id ip) : op.Bookable sessions' := by
  cases op with
  | enterSession ip id => exact hmono id ip h
  | flush f => exact Flush.Bookable.mono h hmono
  | prune => exact h
  | upsert | closeSession | openSession | forget => trivial

theorem Booked.mono (h : Booked sessions p)
    (hmono : ∀ id ip, sessions.Has id ip → sessions'.Has id ip) : Booked sessions' p where
  retention := h.retention
  live ip c hc id hid := hmono id ip (h.live ip c hc id hid)
  work op hop := (h.work op hop).mono hmono
  rest rest hrest f hf := (h.rest rest hrest f hf).mono hmono

theorem Booked.next (h : Booked sessions p) (hwork : p.work = op :: work) :
    Booked sessions { p with work } :=
  ⟨h.retention, h.live, fun op' hop' => h.work op' (hwork ▸ List.mem_cons_of_mem op hop'), h.rest⟩

theorem Balanced.writeBucket (h : Balanced db) (hf : f.Bookable db.sessions) (hok : ∀ i, ok i = true) :
    Balanced (writeBucket db f ok) := by
  intro ip d
  have hsample := sampleTotal_concat ip d db.samples f.row
  cases hsession : f.session with
  | none =>
    have hwrite : ClientsLoop.writeBucket db f ok = db.recordClientSample f.row := by
      rw [ClientsLoop.writeBucket, hok 0, hsession]
      rfl
    have hnone : hasBytes f.row.counters = false := by
      rw [← Bool.not_eq_true]
      intro hbytes
      have hsome := hf.2 hbytes
      rw [hsession] at hsome
      cases hsome
    have hzero : f.row.counters.octets d = 0 := by
      simp only [hasBytes, decide_eq_false_iff_not, not_or, not_not] at hnone
      cases d
      · exact hnone.1
      · exact hnone.2
    rw [hzero, asI64_zero, ite_self, add_zero] at hsample
    rw [hwrite]
    exact (h ip d).trans hsample.symm
  | some id =>
    obtain ⟨r, hr, rfl, hip⟩ := hf.1 id hsession
    have hwrite : ClientsLoop.writeBucket db f ok =
        (db.recordClientSample f.row).addSessionBytes r.id f.row.counters.rxBytes
          f.row.counters.txBytes := by
      rw [ClientsLoop.writeBucket, hok 0, hok 1, hsession]
      rfl
    have hin : r ∈ (db.recordClientSample f.row).sessions.rows := hr
    rw [hwrite, ClientTables.total_addSessionBytes hin, ClientTables.samples_addSessionBytes, hip]
    exact (congrArg (· + _) (h ip d)).trans hsample.symm

theorem has_writeBucket {id : ℕ} {ip : Ipv4Addr} (h : db.sessions.Has id ip) :
    (writeBucket db f ok).sessions.Has id ip := by
  unfold writeBucket
  cases f.session with
  | none => cases ok 0 <;> exact h
  | some id' =>
    cases ok 0 <;> cases ok 1
    · exact h
    · exact ClientTables.has_addSessionBytes h
    · exact h
    · exact ClientTables.has_addSessionBytes h

theorem Flush.Bookable.writeBucket {f' : Flush} (h : f'.Bookable db.sessions) :
    f'.Bookable (writeBucket db f ok).sessions := h.mono fun _ _ => has_writeBucket

/-- What holds between two steps. -/
structure Even (s : Sys) : Prop where
  balanced : Balanced s.db
  booked : ∀ p ∈ s.process, Booked s.db.sessions p

theorem Booked.perform (h : Booked s.db.sessions p) (hbalanced : Balanced s.db)
    (hwork : p.work = op :: work) (hok : ∀ i, ok i = true) : Even (perform s p work ok clock op) := by
  have hnext := h.next hwork
  have hop : op.Bookable s.db.sessions := h.work op (hwork ▸ List.mem_cons_self)
  cases op with
  | upsert facts now =>
    unfold ClientsLoop.perform
    rw [hok 0]
    exact ⟨hbalanced, fun q hq => Option.some.inj hq ▸ hnext⟩
  | closeSession id ended =>
    have hmono : ∀ id' ip, s.db.sessions.Has id' ip →
        (s.db.closeClientSession id ended).sessions.Has id' ip :=
      fun _ _ hrow => hrow.update (endRow_id id ended) (endRow_ip id ended)
    unfold ClientsLoop.perform
    rw [hok 0]
    refine ⟨fun ip d => ?_, fun q hq => Option.some.inj hq ▸ hnext.mono hmono⟩
    exact Sessions.total_endRow.trans (hbalanced ip d)
  | openSession ip startedAt =>
    have hmono : ∀ id' ip', s.db.sessions.Has id' ip' →
        (s.db.openClientSession ip startedAt).2.sessions.Has id' ip' := fun _ _ hrow => hrow.insert
    have hopened := hnext.mono hmono
    unfold ClientsLoop.perform
    rw [hok 0]
    refine ⟨fun ip d => Sessions.total_insert.trans (hbalanced ip d), fun q hq => Option.some.inj hq ▸ ?_⟩
    refine ⟨hopened.retention, hopened.live, fun op' hop' => ?_, hopened.rest⟩
    rcases List.mem_cons.mp hop' with rfl | hop'
    · exact Sessions.has_insert
    · exact hopened.work op' hop'
  | enterSession ip id =>
    refine ⟨hbalanced, fun q hq => Option.some.inj hq ▸ ⟨h.retention, ?_, hnext.work, h.rest⟩⟩
    dsimp only
    intro ip' c' hc' id' hid'
    cases hc : p.live.lookup ip with
    | none =>
      rw [hc] at hc'
      exact h.live ip' c' hc' id' hid'
    | some c =>
      rw [hc] at hc'
      by_cases hip : ip' = ip
      · subst hip
        rw [AList.lookup_insert] at hc'
        cases hc'
        cases hid'
        exact hop
      · rw [AList.lookup_insert_ne hip] at hc'
        exact h.live ip' c' hc' id' hid'
  | flush f =>
    unfold ClientsLoop.perform
    rw [hok 2]
    exact ⟨hbalanced.writeBucket hop hok,
      fun q hq => Option.some.inj hq ▸ hnext.mono fun _ _ => has_writeBucket⟩
  | forget ip => exact ⟨hbalanced, fun q hq => Option.some.inj hq ▸ hnext⟩
  | prune => exact hop.elim

end Steps

/-! ## The buckets of a tick, and of the shutdown -/

section Buckets

variable {sessions : Sessions} {p : Process} {i : Sampled} {now : DateTime} {live : Live} {f : Flush}

theorem mem_takeBuckets (h : f ∈ takeBuckets now live) :
    ∃ ip c, live.lookup ip = some c ∧ f.session = c.sessionId ∧ f.row.ip = ip ∧
      f.row.counters = c.pending := by
  simp only [takeBuckets, List.mem_map, List.mem_filter] at h
  obtain ⟨⟨ip, c⟩, ⟨hin, -⟩, rfl⟩ := h
  exact ⟨ip, c, AList.mem_lookup_iff.mpr hin, rfl, rfl, rfl⟩

theorem Booked.tick (h : Booked sessions p)
    (hsession : ∀ ip, ∀ c ∈ (takeIn i p.live).live.lookup ip,
      isDue p.timing i.now c = true → hasBytes c.pending = true →
        c.sessionId.isSome = true ∧ timesOut p.timing i.now c = false) {lastPrune : DateTime} :
    Booked sessions
      { p with
        live := remaining p.timing i.now (takeIn i p.live)
        work := writes p.timing i.now (takeIn i p.live) ++ if prunes p i.now then [.prune] else []
        lastPrune } := by
  have htakes := takes_takeIn i p.live
  generalize takeIn i p.live = f at htakes hsession ⊢
  have hrow : ∀ {ip c id}, f.live.lookup ip = some c → c.sessionId = some id → sessions.Has id ip := by
    intro ip c id hc hid
    rw [htakes.session ip c hc] at hid
    obtain ⟨c₀, hc₀, hid⟩ := Option.bind_eq_some_iff.mp hid
    exact h.live ip c₀ hc₀ id hid
  refine ⟨h.retention, fun ip c' hc' id hid => ?_, fun op hop => ?_, h.rest⟩
  · obtain ⟨c, hc, rfl⟩ := of_lookup_remaining hc'
    rw [Option.mem_def, pass_sessionId, Option.ite_none_left_eq_some] at hid
    exact hrow hc hid.2
  · have hprune : prunes p i.now = false := by simp [prunes, h.retention]
    rw [hprune, if_neg Bool.false_ne_true, List.append_nil] at hop
    simp only [writes, List.mem_append, List.mem_map] at hop
    rcases hop with (((⟨_, _, rfl⟩ | ⟨_, _, rfl⟩) | ⟨_, _, rfl⟩) | ⟨flush, hin, rfl⟩) | ⟨_, _, rfl⟩
    · trivial
    · trivial
    · trivial
    · obtain ⟨ip, c, hc, hbucket⟩ := mem_flushes.mp hin
      obtain ⟨hdue, hflush, hip, hcounters⟩ := of_bucket hbucket
      obtain ⟨hpending, hsince⟩ := presence_pending i.now p.timing c
      rw [isDue, hsince] at hdue
      rw [hpending] at hcounters
      refine ⟨fun id hid => ?_, fun hbytes => ?_⟩
      · rw [Option.mem_def, hflush] at hid
        rw [hip]
        cases hout : timesOut p.timing i.now c with
        | true =>
          rw [presence_of_timesOut hout] at hid
          cases hid
        | false =>
          rw [presence_of_not_timesOut hout] at hid
          exact hrow hc hid
      · obtain ⟨hsome, hout⟩ := hsession ip c hc hdue (hcounters ▸ hbytes)
        rw [hflush, presence_of_not_timesOut hout]
        exact hsome
    · trivial

/-- The buckets are taken while every client that has moved anything has a session. -/
theorem Booked.take (h : Booked sessions p)
    (hsession : ∀ ip, ∀ c ∈ p.live.lookup ip, hasBytes c.pending = true → c.sessionId.isSome = true) :
    Booked sessions
      { p with live := emptied now p.live, shutdown := .flushing (takeBuckets now p.live) } := by
  refine ⟨h.retention, fun ip c' hc' id hid => ?_, h.work, fun rest hrest f hf => ?_⟩
  · rw [Option.mem_def, emptied, lookup_mapValues, Option.map_eq_some_iff] at hc'
    obtain ⟨c, hc, rfl⟩ := hc'
    split_ifs at hid <;> exact h.live ip c hc id hid
  · cases hrest
    obtain ⟨ip, c, hc, hflush, hip, hcounters⟩ := mem_takeBuckets hf
    refine ⟨fun id hid => ?_, fun hbytes => ?_⟩
    · rw [Option.mem_def, hflush] at hid
      exact hip ▸ h.live ip c hc id hid
    · rw [hflush]
      exact hsession ip c hc (hcounters ▸ hbytes)

end Buckets

/-! ## The runs -/

section Runs

variable {s s' : Sys} {p : Process} {e : Event}

theorem Even.move (h : Even s) (hp : s.process = some p) (hmove : Moves s p e s')
    (hundisturbed : Undisturbed s e s') (hsession : WithSession s e s') : Even s' := by
  have hbooked := h.booked p hp
  cases hmove with
  | stop => exact ⟨h.balanced, fun _ hq => by cases hq⟩
  | tick _ _ =>
    exact ⟨h.balanced, fun q hq => Option.some.inj hq ▸ hbooked.tick (hsession p hp)⟩
  | proceed _ hwork => exact hbooked.perform h.balanced hwork hundisturbed
  | @hand f rest ok hshutdown =>
    have hf : f.Bookable s.db.sessions := hbooked.rest _ hshutdown f List.mem_cons_self
    refine ⟨h.balanced.writeBucket hf hundisturbed, fun q hq => Option.some.inj hq ▸ ?_⟩
    have hwritten : Booked (writeBucket s.db f ok).sessions p := hbooked.mono fun _ _ => has_writeBucket
    refine ⟨hwritten.retention, hwritten.live, hwritten.work, fun rest' hrest f' hf' => ?_⟩
    cases hrest
    exact hwritten.rest _ hshutdown f' (List.mem_cons_of_mem f hf')
  | @take now _ =>
    exact ⟨h.balanced, fun q hq => Option.some.inj hq ▸ hbooked.take (hsession p hp)⟩
  | signal | abort =>
    refine ⟨h.balanced, fun q hq => Option.some.inj hq ▸ ?_⟩
    exact ⟨hbooked.retention, hbooked.live, hbooked.work, fun rest hrest => by cases hrest⟩
  | cancel | leave =>
    refine ⟨h.balanced, fun q hq => Option.some.inj hq ▸ ?_⟩
    exact ⟨hbooked.retention, hbooked.live, hbooked.work, hbooked.rest⟩

theorem timing_retentionHours {cfg : ClientsConfig} {t : Timing} (ht : cfg.timing = some t) :
    t.retentionHours = cfg.retentionHours := by
  simp only [ClientsConfig.timing, Option.bind_eq_bind, Option.bind_eq_some_iff] at ht
  obtain ⟨offlineAfter, -, persistEvery, -, heq⟩ := ht
  cases heq
  rfl

theorem Even.start (h : Even s) {t : Timing} (ht : t.retentionHours = 0) (now : DateTime)
    (rosterRead sessionsRead : Bool) : Even (start s t now rosterRead sessionsRead) := by
  refine ⟨h.balanced, fun q hq => Option.some.inj hq ▸ ⟨ht, fun ip c hc id hid => ?_, ?_, ?_⟩⟩
  · obtain ⟨row, hin, hip, rfl⟩ := lookup_resume hc
    cases hid
    cases sessionsRead with
    | true => exact ⟨row, (mem_openClientSessions.mp hin).1, rfl, hip⟩
    | false => cases hin
  · exact fun op hop => absurd hop List.not_mem_nil
  · exact fun rest hrest => by cases hrest

theorem Even.step (h : Even s) (hstep : step s e = some s') (hundisturbed : Undisturbed s e s')
    (hsession : WithSession s e s') : Even s' := by
  rcases step_cases hstep with ⟨cfg, t, now, rosterRead, sessionsRead, -, ht, rfl, rfl⟩ | ⟨p, hp, hmove⟩
  · exact h.start ((timing_retentionHours ht).trans hundisturbed.2) now rosterRead sessionsRead
  · exact h.move hp hmove hundisturbed hsession

theorem even_initial : Even initial := ⟨fun _ _ => rfl, fun _ hp => by cases hp⟩

end Runs

/-- **The sessions of a client add up to its samples.** Where a bucket is only written while its
client has a session. -/
theorem totals_equal {es : List Event} {s : Sys} (hrun : Run step initial es s)
    (hundisturbed : AllSteps step Undisturbed initial es)
    (hsession : AllSteps step WithSession initial es) : Balanced s.db :=
  (hrun.invariant (fun _ _ _ h hstep hC => h.step hstep hC.1 hC.2) (hundisturbed.and hsession)
    even_initial).balanced

/-! ## A bucket that is due as the phone comes back -/

/-- The default settings, without pruning. -/
def keepsAll : ClientsConfig := { ClientsConfig.default with retentionHours := 0 }

/-- The phone comes, moves something, and is gone; its bucket is emptied as it goes. -/
def absence : List Event :=
  arrival keepsAll ++ [glance 70 true ⟨3000, 2, 500, 1⟩, proceeds, glance 255 false .zero, proceeds]

/-- A kilobyte that is written a minute after the phone has come back. -/
def later : List Event :=
  absence ++ [glance 320 true .zero, proceeds, proceeds, glance 380 true ⟨1000, 1, 0, 0⟩, proceeds]

/-- One that is written in the tick that finds the phone back. -/
def atOnce : List Event :=
  absence ++ [glance 320 true ⟨1000, 1, 0, 0⟩, proceeds, proceeds, proceeds]

instance (s : Sys) (e : Event) (t : Sys) : Decidable (Undisturbed s e t) :=
  match e with
  | .start _ _ _ _ => inferInstanceAs (Decidable (_ ∧ _))
  | .proceed _ _ | .hand _ => inferInstanceAs (Decidable (∀ _ : Fin 3, _))
  | .stop | .tick _ | .signal | .take _ | .abort | .cancel | .leave => isTrue trivial

/-- The condition, entry by entry. -/
def withSession (s : Sys) (e : Event) (_ : Sys) : Bool :=
  match e, s.process with
  | .tick i, some p => (takeIn i p.live).live.entries.all fun e =>
    !(isDue p.timing i.now e.2 && hasBytes e.2.pending) ||
      e.2.sessionId.isSome && !timesOut p.timing i.now e.2
  | .take _, some p => p.live.entries.all fun e => !hasBytes e.2.pending || e.2.sessionId.isSome
  | _, _ => true

theorem withSession_of_check {s : Sys} {e : Event} {t : Sys} (h : withSession s e t = true) :
    WithSession s e t := by
  cases e with
  | tick i =>
    intro p hp ip c hc hdue hbytes
    rw [Option.mem_def] at hp
    simp only [withSession, hp, List.all_eq_true] at h
    have hall := h ⟨ip, c⟩ (AList.mem_lookup_iff.mp hc)
    simpa [hdue, hbytes] using hall
  | take now =>
    intro p hp ip c hc hbytes
    rw [Option.mem_def] at hp
    simp only [withSession, hp, List.all_eq_true] at h
    have hall := h ⟨ip, c⟩ (AList.mem_lookup_iff.mp hc)
    simpa [hbytes] using hall
  | _ => trivial

theorem totals_equal_later : ∃ s, Run step initial later s ∧
    s.db.sessions.total phone .download = 4000 ∧ Balanced s.db := by
  have hsome : (exec step initial later).isSome = true := by decide +kernel
  have hrun := run_get hsome
  refine ⟨_, hrun, Run.of_all (P := fun s => s.db.sessions.total phone .download = 4000)
    (by decide +kernel) hrun, ?_⟩
  exact totals_equal hrun
    (allSteps_of_check (c := fun s e t => decide (Undisturbed s e t)) (fun _ _ _ => of_decide_eq_true)
      (by decide +kernel))
    (allSteps_of_check (c := withSession) (fun _ _ _ => withSession_of_check) (by decide +kernel))

/-- Between two ticks the sessions may add up to less than the samples. -/
theorem totals_not_equal :
    ¬ ∀ (es : List Event) (s : Sys), Run step initial es s → AllSteps step Undisturbed initial es →
      (∀ p ∈ s.process, p.work = []) → Balanced s.db := by
  intro hall
  have hsome : (exec step initial atOnce).isSome = true := by decide +kernel
  have hrun := run_get hsome
  have hundisturbed : AllSteps step Undisturbed initial atOnce :=
    allSteps_of_check (c := fun s e t => decide (Undisturbed s e t)) (fun _ _ _ => of_decide_eq_true)
      (by decide +kernel)
  have hdone := Run.of_all (P := fun s => (s.process.all fun p => p.work.isEmpty) = true)
    (by decide +kernel) hrun
  have hnot := Run.of_all
    (P := fun s => s.db.sessions.total phone .download ≠ sampleTotal s.db.samples phone .download)
    (by decide +kernel) hrun
  refine hnot (hall _ _ hrun hundisturbed (fun p hp => ?_) phone .download)
  rw [Option.mem_def] at hp
  rw [hp] at hdone
  exact List.isEmpty_iff.mp hdone

end Vlb.ClientsLoop
