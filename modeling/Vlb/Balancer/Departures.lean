import Vlb.Balancer.Clients

/-!
# When a client left

A session ends when the client was last seen. What the live state says of this is lost when the daemon
stops, and a session that is taken up again counts as seen when the daemon starts.

* `seenTimes`: when a client was seen, by whichever run of the daemon.
* `Recalls`: what is said of a client that this run has seen is when it was seen.
* `departures_truthful`: no session ends after its client was last seen, if it has been seen since the
  start whenever it is taken to be gone.
-/

namespace Vlb.ClientsLoop

open Clients Entries Stats Time Transition

/-- The client is observed in this tick. -/
def isSeen (ip : Ipv4Addr) (observations : List ClientObservation) : Bool :=
  observations.any fun o => o.ip = ip ∧ o.seen = true

/-- The tick in which a client is seen. -/
def Event.sees (ip : Ipv4Addr) : Event → Option DateTime
  | .tick i => if isSeen ip i.observations then some i.now else none
  | _ => none

/-- When a client was seen. -/
def seenTimes (es : List Event) (ip : Ipv4Addr) : List DateTime := es.filterMap (Event.sees ip)

/-- No session has ended after its client was last seen. -/
def Truthful (es : List Event) (sessions : Sessions) : Prop :=
  ∀ r ∈ sessions.rows, ∀ ended ∈ r.endedAt, ∃ m ∈ seenTimes es r.ip, ended ≤ m

/-- A client that has a session and is not seen for too long has been seen since the start. -/
def SeenFirst (s : Sys) (e : Event) (_ : Sys) : Prop :=
  match e with
  | .tick i => ∀ p ∈ s.process, ∀ ip, ∀ c ∈ (takeIn i p.live).live.lookup ip,
    timesOut p.timing i.now c = true → c.sessionId.isSome = true →
      isSeen ip (s.ledger.folded ++ i.observations) = true
  | _ => True

/-- The id is that of a session of the client, if there still is one. -/
def Names (sessions : Sessions) (id : ℕ) (ip : Ipv4Addr) : Prop :=
  id ≤ sessions.lastId ∧ ∀ r ∈ sessions.rows, r.id = id → r.ip = ip

/-- What the process knows of its clients. -/
structure Recalls (es : List Event) (sessions : Sessions) (folded : List ClientObservation)
    (live : Live) (work : List Op) : Prop where
  names : ∀ ip c, live.lookup ip = some c → ∀ id ∈ c.sessionId, Names sessions id ip
  lastSeen : ∀ ip c, live.lookup ip = some c → c.online = true → isSeen ip folded = true →
    c.lastSeen ∈ seenTimes es ip
  enters : ∀ ip id, .enterSession ip id ∈ work → Names sessions id ip
  closes : ∀ id ended, .closeSession id ended ∈ work →
    ∃ ip, Names sessions id ip ∧ ∃ m ∈ seenTimes es ip, ended ≤ m

section Steps

variable {es : List Event} {e : Event} {sessions sessions' : Sessions} {folded : List ClientObservation}
  {live live' : Live} {op : Op} {work work' : List Op} {ip : Ipv4Addr} {id : ℕ} {m : DateTime}
  {i : Sampled} {t : Timing}

theorem seenTimes_concat (h : m ∈ seenTimes es ip) : m ∈ seenTimes (es ++ [e]) ip := by
  rw [seenTimes, List.filterMap_append]
  exact List.mem_append_left _ h

theorem mem_seenTimes_tick (h : isSeen ip i.observations = true) :
    i.now ∈ seenTimes (es ++ [.tick i]) ip := by
  rw [seenTimes, List.filterMap_append]
  apply List.mem_append_right
  simp [Event.sees, h]

theorem Truthful.concat (h : Truthful es sessions) : Truthful (es ++ [e]) sessions := by
  intro r hr ended hended
  obtain ⟨m, hm, hle⟩ := h r hr ended hended
  exact ⟨m, seenTimes_concat hm, hle⟩

/-- Rows may go, and new ones get new ids; none ends. -/
structure Continues (sessions sessions' : Sessions) : Prop where
  issued : sessions.lastId ≤ sessions'.lastId
  rows : ∀ r ∈ sessions'.rows,
    (∃ r' ∈ sessions.rows, r'.id = r.id ∧ r'.ip = r.ip ∧ r'.endedAt = r.endedAt) ∨
      (sessions.lastId < r.id ∧ r.endedAt = none)

theorem Continues.refl (sessions : Sessions) : Continues sessions sessions :=
  ⟨le_refl _, fun r hr => Or.inl ⟨r, hr, rfl, rfl, rfl⟩⟩

theorem continues_insert {startedAt : DateTime} :
    Continues sessions (sessions.insert ip startedAt).2 := by
  refine ⟨Nat.le_succ _, fun r hr => ?_⟩
  rcases List.mem_append.mp hr with hr | hr
  · exact Or.inl ⟨r, hr, rfl, rfl, rfl⟩
  · rw [List.mem_singleton.mp hr]
    exact Or.inr ⟨Nat.lt_succ_self _, rfl⟩

theorem continues_addSessionBytes (db : ClientTables) {rx tx : UInt64} :
    Continues db.sessions (db.addSessionBytes id rx tx).sessions := by
  unfold ClientTables.addSessionBytes
  split_ifs
  · exact .refl _
  · refine ⟨le_refl _, fun r hr => ?_⟩
    obtain ⟨r', hr', rfl⟩ := List.mem_map.mp hr
    refine Or.inl ⟨r', hr', (addToRow_id id rx tx r').symm, (addToRow_ip id rx tx r').symm, ?_⟩
    unfold addToRow
    split_ifs <;> rfl

theorem continues_keep {p : ClientSessionRow → Bool} : Continues sessions (sessions.keep p) :=
  ⟨le_refl _, fun r hr => Or.inl ⟨r, List.mem_of_mem_filter hr, rfl, rfl, rfl⟩⟩

theorem continues_writeBucket {db : ClientTables} {f : Flush} {ok : Succeeds} :
    Continues db.sessions (writeBucket db f ok).sessions := by
  unfold writeBucket
  cases f.session with
  | none => cases ok 0 <;> exact .refl _
  | some id =>
    cases ok 0 <;> cases ok 1
    · exact .refl _
    · exact continues_addSessionBytes _
    · exact .refl _
    · exact continues_addSessionBytes (db.recordClientSample f.row)

theorem Names.continues (h : Names sessions id ip) (hcont : Continues sessions sessions') :
    Names sessions' id ip := by
  refine ⟨h.1.trans hcont.issued, fun r hr hid => ?_⟩
  rcases hcont.rows r hr with ⟨r', hr', hid', hip, -⟩ | ⟨hnew, -⟩
  · rw [← hip]
    exact h.2 r' hr' (hid'.trans hid)
  · have hle := h.1
    omega

theorem Truthful.continues (h : Truthful es sessions) (hcont : Continues sessions sessions') :
    Truthful es sessions' := by
  intro r hr ended hended
  rcases hcont.rows r hr with ⟨r', hr', -, hip, hsame⟩ | ⟨-, hopen⟩
  · rw [← hip]
    exact h r' hr' ended (hsame ▸ hended)
  · rw [hopen] at hended
    cases hended

/-- The row that is closed is one of a client that was seen then or later. -/
theorem Truthful.close {ended : DateTime} (h : Truthful es sessions) (hname : Names sessions id ip)
    (hm : m ∈ seenTimes es ip) (hle : ended ≤ m) :
    Truthful es (sessions.update (endRow id ended) (endRow_id id ended)) := by
  intro r hr ended' hended'
  obtain ⟨r', hr', rfl⟩ := List.mem_map.mp hr
  rw [endRow_ip]
  unfold endRow at hended'
  split_ifs at hended' with hrow
  · cases hended'
    rw [hname.2 r' hr' hrow.1]
    exact ⟨m, hm, hle⟩
  · exact h r' hr' ended' hended'

theorem Names.close {ended : DateTime} {id' : ℕ} (h : Names sessions id ip) :
    Names (sessions.update (endRow id' ended) (endRow_id id' ended)) id ip := by
  refine ⟨h.1, fun r hr hid => ?_⟩
  obtain ⟨r', hr', rfl⟩ := List.mem_map.mp hr
  rw [endRow_id] at hid
  rw [endRow_ip]
  exact h.2 r' hr' hid

theorem names_insert {startedAt : DateTime} :
    Names (sessions.insert ip startedAt).2 (sessions.insert ip startedAt).1 ip := by
  refine ⟨le_refl _, fun r hr hid => ?_⟩
  rcases List.mem_append.mp hr with hr | hr
  · have hle := sessions.issued r hr
    have hid : r.id = sessions.lastId + 1 := hid
    omega
  · rw [List.mem_singleton.mp hr]

theorem Recalls.mono (h : Recalls es sessions folded live work)
    (hnames : ∀ id ip, Names sessions id ip → Names sessions' id ip)
    (hwork : ∀ op ∈ work', op ∈ work) : Recalls (es ++ [e]) sessions' folded live work' where
  names ip c hc id hid := hnames id ip (h.names ip c hc id hid)
  lastSeen ip c hc honline hseen := seenTimes_concat (h.lastSeen ip c hc honline hseen)
  enters ip id hin := hnames id ip (h.enters ip id (hwork _ hin))
  closes id ended hin := by
    obtain ⟨ip, hname, m, hm, hle⟩ := h.closes id ended (hwork _ hin)
    exact ⟨ip, hnames id ip hname, m, seenTimes_concat hm, hle⟩

theorem Recalls.continues (h : Recalls es sessions folded live work)
    (hcont : Continues sessions sessions') (hwork : ∀ op ∈ work', op ∈ work) :
    Recalls (es ++ [e]) sessions' folded live work' :=
  h.mono (fun _ _ hname => hname.continues hcont) hwork

end Steps

/-- The invariant. -/
structure Told (es : List Event) (s : Sys) : Prop where
  truthful : Truthful es s.db.sessions
  process : ∀ p ∈ s.process, Recalls es s.db.sessions s.ledger.folded p.live p.work

section Perform

variable {es : List Event} {s : Sys} {p : Process} {op : Op} {work : List Op} {ok : Succeeds}
  {clock : DateTime} {e : Event}

theorem Told.perform (h : Told es s) (hp : s.process = some p) (hwork : p.work = op :: work) :
    Told (es ++ [e]) (perform s p work ok clock op) := by
  have hrecalls := h.process p hp
  have htruthful : Truthful (es ++ [e]) s.db.sessions := h.truthful.concat
  have hrest : ∀ op' ∈ work, op' ∈ p.work := fun op' hop' => hwork ▸ List.mem_cons_of_mem op hop'
  have hhead : op ∈ p.work := hwork ▸ List.mem_cons_self
  have hnext : Recalls (es ++ [e]) s.db.sessions s.ledger.folded p.live work :=
    hrecalls.continues (.refl _) hrest
  cases op with
  | upsert facts now =>
    unfold ClientsLoop.perform
    cases ok 0 <;> exact ⟨htruthful, fun q hq => Option.some.inj hq ▸ hnext⟩
  | closeSession id ended =>
    obtain ⟨ip, hname, m, hm, hle⟩ := hrecalls.closes id ended hhead
    unfold ClientsLoop.perform
    cases ok 0 with
    | true =>
      refine ⟨htruthful.close hname (seenTimes_concat hm) hle, fun q hq => Option.some.inj hq ▸ ?_⟩
      exact hrecalls.mono (fun _ _ hname => hname.close) hrest
    | false => exact ⟨htruthful, fun q hq => Option.some.inj hq ▸ hnext⟩
  | openSession ip startedAt =>
    unfold ClientsLoop.perform
    cases ok 0 with
    | true =>
      refine ⟨htruthful.continues continues_insert, fun q hq => Option.some.inj hq ▸ ?_⟩
      have hopened : Recalls (es ++ [e]) (s.db.sessions.insert ip startedAt).2 s.ledger.folded p.live work :=
        hrecalls.continues continues_insert hrest
      refine ⟨hopened.names, hopened.lastSeen, fun ip' id' hin => ?_, fun id' ended' hin => ?_⟩
      · rcases List.mem_cons.mp hin with heq | hin
        · cases heq
          exact names_insert
        · exact hopened.enters ip' id' hin
      · exact hopened.closes id' ended' (List.mem_of_ne_of_mem (by simp) hin)
    | false => exact ⟨htruthful, fun q hq => Option.some.inj hq ▸ hnext⟩
  | enterSession ip id =>
    refine ⟨htruthful, fun q hq => Option.some.inj hq ▸ ?_⟩
    cases hc : p.live.lookup ip with
    | none => exact hnext
    | some c =>
      have hlookup : ∀ {ip' c'}, (p.live.insert ip { c with sessionId := some id }).lookup ip' = some c' →
          ip' = ip ∧ c' = { c with sessionId := some id } ∨ p.live.lookup ip' = some c' := by
        intro ip' c' hc'
        by_cases hip : ip' = ip
        · subst hip
          rw [AList.lookup_insert] at hc'
          exact Or.inl ⟨rfl, (Option.some.inj hc').symm⟩
        · rw [AList.lookup_insert_ne hip] at hc'
          exact Or.inr hc'
      refine ⟨fun ip' c' hc' id' hid' => ?_, fun ip' c' hc' honline hseen => ?_, hnext.enters,
        hnext.closes⟩
      · rcases hlookup hc' with ⟨rfl, rfl⟩ | hc'
        · cases hid'
          exact hrecalls.enters ip' id hhead
        · exact hnext.names ip' c' hc' id' hid'
      · rcases hlookup hc' with ⟨rfl, rfl⟩ | hc'
        · exact hnext.lastSeen ip' c hc honline hseen
        · exact hnext.lastSeen ip' c' hc' honline hseen
  | flush f =>
    have hwritten : Recalls (es ++ [e]) (writeBucket s.db f ok).sessions (s.ledger.bucket f ok).folded
        p.live work := by
      rw [folded_bucket]
      exact hrecalls.continues continues_writeBucket hrest
    unfold ClientsLoop.perform
    cases ok 2 <;>
      exact ⟨htruthful.continues continues_writeBucket, fun q hq => Option.some.inj hq ▸ hwritten⟩
  | forget ip => exact ⟨htruthful, fun q hq => Option.some.inj hq ▸ hnext⟩
  | prune =>
    unfold ClientsLoop.perform
    cases pruneCutoff p.timing.retentionHours clock with
    | none => exact ⟨htruthful, fun _ hq => by cases hq⟩
    | some cutoff =>
      have hpruned : ∀ q : ClientSessionRow → Bool,
          Recalls (es ++ [e]) (s.db.sessions.keep q) s.ledger.folded p.live work :=
        fun q => hrecalls.continues continues_keep hrest
      cases ok 0 <;> cases ok 1
      · exact ⟨htruthful, fun q hq => Option.some.inj hq ▸ hnext⟩
      · exact ⟨htruthful, fun q hq => Option.some.inj hq ▸ hnext⟩
      · exact ⟨htruthful, fun q hq => Option.some.inj hq ▸ hnext⟩
      · exact ⟨htruthful.continues continues_keep, fun q hq => Option.some.inj hq ▸ hpruned _⟩

end Perform

/-! ## A tick -/

section Tick

variable {es : List Event} {sessions : Sessions} {folded : List ClientObservation} {live : Live}
  {f : Folding} {o : ClientObservation} {now : DateTime} {i : Sampled} {t : Timing} {ip : Ipv4Addr}

theorem isSeen_append (a b : List ClientObservation) :
    isSeen ip (a ++ b) = (isSeen ip a || isSeen ip b) := List.any_append

/-- Whoever is online, and was seen, was last seen at one of these times. -/
def SeenWhen (seenAt : Ipv4Addr → DateTime → Prop) (folded : List ClientObservation) (live : Live) : Prop :=
  ∀ ip c, live.lookup ip = some c → c.online = true → isSeen ip folded = true → seenAt ip c.lastSeen

theorem SeenWhen.observe {seenAt : Ipv4Addr → DateTime → Prop} (h : SeenWhen seenAt folded f.live)
    (ho : o.seen = true → seenAt o.ip now) :
    SeenWhen seenAt (folded ++ [o]) (foldObservation now f o).live := by
  obtain ⟨mac, hostname, label, hlookup⟩ := lookup_foldObservation now f o
  intro ip c hc honline hseen
  rw [hlookup] at hc
  split_ifs at hc with hip
  · subst hip
    cases hc
    rw [observed_lastSeen]
    cases ho' : o.seen with
    | true => exact ho ho'
    | false =>
      rw [observed_online, ho', Bool.or_false] at honline
      have hbefore : isSeen o.ip folded = true := by
        rw [isSeen_append] at hseen
        simpa [isSeen, ho'] using hseen
      cases hlive : f.live.lookup o.ip with
      | none =>
        rw [getD_of_lookup_none hlive] at honline
        cases honline
      | some c =>
        rw [getD_of_lookup hlive] at honline ⊢
        exact h o.ip c hlive honline hbefore
  · have hbefore : isSeen ip folded = true := by
      rw [isSeen_append] at hseen
      simpa [isSeen, Ne.symm hip] using hseen
    exact h ip c hc honline hbefore

theorem SeenWhen.foldl {seenAt : Ipv4Addr → DateTime → Prop} {observations : List ClientObservation}
    (h : SeenWhen seenAt folded f.live)
    (hobserved : ∀ o ∈ observations, o.seen = true → seenAt o.ip now) :
    SeenWhen seenAt (folded ++ observations) (observations.foldl (foldObservation now) f).live := by
  induction observations generalizing folded f with
  | nil =>
    rw [List.append_nil]
    exact h
  | cons o observations ih =>
    have hone := h.observe (hobserved o List.mem_cons_self)
    have hrest := ih hone fun o' ho' => hobserved o' (List.mem_cons_of_mem o ho')
    rw [List.append_assoc] at hrest
    exact hrest

theorem Recalls.tick (h : Recalls es sessions folded live [])
    (hseen : ∀ ip, ∀ c ∈ (takeIn i live).live.lookup ip, timesOut t i.now c = true →
      c.sessionId.isSome = true → isSeen ip (folded ++ i.observations) = true)
    {prune : List Op} (hprune : ∀ op ∈ prune, op = .prune) :
    Recalls (es ++ [.tick i]) sessions (folded ++ i.observations)
      (remaining t i.now (takeIn i live)) (writes t i.now (takeIn i live) ++ prune) := by
  have htakes := takes_takeIn i live
  have hwhen : SeenWhen (fun ip m => m ∈ seenTimes (es ++ [.tick i]) ip) (folded ++ i.observations)
      (takeIn i live).live := by
    have hbefore : SeenWhen (fun ip m => m ∈ seenTimes (es ++ [.tick i]) ip) folded live :=
      fun ip c hc honline hseen => seenTimes_concat (h.lastSeen ip c hc honline hseen)
    apply SeenWhen.foldl (f := ⟨live, i.discovered, [], []⟩) hbefore
    intro o ho hseen
    exact mem_seenTimes_tick (List.any_eq_true.mpr ⟨o, ho, by simp [hseen]⟩)
  generalize takeIn i live = f at htakes hwhen hseen ⊢
  have hnames : ∀ {ip c id}, f.live.lookup ip = some c → c.sessionId = some id →
      Names sessions id ip := by
    intro ip c id hc hid
    rw [htakes.session ip c hc] at hid
    obtain ⟨c₀, hc₀, hid⟩ := Option.bind_eq_some_iff.mp hid
    exact h.names ip c₀ hc₀ id hid
  refine ⟨fun ip c' hc' id hid => ?_, fun ip c' hc' honline hisSeen => ?_,
    fun ip id hin => absurd hin (not_mem_writes_enterSession hprune), fun id ended hin => ?_⟩
  · obtain ⟨c, hc, rfl⟩ := of_lookup_remaining hc'
    rw [Option.mem_def, pass_sessionId, Option.ite_none_left_eq_some] at hid
    exact hnames hc hid.2
  · obtain ⟨c, hc, rfl⟩ := of_lookup_remaining hc'
    rw [pass_online, Bool.and_eq_true] at honline
    rw [pass_lastSeen]
    exact hwhen ip c hc honline.1 hisSeen
  · -- a client that is gone was online until now
    obtain ⟨ip, c, hc, hout, hid, rfl⟩ := mem_closes.mp ((mem_writes_closeSession hprune).mp hin)
    have honline : c.online = true := by
      rw [timesOut, Bool.and_eq_true] at hout
      exact hout.1
    refine ⟨ip, hnames hc hid, c.lastSeen, ?_, Int.le_refl _⟩
    exact hwhen ip c hc honline (hseen ip c hc hout (hid ▸ rfl))

end Tick

/-! ## The runs -/

section Runs

variable {es : List Event} {s s' : Sys} {p : Process} {e : Event}

theorem recalls_emptied {sessions : Sessions} {folded : List ClientObservation} {live : Live}
    {work : List Op} (h : Recalls es sessions folded live work) (now : DateTime) :
    Recalls es sessions folded (emptied now live) work := by
  have hback : ∀ {ip c'}, (emptied now live).lookup ip = some c' → ∃ c, live.lookup ip = some c ∧
      c'.sessionId = c.sessionId ∧ c'.online = c.online ∧ c'.lastSeen = c.lastSeen := by
    intro ip c' hc'
    rw [emptied, lookup_mapValues, Option.map_eq_some_iff] at hc'
    obtain ⟨c, hc, rfl⟩ := hc'
    refine ⟨c, hc, ?_⟩
    split_ifs <;> exact ⟨rfl, rfl, rfl⟩
  refine ⟨fun ip c' hc' id hid => ?_, fun ip c' hc' honline hseen => ?_, h.enters, h.closes⟩
  · obtain ⟨c, hc, hsession, -⟩ := hback hc'
    exact h.names ip c hc id (hsession ▸ hid)
  · obtain ⟨c, hc, -, honline', hlast⟩ := hback hc'
    rw [hlast]
    exact h.lastSeen ip c hc (honline' ▸ honline) hseen

theorem Told.move (h : Told es s) (hp : s.process = some p) (hmove : Moves s p e s')
    (hseen : SeenFirst s e s') : Told (es ++ [e]) s' := by
  have hrecalls := h.process p hp
  have hsame : ∀ {e}, Recalls (es ++ [e]) s.db.sessions s.ledger.folded p.live p.work :=
    hrecalls.continues (.refl _) fun _ hop => hop
  cases hmove with
  | stop => exact ⟨h.truthful.concat, fun _ hq => by cases hq⟩
  | @tick i _ hwork =>
    rw [hwork] at hrecalls
    refine ⟨h.truthful.concat, fun q hq => Option.some.inj hq ▸ hrecalls.tick (hseen p hp) ?_⟩
    intro op hop
    split_ifs at hop
    · exact List.mem_singleton.mp hop
    · cases hop
  | proceed _ hwork => exact h.perform hp hwork
  | @take now _ =>
    exact ⟨h.truthful.concat, fun q hq => Option.some.inj hq ▸ recalls_emptied hsame now⟩
  | @hand f rest ok _ =>
    refine ⟨h.truthful.concat.continues continues_writeBucket, fun q hq => Option.some.inj hq ▸ ?_⟩
    dsimp only
    rw [folded_bucket]
    exact hrecalls.continues continues_writeBucket fun _ hop => hop
  | signal | abort | cancel | leave =>
    exact ⟨h.truthful.concat, fun q hq => Option.some.inj hq ▸ hsame⟩

theorem Told.start (h : Told es s) {t : Timing} {now : DateTime} {rosterRead sessionsRead : Bool} :
    Told (es ++ [e]) (start s t now rosterRead sessionsRead) := by
  refine ⟨h.truthful.concat, fun q hq => Option.some.inj hq ▸ ⟨fun ip c hc id hid => ?_,
    fun ip c hc honline hseen => ?_, fun ip id hin => absurd hin List.not_mem_nil,
    fun id ended hin => absurd hin List.not_mem_nil⟩⟩
  · obtain ⟨row, hin, hip, rfl⟩ := lookup_resume hc
    cases hid
    cases sessionsRead with
    | true =>
      have hrow := (mem_openClientSessions.mp hin).1
      refine ⟨s.db.sessions.issued row hrow, fun r hr hid => ?_⟩
      rw [Sessions.row_unique hr hrow hid, hip]
    | false => cases hin
  · cases hseen

theorem Told.step (h : Told es s) (hstep : step s e = some s') (hseen : SeenFirst s e s') :
    Told (es ++ [e]) s' := by
  rcases step_cases hstep with ⟨cfg, t, now, rosterRead, sessionsRead, -, -, rfl, rfl⟩ | ⟨p, hp, hmove⟩
  · exact h.start
  · exact h.move hp hmove hseen

theorem told_of_run {s₀ : Sys} (hinitial : Told [] s₀) (hrun : Run step s₀ es s)
    (hseen : AllSteps step SeenFirst s₀ es) : Told es s := by
  induction hrun with
  | nil => exact hinitial
  | concat hrun hstep ih =>
    rw [allSteps_concat hrun] at hseen
    exact (ih hseen.1).step hstep (hseen.2 _ hstep)

theorem told_initial : Told [] initial :=
  ⟨fun r hr => absurd hr List.not_mem_nil, fun _ hp => by cases hp⟩

end Runs

/-- **Recorded departures are truthful.** Where every client that is taken to be gone has been seen
since the daemon was started. -/
theorem departures_truthful {es : List Event} {s : Sys} (hrun : Run step initial es s)
    (hseen : AllSteps step SeenFirst initial es) : Truthful es s.db.sessions :=
  (told_of_run told_initial hrun hseen).truthful

/-- Is this a step of the condition? -/
def looksFirst (s : Sys) (e : Event) (_ : Sys) : Bool :=
  match e, s.process with
  | .tick i, some p => (takeIn i p.live).live.entries.all fun c =>
      !(timesOut p.timing i.now c.2 && c.2.sessionId.isSome) ||
        isSeen c.1 (s.ledger.folded ++ i.observations)
  | _, _ => true

theorem seenFirst_of_looksFirst {s : Sys} {e : Event} {t : Sys} (h : looksFirst s e t = true) :
    SeenFirst s e t := by
  cases e with
  | tick i =>
    intro p hp ip c hc hout hsession
    simp only [looksFirst, Option.mem_def.mp hp] at h
    have hone := List.all_eq_true.mp h ⟨ip, c⟩ (AList.mem_lookup_iff.mp hc)
    simpa [hout, hsession] using hone
  | _ => trivial

/-- The phone leaves while the daemon runs. -/
theorem departures_truthful_phone : ∃ s,
    Run step initial (arrival .default ++ [glance 200 false .zero, proceeds]) s ∧
      s.db.sessions.rows.map (·.endedAt) = [some (moment 5)] ∧
      Truthful (arrival .default ++ [glance 200 false .zero, proceeds]) s.db.sessions := by
  have hsome : (exec step initial (arrival .default ++ [glance 200 false .zero, proceeds])).isSome = true := by
    decide +kernel
  have hrun := run_get hsome
  refine ⟨_, hrun, Run.of_all (P := fun s => s.db.sessions.rows.map (·.endedAt) = [some (moment 5)])
    (by decide +kernel) hrun, ?_⟩
  exact departures_truthful hrun
    (allSteps_of_check (c := looksFirst) (fun _ _ _ => seenFirst_of_looksFirst) (by decide +kernel))

/-- The phone leaves while the daemon is down, which is not started again for a quarter of an hour. -/
def leftMeanwhile : List Event :=
  arrival .default ++ [.stop, .start .default (moment 1000) true true, glance 1200 false .zero, proceeds]

/-- The session ends when the daemon was started, long after the phone was seen. -/
theorem departures_not_truthful :
    ¬ ∀ (es : List Event) (s : Sys), Run step initial es s → Truthful es s.db.sessions := by
  intro hall
  have hsome : (exec step initial leftMeanwhile).isSome = true := by decide +kernel
  have hrun := run_get hsome
  have hrows := Run.of_all (P := fun s => s.db.sessions.rows.map (fun r => (r.ip, r.endedAt)) =
    [(phone, some (moment 1000))]) (by decide +kernel) hrun
  obtain ⟨r, hr, hrow⟩ := List.map_eq_singleton_iff.mp hrows
  have hip : r.ip = phone := congrArg Prod.fst hrow
  have hended : r.endedAt = some (moment 1000) := congrArg Prod.snd hrow
  obtain ⟨m, hm, hle⟩ := hall _ _ hrun r (hr ▸ List.mem_singleton_self r) _ hended
  have hseen : seenTimes leftMeanwhile phone = [moment 5] := by decide +kernel
  rw [hip, hseen, List.mem_singleton] at hm
  rw [hm] at hle
  exact absurd hle (by decide)

end Vlb.ClientsLoop
