import Vlb.Balancer.Clients

/-!
# One open session for each client

A session is opened, closed, and taken up again after a restart, and each time the row in the
database and the id in the live state have to keep together, whatever else fails.

* `Tracked`: every open row is known: to the live state, or to a step that is still to come.
* `Tracked.tick`, `Tracked.perform`, `tracked_start`: the invariant, one lemma for each kind of step.
* `sessions_kept`: at most one open session for each client, where no close fails.
-/

namespace Vlb.ClientsLoop

open Clients Entries Stats Time Transition

/-- The session that the live state has for a client. -/
def sessionOf (live : Live) (ip : Ipv4Addr) : Option ℕ := (live.lookup ip).bind ClientState.sessionId

/-- No client has more than one session open, and that of a client that is online is the one it
refers to. -/
def OneOpen (s : Sys) : Prop :=
  ∀ ip, (s.db.sessions.openIds ip).length ≤ 1 ∧
    ∀ p ∈ s.process, ∀ c ∈ p.live.lookup ip, c.online = true →
      ∀ id ∈ c.sessionId, id ∈ s.db.sessions.openIds ip

/-- A client that is online, and has no session. -/
def Waiting (live : Live) (ip : Ipv4Addr) : Prop :=
  ∃ c, live.lookup ip = some c ∧ c.online = true ∧ c.sessionId = none

/-- The client that a step opens a session for. -/
def Op.opening : Op → Option Ipv4Addr
  | .openSession ip _ => some ip
  | _ => none

/-- Every open row is known to the live state, or to a step that is still to come, and no step is
about another row than it was meant for. -/
structure Tracked (sessions : Sessions) (live : Live) (work : List Op) : Prop where
  one : ∀ ip, (sessions.openIds ip).length ≤ 1
  online : ∀ ip c, live.lookup ip = some c → c.sessionId.isSome = true → c.online = true
  isOpen : ∀ ip id, sessionOf live ip = some id → id ∈ sessions.openIds ip
  known : ∀ ip, ∀ id ∈ sessions.openIds ip, sessionOf live ip = some id ∨
    .enterSession ip id ∈ work ∨ ∃ ended, .closeSession id ended ∈ work
  enters : ∀ ip id, .enterSession ip id ∈ work → id ∈ sessions.openIds ip ∧ Waiting live ip
  entersFirst : ∀ ip id, .enterSession ip id ∉ work.tail
  opens : ∀ ip startedAt, .openSession ip startedAt ∈ work →
    sessions.openIds ip = [] ∧ Waiting live ip
  opensOnce : (work.filterMap Op.opening).Nodup
  closes : ∀ id ended, .closeSession id ended ∈ work →
    id ≤ sessions.lastId ∧ (∀ ip, sessionOf live ip ≠ some id) ∧ ∀ ip, .enterSession ip id ∉ work

section Steps

variable {sessions sessions' : Sessions} {live live' : Live} {op : Op} {work : List Op}
  {ip : Ipv4Addr} {id : ℕ} {ended startedAt : DateTime}

theorem sessionOf_eq_some : sessionOf live ip = some id ↔
    ∃ c, live.lookup ip = some c ∧ c.sessionId = some id := Option.bind_eq_some_iff

/-- Nothing counts of the table but what is open, and which ids have been given. -/
theorem Tracked.resession (h : Tracked sessions live work)
    (hopen : ∀ ip, sessions'.openIds ip = sessions.openIds ip)
    (hissued : sessions.lastId ≤ sessions'.lastId) : Tracked sessions' live work where
  one ip := hopen ip ▸ h.one ip
  online := h.online
  isOpen ip id hid := hopen ip ▸ h.isOpen ip id hid
  known ip id hid := h.known ip id (hopen ip ▸ hid)
  enters ip id hin := hopen ip ▸ h.enters ip id hin
  entersFirst := h.entersFirst
  opens ip startedAt hin := hopen ip ▸ h.opens ip startedAt hin
  opensOnce := h.opensOnce
  closes id ended hin := (h.closes id ended hin).imp_left fun hle => hle.trans hissued

theorem Tracked.skip (h : Tracked sessions live (op :: work))
    (henter : ∀ ip id, op ≠ .enterSession ip id)
    (hclose : ∀ id ended, op ≠ .closeSession id ended) : Tracked sessions live work where
  one := h.one
  online := h.online
  isOpen := h.isOpen
  known ip id hid := by
    rcases h.known ip id hid with hlive | hin | ⟨ended, hin⟩
    · exact Or.inl hlive
    · exact Or.inr (Or.inl (List.mem_of_ne_of_mem (Ne.symm (henter ip id)) hin))
    · exact Or.inr (Or.inr ⟨ended, List.mem_of_ne_of_mem (Ne.symm (hclose id ended)) hin⟩)
  enters ip id hin := h.enters ip id (List.mem_cons_of_mem _ hin)
  entersFirst ip id hin := h.entersFirst ip id (List.mem_of_mem_tail hin)
  opens ip startedAt hin := h.opens ip startedAt (List.mem_cons_of_mem _ hin)
  opensOnce := h.opensOnce.sublist ((List.sublist_cons_self op work).filterMap _)
  closes id ended hin := by
    obtain ⟨hle, hlive, henter⟩ := h.closes id ended (List.mem_cons_of_mem _ hin)
    exact ⟨hle, hlive, fun ip hip => henter ip (List.mem_cons_of_mem _ hip)⟩

theorem Tracked.close (h : Tracked sessions live (.closeSession id ended :: work)) :
    Tracked (sessions.update (endRow id ended) (endRow_id id ended)) live work := by
  obtain ⟨-, hlive, henter⟩ := h.closes id ended List.mem_cons_self
  have hkeep : ∀ {ip id'}, id' ∈ sessions.openIds ip → id' ≠ id →
      id' ∈ (sessions.update (endRow id ended) (endRow_id id ended)).openIds ip := by
    intro ip id' hin hne
    rw [Sessions.openIds_endRow]
    exact List.mem_filter.mpr ⟨hin, by simpa using hne⟩
  refine ⟨fun ip => ?_, h.online, fun ip id' hid' => ?_, fun ip id' hid' => ?_, fun ip id' hin => ?_,
    fun ip id' hin => ?_, fun ip startedAt hin => ?_, ?_, fun id' ended' hin => ?_⟩
  · rw [Sessions.openIds_endRow]
    exact (List.length_filter_le _ _).trans (h.one ip)
  · exact hkeep (h.isOpen ip id' hid') fun heq => hlive ip (heq ▸ hid')
  · rw [Sessions.openIds_endRow, List.mem_filter] at hid'
    have hne : id' ≠ id := by simpa using hid'.2
    rcases h.known ip id' hid'.1 with hlive | hin | ⟨ended', hin⟩
    · exact Or.inl hlive
    · exact Or.inr (Or.inl (List.mem_of_ne_of_mem (by simp) hin))
    · exact Or.inr (Or.inr ⟨ended', List.mem_of_ne_of_mem (by simp [hne]) hin⟩)
  · have hin := List.mem_cons_of_mem (.closeSession id ended) hin
    obtain ⟨hopen, hwaiting⟩ := h.enters ip id' hin
    exact ⟨hkeep hopen fun heq => henter ip (heq ▸ hin), hwaiting⟩
  · exact h.entersFirst ip id' (List.mem_of_mem_tail hin)
  · obtain ⟨hnil, hwaiting⟩ := h.opens ip startedAt (List.mem_cons_of_mem _ hin)
    rw [Sessions.openIds_endRow, hnil]
    exact ⟨rfl, hwaiting⟩
  · exact h.opensOnce
  · obtain ⟨hle, hlive', henter'⟩ := h.closes id' ended' (List.mem_cons_of_mem _ hin)
    exact ⟨hle, hlive', fun ip hip => henter' ip (List.mem_cons_of_mem _ hip)⟩

theorem Tracked.openRow (h : Tracked sessions live (.openSession ip startedAt :: work)) :
    Tracked (sessions.insert ip startedAt).2 live
      (.enterSession ip (sessions.insert ip startedAt).1 :: work) := by
  obtain ⟨hnil, hwaiting⟩ := h.opens ip startedAt List.mem_cons_self
  have hid : (sessions.insert ip startedAt).1 = sessions.lastId + 1 := rfl
  have hopen : ∀ ip', (sessions.insert ip startedAt).2.openIds ip' =
      if ip = ip' then [sessions.lastId + 1] else sessions.openIds ip' := by
    intro ip'
    rw [Sessions.openIds_insert]
    split_ifs with hip
    · rw [← hip, hnil, List.nil_append]
    · rw [List.append_nil]
  have hother : ∀ {ip'}, ip' ≠ ip → (sessions.insert ip startedAt).2.openIds ip' = sessions.openIds ip' :=
    fun hne => by rw [hopen, if_neg (Ne.symm hne)]
  have hne : ∀ {ip' id'}, id' ∈ sessions.openIds ip' → ip' ≠ ip := by
    rintro ip' id' hin rfl
    rw [hnil] at hin
    cases hin
  have hnotin : ∀ ip' id', .enterSession ip' id' ∉ work := h.entersFirst
  obtain ⟨hfirst, honce⟩ : ip ∉ work.filterMap Op.opening ∧ (work.filterMap Op.opening).Nodup :=
    List.nodup_cons.mp h.opensOnce
  rw [hid]
  refine ⟨fun ip' => ?_, h.online, fun ip' id' hid' => ?_, fun ip' id' hid' => ?_,
    fun ip' id' hin => ?_, hnotin, fun ip' startedAt' hin => ?_, ?_, fun id' ended' hin => ?_⟩
  · rw [hopen]
    split_ifs
    · exact le_refl _
    · exact h.one ip'
  · have hin := h.isOpen ip' id' hid'
    rw [hother (hne hin)]
    exact hin
  · rw [hopen] at hid'
    split_ifs at hid' with hip
    · rw [List.mem_singleton.mp hid', hip]
      exact Or.inr (Or.inl List.mem_cons_self)
    · rcases h.known ip' id' hid' with hlive | hin | ⟨ended, hin⟩
      · exact Or.inl hlive
      · exact absurd (List.mem_of_ne_of_mem (by simp) hin) (hnotin ip' id')
      · exact Or.inr (Or.inr ⟨ended, List.mem_cons_of_mem _ (List.mem_of_ne_of_mem (by simp) hin)⟩)
  · rcases List.mem_cons.mp hin with heq | hin
    · cases heq
      rw [hopen, if_pos rfl]
      exact ⟨List.mem_singleton_self _, hwaiting⟩
    · exact absurd hin (hnotin ip' id')
  · have hwork : .openSession ip' startedAt' ∈ work := List.mem_of_ne_of_mem (by simp) hin
    obtain ⟨hnil', hwaiting'⟩ := h.opens ip' startedAt' (List.mem_cons_of_mem _ hwork)
    have hip : ip' ≠ ip := by
      rintro rfl
      exact hfirst (List.mem_filterMap.mpr ⟨.openSession ip' startedAt', hwork, rfl⟩)
    rw [hother hip]
    exact ⟨hnil', hwaiting'⟩
  · exact honce
  · have hwork : .closeSession id' ended' ∈ work := List.mem_of_ne_of_mem (by simp) hin
    obtain ⟨hle, hlive, henter⟩ := h.closes id' ended' (List.mem_cons_of_mem _ hwork)
    refine ⟨hle.trans (Nat.le_succ _), hlive, fun ip' hip => ?_⟩
    rcases List.mem_cons.mp hip with heq | hin
    · cases heq
      exact Nat.not_succ_le_self _ hle
    · exact hnotin ip' id' hin

theorem Tracked.enter (h : Tracked sessions live (.enterSession ip id :: work)) :
    ∃ c, live.lookup ip = some c ∧
      Tracked sessions (live.insert ip { c with sessionId := some id }) work := by
  obtain ⟨hin, c, hc, honline, hnone⟩ := h.enters ip id List.mem_cons_self
  have hnotin : ∀ ip' id', .enterSession ip' id' ∉ work := h.entersFirst
  have hself : sessionOf (live.insert ip { c with sessionId := some id }) ip = some id := by
    rw [sessionOf, AList.lookup_insert]
    rfl
  have hlookup : ∀ {ip'}, ip' ≠ ip →
      (live.insert ip { c with sessionId := some id }).lookup ip' = live.lookup ip' :=
    AList.lookup_insert_ne
  have hother : ∀ {ip'}, ip' ≠ ip →
      sessionOf (live.insert ip { c with sessionId := some id }) ip' = sessionOf live ip' := by
    intro ip' hne
    rw [sessionOf, hlookup hne, sessionOf]
  refine ⟨c, hc, h.one, fun ip' c' hc' hsome => ?_, fun ip' id' hid' => ?_, fun ip' id' hid' => ?_,
    fun ip' id' hin' => absurd hin' (hnotin ip' id'),
    fun ip' id' hin' => hnotin ip' id' (List.mem_of_mem_tail hin'), fun ip' startedAt hin' => ?_, ?_,
    fun id' ended' hin' => ?_⟩
  · by_cases hip : ip' = ip
    · subst hip
      rw [AList.lookup_insert] at hc'
      cases hc'
      exact honline
    · exact h.online ip' c' (hlookup hip ▸ hc') hsome
  · by_cases hip : ip' = ip
    · subst hip
      rw [hself] at hid'
      exact Option.some.inj hid' ▸ hin
    · exact h.isOpen ip' id' (hother hip ▸ hid')
  · by_cases hip : ip' = ip
    · subst hip
      have heq : id = id' := Sessions.eq_of_mem_openIds (h.one ip') hin hid'
      exact Or.inl (heq ▸ hself)
    · rw [hother hip]
      rcases h.known ip' id' hid' with hlive | hin' | ⟨ended, hin'⟩
      · exact Or.inl hlive
      · exact absurd (List.mem_of_ne_of_mem (by simp [hip]) hin') (hnotin ip' id')
      · exact Or.inr (Or.inr ⟨ended, List.mem_of_ne_of_mem (by simp) hin'⟩)
  · obtain ⟨hnil, c', hc', hwaiting⟩ := h.opens ip' startedAt (List.mem_cons_of_mem _ hin')
    have hip : ip' ≠ ip := by
      rintro rfl
      rw [hnil] at hin
      cases hin
    exact ⟨hnil, c', (hlookup hip).trans hc', hwaiting⟩
  · exact h.opensOnce
  · obtain ⟨hle, hlive, henter⟩ := h.closes id' ended' (List.mem_cons_of_mem _ hin')
    refine ⟨hle, fun ip' => ?_, fun ip' => hnotin ip' id'⟩
    by_cases hip : ip' = ip
    · subst hip
      rw [hself]
      rintro heq
      exact henter ip' (Option.some.inj heq ▸ List.mem_cons_self)
    · rw [hother hip]
      exact hlive ip'

theorem Tracked.relive (h : Tracked sessions live work)
    (hsame : ∀ ip, (live'.lookup ip).map (fun c => (c.sessionId, c.online)) =
      (live.lookup ip).map fun c => (c.sessionId, c.online)) : Tracked sessions live' work := by
  have hsession : ∀ ip, sessionOf live' ip = sessionOf live ip := by
    intro ip
    have hip := congrArg (Option.bind · Prod.fst) (hsame ip)
    simp only [Option.bind_map, Function.comp_def] at hip
    exact hip
  have hback : ∀ {ip c'}, live'.lookup ip = some c' →
      ∃ c, live.lookup ip = some c ∧ c.sessionId = c'.sessionId ∧ c.online = c'.online := by
    intro ip c' hc'
    have hip := hsame ip
    rw [hc', Option.map_some] at hip
    obtain ⟨c, hc, heq⟩ := Option.map_eq_some_iff.mp hip.symm
    exact ⟨c, hc, congrArg Prod.fst heq, congrArg Prod.snd heq⟩
  have hwaiting : ∀ {ip}, Waiting live ip → Waiting live' ip := by
    rintro ip ⟨c, hc, honline, hnone⟩
    have hip := hsame ip
    rw [hc, Option.map_some] at hip
    obtain ⟨c', hc', heq⟩ := Option.map_eq_some_iff.mp hip
    exact ⟨c', hc', (congrArg Prod.snd heq).trans honline, (congrArg Prod.fst heq).trans hnone⟩
  refine ⟨h.one, fun ip c' hc' hsome => ?_, fun ip id hid => h.isOpen ip id (hsession ip ▸ hid),
    fun ip id hid => hsession ip ▸ h.known ip id hid,
    fun ip id hin => (h.enters ip id hin).imp_right hwaiting, h.entersFirst,
    fun ip startedAt hin => (h.opens ip startedAt hin).imp_right hwaiting, h.opensOnce,
    fun id ended hin => ?_⟩
  · obtain ⟨c, hc, hid, honline⟩ := hback hc'
    exact honline ▸ h.online ip c hc (hid ▸ hsome)
  · obtain ⟨hle, hlive, henter⟩ := h.closes id ended hin
    exact ⟨hle, fun ip => hsession ip ▸ hlive ip, henter⟩

theorem Tracked.emptied (h : Tracked sessions live work) (now : DateTime) :
    Tracked sessions (emptied now live) work := by
  apply h.relive
  intro ip
  rw [ClientsLoop.emptied, lookup_mapValues, Option.map_map]
  congr 1
  funext c
  rw [Function.comp_apply]
  split_ifs <;> rfl

end Steps

/-! ## A tick -/

section Tick

variable {sessions : Sessions} {live : Live} {t : Timing} {i : Sampled} {now : DateTime}
  {ip : Ipv4Addr} {id : ℕ} {ended startedAt : DateTime} {c : ClientState}

theorem timesOut_of_lastSeen (ht : 0 ≤ t.offlineAfter) (hseen : c.lastSeen = now) :
    timesOut t now c = false := by
  rw [timesOut, hseen, DateTime.signedDurationSince, sub_self, decide_eq_false (not_lt.mpr ht),
    Bool.and_false]

theorem isForgotten_of_online (h : c.online = true) : isForgotten now c = false := by
  rw [isForgotten, h, Bool.not_true, Bool.false_and]

theorem lookup_remaining_of_online {f : Folding} (hc : f.live.lookup ip = some c)
    (honline : c.online = true) (hout : timesOut t now c = false) :
    (remaining t now f).lookup ip = some (pass t now c) := by
  have hpass : (pass t now c).online = true := by rw [pass_online, honline, hout]; rfl
  rw [lookup_remaining, hc, Option.map_some, Option.filter_some, isForgotten_of_online hpass]
  rfl

/-- The sessions after a tick are those before it, without those of the clients that are gone. -/
theorem sessionOf_remaining {f : Folding} (h : sessionOf (remaining t now f) ip = some id) :
    ∃ c, f.live.lookup ip = some c ∧ c.sessionId = some id ∧ timesOut t now c = false := by
  obtain ⟨c', hc', hid⟩ := sessionOf_eq_some.mp h
  obtain ⟨c, hc, rfl⟩ := of_lookup_remaining hc'
  rw [pass_sessionId] at hid
  split_ifs at hid with hout
  exact ⟨c, hc, hid, Bool.eq_false_of_not_eq_true hout⟩

theorem Takes.sessionOf {f : Folding} (h : Takes now live f) (ip : Ipv4Addr) :
    sessionOf f.live ip = sessionOf live ip := by
  cases hc : f.live.lookup ip with
  | some c => rw [ClientsLoop.sessionOf, hc, Option.bind_some, h.session ip c hc, ClientsLoop.sessionOf]
  | none =>
    cases hlive : live.lookup ip with
    | none => rw [ClientsLoop.sessionOf, ClientsLoop.sessionOf, hc, hlive]
    | some c =>
      obtain ⟨c', hc', -⟩ := h.online ip c hlive
      rw [hc] at hc'
      cases hc'

theorem filterMap_opening_writes {f : Folding} {prune : List Op}
    (hprune : ∀ op ∈ prune, op = .prune) :
    (writes t now f ++ prune).filterMap Op.opening = f.opens.map Prod.fst := by
  have hnone : prune.filterMap Op.opening = [] := by
    rw [List.filterMap_eq_nil_iff]
    intro op hop
    rw [hprune op hop]
    rfl
  simp [writes, hnone, Op.opening, Function.comp_def, List.filterMap_map]

theorem Tracked.tick (h : Tracked sessions live []) (ht : 0 ≤ t.offlineAfter) {prune : List Op}
    (hprune : ∀ op ∈ prune, op = .prune) :
    Tracked sessions (remaining t i.now (takeIn i live)) (writes t i.now (takeIn i live) ++ prune) := by
  have htakes := takes_takeIn i live
  generalize takeIn i live = f at htakes ⊢
  have hisOpen : ∀ {ip c id}, f.live.lookup ip = some c → c.sessionId = some id →
      id ∈ sessions.openIds ip := by
    intro ip c id hc hid
    refine h.isOpen ip id ?_
    rw [← htakes.sessionOf, sessionOf_eq_some]
    exact ⟨c, hc, hid⟩
  have honline : ∀ {ip c}, f.live.lookup ip = some c → c.sessionId.isSome = true →
      c.online = true := by
    intro ip c hc hsome
    rw [htakes.session ip c hc] at hsome
    obtain ⟨id, hid⟩ := Option.isSome_iff_exists.mp hsome
    obtain ⟨c₀, hc₀, hid⟩ := sessionOf_eq_some.mp hid
    obtain ⟨c', hc', hkept⟩ := htakes.online ip c₀ hc₀
    rw [hc] at hc'
    cases hc'
    exact hkept (h.online ip c₀ hc₀ (hid ▸ rfl))
  refine ⟨h.one, fun ip c' hc' hsome => ?_, fun ip id hid => ?_, fun ip id hid => ?_,
    fun ip id hin => absurd hin (not_mem_writes_enterSession hprune),
    fun ip id hin => not_mem_writes_enterSession hprune (List.mem_of_mem_tail hin),
    fun ip startedAt hin => ?_, ?_, fun id ended hin => ⟨?_, fun ip hid => ?_, fun ip => ?_⟩⟩
  · obtain ⟨c, hc, rfl⟩ := of_lookup_remaining hc'
    rw [pass_sessionId] at hsome
    cases hout : timesOut t i.now c with
    | true =>
      rw [hout, if_pos rfl] at hsome
      cases hsome
    | false =>
      rw [hout, if_neg Bool.false_ne_true] at hsome
      rw [pass_online, honline hc hsome, hout]
      rfl
  · obtain ⟨c, hc, hid, -⟩ := sessionOf_remaining hid
    exact hisOpen hc hid
  · rcases h.known ip id hid with hlive | hin | ⟨ended, hin⟩
    · rw [← htakes.sessionOf] at hlive
      obtain ⟨c, hc, hid⟩ := sessionOf_eq_some.mp hlive
      cases hout : timesOut t i.now c with
      | true =>
        refine Or.inr (Or.inr ⟨c.lastSeen, ?_⟩)
        exact (mem_writes_closeSession hprune).mpr (mem_closes.mpr ⟨ip, c, hc, hout, hid, rfl⟩)
      | false =>
        refine Or.inl (sessionOf_eq_some.mpr ⟨pass t i.now c, ?_, ?_⟩)
        · exact lookup_remaining_of_online hc (honline hc (hid ▸ rfl)) hout
        · rw [pass_sessionId, hout, if_neg Bool.false_ne_true, hid]
    · cases hin
    · cases hin
  · -- Who comes was not online, and so had no session.
    obtain ⟨⟨c, hc, hcame, hseen⟩, hbefore⟩ := htakes.came ip startedAt ((mem_writes_openSession hprune).mp hin)
    have hnone : sessionOf live ip = none := by
      rw [Option.eq_none_iff_forall_ne_some]
      intro id hid
      obtain ⟨c₀, hc₀, hid⟩ := sessionOf_eq_some.mp hid
      exact Bool.noConfusion ((hbefore c₀ hc₀).symm.trans (h.online ip c₀ hc₀ (hid ▸ rfl)))
    have hout : timesOut t i.now c = false := timesOut_of_lastSeen ht hseen
    refine ⟨?_, pass t i.now c, lookup_remaining_of_online hc hcame hout, ?_, ?_⟩
    · rw [List.eq_nil_iff_forall_not_mem]
      intro id hid
      rcases h.known ip id hid with hlive | hin | ⟨ended, hin⟩
      · rw [hnone] at hlive
        cases hlive
      · cases hin
      · cases hin
    · rw [pass_online, hcame, hout]
      rfl
    · rw [pass_sessionId, hout, if_neg Bool.false_ne_true, htakes.session ip c hc]
      exact hnone
  · rw [filterMap_opening_writes hprune]
    exact htakes.once
  · obtain ⟨ip, c, hc, -, hid, -⟩ := mem_closes.mp ((mem_writes_closeSession hprune).mp hin)
    obtain ⟨r, hr, hrid, -⟩ := Sessions.mem_openIds.mp (hisOpen hc hid)
    exact hrid ▸ sessions.issued r hr
  · obtain ⟨ip', c, hc, hout, hid', -⟩ := mem_closes.mp ((mem_writes_closeSession hprune).mp hin)
    obtain ⟨c', hc', hid, hout'⟩ := sessionOf_remaining hid
    obtain rfl := Sessions.ip_of_mem_openIds (hisOpen hc hid') (hisOpen hc' hid)
    rw [hc] at hc'
    cases hc'
    exact Bool.noConfusion (hout.symm.trans hout')
  · exact not_mem_writes_enterSession hprune

end Tick

/-! ## A start -/

section Start

variable {now : DateTime} {roster : HashMap Ipv4Addr ClientRow}

theorem tracked_resume {db : ClientTables} (h : ∀ ip, (db.sessions.openIds ip).length ≤ 1) :
    Tracked db.sessions (resume now roster db.openClientSessions) [] := by
  have hrow : ∀ {ip c}, (resume now roster db.openClientSessions).lookup ip = some c →
      c.online = true ∧ ∃ id, c.sessionId = some id ∧ id ∈ db.sessions.openIds ip := by
    intro ip c hc
    obtain ⟨row, hin, hip, rfl⟩ := lookup_resume hc
    obtain ⟨hin, hended⟩ := mem_openClientSessions.mp hin
    exact ⟨rfl, row.id, rfl, Sessions.mem_openIds.mpr ⟨row, hin, rfl, hip, hended⟩⟩
  refine ⟨h, fun ip c hc _ => (hrow hc).1, fun ip id hid => ?_, fun ip id hid => Or.inl ?_,
    fun ip id hin => absurd hin List.not_mem_nil, fun ip id => List.not_mem_nil,
    fun ip startedAt hin => absurd hin List.not_mem_nil, List.nodup_nil,
    fun id ended hin => absurd hin List.not_mem_nil⟩
  · obtain ⟨c, hc, hid⟩ := sessionOf_eq_some.mp hid
    obtain ⟨-, id', hid', hopen⟩ := hrow hc
    rw [hid] at hid'
    exact Option.some.inj hid' ▸ hopen
  · obtain ⟨row, hin, -, rfl, hended⟩ := Sessions.mem_openIds.mp hid
    obtain ⟨c, hc⟩ :=
      lookup_resume_isSome now roster (mem_openClientSessions.mpr ⟨hin, hended⟩)
    obtain ⟨-, id', hid', hopen⟩ := hrow hc
    rw [sessionOf_eq_some]
    exact ⟨c, hc, by rw [hid', Sessions.eq_of_mem_openIds (h row.ip) hid hopen]⟩

end Start

/-! ## The runs -/

/-- The invariant. Without a process there is only the table. -/
structure Sound (s : Sys) : Prop where
  one : ∀ ip, (s.db.sessions.openIds ip).length ≤ 1
  process : ∀ p ∈ s.process,
    0 ≤ p.timing.offlineAfter ∧ Tracked s.db.sessions p.live p.work

/-- A start reads the sessions that are open, if there are any, with a grace period that is a positive number of
seconds when it is taken for a signed one; and where a session is to be closed, it is. -/
def Kept (s : Sys) (e : Event) (_ : Sys) : Prop :=
  match e with
  | .start cfg _ _ sessionsRead =>
    (sessionsRead = true ∨ s.db.openClientSessions = []) ∧ cfg.offlineAfterSecs.toNat < 2 ^ 63
  | .proceed ok _ =>
    ∀ p ∈ s.process, ∀ id ended, p.work.head? = some (.closeSession id ended) → ok.first = true
  | _ => True

section Runs

variable {s s' : Sys} {p : Process} {t : Timing} {ok : Succeeds} {clock : DateTime} {op : Op}
  {work : List Op} {ip : Ipv4Addr} {db : ClientTables} {f : Flush}

theorem openIds_addSessionBytes {id : ℕ} {rx tx : UInt64} :
    (db.addSessionBytes id rx tx).sessions.openIds ip = db.sessions.openIds ip := by
  unfold ClientTables.addSessionBytes
  split_ifs
  · rfl
  · exact Sessions.openIds_addToRow

theorem lastId_addSessionBytes {id : ℕ} {rx tx : UInt64} :
    (db.addSessionBytes id rx tx).sessions.lastId = db.sessions.lastId := by
  unfold ClientTables.addSessionBytes
  split_ifs <;> rfl

theorem openIds_writeBucket : (writeBucket db f ok).sessions.openIds ip = db.sessions.openIds ip := by
  unfold writeBucket
  cases f.session with
  | none => cases ok 0 <;> rfl
  | some id => cases ok 0 <;> cases ok 1 <;> simp [openIds_addSessionBytes, ClientTables.recordClientSample]

theorem lastId_writeBucket : (writeBucket db f ok).sessions.lastId = db.sessions.lastId := by
  unfold writeBucket
  cases f.session with
  | none => cases ok 0 <;> rfl
  | some id => cases ok 0 <;> cases ok 1 <;> simp [lastId_addSessionBytes, ClientTables.recordClientSample]

theorem offlineAfter_nonneg {cfg : ClientsConfig} (hcfg : cfg.offlineAfterSecs.toNat < 2 ^ 63)
    (ht : cfg.timing = some t) : 0 ≤ t.offlineAfter := by
  simp only [ClientsConfig.timing, Option.bind_eq_bind, Option.bind_eq_some_iff] at ht
  obtain ⟨offlineAfter, hoffline, persistEvery, -, heq⟩ := ht
  cases heq
  unfold TimeDelta.seconds at hoffline
  split_ifs at hoffline
  cases hoffline
  have hnonneg : 0 ≤ asI64 cfg.offlineAfterSecs := by
    unfold asI64
    rw [BitVec.toInt_eq_toNat_of_lt (by rw [UInt64.toNat_toBitVec]; omega)]
    exact Int.natCast_nonneg _
  exact Int.mul_nonneg hnonneg (Int.natCast_nonneg _)

theorem Tracked.perform (h : Tracked s.db.sessions p.live (op :: work))
    (ht : 0 ≤ p.timing.offlineAfter) (hclose : ∀ id ended, op = .closeSession id ended → ok 0 = true) :
    Sound (perform s p work ok clock op) := by
  cases op with
  | upsert facts now =>
    have hskip := h.skip (by simp) (by simp)
    unfold ClientsLoop.perform
    cases ok 0 <;> exact ⟨h.one, fun q hq => Option.some.inj hq ▸ ⟨ht, hskip⟩⟩
  | closeSession id ended =>
    have hclosed := h.close
    unfold ClientsLoop.perform
    rw [hclose id ended rfl]
    exact ⟨hclosed.one, fun q hq => Option.some.inj hq ▸ ⟨ht, hclosed⟩⟩
  | openSession ip startedAt =>
    unfold ClientsLoop.perform
    cases ok 0 with
    | true =>
      have hopened := h.openRow
      exact ⟨hopened.one, fun q hq => Option.some.inj hq ▸ ⟨ht, hopened⟩⟩
    | false =>
      have hskip := h.skip (by simp) (by simp)
      exact ⟨h.one, fun q hq => Option.some.inj hq ▸ ⟨ht, hskip⟩⟩
  | enterSession ip id =>
    obtain ⟨c, hc, hentered⟩ := h.enter
    refine ⟨h.one, fun q hq => Option.some.inj hq ▸ ⟨ht, ?_⟩⟩
    dsimp only
    rw [hc]
    exact hentered
  | flush f =>
    have hskip : Tracked (writeBucket s.db f ok).sessions p.live work :=
      (h.skip (by simp) (by simp)).resession (fun _ => openIds_writeBucket)
        (le_of_eq lastId_writeBucket.symm)
    unfold ClientsLoop.perform
    cases ok 2 <;> exact ⟨hskip.one, fun q hq => Option.some.inj hq ▸ ⟨ht, hskip⟩⟩
  | forget ip =>
    have hskip := h.skip (by simp) (by simp)
    exact ⟨h.one, fun q hq => Option.some.inj hq ▸ ⟨ht, hskip⟩⟩
  | prune =>
    unfold ClientsLoop.perform
    cases pruneCutoff p.timing.retentionHours clock with
    | none => exact ⟨h.one, fun _ hq => by cases hq⟩
    | some cutoff =>
      have hkept : ∀ r : ClientSessionRow, r.endedAt = none →
          (r.endedAt.all fun ended => decide (cutoff ≤ ended)) = true := by
        intro r hr
        rw [hr]
        rfl
      have hskip := h.skip (by simp) (by simp)
      have hpruned := hskip.resession (fun _ => Sessions.openIds_keep hkept) (le_refl _)
      cases ok 0 <;> cases ok 1
      · exact ⟨h.one, fun q hq => Option.some.inj hq ▸ ⟨ht, hskip⟩⟩
      · exact ⟨h.one, fun q hq => Option.some.inj hq ▸ ⟨ht, hskip⟩⟩
      · exact ⟨h.one, fun q hq => Option.some.inj hq ▸ ⟨ht, hskip⟩⟩
      · exact ⟨hpruned.one, fun q hq => Option.some.inj hq ▸ ⟨ht, hpruned⟩⟩

theorem Sound.start (h : Sound s) (ht : 0 ≤ t.offlineAfter) (now : DateTime)
    (rosterRead : Bool) {sessionsRead : Bool} (hread : sessionsRead = true ∨ s.db.openClientSessions = []) :
    Sound (start s t now rosterRead sessionsRead) := by
  have hrows : (if sessionsRead then s.db.openClientSessions else []) = s.db.openClientSessions := by
    rcases hread with rfl | hnil
    · rfl
    · rw [hnil, ite_self]
  unfold ClientsLoop.start
  rw [hrows]
  exact ⟨h.one, fun q hq => Option.some.inj hq ▸ ⟨ht, tracked_resume h.one⟩⟩

theorem Sound.move {e : Event} (h : Sound s) (hp : s.process = some p) (hmove : Moves s p e s')
    (hkept : Kept s e s') : Sound s' := by
  obtain ⟨ht, htracked⟩ := h.process p hp
  cases hmove with
  | stop => exact ⟨h.one, fun _ hq => by cases hq⟩
  | tick _ hwork =>
    rw [hwork] at htracked
    refine ⟨h.one, fun q hq => Option.some.inj hq ▸ ⟨ht, htracked.tick ht ?_⟩⟩
    intro op hop
    split_ifs at hop
    · exact List.mem_singleton.mp hop
    · cases hop
  | proceed _ hwork =>
    rw [hwork] at htracked
    apply htracked.perform ht
    rintro id ended rfl
    exact hkept p hp id ended (by rw [hwork]; rfl)
  | @hand f _ ok _ =>
    have hwritten : Tracked (writeBucket s.db f ok).sessions p.live p.work :=
      htracked.resession (fun _ => openIds_writeBucket) (le_of_eq lastId_writeBucket.symm)
    exact ⟨hwritten.one, fun q hq => Option.some.inj hq ▸ ⟨ht, hwritten⟩⟩
  | @take now _ => exact ⟨h.one, fun q hq => Option.some.inj hq ▸ ⟨ht, htracked.emptied now⟩⟩
  | signal | abort | cancel | leave =>
    exact ⟨h.one, fun q hq => Option.some.inj hq ▸ ⟨ht, htracked⟩⟩

theorem Sound.step {e : Event} (h : Sound s) (hstep : step s e = some s') (hkept : Kept s e s') :
    Sound s' := by
  rcases step_cases hstep with ⟨cfg, t, now, rosterRead, sessionsRead, -, ht, rfl, rfl⟩ | ⟨p, hp, hmove⟩
  · obtain ⟨hread, hcfg⟩ := hkept
    exact h.start (offlineAfter_nonneg hcfg ht) now rosterRead hread
  · exact h.move hp hmove hkept

theorem sound_initial : Sound initial := ⟨fun _ => Nat.zero_le 1, fun _ hp => by cases hp⟩

theorem Sound.oneOpen (h : Sound s) : OneOpen s := by
  refine fun ip => ⟨h.one ip, fun p hp c hc _ id hid => ?_⟩
  obtain ⟨-, htracked⟩ := h.process p hp
  exact htracked.isOpen ip id (sessionOf_eq_some.mpr ⟨c, hc, hid⟩)

end Runs

/-- **At most one open session for each client.** Where no close fails, and every start reads the
sessions that are open. -/
theorem sessions_kept {es : List Event} {s : Sys} (hrun : Run step initial es s)
    (hkept : AllSteps step Kept initial es) : OneOpen s :=
  (hrun.invariant (fun _ _ _ h hstep hkept => h.step hstep hkept) hkept sound_initial).oneOpen

/-- The phone is gone for three minutes, and comes back. -/
def comeback (closed : Bool) : List Event :=
  arrival .default ++ [glance 200 false .zero, .proceed (fun _ => closed) .epoch, glance 205 true .zero, proceeds]

/-- Is this a step of the condition? -/
def keeps (_ : Sys) (e : Event) (_ : Sys) : Bool :=
  match e with
  | .start cfg _ _ sessionsRead => sessionsRead && decide (cfg.offlineAfterSecs.toNat < 2 ^ 63)
  | .proceed ok _ => ok.first
  | _ => true

theorem kept_of_keeps {s : Sys} {e : Event} {t : Sys} (h : keeps s e t = true) : Kept s e t := by
  cases e with
  | start cfg now rosterRead sessionsRead =>
    simp only [keeps, Bool.and_eq_true, decide_eq_true_eq] at h
    exact ⟨Or.inl h.1, h.2⟩
  | proceed ok clock => exact fun _ _ _ _ _ => h
  | _ => trivial

/-- And the daemon is started once more. -/
theorem sessions_kept_comeback : ∃ s,
    Run step initial (comeback true ++ [.stop, .start .default (moment 300) true true]) s ∧
      s.db.sessions.openIds phone = [2] ∧ OneOpen s := by
  have hsome : (exec step initial
      (comeback true ++ [.stop, .start .default (moment 300) true true])).isSome = true := by
    decide +kernel
  have hrun := run_get hsome
  refine ⟨_, hrun, Run.of_all (P := fun s => s.db.sessions.openIds phone = [2]) (by decide +kernel) hrun, ?_⟩
  exact sessions_kept hrun (allSteps_of_check (c := keeps) (fun _ _ _ => kept_of_keeps) (by decide +kernel))

/-- Where the session could not be closed, there are two. -/
theorem sessions_not_kept :
    ¬ ∀ (es : List Event) (s : Sys), Run step initial es s → OneOpen s := by
  intro hall
  have hsome : (exec step initial (comeback false)).isSome = true := by decide +kernel
  have hrun := run_get hsome
  have htwo := Run.of_all (P := fun s => s.db.sessions.openIds phone = [1, 2]) (by decide +kernel) hrun
  have hone := (hall _ _ hrun phone).1
  rw [htwo] at hone
  exact absurd hone (by decide)

end Vlb.ClientsLoop
