import Vlb.Ui.Delivery

/-!
# The connections of a client

The detail of a client lists its connections, the newest first, each with how long the client had
been away before it. The list is a page: the query has a limit.

* `Found`: what the detail is made of.
* `GapsExact`: what the gaps are to be.
* `getElem?_sessionInfos`: a row of the list.
* **`gapsExact_iff`**: the gaps are so where the page holds every connection.
-/

namespace Vlb.Control

open Entries Time

/-! ## The detail -/

/-- How many connections the detail asks for. -/
def sessionLimit : UInt32 := 50

/-- The connections of a client, the oldest first. -/
def historyOf (rows : List ClientSessionRow) (ip : String) : List ClientSessionRow :=
  rows.filter fun s => s.ip = ip

section Detail

variable [Floats] {d : Daemon} {ip : String} {hours limit : UInt32} {detail : ClientDetail}

theorem clientDetail_eq_ok (h : d.clientDetail ip hours limit = .ok detail) :
    (∃ clients, d.clientList (clamp hours 1 (24 * 365)) = .ok clients ∧
        clients.find? (fun c => c.ip = ip) = some detail.client) ∧
      detail.windowHours = clamp hours 1 (24 * 365) ∧
      detail.availabilityPct = detail.client.availabilityPct (detail.windowHours.toNat * 3600) ∧
      ∃ rows, d.db.recentClientSessions ip sessionLimit = .ok rows ∧
        detail.sessions = sessionInfos d.now rows := by
  obtain ⟨clients, hclients, h⟩ := bind_eq_ok_iff.mp h
  cases hfind : clients.find? fun c => c.ip = ip with
  | none =>
    simp only [hfind] at h
    cases h
  | some client =>
    simp only [hfind] at h
    obtain ⟨raw, -, h⟩ := bind_eq_ok_iff.mp h
    obtain ⟨rows, hrows, h⟩ := bind_eq_ok_iff.mp h
    obtain rfl := Except.ok.inj h
    exact ⟨⟨clients, hclients, hfind⟩, rfl, rfl, rows, hrows, rfl⟩

theorem sessions_clientDetail {rows : List ClientSessionRow} (hrows : d.db.clientSessions = .ok rows)
    (h : d.clientDetail ip hours limit = .ok detail) :
    detail.sessions = sessionInfos d.now ((historyOf rows ip).reverse.take 50) := by
  obtain ⟨-, -, -, page, hpage, hsessions⟩ := clientDetail_eq_ok h
  rw [Database.recentClientSessions, hrows] at hpage
  rw [hsessions, ← Except.ok.inj hpage]
  rfl

end Detail

/-! ## The gaps -/

/-- The whole seconds from an instant to a later one. -/
def wholeSecs (t u : DateTime) : ℤ := if t ≤ u then (u.nanos - t.nanos) / nanosPerSec else 0

/-- Every connection but the newest has been closed. -/
def ClosedInOrder (history : List ClientSessionRow) : Prop :=
  ∀ s ∈ history.dropLast, s.endedAt.isSome = true

/-- What a list of connections, the newest first, is to say of the gaps between them. -/
structure GapsExact (history : List ClientSessionRow) (infos : List ClientSessionInfo) : Prop where
  /-- Only the first connection ever has no gap before it. -/
  first : ∀ i info, infos[i]? = some info → info.gapBeforeSecs = none → i + 1 = history.length
  /-- The others have the time since the end of the connection before. -/
  since : ∀ i info, infos[i]? = some info → ∀ s prev ended, history.reverse[i]? = some s →
    history.reverse[i + 1]? = some prev → prev.endedAt = some ended →
    info.gapBeforeSecs.map Int64.toInt = some (wholeSecs ended s.startedAt)

theorem toInt_secondsBetween (t u : DateTime) : (secondsBetween t u).toInt = wholeSecs t u := by
  have ht := t.inCalendar
  have hu := u.inCalendar
  have hsecs : max (TimeDelta.numSeconds (u.signedDurationSince t)) 0 = wholeSecs t u := by
    rw [TimeDelta.numSeconds, DateTime.signedDurationSince, wholeSecs]
    split_ifs with hle
    · have hnonneg : 0 ≤ u.nanos - t.nanos := Int.sub_nonneg_of_le hle
      rw [Int.tdiv_eq_ediv_of_nonneg hnonneg]
      exact max_eq_left (Int.ediv_nonneg hnonneg (by decide))
    · have hpos : 0 ≤ t.nanos - u.nanos := Int.sub_nonneg_of_le (Int.not_le.mp hle).le
      rw [← Int.neg_sub, Int.neg_tdiv]
      exact max_eq_right (Int.neg_nonpos_of_nonneg (Int.tdiv_nonneg hpos (by decide)))
  rw [secondsBetween, hsecs]
  refine Int64.toInt_ofInt_of_le ?_ ?_ <;>
  · simp only [DateTime.InCalendar, nanosPerSec, wholeSecs] at *
    split_ifs <;> omega

theorem getElem?_sessionInfos (now : DateTime) (rows : List ClientSessionRow) (i : ℕ) :
    (sessionInfos now rows)[i]? = rows[i]?.map fun s =>
      { startedAt := s.startedAt
        endedAt := s.endedAt
        durationSecs := secondsBetween s.startedAt (s.endedAt.getD now)
        gapBeforeSecs := (rows[i + 1]?.bind ClientSessionRow.endedAt).map fun ended =>
          secondsBetween ended s.startedAt
        rxBytes := s.rxBytes
        txBytes := s.txBytes } := by
  induction rows generalizing i with
  | nil => simp [sessionInfos]
  | cons s older ih =>
    cases i with
    | zero => simp [sessionInfos, List.head?_eq_getElem?]
    | succ i =>
      rw [sessionInfos, List.getElem?_cons_succ, List.getElem?_cons_succ, List.getElem?_cons_succ]
      exact ih i

theorem ClosedInOrder.ended {history : List ClientSessionRow} (h : ClosedInOrder history) {i : ℕ}
    {prev : ClientSessionRow} (hprev : history.reverse[i + 1]? = some prev) :
    ∃ ended, prev.endedAt = some ended := by
  rw [← List.getElem?_tail, List.tail_reverse] at hprev
  have hmem := List.mem_reverse.mp (List.mem_of_getElem? hprev)
  exact Option.isSome_iff_exists.mp (h prev hmem)

/-- **The gaps are exact where the page holds the whole history.** -/
theorem gapsExact_page_iff {history : List ClientSessionRow} (h : ClosedInOrder history)
    (now : DateTime) (n : ℕ) :
    GapsExact history (sessionInfos now (history.reverse.take (n + 1))) ↔ history.length ≤ n + 1 := by
  constructor
  · intro hexact
    by_contra hlong
    -- the last row of the page is not the first connection
    have hrow : ∃ s, (history.reverse.take (n + 1))[n]? = some s := by
      refine ⟨_, List.getElem?_eq_getElem ?_⟩
      rw [List.length_take, List.length_reverse]
      omega
    obtain ⟨s, hs⟩ := hrow
    have hend : (history.reverse.take (n + 1))[n + 1]? = none :=
      List.getElem?_eq_none (List.length_take_le _ _)
    have hinfo := getElem?_sessionInfos now (history.reverse.take (n + 1)) n
    rw [hs, hend] at hinfo
    have hfirst := hexact.first n _ hinfo rfl
    omega
  · intro hshort
    have hall : history.reverse.take (n + 1) = history.reverse :=
      List.take_of_length_le (by rwa [List.length_reverse])
    rw [hall]
    constructor
    · intro i info hinfo hgap
      rw [getElem?_sessionInfos] at hinfo
      obtain ⟨s, hs, rfl⟩ := Option.map_eq_some_iff.mp hinfo
      have hi : i < history.length := by
        rw [← List.length_reverse]
        exact (List.getElem?_eq_some_iff.mp hs).1
      by_contra hne
      obtain ⟨prev, hprev⟩ : ∃ prev, history.reverse[i + 1]? = some prev :=
        ⟨_, List.getElem?_eq_getElem (by rw [List.length_reverse]; omega)⟩
      obtain ⟨ended, hended⟩ := h.ended hprev
      simp [hprev, hended] at hgap
    · intro i info hinfo s prev ended hs hprev hended
      rw [getElem?_sessionInfos, hs, Option.map_some] at hinfo
      obtain rfl := Option.some.inj hinfo
      simp only [hprev, Option.bind_some, hended, Option.map_some, toInt_secondsBetween]

/-- **The gaps in the detail of a client are exact for histories of at most fifty connections.** -/
theorem gapsExact_iff [Floats] {d : Daemon} {ip : String} {hours limit : UInt32}
    {detail : ClientDetail} {rows : List ClientSessionRow} (hrows : d.db.clientSessions = .ok rows)
    (hclosed : ClosedInOrder (historyOf rows ip)) (h : d.clientDetail ip hours limit = .ok detail) :
    GapsExact (historyOf rows ip) detail.sessions ↔ (historyOf rows ip).length ≤ 50 := by
  rw [sessions_clientDetail hrows h]
  exact gapsExact_page_iff hclosed d.now 49

/-! ## A client that comes and goes -/

/-- A daemon that knows of one client, with these connections. -/
def withSessions (rows : List ClientSessionRow) : Daemon :=
  { longHistory with
    db := { longHistory.db with
      clients := .ok [⟨"10.0.0.5", none, none, none, .epoch, .epoch⟩]
      clientSessions := .ok rows } }

theorem clientDetail_withSessions [Floats] (rows : List ClientSessionRow) :
    ∃ detail, (withSessions rows).clientDetail "10.0.0.5" 24 120 = .ok detail := by
  have hclients : (withSessions rows).clientList (clamp 24 1 (24 * 365)) =
      .ok [buildClientInfo "10.0.0.5" none none none (some .epoch) (some .epoch) none none .epoch] :=
    congrArg Except.ok (List.mergeSort_singleton _)
  rw [Daemon.clientDetail, hclients]
  exact ⟨_, rfl⟩

/-- A connection that has been closed. -/
def briefly : ClientSessionRow := ⟨"10.0.0.5", .epoch, some .epoch, 0, 0⟩

/-- It connects for an hour, and again after an hour and a half. -/
def twice : List ClientSessionRow :=
  [⟨"10.0.0.5", ClientsLoop.moment 0, some (ClientsLoop.moment 3600), 0, 0⟩,
    ⟨"10.0.0.5", ClientsLoop.moment 9000, none, 0, 0⟩]

theorem gapsExact_twice : let _ := intervals
    ∃ detail, (withSessions twice).clientDetail "10.0.0.5" 24 120 = .ok detail ∧
      detail.sessions.map ClientSessionInfo.gapBeforeSecs = [some 5400, none] ∧
      GapsExact twice detail.sessions := by
  let _ := intervals
  obtain ⟨detail, hdetail⟩ := clientDetail_withSessions twice
  have hclosed : ClosedInOrder (historyOf twice "10.0.0.5") := List.forall_mem_singleton.mpr rfl
  have hgaps : (sessionInfos (withSessions twice).now
      ((historyOf twice "10.0.0.5").reverse.take 50)).map ClientSessionInfo.gapBeforeSecs =
        [some 5400, none] := by decide +kernel
  rw [← sessions_clientDetail rfl hdetail] at hgaps
  exact ⟨detail, hdetail, hgaps, (gapsExact_iff rfl hclosed hdetail).mpr (by decide)⟩

/-- The fiftieth of fifty-one connections is shown as the first. -/
theorem not_gapsExact :
    ¬ ∀ (_ : Floats) (d : Daemon) (ip : String) (hours limit : UInt32) (detail : ClientDetail)
      (rows : List ClientSessionRow), d.db.clientSessions = .ok rows →
      ClosedInOrder (historyOf rows ip) → d.clientDetail ip hours limit = .ok detail →
      GapsExact (historyOf rows ip) detail.sessions := by
  intro hall
  let _ := intervals
  obtain ⟨detail, hdetail⟩ := clientDetail_withSessions (List.replicate 51 briefly)
  have hown : historyOf (List.replicate 51 briefly) "10.0.0.5" = List.replicate 51 briefly :=
    List.filter_replicate_of_pos (by decide)
  have hclosed : ClosedInOrder (List.replicate 51 briefly) := by
    intro s hs
    rw [List.eq_of_mem_replicate (List.mem_of_mem_dropLast hs)]
    rfl
  have hexact := hall intervals _ _ _ _ _ _ rfl (by rwa [hown]) hdetail
  rw [sessions_clientDetail rfl hdetail, hown, gapsExact_page_iff hclosed, List.length_replicate]
    at hexact
  omega

end Vlb.Control
