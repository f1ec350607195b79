import Vlb.Lib.Entries
import Vlb.Lib.Journal
import Vlb.Lib.Time

/-!
# Conditions that persist

A provider that is down is found to be down every few seconds. The log says so when it starts, and
then every quarter of an hour.

* `FailureLog.failed`, `OutageLog.observe`: what to log of a failed round, and of an outage.
* `Suppressed`, `Counted`, `Announced`: what is to be said, in terms of what has been said before.
* `suppressed_journal`, `announced_journal`: it is said, over any sequence of rounds.
* **`repeat_law`**: and the rounds that a summary counts are those since the last line.
-/

namespace Vlb.Repeat

open Entries Journal Streak Time

/-! ## The failures of a provider -/

/-- How often a condition that persists is summarised. -/
def summaryEvery : Duration := .fromSecs (15 * 60)

/-- What to log of a failed round. -/
inductive FailureLine
  | report
  | summary (checks : UInt32) (overTime : Duration)
  /-- `Repeat`: nothing new. -/
  | repeated
  deriving DecidableEq

/-- What is remembered of a layer that fails. -/
structure LayerLog where
  lastLine : Instant
  /-- Failed rounds since then, not counting the one that logged it. -/
  sinceLine : UInt32
  lastFailure : Instant
  deriving DecidableEq

/-- The failures of a provider, by layer. -/
structure FailureLog where
  layers : HashMap String LayerLog := ∅

/-- A failure of a layer that has failed before. -/
def LayerLog.failed (l : LayerLog) (now : Instant) : FailureLine × LayerLog :=
  let quietFor := now.saturatingDurationSince l.lastFailure
  let overTime := now.saturatingDurationSince l.lastLine
  if summaryEvery ≤ quietFor then
    (.report, { lastLine := now, sinceLine := 0, lastFailure := now })
  else if summaryEvery ≤ overTime then
    (.summary (l.sinceLine + 1) overTime, { lastLine := now, sinceLine := 0, lastFailure := now })
  else (.repeated, { l with sinceLine := l.sinceLine + 1, lastFailure := now })

/-- A layer without a record gets a line. -/
def FailureLog.failed (log : FailureLog) (layer : String) (now : Instant) :
    FailureLine × FailureLog :=
  match log.layers.lookup layer with
  | none => (.report, { layers := log.layers.insert layer ⟨now, 0, now⟩ })
  | some l => ((l.failed now).1, { layers := log.layers.insert layer (l.failed now).2 })

/-! ## Outages -/

/-- What to log of a condition that is on or off in each round. -/
inductive OutageLine
  | started
  | reminder (lasted : Duration)
  | quiet
  | ended (lasted : Duration)
  | idle
  deriving DecidableEq

/-- What is remembered of an outage. -/
structure OutageLog where
  since : Option Instant := none
  lastLine : Option Instant := none

/-- One round, in which it happens or not. -/
def OutageLog.observe (log : OutageLog) (happening : Bool) (now : Instant) : OutageLine × OutageLog :=
  match log.since, happening with
  | none, false => (.idle, log)
  | none, true => (.started, { since := some now, lastLine := some now })
  | some since, false => (.ended (now.saturatingDurationSince since), {})
  | some since, true =>
    let last := log.lastLine.getD since
    if summaryEvery ≤ now.saturatingDurationSince last then
      (.reminder (now.saturatingDurationSince since), { log with lastLine := some now })
    else (.quiet, log)

/-! ## What is to be said -/

/-- A failed round, and what was logged of it. -/
structure Failure where
  layer : String
  time : Instant
  line : FailureLine

def FailureLog.step (log : FailureLog) (call : String × Instant) : Failure × FailureLog :=
  (⟨call.1, call.2, (log.failed call.1 call.2).1⟩, (log.failed call.1 call.2).2)

/-- It is a line of the log. -/
def Failure.isLine (e : Failure) : Bool := e.line ≠ .repeated

/-- The failures of one layer. -/
def ofLayer (layer : String) (failures : List Failure) : List Failure :=
  failures.filter fun e => e.layer = layer

/-- What is logged of a round, after the failures of its layer before. -/
structure Suppressed (own : List Failure) (e : Failure) : Prop where
  first : own = [] → e.line = .report
  apart : e.isLine = true → ∀ b ∈ own, b.isLine = true →
    summaryEvery ≤ e.time.saturatingDurationSince b.time
  due : ∀ last ∈ latest Failure.isLine own,
    summaryEvery ≤ e.time.saturatingDurationSince last.time → e.isLine = true
  overTime : ∀ checks overTime, e.line = .summary checks overTime →
    ∃ last ∈ latest Failure.isLine own, overTime = e.time.saturatingDurationSince last.time
  /-- The counter has 32 bits. -/
  counter : ∀ checks overTime, e.line = .summary checks overTime →
    checks = UInt32.ofNat (streak (fun b => !b.isLine) own + 1)

/-- A summary counts the failures since the last line, itself included. -/
def Counted (own : List Failure) (e : Failure) : Prop :=
  ∀ checks overTime, e.line = .summary checks overTime →
    checks.toNat = streak (fun b => !b.isLine) own + 1

/-- From a line to the next there are fewer failures in between. -/
def FewerBetween (most : ℕ) (own : List Failure) (e : Failure) : Prop :=
  e.isLine = true → streak (fun b => !b.isLine) own < most

/-- A round, and what was logged of the outage. -/
structure Round where
  time : Instant
  line : OutageLine

def OutageLog.step (log : OutageLog) (call : Bool × Instant) : Round × OutageLog :=
  (⟨call.2, (log.observe call.1 call.2).1⟩, (log.observe call.1 call.2).2)

/-- An outage starts or ends. -/
def Round.isEdge (e : Round) : Bool :=
  match e.line with
  | .started | .ended _ => true
  | _ => false

/-- It is a line of the log. -/
def Round.isLine (e : Round) : Bool := e.line ≠ .quiet ∧ e.line ≠ .idle

/-- What is logged of an outage, after the rounds before. -/
structure Announced (before : List Round) (e : Round) : Prop where
  started : e.line = .started →
    ∀ edge ∈ latest Round.isEdge before, ∃ lasted, edge.line = .ended lasted
  ended : ∀ lasted, e.line = .ended lasted → ∃ start ∈ latest Round.isEdge before,
    start.line = .started ∧ lasted = e.time.saturatingDurationSince start.time
  reminder : ∀ lasted, e.line = .reminder lasted →
    (∃ start ∈ latest Round.isEdge before, start.line = .started) ∧
      ∃ last ∈ latest Round.isLine before,
        summaryEvery ≤ e.time.saturatingDurationSince last.time

/-! ## The failures -/

/-- What the record of a layer says of its failures. -/
structure Kept (own : List Failure) (l : LayerLog) : Prop where
  lastLine : ∃ last ∈ latest Failure.isLine own, last.time = l.lastLine
  sinceLine : l.sinceLine = UInt32.ofNat (streak (fun b => !b.isLine) own)
  lastFailure : ∃ last ∈ own, last.time = l.lastFailure
  lines_le : ∀ b ∈ own, b.isLine = true → b.time ≤ l.lastLine
  le : l.lastLine ≤ l.lastFailure

/-- The record of a layer, if it has one. -/
def Records (own : List Failure) : Option LayerLog → Prop
  | none => own = []
  | some l => Kept own l

theorem kept_line {own : List Failure} {e : Failure} (h : e.isLine = true)
    (hle : ∀ b ∈ own, b.time ≤ e.time) : Kept (own ++ [e]) ⟨e.time, 0, e.time⟩ where
  lastLine := ⟨e, by rw [latest_concat, if_pos h]; rfl, rfl⟩
  sinceLine := by
    rw [streak_concat, if_neg (by simp [h])]
    rfl
  lastFailure := ⟨e, List.mem_append_right _ (List.mem_singleton_self e), rfl⟩
  lines_le := by
    intro b hb _
    obtain hb | hb := List.mem_append.mp hb
    · exact hle b hb
    · rw [List.mem_singleton.mp hb]
      exact Nat.le_refl _
  le := Nat.le_refl _

theorem kept_repeated {own : List Failure} {l : LayerLog} (hkept : Kept own l) {e : Failure}
    (h : e.isLine = false) (hle : ∀ b ∈ own, b.time ≤ e.time) :
    Kept (own ++ [e]) { l with sinceLine := l.sinceLine + 1, lastFailure := e.time } where
  lastLine := by
    rw [latest_concat, h, if_neg Bool.false_ne_true]
    exact hkept.lastLine
  sinceLine := by
    rw [streak_concat, if_pos (by simp [h]), hkept.sinceLine, UInt32.ofNat_add]
    rfl
  lastFailure := ⟨e, List.mem_append_right _ (List.mem_singleton_self e), rfl⟩
  lines_le := by
    intro b hb hline
    obtain hb | hb := List.mem_append.mp hb
    · exact hkept.lines_le b hb hline
    · rw [List.mem_singleton.mp hb, h] at hline
      cases hline
  le := by
    obtain ⟨last, hlast, htime⟩ := hkept.lastFailure
    exact Nat.le_trans hkept.le (htime ▸ hle last hlast)

theorem LayerLog.failed_cases (l : LayerLog) (now : Instant) :
    (l.failed now = (.report, ⟨now, 0, now⟩) ∧
      summaryEvery ≤ now.saturatingDurationSince l.lastFailure) ∨
    (l.failed now = (.summary (l.sinceLine + 1) (now.saturatingDurationSince l.lastLine),
        ⟨now, 0, now⟩) ∧
      summaryEvery ≤ now.saturatingDurationSince l.lastLine) ∨
    (l.failed now = (.repeated, { l with sinceLine := l.sinceLine + 1, lastFailure := now }) ∧
      ¬ summaryEvery ≤ now.saturatingDurationSince l.lastLine) := by
  rw [LayerLog.failed]
  split_ifs with hquiet hover
  · exact Or.inl ⟨rfl, hquiet⟩
  · exact Or.inr (Or.inl ⟨rfl, hover⟩)
  · exact Or.inr (Or.inr ⟨rfl, hover⟩)

theorem le_saturatingDurationSince {t u v : Instant} {d : Duration} (htu : t ≤ u)
    (h : d ≤ v.saturatingDurationSince u) : d ≤ v.saturatingDurationSince t := by
  have htu : t.nanos ≤ u.nanos := htu
  have h : d.nanos ≤ v.nanos - u.nanos := h
  show d.nanos ≤ v.nanos - t.nanos
  omega

/-- What is logged is as it is to be where it is a line when one is due, and a summary says what the
record has. -/
theorem Kept.suppressed {own : List Failure} {l : LayerLog} (hkept : Kept own l) {e : Failure}
    (hline : e.isLine = true ↔ summaryEvery ≤ e.time.saturatingDurationSince l.lastLine)
    (hsummary : ∀ checks overTime, e.line = .summary checks overTime →
      checks = l.sinceLine + 1 ∧ overTime = e.time.saturatingDurationSince l.lastLine) :
    Suppressed own e := by
  obtain ⟨last, hlast, htime⟩ := hkept.lastLine
  constructor
  case first =>
    intro hown
    rw [hown] at hlast
    cases hlast
  case apart =>
    intro he b hb hbline
    exact le_saturatingDurationSince (hkept.lines_le b hb hbline) (hline.mp he)
  case due =>
    intro last' hlast' hdue
    obtain rfl := Option.mem_unique hlast hlast'
    exact hline.mpr (htime ▸ hdue)
  case overTime =>
    intro checks overTime hchecks
    exact ⟨last, hlast, htime ▸ (hsummary checks overTime hchecks).2⟩
  case counter =>
    intro checks overTime hchecks
    rw [(hsummary checks overTime hchecks).1, hkept.sinceLine, UInt32.ofNat_add]
    rfl

/-- **What a layer logs is as it is to be**, and the record is kept. -/
theorem suppressed_failed {own : List Failure} {l : LayerLog} (hkept : Kept own l) (layer : String)
    {now : Instant} (hle : ∀ b ∈ own, b.time ≤ now) :
    Suppressed own ⟨layer, now, (l.failed now).1⟩ ∧
      Kept (own ++ [⟨layer, now, (l.failed now).1⟩]) (l.failed now).2 := by
  obtain ⟨hfailed, hquiet⟩ | ⟨hfailed, hover⟩ | ⟨hfailed, hover⟩ := l.failed_cases now
  · rw [hfailed]
    have hover := le_saturatingDurationSince hkept.le hquiet
    refine ⟨hkept.suppressed (iff_of_true rfl hover) ?_, kept_line rfl hle⟩
    rintro checks overTime ⟨⟩
  · rw [hfailed]
    refine ⟨hkept.suppressed (iff_of_true rfl hover) ?_, kept_line rfl hle⟩
    rintro checks overTime ⟨⟩
    exact ⟨rfl, rfl⟩
  · rw [hfailed]
    refine ⟨hkept.suppressed (iff_of_false Bool.false_ne_true hover) ?_,
      kept_repeated hkept rfl hle⟩
    rintro checks overTime ⟨⟩

theorem suppressed_nil (layer : String) (now : Instant) :
    Suppressed [] ⟨layer, now, .report⟩ := by
  constructor
  case first => exact fun _ => rfl
  case apart => exact fun _ _ hb => absurd hb List.not_mem_nil
  case due => exact fun _ _ _ => rfl
  case overTime => rintro checks overTime ⟨⟩
  case counter => rintro checks overTime ⟨⟩

theorem ofLayer_concat (layer : String) (failures : List Failure) (e : Failure) :
    ofLayer layer (failures ++ [e]) =
      if e.layer = layer then ofLayer layer failures ++ [e] else ofLayer layer failures := by
  rw [ofLayer, List.filter_append]
  split_ifs with h
  · simp [ofLayer, h]
  · simp [ofLayer, h]

/-- The record of each layer says what it is to say of the failures so far. -/
def Recorded (past : List Failure) (log : FailureLog) : Prop :=
  ∀ layer, Records (ofLayer layer past) (log.layers.lookup layer)

theorem recorded_insert {past : List Failure} {log : FailureLog} (h : Recorded past log) {e : Failure}
    {l : LayerLog} (hkept : Kept (ofLayer e.layer past ++ [e]) l) :
    Recorded (past ++ [e]) { layers := log.layers.insert e.layer l } := by
  intro layer
  rw [ofLayer_concat]
  split_ifs with hlayer
  · rw [← hlayer, AList.lookup_insert]
    exact hkept
  · rw [AList.lookup_insert_ne (Ne.symm hlayer)]
    exact h layer

/-- **One failed round.** -/
theorem suppressed_step {past : List Failure} {log : FailureLog} {call : String × Instant}
    (h : Recorded past log) (hle : ∀ b ∈ past, b.time ≤ call.2) :
    Suppressed (ofLayer call.1 past) (log.step call).1 ∧
      Recorded (past ++ [(log.step call).1]) (log.step call).2 := by
  obtain ⟨layer, now⟩ := call
  have hown : ∀ b ∈ ofLayer layer past, b.time ≤ now :=
    fun b hb => hle b (List.mem_of_mem_filter hb)
  have hrecords := h layer
  cases hlookup : log.layers.lookup layer with
  | none =>
    rw [hlookup] at hrecords
    have hnone : ofLayer layer past = [] := hrecords
    simp only [FailureLog.step, FailureLog.failed, hlookup]
    refine ⟨hnone ▸ suppressed_nil layer now, ?_⟩
    have hkept : Kept (ofLayer layer past ++ [⟨layer, now, .report⟩]) ⟨now, 0, now⟩ :=
      kept_line rfl hown
    exact recorded_insert h hkept
  | some l =>
    rw [hlookup] at hrecords
    obtain ⟨hsuppressed, hkept⟩ := suppressed_failed hrecords layer hown
    simp only [FailureLog.step, FailureLog.failed, hlookup]
    exact ⟨hsuppressed, recorded_insert h hkept⟩

/-- **Over any sequence of rounds, what is logged of each layer is as it is to be.** -/
theorem suppressed_journal {calls : List (String × Instant)}
    (hsorted : calls.Pairwise fun c c' => c.2 ≤ c'.2) :
    Throughout (fun before e => Suppressed (ofLayer e.layer before) e)
      (journal FailureLog.step {} calls) := by
  have htime : ∀ (log : FailureLog) (call : String × Instant), (log.step call).1.time = call.2 :=
    fun _ _ => rfl
  have htimes : (journal FailureLog.step {} calls).map Failure.time = calls.map Prod.snd :=
    map_journal htime _ _
  have hpairwise : (calls.map Prod.snd).Pairwise (· ≤ ·) := List.pairwise_map.mpr hsorted
  rw [← htimes, List.pairwise_map] at hpairwise
  exact throughout_journal (fun _ _ _ => suppressed_step) (fun _ => rfl)
    (throughout_of_pairwise hpairwise)

/-! ## The outage -/

/-- What the log of an outage says of the rounds so far. -/
structure Observed (past : List Round) (log : OutageLog) : Prop where
  /-- No outage is going on. -/
  off : log.since = none → ∀ edge ∈ latest Round.isEdge past, ∃ lasted, edge.line = .ended lasted
  /-- An outage is going on. -/
  on : ∀ since, log.since = some since →
    (∃ start ∈ latest Round.isEdge past, start.line = .started ∧ start.time = since) ∧
      ∃ last ∈ latest Round.isLine past, last.time = log.lastLine.getD since

theorem observed_nil : Observed [] {} where
  off _ edge hedge := by cases hedge
  on since hsince := by cases hsince

theorem Observed.silent {past : List Round} {log : OutageLog} (h : Observed past log) {e : Round}
    (hsilent : e.line = .quiet ∨ e.line = .idle) :
    Announced past e ∧ Observed (past ++ [e]) log := by
  have hedges : latest Round.isEdge (past ++ [e]) = latest Round.isEdge past := by
    rw [latest_concat, if_neg]
    obtain hline | hline := hsilent <;> simp [Round.isEdge, hline]
  have hlines : latest Round.isLine (past ++ [e]) = latest Round.isLine past := by
    rw [latest_concat, if_neg]
    obtain hline | hline := hsilent <;> simp [Round.isLine, hline]
  refine ⟨⟨?_, ?_, ?_⟩, ⟨?_, ?_⟩⟩
  · obtain hline | hline := hsilent <;> simp [hline]
  · obtain hline | hline := hsilent <;> simp [hline]
  · obtain hline | hline := hsilent <;> simp [hline]
  · rw [hedges]
    exact h.off
  · rw [hedges, hlines]
    exact h.on

theorem Observed.start {past : List Round} {log : OutageLog} (h : Observed past log)
    (hsince : log.since = none) (now : Instant) :
    Announced past ⟨now, .started⟩ ∧
      Observed (past ++ [⟨now, .started⟩]) { since := some now, lastLine := some now } := by
  refine ⟨⟨fun _ => h.off hsince, ?_, ?_⟩, ⟨?_, ?_⟩⟩
  · rintro lasted ⟨⟩
  · rintro lasted ⟨⟩
  · rintro ⟨⟩
  · rintro since ⟨⟩
    rw [latest_concat, latest_concat]
    exact ⟨⟨_, rfl, rfl, rfl⟩, _, rfl, rfl⟩

theorem Observed.stop {past : List Round} {log : OutageLog} (h : Observed past log) {since : Instant}
    (hsince : log.since = some since) (now : Instant) :
    Announced past ⟨now, .ended (now.saturatingDurationSince since)⟩ ∧
      Observed (past ++ [⟨now, .ended (now.saturatingDurationSince since)⟩]) {} := by
  obtain ⟨⟨start, hstart, hstarted, htime⟩, -⟩ := h.on since hsince
  refine ⟨⟨?_, ?_, ?_⟩, ⟨fun _ edge hedge => ?_, ?_⟩⟩
  · rintro ⟨⟩
  · rintro lasted ⟨⟩
    exact ⟨start, hstart, hstarted, by rw [htime]⟩
  · rintro lasted ⟨⟩
  · rw [latest_concat] at hedge
    obtain rfl := Option.some.inj hedge
    exact ⟨_, rfl⟩
  · rintro since ⟨⟩

theorem Observed.remind {past : List Round} {log : OutageLog} (h : Observed past log)
    {since now : Instant}
    (hsince : log.since = some since)
    (hdue : summaryEvery ≤ now.saturatingDurationSince (log.lastLine.getD since)) :
    Announced past ⟨now, .reminder (now.saturatingDurationSince since)⟩ ∧
      Observed (past ++ [⟨now, .reminder (now.saturatingDurationSince since)⟩])
        { since := some since, lastLine := some now } := by
  obtain ⟨⟨start, hstart, hstarted, htime⟩, last, hlast, hlastTime⟩ := h.on since hsince
  refine ⟨⟨?_, ?_, fun _ _ => ?_⟩, ⟨?_, ?_⟩⟩
  · rintro ⟨⟩
  · rintro lasted ⟨⟩
  · exact ⟨⟨start, hstart, hstarted⟩, last, hlast, hlastTime ▸ hdue⟩
  · rintro ⟨⟩
  · rintro since' ⟨⟩
    rw [latest_concat, latest_concat]
    exact ⟨⟨start, hstart, hstarted, htime⟩, _, rfl, rfl⟩

/-- **One round of an outage.** -/
theorem announced_step {past : List Round} {log : OutageLog} {call : Bool × Instant}
    (h : Observed past log) : Announced past (log.step call).1 ∧
      Observed (past ++ [(log.step call).1]) (log.step call).2 := by
  obtain ⟨happening, now⟩ := call
  cases hsince : log.since with
  | none =>
    cases happening with
    | false =>
      simp only [OutageLog.step, OutageLog.observe, hsince]
      exact h.silent (Or.inr rfl)
    | true =>
      simp only [OutageLog.step, OutageLog.observe, hsince]
      exact h.start hsince now
  | some since =>
    cases happening with
    | false =>
      simp only [OutageLog.step, OutageLog.observe, hsince]
      exact h.stop hsince now
    | true =>
      simp only [OutageLog.step, OutageLog.observe, hsince]
      split_ifs with hdue
      · exact h.remind hsince hdue
      · exact h.silent (Or.inl rfl)

/-- **Over any sequence of rounds, what is logged of an outage is as it is to be.** -/
theorem announced_journal (calls : List (Bool × Instant)) :
    Throughout Announced (journal OutageLog.step {} calls) := by
  have hany : Throughout (fun _ _ => True) (journal OutageLog.step {} calls) :=
    fun _ _ _ _ => trivial
  exact throughout_journal (fun _ _ _ h _ => announced_step h) observed_nil hany

/-! ## The law -/

/-- **What the two logs say.** A summary has the right count where fewer than `2 ^ 32` failures come
after a line, up to the next one. -/
theorem repeat_law {calls : List (String × Instant)}
    (hsorted : calls.Pairwise fun c c' => c.2 ≤ c'.2)
    (hfewer : Throughout (fun before e => FewerBetween (2 ^ 32 - 1) (ofLayer e.layer before) e)
      (journal FailureLog.step {} calls)) (rounds : List (Bool × Instant)) :
    Throughout (fun before e => Suppressed (ofLayer e.layer before) e ∧
        Counted (ofLayer e.layer before) e) (journal FailureLog.step {} calls) ∧
      Throughout Announced (journal OutageLog.step {} rounds) := by
  refine ⟨((suppressed_journal hsorted).and hfewer).imp ?_, announced_journal rounds⟩
  rintro before e ⟨hsuppressed, hfew⟩
  refine ⟨hsuppressed, fun checks overTime hchecks => ?_⟩
  have hline : e.isLine = true := by simp [Failure.isLine, hchecks]
  have hlt := hfew hline
  rw [hsuppressed.counter checks overTime hchecks]
  have hsize : UInt32.size = 2 ^ 32 := rfl
  exact UInt32.toNat_ofNat_of_lt' (by omega)

theorem fewerBetween_of_length {first : Failure} {rest : List Failure} {most : ℕ}
    (hfirst : first.isLine = true) (hmost : 0 < most) (hlen : rest.length ≤ most) :
    Throughout (fun before e => FewerBetween most (ofLayer e.layer before) e) (first :: rest) := by
  intro before e after h _
  cases before with
  | nil => exact hmost
  | cons b before =>
    obtain ⟨rfl, hrest⟩ : first = b ∧ rest = before ++ e :: after := List.cons.inj h
    have hbefore : before.length < rest.length := by
      rw [hrest, List.length_append, List.length_cons]
      omega
    have hown : (ofLayer e.layer before).length ≤ before.length := List.length_filter_le _ _
    have hstreak :
        streak (fun b => !b.isLine) (ofLayer e.layer (first :: before)) ≤ before.length := by
      rw [ofLayer, List.filter_cons]
      split_ifs
      · have hmem : first ∈ first :: ofLayer e.layer before := List.mem_cons_self
        have hlt := streak_lt (p := fun b => !b.isLine) hmem (by simp [hfirst])
        exact (Nat.le_of_lt_succ hlt).trans hown
      · exact (List.rtakeWhile_suffix _ _).length_le.trans hown
    omega

/-- An instant, in seconds. -/
def atSecond (secs : UInt32) : Instant where
  nanos := secs.toNat * nanosPerSec
  inRange := Nat.mul_lt_mul_of_pos_right (secs.toNat_lt.trans (by decide)) (by decide)

/-- Three failures of a layer in a quarter of an hour. -/
def threeFailures : List (String × Instant) :=
  [("internet", atSecond 0), ("internet", atSecond 10), ("internet", atSecond 900)]

theorem repeat_law_three :
    Throughout (fun before e => Suppressed (ofLayer e.layer before) e ∧
        Counted (ofLayer e.layer before) e) (journal FailureLog.step {} threeFailures) ∧
      Throughout Announced (journal OutageLog.step {} [(true, atSecond 0), (false, atSecond 900)]) :=
  repeat_law (by decide) (fewerBetween_of_length rfl (by decide) (by decide)) _

/-- The record of a layer with a line at the start, which fails once a second later and again and
again, and then a quarter of an hour after the line. -/
theorem journal_again {log : FailureLog} {k : UInt32}
    (hlog : log.layers.lookup "internet" = some ⟨atSecond 0, k, atSecond 1⟩) (n : ℕ) :
    journal FailureLog.step log
        (List.replicate n ("internet", atSecond 1) ++ [("internet", atSecond 900)]) =
      List.replicate n ⟨"internet", atSecond 1, .repeated⟩ ++
        [⟨"internet", atSecond 900, .summary (k + UInt32.ofNat n + 1) summaryEvery⟩] := by
  induction n generalizing log k with
  | zero =>
    have hline : (LayerLog.failed ⟨atSecond 0, k, atSecond 1⟩ (atSecond 900)).1 =
        .summary (k + 1) summaryEvery := by
      have hquiet : ¬ summaryEvery ≤ (atSecond 900).saturatingDurationSince (atSecond 1) := by decide
      have hover : summaryEvery ≤ (atSecond 900).saturatingDurationSince (atSecond 0) := by decide
      rw [LayerLog.failed, if_neg hquiet, if_pos hover]
      rfl
    have hzero : k + UInt32.ofNat 0 + 1 = k + 1 := congrArg (· + 1) (UInt32.add_zero k)
    simp only [List.replicate_zero, List.nil_append, journal, FailureLog.step, FailureLog.failed, hlog,
      hline, hzero]
  | succ n ih =>
    have hstep : LayerLog.failed ⟨atSecond 0, k, atSecond 1⟩ (atSecond 1) =
        (.repeated, ⟨atSecond 0, k + 1, atSecond 1⟩) := by
      have hquiet : ¬ summaryEvery ≤ (atSecond 1).saturatingDurationSince (atSecond 1) := by decide
      have hover : ¬ summaryEvery ≤ (atSecond 1).saturatingDurationSince (atSecond 0) := by decide
      rw [LayerLog.failed, if_neg hquiet, if_neg hover]
    have hcount : k + 1 + UInt32.ofNat n = k + UInt32.ofNat (n + 1) := by
      rw [UInt32.ofNat_add, UInt32.add_assoc, UInt32.add_comm 1]
      rfl
    rw [List.replicate_succ, List.replicate_succ, List.cons_append, List.cons_append, journal]
    simp only [FailureLog.step, FailureLog.failed, hlog, hstep]
    rw [← hcount]
    exact congrArg _ (ih (AList.lookup_insert _))

/-- A layer fails so often within a quarter of an hour, and at its end. -/
def failures (n : ℕ) : List (String × Instant) :=
  ("internet", atSecond 0) :: ("internet", atSecond 1) ::
    (List.replicate n ("internet", atSecond 1) ++ [("internet", atSecond 900)])

theorem journal_failures (n : ℕ) : journal FailureLog.step {} (failures n) =
    ⟨"internet", atSecond 0, .report⟩ :: ⟨"internet", atSecond 1, .repeated⟩ ::
      (List.replicate n ⟨"internet", atSecond 1, .repeated⟩ ++
        [⟨"internet", atSecond 900, .summary (1 + UInt32.ofNat n + 1) summaryEvery⟩]) := by
  have hlog : ((({} : FailureLog).failed "internet" (atSecond 0)).2.failed "internet"
      (atSecond 1)).2.layers.lookup "internet" = some ⟨atSecond 0, 1, atSecond 1⟩ := by
    decide +kernel
  rw [failures, journal, journal]
  exact congrArg _ (congrArg _ (journal_again hlog n))

theorem sorted_failures (n : ℕ) : (failures n).Pairwise fun c c' => c.2 ≤ c'.2 := by
  have hrest : ∀ c ∈ List.replicate n ("internet", atSecond 1) ++ [("internet", atSecond 900)],
      atSecond 1 ≤ c.2 := by
    intro c hc
    obtain hc | hc := List.mem_append.mp hc
    · rw [List.eq_of_mem_replicate hc]
      exact Nat.le_refl _
    · rw [List.mem_singleton.mp hc]
      decide
  refine List.pairwise_cons.mpr
    ⟨?_, List.pairwise_cons.mpr ⟨hrest, List.pairwise_append.mpr ?_⟩⟩
  · intro c hc
    obtain rfl | hc := List.mem_cons.mp hc
    · decide
    · exact Nat.le_trans (by decide) (hrest c hc)
  · refine ⟨List.pairwise_replicate.mpr (Or.inr (Nat.le_refl _)), List.pairwise_singleton _ _, ?_⟩
    intro c hc c' hc'
    rw [List.eq_of_mem_replicate hc, List.mem_singleton.mp hc']
    decide

/-- **A summary of `2 ^ 32` failures counts none.** -/
theorem not_repeat_law :
    ¬ ∀ (calls : List (String × Instant)) (rounds : List (Bool × Instant)),
      (calls.Pairwise fun c c' => c.2 ≤ c'.2) →
      Throughout (fun before e => FewerBetween (2 ^ 32) (ofLayer e.layer before) e)
        (journal FailureLog.step {} calls) →
      Throughout (fun before e => Suppressed (ofLayer e.layer before) e ∧
          Counted (ofLayer e.layer before) e) (journal FailureLog.step {} calls) ∧
        Throughout Announced (journal OutageLog.step {} rounds) := by
  intro hall
  -- the number is kept out of the lists
  obtain ⟨n, hn⟩ : ∃ n, n + 2 = 2 ^ 32 := ⟨2 ^ 32 - 2, by decide⟩
  have hfewer : Throughout (fun before e => FewerBetween (2 ^ 32) (ofLayer e.layer before) e)
      (journal FailureLog.step {} (failures n)) := by
    rw [journal_failures]
    refine fewerBetween_of_length rfl (by decide) ?_
    rw [List.length_cons, List.length_append, List.length_replicate, List.length_singleton]
    omega
  have hzero : 1 + UInt32.ofNat n + 1 = 0 := by
    have hsum : UInt32.ofNat (n + 2) = UInt32.ofNat n + 2 := UInt32.ofNat_add n 2
    rw [hn] at hsum
    have hwrap : UInt32.ofNat (2 ^ 32) = 0 := by decide
    rw [UInt32.add_comm 1, UInt32.add_assoc, ← hwrap, hsum]
    rfl
  have hlaw := (hall (failures n) [] (sorted_failures n) hfewer).1
  rw [journal_failures, hzero, ← List.cons_append, ← List.cons_append] at hlaw
  have hcount := (hlaw _ _ [] rfl).2 0 summaryEvery rfl
  exact Nat.succ_ne_zero _ hcount.symm

end Vlb.Repeat
