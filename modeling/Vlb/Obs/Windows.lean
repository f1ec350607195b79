import Mathlib.Data.List.Dedup
import Vlb.Balancer.FlapHistory
import Vlb.Lib.Rfc3339
import Vlb.Obs.ClientTables

/-!
# Trailing windows

The database holds times as texts, and its queries compare texts: with the start of a trailing
window, which is written in the same form.

* `Column`: how times are held and compared, as texts (`Column.text`) or as what they are
  (`Column.time`).
* `pruneHealth`, `pruneTrafficAt`, `pruneSystemAt`, `pruneClients`, `trafficTotalsAt`: the queries,
  over a column of either kind.
* `compareText_toRfc3339`: the order of the texts.
* `pruned`, `TotalsOf`: what a deletion leaves and what the totals are, in terms of the times.
* **`windows_by_time`**: over texts, the queries find, delete and sum what is on the right side of
  the start of their window.
-/

namespace Vlb.Stats

open Time Balancer

/-! ## Columns -/

/-- The text that is stored of a time. -/
def toRfc3339 (t : DateTime) : String := String.ofList (rfc3339 t)

/-- SQLite compares texts by their bytes. -/
def compareText (a b : String) : Ordering :=
  List.compareLex compare (Text.utf8 a.toList) (Text.utf8 b.toList)

/-- A column that holds times. -/
structure Column (τ : Type) where
  write : DateTime → τ
  before : τ → τ → Bool

/-- The columns of the database. -/
def Column.text : Column String where
  write := toRfc3339
  before a b := compareText a b = .lt

/-- A column that would hold the times themselves. -/
def Column.time : Column DateTime where
  write := id
  before t u := t.nanos < u.nanos

/-- A row with the column `ts`, and what else it has. -/
structure Row (τ α : Type) where
  ts : τ
  data : α

/-- What is stored of a row. -/
def Row.stored {α : Type} (r : Row DateTime α) : Row String α := ⟨toRfc3339 r.ts, r.data⟩

/-- A row of `client_sessions`. -/
structure Session (τ : Type) where
  ip : String
  startedAt : τ
  /-- Missing while the session is open. -/
  endedAt : Option τ

def Session.stored (s : Session DateTime) : Session String where
  ip := s.ip
  startedAt := toRfc3339 s.startedAt
  endedAt := s.endedAt.map toRfc3339

/-! ## Queries -/

/-- What an interval, or a window, has of a provider. -/
structure Traffic where
  /-- Empty for the total of an interface. -/
  provider : String
  interface : String
  rxBytes : ℤ
  rxPackets : ℤ
  txBytes : ℤ
  txPackets : ℤ

/-- What a query may end with. -/
inductive StatsError
  /-- The subtraction of a window panics. -/
  | outOfCalendar
  /-- `SUM` overflows. -/
  | integerOverflow
  deriving DecidableEq

section Queries

variable {τ α : Type} (col : Column τ)

/-- `WHERE ts >= ?1` -/
def since (cutoff : τ) (rows : List (Row τ α)) : List (Row τ α) :=
  rows.filter fun r => !col.before r.ts cutoff

/-- `DELETE FROM … WHERE ts < ?1`: how many rows there were, and the others. -/
def deleteBefore (cutoff : τ) (rows : List (Row τ α)) : ℕ × List (Row τ α) :=
  (rows.countP fun r => col.before r.ts cutoff, rows.filter fun r => !col.before r.ts cutoff)

/-- `WHERE ended_at IS NULL OR ended_at >= ?1` -/
def touching (cutoff : τ) (sessions : List (Session τ)) : List (Session τ) :=
  sessions.filter fun s => s.endedAt.all fun ended => !col.before ended cutoff

/-- `now - chrono::Duration::hours(hours)` -/
def windowStart (now : DateTime) (hours : UInt32) : Except StatsError DateTime :=
  match pruneCutoff hours now with
  | some start => .ok start
  | none => .error .outOfCalendar

def cutoff (now : DateTime) (hours : UInt32) : Except StatsError τ :=
  (windowStart now hours).map col.write

/-- Deletes what is older than the retention; `0` keeps everything. -/
def pruneAt (retentionHours : UInt32) (now : DateTime) (rows : List (Row τ α)) :
    Except StatsError (ℕ × List (Row τ α)) :=
  if retentionHours = 0 then .ok (0, rows)
  else (cutoff col now retentionHours).map fun c => deleteBefore col c rows

/-- Of `health_checks`, whose other columns do not matter. -/
def pruneHealth (retentionHours : UInt32) (now : DateTime) (rows : List (Row τ α)) :
    Except StatsError (ℕ × List (Row τ α)) := pruneAt col retentionHours now rows

/-- Of `traffic_samples`. -/
def pruneTrafficAt (retentionHours : UInt32) (now : DateTime) (rows : List (Row τ Traffic)) :
    Except StatsError (ℕ × List (Row τ Traffic)) := pruneAt col retentionHours now rows

/-- Of `system_samples`, whose other columns do not matter. -/
def pruneSystemAt (retentionHours : UInt32) (now : DateTime) (rows : List (Row τ α)) :
    Except StatsError (ℕ × List (Row τ α)) := pruneAt col retentionHours now rows

/-- Samples by their time, and sessions by their end. -/
def pruneClients (retentionHours : UInt32) (now : DateTime) (samples : List (Row τ α))
    (sessions : List (Session τ)) :
    Except StatsError (ℕ × List (Row τ α) × List (Session τ)) :=
  if retentionHours = 0 then .ok (0, samples, sessions)
  else (cutoff col now retentionHours).map fun c =>
    let (n, samples) := deleteBefore col c samples
    (n + sessions.countP fun s => s.endedAt.any fun ended => col.before ended c, samples,
      touching col c sessions)

/-- `SUM`, which fails where a partial sum is no `i64`. -/
def sqlSum (ns : List ℤ) : Except StatsError ℤ :=
  ns.foldlM (fun sum n =>
    if -2 ^ 63 ≤ sum + n ∧ sum + n < 2 ^ 63 then .ok (sum + n) else .error .integerOverflow) 0

/-- `ORDER BY provider = '', provider, interface` -/
def totalsLe (a b : String × String) : Bool :=
  if a.1 = "" ∧ b.1 ≠ "" then false
  else if a.1 ≠ "" ∧ b.1 = "" then true
  else a.1 < b.1 ∨ a.1 = b.1 ∧ a.2 ≤ b.2

/-- `GROUP BY provider, interface` -/
def totals (rows : List Traffic) : Except StatsError (List Traffic) :=
  let keys := (rows.map fun r => (r.provider, r.interface)).dedup.mergeSort totalsLe
  keys.mapM fun (provider, interface) => do
    let group := rows.filter fun r => r.provider = provider ∧ r.interface = interface
    return {
      provider, interface
      rxBytes := ← sqlSum (group.map Traffic.rxBytes)
      rxPackets := ← sqlSum (group.map Traffic.rxPackets)
      txBytes := ← sqlSum (group.map Traffic.txBytes)
      txPackets := ← sqlSum (group.map Traffic.txPackets) }

/-- The sums over the window. -/
def trafficTotalsAt (hours : UInt32) (now : DateTime) (rows : List (Row τ Traffic)) :
    Except StatsError (List Traffic) :=
  (cutoff col now hours).bind fun c => totals ((since col c rows).map Row.data)

end Queries

/-! ## The order of the texts -/

variable {α : Type} {t u start now : DateTime} {hours : UInt32}

theorem toList_toRfc3339 (t : DateTime) : (toRfc3339 t).toList = rfc3339 t := String.toList_ofList

theorem compareText_eq (t u : DateTime) :
    compareText (toRfc3339 t) (toRfc3339 u) = List.compareLex compare (rfc3339 t) (rfc3339 u) := by
  rw [compareText, toList_toRfc3339, toList_toRfc3339,
    Lexicographic.compareLex_utf8 (ascii_rfc3339 t) (ascii_rfc3339 u)]

/-- **The order of the texts is that of the times**, in the years of four digits. -/
theorem compareText_toRfc3339 (ht : FourDigits t) (hu : FourDigits u) :
    compareText (toRfc3339 t) (toRfc3339 u) = compare t.nanos u.nanos := by
  rw [compareText_eq, compareLex_rfc3339 ht hu]

theorem DateTime.year_mono (h : t.nanos ≤ u.nanos) : t.date.year ≤ u.date.year := by
  have hday : t.nanos / (86400 * nanosPerSec) ≤ u.nanos / (86400 * nanosPerSec) :=
    Int.ediv_le_ediv (by decide) h
  exact Calendar.Date.year_mono (Int.add_le_add_right hday _)

/-- A text is below that of a window's start if the time is, also where the window starts before the
year 0. -/
theorem before_toRfc3339 (ht : FourDigits t) (hstart : start.date.year ≤ 9999) :
    Column.text.before (toRfc3339 t) (toRfc3339 start) = Column.time.before t start := by
  have hcompare : compareText (toRfc3339 t) (toRfc3339 start) = compare t.nanos start.nanos := by
    by_cases hearly : start.date.year < 0
    · have hgt : List.compareLex compare (rfc3339 t) (rfc3339 start) = .gt :=
        Std.OrientedCmp.gt_of_lt (compareLex_early hearly ht)
      have hlt : start.nanos < t.nanos := by
        by_contra hle
        have hyear := DateTime.year_mono (Int.not_lt.mp hle)
        exact absurd (ht.1.trans hyear) (Int.not_le.mpr hearly)
      rw [compareText_eq, hgt, Int.compare_eq_gt.mpr hlt]
    · exact compareText_toRfc3339 ht ⟨Int.not_lt.mp hearly, hstart⟩
  simp only [Column.text, Column.time, hcompare, Int.compare_eq_lt]

theorem toRfc3339_le_iff (ht : FourDigits t) (hstart : start.date.year ≤ 9999) :
    toRfc3339 start ≤ toRfc3339 t ↔ start ≤ t := by
  have hrel : (fun x y : Char => compare x y = .lt) = (· < ·) := by
    funext x y
    rw [Lexicographic.compare_toNat, Nat.compare_eq_lt]
    rfl
  have hbefore := before_toRfc3339 ht hstart
  simp only [Column.text, Column.time, compareText_eq, decide_eq_decide,
    Lexicographic.compareLex_eq_lt_iff, hrel] at hbefore
  rw [String.le_iff_toList_le, toList_toRfc3339, toList_toRfc3339]
  exact not_lt.symm.trans ((not_congr hbefore).trans Int.not_lt)

/-! ## The queries -/

theorem since_stored {rows : List (Row DateTime α)} (hrows : ∀ r ∈ rows, FourDigits r.ts)
    (hstart : start.date.year ≤ 9999) :
    since .text (toRfc3339 start) (rows.map Row.stored) =
      (since .time start rows).map Row.stored := by
  rw [since, since, List.filter_map]
  refine congrArg (List.map Row.stored) (List.filter_congr fun r hr => ?_)
  rw [Function.comp_apply, Row.stored, before_toRfc3339 (hrows r hr) hstart]

theorem before_time (t start : DateTime) : (!Column.time.before t start) = decide (start ≤ t) := by
  rw [Column.time, ← decide_not]
  exact decide_eq_decide.mpr Int.not_lt

theorem since_time (start : DateTime) (rows : List (Row DateTime α)) :
    since .time start rows = rows.filter fun r => start ≤ r.ts := by
  simp only [since, before_time]

theorem touching_time (start : DateTime) (sessions : List (Session DateTime)) :
    touching .time start sessions = sessions.filter fun s => s.endedAt.all (start ≤ ·) := by
  simp only [touching, before_time]

theorem countP_stored {rows : List (Row DateTime α)} (hrows : ∀ r ∈ rows, FourDigits r.ts)
    (hstart : start.date.year ≤ 9999) :
    (rows.map Row.stored).countP (fun r => Column.text.before r.ts (toRfc3339 start)) =
      rows.countP fun r => Column.time.before r.ts start := by
  rw [List.countP_map]
  exact List.countP_congr fun r hr => by
    rw [Function.comp_apply, Row.stored, before_toRfc3339 (hrows r hr) hstart]

/-- The sessions have ended in years of four digits, if they have. -/
def EndsDatable (sessions : List (Session DateTime)) : Prop :=
  ∀ s ∈ sessions, ∀ ended, s.endedAt = some ended → FourDigits ended

theorem touching_stored {sessions : List (Session DateTime)} (hends : EndsDatable sessions)
    (hstart : start.date.year ≤ 9999) :
    touching .text (toRfc3339 start) (sessions.map Session.stored) =
      (touching .time start sessions).map Session.stored := by
  rw [touching, touching, List.filter_map]
  refine congrArg (List.map Session.stored) (List.filter_congr fun s hs => ?_)
  cases hended : s.endedAt with
  | none => simp [Session.stored, hended]
  | some ended =>
    simpa [Session.stored, hended] using
      congrArg not (before_toRfc3339 (hends s hs ended hended) hstart)

theorem countP_sessions {sessions : List (Session DateTime)} (hends : EndsDatable sessions)
    (hstart : start.date.year ≤ 9999) :
    (sessions.map Session.stored).countP (fun s =>
        s.endedAt.any fun ended => Column.text.before ended (toRfc3339 start)) =
      sessions.countP fun s => s.endedAt.any fun ended => Column.time.before ended start := by
  rw [List.countP_map]
  refine List.countP_congr fun s hs => ?_
  cases hended : s.endedAt with
  | none => simp [Session.stored, hended]
  | some ended =>
    simp [Session.stored, hended, before_toRfc3339 (hends s hs ended hended) hstart]

/-- The flap history that a restarted daemon reads is that of the switches in its window. -/
theorem failoverTimesSince_stored {parse : String → Option DateTime} {changes : List Change}
    (hyears : ∀ c ∈ changes, FourDigits c.time)
    (hread : ∀ c ∈ changes, parse (toRfc3339 c.time) = some c.time)
    (hstart : start.date.year ≤ 9999) (limit : UInt32) :
    failoverTimesSince toRfc3339 parse (rowsOf toRfc3339 changes) start limit =
      (((switchTimes changes).filter fun at_ => start ≤ at_).rtake limit.toNat).reverse := by
  have hfilter : (switchTimes changes).filter (fun at_ => toRfc3339 start ≤ toRfc3339 at_) =
      (switchTimes changes).filter fun at_ => start ≤ at_ := by
    refine List.filter_congr fun at_ hat => decide_eq_decide.mpr ?_
    obtain ⟨c, hc, rfl⟩ := List.mem_map.mp ((switchTimes_sublist changes).subset hat)
    exact toRfc3339_le_iff (hyears c hc) hstart
  rw [failoverTimesSince_rowsOf hread, hfilter]

/-! ## What the queries are for -/

/-- The length of a window, in seconds. -/
def windowSecs (hours : UInt32) : ℤ := hours.toNat * 3600

/-- How many of the rows are before the start of a window, and what is stored of the others. -/
def pruned (start : DateTime) (rows : List (Row DateTime α)) : ℕ × List (Row String α) :=
  (rows.countP fun r => r.ts.nanos < start.nanos,
    (rows.filter fun r => start ≤ r.ts).map Row.stored)

/-- The same of the sessions: of those that have ended before it, and of the others. -/
def prunedSessions (start : DateTime) (sessions : List (Session DateTime)) :
    ℕ × List (Session String) :=
  (sessions.countP fun s => s.endedAt.any fun ended => ended.nanos < start.nanos,
    (sessions.filter fun s => s.endedAt.all (start ≤ ·)).map Session.stored)

def Traffic.key (r : Traffic) : String × String := (r.provider, r.interface)

/-- The rows of a provider and an interface. -/
def rowsAt (key : String × String) (rows : List Traffic) : List Traffic :=
  rows.filter fun r => r.key = key

/-- The sums of the rows of a provider and an interface. -/
def sumAt (rows : List Traffic) (key : String × String) : Traffic where
  provider := key.1
  interface := key.2
  rxBytes := ((rowsAt key rows).map Traffic.rxBytes).sum
  rxPackets := ((rowsAt key rows).map Traffic.rxPackets).sum
  txBytes := ((rowsAt key rows).map Traffic.txBytes).sum
  txPackets := ((rowsAt key rows).map Traffic.txPackets).sum

/-- One entry for each provider and interface that has a row, with the sums of its rows. -/
structure TotalsOf (rows out : List Traffic) : Prop where
  once : (out.map Traffic.key).Nodup
  mem_iff : ∀ key, key ∈ out.map Traffic.key ↔ key ∈ rows.map Traffic.key
  sums : ∀ e ∈ out, e = sumAt rows e.key

/-- The counts of the rows add up to less than `2 ^ 63`. -/
structure SmallCounts (rows : List Traffic) : Prop where
  nonneg : ∀ r ∈ rows, 0 ≤ r.rxBytes ∧ 0 ≤ r.rxPackets ∧ 0 ≤ r.txBytes ∧ 0 ≤ r.txPackets
  rxBytes : (rows.map Traffic.rxBytes).sum < 2 ^ 63
  rxPackets : (rows.map Traffic.rxPackets).sum < 2 ^ 63
  txBytes : (rows.map Traffic.txBytes).sum < 2 ^ 63
  txPackets : (rows.map Traffic.txPackets).sum < 2 ^ 63

theorem windowStart_eq_ok_iff : windowStart now hours = .ok start ↔
    start.nanos = now.nanos - windowSecs hours * nanosPerSec := by
  rw [windowStart]
  have h : now.sub (hours.toNat * 3600 * nanosPerSec) = some start ↔
      start.nanos = now.nanos - hours.toNat * 3600 * nanosPerSec := DateTime.sub_eq_some_iff
  rw [windowSecs, ← h, pruneCutoff]
  split
  · rename_i hsub
    rw [hsub, Except.ok.injEq, Option.some_inj]
  · rename_i hsub
    rw [hsub]
    simp

/-! ### Deletions -/

theorem deleteBefore_text {rows : List (Row DateTime α)} (hrows : ∀ r ∈ rows, FourDigits r.ts)
    (hstart : start.date.year ≤ 9999) :
    deleteBefore .text (toRfc3339 start) (rows.map Row.stored) = pruned start rows := by
  have hrest := since_stored hrows hstart
  rw [since_time] at hrest
  rw [deleteBefore, pruned, countP_stored hrows hstart]
  exact congrArg _ hrest

theorem pruneAt_text {rows : List (Row DateTime α)} (hrows : ∀ r ∈ rows, FourDigits r.ts)
    (hfrom : windowStart now hours = .ok start) (hstart : start.date.year ≤ 9999)
    (hhours : hours ≠ 0) :
    pruneAt .text hours now (rows.map Row.stored) = .ok (pruned start rows) := by
  rw [pruneAt, if_neg hhours, cutoff, hfrom]
  exact congrArg Except.ok (deleteBefore_text hrows hstart)

theorem pruneClients_text {samples : List (Row DateTime α)} {sessions : List (Session DateTime)}
    (hsamples : ∀ r ∈ samples, FourDigits r.ts) (hends : EndsDatable sessions)
    (hfrom : windowStart now hours = .ok start) (hstart : start.date.year ≤ 9999)
    (hhours : hours ≠ 0) :
    pruneClients .text hours now (samples.map Row.stored) (sessions.map Session.stored) =
      .ok ((pruned start samples).1 + (prunedSessions start sessions).1,
        (pruned start samples).2, (prunedSessions start sessions).2) := by
  have hdelete := deleteBefore_text hsamples hstart
  have hcount := countP_sessions hends hstart
  have htouching := touching_stored hends hstart
  rw [touching_time] at htouching
  rw [pruneClients, if_neg hhours, cutoff, hfrom]
  simp only [Except.map, Column.text] at hdelete hcount htouching ⊢
  rw [hdelete, hcount, htouching]
  rfl

/-! ### Sums -/

theorem foldlM_sqlSum {ns : List ℤ} {sum : ℤ} (hns : ∀ n ∈ ns, 0 ≤ n) (hsum : 0 ≤ sum)
    (hfits : sum + ns.sum < 2 ^ 63) :
    ns.foldlM (fun sum n => if -2 ^ 63 ≤ sum + n ∧ sum + n < 2 ^ 63 then Except.ok (sum + n)
      else Except.error StatsError.integerOverflow) sum = .ok (sum + ns.sum) := by
  induction ns generalizing sum with
  | nil => rw [List.sum_nil, Int.add_zero]; rfl
  | cons n ns ih =>
    obtain ⟨hn, hrest⟩ := List.forall_mem_cons.mp hns
    rw [List.sum_cons] at hfits ⊢
    have hnonneg : 0 ≤ ns.sum := List.sum_nonneg hrest
    have hin : -2 ^ 63 ≤ sum + n ∧ sum + n < 2 ^ 63 := ⟨by omega, by omega⟩
    rw [List.foldlM_cons, if_pos hin]
    have hih := ih hrest (by omega : 0 ≤ sum + n) (by omega)
    rwa [Int.add_assoc] at hih

theorem sqlSum_ok {ns : List ℤ} (hns : ∀ n ∈ ns, 0 ≤ n) (hfits : ns.sum < 2 ^ 63) :
    sqlSum ns = .ok ns.sum := by
  have h := foldlM_sqlSum hns (Int.le_refl 0) (by rwa [Int.zero_add])
  rwa [Int.zero_add] at h

theorem foldlM_sqlSum_eq {ns : List ℤ} {sum k : ℤ}
    (h : ns.foldlM (fun sum n => if -2 ^ 63 ≤ sum + n ∧ sum + n < 2 ^ 63 then Except.ok (sum + n)
      else Except.error StatsError.integerOverflow) sum = .ok k) : k = sum + ns.sum := by
  induction ns generalizing sum with
  | nil =>
    cases h
    rw [List.sum_nil, Int.add_zero]
  | cons n ns ih =>
    rw [List.foldlM_cons] at h
    split_ifs at h
    · rw [ih h, List.sum_cons, Int.add_assoc]
    · cases h

theorem sqlSum_eq {ns : List ℤ} {k : ℤ} (h : sqlSum ns = .ok k) : k = ns.sum := by
  have hsum := foldlM_sqlSum_eq h
  rwa [Int.zero_add] at hsum

theorem mapM_ok {α β ε : Type} {f : α → Except ε β} {g : α → β} {l : List α}
    (h : ∀ x ∈ l, f x = .ok (g x)) : l.mapM f = .ok (l.map g) := by
  induction l with
  | nil => rfl
  | cons x l ih =>
    obtain ⟨hx, hl⟩ := List.forall_mem_cons.mp h
    rw [List.mapM_cons, hx, ih hl]
    rfl

theorem mapM_eq_map {α β ε : Type} {f : α → Except ε β} {g : α → β} {l : List α} {out : List β}
    (hf : ∀ x y, f x = .ok y → y = g x) (h : l.mapM f = .ok out) : out = l.map g := by
  induction l generalizing out with
  | nil =>
    cases h
    rfl
  | cons x l ih =>
    rw [List.mapM_cons] at h
    cases hx : f x with
    | error e =>
      rw [hx] at h
      cases h
    | ok y =>
      cases hl : l.mapM f with
      | error e =>
        rw [hx, hl] at h
        cases h
      | ok ys =>
        rw [hx, hl] at h
        cases h
        rw [List.map_cons, hf x y hx, ih hl]

/-- One group of `totals`. -/
def totalOf (rows : List Traffic) (key : String × String) : Except StatsError Traffic := do
  let group := rows.filter fun r => r.provider = key.1 ∧ r.interface = key.2
  return {
    provider := key.1, interface := key.2
    rxBytes := ← sqlSum (group.map Traffic.rxBytes)
    rxPackets := ← sqlSum (group.map Traffic.rxPackets)
    txBytes := ← sqlSum (group.map Traffic.txBytes)
    txPackets := ← sqlSum (group.map Traffic.txPackets) }

theorem totals_eq (rows : List Traffic) : totals rows =
    ((rows.map Traffic.key).dedup.mergeSort totalsLe).mapM (totalOf rows) := rfl

theorem rowsAt_eq (rows : List Traffic) (key : String × String) :
    (rows.filter fun r => r.provider = key.1 ∧ r.interface = key.2) = rowsAt key rows := by
  refine List.filter_congr fun r _ => decide_eq_decide.mpr ?_
  rw [Traffic.key, Prod.ext_iff]

theorem totalOf_eq {rows : List Traffic} {key : String × String} {e : Traffic}
    (h : totalOf rows key = .ok e) : e = sumAt rows key := by
  simp only [totalOf, rowsAt_eq, bind, Except.bind, pure, Except.pure] at h
  repeat' split at h
  all_goals try contradiction
  rename_i rxBytes hrx _ rxPackets hrxp _ txBytes htx _ txPackets htxp
  cases h
  rw [sumAt, sqlSum_eq hrx, sqlSum_eq hrxp, sqlSum_eq htx, sqlSum_eq htxp]

theorem SmallCounts.sublist {rows own : List Traffic} (h : SmallCounts rows)
    (hown : own.Sublist rows) : SmallCounts own where
  nonneg r hr := h.nonneg r (hown.subset hr)
  rxBytes := ((hown.map _).sum_le_sum
    (List.forall_mem_map.mpr fun r hr => (h.nonneg r hr).1)).trans_lt h.rxBytes
  rxPackets := ((hown.map _).sum_le_sum
    (List.forall_mem_map.mpr fun r hr => (h.nonneg r hr).2.1)).trans_lt h.rxPackets
  txBytes := ((hown.map _).sum_le_sum
    (List.forall_mem_map.mpr fun r hr => (h.nonneg r hr).2.2.1)).trans_lt h.txBytes
  txPackets := ((hown.map _).sum_le_sum
    (List.forall_mem_map.mpr fun r hr => (h.nonneg r hr).2.2.2)).trans_lt h.txPackets

theorem totalOf_ok {rows : List Traffic} (h : SmallCounts rows) (key : String × String) :
    totalOf rows key = .ok (sumAt rows key) := by
  have hown : SmallCounts (rowsAt key rows) := h.sublist List.filter_sublist
  rw [totalOf, rowsAt_eq,
    sqlSum_ok (List.forall_mem_map.mpr fun r hr => (hown.nonneg r hr).1) hown.rxBytes,
    sqlSum_ok (List.forall_mem_map.mpr fun r hr => (hown.nonneg r hr).2.1) hown.rxPackets,
    sqlSum_ok (List.forall_mem_map.mpr fun r hr => (hown.nonneg r hr).2.2.1) hown.txBytes,
    sqlSum_ok (List.forall_mem_map.mpr fun r hr => (hown.nonneg r hr).2.2.2) hown.txPackets]
  rfl

theorem totalsOf_totals {rows out : List Traffic} (h : totals rows = .ok out) :
    TotalsOf rows out := by
  rw [totals_eq] at h
  obtain rfl := mapM_eq_map (fun _ _ => totalOf_eq) h
  have hkeys (keys : List (String × String)) :
      (keys.map (sumAt rows)).map Traffic.key = keys := by
    rw [List.map_map]
    exact List.map_id _
  have hperm := List.mergeSort_perm (rows.map Traffic.key).dedup totalsLe
  refine ⟨?_, fun key => ?_, fun e he => ?_⟩
  · rw [hkeys, hperm.nodup_iff]
    exact List.nodup_dedup _
  · rw [hkeys, hperm.mem_iff, List.mem_dedup]
  · obtain ⟨key, -, rfl⟩ := List.mem_map.mp he
    rfl

theorem trafficTotalsAt_text {rows : List (Row DateTime Traffic)}
    (hrows : ∀ r ∈ rows, FourDigits r.ts) (hfrom : windowStart now hours = .ok start)
    (hstart : start.date.year ≤ 9999) :
    trafficTotalsAt .text hours now (rows.map Row.stored) =
      totals ((rows.filter fun r => start ≤ r.ts).map Row.data) := by
  have hsince := since_stored hrows hstart
  rw [since_time] at hsince
  rw [trafficTotalsAt, cutoff, hfrom]
  change totals ((since .text (toRfc3339 start) (rows.map Row.stored)).map Row.data) = _
  rw [hsince, List.map_map]
  rfl

/-- **Text timestamps order like time**: in the years 0 to 9999 the texts are in the order of the
times, and the queries over texts find, delete and sum what is on the right side of the start of
their window. -/
theorem windows_by_time :
    (∀ t u, FourDigits t → FourDigits u →
      compareText (toRfc3339 t) (toRfc3339 u) = compare t.nanos u.nanos) ∧
    (∀ (start : DateTime), start.date.year ≤ 9999 →
      (∀ (α : Type) (rows : List (Row DateTime α)), (∀ r ∈ rows, FourDigits r.ts) →
        since .text (toRfc3339 start) (rows.map Row.stored) =
          (rows.filter fun r => start ≤ r.ts).map Row.stored) ∧
      (∀ sessions, EndsDatable sessions →
        touching .text (toRfc3339 start) (sessions.map Session.stored) =
          (sessions.filter fun s => s.endedAt.all (start ≤ ·)).map Session.stored) ∧
      (∀ parse changes limit, (∀ c ∈ changes, FourDigits c.time) →
        (∀ c ∈ changes, parse (toRfc3339 c.time) = some c.time) →
          failoverTimesSince toRfc3339 parse (rowsOf toRfc3339 changes) start limit =
            (((switchTimes changes).filter fun at_ => start ≤ at_).rtake limit.toNat).reverse)) ∧
    (∀ (now start : DateTime) (hours : UInt32),
      start.nanos = now.nanos - windowSecs hours * nanosPerSec → start.date.year ≤ 9999 →
      (∀ (α : Type) (rows : List (Row DateTime α)), (∀ r ∈ rows, FourDigits r.ts) → hours ≠ 0 →
        pruneHealth .text hours now (rows.map Row.stored) = .ok (pruned start rows) ∧
        pruneSystemAt .text hours now (rows.map Row.stored) = .ok (pruned start rows)) ∧
      (∀ rows, (∀ r ∈ rows, FourDigits r.ts) →
        (hours ≠ 0 →
          pruneTrafficAt .text hours now (rows.map Row.stored) = .ok (pruned start rows)) ∧
        (∀ out, trafficTotalsAt .text hours now (rows.map Row.stored) = .ok out →
          TotalsOf ((rows.filter fun r => start ≤ r.ts).map Row.data) out) ∧
        (SmallCounts ((rows.filter fun r => start ≤ r.ts).map Row.data) →
          ∃ out, trafficTotalsAt .text hours now (rows.map Row.stored) = .ok out)) ∧
      (∀ (α : Type) (samples : List (Row DateTime α)) (sessions : List (Session DateTime)),
        (∀ r ∈ samples, FourDigits r.ts) → EndsDatable sessions → hours ≠ 0 →
          pruneClients .text hours now (samples.map Row.stored) (sessions.map Session.stored) =
            .ok ((pruned start samples).1 + (prunedSessions start sessions).1,
              (pruned start samples).2, (prunedSessions start sessions).2))) := by
  refine ⟨fun t u => compareText_toRfc3339, fun start hstart => ⟨?_, ?_, ?_⟩,
    fun now start hours hfrom hstart => ?_⟩
  · intro α rows hrows
    rw [since_stored hrows hstart, since_time]
  · intro sessions hends
    rw [touching_stored hends hstart, touching_time]
  · intro parse changes limit hyears hread
    exact failoverTimesSince_stored hyears hread hstart limit
  · rw [← windowStart_eq_ok_iff] at hfrom
    refine ⟨fun α rows hrows hhours => ?_, fun rows hrows => ⟨fun hhours => ?_, ?_⟩, ?_⟩
    · have hprune := pruneAt_text hrows hfrom hstart hhours
      exact ⟨hprune, hprune⟩
    · exact pruneAt_text hrows hfrom hstart hhours
    · rw [trafficTotalsAt_text hrows hfrom hstart]
      exact ⟨fun out h => totalsOf_totals h,
        fun hsmall => ⟨_, mapM_ok fun key _ => totalOf_ok hsmall key⟩⟩
    · intro α samples sessions hsamples hends hhours
      exact pruneClients_text hsamples hends hfrom hstart hhours

/-! A window of one hour until noon, on the first day of 2026. -/

def noon : DateTime := ⟨1767268800 * nanosPerSec, by decide⟩

def eleven : DateTime := ⟨1767265200 * nanosPerSec, by decide⟩

/-- The last instant before the window. -/
def tooEarly : DateTime := ⟨1767265200 * nanosPerSec - 1, by decide⟩

/-- What the provider `wan` has received by `eth0`. -/
def wanRow (ts : DateTime) (bytes : ℤ) : Row DateTime Traffic :=
  ⟨ts, ⟨"wan", "eth0", bytes, 1, 0, 0⟩⟩

/-- The row of an instant before eleven goes; that of eleven stays, and is in the sums. -/
theorem windows_by_time_noon :
    pruneTrafficAt .text 1 noon
        ([wanRow tooEarly 5, wanRow eleven 3, wanRow noon 4].map Row.stored) =
      .ok (1, [wanRow eleven 3, wanRow noon 4].map Row.stored) ∧
    ∃ out, trafficTotalsAt .text 1 noon
        ([wanRow tooEarly 5, wanRow eleven 3, wanRow noon 4].map Row.stored) = .ok out ∧
      TotalsOf [(wanRow eleven 3).data, (wanRow noon 4).data] out := by
  have hrows : ∀ r ∈ [wanRow tooEarly 5, wanRow eleven 3, wanRow noon 4], FourDigits r.ts := by
    simp only [List.forall_mem_cons]
    decide +kernel
  have hin : [wanRow tooEarly 5, wanRow eleven 3, wanRow noon 4].filter (fun r => eleven ≤ r.ts) =
      [wanRow eleven 3, wanRow noon 4] := rfl
  obtain ⟨-, hquery, -⟩ := windows_by_time.2.2 noon eleven 1 (by decide) (by decide +kernel)
  obtain ⟨hprune, htotals, hsmall⟩ := hquery _ hrows
  rw [hin] at htotals hsmall
  refine ⟨hprune (by decide), ?_⟩
  obtain ⟨out, hout⟩ := hsmall ⟨by simp [wanRow], by decide, by decide, by decide, by decide⟩
  exact ⟨out, hout, htotals out hout⟩

/-! ## The assumptions on chrono -/

/-- Years of four digits are those from the first instant of the year 0 to that of the year
10000. -/
theorem fourDigits_iff : FourDigits t ↔ InYears t := by
  have hzero : (DateTime.date ⟨yearZero, by decide⟩).year = 0 := by decide +kernel
  have hbefore : (DateTime.date ⟨yearZero - 1, by decide⟩).year = -1 := by decide +kernel
  have hlast : (DateTime.date ⟨yearTenThousand - 1, by decide⟩).year = 9999 := by decide +kernel
  have hafter : (DateTime.date ⟨yearTenThousand, by decide⟩).year = 10000 := by decide +kernel
  constructor
  · intro h
    refine ⟨Int.not_lt.mp fun hlt => ?_, Int.not_le.mp fun hle => ?_⟩
    · have hyear := DateTime.year_mono (u := ⟨yearZero - 1, by decide⟩) (Int.le_sub_one_of_lt hlt)
      have := h.1
      omega
    · have hyear := DateTime.year_mono (t := ⟨yearTenThousand, by decide⟩) hle
      have := h.2
      omega
  · intro h
    have hlow := DateTime.year_mono (t := ⟨yearZero, by decide⟩) h.1
    have hhigh := DateTime.year_mono (u := ⟨yearTenThousand - 1, by decide⟩)
      (Int.le_sub_one_of_lt h.2)
    exact ⟨by omega, by omega⟩

/-- **What was assumed of the text form of a time holds of this one**, where it is read as it was
written. -/
theorem rfc3339_toRfc3339 {parse : String → Option DateTime}
    (hread : ∀ t, InYears t → parse (toRfc3339 t) = some t) : Rfc3339 toRfc3339 parse where
  parse_toRfc3339 := hread
  monotone t u ht hu h :=
    (toRfc3339_le_iff (fourDigits_iff.mpr hu) (fourDigits_iff.mpr ht).2).mpr h
  early t u ht hu := by
    have hle : t.nanos ≤ u.nanos := (Int.le_of_lt ht).trans hu.1
    have hyear := (DateTime.year_mono hle).trans (fourDigits_iff.mpr hu).2
    exact (toRfc3339_le_iff (fourDigits_iff.mpr hu) hyear).mpr hle

end Vlb.Stats
