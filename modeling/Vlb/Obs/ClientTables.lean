import Mathlib.Algebra.BigOperators.Group.List.Basic
import Mathlib.Algebra.Ring.Int.Defs
import Vlb.Net.Clients

/-!
# The tables of the clients

Three tables: the roster of everyone who was ever seen, one row for each connection of a client, and
what each client has moved in each interval. A connection's row also has the totals of the
connection. Row ids are never used twice.

* `Sessions`: the connections, whose ids are distinct, and not above the last one that was given.
* `openIds`: the connections of a client that have not ended; `openIds_insert`, `openIds_close` and
  the like say what each statement makes of them.
* `Sessions.total`, `sampleTotal`: the bytes of a client in either table.
-/

namespace Vlb.Stats

open Clients Entries Time

/-! ## Rows -/

/-- A row of `clients`. -/
structure ClientRow where
  mac : Option String
  hostname : Option String
  label : Option String
  firstSeen : DateTime
  lastSeen : DateTime
  deriving DecidableEq

/-- A row of `client_sessions`. -/
structure ClientSessionRow where
  id : ℕ
  ip : Ipv4Addr
  startedAt : DateTime
  /-- Missing while the session is open. -/
  endedAt : Option DateTime
  rxBytes : ℤ
  txBytes : ℤ
  deriving DecidableEq

/-- What a client moved in an interval. The counters are stored bit for bit, as `i64`. -/
structure ClientSampleRow where
  ts : DateTime
  ip : Ipv4Addr
  /-- The length of the interval, in milliseconds. -/
  spanMillis : ℤ
  counters : ClientCounters
  deriving DecidableEq

/-- `as i64`. -/
def asI64 (n : UInt64) : ℤ := n.toBitVec.toInt

def ClientSessionRow.isOpenFor (r : ClientSessionRow) (ip : Ipv4Addr) : Bool :=
  r.ip = ip ∧ r.endedAt = none

def ClientSessionRow.bytes (r : ClientSessionRow) : Direction → ℤ
  | .download => r.rxBytes
  | .upload => r.txBytes

/-- The table `client_sessions`, with its `AUTOINCREMENT`. -/
structure Sessions where
  rows : List ClientSessionRow
  lastId : ℕ
  unique : (rows.map ClientSessionRow.id).Nodup
  issued : ∀ r ∈ rows, r.id ≤ lastId

/-- The three tables of the clients. -/
structure ClientTables where
  clients : HashMap Ipv4Addr ClientRow
  sessions : Sessions
  samples : List ClientSampleRow

/-! ## Statements -/

namespace Sessions

def empty : Sessions := ⟨[], 0, List.nodup_nil, by simp⟩

theorem nodup_concat {ids : List ℕ} {lastId : ℕ} (hunique : ids.Nodup)
    (hissued : ∀ id ∈ ids, id ≤ lastId) : (ids ++ [lastId + 1]).Nodup := by
  rw [List.nodup_append']
  refine ⟨hunique, List.nodup_singleton _, fun id hid hnew => ?_⟩
  have := hissued id hid
  rw [List.mem_singleton] at hnew
  omega

/-- `INSERT INTO client_sessions(ip, started_at)`, and the id of the row. -/
def insert (s : Sessions) (ip : Ipv4Addr) (startedAt : DateTime) : ℕ × Sessions :=
  (s.lastId + 1,
    { rows := s.rows ++ [⟨s.lastId + 1, ip, startedAt, none, 0, 0⟩]
      lastId := s.lastId + 1
      unique := by
        rw [List.map_append]
        exact nodup_concat s.unique fun id hid => by
          obtain ⟨r, hr, rfl⟩ := List.mem_map.mp hid
          exact s.issued r hr
      issued := fun r hr => by
        rcases List.mem_append.mp hr with hr | hr
        · exact (s.issued r hr).trans (Nat.le_succ _)
        · rw [List.mem_singleton.mp hr] })

theorem map_id_map {rows : List ClientSessionRow} {f : ClientSessionRow → ClientSessionRow}
    (hf : ∀ r, (f r).id = r.id) :
    (rows.map f).map ClientSessionRow.id = rows.map ClientSessionRow.id := by
  rw [List.map_map]
  exact List.map_congr_left fun r _ => hf r

/-- `UPDATE client_sessions`, of anything but the ids. -/
def update (s : Sessions) (f : ClientSessionRow → ClientSessionRow) (hf : ∀ r, (f r).id = r.id) :
    Sessions where
  rows := s.rows.map f
  lastId := s.lastId
  unique := by
    rw [map_id_map hf]
    exact s.unique
  issued r hr := by
    obtain ⟨r', hr', rfl⟩ := List.mem_map.mp hr
    rw [hf]
    exact s.issued r' hr'

/-- `DELETE FROM client_sessions`, of all rows but these. -/
def keep (s : Sessions) (p : ClientSessionRow → Bool) : Sessions where
  rows := s.rows.filter p
  lastId := s.lastId
  unique := s.unique.sublist (List.Sublist.map _ List.filter_sublist)
  issued r hr := s.issued r (List.mem_of_mem_filter hr)

end Sessions

/-- What closing does to a row. -/
def endRow (id : ℕ) (ended : DateTime) (r : ClientSessionRow) : ClientSessionRow :=
  if r.id = id ∧ r.endedAt = none then { r with endedAt := some ended } else r

/-- What adding to the totals does to a row. -/
def addToRow (id : ℕ) (rx tx : UInt64) (r : ClientSessionRow) : ClientSessionRow :=
  if r.id = id then { r with rxBytes := r.rxBytes + asI64 rx, txBytes := r.txBytes + asI64 tx } else r

theorem endRow_id (id : ℕ) (ended : DateTime) (r : ClientSessionRow) : (endRow id ended r).id = r.id := by
  unfold endRow
  split_ifs <;> rfl

theorem addToRow_id (id : ℕ) (rx tx : UInt64) (r : ClientSessionRow) :
    (addToRow id rx tx r).id = r.id := by
  unfold addToRow
  split_ifs <;> rfl

/-- The moment before which everything is pruned. The subtraction panics outside the calendar. -/
def pruneCutoff (retentionHours : UInt32) (now : DateTime) : Option DateTime :=
  now.sub (retentionHours.toNat * 3600 * nanosPerSec)

namespace ClientTables

def empty : ClientTables := ⟨∅, .empty, []⟩

/-- What is found out about a client does not overwrite itself with nothing; the label does. -/
def upsertClient (t : ClientTables) (ip : Ipv4Addr) (mac hostname label : Option String)
    (seenAt : DateTime) : ClientTables :=
  let row : ClientRow :=
    match t.clients.lookup ip with
    | none => { mac, hostname, label, firstSeen := seenAt, lastSeen := seenAt }
    | some r => { r with mac := mac.or r.mac, hostname := hostname.or r.hostname, label, lastSeen := seenAt }
  { t with clients := t.clients.insert ip row }

/-- A row is added. -/
def recordClientSample (t : ClientTables) (row : ClientSampleRow) : ClientTables :=
  { t with samples := t.samples ++ [row] }

/-- A row is added, and its id returned. -/
def openClientSession (t : ClientTables) (ip : Ipv4Addr) (startedAt : DateTime) : ℕ × ClientTables :=
  ((t.sessions.insert ip startedAt).1, { t with sessions := (t.sessions.insert ip startedAt).2 })

/-- The row gets its end. -/
def closeClientSession (t : ClientTables) (id : ℕ) (ended : DateTime) : ClientTables :=
  { t with sessions := t.sessions.update (endRow id ended) (endRow_id id ended) }

/-- Nothing is written for no bytes. -/
def addSessionBytes (t : ClientTables) (id : ℕ) (rx tx : UInt64) : ClientTables :=
  if rx = 0 ∧ tx = 0 then t
  else { t with sessions := t.sessions.update (addToRow id rx tx) (addToRow_id id rx tx) }

/-- The sessions without an end. -/
def openClientSessions (t : ClientTables) : List ClientSessionRow :=
  t.sessions.rows.filter fun r => r.endedAt = none

/-- What is older is deleted. -/
def pruneSamples (t : ClientTables) (cutoff : DateTime) : ClientTables :=
  { t with samples := t.samples.filter fun r => decide (cutoff ≤ r.ts) }

/-- What is open is kept. -/
def pruneSessions (t : ClientTables) (cutoff : DateTime) : ClientTables :=
  { t with sessions := t.sessions.keep fun r => r.endedAt.all fun ended => decide (cutoff ≤ ended) }

end ClientTables

/-! ## Sessions that are open -/

namespace Sessions

variable {s : Sessions} {ip ip' : Ipv4Addr} {id : ℕ} {startedAt ended : DateTime} {rx tx : UInt64}

/-- The sessions of a client that have not ended. -/
def openIds (s : Sessions) (ip : Ipv4Addr) : List ℕ :=
  (s.rows.filter fun r => r.isOpenFor ip).map ClientSessionRow.id

theorem mem_openIds : id ∈ s.openIds ip ↔ ∃ r ∈ s.rows, r.id = id ∧ r.ip = ip ∧ r.endedAt = none := by
  simp only [openIds, List.mem_map, List.mem_filter, ClientSessionRow.isOpenFor, decide_eq_true_eq]
  constructor
  · rintro ⟨r, ⟨hr, hopen⟩, hid⟩
    exact ⟨r, hr, hid, hopen⟩
  · rintro ⟨r, hr, hid, hopen⟩
    exact ⟨r, ⟨hr, hopen⟩, hid⟩

theorem row_unique {r r' : ClientSessionRow} (hr : r ∈ s.rows) (hr' : r' ∈ s.rows)
    (hid : r.id = r'.id) : r = r' :=
  List.inj_on_of_nodup_map s.unique hr hr' hid

theorem ip_of_mem_openIds (h : id ∈ s.openIds ip) (h' : id ∈ s.openIds ip') : ip = ip' := by
  obtain ⟨r, hr, hid, hip, -⟩ := mem_openIds.mp h
  obtain ⟨r', hr', hid', hip', -⟩ := mem_openIds.mp h'
  rw [← hip, ← hip', row_unique hr hr' (hid.trans hid'.symm)]

theorem eq_of_mem_openIds {id' : ℕ} (hone : (s.openIds ip).length ≤ 1)
    (h : id ∈ s.openIds ip) (h' : id' ∈ s.openIds ip) : id = id' := by
  match hlist : s.openIds ip, hone with
  | [x], _ =>
    rw [hlist] at h h'
    rw [List.mem_singleton.mp h, List.mem_singleton.mp h']
  | [], _ =>
    rw [hlist] at h
    cases h

theorem openIds_insert : (s.insert ip startedAt).2.openIds ip' =
    s.openIds ip' ++ if ip = ip' then [s.lastId + 1] else [] := by
  simp only [openIds, insert, List.filter_append, List.map_append, List.filter_singleton]
  congr 1
  by_cases h : ip = ip' <;> simp [ClientSessionRow.isOpenFor, h]

theorem openIds_update {f : ClientSessionRow → ClientSessionRow} {hf : ∀ r, (f r).id = r.id}
    (h : ∀ r, (f r).isOpenFor ip = r.isOpenFor ip) : (s.update f hf).openIds ip = s.openIds ip := by
  simp only [openIds, update, List.filter_map, List.map_map]
  have hcomp : ClientSessionRow.id ∘ f = ClientSessionRow.id := funext hf
  have hopen : (fun r => ClientSessionRow.isOpenFor r ip) ∘ f = fun r => r.isOpenFor ip := funext h
  rw [hcomp, hopen]

theorem openIds_endRow : (s.update (endRow id ended) (endRow_id id ended)).openIds ip =
    (s.openIds ip).filter (· ≠ id) := by
  simp only [openIds, update, List.filter_map, List.map_map]
  have hcomp : ClientSessionRow.id ∘ endRow id ended = ClientSessionRow.id :=
    funext (endRow_id id ended)
  rw [hcomp, List.filter_filter]
  congr 1
  apply List.filter_congr
  intro r _
  simp only [Function.comp_apply, endRow, ClientSessionRow.isOpenFor]
  by_cases hid : r.id = id <;> by_cases hended : r.endedAt = none <;> simp [hid, hended]

theorem openIds_addToRow : (s.update (addToRow id rx tx) (addToRow_id id rx tx)).openIds ip =
    s.openIds ip := by
  apply openIds_update
  intro r
  unfold addToRow
  split_ifs <;> rfl

theorem openIds_keep {p : ClientSessionRow → Bool} (h : ∀ r, r.endedAt = none → p r = true) :
    (s.keep p).openIds ip = s.openIds ip := by
  simp only [openIds, keep, List.filter_filter]
  congr 1
  apply List.filter_congr
  intro r _
  by_cases hended : r.endedAt = none
  · rw [h r hended, Bool.and_true]
  · simp [ClientSessionRow.isOpenFor, hended]

/-! ## Rows that stay -/

/-- The row with that id, of that client. -/
def Has (s : Sessions) (id : ℕ) (ip : Ipv4Addr) : Prop := ∃ r ∈ s.rows, r.id = id ∧ r.ip = ip

theorem has_insert : (s.insert ip startedAt).2.Has (s.insert ip startedAt).1 ip :=
  ⟨_, List.mem_append_right _ List.mem_cons_self, rfl, rfl⟩

theorem Has.insert (h : s.Has id ip) : (s.insert ip' startedAt).2.Has id ip := by
  obtain ⟨r, hr, hrow⟩ := h
  exact ⟨r, List.mem_append_left _ hr, hrow⟩

theorem Has.update {f : ClientSessionRow → ClientSessionRow} (h : s.Has id ip)
    (hf : ∀ r, (f r).id = r.id) (hip : ∀ r, (f r).ip = r.ip) : (s.update f hf).Has id ip := by
  obtain ⟨r, hr, hid, hrow⟩ := h
  exact ⟨f r, List.mem_map_of_mem hr, (hf r).trans hid, (hip r).trans hrow⟩

end Sessions

theorem endRow_ip (id : ℕ) (ended : DateTime) (r : ClientSessionRow) : (endRow id ended r).ip = r.ip := by
  unfold endRow
  split_ifs <;> rfl

theorem addToRow_ip (id : ℕ) (rx tx : UInt64) (r : ClientSessionRow) : (addToRow id rx tx r).ip = r.ip := by
  unfold addToRow
  split_ifs <;> rfl

theorem ClientTables.has_addSessionBytes {t : ClientTables} {id id' : ℕ} {ip : Ipv4Addr} {rx tx : UInt64}
    (h : t.sessions.Has id ip) : (t.addSessionBytes id' rx tx).sessions.Has id ip := by
  unfold addSessionBytes
  split_ifs
  · exact h
  · exact h.update (addToRow_id id' rx tx) (addToRow_ip id' rx tx)

theorem ClientTables.samples_addSessionBytes (t : ClientTables) (id : ℕ) (rx tx : UInt64) :
    (t.addSessionBytes id rx tx).samples = t.samples := by
  unfold addSessionBytes
  split_ifs <;> rfl

/-! ## Totals -/

/-- The bytes of a client, over its sessions. -/
def Sessions.total (s : Sessions) (ip : Ipv4Addr) (d : Direction) : ℤ :=
  (s.rows.map fun r => if r.ip = ip then r.bytes d else 0).sum

/-- And over its samples. -/
def sampleTotal (samples : List ClientSampleRow) (ip : Ipv4Addr) (d : Direction) : ℤ :=
  (samples.map fun r => if r.ip = ip then asI64 (r.counters.octets d) else 0).sum

section Totals

variable {s : Sessions} {ip ip' : Ipv4Addr} {id : ℕ} {d : Direction} {startedAt ended : DateTime}
  {c : ClientCounters}

theorem Sessions.total_insert : (s.insert ip' startedAt).2.total ip d = s.total ip d := by
  simp only [Sessions.total, Sessions.insert, List.map_append, List.sum_append, List.map_singleton,
    List.sum_singleton]
  cases d <;> simp [ClientSessionRow.bytes]

theorem Sessions.total_update {f : ClientSessionRow → ClientSessionRow} {hf : ∀ r, (f r).id = r.id}
    (h : ∀ r, (f r).ip = r.ip ∧ (f r).bytes d = r.bytes d) :
    (s.update f hf).total ip d = s.total ip d := by
  simp only [Sessions.total, Sessions.update, List.map_map]
  congr 1
  apply List.map_congr_left
  intro r _
  simp only [Function.comp_apply, (h r).1, (h r).2]

theorem Sessions.total_endRow :
    (s.update (endRow id ended) (endRow_id id ended)).total ip d = s.total ip d := by
  apply Sessions.total_update
  intro r
  unfold endRow
  split_ifs <;> exact ⟨rfl, rfl⟩

theorem sum_rows_ite {rows : List ClientSessionRow} (hunique : (rows.map ClientSessionRow.id).Nodup)
    {r : ClientSessionRow} (hr : r ∈ rows) (size : ClientSessionRow → ℤ) :
    (rows.map fun r' => if r'.id = r.id then size r' else 0).sum = size r := by
  induction rows with
  | nil => cases hr
  | cons r' rows ih =>
    rw [List.map_cons, List.nodup_cons] at hunique
    rw [List.map_cons, List.sum_cons]
    rcases List.mem_cons.mp hr with rfl | hr
    · have hrest : (rows.map fun r' => if r'.id = r.id then size r' else 0).sum = 0 := by
        apply List.sum_eq_zero
        intro x hx
        obtain ⟨r', hr', rfl⟩ := List.mem_map.mp hx
        have hne : r'.id ≠ r.id := fun hid => hunique.1 (hid ▸ List.mem_map_of_mem hr')
        exact if_neg hne
      rw [if_pos rfl, hrest, add_zero]
    · have hne : r'.id ≠ r.id := fun hid => hunique.1 (hid ▸ List.mem_map_of_mem hr)
      rw [if_neg hne, zero_add, ih hunique.2 hr]

theorem Sessions.total_addToRow {r : ClientSessionRow} (hr : r ∈ s.rows) :
    (s.update (addToRow r.id c.rxBytes c.txBytes) (addToRow_id r.id c.rxBytes c.txBytes)).total ip d =
      s.total ip d + if r.ip = ip then asI64 (c.octets d) else 0 := by
  rw [← sum_rows_ite s.unique hr fun r => if r.ip = ip then asI64 (c.octets d) else 0]
  simp only [Sessions.total, Sessions.update, List.map_map]
  rw [← List.sum_map_add]
  congr 1
  apply List.map_congr_left
  intro r' _
  simp only [Function.comp_apply, addToRow]
  by_cases hid : r'.id = r.id <;> by_cases hip : r'.ip = ip <;> cases d <;>
    simp [hid, hip, ClientSessionRow.bytes, ClientCounters.octets]

theorem asI64_zero : asI64 0 = 0 := rfl

theorem ClientTables.total_addSessionBytes {t : ClientTables} {r : ClientSessionRow}
    (hr : r ∈ t.sessions.rows) :
    (t.addSessionBytes r.id c.rxBytes c.txBytes).sessions.total ip d =
      t.sessions.total ip d + if r.ip = ip then asI64 (c.octets d) else 0 := by
  unfold ClientTables.addSessionBytes
  split_ifs with hzero hip hip
  · have hoctets : c.octets d = 0 := by cases d; exacts [hzero.1, hzero.2]
    rw [hoctets, asI64_zero, add_zero]
  · rw [add_zero]
  · rw [Sessions.total_addToRow hr, if_pos hip]
  · rw [Sessions.total_addToRow hr, if_neg hip]

variable (ip d) in
theorem sampleTotal_concat (samples : List ClientSampleRow) (row : ClientSampleRow) :
    sampleTotal (samples ++ [row]) ip d =
      sampleTotal samples ip d + if row.ip = ip then asI64 (row.counters.octets d) else 0 := by
  simp only [sampleTotal, List.map_append, List.sum_append, List.map_singleton, List.sum_singleton]

end Totals

end Vlb.Stats
