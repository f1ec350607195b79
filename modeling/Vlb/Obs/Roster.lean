import Vlb.Obs.ClientTables

/-!
# The roster

`upsert_client` writes what has been found out about a client, and is called with nothing when a
bucket is written, so that `last_seen` is kept up to date. What was found out does not overwrite
itself with nothing; the label, which the operator may take back, does.

* `RosterOp`, `roster`: the two kinds of call, and the roster after several.
* `factsOf_foldl`: what a client's row says follows from the calls about this client.
* **`flush_keeps_iff`**: when a row says what the last update left there.
-/

namespace Vlb.Stats

open Clients Entries Time

/-- A call of `upsert_client`. -/
inductive RosterOp
  /-- What has been found out about a client, and the label that it has now. -/
  | update (ip : Ipv4Addr) (mac hostname label : Option String) (seenAt : DateTime)
  /-- A bucket of the client is written. -/
  | flush (ip : Ipv4Addr) (seenAt : DateTime)
  deriving DecidableEq

namespace RosterOp

def ip : RosterOp → Ipv4Addr
  | update ip .. | flush ip _ => ip

def label : RosterOp → Option String
  | update _ _ _ label _ => label
  | flush .. => none

def isUpdate : RosterOp → Bool
  | update .. => true
  | flush .. => false

/-- The call is made. -/
def apply (t : ClientTables) : RosterOp → ClientTables
  | update ip mac hostname label seenAt => t.upsertClient ip mac hostname label seenAt
  | flush ip seenAt => t.upsertClient ip none none none seenAt

end RosterOp

/-- The tables after these calls, oldest first. -/
def roster (ops : List RosterOp) : ClientTables := ops.foldl RosterOp.apply .empty

/-- What the roster says of a client. -/
structure Known where
  mac : Option String
  hostname : Option String
  label : Option String
  deriving DecidableEq

/-- What the row of a client says. -/
def knownOf (t : ClientTables) (ip : Ipv4Addr) : Known :=
  match t.clients.lookup ip with
  | some r => ⟨r.mac, r.hostname, r.label⟩
  | none => ⟨none, none, none⟩

/-- The last call about a client. -/
def lastCall (ops : List RosterOp) (ip : Ipv4Addr) : Option RosterOp :=
  (ops.filter fun op => op.ip = ip).getLast?

/-- The calls that carry facts. -/
def updates (ops : List RosterOp) : List RosterOp := ops.filter RosterOp.isUpdate

section Calls

variable {t : ClientTables} {ip ip' : Ipv4Addr} {mac hostname label : Option String} {seenAt : DateTime}
  {ops : List RosterOp} {op : RosterOp}

theorem knownOf_upsertClient : knownOf (t.upsertClient ip mac hostname label seenAt) ip' =
    if ip' = ip then
      ⟨mac.or (knownOf t ip).mac, hostname.or (knownOf t ip).hostname, label⟩
    else knownOf t ip' := by
  unfold knownOf ClientTables.upsertClient
  split_ifs with hip
  · subst hip
    simp only [AList.lookup_insert]
    cases t.clients.lookup ip' <;> simp
  · simp only [AList.lookup_insert_ne hip]

theorem roster_concat : roster (ops ++ [op]) = op.apply (roster ops) := by
  rw [roster, List.foldl_append]
  rfl

theorem lastCall_concat : lastCall (ops ++ [op]) ip = if op.ip = ip then some op else lastCall ops ip := by
  unfold lastCall
  rw [List.filter_append, List.filter_singleton]
  split_ifs with hip
  · simp [hip]
  · simp [hip]

theorem updates_concat : updates (ops ++ [op]) = if op.isUpdate then updates ops ++ [op] else updates ops := by
  unfold updates
  rw [List.filter_append, List.filter_singleton]
  cases op.isUpdate <;> simp

theorem lastCall_ip (h : lastCall ops ip = some op) : op.ip = ip := by
  have hip := List.of_mem_filter (List.mem_of_getLast? h)
  exact of_decide_eq_true hip

theorem lastCall_updates (h : ∀ op, lastCall ops ip = some op → op.isUpdate = true) :
    lastCall (updates ops) ip = lastCall ops ip := by
  induction ops using List.reverseRecOn with
  | nil => rfl
  | append_singleton ops op ih =>
    rw [lastCall_concat] at h ⊢
    rw [updates_concat]
    by_cases hip : op.ip = ip
    · rw [if_pos hip] at h ⊢
      rw [if_pos (h op rfl), lastCall_concat, if_pos hip]
    · rw [if_neg hip] at h ⊢
      split_ifs
      · rw [lastCall_concat, if_neg hip, ih h]
      · exact ih h

theorem label_roster (ops : List RosterOp) (ip : Ipv4Addr) :
    (knownOf (roster ops) ip).label = (lastCall ops ip).bind RosterOp.label := by
  induction ops using List.reverseRecOn with
  | nil => rfl
  | append_singleton ops op ih =>
    rw [roster_concat, lastCall_concat]
    cases op with
    | update ip' mac hostname label seenAt =>
      rw [RosterOp.apply, knownOf_upsertClient]
      by_cases hip : ip = ip'
      · rw [if_pos hip, RosterOp.ip, if_pos hip.symm]
        rfl
      · rw [if_neg hip, RosterOp.ip, if_neg (Ne.symm hip), ih]
    | flush ip' seenAt =>
      rw [RosterOp.apply, knownOf_upsertClient]
      by_cases hip : ip = ip'
      · rw [if_pos hip, RosterOp.ip, if_pos hip.symm]
        rfl
      · rw [if_neg hip, RosterOp.ip, if_neg (Ne.symm hip), ih]

theorem found_roster (ops : List RosterOp) (ip : Ipv4Addr) :
    (knownOf (roster ops) ip).mac = (knownOf (roster (updates ops)) ip).mac ∧
      (knownOf (roster ops) ip).hostname = (knownOf (roster (updates ops)) ip).hostname := by
  induction ops using List.reverseRecOn generalizing ip with
  | nil => exact ⟨rfl, rfl⟩
  | append_singleton ops op ih =>
    rw [roster_concat, updates_concat]
    cases op with
    | update ip' mac hostname label seenAt =>
      rw [RosterOp.isUpdate, if_pos rfl, roster_concat, RosterOp.apply, RosterOp.apply,
        knownOf_upsertClient, knownOf_upsertClient, (ih ip').1, (ih ip').2]
      split_ifs
      · exact ⟨rfl, rfl⟩
      · exact ih ip
    | flush ip' seenAt =>
      rw [RosterOp.isUpdate, if_neg Bool.false_ne_true, RosterOp.apply, knownOf_upsertClient]
      split_ifs with hip
      · rw [Option.none_or, Option.none_or, ← hip]
        exact ih ip
      · exact ih ip

theorem lookup_flush {row : ClientRow} (h : t.clients.lookup ip = some row) :
    ((RosterOp.flush ip seenAt).apply t).clients.lookup ip =
      some { row with label := none, lastSeen := seenAt } := by
  simp [RosterOp.apply, ClientTables.upsertClient, h, AList.lookup_insert]

end Calls

/-- **When the roster keeps what it was told.** Writing a bucket changes nothing but `last_seen`, if and
only if the row has no label; and after any calls a row says what the updates left there, if and only
if no bucket was written after the last of them, or this had no label. -/
theorem flush_keeps_iff (ops : List RosterOp) (ip : Ipv4Addr) :
    (∀ row seenAt, (roster ops).clients.lookup ip = some row →
        ((roster (ops ++ [.flush ip seenAt])).clients.lookup ip = some { row with lastSeen := seenAt } ↔
          row.label = none)) ∧
      (knownOf (roster ops) ip = knownOf (roster (updates ops)) ip ↔
        ∀ seenAt, lastCall ops ip = some (.flush ip seenAt) →
          (lastCall (updates ops) ip).bind RosterOp.label = none) := by
  constructor
  · intro row seenAt hrow
    rw [roster_concat, lookup_flush hrow, Option.some_inj]
    constructor
    · intro heq
      exact (congrArg ClientRow.label heq).symm
    · intro hnone
      rw [← hnone]
  · obtain ⟨hmac, hhostname⟩ := found_roster ops ip
    have hlabel : knownOf (roster ops) ip = knownOf (roster (updates ops)) ip ↔
        (lastCall ops ip).bind RosterOp.label = (lastCall (updates ops) ip).bind RosterOp.label := by
      rw [← label_roster, ← label_roster]
      constructor
      · exact congrArg Known.label
      · intro heq
        cases hall : knownOf (roster ops) ip
        cases hupdates : knownOf (roster (updates ops)) ip
        rw [hall, hupdates] at hmac hhostname heq
        cases hmac
        cases hhostname
        cases heq
        rfl
    rw [hlabel]
    cases hlast : lastCall ops ip with
    | none =>
      have hnone : lastCall (updates ops) ip = lastCall ops ip := by
        apply lastCall_updates
        intro op hop
        rw [hlast] at hop
        cases hop
      simp [hnone, hlast]
    | some op =>
      cases op with
      | update ip' mac hostname label seenAt =>
        have hsame : lastCall (updates ops) ip = lastCall ops ip := by
          apply lastCall_updates
          intro op hop
          rw [hlast] at hop
          cases hop
          rfl
        simp [hsame, hlast]
      | flush ip' seenAt =>
        simp only [Option.bind_some, RosterOp.label, Option.some.injEq, RosterOp.flush.injEq]
        constructor
        · exact fun heq _ _ => heq.symm
        · exact fun hnone => (hnone seenAt ⟨lastCall_ip hlast, rfl⟩).symm

/-- A printer that has been given a name. -/
def named : List RosterOp :=
  [.update (.ofOctets 10 0 0 70) (some "02:42:0a:00:00:46") none (some "printer") .epoch]

/-- The name is gone once a bucket of the printer is written. -/
theorem label_lost :
    ¬ ∀ (ops : List RosterOp) (ip : Ipv4Addr), knownOf (roster ops) ip = knownOf (roster (updates ops)) ip := by
  intro hall
  have hknown := hall (named ++ [.flush (.ofOctets 10 0 0 70) .epoch]) (.ofOctets 10 0 0 70)
  revert hknown
  decide +kernel

end Vlb.Stats
