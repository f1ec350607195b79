import Vlb.Net.DnsQuery

/-!
# What is read of a DNS reply

A reply is whatever bytes come back. The walk over its records goes by lengths that the reply itself
gives, and indexing outside the reply would take the probe down.

* `byteAt`: indexing, which may panic.
* `dnsReplyOk`, `dnsExtractFirstA`: the check of a reply, and the first address in it.
* **`dnsExtractFirstA_total`**: no reply makes the walk index outside it.
* **`dnsExtractFirstA_wire`**: the walk finds the first address of every well-formed reply.
-/

namespace Vlb.DnsProbe

open Dns

/-! ## Reading -/

/-- An index was outside the slice. -/
inductive Panic
  | indexOutOfBounds
  deriving DecidableEq

/-- An index that panics outside of the reply. -/
def byteAt (reply : List UInt8) (i : ℕ) : Except Panic UInt8 :=
  match reply[i]? with
  | some b => .ok b
  | none => .error .indexOutOfBounds

/-- `u16::from_be_bytes([reply[i], reply[i + 1]])`. -/
def u16At (reply : List UInt8) (i : ℕ) : Except Panic UInt16 := do
  return ofBe16 (← byteAt reply i) (← byteAt reply (i + 1))

/-- The reply bit is set, and there is no error. -/
def flagsOk (flags : UInt16) : Bool := flags &&& 0x8000 ≠ 0 && flags &&& 0x000F = 0

/-- The resolver works: the reply is ours, reports no error and has an answer. -/
def dnsReplyOk (reply : List UInt8) (txid : UInt16) : Except Panic Bool := do
  if reply.length < 12 then return false
  if (← u16At reply 0) ≠ txid then return false
  if !flagsOk (← u16At reply 2) then return false
  return 0 < (← u16At reply 6)

/-- Where the name at `p` ends, which is no pointer yet; `none` when the reply ends before it. -/
def skipLabels (reply : List UInt8) (p : ℕ) : Except Panic (Option ℕ) :=
  if _h : reply.length ≤ p then .ok none
  else do
    let l ← byteAt reply p
    if l = 0 then return some (p + 1)
    if l &&& 0xC0 = 0xC0 then return some (p + 2)
    skipLabels reply (p + 1 + l.toNat)
termination_by reply.length - p

/-- Where the name at `p` ends: a pointer, or labels that may end in one. -/
def skipName (reply : List UInt8) (p : ℕ) : Except Panic (Option ℕ) :=
  if reply.length ≤ p then .ok none
  else do
    if (← byteAt reply p) &&& 0xC0 = 0xC0 then return some (p + 2)
    skipLabels reply p

/-- Four bytes at once. -/
def ipv4At (reply : List UInt8) (p : ℕ) : Except Panic Ipv4Addr := do
  let a ← byteAt reply p
  let b ← byteAt reply (p + 1)
  let c ← byteAt reply (p + 2)
  let d ← byteAt reply (p + 3)
  return Ipv4Addr.ofOctets a.toBitVec b.toBitVec c.toBitVec d.toBitVec

/-- What comes of one record: the address, the place of the next record, or the end of the walk. -/
inductive RecordStep
  | found (ip : Ipv4Addr)
  | next (p : ℕ)
  | malformed

/-- One record, after its name. -/
def stepRecord (reply : List UInt8) (p : ℕ) : Except Panic RecordStep := do
  if reply.length < p + 10 then return .malformed
  let rtype ← u16At reply p
  let rclass ← u16At reply (p + 2)
  let rdlen ← u16At reply (p + 8)
  let p := p + 10
  if reply.length < p + rdlen.toNat then return .malformed
  if rtype = 1 ∧ rclass = 1 ∧ rdlen = 4 then return .found (← ipv4At reply p)
  return .next (p + rdlen.toNat)

/-- The walk over so many records. -/
def walkRecords (reply : List UInt8) : ℕ → ℕ → Except Panic (Option Ipv4Addr)
  | 0, _ => .ok none
  | n + 1, p => do
    match ← skipName reply p with
    | none => return none
    | some p =>
      match ← stepRecord reply p with
      | .found ip => return some ip
      | .malformed => return none
      | .next p => walkRecords reply n p

/-- The first address in the answers, behind a question of `qsize` bytes. -/
def dnsExtractFirstA (reply : List UInt8) (txid : UInt16) (qsize : ℕ) :
    Except Panic (Option Ipv4Addr) := do
  if reply.length < 12 + qsize then return none
  if (← u16At reply 0) ≠ txid then return none
  if !flagsOk (← u16At reply 2) then return none
  let ancount ← u16At reply 6
  if ancount = 0 then return none
  walkRecords reply ancount.toNat (12 + qsize)

variable {reply : List UInt8} {p : ℕ}

/-! ## Hostile replies -/

/-- The computation returns. -/
def Returns {α : Type} (x : Except Panic α) : Prop := ∃ r, x = .ok r

theorem returns_ok {α : Type} (r : α) : Returns (.ok r : Except Panic α) := ⟨r, rfl⟩

theorem Returns.bind {α β : Type} {x : Except Panic α} {f : α → Except Panic β} (hx : Returns x)
    (hf : ∀ a, Returns (f a)) : Returns (x >>= f) := by
  obtain ⟨a, rfl⟩ := hx
  exact hf a

theorem byteAt_returns (h : p < reply.length) : Returns (byteAt reply p) := by
  rw [byteAt, List.getElem?_eq_getElem h]
  exact returns_ok _

theorem u16At_returns (h : p + 1 < reply.length) : Returns (u16At reply p) :=
  (byteAt_returns (Nat.lt_of_succ_lt h)).bind fun _ =>
    (byteAt_returns h).bind fun _ => returns_ok _

theorem skipLabels_returns (reply : List UInt8) (p : ℕ) : Returns (skipLabels reply p) := by
  fun_induction skipLabels reply p with
  | case1 p hend => exact returns_ok none
  | case2 p hin ih =>
    refine (byteAt_returns (Nat.lt_of_not_le hin)).bind fun l => ?_
    split_ifs
    · exact returns_ok _
    · exact returns_ok _
    · exact ih l

theorem skipName_returns (reply : List UInt8) (p : ℕ) : Returns (skipName reply p) := by
  unfold skipName
  split_ifs with hend
  · exact returns_ok none
  · refine (byteAt_returns (Nat.lt_of_not_le hend)).bind fun l => ?_
    split_ifs
    · exact returns_ok _
    · exact skipLabels_returns reply p

theorem stepRecord_returns (reply : List UInt8) (p : ℕ) : Returns (stepRecord reply p) := by
  unfold stepRecord
  split_ifs with hfixed
  · exact returns_ok _
  refine (u16At_returns (by omega)).bind fun rtype => ?_
  refine (u16At_returns (by omega)).bind fun rclass => ?_
  refine (u16At_returns (by omega)).bind fun rdlen => ?_
  dsimp only
  split_ifs with hdata haddress
  · exact returns_ok _
  · have hfour : rdlen.toNat = 4 := congrArg UInt16.toNat haddress.2.2
    refine Returns.bind ?_ fun ip => returns_ok _
    exact (byteAt_returns (by omega)).bind fun _ => (byteAt_returns (by omega)).bind fun _ =>
      (byteAt_returns (by omega)).bind fun _ => (byteAt_returns (by omega)).bind fun _ =>
        returns_ok _
  · exact returns_ok _

theorem walkRecords_returns (reply : List UInt8) (n p : ℕ) : Returns (walkRecords reply n p) := by
  induction n generalizing p with
  | zero => exact returns_ok none
  | succ n ih =>
    refine (skipName_returns reply p).bind fun stop => ?_
    cases stop with
    | none => exact returns_ok none
    | some p =>
      refine (stepRecord_returns reply p).bind fun step => ?_
      cases step with
      | found ip => exact returns_ok _
      | malformed => exact returns_ok _
      | next p => exact ih p

/-! ## The header -/

section Header

variable {id flags ancount txid : UInt16} {qsize : ℕ}

theorem dnsReplyOk_eq (hlen : 12 ≤ reply.length) (hid : u16At reply 0 = .ok id)
    (hflags : u16At reply 2 = .ok flags) (hcount : u16At reply 6 = .ok ancount) :
    dnsReplyOk reply txid = .ok (id = txid ∧ flagsOk flags = true ∧ 0 < ancount) := by
  simp only [dnsReplyOk, hid, hflags, hcount, bind, Except.bind, pure, Except.pure,
    if_neg (Nat.not_lt.mpr hlen)]
  by_cases htxid : id = txid <;> by_cases hok : flagsOk flags = true <;> simp [htxid, hok]

theorem dnsExtractFirstA_eq (hlen : 12 + qsize ≤ reply.length) (hid : u16At reply 0 = .ok id)
    (hflags : u16At reply 2 = .ok flags) (hcount : u16At reply 6 = .ok ancount) :
    dnsExtractFirstA reply txid qsize =
      if id = txid ∧ flagsOk flags = true ∧ 0 < ancount then
        walkRecords reply ancount.toNat (12 + qsize)
      else .ok none := by
  have hpos : 0 < ancount ↔ ancount ≠ 0 := by
    rw [UInt16.lt_iff_toNat_lt, ne_eq, ← UInt16.toNat_inj]
    exact Nat.pos_iff_ne_zero
  simp only [dnsExtractFirstA, hid, hflags, hcount, bind, Except.bind, pure, Except.pure,
    if_neg (Nat.not_lt.mpr hlen), hpos]
  by_cases htxid : id = txid <;> by_cases hok : flagsOk flags = true <;>
    by_cases hzero : ancount = 0 <;> simp [htxid, hok, hzero]

end Header

/-- **Reading a reply is total.** Whatever the bytes and the size of the question, no index is
outside the reply, and an address is read only from a reply that `dnsReplyOk` accepts. -/
theorem dnsExtractFirstA_total (reply : List UInt8) (txid : UInt16) (qsize : ℕ) :
    ∃ r, dnsExtractFirstA reply txid qsize = .ok r ∧
      (r.isSome = true → dnsReplyOk reply txid = .ok true) := by
  rcases Nat.lt_or_ge reply.length (12 + qsize) with hshort | hlen
  · exact ⟨none, by rw [dnsExtractFirstA, if_pos hshort]; rfl, nofun⟩
  · obtain ⟨id, hid⟩ := u16At_returns (show 0 + 1 < reply.length by omega)
    obtain ⟨flags, hflags⟩ := u16At_returns (show 2 + 1 < reply.length by omega)
    obtain ⟨ancount, hcount⟩ := u16At_returns (show 6 + 1 < reply.length by omega)
    rw [dnsExtractFirstA_eq hlen hid hflags hcount, dnsReplyOk_eq (by omega) hid hflags hcount]
    split_ifs with hok
    · obtain ⟨r, hr⟩ := walkRecords_returns reply ancount.toNat (12 + qsize)
      exact ⟨r, hr, fun _ => by rw [decide_eq_true hok]⟩
    · exact ⟨none, rfl, nofun⟩

/-! ## Well-formed replies -/

/-- The address that a record gives. -/
def address (r : Record) : Option Ipv4Addr :=
  match r.rdata with
  | [a, b, c, d] =>
    if r.rtype = 1 ∧ r.rclass = 1 then
      some (Ipv4Addr.ofOctets a.toBitVec b.toBitVec c.toBitVec d.toBitVec)
    else none
  | _ => none

/-- A record gives an address just when its type, its class and its length say so. -/
theorem address_cases (r : Record) :
    (∃ a b c d, r.rdata = [a, b, c, d] ∧ (r.rtype = 1 ∧ r.rclass = 1) ∧
      address r = some (Ipv4Addr.ofOctets a.toBitVec b.toBitVec c.toBitVec d.toBitVec)) ∨
    ¬ (r.rtype = 1 ∧ r.rclass = 1 ∧ r.rdata.length = 4) ∧ address r = none := by
  unfold address
  split
  · rename_i a b c d hdata
    by_cases hmatch : r.rtype = 1 ∧ r.rclass = 1
    · exact Or.inl ⟨a, b, c, d, hdata, hmatch, if_pos hmatch⟩
    · exact Or.inr ⟨fun h => hmatch ⟨h.1, h.2.1⟩, if_neg hmatch⟩
  · rename_i hother
    refine Or.inr ⟨fun h => ?_, rfl⟩
    match hdata : r.rdata, h.2.2 with
    | [a, b, c, d], _ => exact hother a b c d hdata

theorem byteAt_append (pre rest : List UInt8) (i : ℕ) :
    byteAt (pre ++ rest) (pre.length + i) = byteAt rest i := by
  rw [byteAt, List.getElem?_append_right (Nat.le_add_right _ _), Nat.add_sub_cancel_left, ← byteAt]

theorem u16At_append (pre rest : List UInt8) (i : ℕ) :
    u16At (pre ++ rest) (pre.length + i) = u16At rest i := by
  rw [u16At, byteAt_append, Nat.add_assoc, byteAt_append, ← u16At]

theorem skipLabels_cons (pre : List UInt8) (l : UInt8) (rest : List UInt8) :
    skipLabels (pre ++ l :: rest) pre.length =
      if l = 0 then .ok (some (pre.length + 1))
      else if l &&& 0xC0 = 0xC0 then .ok (some (pre.length + 2))
      else skipLabels (pre ++ l :: rest) (pre.length + 1 + l.toNat) := by
  have hin : ¬ (pre ++ l :: rest).length ≤ pre.length := by
    rw [List.length_append, List.length_cons]
    omega
  have hbyte : byteAt (pre ++ l :: rest) pre.length = .ok l := byteAt_append pre (l :: rest) 0
  rw [skipLabels, dif_neg hin, hbyte]
  rfl

theorem skipLabels_end (pre rest : List UInt8) (stop : NameEnd) :
    skipLabels (pre ++ (stop.wire ++ rest)) pre.length = .ok (some (pre ++ stop.wire).length) := by
  cases stop with
  | root =>
    show skipLabels (pre ++ 0 :: rest) pre.length = _
    rw [skipLabels_cons, if_pos rfl, List.length_append]
    rfl
  | pointer offset =>
    obtain ⟨hne, hbits⟩ := pointer_byte offset
    show skipLabels (pre ++ _ :: _ :: rest) pre.length = _
    rw [skipLabels_cons, if_neg hne, if_pos hbits, List.length_append]
    rfl

theorem skipLabels_owner (pre rest : List UInt8) (o : Owner) :
    skipLabels (pre ++ (o.wire ++ rest)) pre.length = .ok (some (pre ++ o.wire).length) := by
  obtain ⟨labels, stop⟩ := o
  unfold Owner.wire
  induction labels generalizing pre with
  | nil => exact skipLabels_end pre rest stop
  | cons l labels ih =>
    obtain ⟨hne, hbits, hlen⟩ := l.length_not_pointer
    have hstep := ih (pre ++ wireLabel l.bytes)
    simp only [List.flatMap_cons, wireLabel, List.cons_append, List.append_assoc] at hstep ⊢
    rw [skipLabels_cons, if_neg hne, if_neg hbits, hlen]
    rw [List.length_append, List.length_cons, ← Nat.add_assoc] at hstep
    convert hstep using 2
    omega

/-- A pointer alone is recognised by its first byte, which no other name starts with. -/
theorem skipName_owner (pre rest : List UInt8) (o : Owner) :
    skipName (pre ++ (o.wire ++ rest)) pre.length = .ok (some (pre ++ o.wire).length) := by
  have hlabels := skipLabels_owner pre rest o
  obtain ⟨b, tail, htail, hpointer⟩ : ∃ b tail, o.wire = b :: tail ∧
      (b &&& 0xC0 = 0xC0 → tail.length = 1) := by
    obtain ⟨labels, stop⟩ := o
    unfold Owner.wire
    rcases labels with _ | ⟨l, labels⟩
    · cases stop with
      | root => exact ⟨0, [], rfl, fun h => absurd h (by decide)⟩
      | pointer offset => exact ⟨_, _, rfl, fun _ => rfl⟩
    · exact ⟨_, _, rfl, fun h => absurd h l.length_not_pointer.2.1⟩
  rw [htail] at hlabels ⊢
  have hin : ¬ (pre ++ (b :: tail ++ rest)).length ≤ pre.length := by
    rw [List.length_append, List.length_append, List.length_cons]
    omega
  have hbyte : byteAt (pre ++ (b :: tail ++ rest)) pre.length = .ok b :=
    byteAt_append pre (b :: tail ++ rest) 0
  rw [skipName, if_neg hin, hbyte]
  show (if b &&& 0xC0 = 0xC0 then _ else _) = _
  split_ifs with hbits
  · rw [List.length_append, List.length_cons, hpointer hbits]
    rfl
  · exact hlabels

theorem u16At_fixed (r : Record) (rest : List UInt8) :
    u16At (r.fixed ++ rest) 0 = .ok r.rtype ∧ u16At (r.fixed ++ rest) 2 = .ok r.rclass ∧
      u16At (r.fixed ++ rest) 8 = .ok (UInt16.ofNat r.rdata.length) := by
  refine ⟨?_, ?_, ?_⟩ <;> exact congrArg Except.ok (ofBe16_be16 _)

theorem ipv4At_append (pre rest : List UInt8) (a b c d : UInt8) :
    ipv4At (pre ++ a :: b :: c :: d :: rest) pre.length =
      .ok (Ipv4Addr.ofOctets a.toBitVec b.toBitVec c.toBitVec d.toBitVec) := by
  have hat (i : ℕ) := byteAt_append pre (a :: b :: c :: d :: rest) i
  rw [ipv4At, ← Nat.add_zero pre.length, hat 0]
  simp only [Nat.add_assoc, hat]
  rfl

theorem stepRecord_wire (pre rest : List UInt8) (r : Record) :
    stepRecord (pre ++ (r.fixed ++ (r.rdata ++ rest))) pre.length =
      .ok (match address r with
        | some ip => .found ip
        | none => .next (pre.length + 10 + r.rdata.length)) := by
  have hat (i : ℕ) := u16At_append pre (r.fixed ++ (r.rdata ++ rest)) i
  obtain ⟨htype, hclass, hlength⟩ := u16At_fixed r (r.rdata ++ rest)
  have hrdlen : (UInt16.ofNat r.rdata.length).toNat = r.rdata.length := by
    rw [UInt16.toNat_ofNat', Nat.mod_eq_of_lt r.fits]
  have hsize : (pre ++ (r.fixed ++ (r.rdata ++ rest))).length =
      pre.length + 10 + r.rdata.length + rest.length := by
    simp only [List.length_append, Record.length_fixed]
    omega
  have hfour : UInt16.ofNat r.rdata.length = 4 ↔ r.rdata.length = 4 := by
    rw [← UInt16.toNat_inj, hrdlen]
    rfl
  have hzero := (hat 0).trans htype
  rw [Nat.add_zero] at hzero
  simp only [stepRecord, hsize, hzero, hat, hclass, hlength, hrdlen, hfour, bind, Except.bind, pure,
    Except.pure]
  rw [if_neg (by omega), if_neg (by omega)]
  rcases address_cases r with ⟨a, b, c, d, hdata, hmatch, haddress⟩ | ⟨hno, haddress⟩
  · have hip := ipv4At_append (pre ++ r.fixed) rest a b c d
    rw [List.length_append, Record.length_fixed, List.append_assoc] at hip
    rw [haddress, hdata, if_pos ⟨hmatch.1, hmatch.2, rfl⟩]
    simp only [List.cons_append, List.nil_append, hip]
  · rw [haddress, if_neg hno]

theorem walkRecords_section (pre rest : List UInt8) (records : List Record) :
    walkRecords (pre ++ (wireSection records ++ rest)) records.length pre.length =
      .ok (records.findSome? address) := by
  induction records generalizing pre with
  | nil => rfl
  | cons r records ih =>
    have hbytes : pre ++ (wireSection (r :: records) ++ rest) =
        pre ++ (r.owner.wire ++ (r.fixed ++ (r.rdata ++ (wireSection records ++ rest)))) := by
      simp only [wireSection, List.flatMap_cons, Record.wire, List.append_assoc]
    have hstep := stepRecord_wire (pre ++ r.owner.wire) (wireSection records ++ rest) r
    have hnext := ih (pre ++ r.wire)
    rw [List.append_assoc] at hstep
    simp only [Record.wire, List.append_assoc] at hnext
    rw [hbytes, List.length_cons, walkRecords, skipName_owner]
    show (stepRecord _ _ >>= _) = _
    rw [hstep, List.findSome?_cons]
    cases hip : address r with
    | some ip => rfl
    | none =>
      show walkRecords _ _ _ = _
      rw [← hnext]
      simp only [List.length_append, Record.length_fixed]
      congr 1
      omega

/-- **The first address of a reply is found**, in whatever form its records name their owners and
whatever other records come before. -/
theorem dnsExtractFirstA_wire (name : List Char) (txid : UInt16) (r : Reply) :
    dnsExtractFirstA (r.wire txid ((buildDnsQuery name txid).drop 12)) txid
      ((buildDnsQuery name txid).length - 12) = .ok (r.answers.findSome? address) := by
  generalize hquestion : (buildDnsQuery name txid).drop 12 = question
  have hqsize : (buildDnsQuery name txid).length - 12 = question.length := by
    rw [← hquestion, List.length_drop]
  have hcount : (UInt16.ofNat r.answers.length).toNat = r.answers.length := by
    rw [UInt16.toNat_ofNat', Nat.mod_eq_of_lt r.fits]
  have hflags : flagsOk r.flags = true := by
    simp [flagsOk, r.isReply, r.noError]
  have hstart : (r.header txid ++ question).length = 12 + question.length := by
    rw [List.length_append, Reply.length_header]
  have hsection := walkRecords_section (r.header txid ++ question)
    (wireSection r.authority ++ wireSection r.additional) r.answers
  rw [hstart, List.append_assoc] at hsection
  have hlen : 12 + question.length ≤ (r.wire txid question).length := by
    simp only [Reply.wire, List.length_append, Reply.length_header]
    omega
  have hid : u16At (r.wire txid question) 0 = .ok txid := congrArg Except.ok (ofBe16_be16 _)
  have hbits : u16At (r.wire txid question) 2 = .ok r.flags := congrArg Except.ok (ofBe16_be16 _)
  have hanswers : u16At (r.wire txid question) 6 = .ok (UInt16.ofNat r.answers.length) :=
    congrArg Except.ok (ofBe16_be16 _)
  rw [hqsize, dnsExtractFirstA_eq hlen hid hbits hanswers, hcount]
  split_ifs with hok
  · exact hsection
  · -- no answers at all
    have hnone : r.answers.length = 0 := by
      by_contra hne
      refine hok ⟨rfl, hflags, ?_⟩
      rw [UInt16.lt_iff_toNat_lt, hcount]
      exact Nat.pos_of_ne_zero hne
    rw [List.length_eq_zero_iff.mp hnone]
    rfl

end Vlb.DnsProbe
