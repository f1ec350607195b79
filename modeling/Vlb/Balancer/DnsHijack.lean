import Vlb.Balancer.DnsRounds
import Vlb.Net.DnsReply
import Vlb.Net.ProbeNames

/-!
# Interception of DNS

A resolver that gives an address for a name that nobody can have is no resolver but someone on the
way. Silence, errors and empty answers prove nothing, and the layers before have names for them.

* `dnsResolveAOnce`, `dnsResponded`: the two queries that a resolver is sent.
* `checkDnsIntegrityVia`: the verdict over all resolvers.
* `Message`, `Talk`: what resolvers say, and the datagrams that carry it.
* `checkDnsIntegrityVia_messages`: the verdict is about what was said.
* **`dnsHijack_layer_iff`**: which rounds are failed for it, over every run of the loop.
-/

namespace Vlb.HealthLoop

open Canary Dns DnsProbe

variable {name : List Char} {txid : UInt16}

/-! ## The check -/

/-- A query with its id, and the datagram that came back in time. -/
structure Exchange where
  txid : UInt16
  reply : Option (List UInt8)

/-- The buffer holds 1500 bytes. -/
def Exchange.received (e : Exchange) : Option (List UInt8) := e.reply.map (List.take 1500)

/-- The address in the reply, if one comes and has one. -/
def dnsResolveAOnce (name : List Char) (e : Exchange) : Except Panic (Option Ipv4Addr) :=
  match e.received with
  | none => .ok none
  | some reply => dnsExtractFirstA reply e.txid ((buildDnsQuery name e.txid).length - 12)

/-- Somebody has answered, whatever the answer. -/
def dnsResponded (e : Exchange) : Except Panic Bool :=
  match e.received with
  | none => .ok false
  | some reply =>
    if reply.length < 12 then .ok false
    else do
      let rid ← u16At reply 0
      let flags ← u16At reply 2
      return rid = e.txid && flags &&& 0x8000 ≠ 0

/-- A resolver is asked for the address, and where there is none whether it is there at all. -/
structure Asked where
  resolver : Ipv4Addr
  resolve : Exchange
  again : Exchange

/-- What the failure says. -/
def hijackDetail (resolver ip : Ipv4Addr) (name : List Char) : String :=
  "resolver " ++ resolver.display ++ " answered " ++ ip.display ++ " for " ++ String.ofList name ++
    ", a name reserved by RFC 6761 to never exist — DNS is being intercepted"

/-- The loop over the resolvers, from the value of `saw_reply` on. -/
def askResolvers (name : List Char) : Bool → List Asked → Except Panic DnsIntegrity
  | sawReply, [] => .ok (if sawReply then .clean else .noAnswer)
  | sawReply, a :: asked => do
    match ← dnsResolveAOnce name a.resolve with
    | some ip => return .hijacked (hijackDetail a.resolver ip name)
    | none =>
      let responded ← dnsResponded a.again
      askResolvers name (sawReply || responded) asked

/-- The whole check. -/
def checkDnsIntegrityVia (name : List Char) (asked : List Asked) : Except Panic DnsIntegrity :=
  askResolvers name false asked

/-! ## What is said -/

/-- A message, whatever its id, its flags and its records. -/
structure Message where
  id : UInt16
  flags : UInt16
  answers : List Record
  authority : List Record
  additional : List Record
  fits : answers.length < 2 ^ 16

namespace Message

/-- Twelve bytes, with the counts of the sections. -/
def header (m : Message) : List UInt8 :=
  be16 m.id ++ be16 m.flags ++ be16 1 ++ be16 (UInt16.ofNat m.answers.length) ++
    be16 (UInt16.ofNat m.authority.length) ++ be16 (UInt16.ofNat m.additional.length)

/-- A message repeats the question. -/
def wire (m : Message) (question : List UInt8) : List UInt8 :=
  m.header ++ (question ++ (wireSection m.answers ++
    (wireSection m.authority ++ wireSection m.additional)))

@[simp] theorem length_header (m : Message) : m.header.length = 12 := rfl

theorem length_wire_ge (m : Message) (question : List UInt8) :
    12 + question.length ≤ (m.wire question).length := by
  simp only [wire, List.length_append, length_header]
  omega

/-- It answers the query with this id, and reports no error. -/
def Accepted (m : Message) (txid : UInt16) : Prop := m.id = txid ∧ flagsOk m.flags = true

instance (m : Message) (txid : UInt16) : Decidable (m.Accepted txid) :=
  inferInstanceAs (Decidable (_ ∧ _))

/-- The first address that it gives. -/
def addressFor (m : Message) (txid : UInt16) : Option Ipv4Addr :=
  if m.Accepted txid then m.answers.findSome? address else none

/-- It is a reply to the query with this id. -/
def repliesTo (m : Message) (txid : UInt16) : Bool := m.id = txid && m.flags &&& 0x8000 ≠ 0

theorem u16At_wire (m : Message) (question : List UInt8) :
    u16At (m.wire question) 0 = .ok m.id ∧ u16At (m.wire question) 2 = .ok m.flags ∧
      u16At (m.wire question) 6 = .ok (UInt16.ofNat m.answers.length) :=
  ⟨congrArg Except.ok (ofBe16_be16 _), congrArg Except.ok (ofBe16_be16 _),
    congrArg Except.ok (ofBe16_be16 _)⟩

/-- **The walk finds the first address** of a message that is accepted, and nothing in others. -/
theorem dnsExtractFirstA_message (m : Message) (txid : UInt16) (question : List UInt8) :
    dnsExtractFirstA (m.wire question) txid question.length = .ok (m.addressFor txid) := by
  obtain ⟨hid, hflags, hcount⟩ := m.u16At_wire question
  have hanswers : (UInt16.ofNat m.answers.length).toNat = m.answers.length := by
    rw [UInt16.toNat_ofNat', Nat.mod_eq_of_lt m.fits]
  have hsection := walkRecords_section (m.header ++ question)
    (wireSection m.authority ++ wireSection m.additional) m.answers
  rw [List.length_append, length_header, List.append_assoc] at hsection
  rw [dnsExtractFirstA_eq (m.length_wire_ge question) hid hflags hcount, hanswers, addressFor]
  by_cases haccepted : m.Accepted txid
  · rw [if_pos haccepted]
    split_ifs with hpos
    · exact hsection
    · have hnone : m.answers = [] := by
        rw [← List.length_eq_zero_iff]
        by_contra hne
        refine hpos ⟨haccepted.1, haccepted.2, ?_⟩
        rw [UInt16.lt_iff_toNat_lt, hanswers]
        exact Nat.pos_of_ne_zero hne
      rw [hnone]
      rfl
  · rw [if_neg haccepted, if_neg fun h => haccepted ⟨h.1, h.2.1⟩]

end Message

/-- A query with its id, and the message that came back, if any. -/
structure Heard where
  txid : UInt16
  message : Option Message

namespace Heard

/-- The question of the query. -/
def question (h : Heard) (name : List Char) : List UInt8 := (buildDnsQuery name h.txid).drop 12

/-- The message on the wire. -/
def exchange (h : Heard) (name : List Char) : Exchange where
  txid := h.txid
  reply := h.message.map fun m => m.wire (h.question name)

/-- The message fits the buffer. -/
def Fits (h : Heard) (name : List Char) : Prop :=
  ∀ m ∈ h.message, (m.wire (h.question name)).length ≤ 1500

theorem received_exchange {h : Heard} (hfits : h.Fits name) : (h.exchange name).received =
    h.message.map fun m => m.wire (h.question name) := by
  unfold Exchange.received exchange
  cases hmessage : h.message with
  | none => rfl
  | some m => exact congrArg some (List.take_of_length_le (hfits m hmessage))

theorem dnsResolveAOnce_exchange {h : Heard} (hfits : h.Fits name) :
    dnsResolveAOnce name (h.exchange name) = .ok (h.message.bind fun m => m.addressFor h.txid) := by
  have hlength : (buildDnsQuery name h.txid).length - 12 = (h.question name).length := by
    rw [question, List.length_drop]
  unfold dnsResolveAOnce
  rw [received_exchange hfits]
  cases h.message with
  | none => rfl
  | some m => exact hlength ▸ m.dnsExtractFirstA_message h.txid (h.question name)

theorem dnsResponded_exchange {h : Heard} (hfits : h.Fits name) :
    dnsResponded (h.exchange name) = .ok (h.message.any fun m => m.repliesTo h.txid) := by
  unfold dnsResponded
  rw [received_exchange hfits]
  cases h.message with
  | none => rfl
  | some m =>
    obtain ⟨hid, hflags, -⟩ := m.u16At_wire (h.question name)
    have hlong := m.length_wire_ge (h.question name)
    simp only [Option.map_some, if_neg (show ¬ (m.wire (h.question name)).length < 12 by omega), hid,
      hflags]
    rfl

end Heard

/-- What is said by one resolver. -/
structure Talk where
  resolver : Ipv4Addr
  resolve : Heard
  again : Heard

namespace Talk

/-- The two queries on the wire. -/
def asked (t : Talk) (name : List Char) : Asked where
  resolver := t.resolver
  resolve := t.resolve.exchange name
  again := t.again.exchange name

/-- Both messages fit. -/
structure Fits (t : Talk) (name : List Char) : Prop where
  resolve : t.resolve.Fits name
  again : t.again.Fits name

/-- The address that the resolver made up. -/
def invented (t : Talk) : Option (Ipv4Addr × Ipv4Addr) :=
  (t.resolve.message.bind fun m => m.addressFor t.resolve.txid).map (t.resolver, ·)

/-- The resolver is there. -/
def responded (t : Talk) : Bool := t.again.message.any fun m => m.repliesTo t.again.txid

end Talk

/-- The verdict: an address that was made up proves it, and anything else that was said clears it. -/
def verdict (name : List Char) (talks : List Talk) : DnsIntegrity :=
  match talks.findSome? Talk.invented with
  | some (resolver, ip) => .hijacked (hijackDetail resolver ip name)
  | none => if talks.any Talk.responded then .clean else .noAnswer

theorem askResolvers_messages {talks : List Talk} (hfits : ∀ t ∈ talks, t.Fits name)
    (sawReply : Bool) : askResolvers name sawReply (talks.map fun t => t.asked name) =
      .ok (match talks.findSome? Talk.invented with
        | some (resolver, ip) => .hijacked (hijackDetail resolver ip name)
        | none => if sawReply || talks.any Talk.responded then .clean else .noAnswer) := by
  induction talks generalizing sawReply with
  | nil => simp [askResolvers]
  | cons t talks ih =>
    rw [List.forall_mem_cons] at hfits
    have hresolve := Heard.dnsResolveAOnce_exchange hfits.1.resolve
    have hagain := Heard.dnsResponded_exchange hfits.1.again
    rw [List.map_cons, askResolvers, List.findSome?_cons, Talk.invented]
    show (dnsResolveAOnce name (t.resolve.exchange name) >>= _) = _
    rw [hresolve]
    cases t.resolve.message.bind fun m => m.addressFor t.resolve.txid with
    | some ip => rfl
    | none =>
      show (dnsResponded (t.again.exchange name) >>= _) = _
      rw [hagain]
      refine (ih hfits.2 _).trans ?_
      rw [List.any_cons, Bool.or_assoc]
      rfl

/-- **The verdict is about what was said**, for everything that resolvers can say. -/
theorem checkDnsIntegrityVia_messages {talks : List Talk} (hfits : ∀ t ∈ talks, t.Fits name) :
    checkDnsIntegrityVia name (talks.map fun t => t.asked name) = .ok (verdict name talks) := by
  rw [checkDnsIntegrityVia, askResolvers_messages hfits, verdict]
  simp

/-! ## Rounds -/

variable {rates : Rates} {errorText : FetchError → String} {cfg : LoopConfig} {p : Provider}
  {s : LoopState} {t : Turn}

theorem contentFailure_ne_dnsHijack (entry : ProviderEntry) (detail : String) :
    contentFailure entry ≠ some (.dnsHijack, detail) := by
  unfold contentFailure
  split_ifs <;> simp

theorem ran_of_dnsIntegrityBad {detail : String} (h : t.dnsIntegrityBad cfg = some detail) :
    cfg.dnsIntegrityCheck = true ∧ (t.dnsProbe cfg).any ProbeOutcome.isSuccess = true := by
  unfold Turn.dnsIntegrityBad at h
  split_ifs at h with hran
  exact hran

/-- **The roll-up names the interception** when the check is on, DNS works, and the check says so. -/
theorem turn_dnsHijack_iff {detail : String} :
    (turn rates errorText cfg p s t).2.failure = some (.dnsHijack, detail) ↔
      t.dnsIntegrityBad cfg = some detail := by
  show (t.reachabilityFailure cfg p (t.canaryStep cfg s).entry).or (contentFailure _) =
    some (.dnsHijack, detail) ↔ _
  unfold Turn.reachabilityFailure
  constructor
  · intro h
    split_ifs at h with hgateway hinternet hdns
    · simp at h
    · simp at h
    · simp at h
    · split at h
      · rename_i hbad
        simp only [Option.some_or, Option.some.injEq, Prod.mk.injEq, true_and] at h
        rw [hbad, h]
      · simp at h
      · rw [Option.none_or] at h
        exact absurd h (contentFailure_ne_dnsHijack _ detail)
  · intro hbad
    obtain ⟨-, hsucceeds⟩ := ran_of_dnsIntegrityBad hbad
    have hprobe : t.dnsProbe cfg = some t.dns ∧ t.gateway.isSuccess = true ∧
        t.internetProbe.any ProbeOutcome.isSuccess = true := by
      unfold Turn.dnsProbe at hsucceeds ⊢
      split_ifs at hsucceeds ⊢ with hran
      · exact ⟨rfl, hran.2.1, hran.2.2⟩
      · cases hsucceeds
    have hpasses : (t.dnsProbe cfg).all ProbeOutcome.isSuccess = true := by
      rw [hprobe.1] at hsucceeds ⊢
      exact hsucceeds
    simp [hprobe.2.1, hprobe.2.2, Turn.dnsFailing, hpasses, hbad]

variable (rates errorText cfg p) in
/-- **A round is failed as hijacked just when a resolver made an address up**, in every run of the
loop: DNS works in that round, and what was said in the check of it has an address for a name that
nobody has. -/
theorem dnsHijack_layer_iff (turns : List Turn) {i : ℕ} (hi : i < turns.length) {talks : List Talk}
    (hfits : ∀ t ∈ talks, t.Fits name)
    (hcheck : checkDnsIntegrityVia name (talks.map fun t => t.asked name) =
      .ok turns[i].integrity) {detail : String} :
    (∃ record, (run rates errorText cfg p turns).2[i]? = some record ∧
        record.failure = some (.dnsHijack, detail)) ↔
      cfg.dnsIntegrityCheck = true ∧ (turns[i].dnsProbe cfg).any ProbeOutcome.isSuccess = true ∧
        ∃ resolver ip, talks.findSome? Talk.invented = some (resolver, ip) ∧
          detail = hijackDetail resolver ip name := by
  have hverdict : turns[i].integrity = verdict name talks := by
    have := hcheck.symm.trans (checkDnsIntegrityVia_messages hfits)
    exact Except.ok.inj this
  have hbad : turns[i].dnsIntegrityBad cfg = some detail ↔ cfg.dnsIntegrityCheck = true ∧
      (turns[i].dnsProbe cfg).any ProbeOutcome.isSuccess = true ∧
        verdict name talks = .hijacked detail := by
    rw [← hverdict, Turn.dnsIntegrityBad]
    split_ifs with hran
    · cases turns[i].integrity <;> simp [hran]
    · simp only [false_iff]
      exact fun h => hran ⟨h.1, h.2.1⟩
  have hsays : verdict name talks = .hijacked detail ↔ ∃ resolver ip,
      talks.findSome? Talk.invented = some (resolver, ip) ∧
        detail = hijackDetail resolver ip name := by
    unfold verdict
    cases talks.findSome? Talk.invented with
    | none =>
      simp only [reduceCtorEq, false_and, exists_false, iff_false]
      split_ifs <;> simp
    | some found =>
      obtain ⟨resolver, ip⟩ := found
      simp [eq_comm]
  rw [run_getElem? turns hi, ← hsays, ← hbad]
  simp [turn_dnsHijack_iff]

/-- The provider's own resolver is honest. The other one is intercepted. -/
def portalTalks : List Talk :=
  [{ resolver := Ipv4Addr.ofOctets 10 0 0 53
     resolve := ⟨7, some ⟨7, 0x8183, [], [], [], by decide⟩⟩
     again := ⟨8, some ⟨8, 0x8183, [], [], [], by decide⟩⟩ },
    { resolver := Ipv4Addr.ofOctets 1 1 1 1
      resolve := ⟨9, some
        { id := 9, flags := 0x8180, authority := [], additional := [], fits := by decide
          answers := [⟨⟨[], .pointer 12⟩, 1, 1, 60, [10, 0, 0, 1], by decide⟩] }⟩
      again := ⟨10, none⟩ }]

theorem fits_portalTalks : ∀ t ∈ portalTalks, t.Fits (probeName 0xBEEF) := by
  simp only [portalTalks, List.forall_mem_cons]
  refine ⟨⟨?_, ?_⟩, ⟨?_, ?_⟩, by simp⟩
  all_goals
    rintro m ⟨⟩
  all_goals decide +kernel

def portalTurn : Turn :=
  { steadyTurn 0 passedReport with integrity := verdict (probeName 0xBEEF) portalTalks }

/-- The round is failed, and the text says why. -/
theorem dnsHijack_layer_iff_portal :
    ∃ record, (run exactRates (fun _ => "request failed") {} wan [portalTurn]).2[0]? = some record ∧
      record.failure = some (.dnsHijack, "resolver 1.1.1.1 answered 10.0.0.1 for " ++
        "000000000000beef.vlb-probe.invalid, a name reserved by RFC 6761 to never exist — " ++
        "DNS is being intercepted") :=
  (dnsHijack_layer_iff exactRates (fun _ => "request failed") {} wan [portalTurn] (i := 0) (by decide)
      fits_portalTalks (checkDnsIntegrityVia_messages fits_portalTalks)).mpr
    ⟨by decide, by decide, Ipv4Addr.ofOctets 1 1 1 1, Ipv4Addr.ofOctets 10 0 0 1, by decide +kernel,
      by decide +kernel⟩

end Vlb.HealthLoop
