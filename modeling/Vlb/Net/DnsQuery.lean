import Mathlib.Algebra.Order.BigOperators.Group.List
import Vlb.Lib.Dns
import Vlb.Net.Canary

/-!
# The names that DNS is asked for

A hostname reaches the DNS query from one of three places: a probe target, the name of the DNS check
or the host of a URL. Each has a check of its own of what a hostname is.

* `ProbeConfig.validate`, `ProbeTarget.parse`: the checks on the settings, and what is made of them.
* `AcceptedHost`: the hostnames that pass one of the checks.
* `buildDnsQuery`: the query, whose labels are cut to the 63 bytes that a length can say.
* **`asksFor_iff`**: the names that the query asks for as they are; `encodable_probeTarget_iff`.
-/

namespace Vlb

/-! ## Settings -/

/-- A destination of the internet probe. -/
inductive ProbeTarget
  | ip (ip : Ipv4Addr)
  | hostname (name : List Char)
  deriving DecidableEq

/-- What is no address is a name, in lower case. -/
def ProbeTarget.parse (s : List Char) : ProbeTarget :=
  let trimmed := Text.trim s
  match Ipv4Addr.parse (String.ofList trimmed) with
  | some a => .ip a
  | none => .hostname (Text.toAsciiLowercase trimmed)

/-- What the `[health]` section says about the probes. -/
structure ProbeConfig where
  probeTargets : List String := ["1.1.1.1", "8.8.8.8", "google.com"]
  dnsCheckEnabled : Bool := true
  dnsResolvers : List Ipv4Addr := [Ipv4Addr.ofOctets 1 1 1 1, Ipv4Addr.ofOctets 8 8 8 8]
  dnsCheckName : String := "cloudflare.com"
  deriving DecidableEq

/-- What `validate` refuses the probes for; the messages quote the values. -/
inductive ProbeError
  | noTargets
  | emptyTarget
  | invalidAddress (ip : Ipv4Addr)
  | notAnFqdn (target : List Char)
  | invalidCharacters (target : List Char)
  | noResolvers
  | invalidResolver (ip : Ipv4Addr)
  | invalidCheckName
  deriving DecidableEq

/-- `if c { bail!(e) }`. -/
def ProbeError.refuseIf (c : Prop) [Decidable c] (e : ProbeError) : Except ProbeError Unit :=
  if c then .error e else .ok ()

theorem ProbeError.refuseIf_eq_ok {c : Prop} [Decidable c] {e : ProbeError} :
    refuseIf c e = .ok () ↔ ¬ c := by
  unfold refuseIf
  split_ifs with h <;> simp [h]

/-- An address that no host has. -/
def Ipv4Addr.isNoHost (ip : Ipv4Addr) : Bool :=
  ip.isUnspecified || ip.isLoopback || ip.isBroadcast || ip.isMulticast

open ProbeError in
/-- The checks of one entry of `probe_targets`. -/
def validateProbeTarget (t : String) : Except ProbeError Unit := do
  let trimmed := Text.trim t.toList
  refuseIf trimmed.isEmpty .emptyTarget
  match Ipv4Addr.parse (String.ofList trimmed) with
  | some ip => refuseIf ip.isNoHost (.invalidAddress ip)
  | none =>
    refuseIf ((Text.utf8 trimmed).length > 253 ∨ '.' ∉ trimmed) (.notAnFqdn trimmed)
    refuseIf (¬ trimmed.all Url.isHostChar) (.invalidCharacters trimmed)

namespace ProbeConfig

open ProbeError

/-- DNS is needed for its own check, or for a target that is not an address. -/
def needsResolvers (h : ProbeConfig) : Bool :=
  h.dnsCheckEnabled || h.probeTargets.any fun t => (Ipv4Addr.parse t).isNone

/-- The name has a dot and is no longer than a name may be. -/
def validateDnsCheckName (h : ProbeConfig) : Except ProbeError Unit :=
  let n := Text.trim h.dnsCheckName.toList
  refuseIf (h.dnsCheckEnabled ∧ (n.isEmpty ∨ (Text.utf8 n).length > 253 ∨ '.' ∉ n))
    .invalidCheckName

/-- The checks of `validate` on the probes. -/
def validate (h : ProbeConfig) : Except ProbeError Unit := do
  refuseIf h.probeTargets.isEmpty .noTargets
  h.probeTargets.forM validateProbeTarget
  refuseIf (h.needsResolvers ∧ h.dnsResolvers.isEmpty) .noResolvers
  if h.needsResolvers then
    h.dnsResolvers.forM fun r => refuseIf r.isNoHost (.invalidResolver r)
  h.validateDnsCheckName

example : ({} : ProbeConfig).validate = .ok () := by decide +kernel

theorem length_hostname {h : ProbeConfig} (hvalid : h.validate = .ok ()) {t : String}
    (ht : t ∈ h.probeTargets) {name : List Char}
    (hname : ProbeTarget.parse t.toList = .hostname name) : (Text.utf8 name).length ≤ 253 := by
  simp only [validate, bind_eq_ok, forM_eq_ok, refuseIf_eq_ok] at hvalid
  have htarget := hvalid.2.1 t ht
  unfold ProbeTarget.parse at hname
  unfold validateProbeTarget at htarget
  dsimp only at hname htarget
  cases haddress : Ipv4Addr.parse (String.ofList (Text.trim t.toList)) with
  | some ip =>
    rw [haddress] at hname
    cases hname
  | none =>
    rw [haddress] at hname htarget
    cases hname
    simp only [bind_eq_ok, refuseIf_eq_ok, not_or, not_lt] at htarget
    rw [Text.length_utf8_toAsciiLowercase]
    exact htarget.2.1.1

end ProbeConfig

/-- A hostname that the daemon asks DNS for. The name of the check is asked for as it is written,
and a target without its blanks and in lower case. -/
inductive AcceptedHost : List Char → Prop
  | probeTarget {h : ProbeConfig} {t : String} {name : List Char} (hvalid : h.validate = .ok ())
      (htarget : t ∈ h.probeTargets) (hname : ProbeTarget.parse t.toList = .hostname name) :
      AcceptedHost name
  | dnsCheckName {h : ProbeConfig} (hvalid : h.validate = .ok ())
      (henabled : h.dnsCheckEnabled = true) : AcceptedHost h.dnsCheckName.toList
  | url {raw : String} {u : Url} (hparse : Url.parse raw = .ok u) : AcceptedHost u.host.toList

/-! ## The query -/

namespace DnsProbe

open Dns

/-- The labels of a name. Empty ones, as before a trailing dot, are left out. -/
def labels (name : List Char) : List (List UInt8) :=
  ((name.splitOn '.').filter fun l => !l.isEmpty).map Text.utf8

/-- A label on the wire, cut to what its length can say. -/
def encodeLabel (bytes : List UInt8) : List UInt8 :=
  let len := UInt8.ofNat (min bytes.length 63)
  len :: bytes.take len.toNat

/-- A minimal query for the address of a name. -/
def buildDnsQuery (name : List Char) (txid : UInt16) : List UInt8 :=
  be16 txid ++ be16 0x0100 ++ be16 1 ++ be16 0 ++ be16 0 ++ be16 0 ++
    ((labels name).flatMap encodeLabel ++ [0] ++ be16 1 ++ be16 1)

example : (buildDnsQuery "a.bc".toList 0xBEEF).drop 12 = [1, 97, 2, 98, 99, 0, 0, 1, 0, 1] := by
  decide

/-- The question section of the query asks for the address of the name, label by label, and the name
is no longer than a name may be. -/
structure AsksFor (name : List Char) (query : List UInt8) : Prop where
  question : readQuestion (query.drop 12) =
    some ({ labels := labels name, qtype := 1, qclass := 1 }, [])
  fits : (query.drop 12).length ≤ maxName + 4

/-- The name can be put into a query. -/
structure Encodable (name : List Char) : Prop where
  labels_fit : ∀ l ∈ labels name, l.length ≤ maxLabel
  fits : ((labels name).map fun l => l.length + 1).sum + 1 ≤ maxName

variable {name : List Char}

theorem labels_ne_nil {l : List UInt8} (h : l ∈ labels name) : l ≠ [] := by
  obtain ⟨cs, hcs, rfl⟩ := List.mem_map.mp h
  rcases cs with _ | ⟨c, cs⟩
  · simp at hcs
  · rw [Text.utf8_cons]
    simp [String.utf8EncodeChar_ne_nil]

theorem encodeLabel_eq (bytes : List UInt8) :
    encodeLabel bytes = wireLabel (bytes.take maxLabel) := by
  have hlen : (UInt8.ofNat (min bytes.length 63)).toNat = min bytes.length 63 := by
    rw [UInt8.toNat_ofNat']
    omega
  have htake : (bytes.take maxLabel).length = min bytes.length 63 := by
    rw [List.length_take, maxLabel]
    omega
  have hcut : bytes.take (min bytes.length 63) = bytes.take maxLabel := by
    rw [List.take_eq_take_iff, maxLabel]
    omega
  show UInt8.ofNat (min bytes.length 63) :: bytes.take _ = UInt8.ofNat _ :: _
  rw [hlen, htake, hcut]

theorem drop_buildDnsQuery (name : List Char) (txid : UInt16) :
    (buildDnsQuery name txid).drop 12 =
      wireName ((labels name).map (List.take maxLabel)) ++ (be16 1 ++ be16 1) := by
  have hdrop : (buildDnsQuery name txid).drop 12 =
      (labels name).flatMap encodeLabel ++ [0] ++ be16 1 ++ be16 1 := List.drop_left' rfl
  have hlabels : (labels name).flatMap encodeLabel =
      ((labels name).map (List.take maxLabel)).flatMap wireLabel := by
    rw [List.flatMap_map]
    exact List.flatMap_congr fun l _ => encodeLabel_eq l
  rw [hdrop, hlabels, List.append_assoc]
  rfl

theorem readQuestion_buildDnsQuery (name : List Char) (txid : UInt16) :
    readQuestion ((buildDnsQuery name txid).drop 12) =
      some ({ labels := (labels name).map (List.take maxLabel), qtype := 1, qclass := 1 }, []) := by
  rw [drop_buildDnsQuery]
  refine readQuestion_wire (fun l hl => ?_) 1 1
  obtain ⟨full, hfull, rfl⟩ := List.mem_map.mp hl
  have hpos := List.length_pos_iff.mpr (labels_ne_nil hfull)
  constructor
  · intro hnil
    have hlen := congrArg List.length hnil
    rw [List.length_take, maxLabel, List.length_nil] at hlen
    omega
  · rw [List.length_take]
    exact Nat.min_le_left _ _

/-- **The query asks for the name** just when its labels, and all of them together, fit. -/
theorem asksFor_iff (name : List Char) (txid : UInt16) :
    AsksFor name (buildDnsQuery name txid) ↔ Encodable name := by
  have hcut : (labels name).map (List.take maxLabel) = labels name ↔
      ∀ l ∈ labels name, l.length ≤ maxLabel := by
    conv_lhs => rw [← List.map_id (labels name), List.map_map]
    rw [List.map_inj_left]
    exact forall₂_congr fun l _ => List.take_eq_self_iff l
  have hlength (hfit : ∀ l ∈ labels name, l.length ≤ maxLabel) :
      ((buildDnsQuery name txid).drop 12).length =
        ((labels name).map fun l => l.length + 1).sum + 1 + 4 := by
    rw [drop_buildDnsQuery, hcut.mpr hfit, List.length_append, length_wireName]
    rfl
  constructor
  · intro h
    have hquestion := (readQuestion_buildDnsQuery name txid).symm.trans h.question
    have hlabels := congrArg Question.labels (Prod.mk.inj (Option.some.inj hquestion)).1
    have hfit := hcut.mp hlabels
    refine ⟨hfit, ?_⟩
    have hfits := h.fits
    rw [hlength hfit] at hfits
    omega
  · intro h
    refine ⟨?_, ?_⟩
    · rw [readQuestion_buildDnsQuery, hcut.mpr h.labels_fit]
    · rw [hlength h.labels_fit]
      have := h.fits
      omega

theorem length_intercalate {ls : List (List Char)} (hne : ls ≠ []) :
    (ls.map fun l => (Text.utf8 l).length + 1).sum =
      (Text.utf8 (['.'].intercalate ls)).length + 1 := by
  induction ls with
  | nil => exact absurd rfl hne
  | cons l ls ih =>
    cases ls with
    | nil => simp
    | cons l' ls =>
      have hdot : (Text.utf8 ['.']).length = 1 := by decide
      rw [List.map_cons, List.sum_cons, ih (List.cons_ne_nil _ _), List.intercalate_cons_cons]
      simp only [Text.utf8_append, List.length_append, hdot]
      omega

theorem sum_labels_le (name : List Char) :
    ((labels name).map fun l => l.length + 1).sum ≤ (Text.utf8 name).length + 1 := by
  have hsum := length_intercalate (List.splitOn_ne_nil '.' name)
  rw [List.intercalate_splitOn] at hsum
  rw [← hsum, labels, List.map_map]
  exact (List.filter_sublist.map _).sum_le_sum fun _ _ => Nat.zero_le _

/-- **An accepted probe target** can be put into a query just when its labels fit. -/
theorem encodable_probeTarget_iff {h : ProbeConfig} (hvalid : h.validate = .ok ()) {t : String}
    (ht : t ∈ h.probeTargets) (hname : ProbeTarget.parse t.toList = .hostname name) :
    Encodable name ↔ ∀ l ∈ labels name, l.length ≤ maxLabel := by
  refine ⟨Encodable.labels_fit, fun hfit => ⟨hfit, ?_⟩⟩
  calc ((labels name).map fun l => l.length + 1).sum + 1
    _ ≤ (Text.utf8 name).length + 1 + 1 := Nat.succ_le_succ (sum_labels_le name)
    _ ≤ maxName := Nat.add_le_add_right (h.length_hostname hvalid ht hname) 2

/-- A target with a label of 64 bytes. -/
def longLabelTarget : String := String.ofList (List.replicate 64 'a' ++ ".com".toList)

/-- The query asks for another name, whose first label is a byte shorter. -/
theorem asksFor_long_label : ¬ ∀ name, AcceptedHost name → ∀ txid,
    AsksFor name (buildDnsQuery name txid) := by
  intro hall
  have haccepted : AcceptedHost longLabelTarget.toList :=
    .probeTarget (h := { probeTargets := [longLabelTarget] }) (t := longLabelTarget)
      (by decide +kernel) List.mem_cons_self (by decide +kernel)
  have hasks := (hall _ haccepted 0).question
  revert hasks
  decide +kernel

end DnsProbe

end Vlb
