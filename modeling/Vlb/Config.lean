import Mathlib.Data.List.Nodup
import Vlb.Lib.Text
import Vlb.Lib.Time

/-!
# The configuration

The sections of the configuration that failover reads, with their defaults and with the checks that
`validate` makes on them. The checks on probe targets, resolvers, the control socket, clients, the
canary and updates read fields that nothing here uses and are left out.

* `Config.validate`: the checks, in the source's order, with their messages.
* `Config.markFor`: the firewall mark of a provider.
* **`Config.routingIds`**: the tables and rule preferences of the providers are apart from each other,
  and from the kernel's.
* `Config.names_nodup`, `Config.priorities_nodup`: what selection is promised about its input.
-/

namespace Vlb

/-- An IPv4 address in network order. -/
abbrev Ipv4Addr := BitVec 32

namespace Ipv4Addr

/-- The first octet is the highest. -/
def ofOctets (a b c d : BitVec 8) : Ipv4Addr := a ++ b ++ c ++ d

/-- 0.0.0.0. -/
def isUnspecified (ip : Ipv4Addr) : Bool := ip == 0

/-- 255.255.255.255. -/
def isBroadcast (ip : Ipv4Addr) : Bool := ip == 0xffffffff

/-- 224.0.0.0/4. -/
def isMulticast (ip : Ipv4Addr) : Bool := ip.extractLsb' 28 4 == 0xe

end Ipv4Addr

/-- The section `providers` of the configuration, one entry. -/
structure Provider where
  name : String
  gateway : Ipv4Addr
  interface : String
  priority : UInt32
  deriving DecidableEq

/-- The section `health`. -/
structure HealthConfig where
  intervalSecs : UInt64 := 3
  timeoutMs : UInt64 := 1000
  failureThreshold : UInt32 := 2
  successThreshold : UInt32 := 2
  deriving DecidableEq

/-- The section `failover`. -/
structure FailoverConfig where
  failbackStableSecs : UInt64 := 30
  flapThreshold : UInt32 := 3
  flapWindowSecs : UInt64 := 600
  maxFailbackStableSecs : UInt64 := 900
  /-- 0 disables the watchdog. -/
  routeWatchdogSecs : UInt64 := 15
  deriving DecidableEq

/-- The section `routing`. -/
structure RoutingConfig where
  tableBase : UInt32 := 200
  fwmarkBase : UInt32 := 0x200
  rulePref : UInt32 := 32000
  fwmarkMask : UInt32 := 0xffff
  pinConnections : Bool := false
  deriving DecidableEq

/-- What the balancer goes by of the configuration. -/
structure Config where
  providers : List Provider
  /-- The interface the pinning chain is hooked to. -/
  lanInterface : Option String := none
  health : HealthConfig := {}
  failover : FailoverConfig := {}
  routing : RoutingConfig := {}
  deriving DecidableEq

/-! ## Checks -/

/-- `if c { bail!(message) }`. -/
def bailIf (c : Prop) [Decidable c] (message : String) : Except String Unit :=
  if c then .error message else .ok ()

@[simp] theorem bailIf_eq_ok {c : Prop} [Decidable c] {message : String} :
    bailIf c message = .ok () ↔ ¬ c := by
  unfold bailIf
  split_ifs with h <;> simp [h]

@[simp] theorem bind_eq_ok {ε : Type} {x : Except ε Unit} {y : Unit → Except ε Unit} :
    (x >>= y) = .ok () ↔ x = .ok () ∧ y () = .ok () := by
  cases x <;> simp [bind, Except.bind]

theorem bind_eq_ok_iff {ε α β : Type} {x : Except ε α} {f : α → Except ε β} {b : β} :
    (x >>= f) = .ok b ↔ ∃ a, x = .ok a ∧ f a = .ok b := by
  cases x <;> simp [bind, Except.bind]

def UInt32.saturatingAdd (a b : UInt32) : UInt32 :=
  UInt32.ofNat (min (a.toNat + b.toNat) (2 ^ 32 - 1))

def UInt32.saturatingSub (a b : UInt32) : UInt32 := UInt32.ofNat (a.toNat - b.toNat)

def UInt64.saturatingMul (a b : UInt64) : UInt64 :=
  UInt64.ofNat (min (a.toNat * b.toNat) (2 ^ 64 - 1))

theorem UInt32.toNat_saturatingAdd (a b : UInt32) :
    (UInt32.saturatingAdd a b).toNat = min (a.toNat + b.toNat) (2 ^ 32 - 1) := by
  rw [UInt32.saturatingAdd, UInt32.toNat_ofNat', Nat.mod_eq_of_lt (by omega)]

theorem UInt32.toNat_saturatingSub (a b : UInt32) :
    (UInt32.saturatingSub a b).toNat = a.toNat - b.toNat := by
  have ha := a.toNat_lt
  rw [UInt32.saturatingSub, UInt32.toNat_ofNat', Nat.mod_eq_of_lt (by omega)]

theorem forM_eq_ok {α ε : Type} {l : List α} {f : α → Except ε Unit} :
    l.forM f = .ok () ↔ ∀ a ∈ l, f a = .ok () := by
  induction l with
  | nil => simp [List.forM, pure, Except.pure]
  | cons a l ih =>
    rw [List.forall_mem_cons, ← ih]
    exact bind_eq_ok

/-- The characters an interface name must not have. -/
def forbiddenInInterface (c : Char) : Bool := Text.isWhitespace c || c == '/' || c == ':'

/-- The checks of one provider, in their order. -/
def Provider.validate (p : Provider) : Except String Unit := do
  bailIf (Text.trim p.name.toList).isEmpty "provider name must not be empty"
  bailIf (p.name.toList.any Text.isWhitespace)
    ("provider name '" ++ p.name ++ "' must not contain whitespace")
  bailIf (Text.trim p.interface.toList).isEmpty
    ("provider '" ++ p.name ++ "' has empty interface name")
  bailIf (p.interface.utf8ByteSize > 15)
    ("provider '" ++ p.name ++ "' interface name '" ++ p.interface ++
      "' exceeds Linux IFNAMSIZ-1 (15 chars)")
  bailIf (p.interface.toList.any forbiddenInInterface)
    ("provider '" ++ p.name ++ "' interface name '" ++ p.interface ++
      "' contains forbidden characters")
  bailIf p.gateway.isUnspecified ("provider '" ++ p.name ++ "' gateway must not be 0.0.0.0")
  bailIf p.gateway.isBroadcast
    ("provider '" ++ p.name ++ "' gateway must not be the broadcast address")
  bailIf p.gateway.isMulticast
    ("provider '" ++ p.name ++ "' gateway must not be a multicast address")

/-- The checks of all of them. -/
def validateProviders (ps : List Provider) : Except String Unit := do
  bailIf ps.isEmpty "at least one provider must be configured"
  bailIf (¬ (ps.map Provider.priority).Nodup) "providers must have unique priority values"
  bailIf (¬ (ps.map Provider.name).Nodup) "providers must have unique names"
  ps.forM Provider.validate

/-- A probe has to be over before the next one is due. -/
def HealthConfig.validate (h : HealthConfig) : Except String Unit := do
  bailIf (h.intervalSecs = 0) "health.interval_secs must be >= 1"
  bailIf (h.timeoutMs < 100) "health.timeout_ms must be >= 100"
  bailIf (h.timeoutMs ≥ UInt64.saturatingMul h.intervalSecs 1000)
    ("health.timeout_ms (" ++ toString h.timeoutMs ++ ") must be < health.interval_secs*1000 (" ++
      toString (h.intervalSecs * 1000) ++ "ms)")
  bailIf (h.failureThreshold = 0 ∨ h.successThreshold = 0) "health thresholds must be >= 1"

/-- The highest priority number; tables, marks and preferences are counted up to it. -/
def maxPriority (ps : List Provider) : UInt32 :=
  ps.foldl (fun m p => if m < p.priority then p.priority else m) 0

/-- The tables, the preferences and the marks of all priorities up to the highest. -/
def RoutingConfig.validate (r : RoutingConfig) (maxPrio : UInt32) : Except String Unit := do
  let lastTable := UInt32.saturatingAdd r.tableBase maxPrio
  bailIf (r.tableBase = 0) "routing.table_base must not be 0 (reserved — unspec)"
  [253, 254, 255].forM fun reserved =>
    bailIf (r.tableBase ≤ reserved ∧ reserved ≤ lastTable)
      ("routing.table_base..=" ++ toString lastTable ++ " overlaps reserved table " ++
        toString reserved ++ " (253=default, 254=main, 255=local) — pick a different table_base")
  bailIf (lastTable > 0xfffffffe) "routing.table_base + max priority overflows u32"
  let maxPref := UInt32.saturatingAdd r.rulePref maxPrio
  bailIf (maxPref ≥ 32766)
    ("routing.rule_pref + max priority (" ++ toString maxPref ++
      ") must be < 32766 (the main-table pref)")
  bailIf (r.fwmarkBase = 0) "routing.fwmark_base must not be 0"
  bailIf (r.fwmarkMask = 0) "routing.fwmark_mask must not be 0"
  bailIf (r.fwmarkBase.toNat + maxPrio.toNat ≥ 2 ^ 32)
    "routing.fwmark_base + max priority overflows u32"
  let maxMark := r.fwmarkBase + maxPrio
  bailIf (maxMark &&& ~~~r.fwmarkMask ≠ 0)
    ("routing.fwmark_base + max priority (" ++ Text.hexString maxMark.toNat ++
      ") has bits outside routing.fwmark_mask (" ++ Text.hexString r.fwmarkMask.toNat ++
      "); widen the mask or lower the base")
  bailIf (r.fwmarkBase &&& r.fwmarkMask = 0)
    ("routing.fwmark_base (" ++ Text.hexString r.fwmarkBase.toNat ++
      ") is zero once masked with routing.fwmark_mask (" ++ Text.hexString r.fwmarkMask.toNat ++
      "), which would match every unmarked packet")
  bailIf (r.rulePref < 100)
    ("routing.rule_pref (" ++ toString r.rulePref ++
      ") must be at least 100 — the kernel's own rules live below that")

/-- The window at its longest is no shorter than without damping. -/
def FailoverConfig.validate (f : FailoverConfig) : Except String Unit := do
  bailIf (f.flapThreshold = 0) "failover.flap_threshold must be >= 1"
  bailIf (f.maxFailbackStableSecs < f.failbackStableSecs)
    ("failover.max_failback_stable_secs (" ++ toString f.maxFailbackStableSecs ++
      ") must be >= failover.failback_stable_secs (" ++ toString f.failbackStableSecs ++ ")")

namespace Config

variable {cfg : Config}

/-- The first check that fails refuses the configuration. -/
def validate (cfg : Config) : Except String Unit := do
  validateProviders cfg.providers
  cfg.health.validate
  cfg.routing.validate (maxPriority cfg.providers)
  cfg.failover.validate

/-- The configuration is one the daemon starts with. -/
def Accepted (cfg : Config) : Prop := cfg.validate = .ok ()

instance (cfg : Config) : Decidable cfg.Accepted := inferInstanceAs (Decidable (_ = _))

/-- The mark of the provider's connections. -/
def markFor (cfg : Config) (p : Provider) : UInt32 := cfg.routing.fwmarkBase + p.priority

/-- The routing table of a provider. -/
def tableFor (cfg : Config) (p : Provider) : UInt32 := cfg.routing.tableBase + p.priority

/-- The preference of a provider's rule. -/
def rulePrefFor (cfg : Config) (p : Provider) : UInt32 := cfg.routing.rulePref + p.priority

/-- The preference in `setup_suppress_rule`. -/
def suppressPref (cfg : Config) : UInt32 := UInt32.saturatingSub cfg.routing.rulePref 1

/-- The configured provider of a name. -/
def provider? (cfg : Config) (name : String) : Option Provider :=
  cfg.providers.find? (·.name = name)

theorem accepted_iff : cfg.Accepted ↔ validateProviders cfg.providers = .ok () ∧
    cfg.health.validate = .ok () ∧ cfg.routing.validate (maxPriority cfg.providers) = .ok () ∧
    cfg.failover.validate = .ok () := by
  simp [Accepted, validate]

theorem names_nodup (h : cfg.Accepted) : (cfg.providers.map Provider.name).Nodup := by
  have := (accepted_iff.mp h).1
  simp only [validateProviders, bind_eq_ok, bailIf_eq_ok, not_not] at this
  exact this.2.2.1

theorem priorities_nodup (h : cfg.Accepted) : (cfg.providers.map Provider.priority).Nodup := by
  have := (accepted_iff.mp h).1
  simp only [validateProviders, bind_eq_ok, bailIf_eq_ok, not_not] at this
  exact this.2.1

theorem mem_of_provider? {name : String} {p : Provider} (h : cfg.provider? name = some p) :
    p ∈ cfg.providers ∧ p.name = name :=
  ⟨List.mem_of_find?_eq_some h, by simpa using List.find?_some h⟩

theorem provider?_of_mem (h : cfg.Accepted) {p : Provider} (hp : p ∈ cfg.providers) :
    cfg.provider? p.name = some p := by
  cases hfind : cfg.provider? p.name with
  | none => simpa using List.find?_eq_none.mp hfind p hp
  | some q =>
    obtain ⟨hq, hname⟩ := mem_of_provider? hfind
    rw [List.inj_on_of_nodup_map (names_nodup h) hq hp hname]

theorem le_maxPriority_foldl (ps : List Provider) (m : UInt32) :
    m ≤ ps.foldl (fun m p => if m < p.priority then p.priority else m) m ∧
      ∀ p ∈ ps, p.priority ≤ ps.foldl (fun m p => if m < p.priority then p.priority else m) m := by
  induction ps generalizing m with
  | nil => simp
  | cons q ps ih =>
    simp only [List.foldl_cons, List.mem_cons, forall_eq_or_imp]
    obtain ⟨hm, hps⟩ := ih (if m < q.priority then q.priority else m)
    refine ⟨UInt32.le_trans ?_ hm, UInt32.le_trans ?_ hm, hps⟩
    · split_ifs with h
      · exact UInt32.le_of_lt h
      · exact UInt32.le_refl m
    · split_ifs with h
      · exact UInt32.le_refl _
      · exact UInt32.not_lt.mp h

theorem le_maxPriority {ps : List Provider} {p : Provider} (hp : p ∈ ps) :
    p.priority ≤ maxPriority ps :=
  (le_maxPriority_foldl ps 0).2 p hp

theorem markFor_ne_zero (h : cfg.Accepted) {p : Provider} (hp : p ∈ cfg.providers) :
    cfg.markFor p ≠ 0 := by
  have hrouting := (accepted_iff.mp h).2.2.1
  simp only [RoutingConfig.validate, bind_eq_ok, bailIf_eq_ok] at hrouting
  obtain ⟨-, -, -, -, hbase, -, hmax, -⟩ := hrouting
  have hle := UInt32.le_iff_toNat_le.mp (le_maxPriority hp)
  intro hzero
  have := congrArg UInt32.toNat hzero
  rw [markFor, UInt32.toNat_add, Nat.mod_eq_of_lt (by omega)] at this
  exact hbase (UInt32.toNat_inj.mp (by simp at this ⊢; omega))

/-! ## Routing identifiers -/

/-- No identifier wraps around, or is another's, or one of the kernel's. -/
structure RoutingIds (cfg : Config) : Prop where
  tableFits : ∀ p ∈ cfg.providers,
    (cfg.tableFor p).toNat = cfg.routing.tableBase.toNat + p.priority.toNat
  tablesDistinct : (cfg.providers.map cfg.tableFor).Nodup
  tableFree : ∀ p ∈ cfg.providers, cfg.tableFor p ∉ [0, 253, 254, 255]
  prefFits : ∀ p ∈ cfg.providers,
    (cfg.rulePrefFor p).toNat = cfg.routing.rulePref.toNat + p.priority.toNat
  prefsDistinct : (cfg.providers.map cfg.rulePrefFor).Nodup
  prefRange : ∀ p ∈ cfg.providers, 100 ≤ cfg.rulePrefFor p ∧ cfg.rulePrefFor p < 32766
  suppressBelow : ∀ p ∈ cfg.providers, cfg.suppressPref < cfg.rulePrefFor p

theorem routing_bounds {r : RoutingConfig} {maxPrio : UInt32} (h : r.validate maxPrio = .ok ()) :
    r.tableBase ≠ 0 ∧ r.tableBase.toNat + maxPrio.toNat ≤ 0xfffffffe ∧
      (∀ reserved ∈ [253, 254, 255], ¬ (r.tableBase ≤ reserved ∧
        reserved.toNat ≤ r.tableBase.toNat + maxPrio.toNat)) ∧
      100 ≤ r.rulePref.toNat ∧ r.rulePref.toNat + maxPrio.toNat < 32766 := by
  simp only [RoutingConfig.validate, bind_eq_ok, bailIf_eq_ok, forM_eq_ok] at h
  obtain ⟨hbase, hreserved, hlast, hpref, -, -, -, -, -, hlow⟩ := h
  have hlast := UInt32.le_iff_toNat_le.mp (UInt32.not_lt.mp hlast)
  have hpref := UInt32.lt_iff_toNat_lt.mp (UInt32.not_le.mp hpref)
  have hlow := UInt32.le_iff_toNat_le.mp (UInt32.not_lt.mp hlow)
  rw [UInt32.toNat_saturatingAdd] at hlast hpref
  have hmax : (4294967294 : UInt32).toNat = 4294967294 := rfl
  have hpref' : (32766 : UInt32).toNat = 32766 := rfl
  have hlow' : (100 : UInt32).toNat = 100 := rfl
  refine ⟨hbase, by omega, fun reserved hin hoverlap => ?_, by omega, by omega⟩
  apply hreserved reserved hin
  rw [UInt32.le_iff_toNat_le (a := reserved), UInt32.toNat_saturatingAdd]
  exact ⟨hoverlap.1, by omega⟩

theorem toNat_add_of_fits {a b : UInt32} (h : a.toNat + b.toNat < 2 ^ 32) :
    (a + b).toNat = a.toNat + b.toNat := by
  rw [UInt32.toNat_add, Nat.mod_eq_of_lt h]

theorem nodup_map_add {ps : List Provider} (hprios : (ps.map Provider.priority).Nodup) (base : UInt32) :
    (ps.map fun p => base + p.priority).Nodup := by
  have hmap : ps.map (fun p => base + p.priority) = (ps.map Provider.priority).map (base + ·) := by
    rw [List.map_map]
    rfl
  rw [hmap]
  exact hprios.map fun _ _ => UInt32.add_right_inj base |>.mp

/-- **Routing identifiers never collide.** -/
theorem routingIds (h : cfg.Accepted) : RoutingIds cfg := by
  obtain ⟨hbase, hlast, hreserved, hlow, hpref⟩ := routing_bounds (accepted_iff.mp h).2.2.1
  have hprio : ∀ p ∈ cfg.providers, p.priority.toNat ≤ (maxPriority cfg.providers).toNat :=
    fun p hp => UInt32.le_iff_toNat_le.mp (le_maxPriority hp)
  have htable : ∀ p ∈ cfg.providers,
      (cfg.tableFor p).toNat = cfg.routing.tableBase.toNat + p.priority.toNat := by
    intro p hp
    have := hprio p hp
    exact toNat_add_of_fits (by omega)
  have hprefs : ∀ p ∈ cfg.providers,
      (cfg.rulePrefFor p).toNat = cfg.routing.rulePref.toNat + p.priority.toNat := by
    intro p hp
    have := hprio p hp
    exact toNat_add_of_fits (by omega)
  refine ⟨htable, nodup_map_add (priorities_nodup h) _, fun p hp hin => ?_, hprefs,
    nodup_map_add (priorities_nodup h) _, fun p hp => ?_, fun p hp => ?_⟩
  · have hle := hprio p hp
    have hpos : cfg.routing.tableBase.toNat ≠ 0 := fun h0 => hbase (UInt32.toNat_inj.mp h0)
    rcases List.mem_cons.mp hin with hzero | hin
    · have htable := htable p hp
      rw [hzero] at htable
      have : (0 : UInt32).toNat = 0 := rfl
      omega
    · refine hreserved _ hin ⟨?_, ?_⟩
      · rw [UInt32.le_iff_toNat_le, htable p hp]
        omega
      · rw [htable p hp]
        omega
  · have hle := hprio p hp
    rw [UInt32.le_iff_toNat_le, UInt32.lt_iff_toNat_lt, hprefs p hp]
    exact ⟨hlow.trans (Nat.le_add_right _ _), lt_of_le_of_lt (by omega) hpref⟩
  · rw [UInt32.lt_iff_toNat_lt, suppressPref, UInt32.toNat_saturatingSub, hprefs p hp]
    have : (1 : UInt32).toNat = 1 := rfl
    omega

/-- Two uplinks, and the default settings. -/
def twoUplinks : Config where
  providers := [⟨"fibre", .ofOctets 192 168 1 1, "eth0", 0⟩, ⟨"lte", .ofOctets 192 168 2 1, "eth1", 5⟩]

theorem routingIds_twoUplinks : RoutingIds twoUplinks := routingIds (by decide +kernel)

end Config

end Vlb
