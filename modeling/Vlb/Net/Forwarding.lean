import Vlb.Lib.PolicyRouting
import Vlb.Net.PolicyRules
import Vlb.Net.Stickiness

/-!
# Where a marked packet goes

The rules of the providers, and a rule below them that asks the main table first, for anything but
its default routes.

* `setupSuppressRule`: that rule.
* `routePacket`: what the kernel makes of a packet.
* `Stock`: the rules that a starting daemon finds.
* **`route_marked`**, **`route_unmarked`**: a provider's packets go out by its gateway, the others by
  the main table; what the main table knows more exactly stays there in both cases.
* **`pinned_route`**: both of them, for the packets of a pinned connection.
-/

namespace Vlb.PolicyRules

open Drain PolicyRouting

/-! ## The rule below the others -/

def localTable : UInt32 := 255

def mainTable : UInt32 := 254

/-- The rules that every kernel begins with. -/
def localRule : IpRule where
  pref := 0
  mark := 0
  mask := 0
  table := localTable

def mainRule : IpRule where
  pref := 32766
  mark := 0
  mask := 0
  table := mainTable

/-- The part of the rule that is no selector. -/
def suppressWords : String := "suppress_prefixlength 0"

/-- What `pref P lookup main suppress_prefixlength 0` adds. -/
def suppressRule (cfg : Config) : IpRule where
  pref := cfg.suppressPref
  mark := 0
  mask := 0
  table := mainTable
  others := suppressWords

/-- What it deletes. -/
def suppressSelects (cfg : Config) (r : IpRule) : Bool :=
  r.pref = cfg.suppressPref ∧ r.table = mainTable ∧ r.others = suppressWords

/-- How the commands end. -/
structure SuppressEnv where
  delInvoked : ℕ → Bool
  add : Outcome

/-- The loop that deletes; the last argument but one counts the commands. -/
def deleteSuppress (delInvoked : ℕ → Bool) (cfg : Config) :
    ℕ → ℕ → List IpRule → Except String Unit × List IpRule
  | 0, _, rules => (.ok (), rules)
  | tries + 1, i, rules =>
    if delInvoked i then
      if rules.any (suppressSelects cfg) then
        deleteSuppress delInvoked cfg tries (i + 1) (rules.eraseP (suppressSelects cfg))
      else (.ok (), rules)
    else (.error "failed to invoke `ip rule del` for the suppress rule", rules)

/-- What is there is deleted first. -/
def setupSuppressRule (cfg : Config) (env : SuppressEnv) (k : Kernel) :
    Except String Unit × Kernel :=
  match deleteSuppress env.delInvoked cfg 16 0 k.rules with
  | (.error e, rules) => (.error e, { k with rules })
  | (.ok (), rules) =>
    match env.add with
    | .notInvoked =>
      (.error "failed to invoke `ip rule add` for the suppress rule", { k with rules })
    | .failed _ =>
      (.error ("failed to add the suppress rule at pref " ++ toString cfg.suppressPref),
        { k with rules })
    | .done =>
      (.ok (), { k with rules := insertBy (fun r => r.pref.toNat) (suppressRule cfg) rules })

/-! ## What the kernel makes of a packet -/

/-- Where a packet goes next. -/
structure Hop where
  gateway : Option Ipv4Addr
  interface : String
  deriving DecidableEq

/-- The routes that the daemon does not write. -/
structure Tables where
  «local» : List (Route 32 Hop)
  main : List (Route 32 Hop)

/-- `others` tells which of the selectors other than marks a packet meets. -/
structure Packet where
  dst : BitVec 32
  mark : BitVec 32
  others : String → Bool

/-- A default route by that hop. -/
def defaultVia (hop : Ipv4Addr × String) : Route 32 Hop where
  dst := ⟨0, 0⟩
  hop := ⟨some hop.1, hop.2⟩

/-- The tables of the providers hold their default routes, and nothing else. -/
def Kernel.table (k : Kernel) (t : Tables) (table : UInt32) : List (Route 32 Hop) :=
  if table = localTable then t.local
  else if table = mainTable then t.main
  else (k.defaults table).toList.map defaultVia

/-- The rule as the kernel has it. -/
def IpRule.rule (r : IpRule) : Rule 32 UInt32 where
  pref := r.pref.toNat
  mark := r.mark.toBitVec
  mask := r.mask.toBitVec
  table := r.table
  suppress := if r.others = suppressWords then some 0 else none

/-- The rule looks at the packet, as far as it is not for its mark. -/
def Packet.passes (pkt : Packet) (r : IpRule) : Bool :=
  r.others = "" ∨ r.others = suppressWords ∨ pkt.others r.others = true

/-- The route of a packet that the rules send somewhere. -/
def routePacket (k : Kernel) (t : Tables) (pkt : Packet) : Option (Route 32 Hop) :=
  resolve (k.table t) pkt.mark pkt.dst ((k.rules.filter pkt.passes).map IpRule.rule)

/-- The rule selects the packet. -/
def Packet.meets (pkt : Packet) (r : IpRule) : Bool := pkt.passes r && r.rule.selects pkt.mark

/-- What one rule answers. -/
def Kernel.answer (k : Kernel) (t : Tables) (pkt : Packet) (r : IpRule) : Option (Route 32 Hop) :=
  if pkt.meets r then r.rule.answer (k.table t) pkt.dst else none

theorem routePacket_eq (k : Kernel) (t : Tables) (pkt : Packet) :
    routePacket k t pkt = k.rules.findSome? (k.answer t pkt) := by
  rw [routePacket, resolve, List.findSome?_map]
  induction k.rules with
  | nil => rfl
  | cons r rules ih =>
    cases hpasses : pkt.passes r with
    | false =>
      rw [List.filter_cons_of_neg (by simp [hpasses]), List.findSome?_cons, ih]
      simp [Kernel.answer, Packet.meets, hpasses]
    | true =>
      rw [List.filter_cons_of_pos hpasses, List.findSome?_cons, List.findSome?_cons, ih]
      simp [Kernel.answer, Packet.meets, hpasses]

/-! ## The rules that the daemon finds, and leaves -/

variable {cfg : Config} {p q : Provider} {k : Kernel} {rules : List IpRule} {t : Tables}
  {pkt : Packet}

/-- The rules in the order of their preferences, among them those that every kernel begins with;
what is at a provider's preference is of an earlier run. -/
structure Stock (cfg : Config) (rules : List IpRule) : Prop where
  sorted : rules.Pairwise fun r r' => r.pref.toNat ≤ r'.pref.toNat
  «local» : localRule ∈ rules
  main : mainRule ∈ rules
  tidy : ∀ p ∈ cfg.providers, Tidy cfg p rules

/-- Nobody else's rules meet the packet before the main table is asked. -/
def Uncontested (cfg : Config) (pkt : Packet) (rules : List IpRule) : Prop :=
  ∀ r ∈ rules, pkt.meets r = true → r = localRule ∨ r = suppressRule cfg ∨ r = mainRule ∨
    (∃ p ∈ cfg.providers, r.pref = cfg.rulePrefFor p) ∨ mainRule.pref.toNat < r.pref.toNat

/-- A set-up of the daemon takes rules away and adds its own. -/
structure Rearranged (cfg : Config) (before after : List IpRule) : Prop where
  sorted : (before.Pairwise fun r r' => r.pref.toNat ≤ r'.pref.toNat) →
    after.Pairwise fun r r' => r.pref.toNat ≤ r'.pref.toNat
  kept : ∀ r ∈ before, (∀ p ∈ cfg.providers, r.pref ≠ cfg.rulePrefFor p) →
    r.pref ≠ cfg.suppressPref → r ∈ after
  origin : ∀ r ∈ after, r ∈ before ∨ r = suppressRule cfg ∨
    ∃ p ∈ cfg.providers, r.pref = cfg.rulePrefFor p

theorem Rearranged.trans {rules₁ rules₂ rules₃ : List IpRule} (h : Rearranged cfg rules₁ rules₂)
    (h' : Rearranged cfg rules₂ rules₃) : Rearranged cfg rules₁ rules₃ where
  sorted hs := h'.sorted (h.sorted hs)
  kept r hr hp hs := h'.kept r (h.kept r hr hp hs) hp hs
  origin r hr := (h'.origin r hr).elim (fun hr => h.origin r hr) Or.inr

theorem Uncontested.rearranged {after : List IpRule} (h : Uncontested cfg pkt rules)
    (hre : Rearranged cfg rules after) : Uncontested cfg pkt after := by
  intro r hr hmeets
  rcases hre.origin r hr with hr | hr | hr
  · exact h r hr hmeets
  · exact Or.inr (Or.inl hr)
  · exact Or.inr (Or.inr (Or.inr (Or.inl hr)))

theorem rearranged_drain {f : IpRule → Bool} (hf : ∀ r, f r = true →
    r.pref = cfg.suppressPref ∨ ∃ p ∈ cfg.providers, r.pref = cfg.rulePrefFor p) (n : ℕ) :
    Rearranged cfg rules (drain f n rules) where
  sorted hs := hs.sublist (drain_sublist f n rules)
  kept r hr hp hs := by
    refine (mem_drain_of_not (fun hfr => ?_) n rules).mpr hr
    rcases hf r hfr with h | ⟨p, hpin, h⟩
    · exact hs h
    · exact hp p hpin h
  origin r hr := Or.inl ((drain_sublist f n rules).subset hr)

theorem rearranged_insertBy {r : IpRule}
    (hr : r = suppressRule cfg ∨ ∃ p ∈ cfg.providers, r.pref = cfg.rulePrefFor p) :
    Rearranged cfg rules (insertBy (fun r => r.pref.toNat) r rules) where
  sorted hs := pairwise_insertBy hs
  kept _ hr' _ _ := mem_insertBy.mpr (Or.inr hr')
  origin _ hr' := (mem_insertBy.mp hr').elim (fun h => h ▸ Or.inr hr) Or.inl

theorem rearranged_setup (hp : p ∈ cfg.providers) (env : Env) (k : Kernel) :
    Rearranged cfg k.rules (setupProviderPolicyRoute cfg p env k).2.rules := by
  have hdrain (n : ℕ) : Rearranged cfg k.rules (drain (selectorFor cfg p).selects n k.rules) :=
    rearranged_drain (fun r hr => Or.inr ⟨p, hp, (selects_iff.mp hr).1⟩) n
  by_cases hok : (setupProviderPolicyRoute cfg p env k).1 = .ok ()
  · rw [setup_ok hok]
    exact (hdrain 16).trans (rearranged_insertBy (Or.inr ⟨p, hp, rfl⟩))
  · obtain ⟨n, hn⟩ := setup_failed hok
    rw [hn]
    exact hdrain n

theorem rearranged_run {ss : List (Provider × Env)} (hss : ∀ s ∈ ss, s.1 ∈ cfg.providers) :
    Rearranged cfg k.rules (run cfg ss k).rules := by
  induction ss generalizing k with
  | nil => exact ⟨id, fun r hr _ _ => hr, fun r hr => Or.inl hr⟩
  | cons s ss ih =>
    exact (rearranged_setup (hss s (List.mem_cons_self ..)) s.2 k).trans
      (ih fun s' hs' => hss s' (List.mem_cons_of_mem s hs'))

theorem suppressSelects_pref {r : IpRule} (h : suppressSelects cfg r = true) :
    r.pref = cfg.suppressPref := by
  simp only [suppressSelects, decide_eq_true_eq] at h
  exact h.1

theorem deleteSuppress_drain (delInvoked : ℕ → Bool) (cfg : Config) (tries i : ℕ)
    (rules : List IpRule) : ∃ n, (deleteSuppress delInvoked cfg tries i rules).2 =
      drain (suppressSelects cfg) n rules := by
  induction tries generalizing i rules with
  | zero => exact ⟨0, rfl⟩
  | succ tries ih =>
    unfold deleteSuppress
    split_ifs
    · obtain ⟨n, hn⟩ := ih (i + 1) (rules.eraseP (suppressSelects cfg))
      exact ⟨n + 1, hn⟩
    · exact ⟨0, rfl⟩
    · exact ⟨0, rfl⟩

/-- What the set-up of the rule does: some deletions, and the addition if it succeeds. -/
theorem setupSuppressRule_spec (cfg : Config) (env : SuppressEnv) (k : Kernel) :
    (setupSuppressRule cfg env k).2.defaults = k.defaults ∧
      ∃ n, (setupSuppressRule cfg env k).2.rules =
        if (setupSuppressRule cfg env k).1.isOk then
          insertBy (fun r => r.pref.toNat) (suppressRule cfg)
            (drain (suppressSelects cfg) n k.rules)
        else drain (suppressSelects cfg) n k.rules := by
  obtain ⟨n, hn⟩ := deleteSuppress_drain env.delInvoked cfg 16 0 k.rules
  unfold setupSuppressRule
  cases hloop : deleteSuppress env.delInvoked cfg 16 0 k.rules with
  | mk r rules =>
    rw [hloop] at hn
    subst hn
    cases r with
    | error e => exact ⟨rfl, n, rfl⟩
    | ok u => cases hadd : env.add <;> exact ⟨rfl, n, rfl⟩

theorem rearranged_suppress (cfg : Config) (env : SuppressEnv) (k : Kernel) :
    Rearranged cfg k.rules (setupSuppressRule cfg env k).2.rules := by
  obtain ⟨-, n, hn⟩ := setupSuppressRule_spec cfg env k
  have hdrain : Rearranged cfg k.rules (drain (suppressSelects cfg) n k.rules) :=
    rearranged_drain (fun r hr => Or.inl (suppressSelects_pref hr)) n
  rw [hn]
  split_ifs
  · exact hdrain.trans (rearranged_insertBy (Or.inl rfl))
  · exact hdrain

theorem atPref_suppress (hacc : cfg.Accepted) (hp : p ∈ cfg.providers) (env : SuppressEnv)
    (k : Kernel) : atPref cfg p (setupSuppressRule cfg env k).2.rules = atPref cfg p k.rules := by
  have hne : cfg.suppressPref ≠ cfg.rulePrefFor p :=
    UInt32.ne_of_lt ((Config.routingIds hacc).suppressBelow p hp)
  obtain ⟨-, n, hn⟩ := setupSuppressRule_spec cfg env k
  have hdrain : atPref cfg p (drain (suppressSelects cfg) n k.rules) = atPref cfg p k.rules :=
    filter_drain (fun r hr hsel => hne ((suppressSelects_pref hsel).symm.trans (by simpa using hr))) n
      k.rules
  rw [hn]
  split_ifs
  · exact (filter_insertBy_of_not (by simp [suppressRule, hne])).trans hdrain
  · exact hdrain

/-! ## Where packets go -/

/-- The kernel is as a start leaves it that could set the provider up. -/
structure Serves (cfg : Config) (p : Provider) (k : Kernel) : Prop where
  stock : Stock cfg k.rules
  suppress : suppressRule cfg ∈ k.rules
  own : atPref cfg p k.rules = [(selectorFor cfg p).rule]
  route : k.defaults (cfg.tableFor p) = some (p.gateway, p.interface)

/-- A route of the main table that is no default route. -/
def specific (t : Tables) (dst : BitVec 32) : Option (Route 32 Hop) :=
  (lookup t.main dst).filter fun x => 0 < x.dst.length

theorem meets_of_mask_eq_zero {r : IpRule} (hmask : r.mask = 0)
    (hothers : r.others = "" ∨ r.others = suppressWords) (pkt : Packet) : pkt.meets r = true := by
  simp only [Packet.meets, Packet.passes, Rule.selects, IpRule.rule, hmask, Bool.and_eq_true,
    decide_eq_true_eq]
  exact ⟨hothers.imp id Or.inl, by simp⟩

theorem answer_local (k : Kernel) (t : Tables) (pkt : Packet) :
    k.answer t pkt localRule = lookup t.local pkt.dst := by
  rw [Kernel.answer, if_pos (meets_of_mask_eq_zero rfl (Or.inl rfl) pkt)]
  cases h : lookup t.local pkt.dst <;>
    simp [Rule.answer, IpRule.rule, localRule, Kernel.table, suppressWords, h]

theorem answer_main (k : Kernel) (t : Tables) (pkt : Packet) :
    k.answer t pkt mainRule = lookup t.main pkt.dst := by
  rw [Kernel.answer, if_pos (meets_of_mask_eq_zero rfl (Or.inl rfl) pkt)]
  cases h : lookup t.main pkt.dst <;>
    simp [Rule.answer, IpRule.rule, mainRule, mainTable, localTable, Kernel.table, suppressWords, h]

theorem answer_suppress (cfg : Config) (k : Kernel) (t : Tables) (pkt : Packet) :
    k.answer t pkt (suppressRule cfg) = specific t pkt.dst := by
  rw [Kernel.answer, if_pos (meets_of_mask_eq_zero rfl (Or.inr rfl) pkt)]
  cases h : lookup t.main pkt.dst <;>
    simp [Rule.answer, IpRule.rule, suppressRule, mainTable, localTable, Kernel.table, specific, h]

theorem answer_of_not_meets {r : IpRule} (h : pkt.meets r = false) : k.answer t pkt r = none := by
  simp [Kernel.answer, h]

theorem xor_and_eq_zero_iff {x y m : BitVec 32} : (x ^^^ y) &&& m = 0 ↔ x &&& m = y &&& m := by
  have hdistrib : (x ^^^ y) &&& m = (x &&& m) ^^^ (y &&& m) := by
    ext i hi
    simp only [BitVec.getElem_and, BitVec.getElem_xor, Bool.and_xor_distrib_right]
  rw [hdistrib]
  exact BitVec.xor_eq_zero_iff

theorem carries_of_meets {r : IpRule} (hcurrent : Current cfg q r) (h : pkt.meets r = true) :
    Pin.Carries cfg q pkt.mark := by
  simp only [Packet.meets, Bool.and_eq_true, Rule.selects, IpRule.rule, hcurrent.1, hcurrent.2.1,
    decide_eq_true_eq] at h
  exact xor_and_eq_zero_iff.mp h.2

theorem answer_own (hacc : cfg.Accepted) (hp : p ∈ cfg.providers) (hserves : Serves cfg p k)
    (hcarries : Pin.Carries cfg p pkt.mark) :
    k.answer t pkt (selectorFor cfg p).rule = some (defaultVia (p.gateway, p.interface)) := by
  have hmeets : pkt.meets (selectorFor cfg p).rule = true := by
    simp only [Packet.meets, Packet.passes, Rule.selects, IpRule.rule, Selector.rule, selectorFor,
      Bool.and_eq_true, decide_eq_true_eq]
    exact ⟨Or.inl trivial, decide_eq_true (xor_and_eq_zero_iff.mpr hcarries)⟩
  have hfree := (Config.routingIds hacc).tableFree p hp
  simp only [List.mem_cons, not_or] at hfree
  have htable : k.table t (cfg.tableFor p) = [defaultVia (p.gateway, p.interface)] := by
    simp [Kernel.table, localTable, mainTable, hfree.2.2.1, hfree.2.2.2.1, hserves.route]
  rw [Kernel.answer, if_pos hmeets]
  simp only [Rule.answer, IpRule.rule, Selector.rule, selectorFor, htable]
  rw [lookup_default rfl]
  simp [suppressWords, Option.filter]

/-- The kernel's own rules are outside of the daemon's preferences, and the suppressing one is below
those of the providers. -/
theorem prefs_order (hacc : cfg.Accepted) : localRule.pref.toNat < cfg.suppressPref.toNat ∧
    (∀ q ∈ cfg.providers, cfg.suppressPref.toNat < (cfg.rulePrefFor q).toNat ∧
      (cfg.rulePrefFor q).toNat < mainRule.pref.toNat) ∧
    cfg.suppressPref.toNat < mainRule.pref.toNat := by
  obtain ⟨-, -, -, hlow, hhigh⟩ := Config.routing_bounds (Config.accepted_iff.mp hacc).2.2.1
  have hids := Config.routingIds hacc
  have hsuppress : cfg.suppressPref.toNat = cfg.routing.rulePref.toNat - 1 := by
    rw [Config.suppressPref, UInt32.toNat_saturatingSub]
    rfl
  have hzero : localRule.pref.toNat = 0 := rfl
  have hmain : mainRule.pref.toNat = 32766 := rfl
  refine ⟨by omega, fun q hq => ⟨UInt32.lt_iff_toNat_lt.mp (hids.suppressBelow q hq), ?_⟩, by omega⟩
  exact UInt32.lt_iff_toNat_lt.mp (hids.prefRange q hq).2

/-- Of the rules below the suppressing one, the kernel's first alone answers. -/
theorem answers_below (hacc : cfg.Accepted) (hstock : Stock cfg k.rules)
    (hfree : Uncontested cfg pkt k.rules) :
    (k.rules.filter fun r => r.pref.toNat < cfg.suppressPref.toNat).findSome? (k.answer t pkt) =
      lookup t.local pkt.dst := by
  obtain ⟨hlocal, hproviders, hmain⟩ := prefs_order hacc
  rw [findSome?_eq_of_unique (List.mem_filter.mpr ⟨hstock.local, decide_eq_true hlocal⟩),
    answer_local]
  intro r hr hne
  obtain ⟨hr, hpref⟩ := List.mem_filter.mp hr
  have hpref := of_decide_eq_true hpref
  cases hmeets : pkt.meets r with
  | false => exact answer_of_not_meets hmeets
  | true =>
    rcases hfree r hr hmeets with rfl | rfl | rfl | ⟨q, hq, hrq⟩ | habove
    · exact absurd rfl hne
    · exact absurd hpref (Nat.lt_irrefl _)
    · exact absurd hpref (Nat.lt_asymm hmain)
    · exact absurd hpref (hrq ▸ Nat.lt_asymm (hproviders q hq).1)
    · exact absurd hpref (Nat.lt_asymm (hmain.trans habove))

theorem answers_at (hacc : cfg.Accepted) (hsuppress : suppressRule cfg ∈ k.rules)
    (hfree : Uncontested cfg pkt k.rules) :
    (k.rules.filter fun r => r.pref.toNat = cfg.suppressPref.toNat).findSome? (k.answer t pkt) =
      specific t pkt.dst := by
  obtain ⟨hlocal, hproviders, hmain⟩ := prefs_order hacc
  rw [findSome?_eq_of_unique (List.mem_filter.mpr ⟨hsuppress, decide_eq_true rfl⟩),
    answer_suppress]
  intro r hr hne
  obtain ⟨hr, hpref⟩ := List.mem_filter.mp hr
  have hpref := of_decide_eq_true hpref
  cases hmeets : pkt.meets r with
  | false => exact answer_of_not_meets hmeets
  | true =>
    rcases hfree r hr hmeets with rfl | rfl | rfl | ⟨q, hq, hrq⟩ | habove
    · exact absurd hpref (Nat.ne_of_lt hlocal)
    · exact absurd rfl hne
    · exact absurd hpref (Nat.ne_of_gt hmain)
    · exact absurd hpref (hrq ▸ Nat.ne_of_gt (hproviders q hq).1)
    · exact absurd hpref (Nat.ne_of_gt (hmain.trans habove))

/-- Between the suppressing rule and a preference `c` there are rules of providers only; where none
of them selects the packet, none answers. -/
theorem answers_between (hfree : Uncontested cfg pkt k.rules) (hacc : cfg.Accepted) {c : ℕ}
    (hc : c ≤ mainRule.pref.toNat)
    (hnone : ∀ q ∈ cfg.providers, (cfg.rulePrefFor q).toNat < c → ¬ Pin.Carries cfg q pkt.mark)
    (htidy : ∀ q ∈ cfg.providers, Tidy cfg q k.rules) :
    ((k.rules.filter fun r => cfg.suppressPref.toNat < r.pref.toNat).filter
      fun r => r.pref.toNat < c).findSome? (k.answer t pkt) = none := by
  obtain ⟨hlocal, -, -⟩ := prefs_order hacc
  refine List.findSome?_eq_none_iff.mpr fun r hr => ?_
  obtain ⟨hr, hbelow⟩ := List.mem_filter.mp hr
  obtain ⟨hr, habove⟩ := List.mem_filter.mp hr
  have hbelow := of_decide_eq_true hbelow
  have habove := of_decide_eq_true habove
  cases hmeets : pkt.meets r with
  | false => exact answer_of_not_meets hmeets
  | true =>
    rcases hfree r hr hmeets with rfl | rfl | rfl | ⟨q, hq, hrq⟩ | hmain
    · exact absurd habove (Nat.lt_asymm hlocal)
    · exact absurd habove (Nat.lt_irrefl _)
    · exact absurd (hbelow.trans_le hc) (Nat.lt_irrefl _)
    · have hcurrent := (htidy q hq).current r (mem_atPref.mpr ⟨hr, hrq⟩)
      exact absurd (carries_of_meets hcurrent hmeets) (hnone q hq (hrq ▸ hbelow))
    · exact absurd (hbelow.trans_le hc) (Nat.lt_asymm hmain)

/-- **A packet with a provider's mark** goes out by that provider's gateway, unless it is for the
gateway itself or the main table has something more exact than a default route. -/
theorem route_marked (hacc : cfg.Accepted) (hmarks : Pin.WellMarked cfg) (hp : p ∈ cfg.providers)
    (hserves : Serves cfg p k) (hfree : Uncontested cfg pkt k.rules)
    (hcarries : Pin.Carries cfg p pkt.mark) :
    routePacket k t pkt = ((lookup t.local pkt.dst).or (specific t pkt.dst)).or
      (some (defaultVia (p.gateway, p.interface))) := by
  obtain ⟨hlocal, hproviders, hmain⟩ := prefs_order hacc
  have hsorted := hserves.stock.sorted
  have hown : ((k.rules.filter fun r => cfg.suppressPref.toNat < r.pref.toNat).filter
      fun r => r.pref.toNat = (cfg.rulePrefFor p).toNat) = [(selectorFor cfg p).rule] := by
    rw [← hserves.own, atPref, List.filter_filter]
    refine List.filter_congr fun r _ => ?_
    by_cases hr : r.pref = cfg.rulePrefFor p
    · simp [hr, (hproviders p hp).1]
    · simp [hr, UInt32.toNat_inj]
  have hnone : ∀ q ∈ cfg.providers, (cfg.rulePrefFor q).toNat < (cfg.rulePrefFor p).toNat →
      ¬ Pin.Carries cfg q pkt.mark := by
    intro q hq hlt hcq
    obtain rfl := hmarks.selects hp hq hcarries hcq
    exact Nat.lt_irrefl _ hlt
  rw [routePacket_eq, findSome?_split hsorted cfg.suppressPref.toNat,
    answers_below hacc hserves.stock hfree, answers_at hacc hserves.suppress hfree,
    findSome?_split (hsorted.filter _) (cfg.rulePrefFor p).toNat,
    answers_between hfree hacc (hproviders p hp).2.le hnone hserves.stock.tidy, hown]
  simp [answer_own hacc hp hserves hcarries]

/-- **A packet without a mark** goes where the main table sends it. -/
theorem route_unmarked (hacc : cfg.Accepted) (hmarks : Pin.WellMarked cfg)
    (hstock : Stock cfg k.rules) (hsuppress : suppressRule cfg ∈ k.rules)
    (hfree : Uncontested cfg pkt k.rules) (hmark : pkt.mark &&& Pin.mask cfg = 0)
    {x : Route 32 Hop} (hx : (lookup t.local pkt.dst).or (lookup t.main pkt.dst) = some x) :
    routePacket k t pkt = some x := by
  obtain ⟨hlocal, hproviders, hmain⟩ := prefs_order hacc
  have hnone : ∀ q ∈ cfg.providers, ¬ Pin.Carries cfg q pkt.mark := fun q hq hcq =>
    hmarks.nonzero q hq (hcq.symm.trans hmark)
  have hat : ((k.rules.filter fun r => cfg.suppressPref.toNat < r.pref.toNat).filter
      fun r => r.pref.toNat = mainRule.pref.toNat).findSome? (k.answer t pkt) =
        lookup t.main pkt.dst := by
    rw [findSome?_eq_of_unique (List.mem_filter.mpr ⟨List.mem_filter.mpr
      ⟨hstock.main, decide_eq_true hmain⟩, decide_eq_true rfl⟩), answer_main]
    intro r hr hne
    obtain ⟨hr, hpref⟩ := List.mem_filter.mp hr
    have hpref := of_decide_eq_true hpref
    cases hmeets : pkt.meets r with
    | false => exact answer_of_not_meets hmeets
    | true =>
      rcases hfree r (List.mem_of_mem_filter hr) hmeets with rfl | rfl | rfl | ⟨q, hq, hrq⟩ | habove
      · exact absurd hpref (Nat.ne_of_lt (hlocal.trans hmain))
      · exact absurd hpref (Nat.ne_of_lt hmain)
      · exact absurd rfl hne
      · exact absurd hpref (hrq ▸ Nat.ne_of_lt (hproviders q hq).2)
      · exact absurd hpref (Nat.ne_of_gt habove)
  rw [routePacket_eq, findSome?_split hstock.sorted cfg.suppressPref.toNat,
    answers_below hacc hstock hfree, answers_at hacc hsuppress hfree,
    findSome?_split (hstock.sorted.filter _) mainRule.pref.toNat,
    answers_between hfree hacc (Nat.le_refl _) (fun q hq _ => hnone q hq) hstock.tidy, hat]
  cases hl : lookup t.local pkt.dst with
  | some y =>
    rw [hl] at hx
    simpa using hx
  | none =>
    rw [hl, Option.none_or] at hx
    by_cases hlong : 0 < x.dst.length <;> simp [specific, hx, hlong, Option.filter]

/-! ## After a start -/

theorem defaults_setup_of_ne {table : UInt32} (hne : table ≠ cfg.tableFor q) (env : Env)
    (k : Kernel) : (setupProviderPolicyRoute cfg q env k).2.defaults table = k.defaults table := by
  have hupdate : Function.update k.defaults (cfg.tableFor q) (some (q.gateway, q.interface)) table =
      k.defaults table := Function.update_of_ne hne _ _
  rw [show cfg.tableFor q = (selectorFor cfg q).table from rfl] at hupdate
  unfold setupProviderPolicyRoute
  cases hroute : env.route with
  | notInvoked | failed stderr => rfl
  | done =>
    cases hloop : deleteStale env.delInvoked (selectorFor cfg q) 16 0 k.rules with
    | mk r rules =>
      cases r with
      | error e => simpa only [hloop] using hupdate
      | ok u => cases hadd : env.add <;> simpa only [hloop] using hupdate

theorem defaults_run_of_ne {table : UInt32} {ss : List (Provider × Env)}
    (hss : ∀ s ∈ ss, table ≠ cfg.tableFor s.1) :
    (run cfg ss k).defaults table = k.defaults table := by
  induction ss generalizing k with
  | nil => rfl
  | cons s ss ih =>
    exact (ih fun s' hs' => hss s' (List.mem_cons_of_mem s hs')).trans
      (defaults_setup_of_ne (hss s (List.mem_cons_self ..)) s.2 k)

theorem mem_run {ss : List (Provider × Env)} {r : IpRule} (hr : r ∈ k.rules)
    (hss : ∀ s ∈ ss, r.pref ≠ cfg.rulePrefFor s.1) : r ∈ (run cfg ss k).rules := by
  induction ss generalizing k with
  | nil => exact hr
  | cons s ss ih =>
    refine ih ?_ fun s' hs' => hss s' (List.mem_cons_of_mem s hs')
    have hmem : r ∈ elsewhere cfg s.1 k.rules :=
      List.mem_filter.mpr ⟨hr, decide_eq_true (hss s (List.mem_cons_self ..))⟩
    rw [← elsewhere_setup cfg s.1 s.2 k] at hmem
    exact List.mem_of_mem_filter hmem

theorem defaults_of_start (hacc : cfg.Accepted) (hp : p ∈ cfg.providers) {env : Provider → Env}
    (hset : p.name ∉ (setupPolicyRouting cfg env k).1) :
    (setupPolicyRouting cfg env k).2.defaults (cfg.tableFor p) =
      some (p.gateway, p.interface) := by
  obtain ⟨pre, post, hsplit⟩ := List.append_of_mem hp
  have hnodup : (pre ++ p :: post).Nodup := hsplit ▸ (Config.names_nodup hacc).of_map _
  have htables := (Config.routingIds hacc).tablesDistinct
  rw [setupPolicyRouting, hsplit] at hset ⊢
  have hok := setup_ok_of_not_pending env hset
  rw [setupAll_snd, List.map_append, List.map_cons, run_append, run]
  refine (defaults_run_of_ne ?_).trans ?_
  · simp only [List.mem_map]
    rintro s ⟨q, hq, rfl⟩ heq
    have hqin : q ∈ cfg.providers := hsplit ▸ List.mem_append_right _ (List.mem_cons_of_mem p hq)
    obtain rfl := List.inj_on_of_nodup_map htables hp hqin heq
    exact (List.nodup_cons.mp hnodup.of_append_right).1 hq
  · rw [setup_ok hok]
    exact Function.update_self _ _ _

/-- What a start leaves that could set the provider up, and the retries of others since. -/
def Started (cfg : Config) (p : Provider) (before after : Kernel) : Prop :=
  ∃ env senv retries, p.name ∉ (setupPolicyRouting cfg env before).1 ∧
    (setupSuppressRule cfg senv (setupPolicyRouting cfg env before).2).1 = .ok () ∧
    (∀ s ∈ retries, s.1 ∈ cfg.providers ∧ s.1 ≠ p) ∧
    after = run cfg retries (setupSuppressRule cfg senv (setupPolicyRouting cfg env before).2).2

theorem Started.rearranged {k' : Kernel} (h : Started cfg p k k') :
    Rearranged cfg k.rules k'.rules := by
  obtain ⟨env, senv, retries, -, -, hretries, rfl⟩ := h
  have hall : ∀ s ∈ cfg.providers.map fun p => (p, env p), s.1 ∈ cfg.providers := by
    simp only [List.mem_map]
    rintro s ⟨q, hq, rfl⟩
    exact hq
  have hfirst := rearranged_run (k := k) hall
  rw [← setupAll_snd env cfg.providers k] at hfirst
  exact (hfirst.trans (rearranged_suppress cfg senv _)).trans
    (rearranged_run fun s hs => (hretries s hs).1)

theorem Stock.rearranged (hacc : cfg.Accepted) {after : List IpRule} (h : Stock cfg rules)
    (hre : Rearranged cfg rules after) (htidy : ∀ p ∈ cfg.providers, Tidy cfg p after) :
    Stock cfg after := by
  obtain ⟨hlocal, hproviders, hmain⟩ := prefs_order hacc
  refine ⟨hre.sorted h.sorted, ?_, ?_, htidy⟩
  · refine hre.kept _ h.local (fun q hq heq => ?_) fun heq => ?_
    · rw [heq] at hlocal
      exact Nat.lt_asymm hlocal (hproviders q hq).1
    · exact absurd hlocal (heq ▸ Nat.lt_irrefl _)
  · refine hre.kept _ h.main (fun q hq heq => ?_) fun heq => ?_
    · exact absurd (hproviders q hq).2 (heq ▸ Nat.lt_irrefl _)
    · exact absurd hmain (heq ▸ Nat.lt_irrefl _)

theorem Started.tidy (hacc : cfg.Accepted) {k' : Kernel} (h : Started cfg p k k')
    (hstock : Stock cfg k.rules) (hq : q ∈ cfg.providers) : Tidy cfg q k'.rules := by
  obtain ⟨env, senv, retries, -, -, hretries, rfl⟩ := h
  refine Tidy.run hacc hq (fun s hs => (hretries s hs).1) ?_
  refine Tidy.congr (atPref_suppress hacc hq senv _) ?_
  rw [setupPolicyRouting, setupAll_snd]
  refine (hstock.tidy q hq).run hacc hq ?_
  simp only [List.mem_map]
  rintro s ⟨q, hq, rfl⟩
  exact hq

/-- **A start puts everything in its place.** -/
theorem Started.serves (hacc : cfg.Accepted) (hp : p ∈ cfg.providers) {k' : Kernel}
    (h : Started cfg p k k') (hstock : Stock cfg k.rules) : Serves cfg p k' := by
  have hstock' := hstock.rearranged hacc h.rearranged fun q hq => h.tidy hacc hstock hq
  obtain ⟨env, senv, retries, hset, hsuppress, hretries, rfl⟩ := h
  have hids := Config.routingIds hacc
  have hprefs : ∀ s ∈ retries, cfg.rulePrefFor p ≠ cfg.rulePrefFor s.1 := fun s hs heq =>
    (hretries s hs).2 (List.inj_on_of_nodup_map hids.prefsDistinct (hretries s hs).1 hp heq.symm)
  have htables : ∀ s ∈ retries, cfg.tableFor p ≠ cfg.tableFor s.1 := fun s hs heq =>
    (hretries s hs).2 (List.inj_on_of_nodup_map hids.tablesDistinct (hretries s hs).1 hp heq.symm)
  obtain ⟨hdefaults, n, hrules⟩ :=
    setupSuppressRule_spec cfg senv (setupPolicyRouting cfg env k).2
  refine ⟨hstock', ?_, ?_, ?_⟩
  · refine mem_run ?_ fun s hs heq => ?_
    · rw [hrules, hsuppress]
      exact mem_insertBy.mpr (Or.inl rfl)
    · have hlt := UInt32.lt_iff_toNat_lt.mp (hids.suppressBelow s.1 (hretries s hs).1)
      exact absurd hlt (heq ▸ Nat.lt_irrefl _)
  · rw [atPref_run_of_ne hprefs, atPref_suppress hacc hp]
    exact setupPolicyRouting_own hacc hp env hset (hstock.tidy p hp)
  · rw [defaults_run_of_ne htables, hdefaults]
    exact defaults_of_start hacc hp hset

/-! ## Connections -/

section Flows

open Netfilter Transition Pin

variable {s s' : Flows} {es : List FlowEvent} {conn : ℕ} {d : Direction} {nfmark : BitVec 32}
  {m : Marks 32}

/-- A packet of a stamped connection leaves the chain with the stamp, and a reply as it came. -/
theorem crossing_of_stampedAs (husable : Usable cfg) (hwritten : Written cfg s.chain)
    (hrun : Run (Flows.step cfg) s es s') {mark : BitVec 32} (h : StampedAs cfg conn mark s es)
    (hm : s'.crossing conn d nfmark = some m) :
    match d with
    | .original => m.packet &&& mask cfg = mark
    | .reply => m.packet = nfmark := by
  have hchain := hrun.preserves (fun _ _ _ hI hstep => Written.step hI hstep) hwritten
  obtain ⟨hstamp, hmark, hne⟩ := h.stamp husable hwritten hrun
  obtain ⟨c, hc, rfl⟩ := stamp_eq_some_iff.mp hstamp
  rw [Flows.crossing, hc, Option.map_some] at hm
  cases hm
  cases d with
  | original =>
    obtain ⟨q, -, hrules⟩ := hchain.resolve_left hne
    have hsame := traverse_written_stamped hchain .original ⟨nfmark, c⟩ hmark
    show (traverse .original s'.chain _).packet &&& mask cfg = _
    rw [hrules, traverse_rules_packet, ← hrules, hsame]
  | reply => exact congrArg Marks.packet (traverse_written_reply hchain _)

theorem usable_of_wellMarked (h : WellMarked cfg) : Usable cfg := by
  refine fun p hp => ⟨fun hzero => h.nonzero p hp ?_, h.inside p hp⟩
  rw [hzero]
  exact BitVec.zero_and

/-- **A connection is routed by the provider that stamped it**, for as long as it is tracked,
whichever providers the chain is written for since; what is for the gateway itself, or for what the
main table knows more exactly, stays there, and replies are not routed by any mark. -/
theorem pinned_route (hacc : cfg.Accepted) (hmarks : WellMarked cfg) (hp : p ∈ cfg.providers)
    {k' : Kernel} (hstock : Stock cfg k.rules) (hstarted : Started cfg p k k')
    (hwritten : Written cfg s.chain) (hrun : Run (Flows.step cfg) s es s')
    (hstamped : StampedAs cfg conn ((cfg.markFor p).toBitVec &&& mask cfg) s es)
    (hm : s'.crossing conn d nfmark = some m) (hpkt : pkt.mark = m.packet)
    (hfree : Uncontested cfg pkt k.rules) :
    match d with
    | .original => routePacket k' t pkt = ((lookup t.local pkt.dst).or (specific t pkt.dst)).or
        (some (defaultVia (p.gateway, p.interface)))
    | .reply => nfmark &&& mask cfg = 0 →
        ∀ x, (lookup t.local pkt.dst).or (lookup t.main pkt.dst) = some x →
          routePacket k' t pkt = some x := by
  have hserves := hstarted.serves hacc hp hstock
  have hfree' := hfree.rearranged hstarted.rearranged
  have hleaves := crossing_of_stampedAs (usable_of_wellMarked hmarks) hwritten hrun hstamped hm
  cases d with
  | original =>
    refine route_marked hacc hmarks hp hserves hfree' ?_
    rw [hpkt]
    exact hleaves
  | reply =>
    intro hzero x hx
    refine route_unmarked hacc hmarks hserves.stock hserves.suppress hfree' ?_ hx
    rw [hpkt, show m.packet = nfmark from hleaves]
    exact hzero

/-- A kernel that has no rules but its own. -/
def fresh : Kernel := ⟨[localRule, mainRule], fun _ => none⟩

/-- Its rules once the three providers are set up. -/
def threeStarted : Kernel :=
  (setupSuppressRule threeUplinks ⟨fun _ => true, .done⟩
    (setupPolicyRouting threeUplinks (fun _ => allDone) fresh).2).2

theorem stock_fresh : Stock threeUplinks fresh.rules where
  sorted := by decide
  «local» := by decide
  main := by decide
  tidy p hp := by
    have hnone : ∀ p ∈ threeUplinks.providers, atPref threeUplinks p fresh.rules = [] := by decide
    exact ⟨fun r hr => absurd hr (by rw [hnone p hp]; exact List.not_mem_nil),
      by rw [hnone p hp]; decide⟩

theorem started_three : Started threeUplinks threeUplinks.providers[0] fresh threeStarted :=
  ⟨fun _ => allDone, ⟨fun _ => true, .done⟩, [], by decide +kernel, by decide +kernel,
    fun _ hs => absurd hs List.not_mem_nil, rfl⟩

/-- The next packet of the connection that is `stampedAs_rewritten`, to an address that the main
table knows by its default route. -/
theorem pinned_route_rewritten :
    routePacket threeStarted ⟨[], [defaultVia (.ofOctets 10 0 0 2, "wan")]⟩
      ⟨0x01010101, 0x200, fun _ => false⟩ =
        some (defaultVia (.ofOctets 10 0 0 1, "wan")) := by
  have hm : ((exec (Flows.step threeUplinks) untracked rewritten).get rewritten_enabled).crossing
      7 .original 0 = some ⟨0x200, 0x200⟩ := by decide
  have hfree : Uncontested threeUplinks ⟨0x01010101, 0x200, fun _ => false⟩ fresh.rules := by
    rintro r hr -
    rcases List.mem_pair.mp hr with rfl | rfl
    · exact Or.inl rfl
    · exact Or.inr (Or.inr (Or.inl rfl))
  exact pinned_route (by decide) (wellMarked_of_low (by decide) (k := 16) (by decide)) (by decide)
    stock_fresh started_three (Or.inl rfl) (run_get rewritten_enabled) stampedAs_rewritten hm rfl
    hfree

end Flows

end Vlb.PolicyRules
