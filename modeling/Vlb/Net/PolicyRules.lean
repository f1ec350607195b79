import Mathlib.Logic.Function.Basic
import Vlb.Lib.Drain
import Vlb.Net.Canary

/-!
# One routing rule for each provider

A probe is routed by its mark: at the preference of its provider a rule sends what bears the mark to
the provider's table. Setting a provider up replaces the default route of the table, deletes stale
rules at the preference, one a command, and adds the current one.

* `setupProviderPolicyRoute`, `setupPolicyRouting`: one provider, and all of them.
* `setup_ok`: what a successful set-up has done.
* `converged_iff`: when it leaves one rule at the preference.
* `Tidy.run`, `run_own`: any sequence of set-ups, from rules that the loop can clear.
-/

namespace Vlb.PolicyRules

open Drain

/-! ## The kernel -/

/-- A rule of the kernel. `others` is what else it selects by. -/
structure IpRule where
  pref : UInt32
  mark : UInt32
  mask : UInt32
  table : UInt32
  others : String := ""
  deriving DecidableEq

/-- What `pref P fwmark M/K lookup T` gives. -/
structure Selector where
  pref : UInt32
  mark : UInt32
  mask : UInt32
  table : UInt32
  deriving DecidableEq

namespace Selector

/-- The rule is one that the selector means. -/
def selects (s : Selector) (r : IpRule) : Bool :=
  r.pref = s.pref ∧ r.mark = s.mark ∧ r.mask = s.mask ∧ r.table = s.table

/-- The rule that it adds. -/
def rule (s : Selector) : IpRule where
  pref := s.pref
  mark := s.mark
  mask := s.mask
  table := s.table

end Selector

/-- The rules, in the order they are tried, and the default route of every table. -/
structure Kernel where
  rules : List IpRule
  defaults : UInt32 → Option (Ipv4Addr × String)

/-- `ip rule del`, which fails when no rule matches. -/
def ruleDel (s : Selector) (rules : List IpRule) : Option (List IpRule) :=
  if rules.any s.selects then some (rules.eraseP s.selects) else none

/-- `ip rule add`: after the rules of the same preference. -/
def ruleAdd (s : Selector) (rules : List IpRule) : List IpRule :=
  insertBy (fun r => r.pref.toNat) s.rule rules

/-! ## Setting up -/

/-- How a command ends. -/
inductive Outcome
  | notInvoked
  | failed (stderr : String)
  | done
  deriving DecidableEq

/-- How the commands of one set-up end: a deletion can fail in the kernel for one reason, which the
rules decide. -/
structure Env where
  route : Outcome
  delInvoked : ℕ → Bool
  add : Outcome

/-- One provider's rule, as its configuration has it. -/
def selectorFor (cfg : Config) (p : Provider) : Selector where
  pref := cfg.rulePrefFor p
  mark := cfg.markFor p
  mask := cfg.routing.fwmarkMask
  table := cfg.tableFor p

/-- The mark and the mask, as `ip` is told. -/
def markFilterFor (cfg : Config) (p : Provider) : String :=
  Text.hexString (cfg.markFor p).toNat ++ "/" ++ Text.hexString cfg.routing.fwmarkMask.toNat

/-- The loop that deletes; the last argument but one counts the commands. -/
def deleteStale (delInvoked : ℕ → Bool) (s : Selector) :
    ℕ → ℕ → List IpRule → Except String Unit × List IpRule
  | 0, _, rules => (.ok (), rules)
  | tries + 1, i, rules =>
    if delInvoked i then
      match ruleDel s rules with
      | some rules' => deleteStale delInvoked s tries (i + 1) rules'
      | none => (.ok (), rules)
    else (.error "failed to invoke `ip rule del`", rules)

/-- The route of the table, then the rule. -/
def setupProviderPolicyRoute (cfg : Config) (p : Provider) (env : Env) (k : Kernel) :
    Except String Unit × Kernel :=
  let s := selectorFor cfg p
  match env.route with
  | .notInvoked => (.error "failed to invoke `ip route replace` for per-provider table", k)
  | .failed stderr =>
    (.error ("`ip route replace default via " ++ p.gateway.display ++ " dev " ++ p.interface ++
      " table " ++ toString s.table ++ "` failed: " ++ String.ofList (Text.trim stderr.toList)), k)
  | .done =>
    let defaults := Function.update k.defaults s.table (some (p.gateway, p.interface))
    match deleteStale env.delInvoked s 16 0 k.rules with
    | (.error e, rules) => (.error e, { rules, defaults })
    | (.ok (), rules) =>
      match env.add with
      | .notInvoked => (.error "failed to invoke `ip rule add`", { rules, defaults })
      | .failed _ =>
        (.error ("failed to add ip rule: fwmark " ++ markFilterFor cfg p ++ " lookup " ++
          toString s.table ++ " pref " ++ toString s.pref), { rules, defaults })
      | .done => (.ok (), { rules := ruleAdd s rules, defaults })

/-- The set-ups of the providers in turn, with the names of those that failed. -/
def setupAll (cfg : Config) (env : Provider → Env) : List Provider → Kernel → List String × Kernel
  | [], k => ([], k)
  | p :: ps, k =>
    let (r, k) := setupProviderPolicyRoute cfg p (env p) k
    let (pending, k) := setupAll cfg env ps k
    match r with
    | .ok () => (pending, k)
    | .error _ => (p.name :: pending, k)

/-- All providers; the names of those that failed. -/
def setupPolicyRouting (cfg : Config) (env : Provider → Env) (k : Kernel) : List String × Kernel :=
  setupAll cfg env cfg.providers k

/-! ## What a set-up does -/

variable {cfg : Config} {p q : Provider} {env : Env} {k : Kernel} {rules : List IpRule}

theorem ruleDel_eq_none_iff {s : Selector} :
    ruleDel s rules = none ↔ ∀ r ∈ rules, ¬ s.selects r = true := by
  simp [ruleDel]

theorem eraseP_of_ruleDel {s : Selector} {rules' : List IpRule} (h : ruleDel s rules = some rules') :
    rules' = rules.eraseP s.selects := by
  unfold ruleDel at h
  split_ifs at h
  exact (Option.some.inj h).symm

theorem deleteStale_drain (delInvoked : ℕ → Bool) (s : Selector) (tries i : ℕ) (rules : List IpRule) :
    ∃ n, (deleteStale delInvoked s tries i rules).2 = drain s.selects n rules := by
  induction tries generalizing i rules with
  | zero => exact ⟨0, rfl⟩
  | succ tries ih =>
    unfold deleteStale
    split_ifs with hinvoked
    · cases hdel : ruleDel s rules with
      | none => exact ⟨0, rfl⟩
      | some rules' =>
        obtain ⟨n, hn⟩ := ih (i + 1) rules'
        refine ⟨n + 1, ?_⟩
        rw [drain, ← eraseP_of_ruleDel hdel]
        exact hn
    · exact ⟨0, rfl⟩

theorem deleteStale_ok {delInvoked : ℕ → Bool} {s : Selector} {tries i : ℕ}
    (h : (deleteStale delInvoked s tries i rules).1 = .ok ()) :
    (deleteStale delInvoked s tries i rules).2 = drain s.selects tries rules := by
  induction tries generalizing i rules with
  | zero => rfl
  | succ tries ih =>
    unfold deleteStale at h ⊢
    split_ifs at h ⊢ with hinvoked
    cases hdel : ruleDel s rules with
    | none => exact (drain_of_forall_not (ruleDel_eq_none_iff.mp hdel) (tries + 1)).symm
    | some rules' =>
      simp only [hdel] at h
      rw [drain, ← eraseP_of_ruleDel hdel]
      exact ih h

/-- **What a successful set-up has done**: sixteen deletions, and the addition. -/
theorem setup_ok (h : (setupProviderPolicyRoute cfg p env k).1 = .ok ()) :
    (setupProviderPolicyRoute cfg p env k).2 =
      { rules := ruleAdd (selectorFor cfg p) (drain (selectorFor cfg p).selects 16 k.rules)
        defaults := Function.update k.defaults (cfg.tableFor p) (some (p.gateway, p.interface)) } := by
  unfold setupProviderPolicyRoute at h ⊢
  cases hroute : env.route with
  | notInvoked | failed stderr => simp [hroute] at h
  | done =>
    simp only [hroute] at h ⊢
    cases hloop : deleteStale env.delInvoked (selectorFor cfg p) 16 0 k.rules with
    | mk r rules =>
      cases r with
      | error e => simp [hloop] at h
      | ok u =>
        have hrules := deleteStale_ok (congrArg Prod.fst hloop)
        rw [hloop] at hrules
        cases hadd : env.add with
        | notInvoked | failed stderr => simp [hloop, hadd] at h
        | done => rw [← hrules]; rfl

theorem setup_failed (h : (setupProviderPolicyRoute cfg p env k).1 ≠ .ok ()) :
    ∃ n, (setupProviderPolicyRoute cfg p env k).2.rules =
      drain (selectorFor cfg p).selects n k.rules := by
  obtain ⟨n, hn⟩ := deleteStale_drain env.delInvoked (selectorFor cfg p) 16 0 k.rules
  unfold setupProviderPolicyRoute at h ⊢
  cases hroute : env.route with
  | notInvoked | failed stderr => exact ⟨0, rfl⟩
  | done =>
    simp only [hroute] at h ⊢
    cases hloop : deleteStale env.delInvoked (selectorFor cfg p) 16 0 k.rules with
    | mk r rules =>
      rw [hloop] at hn
      cases r with
      | error e => exact ⟨n, hn⟩
      | ok u =>
        cases hadd : env.add with
        | notInvoked | failed stderr => exact ⟨n, hn⟩
        | done => simp [hloop, hadd] at h

/-! ## One set-up -/

/-- The rules at the preference of a provider. -/
def atPref (cfg : Config) (p : Provider) (rules : List IpRule) : List IpRule :=
  rules.filter fun r => r.pref = cfg.rulePrefFor p

/-- The rules at other preferences. -/
def elsewhere (cfg : Config) (p : Provider) (rules : List IpRule) : List IpRule :=
  rules.filter fun r => r.pref ≠ cfg.rulePrefFor p

/-- The rule has the mark, the mask and the table that the provider has now. -/
def Current (cfg : Config) (p : Provider) (r : IpRule) : Prop :=
  r.mark = cfg.markFor p ∧ r.mask = cfg.routing.fwmarkMask ∧ r.table = cfg.tableFor p

/-- One rule at the preference, the current one, and the others as they were. -/
structure Converged (cfg : Config) (p : Provider) (before after : List IpRule) : Prop where
  own : ∃ r, atPref cfg p after = [r] ∧ Current cfg p r
  others : elsewhere cfg p after = elsewhere cfg p before

/-- Rules that the loop can clear away: it names the whole selector, and it ends. -/
structure Tidy (cfg : Config) (p : Provider) (rules : List IpRule) : Prop where
  current : ∀ r ∈ atPref cfg p rules, Current cfg p r
  few : (atPref cfg p rules).length ≤ 16

theorem selects_iff {r : IpRule} :
    (selectorFor cfg p).selects r = true ↔ r.pref = cfg.rulePrefFor p ∧ Current cfg p r := by
  rw [Selector.selects, decide_eq_true_iff]
  rfl

theorem mem_atPref {r : IpRule} : r ∈ atPref cfg p rules ↔ r ∈ rules ∧ r.pref = cfg.rulePrefFor p := by
  simp [atPref]

theorem atPref_ruleAdd_iff {r : IpRule} :
    atPref cfg p (ruleAdd (selectorFor cfg p) rules) = [r] ↔
      r = (selectorFor cfg p).rule ∧ atPref cfg p rules = [] :=
  filter_insertBy_eq_singleton_iff (by simp [Selector.rule, selectorFor])

theorem atPref_drain_eq_nil_iff :
    atPref cfg p (drain (selectorFor cfg p).selects 16 rules) = [] ↔ Tidy cfg p rules := by
  have hsel : ∀ r, (selectorFor cfg p).selects r = true → decide (r.pref = cfg.rulePrefFor p) = true :=
    fun r hr => decide_eq_true (selects_iff.mp hr).1
  have hall : (∀ r ∈ rules, decide (r.pref = cfg.rulePrefFor p) = true →
      (selectorFor cfg p).selects r = true) ↔ ∀ r ∈ atPref cfg p rules, Current cfg p r := by
    simp only [mem_atPref, selects_iff, decide_eq_true_eq, and_imp]
    exact forall₃_congr fun r _ hr => and_iff_right hr
  rw [atPref, filter_drain_eq_nil_iff hsel, hall]
  constructor
  · rintro ⟨hcurrent, hfew⟩
    refine ⟨hcurrent, ?_⟩
    rw [atPref, ← List.countP_eq_length_filter]
    rwa [← List.countP_congr fun r hr => ⟨hsel r, hall.mpr hcurrent r hr⟩]
  · rintro ⟨hcurrent, hfew⟩
    refine ⟨hcurrent, ?_⟩
    rw [atPref, ← List.countP_eq_length_filter] at hfew
    rwa [List.countP_congr fun r hr => ⟨hsel r, hall.mpr hcurrent r hr⟩]

theorem elsewhere_drain (n : ℕ) :
    elsewhere cfg p (drain (selectorFor cfg p).selects n rules) = elsewhere cfg p rules := by
  refine filter_drain (fun r hr hsel => ?_) n rules
  simp only [decide_eq_true_eq] at hr
  exact hr (selects_iff.mp hsel).1

theorem elsewhere_ruleAdd :
    elsewhere cfg p (ruleAdd (selectorFor cfg p) rules) = elsewhere cfg p rules :=
  filter_insertBy_of_not (by simp [Selector.rule, selectorFor])

theorem elsewhere_setup (cfg : Config) (p : Provider) (env : Env) (k : Kernel) :
    elsewhere cfg p (setupProviderPolicyRoute cfg p env k).2.rules = elsewhere cfg p k.rules := by
  by_cases h : (setupProviderPolicyRoute cfg p env k).1 = .ok ()
  · rw [setup_ok h]
    exact elsewhere_ruleAdd.trans (elsewhere_drain 16)
  · obtain ⟨n, hn⟩ := setup_failed h
    rw [hn, elsewhere_drain]

/-- A successful set-up leaves the current rule alone at the preference when the rules there were
tidy. -/
theorem atPref_setup_iff (hok : (setupProviderPolicyRoute cfg p env k).1 = .ok ()) {r : IpRule} :
    atPref cfg p (setupProviderPolicyRoute cfg p env k).2.rules = [r] ↔
      r = (selectorFor cfg p).rule ∧ Tidy cfg p k.rules := by
  rw [setup_ok hok, atPref_ruleAdd_iff, atPref_drain_eq_nil_iff]

/-- **A successful set-up converges from tidy rules, and from no others.** -/
theorem converged_iff (cfg : Config) (p : Provider) (env : Env) (k : Kernel)
    (hok : (setupProviderPolicyRoute cfg p env k).1 = .ok ()) :
    Converged cfg p k.rules (setupProviderPolicyRoute cfg p env k).2.rules ↔ Tidy cfg p k.rules := by
  constructor
  · rintro ⟨⟨r, hr, -⟩, -⟩
    exact ((atPref_setup_iff hok).mp hr).2
  · intro htidy
    refine ⟨⟨(selectorFor cfg p).rule, (atPref_setup_iff hok).mpr ⟨rfl, htidy⟩, rfl, rfl, rfl⟩, ?_⟩
    exact elsewhere_setup cfg p env k

/-- Every command can be invoked, and those that the rules do not decide succeed. -/
def allDone : Env where
  route := .done
  delInvoked := fun _ => true
  add := .done

/-- The first uplink of `Config.twoUplinks`. -/
def fibre : Provider := ⟨"fibre", .ofOctets 192 168 1 1, "eth0", 0⟩

/-- A rule for `fibre` that was added before there were masks. -/
def unmasked : IpRule where
  pref := 32000
  mark := 0x200
  mask := 0xffffffff
  table := 200

/-- What earlier runs have left: two copies of the rule for `fibre`, and the one for `lte`. -/
def leftovers : Kernel where
  rules :=
    let lte : Provider := ⟨"lte", .ofOctets 192 168 2 1, "eth1", 5⟩
    [(selectorFor .twoUplinks fibre).rule, (selectorFor .twoUplinks fibre).rule,
      (selectorFor .twoUplinks lte).rule]
  defaults := fun _ => none

theorem converged_leftovers :
    Converged Config.twoUplinks fibre leftovers.rules
      (setupProviderPolicyRoute Config.twoUplinks fibre allDone leftovers).2.rules := by
  have hselects : ∀ r ∈ atPref .twoUplinks fibre leftovers.rules,
      (selectorFor .twoUplinks fibre).selects r = true := by decide +kernel
  exact (converged_iff Config.twoUplinks fibre allDone leftovers rfl).mpr
    ⟨fun r hr => (selects_iff.mp (hselects r hr)).2, by decide +kernel⟩

/-- **The rule without a mask stays**, beside the current one. -/
theorem not_converged : ¬ ∀ (cfg : Config), cfg.Accepted → ∀ p ∈ cfg.providers, ∀ (env : Env)
    (k : Kernel), (setupProviderPolicyRoute cfg p env k).1 = .ok () →
      Converged cfg p k.rules (setupProviderPolicyRoute cfg p env k).2.rules := by
  intro hall
  have hok : (setupProviderPolicyRoute Config.twoUplinks fibre allDone
      ⟨[unmasked], fun _ => none⟩).1 = .ok () := rfl
  obtain ⟨⟨r, hr, -⟩, -⟩ := hall Config.twoUplinks (by decide +kernel) fibre (by decide) allDone
    ⟨[unmasked], fun _ => none⟩ hok
  have hcurrent := ((atPref_setup_iff hok).mp hr).2.current unmasked (by decide)
  exact absurd hcurrent.2.1 (by decide)

/-! ## Sequences of set-ups -/

/-- Set-ups in turn: those of the start, and whatever the health loop tries again. -/
def run (cfg : Config) : List (Provider × Env) → Kernel → Kernel
  | [], k => k
  | (p, env) :: ss, k => run cfg ss (setupProviderPolicyRoute cfg p env k).2

theorem Tidy.congr {rules' : List IpRule} (h : atPref cfg p rules' = atPref cfg p rules)
    (htidy : Tidy cfg p rules) : Tidy cfg p rules' :=
  ⟨h ▸ htidy.current, h ▸ htidy.few⟩

theorem atPref_setup_of_ne (hne : cfg.rulePrefFor p ≠ cfg.rulePrefFor q) (env : Env) (k : Kernel) :
    atPref cfg p (setupProviderPolicyRoute cfg q env k).2.rules = atPref cfg p k.rules := by
  have hsub : ∀ rules, atPref cfg p rules = atPref cfg p (elsewhere cfg q rules) := by
    intro rules
    rw [atPref, atPref, elsewhere, List.filter_filter]
    refine List.filter_congr fun r _ => ?_
    by_cases hr : r.pref = cfg.rulePrefFor p <;> simp [hr, hne]
  rw [hsub, elsewhere_setup, ← hsub]

theorem Tidy.setup_self (htidy : Tidy cfg p k.rules) (env : Env) :
    Tidy cfg p (setupProviderPolicyRoute cfg p env k).2.rules := by
  by_cases hok : (setupProviderPolicyRoute cfg p env k).1 = .ok ()
  · have hown := (atPref_setup_iff hok).mpr ⟨rfl, htidy⟩
    refine ⟨fun r hr => ?_, by rw [hown]; simp⟩
    rw [hown, List.mem_singleton] at hr
    subst hr
    exact ⟨rfl, rfl, rfl⟩
  · obtain ⟨n, hn⟩ := setup_failed hok
    have hsub : (atPref cfg p (setupProviderPolicyRoute cfg p env k).2.rules).Sublist
        (atPref cfg p k.rules) := hn ▸ (drain_sublist _ n k.rules).filter _
    exact ⟨fun r hr => htidy.current r (hsub.subset hr), hsub.length_le.trans htidy.few⟩

theorem Tidy.setup (hcfg : cfg.Accepted) (hp : p ∈ cfg.providers) (hq : q ∈ cfg.providers)
    (htidy : Tidy cfg p k.rules) (env : Env) :
    Tidy cfg p (setupProviderPolicyRoute cfg q env k).2.rules := by
  by_cases hpref : cfg.rulePrefFor p = cfg.rulePrefFor q
  · have hpq := List.inj_on_of_nodup_map (Config.routingIds hcfg).prefsDistinct hp hq hpref
    exact hpq ▸ htidy.setup_self env
  · exact htidy.congr (atPref_setup_of_ne hpref env k)

/-- **No sequence of set-ups makes tidy rules untidy.** -/
theorem Tidy.run (hcfg : cfg.Accepted) (hp : p ∈ cfg.providers) {ss : List (Provider × Env)}
    (hss : ∀ s ∈ ss, s.1 ∈ cfg.providers) (htidy : Tidy cfg p k.rules) :
    Tidy cfg p (run cfg ss k).rules := by
  induction ss generalizing k with
  | nil => exact htidy
  | cons s ss ih =>
    have hs := hss s (List.mem_cons_self ..)
    exact ih (fun s' hs' => hss s' (List.mem_cons_of_mem s hs')) (htidy.setup hcfg hp hs s.2)

theorem atPref_run_of_ne {ss : List (Provider × Env)}
    (hss : ∀ s ∈ ss, cfg.rulePrefFor p ≠ cfg.rulePrefFor s.1) :
    atPref cfg p (run cfg ss k).rules = atPref cfg p k.rules := by
  induction ss generalizing k with
  | nil => rfl
  | cons s ss ih =>
    have hrest := ih (k := (setupProviderPolicyRoute cfg s.1 s.2 k).2)
      fun s' hs' => hss s' (List.mem_cons_of_mem s hs')
    exact hrest.trans (atPref_setup_of_ne (hss s (List.mem_cons_self ..)) s.2 k)

theorem run_append (ss ss' : List (Provider × Env)) (k : Kernel) :
    run cfg (ss ++ ss') k = run cfg ss' (run cfg ss k) := by
  induction ss generalizing k with
  | nil => rfl
  | cons s ss ih => exact ih _

/-- **After any sequence of set-ups whose last one of a provider succeeded**, the provider has one
rule, if its rules were tidy at the beginning. -/
theorem run_own (hcfg : cfg.Accepted) (hp : p ∈ cfg.providers) {pre post : List (Provider × Env)}
    (hpre : ∀ s ∈ pre, s.1 ∈ cfg.providers)
    (hpost : ∀ s ∈ post, s.1 ∈ cfg.providers ∧ s.1 ≠ p)
    (hok : (setupProviderPolicyRoute cfg p env (run cfg pre k)).1 = .ok ())
    (htidy : Tidy cfg p k.rules) :
    atPref cfg p (run cfg (pre ++ (p, env) :: post) k).rules = [(selectorFor cfg p).rule] := by
  have hother : ∀ s ∈ post, cfg.rulePrefFor p ≠ cfg.rulePrefFor s.1 := fun s hs heq =>
    (hpost s hs).2 (List.inj_on_of_nodup_map (Config.routingIds hcfg).prefsDistinct
      (hpost s hs).1 hp heq.symm)
  rw [run_append]
  refine (atPref_run_of_ne hother).trans ((atPref_setup_iff hok).mpr ⟨rfl, ?_⟩)
  exact htidy.run hcfg hp hpre

theorem setupAll_snd (env : Provider → Env) (ps : List Provider) (k : Kernel) :
    (setupAll cfg env ps k).2 = run cfg (ps.map fun p => (p, env p)) k := by
  induction ps generalizing k with
  | nil => rfl
  | cons p ps ih =>
    unfold setupAll
    cases hr : (setupProviderPolicyRoute cfg p (env p) k).1 <;> simp only [hr] <;> exact ih _

theorem setup_ok_of_not_pending (env : Provider → Env) {pre post : List Provider}
    (h : p.name ∉ (setupAll cfg env (pre ++ p :: post) k).1) :
    (setupProviderPolicyRoute cfg p (env p)
      (run cfg (pre.map fun p => (p, env p)) k)).1 = .ok () := by
  induction pre generalizing k with
  | nil =>
    unfold setupAll at h
    cases hr : (setupProviderPolicyRoute cfg p (env p) k).1 with
    | error e => simp [hr] at h
    | ok u => exact hr
  | cons q pre ih =>
    refine ih fun hmem => h ?_
    unfold setupAll
    cases hr : (setupProviderPolicyRoute cfg q (env q) k).1 with
    | error e =>
      simp only [List.cons_append, hr]
      exact List.mem_cons_of_mem _ hmem
    | ok u => simpa only [List.cons_append, hr] using hmem

/-- **The start gives every provider that is not pending one rule**, if its rules were tidy. -/
theorem setupPolicyRouting_own (hcfg : cfg.Accepted) (hp : p ∈ cfg.providers) (env : Provider → Env)
    (h : p.name ∉ (setupPolicyRouting cfg env k).1) (htidy : Tidy cfg p k.rules) :
    atPref cfg p (setupPolicyRouting cfg env k).2.rules = [(selectorFor cfg p).rule] := by
  obtain ⟨pre, post, hsplit⟩ := List.append_of_mem hp
  have hnodup : (pre ++ p :: post).Nodup := hsplit ▸ (Config.names_nodup hcfg).of_map _
  rw [setupPolicyRouting, hsplit] at h ⊢
  rw [setupAll_snd, List.map_append, List.map_cons]
  refine run_own hcfg hp ?_ ?_ (setup_ok_of_not_pending env h) htidy
  · simp only [List.mem_map]
    rintro s ⟨q, hq, rfl⟩
    exact hsplit ▸ List.mem_append_left _ hq
  · simp only [List.mem_map]
    rintro s ⟨q, hq, rfl⟩
    refine ⟨hsplit ▸ List.mem_append_right _ (List.mem_cons_of_mem p hq), ?_⟩
    rintro rfl
    exact (List.nodup_cons.mp hnodup.of_append_right).1 hq

end Vlb.PolicyRules
