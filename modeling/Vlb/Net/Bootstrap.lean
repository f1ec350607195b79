import Vlb.Net.Defaults

/-!
# The provisional default route

A box without a default route gets a provisional one before anything is probed, at a metric that
the route of a chosen provider is always below.

* `ensureBootstrapDefault`: what a starting daemon does to the table, and whether it owns it.
* `ForwardsTo`: the listed route of the lowest metric goes out where a provider does.
* `OneWay`: the routes at metric 0 go out one way.
* **`forwardsTo_setDefaultRoute`**: it does after the provider's route is installed.
* **`forwardsTo_ensureBootstrapDefault_iff`**: and whoever it went out by before a start, it does after.
-/

namespace Vlb.Router

variable {p : Provider} {t : Table} {routes : List KernelRoute}

/-- How `ip route show default` ends. -/
inductive Listing
  | notInvoked
  | failed
  | listed
  deriving DecidableEq

/-- The provisional route by a provider. -/
def bootstrapRoute (p : Provider) : KernelRoute where
  gateway := some p.gateway
  interface := p.interface
  metric := bootstrapMetric
  proto := "static"

/-- `ip route replace default via .. dev .. metric 4096 proto static`, which the kernel keys on the
metric. -/
def replaceBootstrap (routes : List KernelRoute) (p : Provider) : List KernelRoute :=
  match routes.findIdx? fun k => k.metric = bootstrapMetric with
  | some i => routes.set i (bootstrapRoute p)
  | none => bootstrapRoute p :: routes

/-- Nothing but what a previous run of the daemon left. -/
def onlyOurBootstrap (t : Table) : Bool :=
  t.currentDefaults ≠ [] ∧
    t.currentDefaults.all fun r => r.metric = some bootstrapMetric ∧ r.proto = some "static"

/-- `ensure_bootstrap_default`; `ok` tells whether the route can be installed. -/
def ensureBootstrapDefault (cfg : Config) (shown : Listing) (ok : Bool) (t : Table) : Table :=
  let install : Table :=
    match cfg.providers.argmin fun p => p.priority.toNat with
    | none => { t with ownsBootstrap := false }
    | some first =>
      if ok then { routes := replaceBootstrap t.routes first, ownsBootstrap := true }
      else { t with ownsBootstrap := false }
  match shown with
  | .notInvoked => { t with ownsBootstrap := false }
  | .failed => install
  | .listed =>
    if t.routes ≠ [] then { t with ownsBootstrap := onlyOurBootstrap t } else install

/-! ## Where the kernel forwards -/

/-- By the listing, the route that the kernel prefers is at metric 0 and goes out where the provider
does. -/
def ForwardsTo (t : Table) (p : Provider) : Prop :=
  ∃ r, t.currentDefault = some r ∧ r.metricOrZero = 0 ∧ r.leadsTo p = true

instance (t : Table) (p : Provider) : Decidable (ForwardsTo t p) :=
  decidable_of_iff (t.currentDefault.any fun r => r.metricOrZero = 0 ∧ r.leadsTo p = true)
    (by cases h : t.currentDefault <;> simp [ForwardsTo, h])

theorem shown_of_contends {k : KernelRoute} (h : k.contends = true) :
    ∃ r, k.shown = some r ∧ r.metricOrZero = 0 := by
  simp only [KernelRoute.contends, decide_eq_true_eq] at h
  obtain ⟨g, hg⟩ := Option.isSome_iff_exists.mp h.2
  have hshown : ∃ r, k.shown = some r := ⟨_, by rw [KernelRoute.shown, hg]; rfl⟩
  obtain ⟨r, hr⟩ := hshown
  exact ⟨r, hr, (metricOrZero_of_shown hr).trans h.1⟩

theorem contends_of_shown {k : KernelRoute} {r : InstalledRoute} (hshown : k.shown = some r)
    (hzero : r.metricOrZero = 0) : k.contends = true := by
  rw [metricOrZero_of_shown hshown] at hzero
  obtain ⟨g, hg, -⟩ := Option.map_eq_some_iff.mp hshown
  simp [KernelRoute.contends, hzero, hg]

theorem leadsTo_of_shown {k : KernelRoute} {r : InstalledRoute} (hshown : k.shown = some r) :
    r.leadsTo p = true ↔ k.via p.gateway p.interface = true := by
  obtain ⟨g, hg, rfl⟩ := Option.map_eq_some_iff.mp hshown
  simp [InstalledRoute.leadsTo, KernelRoute.via, hg]

/-- The first element that `f` sends to zero is the one of the lowest value. -/
theorem argmin_of_find? {α : Type*} [DecidableEq α] {f : α → ℕ} {l : List α} {a : α}
    (h : l.find? (fun b => f b = 0) = some a) : l.argmin f = some a := by
  obtain ⟨ha, before, after, rfl, hbefore⟩ := List.find?_eq_some_iff_append.mp h
  simp only [decide_eq_true_eq, Bool.not_eq_true', decide_eq_false_iff_not] at ha hbefore
  refine List.mem_argmin_iff.mpr ⟨by simp, fun b _ => by omega, fun b _ hb => ?_⟩
  have hnot : ∀ c, f c = 0 → c ∉ before := fun c hc hmem => hbefore c hmem hc
  rw [List.idxOf_append_of_notMem (hnot a ha), List.idxOf_cons_self, Nat.add_zero,
    List.idxOf_append_of_notMem (hnot b (by omega))]
  exact Nat.le_add_right _ _

theorem forwardsTo_iff : ForwardsTo t p ↔
    ∃ k, t.routes.find? KernelRoute.contends = some k ∧ k.via p.gateway p.interface = true := by
  have hfind : t.currentDefaults.find? (fun r => r.metricOrZero.toNat = 0) =
      (t.routes.find? KernelRoute.contends).bind KernelRoute.shown := by
    rw [Table.currentDefaults, List.find?_filterMap]
    refine congrArg (fun x => Option.bind x KernelRoute.shown) (congrArg (fun q => t.routes.find? q) ?_)
    funext k
    cases hcontends : k.contends with
    | true =>
      obtain ⟨r, hr, hzero⟩ := shown_of_contends hcontends
      simp [hr, hzero]
    | false =>
      cases hshown : k.shown with
      | none => rfl
      | some r =>
        have hne : r.metricOrZero ≠ 0 := fun h => by
          simp [contends_of_shown hshown h] at hcontends
        simpa using fun h => hne (UInt32.toNat_inj.mp h)
  constructor
  · rintro ⟨r, hr, hzero, hleads⟩
    have hmem : r ∈ t.currentDefaults := List.argmin_mem hr
    have hsome : (t.currentDefaults.find? fun r => r.metricOrZero.toNat = 0).isSome = true :=
      List.find?_isSome.mpr ⟨r, hmem, by simp [hzero]⟩
    obtain ⟨r', hr'⟩ := Option.isSome_iff_exists.mp hsome
    have hsame : t.currentDefault = some r' := argmin_of_find? hr'
    obtain rfl := Option.some.inj (hr.symm.trans hsame)
    rw [hfind] at hr'
    obtain ⟨k, hk, hshown⟩ := Option.bind_eq_some_iff.mp hr'
    exact ⟨k, hk, (leadsTo_of_shown hshown).mp hleads⟩
  · rintro ⟨k, hk, hvia⟩
    obtain ⟨r, hr, hzero⟩ := shown_of_contends (List.find?_some hk)
    refine ⟨r, argmin_of_find? ?_, hzero, (leadsTo_of_shown hr).mpr hvia⟩
    rw [hfind, hk, Option.bind_some, hr]

/-- **An installed route carries the traffic**, whatever was in the table. -/
theorem forwardsTo_setDefaultRoute (t : Table) (p : Provider) :
    ForwardsTo (t.setDefaultRoute p.gateway p.interface) p := by
  obtain ⟨after, hafter, hsurvive, hcount, -, -⟩ :=
    removeCompetingDefaults_spec .metric t.routes p.gateway p.interface
  have hroutes : (t.setDefaultRoute p.gateway p.interface).routes =
      if t.ownsBootstrap then after.eraseP KernelRoute.isBootstrap else after := by
    rw [← hafter, Table.setDefaultRoute, Table.setDefaultRouteBy, Table.dropBootstrapDefault]
    split_ifs <;> rfl
  obtain ⟨k, hk, hcontends⟩ := List.countP_pos_iff.mp (Nat.lt_of_lt_of_eq (Nat.succ_pos _) hcount.symm)
  have hkept : k ∈ (t.setDefaultRoute p.gateway p.interface).routes := by
    rw [hroutes]
    split_ifs
    · refine (List.mem_eraseP_of_neg fun hboot => ?_).mpr hk
      simp only [KernelRoute.contends, decide_eq_true_eq] at hcontends
      exact isBootstrap_metric hboot hcontends.1
    · exact hk
  have hsub : ∀ k' ∈ (t.setDefaultRoute p.gateway p.interface).routes, k' ∈ after := by
    intro k' hk'
    rw [hroutes] at hk'
    split_ifs at hk'
    · exact List.mem_of_mem_eraseP hk'
    · exact hk'
  obtain ⟨k', hk'⟩ := Option.isSome_iff_exists.mp (List.find?_isSome.mpr ⟨k, hkept, hcontends⟩)
  exact forwardsTo_iff.mpr ⟨k', hk',
    (hsurvive k' (hsub k' (List.mem_of_find?_eq_some hk')) (List.find?_some hk')).1⟩

/-- Every default route at metric 0 has a next hop, and they go out one way. -/
def OneWay (routes : List KernelRoute) : Prop :=
  ∃ gateway interface, ∀ k ∈ routes, k.metric = 0 → k.via gateway interface = true

theorem OneWay.of_sub {routes' : List KernelRoute} (h : OneWay routes)
    (hsub : ∀ k ∈ routes', k.metric = 0 → k ∈ routes) : OneWay routes' := by
  obtain ⟨gateway, interface, h⟩ := h
  exact ⟨gateway, interface, fun k hk hzero => h k (hsub k hk hzero) hzero⟩

theorem OneWay.setDefaultRoute (h : OneWay t.routes) (p : Provider) :
    OneWay (t.setDefaultRoute p.gateway p.interface).routes := by
  obtain ⟨after, hafter, hsurvive, -, hothers, -⟩ :=
    removeCompetingDefaults_spec .metric t.routes p.gateway p.interface
  have hsub : ∀ k ∈ (t.setDefaultRoute p.gateway p.interface).routes, k ∈ after := by
    intro k hk
    rw [Table.setDefaultRoute, Table.setDefaultRouteBy, Table.dropBootstrapDefault] at hk
    split_ifs at hk
    · exact hafter ▸ List.mem_of_mem_eraseP hk
    · exact hafter ▸ hk
  refine ⟨p.gateway, p.interface, fun k hk hzero => ?_⟩
  have hcontends : k.contends = true := by
    by_contra hnot
    rw [Bool.not_eq_true] at hnot
    -- a route that the listing does not show was there before, with a next hop
    have hbefore := List.mem_of_mem_eraseP ((mem_iff_of_filter_eq hothers hnot).mp (hsub k hk))
    obtain ⟨gateway, interface, h⟩ := h
    have hvia := h k hbefore hzero
    simp only [KernelRoute.via, decide_eq_true_eq] at hvia
    simp [KernelRoute.contends, hzero, hvia.1] at hnot
  exact (hsurvive k (hsub k hk) hcontends).1

/-! ## A start -/

theorem replaceBootstrap_split (routes : List KernelRoute) (p : Provider) :
    ∃ front back, replaceBootstrap routes p = front ++ bootstrapRoute p :: back ∧
      ∃ old, routes = front ++ old ++ back ∧ ∀ k ∈ old, k.metric = bootstrapMetric := by
  unfold replaceBootstrap
  cases hfind : routes.findIdx? fun k => k.metric = bootstrapMetric with
  | none => exact ⟨[], routes, rfl, [], rfl, by simp⟩
  | some i =>
    obtain ⟨front, a, back, hsplit, ha, -, hset⟩ := exists_of_findIdx? hfind
    exact ⟨front, back, hset _, [a], by simpa using hsplit, by simpa using ha⟩

theorem not_contends_of_metric {k : KernelRoute} (h : k.metric = bootstrapMetric) :
    k.contends = false := by
  simp [KernelRoute.contends, h, bootstrapMetric_ne_zero]

theorem find?_replaceBootstrap (routes : List KernelRoute) (p : Provider) :
    (replaceBootstrap routes p).find? KernelRoute.contends =
      routes.find? KernelRoute.contends := by
  obtain ⟨front, back, hreplace, old, hroutes, hold⟩ := replaceBootstrap_split routes p
  have hnew : (bootstrapRoute p).contends = false := not_contends_of_metric rfl
  have hnone : old.find? KernelRoute.contends = none :=
    List.find?_eq_none.mpr fun k hk => by simp [not_contends_of_metric (hold k hk)]
  rw [hreplace, hroutes]
  simp only [List.find?_append, List.find?_cons, hnew, hnone, Option.or_none]

/-- **A start leaves the traffic where it is.** -/
theorem forwardsTo_ensureBootstrapDefault_iff (cfg : Config) (shown : Listing) (ok : Bool)
    (t : Table) (p : Provider) :
    ForwardsTo (ensureBootstrapDefault cfg shown ok t) p ↔ ForwardsTo t p := by
  have hsame : (ensureBootstrapDefault cfg shown ok t).routes.find? KernelRoute.contends =
      t.routes.find? KernelRoute.contends := by
    unfold ensureBootstrapDefault
    repeat' split
    all_goals first | rfl | exact find?_replaceBootstrap _ _
  rw [forwardsTo_iff, forwardsTo_iff, hsame]

theorem OneWay.ensureBootstrapDefault (h : OneWay t.routes) (cfg : Config) (shown : Listing)
    (ok : Bool) : OneWay (ensureBootstrapDefault cfg shown ok t).routes := by
  have hreplaced : ∀ p : Provider, OneWay (replaceBootstrap t.routes p) := by
    intro p
    obtain ⟨front, back, hreplace, old, hroutes, -⟩ := replaceBootstrap_split t.routes p
    refine h.of_sub fun k hk hzero => ?_
    rw [hreplace] at hk
    rw [hroutes]
    rcases List.mem_append.mp hk with hk | hk
    · simp [hk]
    · rcases List.mem_cons.mp hk with rfl | hk
      · exact absurd hzero bootstrapMetric_ne_zero
      · simp [hk]
  unfold Router.ensureBootstrapDefault
  repeat' split
  all_goals first | exact h | exact hreplaced _

end Vlb.Router
