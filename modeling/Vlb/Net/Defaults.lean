import Mathlib.Tactic.Common
import Vlb.Net.Router

/-!
# Installing the default route

`set_default_route` overwrites one default route, lists what is there, and deletes what ties with
its own at metric 0. A route without a next hop is not in the list it reads.

* `foldl_delete`: what the deletions leave, one listed route after another.
* `Installed`: what the installation should bring about.
* **`installed_iff`**: it does exactly when, apart from the route it overwrites, there is neither a
  default at metric 0 without a next hop nor a copy of its own, whichever key `replace` has.
-/

namespace Vlb.Router

variable {gateway : Ipv4Addr} {interface : String} {k x : KernelRoute}
  {routes S T : List KernelRoute}

/-- The route goes out by that gateway and that interface. -/
def KernelRoute.via (gateway : Ipv4Addr) (interface : String) (k : KernelRoute) : Bool :=
  k.gateway = some gateway ∧ k.interface = interface

/-- The listing shows the route, at metric 0. -/
def KernelRoute.contends (k : KernelRoute) : Bool := k.metric = 0 ∧ k.gateway.isSome

/-- The route is the one that `replace` writes. -/
def KernelRoute.isCopy (gateway : Ipv4Addr) (interface : String) (k : KernelRoute) : Bool :=
  k.via gateway interface ∧ k.metric = 0 ∧ k.proto = "static"

/-- The shape of the provisional route. -/
def KernelRoute.isBootstrap (k : KernelRoute) : Bool :=
  k.metric = bootstrapMetric ∧ k.proto = "static"

/-- The routes that `remove_competing_defaults` is going to delete. -/
def competing (gateway : Ipv4Addr) (interface : String) (routes : List KernelRoute) :
    List InstalledRoute :=
  (routes.filterMap KernelRoute.shown).filter fun r =>
    r.metricOrZero = 0 ∧ ¬ Table.isOurs gateway interface r

theorem removeCompetingDefaults_eq :
    Table.removeCompetingDefaults routes gateway interface =
      (competing gateway interface routes).foldl Table.delete routes := rfl

/-! ## The routes that are listed -/

theorem metricOrZero_of_shown {r : InstalledRoute} (h : k.shown = some r) :
    r.metricOrZero = k.metric := by
  obtain ⟨g, -, rfl⟩ := Option.map_eq_some_iff.mp h
  by_cases hm : k.metric = 0 <;> simp [InstalledRoute.metricOrZero, hm]

theorem isOurs_of_shown {r : InstalledRoute} (h : k.shown = some r) :
    Table.isOurs gateway interface r = true ↔ k.via gateway interface = true ∧ k.proto = "static" := by
  obtain ⟨g, hg, rfl⟩ := Option.map_eq_some_iff.mp h
  by_cases hproto : k.proto = "boot"
  · simp [Table.isOurs, KernelRoute.via, hg, hproto]
  · simp [Table.isOurs, KernelRoute.via, hg, hproto, and_assoc]

theorem isCopy_iff : k.isCopy gateway interface = true ↔
    k.contends = true ∧ k.via gateway interface = true ∧ k.proto = "static" := by
  simp only [KernelRoute.isCopy, KernelRoute.contends, KernelRoute.via, decide_eq_true_eq]
  constructor
  · rintro ⟨⟨hg, hi⟩, hm, hp⟩
    exact ⟨⟨hm, by rw [hg]; rfl⟩, ⟨hg, hi⟩, hp⟩
  · rintro ⟨⟨hm, -⟩, hvia, hp⟩
    exact ⟨hvia, hm, hp⟩

/-- The list of the routes to delete grows with the routes that contend and are not our own. -/
theorem competing_cons (x : KernelRoute) (T : List KernelRoute) :
    competing gateway interface (x :: T) =
      if x.contends = true ∧ ¬ x.isCopy gateway interface = true then
        x.shown.toList ++ competing gateway interface T
      else competing gateway interface T := by
  cases hshown : x.shown with
  | none =>
    simp [competing, hshown]
  | some r =>
    have hgateway : x.gateway.isSome = true := by
      obtain ⟨g, hg, -⟩ := Option.map_eq_some_iff.mp hshown
      rw [hg]
      rfl
    have hcontends : x.contends = true ↔ r.metricOrZero = 0 := by
      simp [KernelRoute.contends, hgateway, metricOrZero_of_shown hshown]
    have hlisted : (decide (r.metricOrZero = 0 ∧ ¬ Table.isOurs gateway interface r)) = true ↔
        x.contends = true ∧ ¬ x.isCopy gateway interface = true := by
      rw [decide_eq_true_eq, isCopy_iff, isOurs_of_shown hshown, hcontends]
      tauto
    simp only [competing, List.filterMap_cons, hshown, List.filter_cons, hlisted]
    split_ifs <;> rfl

/-! ## Deleting -/

/-- Whether `delete` would take the route for the listed one. -/
def deletes (r : InstalledRoute) (k : KernelRoute) : Bool :=
  k.gateway = some r.gateway ∧ k.interface = r.interface ∧ k.metric = r.metricOrZero ∧
    r.proto.all (· = k.proto)

theorem delete_eq (r : InstalledRoute) : Table.delete routes r = routes.eraseP (deletes r) := rfl

theorem deletes_self {r : InstalledRoute} (h : k.shown = some r) : deletes r k = true := by
  have hmetric := metricOrZero_of_shown h
  obtain ⟨g, hg, rfl⟩ := Option.map_eq_some_iff.mp h
  by_cases hproto : k.proto = "boot" <;> simp_all [deletes]

/-- What is left of the routes already listed: those at metric 0 go out our way, and bear one of the
two protocols that a deletion can confuse. -/
def Survives (gateway : Ipv4Addr) (interface : String) (k : KernelRoute) : Prop :=
  k.contends = true → k.via gateway interface = true ∧ (k.proto = "static" ∨ k.proto = "boot")

theorem survives_of_isCopy (h : k.isCopy gateway interface = true) :
    Survives gateway interface k :=
  fun _ => ⟨(isCopy_iff.mp h).2.1, Or.inl (isCopy_iff.mp h).2.2⟩

/-- A deletion that hits a survivor in place of the listed route leaves another survivor. -/
theorem survives_of_deletes {r : InstalledRoute} (hx : x.shown = some r)
    (hcontends : x.contends = true) (hcopy : ¬ x.isCopy gateway interface = true)
    (hk : Survives gateway interface k) (h : deletes r k = true) :
    k.contends = true ∧ Survives gateway interface x := by
  have hmetric := metricOrZero_of_shown hx
  obtain ⟨g, hg, rfl⟩ := Option.map_eq_some_iff.mp hx
  simp only [deletes, decide_eq_true_eq] at h
  obtain ⟨hgateway, hinterface, hkmetric, hproto⟩ := h
  have hkcontends : k.contends = true := by
    simp only [KernelRoute.contends, decide_eq_true_eq] at hcontends ⊢
    exact ⟨hkmetric.trans (hmetric.trans hcontends.1), by rw [hgateway]; rfl⟩
  obtain ⟨hvia, hkproto⟩ := hk hkcontends
  refine ⟨hkcontends, fun _ => ?_⟩
  have hxvia : x.via gateway interface = true := by
    simp only [KernelRoute.via, decide_eq_true_eq] at hvia ⊢
    exact ⟨by rw [hg, ← hgateway, hvia.1], hinterface.symm.trans hvia.2⟩
  refine ⟨hxvia, Or.inr ?_⟩
  by_contra hboot
  have hsame : x.proto = k.proto := by simpa [hboot] using hproto
  rcases hkproto with hstatic | hkboot
  · exact hcopy (isCopy_iff.mpr ⟨hcontends, hxvia, hsame.trans hstatic⟩)
  · exact hboot (hsame.trans hkboot)

theorem delete_survivor {r : InstalledRoute} (hx : x.shown = some r) (hcontends : x.contends = true)
    (hcopy : ¬ x.isCopy gateway interface = true) (hS : ∀ k ∈ S, Survives gateway interface k)
    {k : KernelRoute} (hk : k ∈ S) (hdeletes : deletes r k = true) :
    (∀ k ∈ S.eraseP (deletes r) ++ [x], Survives gateway interface k) ∧
      (S.eraseP (deletes r) ++ [x]).countP KernelRoute.contends =
        S.countP KernelRoute.contends ∧
      (S.eraseP (deletes r)).filter (fun k => !k.contends) = S.filter (fun k => !k.contends) := by
  obtain ⟨a, front, back, -, ha, hsplit, herase⟩ := List.exists_of_eraseP hk hdeletes
  have haS : a ∈ S := by rw [hsplit]; simp
  obtain ⟨hacontends, hxsurvives⟩ := survives_of_deletes hx hcontends hcopy (hS a haS) ha
  rw [herase]
  refine ⟨fun k hk => ?_, ?_, ?_⟩
  · rcases List.mem_append.mp hk with hk | hk
    · refine hS k ?_
      rw [hsplit]
      rcases List.mem_append.mp hk with hk | hk <;> simp [hk]
    · rwa [List.mem_singleton.mp hk]
  · rw [hsplit]
    simp [List.countP_append, hacontends, hcontends]
  · rw [hsplit]
    simp [hacontends]

/-- **The deletions**, with `S` left of what was listed before `T`: as many routes at metric 0 remain
as there are copies of our own, and all of them go out our way; the others are not touched. -/
theorem foldl_delete (hS : ∀ k ∈ S, Survives gateway interface k) :
    (∀ k ∈ (competing gateway interface T).foldl Table.delete (S ++ T),
        Survives gateway interface k) ∧
      ((competing gateway interface T).foldl Table.delete (S ++ T)).countP KernelRoute.contends =
        S.countP KernelRoute.contends + T.countP (KernelRoute.isCopy gateway interface) ∧
      ((competing gateway interface T).foldl Table.delete (S ++ T)).filter (fun k => !k.contends) =
        (S ++ T).filter (fun k => !k.contends) := by
  induction T generalizing S with
  | nil =>
    refine ⟨?_, ?_, ?_⟩
    · simpa [competing] using hS
    · simp [competing]
    · simp [competing]
  | cons x T ih =>
    rw [competing_cons]
    split_ifs with hx
    · obtain ⟨hcontends, hcopy⟩ := hx
      obtain ⟨r, hr⟩ : ∃ r, x.shown = some r := by
        simp only [KernelRoute.contends, decide_eq_true_eq] at hcontends
        obtain ⟨g, hg⟩ := Option.isSome_iff_exists.mp hcontends.2
        exact ⟨_, by rw [KernelRoute.shown, hg]; rfl⟩
      have hcount : (x :: T).countP (KernelRoute.isCopy gateway interface) =
          T.countP (KernelRoute.isCopy gateway interface) := by
        rw [List.countP_cons, if_neg hcopy, Nat.add_zero]
      rw [hr, hcount]
      simp only [Option.toList_some, List.singleton_append, List.foldl_cons, delete_eq]
      by_cases hhit : ∃ k ∈ S, deletes r k = true
      · -- the deletion takes a route that was listed before: `x` stays in its place
        obtain ⟨k, hk, hdeletes⟩ := hhit
        obtain ⟨hsurvive, hsame, hothers⟩ := delete_survivor hr hcontends hcopy hS hk hdeletes
        rw [List.eraseP_append_left hdeletes _ hk, List.append_cons]
        obtain ⟨h1, h2, h3⟩ := ih hsurvive
        refine ⟨h1, by rw [h2, hsame], ?_⟩
        rw [h3]
        simp only [List.filter_append, hothers, List.filter_cons, hcontends, Bool.not_true,
          Bool.false_eq_true, if_false, List.filter_nil, List.append_nil]
      · -- it takes `x`
        push Not at hhit
        rw [List.eraseP_append_right _ (by simpa using hhit),
          List.eraseP_cons_of_pos (deletes_self hr)]
        obtain ⟨h1, h2, h3⟩ := ih hS
        refine ⟨h1, h2, ?_⟩
        rw [h3]
        simp only [List.filter_append, List.filter_cons, hcontends, Bool.not_true,
          Bool.false_eq_true, if_false]
    · -- the next route stays
      have hiff : x.contends = true ↔ x.isCopy gateway interface = true :=
        ⟨fun h => by tauto, fun h => (isCopy_iff.mp h).1⟩
      have hsurvive : ∀ k ∈ S ++ [x], Survives gateway interface k := by
        intro k hk
        rcases List.mem_append.mp hk with hk | hk
        · exact hS k hk
        · obtain rfl := List.mem_singleton.mp hk
          exact fun hcontends => survives_of_isCopy (hiff.mp hcontends) hcontends
      obtain ⟨h1, h2, h3⟩ := ih hsurvive
      rw [List.append_cons]
      refine ⟨h1, ?_, h3⟩
      rw [h2, List.countP_append, List.countP_cons, List.countP_cons, List.countP_nil]
      simp only [hiff]
      omega

/-! ## The whole installation -/

/-- The route that `replace` writes. -/
def ownRoute (gateway : Ipv4Addr) (interface : String) : KernelRoute where
  gateway := some gateway
  interface := interface
  metric := 0
  proto := "static"

theorem exists_of_findIdx? {α : Type*} {p : α → Bool} {l : List α} {i : ℕ}
    (h : l.findIdx? p = some i) : ∃ front a back, l = front ++ a :: back ∧ p a = true ∧
      l.eraseP p = front ++ back ∧ ∀ b, l.set i b = front ++ b :: back := by
  induction l generalizing i with
  | nil => simp at h
  | cons x l ih =>
    rw [List.findIdx?_cons] at h
    split_ifs at h with hx
    · cases h
      exact ⟨[], x, l, rfl, hx, by simp [hx], fun b => rfl⟩
    · obtain ⟨j, hj, rfl⟩ := Option.map_eq_some_iff.mp h
      obtain ⟨front, a, back, hl, ha, herase, hset⟩ := ih hj
      refine ⟨x :: front, a, back, by rw [hl]; rfl, ha, ?_, fun b => ?_⟩
      · rw [List.eraseP_cons_of_neg hx, herase]
        rfl
      · rw [List.set_cons_succ, hset]
        rfl

theorem metric_of_takes {key : ReplaceKey} (h : key.takes k = true) : k.metric = 0 := by
  cases key with
  | metric => exact of_decide_eq_true h
  | metricAndProto => exact (of_decide_eq_true h).1

/-- `replace` puts the route somewhere, and takes away the one it overwrites. -/
theorem replace_split (key : ReplaceKey) (routes : List KernelRoute) (gateway : Ipv4Addr)
    (interface : String) : ∃ front back, Table.replace key routes gateway interface =
        front ++ ownRoute gateway interface :: back ∧
      routes.eraseP key.takes = front ++ back ∧
      routes.filter (·.metric ≠ 0) = (front ++ back).filter (·.metric ≠ 0) := by
  cases hfind : routes.findIdx? key.takes with
  | none =>
    have hreplace : Table.replace key routes gateway interface =
        ownRoute gateway interface :: routes := by
      simp only [Table.replace, hfind, ownRoute]
    refine ⟨[], routes, hreplace, List.eraseP_of_forall_not fun k hk => ?_, rfl⟩
    simpa using List.findIdx?_eq_none_iff.mp hfind k hk
  | some i =>
    have hreplace : Table.replace key routes gateway interface =
        routes.set i (ownRoute gateway interface) := by
      simp only [Table.replace, hfind, ownRoute]
    obtain ⟨front, a, back, hsplit, ha, herase, hset⟩ := exists_of_findIdx? hfind
    refine ⟨front, back, hreplace.trans (hset _), herase, ?_⟩
    rw [hsplit]
    simp [metric_of_takes ha]

/-- What an installation should bring about: one default route at metric 0, by that gateway and that
interface; and the others untouched, but for the provisional ones of this process. -/
structure Installed (own : KernelRoute → Bool) (gateway : Ipv4Addr) (interface : String)
    (before after : List KernelRoute) : Prop where
  single : ∃ k, after.filter (·.metric = 0) = [k] ∧ k.via gateway interface = true
  others : after.filter (fun k => k.metric ≠ 0 ∧ ¬ own k) =
    before.filter (fun k => k.metric ≠ 0 ∧ ¬ own k)

/-- Beside the route that `replace` overwrites, no default at metric 0 lacks a next hop or is a copy
of our own; and the first route of the provisional shape is one of this process. -/
structure Installable (key : ReplaceKey) (own : KernelRoute → Bool) (gateway : Ipv4Addr)
    (interface : String) (t : Table) : Prop where
  nextHop : ∀ k ∈ t.routes.eraseP key.takes, k.metric = 0 → k.gateway.isSome = true
  copy : ∀ k ∈ t.routes.eraseP key.takes, k.isCopy gateway interface = false
  bootstrap : t.ownsBootstrap = true → ∀ k, t.routes.find? KernelRoute.isBootstrap = some k →
    own k = true

/-- **The routes after `replace` and the deletions.** -/
theorem removeCompetingDefaults_spec (key : ReplaceKey) (routes : List KernelRoute)
    (gateway : Ipv4Addr) (interface : String) :
    ∃ after, Table.removeCompetingDefaults (Table.replace key routes gateway interface) gateway
        interface = after ∧
      (∀ k ∈ after, Survives gateway interface k) ∧
      after.countP KernelRoute.contends =
        (routes.eraseP key.takes).countP (KernelRoute.isCopy gateway interface) + 1 ∧
      after.filter (fun k => !k.contends) =
        (routes.eraseP key.takes).filter (fun k => !k.contends) ∧
      after.filter (·.metric ≠ 0) = routes.filter (·.metric ≠ 0) := by
  obtain ⟨front, back, hreplace, herase, hothers⟩ := replace_split key routes gateway interface
  have hnone : ∀ k ∈ ([] : List KernelRoute), Survives gateway interface k := by simp
  obtain ⟨hsurvive, hcount, hrest⟩ :=
    foldl_delete (T := Table.replace key routes gateway interface) hnone
  have hown : (ownRoute gateway interface).contends = true ∧
      (ownRoute gateway interface).isCopy gateway interface = true := by
    simp [ownRoute, KernelRoute.contends, KernelRoute.isCopy, KernelRoute.via]
  have hkept : (Table.replace key routes gateway interface).filter (fun k => !k.contends) =
      (front ++ back).filter (fun k => !k.contends) := by
    rw [hreplace]
    simp [hown.1]
  refine ⟨_, rfl, hsurvive, ?_, ?_, ?_⟩
  · rw [removeCompetingDefaults_eq]
    refine hcount.trans ?_
    rw [hreplace, herase]
    simp [List.countP_append, hown.2]
    omega
  · rw [removeCompetingDefaults_eq, herase, ← hkept]
    exact hrest
  · have hsub : ∀ l : List KernelRoute, l.filter (·.metric ≠ 0) =
        (l.filter (fun k => !k.contends)).filter (·.metric ≠ 0) := by
      intro l
      rw [List.filter_filter]
      refine List.filter_congr fun k _ => ?_
      by_cases hm : k.metric = 0 <;> simp [KernelRoute.contends, hm]
    rw [hothers, hsub, hsub (front ++ back), ← hkept, removeCompetingDefaults_eq]
    exact congrArg _ hrest

/-- Where the routes that do not contend are the same, so is membership of one of these. -/
theorem mem_iff_of_filter_eq {rest after : List KernelRoute}
    (hothers : after.filter (fun k => !k.contends) = rest.filter (fun k => !k.contends))
    (hk : k.contends = false) : k ∈ after ↔ k ∈ rest := by
  have hmem : k ∈ after.filter (fun k => !k.contends) ↔ k ∈ rest.filter (fun k => !k.contends) := by
    rw [hothers]
  simpa [List.mem_filter, hk] using hmem

/-- One route at metric 0 remains exactly when none of those left was hidden from the listing, or a
copy. -/
theorem single_iff {rest after : List KernelRoute}
    (hsurvive : ∀ k ∈ after, Survives gateway interface k)
    (hcount : after.countP KernelRoute.contends =
      rest.countP (KernelRoute.isCopy gateway interface) + 1)
    (hothers : after.filter (fun k => !k.contends) = rest.filter (fun k => !k.contends)) :
    (∃ k, after.filter (·.metric = 0) = [k] ∧ k.via gateway interface = true) ↔
      (∀ k ∈ rest, k.metric = 0 → k.gateway.isSome = true) ∧
        ∀ k ∈ rest, k.isCopy gateway interface = false := by
  have hcontends : ∀ k : KernelRoute, k.metric = 0 → k.gateway.isSome = true → k.contends = true :=
    fun k hm hg => by simp [KernelRoute.contends, hm, hg]
  constructor
  · rintro ⟨k, hsingle, -⟩
    have hsub : (after.filter KernelRoute.contends).Sublist (after.filter (·.metric = 0)) := by
      refine List.monotone_filter_right after fun k hk => ?_
      simp only [KernelRoute.contends, decide_eq_true_eq] at hk
      simpa using hk.1
    have hlength : (after.filter KernelRoute.contends).length =
        rest.countP (KernelRoute.isCopy gateway interface) + 1 := by
      rw [← List.countP_eq_length_filter, hcount]
    have hle := hsub.length_le
    rw [hlength, hsingle, List.length_singleton] at hle
    have hzero : rest.countP (KernelRoute.isCopy gateway interface) = 0 := by omega
    have heq := hsub.eq_of_length_le (by rw [hlength, hsingle, List.length_singleton]; omega)
    refine ⟨fun k' hk' hm => ?_, fun k' hk' => by simpa using List.countP_eq_zero.mp hzero k' hk'⟩
    by_contra hhop
    have hnot : k'.contends = false := by simp [KernelRoute.contends, hhop]
    have hafter : k' ∈ after := (mem_iff_of_filter_eq hothers hnot).mpr hk'
    have hmem : k' ∈ after.filter KernelRoute.contends := by
      rw [heq]
      exact List.mem_filter.mpr ⟨hafter, by simpa using hm⟩
    exact absurd (List.mem_filter.mp hmem).2 (by simp [hnot])
  · rintro ⟨hhop, hcopy⟩
    have hzero : rest.countP (KernelRoute.isCopy gateway interface) = 0 :=
      List.countP_eq_zero.mpr fun k hk => by simp [hcopy k hk]
    have heq : after.filter (·.metric = 0) = after.filter KernelRoute.contends := by
      refine List.filter_congr fun k hk => ?_
      cases hk' : k.contends with
      | true =>
        simp only [KernelRoute.contends, decide_eq_true_eq] at hk'
        simpa using hk'.1
      | false =>
        have hrest : k ∈ rest := (mem_iff_of_filter_eq hothers hk').mp hk
        simp only [decide_eq_false_iff_not]
        intro hm
        rw [hcontends k hm (hhop k hrest hm)] at hk'
        cases hk'
    have hlength : (after.filter (·.metric = 0)).length = 1 := by
      rw [heq, ← List.countP_eq_length_filter, hcount, hzero]
    obtain ⟨k, hk⟩ := List.length_eq_one_iff.mp hlength
    have hmem : k ∈ after.filter KernelRoute.contends := by
      rw [← heq, hk]
      exact List.mem_singleton_self k
    obtain ⟨hafter, hkcontends⟩ := List.mem_filter.mp hmem
    exact ⟨k, hk, (hsurvive k hafter hkcontends).1⟩

/-- Erasing the first element that `p` takes leaves what `q` takes as it was exactly when `q` does
not take that element. -/
theorem filter_eraseP_eq_iff {α : Type*} {p q : α → Bool} {l : List α} :
    (l.eraseP p).filter q = l.filter q ↔ ∀ a, l.find? p = some a → q a = false := by
  induction l with
  | nil => simp
  | cons x l ih =>
    by_cases hp : p x = true
    · cases hq : q x with
      | false => simp [hp, hq]
      | true =>
        simp only [List.eraseP_cons_of_pos hp, List.filter_cons, hq, if_true,
          List.find?_cons_of_pos hp, Option.some.injEq, forall_eq', Bool.true_eq_false, iff_false]
        exact fun h => absurd (congrArg List.length h) (by simp)
    · simp only [List.eraseP_cons_of_neg hp, List.find?_cons_of_neg hp, List.filter_cons]
      cases hq : q x with
      | false => simpa using ih
      | true => simpa using ih

theorem bootstrapMetric_ne_zero : bootstrapMetric ≠ 0 := by decide

theorem isBootstrap_metric (h : k.isBootstrap = true) : k.metric ≠ 0 := by
  simp only [KernelRoute.isBootstrap, decide_eq_true_eq] at h
  rw [h.1]
  exact bootstrapMetric_ne_zero

theorem find?_isBootstrap {l l' : List KernelRoute}
    (h : l.filter (·.metric ≠ 0) = l'.filter (·.metric ≠ 0)) :
    l.find? KernelRoute.isBootstrap = l'.find? KernelRoute.isBootstrap := by
  have hfind : ∀ l : List KernelRoute, l.find? KernelRoute.isBootstrap =
      (l.filter (·.metric ≠ 0)).find? KernelRoute.isBootstrap := by
    intro l
    rw [List.find?_filter]
    congr 1
    funext k
    cases hk : k.isBootstrap with
    | false => simp
    | true => simpa using isBootstrap_metric hk
  rw [hfind, h, ← hfind]

/-- **The postcondition of `set_default_route`**, where `own` tells which provisional routes this
process has put there. -/
theorem installed_iff (key : ReplaceKey) (own : KernelRoute → Bool) (t : Table)
    (gateway : Ipv4Addr) (interface : String) :
    Installed own gateway interface t.routes
        (t.setDefaultRouteBy key gateway interface).routes ↔
      Installable key own gateway interface t := by
  obtain ⟨after, hafter, hsurvive, hcount, hrest, hothers⟩ :=
    removeCompetingDefaults_spec key t.routes gateway interface
  have hroutes : (t.setDefaultRouteBy key gateway interface).routes =
      if t.ownsBootstrap then after.eraseP KernelRoute.isBootstrap else after := by
    rw [← hafter, Table.setDefaultRouteBy, Table.dropBootstrapDefault]
    split_ifs <;> rfl
  have hzero : (t.setDefaultRouteBy key gateway interface).routes.filter (·.metric = 0) =
      after.filter (·.metric = 0) := by
    rw [hroutes]
    split_ifs
    · refine filter_eraseP_eq_iff.mpr fun k hk => ?_
      simpa using isBootstrap_metric (List.find?_some hk)
    · rfl
  have hnonzero : ∀ l : List KernelRoute, l.filter (fun k => k.metric ≠ 0 ∧ ¬ own k) =
      (l.filter (·.metric ≠ 0)).filter (fun k => !own k) := by
    intro l
    rw [List.filter_filter]
    refine List.filter_congr fun k _ => ?_
    simp [and_comm]
  have hbootstrap : (t.setDefaultRouteBy key gateway interface).routes.filter
        (fun k => k.metric ≠ 0 ∧ ¬ own k) = t.routes.filter (fun k => k.metric ≠ 0 ∧ ¬ own k) ↔
      (t.ownsBootstrap = true → ∀ k, t.routes.find? KernelRoute.isBootstrap = some k →
        own k = true) := by
    have hsame : t.routes.filter (fun k => k.metric ≠ 0 ∧ ¬ own k) =
        after.filter (fun k => k.metric ≠ 0 ∧ ¬ own k) := by
      rw [hnonzero, ← hothers, ← hnonzero]
    rw [hroutes, hsame, ← find?_isBootstrap hothers]
    split_ifs with howns
    · rw [filter_eraseP_eq_iff]
      refine ⟨fun h _ k hk => ?_, fun h k hk => by simp [h howns k hk]⟩
      simpa [isBootstrap_metric (List.find?_some hk)] using h k hk
    · simp [howns]
  constructor
  · intro h
    obtain ⟨hhop, hcopy⟩ := (single_iff hsurvive hcount hrest).mp (hzero ▸ h.single)
    exact ⟨hhop, hcopy, hbootstrap.mp h.others⟩
  · intro h
    refine ⟨?_, hbootstrap.mpr h.bootstrap⟩
    rw [hzero]
    exact (single_iff hsurvive hcount hrest).mpr ⟨h.nextHop, h.copy⟩

/-- Beside a default route by somebody else, a point-to-point link has one at metric 0. -/
def pointToPoint : Table where
  routes :=
    [{ gateway := some (Ipv4Addr.ofOctets 10 0 0 9), interface := "wan", metric := 0
       proto := "static" },
      { gateway := none, interface := "ppp0", metric := 0, proto := "boot" }]
  ownsBootstrap := false

/-- The default route of a point-to-point link stays where it is, beside the one installed, whichever
key `ip route replace` has. -/
theorem not_installed : ¬ ∃ key : ReplaceKey, ∀ (own : KernelRoute → Bool) (t : Table)
    (gateway : Ipv4Addr) (interface : String),
      (∀ k, own k = true → t.ownsBootstrap = true ∧ k.isBootstrap = true) →
        Installed own gateway interface t.routes
          (t.setDefaultRouteBy key gateway interface).routes := by
  rintro ⟨key, hall⟩
  obtain ⟨k, hk, -⟩ := (hall (fun _ => false) pointToPoint (Ipv4Addr.ofOctets 10 0 0 1) "wan"
    (by simp)).single
  have hlength := congrArg List.length hk
  rw [List.length_singleton] at hlength
  revert hlength
  cases key <;> decide

end Vlb.Router
