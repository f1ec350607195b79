import Vlb.Net.Pin

/-!
# Marks that tell the providers apart

A provider's mark is the base plus its priority. Rules see it under the mask, so the marks have to
fit in there and to differ there. `validate` looks at the base, and at the mark of the highest
priority number.

* `WellMarked`: under the mask the marks are nonzero and pairwise distinct, and they fit.
* **`wellMarked_iff`**: an accepted configuration is well marked exactly when the marks below the
  highest one fit as well.
* `wellMarked_of_low`: they do where the mask is a block of low bits, as the default one is.
* `WellMarked.selects`: no packet carries the marks of two providers.
-/

namespace Vlb.Pin

/-- The marks select the providers: under the mask they are nonzero and pairwise distinct, and none
has a bit outside it. -/
structure WellMarked (cfg : Config) : Prop where
  nonzero : ∀ p ∈ cfg.providers, (cfg.markFor p).toBitVec &&& mask cfg ≠ 0
  distinct : (cfg.providers.map fun p => (cfg.markFor p).toBitVec &&& mask cfg).Nodup
  inside : ∀ p ∈ cfg.providers, InMask cfg p

variable {cfg : Config}

theorem and_eq_self_of_and_not {w : ℕ} {x m : BitVec w} (h : x &&& ~~~m = 0) : x &&& m = x := by
  ext i hi
  have hbit := congrArg (fun b : BitVec w => b[i]) h
  simp only [BitVec.getElem_and, BitVec.getElem_not] at hbit
  simp only [BitVec.getElem_and]
  cases hx : x[i] <;> cases hm : m[i] <;> simp_all

theorem routing_accepted (h : cfg.Accepted) :
    cfg.routing.fwmarkBase.toNat + (maxPriority cfg.providers).toNat < 2 ^ 32 ∧
      (cfg.routing.fwmarkBase + maxPriority cfg.providers).toBitVec &&& mask cfg =
        (cfg.routing.fwmarkBase + maxPriority cfg.providers).toBitVec := by
  have hrouting := (Config.accepted_iff.mp h).2.2.1
  simp only [RoutingConfig.validate, bind_eq_ok, bailIf_eq_ok, not_not] at hrouting
  obtain ⟨-, -, -, -, -, -, hmax, hfits, -⟩ := hrouting
  exact ⟨by omega, and_eq_self_of_and_not (congrArg UInt32.toBitVec hfits)⟩

/-- The mark of the highest priority number is the one that `validate` looks at. -/
theorem inMask_of_highest (h : cfg.Accepted) {p : Provider}
    (hp : p.priority = maxPriority cfg.providers) : InMask cfg p := by
  rw [InMask, Config.markFor, hp]
  exact (routing_accepted h).2

theorem markFor_inj {p q : Provider} (h : cfg.markFor p = cfg.markFor q) :
    p.priority = q.priority := by
  simpa [Config.markFor] using h

/-- **The marks select the providers** exactly when those below the highest fit in the mask. -/
theorem wellMarked_iff (h : cfg.Accepted) : WellMarked cfg ↔
    ∀ p ∈ cfg.providers, p.priority ≠ maxPriority cfg.providers → InMask cfg p := by
  refine ⟨fun hmarks p hp _ => hmarks.inside p hp, fun hfits => ?_⟩
  have hinside : ∀ p ∈ cfg.providers, InMask cfg p := by
    intro p hp
    by_cases hhigh : p.priority = maxPriority cfg.providers
    · exact inMask_of_highest h hhigh
    · exact hfits p hp hhigh
  refine ⟨fun p hp hzero => ?_, ?_, hinside⟩
  · rw [show _ = _ from hinside p hp] at hzero
    exact Config.markFor_ne_zero h hp (UInt32.toBitVec_inj.mp hzero)
  · have hmap : (cfg.providers.map fun p => (cfg.markFor p).toBitVec &&& mask cfg) =
        cfg.providers.map fun p => (cfg.markFor p).toBitVec :=
      List.map_congr_left hinside
    rw [hmap]
    refine (List.Nodup.of_map _ (Config.priorities_nodup h)).map_on fun p hp q hq heq => ?_
    exact List.inj_on_of_nodup_map (Config.priorities_nodup h) hp hq
      (markFor_inj (UInt32.toBitVec_inj.mp heq))

/-- A mask that is a block of low bits, such as the default one, is always enough. -/
theorem wellMarked_of_low (h : cfg.Accepted) {k : ℕ}
    (hmask : cfg.routing.fwmarkMask.toNat + 1 = 2 ^ k) : WellMarked cfg := by
  refine (wellMarked_iff h).mpr fun p hp _ => ?_
  obtain ⟨hsum, hfits⟩ := routing_accepted h
  have hle := UInt32.le_iff_toNat_le.mp (Config.le_maxPriority hp)
  have hmark : (cfg.markFor p).toNat = cfg.routing.fwmarkBase.toNat + p.priority.toNat := by
    rw [Config.markFor, UInt32.toNat_add, Nat.mod_eq_of_lt (by omega)]
  have hmask' : cfg.routing.fwmarkMask.toNat = 2 ^ k - 1 := by omega
  have hmax := congrArg BitVec.toNat hfits
  simp only [mask, BitVec.toNat_and, UInt32.toNat_toBitVec, UInt32.toNat_add, hmask',
    Nat.and_two_pow_sub_one_eq_mod] at hmax
  have hlt := Nat.mod_lt (cfg.routing.fwmarkBase.toNat + (maxPriority cfg.providers).toNat)
    (Nat.two_pow_pos k)
  rw [Nat.mod_eq_of_lt (a := cfg.routing.fwmarkBase.toNat + _) hsum] at hmax
  refine BitVec.eq_of_toNat_eq ?_
  simp only [mask, BitVec.toNat_and, UInt32.toNat_toBitVec, hmask', Nat.and_two_pow_sub_one_eq_mod]
  exact Nat.mod_eq_of_lt (by omega)

/-- **One packet, one provider**: no mark is that of two of them. -/
theorem WellMarked.selects (h : WellMarked cfg) {p q : Provider} (hp : p ∈ cfg.providers)
    (hq : q ∈ cfg.providers) {mark : BitVec 32} (hcp : Carries cfg p mark)
    (hcq : Carries cfg q mark) : p = q :=
  List.inj_on_of_nodup_map h.distinct hp hq (hcp.symm.trans hcq)

/-- The marks of these three are 5, 6 and 12; the mask is 12. -/
def sparseMask : Config where
  providers :=
    [{ name := "a", gateway := Ipv4Addr.ofOctets 10 0 0 1, interface := "wan", priority := 0 },
      { name := "b", gateway := Ipv4Addr.ofOctets 10 0 0 2, interface := "wan", priority := 1 },
      { name := "c", gateway := Ipv4Addr.ofOctets 10 0 0 3, interface := "wan", priority := 7 }]
  routing := { fwmarkBase := 5, fwmarkMask := 12 }

theorem wellMarked_iff_default :
    WellMarked { sparseMask with routing := {} } ↔
      ∀ p ∈ sparseMask.providers, p.priority ≠ maxPriority sparseMask.providers →
        InMask { sparseMask with routing := {} } p :=
  wellMarked_iff (by decide)

/-- A mask with a hole is accepted, and two providers share their mark under it. -/
theorem not_wellMarked : ¬ ∀ cfg : Config, cfg.Accepted → WellMarked cfg := by
  intro hall
  have hdistinct := (hall sparseMask (by decide)).distinct
  revert hdistinct
  decide

end Vlb.Pin
