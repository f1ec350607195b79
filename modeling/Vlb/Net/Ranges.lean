import Vlb.Lib.Blocks
import Vlb.Net.Canary

/-!
# The ranges of non-routable addresses

A public name that resolves to a non-routable address has been rewritten on the way. Eight tests of
different shapes classify an address, and each has the name of a range.

* `Range`: the names, with the blocks that they stand for.
* `isPrivate_iff` and its kind: a test and its blocks.
* `nonRoutableRange_isSome_iff`: what the tests cover.
* `classified_iff`: the addresses that are classified as the names say.
-/

namespace Vlb.Canary

open Blocks Ipv4Addr

/-! ## Blocks -/

/-- 0.0.0.0/8. -/
def thisNetwork : Block 32 := ⟨ofOctets 0 0 0 0, 8⟩

/-- 127.0.0.0/8. -/
def loopback : Block 32 := ⟨ofOctets 127 0 0 0, 8⟩

/-- 10.0.0.0/8. -/
def private10 : Block 32 := ⟨ofOctets 10 0 0 0, 8⟩

/-- 172.16.0.0/12. -/
def private172 : Block 32 := ⟨ofOctets 172 16 0 0, 12⟩

/-- 192.168.0.0/16. -/
def private192 : Block 32 := ⟨ofOctets 192 168 0 0, 16⟩

/-- 169.254.0.0/16. -/
def linkLocal : Block 32 := ⟨ofOctets 169 254 0 0, 16⟩

/-- 100.64.0.0/10, for the carrier's own translation of addresses. -/
def cgnat : Block 32 := ⟨ofOctets 100 64 0 0, 10⟩

/-- 224.0.0.0/4. -/
def multicast : Block 32 := ⟨ofOctets 224 0 0 0, 4⟩

/-- 255.255.255.255. -/
def broadcast : Block 32 := ⟨ofOctets 255 255 255 255, 32⟩

/-- 240.0.0.0/4. -/
def reserved : Block 32 := ⟨ofOctets 240 0 0 0, 4⟩

/-- Where no public name resolves to. -/
def nonRoutable : List (Block 32) :=
  [thisNetwork, loopback, private10, private172, private192, linkLocal, cgnat, multicast, reserved]

/-- The ranges that have a name. -/
inductive Range
  | thisNetwork
  | loopback
  | rfc1918
  | linkLocal
  | cgnat
  | multicast
  | broadcast
  | reserved
  deriving DecidableEq

namespace Range

/-- What the detail calls it. -/
def name : Range → String
  | .thisNetwork => "0.0.0.0/8"
  | .loopback => "127.0.0.0/8 loopback"
  | .rfc1918 => "RFC1918 private"
  | .linkLocal => "169.254.0.0/16 link-local"
  | .cgnat => "100.64.0.0/10 CGNAT"
  | .multicast => "multicast"
  | .broadcast => "255.255.255.255 broadcast"
  | .reserved => "240.0.0.0/4 reserved"

/-- The blocks that are meant. -/
def blocks : Range → List (Block 32)
  | .thisNetwork => [Canary.thisNetwork]
  | .loopback => [Canary.loopback]
  | .rfc1918 => [private10, private172, private192]
  | .linkLocal => [Canary.linkLocal]
  | .cgnat => [Canary.cgnat]
  | .multicast => [Canary.multicast]
  | .broadcast => [Canary.broadcast]
  | .reserved => [Canary.reserved]

/-- One of them has the address. -/
def contains (r : Range) (ip : Ipv4Addr) : Bool := r.blocks.any fun b => b.contains ip

end Range

/-! ## A test and its blocks -/

variable {ip : Ipv4Addr}

theorem toNat_octet0 (ip : Ipv4Addr) : ip.octet0.toNat = ip.toNat / 2 ^ 24 := by
  have hlt : ip.toNat < 2 ^ 32 := ip.isLt
  rw [octet0, BitVec.extractLsb'_toNat, Nat.shiftRight_eq_div_pow]
  omega

theorem toNat_octet1 (ip : Ipv4Addr) : ip.octet1.toNat = ip.toNat / 2 ^ 16 % 2 ^ 8 := by
  rw [octet1, BitVec.extractLsb'_toNat, Nat.shiftRight_eq_div_pow]

theorem isUnspecified_iff : ip.isUnspecified = true ↔ ip = 0 := by simp [isUnspecified]

theorem isLoopback_iff : ip.isLoopback = true ↔ loopback.contains ip = true := Iff.rfl

theorem isPrivate_iff : ip.isPrivate = true ↔
    private10.contains ip = true ∨ private172.contains ip = true ∨ private192.contains ip = true := by
  rw [isPrivate, decide_eq_true_iff, Block.contains_iff (by decide), Block.contains_iff (by decide),
    Block.contains_iff (by decide)]
  simp only [← BitVec.toNat_inj, BitVec.le_def, toNat_octet0, toNat_octet1]
  simp [private10, private172, private192, Block.first, Block.size, ofOctets]
  omega

theorem isLinkLocal_iff : ip.isLinkLocal = true ↔ linkLocal.contains ip = true := by
  rw [Block.contains_iff (by decide), isLinkLocal, Bool.and_eq_true, beq_iff_eq, beq_iff_eq]
  simp only [← BitVec.toNat_inj, toNat_octet0, toNat_octet1]
  simp [linkLocal, Block.first, Block.size, ofOctets]
  omega

theorem cgnat_iff : ip.octet0 = 100 ∧ 64 ≤ ip.octet1 ∧ ip.octet1 < 128 ↔
    cgnat.contains ip = true := by
  rw [Block.contains_iff (by decide)]
  simp only [← BitVec.toNat_inj, BitVec.le_def, BitVec.lt_def, toNat_octet0, toNat_octet1]
  simp [cgnat, Block.first, Block.size, ofOctets]
  omega

theorem isMulticast_iff : ip.isMulticast = true ↔ multicast.contains ip = true := Iff.rfl

theorem isBroadcast_iff : ip.isBroadcast = true ↔ broadcast.contains ip = true := by
  rw [broadcast, Block.contains_single, isBroadcast, beq_iff_eq]
  rfl

theorem reserved_iff : 240 ≤ ip.octet0 ↔ reserved.contains ip = true := by
  have hlt : ip.toNat < 2 ^ 32 := ip.isLt
  rw [Block.contains_iff (by decide)]
  simp only [BitVec.le_def, toNat_octet0]
  simp [reserved, Block.first, Block.size, ofOctets]
  omega

theorem reserved_of_broadcast (h : broadcast.contains ip = true) : reserved.contains ip = true := by
  rw [broadcast, Block.contains_single] at h
  subst h
  decide

/-! ## The whole classification -/

/-- **The name is that of a range that contains the address.** -/
theorem range_of_nonRoutableRange {name : String} (h : nonRoutableRange ip = some name) :
    ∃ r : Range, r.name = name ∧ r.contains ip = true := by
  unfold nonRoutableRange at h
  split_ifs at h with h0 hlo hpriv hll hcg hmc hbc hres <;> cases h
  · refine ⟨.thisNetwork, rfl, ?_⟩
    rw [isUnspecified_iff.mp h0]
    decide
  · exact ⟨.loopback, rfl, by simp [Range.contains, Range.blocks, isLoopback_iff.mp hlo]⟩
  · refine ⟨.rfc1918, rfl, ?_⟩
    simpa [Range.contains, Range.blocks, or_assoc] using isPrivate_iff.mp hpriv
  · exact ⟨.linkLocal, rfl, by simp [Range.contains, Range.blocks, isLinkLocal_iff.mp hll]⟩
  · exact ⟨.cgnat, rfl, by simp [Range.contains, Range.blocks, cgnat_iff.mp hcg]⟩
  · exact ⟨.multicast, rfl, by simp [Range.contains, Range.blocks, isMulticast_iff.mp hmc]⟩
  · exact ⟨.broadcast, rfl, by simp [Range.contains, Range.blocks, isBroadcast_iff.mp hbc]⟩
  · exact ⟨.reserved, rfl, by simp [Range.contains, Range.blocks, reserved_iff.mp hres]⟩

theorem nonRoutableRange_isSome_iff : (nonRoutableRange ip).isSome = true ↔
    ip = 0 ∨ ∃ b ∈ nonRoutable.tail, b.contains ip = true := by
  have hbc := @reserved_of_broadcast ip
  unfold nonRoutableRange
  simp only [isUnspecified_iff, isLoopback_iff, isPrivate_iff, isLinkLocal_iff, cgnat_iff,
    isMulticast_iff, isBroadcast_iff, reserved_iff, nonRoutable, List.tail_cons,
    List.exists_mem_cons_iff, List.not_mem_nil, false_and, exists_false, or_false]
  split_ifs <;> grind

theorem not_tail_of_thisNetwork (h : thisNetwork.contains ip = true) :
    ¬ ∃ b ∈ nonRoutable.tail, b.contains ip = true := by
  have hafter : ∀ b ∈ nonRoutable.tail,
      b.length ≤ 32 ∧ thisNetwork.first + thisNetwork.size ≤ b.first := by decide
  rintro ⟨b, hb, hip⟩
  obtain ⟨hlen, hle⟩ := hafter b hb
  exact Block.not_contains_of_le (by decide) hlen hle h hip

/-- An address is classified when it is in one of the ranges, under the name of a range that has
it. -/
structure Classified (ip : Ipv4Addr) : Prop where
  isSome_iff : (nonRoutableRange ip).isSome = true ↔ ∃ b ∈ nonRoutable, b.contains ip = true
  named : ∀ name, nonRoutableRange ip = some name →
    ∃ r : Range, r.name = name ∧ r.contains ip = true

/-- **The classification is right outside 0.0.0.0/8**, and at the one address there that is
unspecified. -/
theorem classified_iff (ip : Ipv4Addr) :
    Classified ip ↔ (thisNetwork.contains ip = true → ip = 0) := by
  have hsplit : (∃ b ∈ nonRoutable, b.contains ip = true) ↔
      thisNetwork.contains ip = true ∨ ∃ b ∈ nonRoutable.tail, b.contains ip = true :=
    List.exists_mem_cons_iff _ _ _
  constructor
  · intro h hthis
    have hsome := h.isSome_iff.mpr (hsplit.mpr (Or.inl hthis))
    exact (nonRoutableRange_isSome_iff.mp hsome).resolve_right (not_tail_of_thisNetwork hthis)
  · intro h
    refine ⟨?_, fun name => range_of_nonRoutableRange⟩
    rw [nonRoutableRange_isSome_iff, hsplit]
    refine or_congr_left ⟨?_, h⟩
    rintro rfl
    decide

/-- 0.1.2.3 passes for an address that a public name may have. -/
theorem not_classified : ¬ ∀ ip : Ipv4Addr, Classified ip := by
  intro hall
  have hip := (hall (ofOctets 0 1 2 3)).isSome_iff.mpr ⟨thisNetwork, by decide, by decide⟩
  exact absurd hip (by decide)

end Vlb.Canary
