import Vlb.Config
import Vlb.Lib.Netfilter

/-!
# Pinning connections to providers

The chain that stamps each forwarded connection, on its first packet, with the mark of the provider
that is active then, and restores that stamp on every later packet.

* `rules`: the chain that `install` writes for one active mark.
* `Carries`: a connection mark is that of a provider, under the mask.
* **`traverse_rules_fresh`**, **`traverse_rules_stamped`**, `traverse_rules_reply`: what the chain
  does to the mark of a connection.
* `traverse_rules_packet`, `traverse_rules_outside`: what it does to the packet, and what neither
  of the two marks notices.
-/

namespace Vlb.Pin

open Netfilter

variable (cfg : Config)

/-- The bits that are the daemon's. -/
def mask : BitVec 32 := cfg.routing.fwmarkMask.toBitVec

/-- The rules of the chain, in the order they are tried. -/
def rules (activeMark : UInt32) : List (Rule 32) :=
  [{ criterion := .ctdir .reply, target := .ret },
    { target := .restoreMark (mask cfg) (mask cfg) },
    { criterion := .markNot 0 (mask cfg), target := .ret },
    { target := .setXmark activeMark.toBitVec (mask cfg) },
    { target := .saveMark (mask cfg) (mask cfg) }]

/-- `install`, which needs an interface to hook the chain to; a refused batch changes nothing. -/
def install (activeMark : UInt32) (chain : List (Rule 32)) : List (Rule 32) :=
  if cfg.lanInterface.isSome then rules cfg activeMark else chain

/-- The connection mark is that of `p`, as far as the mask goes. -/
def Carries (p : Provider) (mark : BitVec 32) : Prop :=
  mark &&& mask cfg = (cfg.markFor p).toBitVec &&& mask cfg

instance (p : Provider) (mark : BitVec 32) : Decidable (Carries cfg p mark) :=
  inferInstanceAs (Decidable (_ = _))

/-- What `conntrack -D -m mark/mask` deletes. -/
def evicts (p : Provider) (mark : BitVec 32) : Bool :=
  mark &&& mask cfg = (cfg.markFor p).toBitVec

/-- The mark of `p` has no bit outside the mask. -/
def InMask (p : Provider) : Prop :=
  (cfg.markFor p).toBitVec &&& mask cfg = (cfg.markFor p).toBitVec

instance (p : Provider) : Decidable (InMask cfg p) := inferInstanceAs (Decidable (_ = _))

variable {cfg}

theorem Carries.of_evicts {p : Provider} {mark : BitVec 32} (h : evicts cfg p mark = true) :
    Carries cfg p mark := by
  have h' : mark &&& mask cfg = (cfg.markFor p).toBitVec := by simpa [evicts] using h
  rw [Carries, ← h', and_and_self]

theorem evicts_iff {p : Provider} (hp : InMask cfg p) {mark : BitVec 32} :
    evicts cfg p mark = true ↔ Carries cfg p mark := by
  rw [Carries, hp, evicts, decide_eq_true_eq]

theorem traverse_rules_reply (activeMark : UInt32) (m : Marks 32) :
    traverse .reply (rules cfg activeMark) m = m := rfl

/-- A packet in the original direction: the stamp is restored, and made first where there is none. -/
theorem traverse_rules_original (activeMark : UInt32) (m : Marks 32) :
    traverse .original (rules cfg activeMark) m =
      let restored := (m.packet &&& ~~~mask cfg) ^^^ (m.connection &&& mask cfg)
      let stamped := (restored &&& ~~~mask cfg) ^^^ activeMark.toBitVec
      if m.connection &&& mask cfg = 0 then
        ⟨stamped, (m.connection &&& ~~~mask cfg) ^^^ (stamped &&& mask cfg)⟩
      else ⟨restored, m.connection⟩ := by
  have hrestored :
      ((m.packet &&& ~~~mask cfg) ^^^ (m.connection &&& mask cfg)) &&& mask cfg =
        m.connection &&& mask cfg := by
    rw [and_xor_mask, and_and_self]
  by_cases hm : m.connection &&& mask cfg = 0
  · rw [hm] at hrestored
    simp only [Netfilter.traverse, rules, Criterion.holds, Target.act, hm, hrestored, reduceCtorEq,
      decide_false, Bool.false_eq_true, if_false, if_true, not_true_eq_false, ne_eq]
  · rw [← hrestored] at hm
    simp only [Netfilter.traverse, rules, Criterion.holds, Target.act, reduceCtorEq, decide_false,
      Bool.false_eq_true, if_false, if_true, decide_eq_true_eq, ne_eq, if_pos hm,
      if_neg (hrestored ▸ hm)]

/-- **A connection that is stamped keeps its stamp.** -/
theorem traverse_rules_stamped (activeMark : UInt32) (m : Marks 32)
    (hm : m.connection &&& mask cfg ≠ 0) :
    (traverse .original (rules cfg activeMark) m).connection = m.connection := by
  rw [traverse_rules_original]
  simp only [if_neg hm]

/-- **A connection that is not is stamped with the active mark**, and keeps its other bits. -/
theorem traverse_rules_fresh (activeMark : UInt32) (m : Marks 32)
    (hm : m.connection &&& mask cfg = 0) :
    (traverse .original (rules cfg activeMark) m).connection &&& mask cfg =
        activeMark.toBitVec &&& mask cfg ∧
      (traverse .original (rules cfg activeMark) m).connection &&& ~~~mask cfg =
        m.connection &&& ~~~mask cfg := by
  rw [traverse_rules_original]
  simp only [if_pos hm]
  exact ⟨by rw [and_xor_mask, and_and_self, and_xor_mask], by rw [and_xor_not_mask]⟩

theorem traverse_rules_packet (activeMark : UInt32) (m : Marks 32) :
    (traverse .original (rules cfg activeMark) m).packet &&& mask cfg =
      (traverse .original (rules cfg activeMark) m).connection &&& mask cfg := by
  rw [traverse_rules_original]
  by_cases hm : m.connection &&& mask cfg = 0
  · simp only [if_pos hm, and_xor_mask, and_and_self]
  · simp only [if_neg hm, and_xor_mask, and_and_self]

/-- The bits outside the mask stay as they were, on the packet and on the connection. -/
theorem traverse_rules_outside {activeMark : UInt32}
    (hactive : activeMark.toBitVec &&& mask cfg = activeMark.toBitVec) (d : Direction)
    (m : Marks 32) :
    (traverse d (rules cfg activeMark) m).packet &&& ~~~mask cfg = m.packet &&& ~~~mask cfg ∧
      (traverse d (rules cfg activeMark) m).connection &&& ~~~mask cfg =
        m.connection &&& ~~~mask cfg := by
  cases d with
  | reply => simp only [traverse_rules_reply, and_self]
  | original =>
    rw [traverse_rules_original]
    by_cases hm : m.connection &&& mask cfg = 0
    · simp only [if_pos hm]
      rw [and_xor_not_mask, ← hactive, and_xor_not_mask, and_xor_not_mask]
      exact ⟨rfl, rfl⟩
    · simp only [if_neg hm, and_xor_not_mask, and_self]

end Vlb.Pin
