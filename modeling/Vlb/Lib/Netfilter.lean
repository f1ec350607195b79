import Mathlib.Tactic.Common

/-!
# Packet and connection marks

The part of netfilter that a marking chain uses: rules tried in order, `RETURN`, and the targets
`MARK` and `CONNMARK`, which work under masks.

* `traverse`: a packet crosses a chain.
* `and_xor_mask`, `and_xor_not_mask`: a masked write changes the bits of the mask and no others.
-/

namespace Netfilter

/-- The direction of a packet, seen from the one that opened its connection. -/
inductive Direction
  | original
  | reply
  deriving DecidableEq, Repr

/-- The mark of a packet and the mark of its connection. -/
structure Marks (w : ℕ) where
  packet : BitVec w
  connection : BitVec w
  deriving DecidableEq

/-- Which packets a rule is for. -/
inductive Criterion (w : ℕ)
  | any
  | ctdir (d : Direction)
  | markNot (value mask : BitVec w)
  deriving DecidableEq

/-- What a rule does with a packet. -/
inductive Target (w : ℕ)
  | ret
  | restoreMark (nfmask ctmask : BitVec w)
  | saveMark (nfmask ctmask : BitVec w)
  | setXmark (value mask : BitVec w)
  deriving DecidableEq

/-- A rule of a chain. -/
structure Rule (w : ℕ) where
  criterion : Criterion w := .any
  target : Target w
  deriving DecidableEq

variable {w : ℕ}

/-- The rule is for this packet. -/
def Criterion.holds (d : Direction) (m : Marks w) : Criterion w → Bool
  | .any => true
  | .ctdir d' => d = d'
  | .markNot value mask => m.packet &&& mask ≠ value

/-- What a target writes; `none` ends the traversal. -/
def Target.act (m : Marks w) : Target w → Option (Marks w)
  | .ret => none
  | .restoreMark nfmask ctmask =>
    some { m with packet := (m.packet &&& ~~~nfmask) ^^^ (m.connection &&& ctmask) }
  | .saveMark nfmask ctmask =>
    some { m with connection := (m.connection &&& ~~~ctmask) ^^^ (m.packet &&& nfmask) }
  | .setXmark value mask => some { m with packet := (m.packet &&& ~~~mask) ^^^ value }

/-- A packet going in the direction `d` crosses the chain. -/
def traverse (d : Direction) : List (Rule w) → Marks w → Marks w
  | [], m => m
  | r :: rs, m =>
    if r.criterion.holds d m then
      match r.target.act m with
      | none => m
      | some m' => traverse d rs m'
    else traverse d rs m

/-! ## Writing under a mask -/

theorem and_xor_mask (x v m : BitVec w) : ((x &&& ~~~m) ^^^ v) &&& m = v &&& m := by
  ext i hi
  simp only [BitVec.getElem_and, BitVec.getElem_xor, BitVec.getElem_not]
  cases m[i] <;> simp

theorem and_xor_not_mask (x v m : BitVec w) :
    ((x &&& ~~~m) ^^^ (v &&& m)) &&& ~~~m = x &&& ~~~m := by
  ext i hi
  simp only [BitVec.getElem_and, BitVec.getElem_xor, BitVec.getElem_not]
  cases m[i] <;> simp

theorem and_and_self (x m : BitVec w) : x &&& m &&& m = x &&& m := by
  rw [BitVec.and_assoc, BitVec.and_self]

end Netfilter
