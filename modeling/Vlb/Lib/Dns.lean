import Mathlib.Algebra.GroupWithZero.Nat
import Mathlib.Data.List.Basic
import Mathlib.Tactic.Common

/-!
# DNS messages on the wire

The format of RFC 1035, as its writers see it: names as labels, records, and messages of sections.

* `be16`, `ofBe16`: numbers of two bytes, the high one first.
* `Label`, `wireName`: names without compression; `readName` reads them back (`readName_wireName`).
* `Question`, `readQuestion`: the question section.
* `Owner`: the name of a record in any of its forms, with a compression pointer or without.
* `Record`, `Reply`: records, and a reply that reports no error.
-/

namespace Dns

/-! ## Numbers -/

/-- The two bytes of a number, the high one first. -/
def be16 (n : UInt16) : List UInt8 := [UInt8.ofNat (n.toNat / 256), UInt8.ofNat n.toNat]

/-- Two bytes, the high one first. -/
def ofBe16 (hi lo : UInt8) : UInt16 := UInt16.ofNat (hi.toNat * 256 + lo.toNat)

@[simp] theorem length_be16 (n : UInt16) : (be16 n).length = 2 := rfl

@[simp] theorem ofBe16_be16 (n : UInt16) :
    ofBe16 (UInt8.ofNat (n.toNat / 256)) (UInt8.ofNat n.toNat) = n := by
  have hn := n.toNat_lt
  apply UInt16.toNat_inj.mp
  simp only [ofBe16, UInt16.toNat_ofNat', UInt8.toNat_ofNat']
  omega

/-- Four bytes, the high one first. -/
def be32 (n : UInt32) : List UInt8 :=
  [UInt8.ofNat (n.toNat / 16777216), UInt8.ofNat (n.toNat / 65536), UInt8.ofNat (n.toNat / 256),
    UInt8.ofNat n.toNat]

/-! ## Names -/

/-- The longest label there is. -/
def maxLabel : ℕ := 63

/-- The longest name there is, with its length bytes. -/
def maxName : ℕ := 255

/-- One label of a name. -/
structure Label where
  bytes : List UInt8
  nonempty : bytes ≠ []
  fits : bytes.length ≤ maxLabel

/-- A label follows its length. -/
def wireLabel (bytes : List UInt8) : List UInt8 := UInt8.ofNat bytes.length :: bytes

/-- A name without compression: its labels, up to the root. -/
def wireName (labels : List (List UInt8)) : List UInt8 := labels.flatMap wireLabel ++ [0]

@[simp] theorem wireName_nil : wireName [] = [0] := rfl

theorem wireName_cons (label : List UInt8) (labels : List (List UInt8)) :
    wireName (label :: labels) = UInt8.ofNat label.length :: (label ++ wireName labels) := by
  simp [wireName, wireLabel]

theorem length_wireName (labels : List (List UInt8)) :
    (wireName labels).length = (labels.map fun l => l.length + 1).sum + 1 := by
  induction labels with
  | nil => rfl
  | cons label labels ih =>
    simp only [wireName_cons, List.length_cons, List.length_append, ih, List.map_cons,
      List.sum_cons]
    omega

/-- A name without compression, and what follows it. -/
def readName (bs : List UInt8) : Option (List (List UInt8) × List UInt8) :=
  match bs with
  | [] => none
  | len :: rest =>
    if len = 0 then some ([], rest)
    else if maxLabel < len.toNat ∨ rest.length < len.toNat then none
    else
      (readName (rest.drop len.toNat)).map fun (labels, rest') =>
        (rest.take len.toNat :: labels, rest')
termination_by bs.length
decreasing_by
  simp only [List.length_drop, List.length_cons]
  omega

/-- **A name is read as it was written**, whatever follows. -/
theorem readName_wireName {labels : List (List UInt8)}
    (h : ∀ l ∈ labels, l ≠ [] ∧ l.length ≤ maxLabel) (rest : List UInt8) :
    readName (wireName labels ++ rest) = some (labels, rest) := by
  induction labels with
  | nil => simp [readName]
  | cons label labels ih =>
    obtain ⟨hne, hfits⟩ := h label List.mem_cons_self
    have hpos : 0 < label.length := List.length_pos_iff.mpr hne
    have hlen : (UInt8.ofNat label.length).toNat = label.length := by
      rw [UInt8.toNat_ofNat']
      unfold maxLabel at hfits
      omega
    have hzero : UInt8.ofNat label.length ≠ 0 := by
      intro hzero
      rw [hzero] at hlen
      have hbyte : (0 : UInt8).toNat = 0 := rfl
      omega
    rw [wireName_cons, List.cons_append, readName, if_neg hzero, hlen, List.append_assoc,
      List.drop_left, List.take_left, ih fun l hl => h l (List.mem_cons_of_mem label hl), if_neg]
    · rfl
    · rw [List.length_append]
      omega

/-! ## Questions -/

/-- What is asked. -/
structure Question where
  labels : List (List UInt8)
  qtype : UInt16
  qclass : UInt16
  deriving DecidableEq

/-- The first question of a section, and what follows it. -/
def readQuestion (bs : List UInt8) : Option (Question × List UInt8) :=
  match readName bs with
  | some (labels, t₁ :: t₀ :: c₁ :: c₀ :: rest) =>
    some ({ labels, qtype := ofBe16 t₁ t₀, qclass := ofBe16 c₁ c₀ }, rest)
  | _ => none

theorem readQuestion_wire {labels : List (List UInt8)}
    (h : ∀ l ∈ labels, l ≠ [] ∧ l.length ≤ maxLabel) (qtype qclass : UInt16) :
    readQuestion (wireName labels ++ (be16 qtype ++ be16 qclass)) =
      some ({ labels, qtype, qclass }, []) := by
  rw [readQuestion, readName_wireName h]
  show some (({ labels, qtype := ofBe16 _ _, qclass := ofBe16 _ _ } : Question), _) = _
  rw [ofBe16_be16, ofBe16_be16]

/-! ## Records -/

/-- What ends the labels of an owner's name: the root, or the place where the name goes on. -/
inductive NameEnd
  | root
  | pointer (offset : Fin (2 ^ 14))

/-- The first two bits of a pointer are set, which no label's length has. -/
def NameEnd.wire : NameEnd → List UInt8
  | .root => [0]
  | .pointer offset => [UInt8.ofNat (0xC0 + offset.val / 256), UInt8.ofNat offset.val]

/-- The name of a record, in any legal form: labels, a pointer, or labels that end in a pointer. -/
structure Owner where
  labels : List Label
  stop : NameEnd

/-- The labels, and what ends them. -/
def Owner.wire (o : Owner) : List UInt8 :=
  (o.labels.flatMap fun l => wireLabel l.bytes) ++ o.stop.wire

/-- A resource record. -/
structure Record where
  owner : Owner
  rtype : UInt16
  rclass : UInt16
  ttl : UInt32
  rdata : List UInt8
  fits : rdata.length < 2 ^ 16

/-- What comes between the owner and the data of a record. -/
def Record.fixed (r : Record) : List UInt8 :=
  be16 r.rtype ++ be16 r.rclass ++ be32 r.ttl ++ be16 (UInt16.ofNat r.rdata.length)

/-- A record on the wire. -/
def Record.wire (r : Record) : List UInt8 := r.owner.wire ++ (r.fixed ++ r.rdata)

@[simp] theorem Record.length_fixed (r : Record) : r.fixed.length = 10 := rfl

/-! ## Replies -/

/-- A reply without an error, apart from its id and its question. -/
structure Reply where
  flags : UInt16
  /-- The reply bit is set. -/
  isReply : flags &&& 0x8000 ≠ 0
  /-- The response code is that of no error. -/
  noError : flags &&& 0x000F = 0
  answers : List Record
  authority : List Record
  additional : List Record
  fits : answers.length < 2 ^ 16

/-- The records of a section, one after the other. -/
def wireSection (records : List Record) : List UInt8 := records.flatMap Record.wire

/-- Twelve bytes. -/
def Reply.header (r : Reply) (id : UInt16) : List UInt8 :=
  be16 id ++ be16 r.flags ++ be16 1 ++ be16 (UInt16.ofNat r.answers.length) ++
    be16 (UInt16.ofNat r.authority.length) ++ be16 (UInt16.ofNat r.additional.length)

/-- The reply to the question with this id, which it repeats as it was asked. -/
def Reply.wire (r : Reply) (id : UInt16) (question : List UInt8) : List UInt8 :=
  r.header id ++ (question ++ (wireSection r.answers ++
    (wireSection r.authority ++ wireSection r.additional)))

@[simp] theorem Reply.length_header (r : Reply) (id : UInt16) : (r.header id).length = 12 := rfl

/-! ## Length bytes -/

theorem Label.length_not_pointer (l : Label) :
    UInt8.ofNat l.bytes.length ≠ 0 ∧ UInt8.ofNat l.bytes.length &&& 0xC0 ≠ 0xC0 ∧
      (UInt8.ofNat l.bytes.length).toNat = l.bytes.length := by
  have hsmall : ∀ n < 64, 0 < n → UInt8.ofNat n ≠ 0 ∧ UInt8.ofNat n &&& 0xC0 ≠ 0xC0 ∧
      (UInt8.ofNat n).toNat = n := by decide
  exact hsmall l.bytes.length (Nat.lt_succ_of_le l.fits) (List.length_pos_iff.mpr l.nonempty)

theorem pointer_byte (offset : Fin (2 ^ 14)) :
    UInt8.ofNat (0xC0 + offset.val / 256) ≠ 0 ∧
      UInt8.ofNat (0xC0 + offset.val / 256) &&& 0xC0 = 0xC0 := by
  have hhigh : ∀ n < 64, UInt8.ofNat (0xC0 + n) ≠ 0 ∧ UInt8.ofNat (0xC0 + n) &&& 0xC0 = 0xC0 := by
    decide
  have hlt := offset.isLt
  exact hhigh (offset.val / 256) (by omega)

end Dns
