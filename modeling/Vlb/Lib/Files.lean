import Mathlib.Logic.Function.Basic
import Mathlib.Tactic.Common

/-!
# A directory whose operations fail

The contents of some files, under names that are told apart, and the operations that may fail on
them, each with the way in which it ends.

* `write`, `copy`: may stop half-way, and leave a part of the contents behind.
* `rename`: replaces a file as a whole, or not at all.
* `write_apply_of_ne`, `copy_apply_of_ne`, `rename_apply_of_ne`: the other files are as they were.
-/

namespace Files

/-- The contents of a file. -/
abbrev Bytes := List UInt8

/-- What the files of a directory hold, those that are there. -/
abbrev Dir (ν : Type*) := ν → Option Bytes

/-- How a write ends. -/
inductive Write
  | done
  /-- The file could not be opened, and is as it was. -/
  | refused
  /-- It failed after this many bytes. -/
  | cutOff (written : ℕ)
  deriving DecidableEq

variable {ν : Type*} [DecidableEq ν]

/-- Did it succeed, and what is there then? -/
def write (d : Dir ν) (n : ν) (bytes : Bytes) : Write → Bool × Dir ν
  | .done => (true, Function.update d n (some bytes))
  | .refused => (false, d)
  | .cutOff written => (false, Function.update d n (some (bytes.take written)))

/-- What is not there cannot be copied. -/
def copy (d : Dir ν) (src dst : ν) (how : Write) : Bool × Dir ν :=
  match d src with
  | some bytes => write d dst bytes how
  | none => (false, d)

/-- It takes the place of what was there. -/
def rename (d : Dir ν) (src dst : ν) (succeeds : Bool) : Bool × Dir ν :=
  match d src with
  | some bytes =>
    if succeeds then (true, Function.update (Function.update d src none) dst (some bytes))
    else (false, d)
  | none => (false, d)

/-- It may fail. -/
def remove (d : Dir ν) (n : ν) (succeeds : Bool) : Dir ν :=
  if succeeds then Function.update d n none else d

variable {d : Dir ν} {n m src dst : ν} {bytes : Bytes} {how : Write} {succeeds : Bool}

theorem write_fst : (write d n bytes how).1 = true ↔ how = .done := by
  cases how <;> simp [write]

@[simp] theorem write_done_apply : (write d n bytes .done).2 n = some bytes :=
  Function.update_self _ _ _

theorem write_apply_of_ne (h : m ≠ n) : (write d n bytes how).2 m = d m := by
  cases how with
  | done => exact Function.update_of_ne h _ _
  | refused => rfl
  | cutOff written => exact Function.update_of_ne h _ _

theorem copy_apply_of_ne (h : m ≠ dst) : (copy d src dst how).2 m = d m := by
  unfold copy
  cases d src with
  | none => rfl
  | some bytes => exact write_apply_of_ne h

theorem copy_apply_dst (h : (copy d src dst how).1 = true) : (copy d src dst how).2 dst = d src := by
  unfold copy at h ⊢
  cases hsrc : d src with
  | none => simp [hsrc] at h
  | some bytes =>
    simp only [hsrc] at h
    rw [write_fst.mp h]
    exact write_done_apply

theorem rename_fst : (rename d src dst succeeds).1 = true ↔ succeeds = true ∧ (d src).isSome := by
  unfold rename
  cases d src <;> cases succeeds <;> simp

theorem rename_apply_of_ne (hsrc : m ≠ src) (hdst : m ≠ dst) :
    (rename d src dst succeeds).2 m = d m := by
  unfold rename
  cases d src with
  | none => rfl
  | some bytes =>
    cases succeeds with
    | false => rfl
    | true =>
      change Function.update (Function.update d src none) dst (some bytes) m = d m
      rw [Function.update_of_ne hdst, Function.update_of_ne hsrc]

theorem rename_apply_dst (h : (rename d src dst succeeds).1 = true) :
    (rename d src dst succeeds).2 dst = d src := by
  obtain ⟨rfl, hsome⟩ := rename_fst.mp h
  obtain ⟨bytes, hbytes⟩ := Option.isSome_iff_exists.mp hsome
  rw [rename, hbytes]
  exact Function.update_self _ _ _

theorem rename_of_not (h : (rename d src dst succeeds).1 = false) :
    (rename d src dst succeeds).2 = d := by
  unfold rename at h ⊢
  cases hsrc : d src with
  | none => rfl
  | some bytes =>
    cases succeeds with
    | false => rfl
    | true => simp [hsrc] at h

@[simp] theorem remove_true_apply : remove d n true n = none := Function.update_self _ _ _

theorem remove_apply_of_ne (h : m ≠ n) : remove d n succeeds m = d m := by
  unfold remove
  split_ifs
  · exact Function.update_of_ne h _ _
  · rfl

end Files
