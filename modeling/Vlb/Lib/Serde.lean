import Vlb.Lib.Json

/-!
# Types that are written as JSON

What `serde` derives: how the values of a type are written, and what is read of them. Not every float
has a number in JSON, and what is read need not be what was written.

* `Serde`: a type that is written and read, with what of it is `Faithful`.
* `Exact`: types all of whose values are read as they were written.
* `required`, `defaulted`, `optional`: the fields of an object.
* `Format`: types of numbers that JSON has only some of.
* `variant`, `Content`: the variants of an internally tagged enumeration.
* `width_serialize_list` and the like: the length of what is written.
-/

/-- A type that is written as JSON, and read. -/
class Serde (α : Type) where
  serialize : α → Json
  deserialize : Json → Option α
  deserialize_null : deserialize .null = none
  /-- This one is read as it was written. -/
  Faithful : α → Prop
  deserialize_serialize_iff : ∀ a, deserialize (serialize a) = some a ↔ Faithful a

namespace Serde

open Json

/-- All of the type is read as it was written. -/
class Exact (α : Type) [Serde α] : Prop where
  faithful : ∀ a : α, Faithful a

/-! ## Fields -/

section Fields

variable {α : Type} [Serde α]

@[simp] theorem deserialize_serialize [Exact α] (a : α) : deserialize (serialize a) = some a :=
  (deserialize_serialize_iff a).mpr (Exact.faithful a)

/-- `None` is written as `null`. -/
def serializeOption : Option α → Json
  | none => .null
  | some a => serialize a

/-- `null` stands for none. -/
def deserializeOption : Json → Option (Option α)
  | .null => some none
  | v => (deserialize v).map some

theorem deserializeOption_serializeOption_iff (o : Option α) :
    deserializeOption (serializeOption o) = some o ↔ ∀ a ∈ o, Faithful a := by
  cases o with
  | none => exact iff_of_true rfl fun _ h => nomatch h
  | some a =>
    have hsome : (∀ b ∈ some a, Faithful b) ↔ Faithful a := by simp
    rw [serializeOption, hsome, ← deserialize_serialize_iff]
    cases h : serialize a with
    | null => simp [deserializeOption, deserialize_null]
    | _ => simp [deserializeOption]

@[simp] theorem deserializeOption_serializeOption [Exact α] (o : Option α) :
    deserializeOption (serializeOption o) = some o :=
  (deserializeOption_serializeOption_iff o).mpr fun a _ => Exact.faithful a

@[simp] theorem deserializeOption_serialize [Exact α] (a : α) :
    deserializeOption (serialize a) = some (some a) := deserializeOption_serializeOption (some a)

/-- A required field. -/
def required (fields : List (String × Json)) (k : String) : Option α :=
  (fields.lookup k).bind deserialize

/-- A field with a default. -/
def defaulted (default : α) (fields : List (String × Json)) (k : String) : Option α :=
  match fields.lookup k with
  | none => some default
  | some v => deserialize v

/-- An optional field, which may be missing. -/
def optional (fields : List (String × Json)) (k : String) : Option (Option α) :=
  match fields.lookup k with
  | none => some none
  | some v => deserializeOption v

variable {k k' : String} {v : Json} {fields : List (String × Json)}

theorem lookup_cons_ite :
    List.lookup k ((k', v) :: fields) = if k = k' then some v else fields.lookup k := by
  rw [List.lookup_cons]
  split_ifs with h
  · rw [beq_iff_eq.mpr h]
  · rw [beq_eq_false_iff_ne.mpr h]

@[simp] theorem required_cons :
    (required ((k', v) :: fields) k : Option α) =
      if k = k' then deserialize v else required fields k := by
  rw [required, lookup_cons_ite]
  split_ifs <;> rfl

@[simp] theorem defaulted_cons {default : α} :
    defaulted default ((k', v) :: fields) k =
      if k = k' then deserialize v else defaulted default fields k := by
  rw [defaulted, lookup_cons_ite]
  split_ifs <;> rfl

@[simp] theorem optional_cons :
    (optional ((k', v) :: fields) k : Option (Option α)) =
      if k = k' then deserializeOption v else optional fields k := by
  rw [optional, lookup_cons_ite]
  split_ifs <;> rfl

@[simp] theorem optional_nil : (optional [] k : Option (Option α)) = some none := rfl

end Fields

/-! ## Strings, numbers and lists -/

instance : Serde Bool where
  serialize := .bool
  deserialize
    | .bool b => some b
    | _ => none
  deserialize_null := rfl
  Faithful _ := True
  deserialize_serialize_iff _ := by simp

instance : Exact Bool := ⟨fun _ => trivial⟩

instance : Serde String where
  serialize := .str
  deserialize
    | .str s => some s
    | _ => none
  deserialize_null := rfl
  Faithful _ := True
  deserialize_serialize_iff _ := by simp

instance : Exact String := ⟨fun _ => trivial⟩

/-- Digits. -/
def readNat (cs : List Char) : Option ℕ :=
  if cs ≠ [] ∧ cs.all Char.isDigit = true then some (Nat.ofDigitChars 10 cs 0) else none

/-- Digits, after a sign if they are negative. -/
def readInt : List Char → Option ℤ
  | '-' :: cs => (readNat cs).map fun n => -(n : ℤ)
  | cs => (readNat cs).map fun n => (n : ℤ)

theorem isNumberChar_of_mem_toDigits {n : ℕ} {c : Char} (h : c ∈ Nat.toDigits 10 n) :
    isNumberChar c = true := by
  rw [isNumberChar, Nat.isDigit_of_mem_toDigits (by decide) (by decide) h]
  rfl

/-- In digits. -/
def natNumber (n : ℕ) : Number :=
  ⟨Nat.toDigits 10 n, Nat.toDigits_ne_nil, fun _ h => isNumberChar_of_mem_toDigits h⟩

theorem isNumberChar_of_mem_neg {n : ℕ} {c : Char} (h : c ∈ '-' :: Nat.toDigits 10 n) :
    isNumberChar c = true := by
  rcases List.mem_cons.mp h with rfl | h
  · decide
  · exact isNumberChar_of_mem_toDigits h

/-- With its sign. -/
def intNumber : ℤ → Number
  | .ofNat n => natNumber n
  | .negSucc n =>
    ⟨'-' :: Nat.toDigits 10 (n + 1), List.cons_ne_nil _ _, fun _ h => isNumberChar_of_mem_neg h⟩

theorem readNat_toDigits (n : ℕ) : readNat (Nat.toDigits 10 n) = some n := by
  have hall : (Nat.toDigits 10 n).all Char.isDigit = true := List.all_eq_true.mpr fun c hc =>
    Nat.isDigit_of_mem_toDigits (by decide) (by decide) hc
  rw [readNat, if_pos ⟨Nat.toDigits_ne_nil, hall⟩, Nat.ofDigitChars_toDigits (by decide) (by decide)]

theorem readInt_intNumber (z : ℤ) : readInt (intNumber z).text = some z := by
  cases z with
  | negSucc n =>
    rw [intNumber, readInt, readNat_toDigits]
    rfl
  | ofNat n =>
    have hminus : ∀ cs, Nat.toDigits 10 n ≠ '-' :: cs := by
      intro cs h
      exact Text.not_mem_toDigits (c := '-') (by decide) (h ▸ List.mem_cons_self)
    rw [intNumber, natNumber, readInt.eq_def]
    split
    · rename_i h
      exact absurd h (hminus _)
    · rw [readNat_toDigits]
      rfl

instance : Serde UInt32 where
  serialize n := .num (natNumber n.toNat)
  deserialize
    | .num n => (readNat n.text).bind fun n => if n < 2 ^ 32 then some (UInt32.ofNat n) else none
    | _ => none
  deserialize_null := rfl
  Faithful _ := True
  deserialize_serialize_iff n := by
    have hlt := n.toNat_lt
    simp [natNumber, readNat_toDigits, hlt]

instance : Exact UInt32 := ⟨fun _ => trivial⟩

instance : Serde UInt64 where
  serialize n := .num (natNumber n.toNat)
  deserialize
    | .num n => (readNat n.text).bind fun n => if n < 2 ^ 64 then some (UInt64.ofNat n) else none
    | _ => none
  deserialize_null := rfl
  Faithful _ := True
  deserialize_serialize_iff n := by
    have hlt := n.toNat_lt
    simp [natNumber, readNat_toDigits, hlt]

instance : Exact UInt64 := ⟨fun _ => trivial⟩

instance : Serde Int64 where
  serialize n := .num (intNumber n.toInt)
  deserialize
    | .num n => (readInt n.text).bind fun z =>
      if -2 ^ 63 ≤ z ∧ z < 2 ^ 63 then some (Int64.ofInt z) else none
    | _ => none
  deserialize_null := rfl
  Faithful _ := True
  deserialize_serialize_iff n := by
    have hbounds : -2 ^ 63 ≤ n.toInt ∧ n.toInt < 2 ^ 63 := ⟨n.le_toInt, n.toInt_lt⟩
    simp only [readInt_intNumber, Option.bind_some, if_pos hbounds, Int64.ofInt_toInt]

instance : Exact Int64 := ⟨fun _ => trivial⟩

instance {α : Type} [Serde α] : Serde (List α) where
  serialize as := .arr (as.map serialize)
  deserialize
    | .arr vs => vs.mapM deserialize
    | _ => none
  deserialize_null := rfl
  Faithful as := ∀ a ∈ as, Faithful a
  deserialize_serialize_iff as := by
    simp only [← deserialize_serialize_iff]
    induction as with
    | nil => simp
    | cons a as ih =>
      rw [List.forall_mem_cons, ← ih, List.map_cons, List.mapM_cons]
      cases (deserialize (serialize a) : Option α) <;>
        cases ((as.map serialize).mapM deserialize : Option (List α)) <;> simp

instance {α : Type} [Serde α] [Exact α] : Exact (List α) := ⟨fun _ a _ => Exact.faithful a⟩

/-- How the numbers of a type are written, those that JSON has, and read. -/
structure Format (α : Type) where
  write : α → Option Number
  read : Number → Option α

/-- A number that JSON does not have is written as `null`. -/
abbrev Format.serde {α : Type} (f : Format α) : Serde α where
  serialize a := (f.write a).elim .null .num
  deserialize
    | .num n => f.read n
    | _ => none
  deserialize_null := rfl
  Faithful a := (f.write a).bind f.read = some a
  deserialize_serialize_iff a := by
    cases f.write a <;> simp

/-! ## Enumerations -/

/-- What is beside the tag of a variant: its fields by their names, or their values in their order. -/
inductive Content
  | byName (fields : List (String × Json))
  | inOrder (items : List Json)

/-- None of these fields is there twice. -/
def single (names : List String) (fields : List (String × Json)) : Bool :=
  names.all fun k => decide (fields.countP (fun f => f.1 = k) ≤ 1)

/-- The fields of a variant that has these. Others may be there by their names, and are not looked
at. -/
def Content.named (names : List String) : Content → Option (List (String × Json))
  | .byName fields => if single names fields then some fields else none
  | .inOrder items => if items.length ≤ names.length then some (names.zip items) else none

/-- The variant of an internally tagged enumeration, and what is beside the tag. An array has the tag
at its head. -/
def variant (tag : String) : Json → Option (String × Content)
  | .obj fields => do
    if single [tag] fields then return (← required fields tag, .byName fields) else none
  | .arr (v :: items) => do
    return (← deserialize v, .inOrder items)
  | _ => none

/-! ## Lengths -/

section Widths

variable {α : Type} [Serde α]

/-- The number of digits. -/
def digits (n : ℕ) : ℕ := (Nat.toDigits 10 n).length

/-- The number of digits, and the sign. -/
def intDigits : ℤ → ℕ
  | .ofNat n => digits n
  | .negSucc n => digits (n + 1) + 1

@[simp] theorem width_serialize_string (s : String) : width (serialize s) = textWidth s := width_str s

@[simp] theorem width_serialize_bool (b : Bool) : width (serialize b) = if b then 4 else 5 :=
  width_bool b

@[simp] theorem width_serialize_uint32 (n : UInt32) : width (serialize n) = digits n.toNat :=
  width_num _

@[simp] theorem width_serialize_uint64 (n : UInt64) : width (serialize n) = digits n.toNat :=
  width_num _

@[simp] theorem width_serialize_int64 (n : Int64) : width (serialize n) = intDigits n.toInt := by
  refine (width_num _).trans ?_
  cases n.toInt <;> rfl

@[simp] theorem width_serializeOption (o : Option α) :
    width (serializeOption o) = o.elim 4 fun a => width (serialize a) := by
  cases o <;> rfl

@[simp] theorem width_serialize_list (as : List α) :
    width (serialize as) = listWidth (as.map fun a => width (serialize a)) := by
  refine (width_arr _).trans ?_
  rw [List.map_map]
  rfl

end Widths

theorem digits_le {n k : ℕ} (hk : 0 < k) (h : n < 10 ^ k) : digits n ≤ k :=
  (Nat.length_toDigits_le_iff (by decide) hk).mpr h

theorem listWidth_le {widths : List ℕ} {m : ℕ} (h : ∀ w ∈ widths, w ≤ m) :
    listWidth widths ≤ 2 + widths.length * (m + 1) := by
  have hsum : widths.sum ≤ widths.length * m := by
    induction widths with
    | nil => exact Nat.zero_le _
    | cons w ws ih =>
      obtain ⟨hw, hws⟩ := List.forall_mem_cons.mp h
      have := ih hws
      rw [List.sum_cons, List.length_cons, Nat.succ_mul]
      omega
  rw [listWidth, Nat.mul_succ]
  omega

theorem Format.width_serialize {α : Type} (f : Format α) (a : α) :
    width (f.serde.serialize a) = (f.write a).elim 4 Number.width := by
  show width ((f.write a).elim .null .num) = _
  cases f.write a with
  | none => rfl
  | some n => exact width_num n

end Serde
