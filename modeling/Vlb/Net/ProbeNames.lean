import Mathlib.Tactic.NormNum.Prime
import Vlb.Lib.BitPolynomials
import Vlb.Lib.Numerals
import Vlb.Net.DnsQuery

/-!
# The names that nobody has

Whether DNS is intercepted is found out by asking for a name that cannot exist, with a random first
label, so that nobody can have an answer at hand. The numbers come from one generator, which the ids
of all queries are drawn from too. All tasks share its state, and each loads it and stores the next one
as two steps.

* `randU64`: the generator, seeded when it is first used.
* `probeName`: the name of a probe.
* `Access`, `asked`: the steps of the tasks, and the names that they ask for.
* `primitive_xorshift`: the states of the generator run through all numbers but zero.
* **`questions_distinct`**: no question is asked a second time, as long as draws do not overlap.
* `asked_overlapping`: those that overlap ask the same one.
-/

namespace Vlb.DnsProbe

open Dns BitPolynomials Text

/-! ## Random numbers -/

/-- What a process can tell of itself when the generator is seeded. -/
structure Seed where
  /-- `None` where the clock is before the epoch. -/
  nanos : Option (BitVec 64)
  pid : BitVec 32

/-- The state that the generator starts in. -/
def Seed.state (s : Seed) : BitVec 64 :=
  let x := s.nanos.getD 0x9E3779B97F4A7C15 ^^^ s.pid.setWidth 64 <<< 32 ^^^ 0x2545F4914F6CDD1D
  if x = 0 then 0x9E3779B97F4A7C15 else x

/-- The step of the generator. -/
def xorshift (x : BitVec 64) : BitVec 64 :=
  let x := x ^^^ x <<< 13
  let x := x ^^^ x >>> 7
  x ^^^ x <<< 17

/-- What is given out of the state. -/
def scramble (x : BitVec 64) : BitVec 64 := x * 0x2545F4914F6CDD1D

/-- The number, and the state that is left. -/
def randU64 (seed : Seed) (state : BitVec 64) : BitVec 64 × BitVec 64 :=
  let x := xorshift (if state = 0 then seed.state else state)
  (scramble x, x)

/-! ## Names -/

/-- `{:016x}`. -/
def hex16 (n : BitVec 64) : List Char :=
  let digits := Nat.toDigits 16 n.toNat
  List.replicate (16 - digits.length) '0' ++ digits

/-- A name that nobody has. -/
def probeName (n : BitVec 64) : List Char := hex16 n ++ ".vlb-probe.invalid".toList

/-- What a number is drawn for. -/
inductive Draw
  | txid (seed : Seed)
  | name (seed : Seed)

/-- What a first draw would begin with. -/
def Draw.seed : Draw → Seed
  | .txid seed | .name seed => seed

/-- The names of the probes, when numbers are drawn in this order. -/
def names : List Draw → BitVec 64 → List (List Char)
  | [], _ => []
  | d :: ds, state =>
    let (n, state') := randU64 d.seed state
    match d with
    | .txid _ => names ds state'
    | .name _ => probeName n :: names ds state'

/-! ## Tasks -/

/-- One half of a draw. -/
inductive Access
  /-- The task loads the state and seeds the generator if nobody has. -/
  | load (task : ℕ) (draw : Draw)
  /-- It stores the next state and goes on with its number. -/
  | store (task : ℕ)

/-- A draw ends with its store. -/
def Access.isStore : Access → Bool
  | .load .. => false
  | .store _ => true

/-- The state that the tasks share, and what each of them has loaded for its draw. -/
structure Shared where
  state : BitVec 64
  loaded : ℕ → Option (Draw × BitVec 64)

/-- `AtomicU64::new(0)`. -/
def Shared.new : Shared := ⟨0, fun _ => none⟩

/-- What the access leaves. -/
def Access.next (s : Shared) : Access → Shared
  | .load task d =>
    let x := if s.state = 0 then d.seed.state else s.state
    { s with loaded := Function.update s.loaded task (some (d, x)) }
  | .store task =>
    match s.loaded task with
    | none => s
    | some (_, x) => ⟨xorshift x, Function.update s.loaded task none⟩

/-- The name that the task then asks for. -/
def Access.name? (s : Shared) : Access → Option (List Char)
  | .load .. => none
  | .store task =>
    match s.loaded task with
    | some (.name _, x) => some (probeName (scramble (xorshift x)))
    | some (.txid _, _) | none => none

/-- The names of the probes, when the tasks take these steps. -/
def asked : List Access → Shared → List (List Char)
  | [], _ => []
  | a :: as, s => (a.name? s).toList ++ asked as (a.next s)

/-- No draw begins before the one before it is over. -/
def Apart : List Access → Prop
  | [] | [.load ..] => True
  | .load task _ :: .store task' :: rest => task = task' ∧ Apart rest
  | .store _ :: _ | .load .. :: .load .. :: _ => False

/-- The draws that are over, where they do not overlap. -/
def draws : List Access → List Draw
  | .load _ d :: .store _ :: rest => d :: draws rest
  | _ => []

/-- The question of a query for a name. -/
def question (name : List Char) (txid : UInt16) : Option (Question × List UInt8) :=
  readQuestion ((buildDnsQuery name txid).drop 12)

example : probeName 0xBEEF = "000000000000beef.vlb-probe.invalid".toList := by decide

/-! ## The generator -/

theorem linear_xorshift : Linear xorshift := by
  have hleft (k : ℕ) (a b : BitVec 64) : (a ^^^ b) ^^^ (a ^^^ b) <<< k =
      (a ^^^ a <<< k) ^^^ (b ^^^ b <<< k) := by
    rw [BitVec.shiftLeft_xor_distrib]
    ac_rfl
  have hright (k : ℕ) (a b : BitVec 64) : (a ^^^ b) ^^^ (a ^^^ b) >>> k =
      (a ^^^ a >>> k) ^^^ (b ^^^ b >>> k) := by
    rw [BitVec.ushiftRight_xor_distrib]
    ac_rfl
  intro a b
  simp only [xorshift, hleft, hright]

/-- The map is a root of this polynomial, after the leading term. -/
def tail : BitVec 64 := 0x013ED4A358913201

/-- The prime factors of `2 ^ 64 - 1`, and what shows that none can be left out. -/
def factors : List (ℕ × BitVec 64) :=
  [(3, 0xD742CA58F5D785E2), (5, 0xA3F64D1FB612F669), (17, 0x63F43995A1B49645),
    (257, 0x7D573A75B5260C4D), (641, 0x01EAD61508D13286), (65537, 0xED7248A2317D33B1),
    (6700417, 0x483B08AA5D3741B5)]

/-- **The generator is as good as one of its size can be.** -/
theorem primitive_xorshift : Primitive xorshift tail factors where
  root := by decide +kernel
  order := by decide +kernel
  prod := by decide
  prime := by
    simp only [factors, List.forall_mem_cons]
    norm_num
  inverse := by decide +kernel

theorem iterate_xorshift_ne_zero {x : BitVec 64} (hx : x ≠ 0) (i : ℕ) : xorshift^[i] x ≠ 0 := by
  intro hzero
  refine iterate_ne primitive_xorshift linear_xorshift hx (Nat.lt_succ_self i) (by omega) ?_
  rw [Function.iterate_succ_apply', hzero]
  rfl

theorem Seed.state_ne_zero (s : Seed) : s.state ≠ 0 := by
  unfold Seed.state
  dsimp only
  split_ifs with hzero
  · decide
  · exact hzero

theorem scramble_injective {x y : BitVec 64} (h : scramble x = scramble y) : x = y := by
  have hinverse : (0x2545F4914F6CDD1D : BitVec 64) * 0x59071D96D81ECD35 = 1#64 := by decide
  have hx (x : BitVec 64) : scramble x * 0x59071D96D81ECD35 = x := by
    rw [scramble, BitVec.mul_assoc, hinverse, BitVec.mul_one]
  rw [← hx x, h, hx y]

/-- The numbers that are drawn. -/
def numbers : List Draw → BitVec 64 → List (BitVec 64)
  | [], _ => []
  | d :: ds, state =>
    let (n, state') := randU64 d.seed state
    n :: numbers ds state'

theorem numbers_eq {ds : List Draw} {state : BitVec 64} (h : state ≠ 0) : numbers ds state =
    (List.range ds.length).map fun i => scramble (xorshift^[i + 1] state) := by
  induction ds generalizing state with
  | nil => rfl
  | cons d ds ih =>
    have hnext : xorshift state ≠ 0 := iterate_xorshift_ne_zero h 1
    simp only [numbers, randU64, if_neg h, ih hnext, List.length_cons, List.range_succ_eq_map,
      List.map_cons, List.map_map]
    rfl

/-- **No number is drawn twice**, from the first use of the generator on. -/
theorem nodup_numbers {ds : List Draw} (h : ds.length < 2 ^ 64) : (numbers ds 0).Nodup := by
  cases ds with
  | nil => exact List.nodup_nil
  | cons d ds =>
    have hseed := d.seed.state_ne_zero
    have hall : numbers (d :: ds) 0 = numbers (d :: ds) d.seed.state := by
      simp only [numbers, randU64, if_true, if_neg hseed]
    rw [hall, numbers_eq hseed]
    refine (List.nodup_range).map_on fun i hi j hj heq => ?_
    have hi := List.mem_range.mp hi
    have hj := List.mem_range.mp hj
    have heq := scramble_injective heq
    rcases Nat.lt_trichotomy i j with hij | rfl | hij
    · exact absurd heq (iterate_ne primitive_xorshift linear_xorshift hseed (by omega) (by omega))
    · rfl
    · exact absurd heq.symm
        (iterate_ne primitive_xorshift linear_xorshift hseed (by omega) (by omega))

/-! ## The questions -/

theorem number_hex16 (n : BitVec 64) : number 16 (hex16 n) = some n.toNat := by
  have hall : ∀ d < 16, digit? 16 d.digitChar = some d := by decide
  obtain ⟨ds, hne, hds, hdigits, hvalue⟩ := Numerals.exists_hexDigits n.toNat
  have hchars : hex16 n = (List.replicate (16 - ds.length) 0 ++ ds).map Nat.digitChar := by
    rw [hex16, hdigits, List.map_append, List.map_replicate, List.length_map]
    rfl
  have hzeros (k : ℕ) : (List.replicate k 0).foldl (fun n d => 16 * n + d) 0 = 0 := by
    induction k with
    | zero => rfl
    | succ k ih => exact ih
  have hsmall : ∀ d ∈ List.replicate (16 - ds.length) 0 ++ ds, d < 16 :=
    List.forall_mem_append.mpr ⟨fun d hd => List.eq_of_mem_replicate hd ▸ (by decide), hds⟩
  rw [hchars, number_map (List.append_ne_nil_of_right_ne_nil _ hne) fun d hd => hall d (hsmall d hd),
    List.foldl_append, hzeros, hvalue]

theorem hex16_injective {m n : BitVec 64} (h : hex16 m = hex16 n) : m = n := by
  have := number_hex16 m
  rw [h, number_hex16 n] at this
  exact (BitVec.eq_of_toNat_eq (Option.some.inj this)).symm

theorem length_hex16 (n : BitVec 64) : (hex16 n).length = 16 := by
  have hlength : (Nat.toDigits 16 n.toNat).length ≤ 16 :=
    (Nat.length_toDigits_le_iff (by decide) (by decide)).mpr (Nat.lt_of_lt_of_eq n.isLt (by decide))
  rw [hex16, List.length_append, List.length_replicate, Nat.sub_add_cancel hlength]

theorem of_mem_hex16 {n : BitVec 64} {c : Char} (h : c ∈ hex16 n) : c ≠ '.' ∧ c.utf8Size = 1 := by
  have hall : ∀ d < 16, d.digitChar ≠ '.' ∧ d.digitChar.utf8Size = 1 := by decide
  rcases List.mem_append.mp h with hc | hc
  · rw [List.eq_of_mem_replicate hc]
    decide
  · obtain ⟨d, hd, rfl⟩ := Numerals.mem_toDigits_hex hc
    exact hall d hd

theorem labels_probeName (n : BitVec 64) : labels (probeName n) =
    [utf8 (hex16 n), utf8 "vlb-probe".toList, utf8 "invalid".toList] := by
  have hdots : ∀ l ∈ [hex16 n, "vlb-probe".toList, "invalid".toList], '.' ∉ l := by
    simp only [List.forall_mem_cons]
    exact ⟨fun hmem => (of_mem_hex16 hmem).1 rfl, by decide, by decide, by simp⟩
  have hname : probeName n =
      ['.'].intercalate [hex16 n, "vlb-probe".toList, "invalid".toList] := by
    simp [probeName, List.intercalate]
  have hne : (hex16 n).isEmpty = false := by
    rw [List.isEmpty_eq_false_iff, ← List.length_pos_iff, length_hex16]
    decide
  rw [labels, hname, List.splitOn_intercalate _ hdots (by simp)]
  simp [hne]

/-- **The question is for the name**, and the name is reserved. -/
theorem question_probeName (n : BitVec 64) (txid : UInt16) : question (probeName n) txid =
    some ({ labels := [utf8 (hex16 n), utf8 "vlb-probe".toList, utf8 "invalid".toList]
            qtype := 1, qclass := 1 }, []) := by
  have hbytes : (utf8 (hex16 n)).length = 16 := by
    have hsum : ∀ cs : List Char, (∀ c ∈ cs, c.utf8Size = 1) → (utf8 cs).length = cs.length := by
      intro cs hcs
      induction cs with
      | nil => rfl
      | cons c cs ih =>
        rw [List.forall_mem_cons] at hcs
        rw [length_utf8_cons, hcs.1, ih hcs.2, List.length_cons, Nat.add_comm]
    rw [hsum _ fun c hc => (of_mem_hex16 hc).2, length_hex16]
  have htake : (utf8 (hex16 n)).take maxLabel = utf8 (hex16 n) :=
    List.take_of_length_le (hbytes ▸ by decide)
  rw [question, readQuestion_buildDnsQuery, labels_probeName, List.map_cons, htake]
  rfl

theorem names_sublist (ds : List Draw) (state : BitVec 64) :
    (names ds state).Sublist ((numbers ds state).map probeName) := by
  induction ds generalizing state with
  | nil => exact List.Sublist.slnil
  | cons d ds ih =>
    cases d with
    | txid seed => exact (ih _).cons _
    | name seed => exact (ih _).cons_cons _

theorem length_draws_le (as : List Access) : (draws as).length ≤ as.countP Access.isStore := by
  induction as using draws.induct with
  | case1 task d task' rest ih =>
    rw [draws, List.length_cons, List.countP_cons_of_neg (by simp [Access.isStore]),
      List.countP_cons_of_pos (by simp [Access.isStore])]
    omega
  | case2 as h =>
    rw [draws]
    · exact Nat.zero_le _
    · exact h

theorem asked_eq_names {as : List Access} (h : Apart as) (s : Shared) :
    asked as s = names (draws as) s.state := by
  induction as using Apart.induct generalizing s with
  | case1 => rfl
  | case2 task d => rfl
  | case3 task d task' rest ih =>
    obtain ⟨rfl, hrest⟩ := h
    cases d with
    | txid seed => simp [asked, draws, names, Access.name?, Access.next, ih hrest, randU64]
    | name seed => simp [asked, draws, names, Access.name?, Access.next, ih hrest, randU64]
  | case4 => exact h.elim
  | case5 => exact h.elim

/-- **No question is asked a second time**, whatever else is drawn in between, as long as draws do not
overlap: nobody can have the answer at hand. Each is for a name under `.invalid`. -/
theorem questions_distinct {as : List Access} (hapart : Apart as)
    (hcount : as.countP Access.isStore < 2 ^ 64) :
    ((asked as .new).Pairwise fun a b => ∀ txid txid', question a txid ≠ question b txid') ∧
      ∀ a ∈ asked as .new, ∀ txid, ∃ label, question a txid =
        some ({ labels := [label, utf8 "vlb-probe".toList, utf8 "invalid".toList]
                qtype := 1, qclass := 1 }, []) := by
  have hsublist := names_sublist (draws as) 0
  rw [asked_eq_names hapart]
  constructor
  · refine List.Pairwise.sublist hsublist ?_
    rw [List.pairwise_map]
    have hnodup := nodup_numbers (lt_of_le_of_lt (length_draws_le as) hcount)
    refine hnodup.imp fun hne txid txid' heq => hne ?_
    rw [question_probeName, question_probeName] at heq
    have hlabels := congrArg Question.labels (Prod.mk.inj (Option.some.inj heq)).1
    have hutf8 := congrArg fromUtf8 (List.cons.inj hlabels).1
    rw [fromUtf8_utf8, fromUtf8_utf8] at hutf8
    exact hex16_injective (Option.some.inj hutf8)
  · intro a ha txid
    obtain ⟨n, -, rfl⟩ := List.mem_map.mp (hsublist.subset ha)
    exact ⟨_, question_probeName n txid⟩

/-- Two probes by turns, which draw the ids of their queries too. -/
def twoProbes : List Access :=
  let seed : Seed := ⟨some 1700000000000000000, 4242⟩
  [.load 0 (.name seed), .store 0, .load 1 (.txid seed), .store 1, .load 0 (.txid seed), .store 0,
    .load 1 (.name seed), .store 1, .load 0 (.txid seed), .store 0]

theorem questions_distinct_twoProbes :
    (asked twoProbes .new).Pairwise (fun a b => ∀ txid txid', question a txid ≠ question b txid') ∧
      (asked twoProbes .new).length = 2 :=
  ⟨(questions_distinct (show Apart twoProbes from ⟨rfl, rfl, rfl, rfl, rfl, trivial⟩)
    (by decide)).1, by decide⟩

/-- Two tasks that load the state before either has stored the next one ask the same question. -/
theorem asked_overlapping {s : Shared} (hs : s.state ≠ 0) {task task' : ℕ} (hne : task ≠ task')
    (seed seed' : Seed) : ∃ name, asked
      [.load task (.name seed), .load task' (.name seed'), .store task, .store task'] s =
        [name, name] := by
  refine ⟨probeName (scramble (xorshift s.state)), ?_⟩
  have hseeded : ¬ s.state = 0#64 := hs
  simp [asked, Access.name?, Access.next, hseeded, hne, hne.symm]

end Vlb.DnsProbe
