import Mathlib.Algebra.BigOperators.Group.List.Basic
import Mathlib.Algebra.Order.BigOperators.Group.List
import Mathlib.Algebra.Ring.Nat
import Mathlib.Data.List.AList
import Mathlib.Tactic.Common

/-!
# Maps that are accumulated into

A hash map is a list of entries with distinct keys, in the order in which it is iterated. What is
said here does not depend on that order.

* `upsert`: `*map.entry(key).or_default() = f(..)`.
* `getD_foldl_upsert`, `mem_foldl_upsert`: of updates one after the other, a key sees its own.
* `sum_upsert`: what an update adds to a sum over some of the keys.
* `sum_entries_ite`, `sum_keys_filter`, `sum_keys_ite`: the same sums, over the entries and over the
  keys.
* `foldl_assign`: of assignments one after the other, the last one counts.
* `mapValues`: iterating over the values to change them.
* `filter_flatMap_of_nodup`: of what several keys give, what one of them gives.
* `tabulate`: a map with given keys.
* `unseen`: the values of a list, each once.
-/

namespace Entries

/-- A hash map, with its entries in the order of iteration. -/
abbrev HashMap (κ ν : Type*) := AList fun _ : κ => ν

variable {κ ν : Type*} [DecidableEq κ]

/-- The value under a key, or the default. -/
def getD (m : HashMap κ ν) (k : κ) (d : ν) : ν := (m.lookup k).getD d

theorem getD_of_lookup {m : HashMap κ ν} {k : κ} {v : ν} (h : m.lookup k = some v) (d : ν) :
    getD m k d = v := by
  rw [getD, h, Option.getD_some]

theorem getD_of_lookup_none {m : HashMap κ ν} {k : κ} (h : m.lookup k = none) (d : ν) :
    getD m k d = d := by
  rw [getD, h, Option.getD_none]

/-- `entry(k).or_insert(d)`, updated by `f`. -/
def upsert (d : ν) (f : ν → ν) (k : κ) (m : HashMap κ ν) : HashMap κ ν :=
  m.insert k (f (getD m k d))

theorem getD_upsert (d : ν) (f : ν → ν) (k k' : κ) (m : HashMap κ ν) :
    getD (upsert d f k m) k' d = if k' = k then f (getD m k d) else getD m k' d := by
  unfold upsert getD
  split_ifs with h
  · rw [h, AList.lookup_insert, Option.getD_some]
  · rw [AList.lookup_insert_ne h]

theorem getD_foldl_upsert {α : Type*} (d : ν) (f : α → ν → ν) (key : α → κ) (l : List α)
    (m : HashMap κ ν) (k : κ) :
    getD (l.foldl (fun m x => upsert d (f x) (key x) m) m) k d =
      (l.filter fun x => key x = k).foldl (fun v x => f x v) (getD m k d) := by
  induction l generalizing m with
  | nil => rfl
  | cons x l ih =>
    rw [List.foldl_cons, ih, getD_upsert, List.filter_cons]
    by_cases h : key x = k
    · rw [if_pos h.symm, if_pos (decide_eq_true h), List.foldl_cons, h]
    · rw [if_neg (Ne.symm h), if_neg (by simpa using h)]

theorem mem_foldl_upsert {α : Type*} (d : ν) (f : α → ν → ν) (key : α → κ) (l : List α)
    (m : HashMap κ ν) (k : κ) :
    k ∈ l.foldl (fun m x => upsert d (f x) (key x) m) m ↔ k ∈ l.map key ∨ k ∈ m := by
  induction l generalizing m with
  | nil => simp
  | cons x l ih =>
    rw [List.foldl_cons, ih, upsert, AList.mem_insert, List.map_cons, List.mem_cons]
    tauto

theorem lookup_eq_getD {m : HashMap κ ν} {k : κ} (h : k ∈ m) (d : ν) :
    m.lookup k = some (getD m k d) := by
  obtain ⟨v, hv⟩ := Option.isSome_iff_exists.mp (AList.lookup_isSome.mpr h)
  rw [getD, hv]
  rfl

/-- An update adds to a sum over distinct keys once, if its key is one of them. -/
theorem sum_upsert (size : ν → ℕ) {d : ν} {f : ν → ν} {k : κ} {m : HashMap κ ν} {n : ℕ}
    {ks : List κ} (hks : ks.Nodup)
    (hf : k ∈ ks → size (f (getD m k d)) = size (getD m k d) + n) :
    (ks.map fun k' => size (getD (upsert d f k m) k' d)).sum =
      (ks.map fun k' => size (getD m k' d)).sum + if k ∈ ks then n else 0 := by
  induction ks with
  | nil => rfl
  | cons k' ks ih =>
    obtain ⟨hnotin, hrest⟩ := List.nodup_cons.mp hks
    rw [List.map_cons, List.sum_cons, List.map_cons, List.sum_cons,
      ih hrest fun h => hf (List.mem_cons_of_mem _ h), getD_upsert]
    by_cases h : k' = k
    · subst h
      rw [if_pos rfl, if_neg hnotin, if_pos List.mem_cons_self, hf List.mem_cons_self]
      omega
    · have hmem : k ∈ k' :: ks ↔ k ∈ ks := by simp [Ne.symm h]
      simp only [if_neg h, hmem]
      omega

theorem sum_entries_ite (m : HashMap κ ν) (k : κ) (size : ν → ℕ) :
    (m.entries.map fun e => if e.1 = k then size e.2 else 0).sum =
      ((m.lookup k).map size).getD 0 := by
  obtain ⟨entries, hnodup⟩ := m
  simp only [AList.lookup]
  induction entries with
  | nil => rfl
  | cons e entries ih =>
    obtain ⟨hnotin, hrest⟩ := List.nodupKeys_cons.mp hnodup
    rw [List.map_cons, List.sum_cons, ih hrest]
    obtain ⟨k', v⟩ := e
    by_cases h : k' = k
    · subst h
      rw [if_pos rfl, List.dlookup_cons_eq, List.dlookup_eq_none.mpr hnotin]
      rfl
    · rw [if_neg h, List.dlookup_cons_ne _ _ (Ne.symm h), Nat.zero_add]

omit [DecidableEq κ] in
theorem sum_keys_filter (m : HashMap κ ν) (p : κ → Bool) (size : κ → ℕ) :
    ((m.keys.filter p).map size).sum =
      (m.entries.map fun e => if p e.1 then size e.1 else 0).sum := by
  unfold AList.keys List.keys
  induction m.entries with
  | nil => rfl
  | cons e es ih =>
    rw [List.map_cons, List.map_cons, List.sum_cons, ← ih, List.filter_cons]
    split_ifs
    · rw [List.map_cons, List.sum_cons]
    · rw [Nat.zero_add]

theorem sum_map_filter_of_zero {α M : Type*} [AddMonoid M] {l : List α} {p : α → Bool} {size : α → M}
    (hzero : ∀ a ∈ l, p a = false → size a = 0) : ((l.filter p).map size).sum = (l.map size).sum := by
  induction l with
  | nil => rfl
  | cons a l ih =>
    have hrest := ih fun b hb => hzero b (List.mem_cons_of_mem a hb)
    rw [List.filter_cons, List.map_cons, List.sum_cons]
    cases hp : p a with
    | true => rw [if_pos rfl, List.map_cons, List.sum_cons, hrest]
    | false => rw [if_neg Bool.false_ne_true, hrest, hzero a List.mem_cons_self hp, zero_add]

theorem sum_keys_ite {ks : List κ} (hks : ks.Nodup) (k : κ) (size : κ → ℕ) :
    (ks.map fun k' => if k' = k then size k' else 0).sum = if k ∈ ks then size k else 0 := by
  induction ks with
  | nil => rfl
  | cons k' ks ih =>
    obtain ⟨hnotin, hrest⟩ := List.nodup_cons.mp hks
    rw [List.map_cons, List.sum_cons, ih hrest]
    by_cases h : k' = k
    · subst h
      rw [if_pos rfl, if_neg hnotin, if_pos List.mem_cons_self, Nat.add_zero]
    · have hmem : k ∈ k' :: ks ↔ k ∈ ks := by simp [Ne.symm h]
      rw [if_neg h, Nat.zero_add]
      simp only [hmem]

theorem foldl_assign {σ α β : Type*} {set : σ → α → σ} {field : σ → Option β} {value : α → Option β}
    (h : ∀ s a, field (set s a) = (value a).or (field s)) (l : List α) (s : σ) :
    field (l.foldl set s) = ((l.filterMap value).getLast?).or (field s) := by
  induction l generalizing s with
  | nil => rfl
  | cons a l ih =>
    rw [List.foldl_cons, ih, h, List.filterMap_cons]
    cases hvalue : value a with
    | none => rfl
    | some b =>
      cases l.filterMap value with
      | nil => rfl
      | cons c values => simp [List.getLast?_cons]

theorem filter_flatMap_of_nodup {α β : Type*} (key : α → κ) {keyOf : β → κ} {f : α → List β}
    (hf : ∀ a, ∀ b ∈ f a, keyOf b = key a) {l : List α} (hl : (l.map key).Nodup) {a : α}
    (ha : a ∈ l) : (l.flatMap f).filter (fun b => keyOf b = key a) = f a := by
  induction l with
  | nil => cases ha
  | cons a' l ih =>
    obtain ⟨hnotin, hrest⟩ := List.nodup_cons.mp hl
    rw [List.flatMap_cons, List.filter_append]
    obtain rfl | ha := List.mem_cons.mp ha
    · have hown : (f a).filter (fun b => keyOf b = key a) = f a :=
        List.filter_eq_self.mpr fun b hb => decide_eq_true (hf a b hb)
      have hothers : (l.flatMap f).filter (fun b => keyOf b = key a) = [] := by
        rw [List.filter_eq_nil_iff]
        intro b hb hkey
        obtain ⟨a', ha', hmem⟩ := List.mem_flatMap.mp hb
        have hsame : key a' = key a := (hf a' b hmem).symm.trans (of_decide_eq_true hkey)
        exact hnotin (hsame ▸ List.mem_map_of_mem ha')
      rw [hown, hothers, List.append_nil]
    · have hnone : (f a').filter (fun b => keyOf b = key a) = [] := by
        rw [List.filter_eq_nil_iff]
        intro b hb hkey
        have hsame : key a' = key a := (hf a' b hb).symm.trans (of_decide_eq_true hkey)
        exact hnotin (hsame ▸ List.mem_map_of_mem ha)
      rw [hnone, List.nil_append, ih hrest ha]

/-! ## Keys that are given -/

/-- The map that has `f k` under each of the keys. -/
def tabulate (keys : List κ) (f : κ → ν) : HashMap κ ν :=
  (keys.map fun k => (⟨k, f k⟩ : Sigma fun _ : κ => ν)).toAList

theorem lookup_tabulate (keys : List κ) (f : κ → ν) (k : κ) :
    (tabulate keys f).lookup k = if k ∈ keys then some (f k) else none := by
  rw [tabulate, AList.lookup_to_alist]
  induction keys with
  | nil => rfl
  | cons k' keys ih =>
    by_cases h : k = k'
    · subst h
      rw [List.map_cons, List.dlookup_cons_eq, if_pos (List.mem_cons_self ..)]
    · rw [List.map_cons, List.dlookup_cons_ne _ _ h, ih]
      simp only [List.mem_cons, h, false_or]

/-- `filter(|x| seen.insert(x))`: each value where it comes first. -/
def unseen : List κ → List κ → List κ
  | _, [] => []
  | seen, k :: l => if k ∈ seen then unseen seen l else k :: unseen (k :: seen) l

theorem mem_unseen {seen l : List κ} {k : κ} : k ∈ unseen seen l ↔ k ∈ l ∧ k ∉ seen := by
  induction l generalizing seen with
  | nil => simp [unseen]
  | cons k' l ih =>
    unfold unseen
    by_cases hseen : k' ∈ seen
    · rw [if_pos hseen, ih, List.mem_cons]
      constructor
      · rintro ⟨hk, hnot⟩
        exact ⟨Or.inr hk, hnot⟩
      · rintro ⟨rfl | hk, hnot⟩
        · exact absurd hseen hnot
        · exact ⟨hk, hnot⟩
    · rw [if_neg hseen, List.mem_cons, ih, List.mem_cons, List.mem_cons]
      by_cases hk : k = k'
      · simp [hk, hseen]
      · simp [hk]

theorem nodup_unseen (seen l : List κ) : (unseen seen l).Nodup := by
  induction l generalizing seen with
  | nil => exact List.nodup_nil
  | cons k l ih =>
    unfold unseen
    split_ifs with hseen
    · exact ih seen
    · exact List.nodup_cons.mpr ⟨fun hk => (mem_unseen.mp hk).2 (List.mem_cons_self ..), ih _⟩

/-! ## Changing every value -/

section MapValues

variable {ν' : Type*} (f : κ → ν → ν')

omit [DecidableEq κ] in
theorem keys_mapEntries (entries : List (Sigma fun _ : κ => ν)) :
    (entries.map fun e => (⟨e.1, f e.1 e.2⟩ : Sigma fun _ : κ => ν')).keys = entries.keys := by
  simp only [List.keys, List.map_map]
  rfl

omit [DecidableEq κ] in
/-- `iter_mut`, over the entries. -/
def mapValues (m : HashMap κ ν) : HashMap κ ν' where
  entries := m.entries.map fun e => ⟨e.1, f e.1 e.2⟩
  nodupKeys := by
    rw [List.NodupKeys, keys_mapEntries]
    exact m.nodupKeys

theorem lookup_mapValues (m : HashMap κ ν) (k : κ) :
    (mapValues f m).lookup k = (m.lookup k).map (f k) := by
  obtain ⟨entries, hnodup⟩ := m
  simp only [AList.lookup, mapValues]
  clear hnodup
  induction entries with
  | nil => rfl
  | cons e entries ih =>
    obtain ⟨k', v⟩ := e
    by_cases h : k = k'
    · subst h
      rw [List.map_cons, List.dlookup_cons_eq, List.dlookup_cons_eq]
      rfl
    · rw [List.map_cons, List.dlookup_cons_ne _ _ h, List.dlookup_cons_ne _ _ h, ih]

theorem getD_mapValues (g : ν → ν') (m : HashMap κ ν) (k : κ) (d : ν) :
    getD (mapValues (fun _ => g) m) k (g d) = g (getD m k d) := by
  rw [getD, lookup_mapValues, Option.getD_map, getD]

end MapValues

end Entries
