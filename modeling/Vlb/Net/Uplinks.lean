import Vlb.Config
import Vlb.Lib.Entries
import Vlb.Net.Throughput

/-!
# Traffic per uplink

Forwarded bytes are counted under the mark of the provider that carries them, with one more pair of
counters for what has no mark. Without these counters there is only what each interface carried,
and several providers may be behind one interface.

* `attributeCounters`: two readings of the counters, as the traffic of an interval per mark.
* `trafficRows`: the rows that an interval writes.
* `sum_attributeCounters`: the marks get what the readings differ by, each key counted once.
* `trafficRows_conserve`: the rows add up, with either way of counting.
-/

namespace Vlb.Uplinks

open Canary Entries

/-! ## Counters -/

/-- One of the four counters. -/
inductive Counter
  | rxBytes
  | rxPackets
  | txBytes
  | txPackets

/-- One of the four counters. -/
def count (c : IfCounters) : Counter → ℕ
  | .rxBytes => c.rxBytes.toNat
  | .rxPackets => c.rxPackets.toNat
  | .txBytes => c.txBytes.toNat
  | .txPackets => c.txPackets.toNat

/-- `IfCounters::default()`. -/
def noTraffic : IfCounters := ⟨0, 0, 0, 0⟩

/-- `+=`, field by field. -/
def add (e d : IfCounters) : IfCounters where
  rxBytes := e.rxBytes + d.rxBytes
  rxPackets := e.rxPackets + d.rxPackets
  txBytes := e.txBytes + d.txBytes
  txPackets := e.txPackets + d.txPackets

@[simp] theorem count_noTraffic (c : Counter) : count noTraffic c = 0 := by cases c <;> rfl

theorem count_add {e d : IfCounters} {c : Counter} (h : count e c + count d c < 2 ^ 64) :
    count (add e d) c = count e c + count d c := by
  cases c <;> exact (UInt64.toNat_add _ _).trans (Nat.mod_eq_of_lt h)

/-! ## Per mark -/

/-- A reading of the counters, keyed by mark; `none` for what has none. -/
abbrev Reading := HashMap (Option UInt32) IfCounters

/-- One key of the current reading. -/
def attributeKey (prev : Reading) (activeMark : Option UInt32) (out : HashMap UInt32 IfCounters)
    (key : Option UInt32) (now : IfCounters) : HashMap UInt32 IfCounters :=
  match prev.lookup key with
  | none => out
  | some before =>
    match delta before now with
    | none => out
    | some d =>
      match key.or activeMark with
      | none => out
      | some mark => upsert noTraffic (add · d) mark out

/-- The source's `attribute`. -/
def attributeCounters (prev curr : Reading) (activeMark : Option UInt32) : HashMap UInt32 IfCounters :=
  curr.foldl (attributeKey prev activeMark) ∅

/-- The mark of the active provider, if one is active. -/
def activeMark (providers : List Provider) (markOf : Provider → UInt32) (active : Option String) :
    Option UInt32 :=
  active.bind fun a => (providers.find? fun p => p.name = a).map markOf

/-! ## Rows -/

/-- What is stored of an interval. -/
structure Row where
  provider : String
  interface : String
  delta : IfCounters
  deriving DecidableEq

/-- How many providers are behind each interface. -/
def sharing (providers : List Provider) : HashMap String ℕ :=
  providers.foldl (fun m p => upsert 0 (· + 1) p.interface m) ∅

/-- The loop over the providers. An interface whose total has been written is in `totalsWritten`. -/
def interfaceRows (sharing : HashMap String ℕ) (ifaceDelta : HashMap String IfCounters) :
    List Provider → List String → List Row
  | [], _ => []
  | p :: ps, totalsWritten =>
    match ifaceDelta.lookup p.interface with
    | none => interfaceRows sharing ifaceDelta ps totalsWritten
    | some d =>
      if getD sharing p.interface 0 = 1 then
        ⟨p.name, p.interface, d⟩ :: interfaceRows sharing ifaceDelta ps totalsWritten
      else if p.interface ∈ totalsWritten then interfaceRows sharing ifaceDelta ps totalsWritten
      else
        ⟨"", p.interface, d⟩ :: interfaceRows sharing ifaceDelta ps (p.interface :: totalsWritten)

/-- By mark where the rules are read, and else by interface. -/
def trafficRows (providers : List Provider) (ifaceDelta : HashMap String IfCounters)
    (perMark : Option (HashMap UInt32 IfCounters)) (markOf : Provider → UInt32) : List Row :=
  match perMark with
  | some perMark =>
    providers.map fun p => ⟨p.name, p.interface, getD perMark (markOf p) noTraffic⟩
  | none => interfaceRows (sharing providers) ifaceDelta providers []

/-! ## What the readings differ by -/

/-- The difference under a key that is in both readings and was not reset. -/
def difference (prev curr : Reading) (key : Option UInt32) (c : Counter) : ℕ :=
  ((prev.lookup key).bind fun before => (curr.lookup key).bind (delta before)).elim 0 (count · c)

/-- What an entry of the current reading has over the previous one. -/
def gain (prev : Reading) (c : Counter) (key : Option UInt32) (now : IfCounters) : ℕ :=
  ((prev.lookup key).bind (delta · now)).elim 0 (count · c)

variable {prev curr : Reading} {mark : Option UInt32} {c : Counter}

theorem difference_eq {e : Sigma fun _ : Option UInt32 => IfCounters} (he : e ∈ curr.entries) :
    difference prev curr e.1 c = gain prev c e.1 e.2 := by
  have hlookup : curr.lookup e.1 = some e.2 := AList.mem_lookup_iff.mpr he
  simp only [difference, gain, hlookup, Option.bind_some]

/-- The mark that a key is counted under is one of these. -/
def CountedIn (mark : Option UInt32) (ks : List UInt32) (key : Option UInt32) : Prop :=
  ∃ k ∈ ks, key.or mark = some k

instance (ks : List UInt32) (key : Option UInt32) : Decidable (CountedIn mark ks key) :=
  inferInstanceAs (Decidable (∃ k ∈ ks, key.or mark = some k))

variable (prev mark c) in
theorem sum_attributeKey {ks : List UInt32} (hks : ks.Nodup) (out : HashMap UInt32 IfCounters)
    (key : Option UInt32) (now : IfCounters)
    (hsmall : (ks.map fun k => count (getD out k noTraffic) c).sum +
      (if CountedIn mark ks key then gain prev c key now else 0) < 2 ^ 64) :
    (ks.map fun k => count (getD (attributeKey prev mark out key now) k noTraffic) c).sum =
      (ks.map fun k => count (getD out k noTraffic) c).sum +
        if CountedIn mark ks key then gain prev c key now else 0 := by
  unfold attributeKey gain at *
  cases hbefore : prev.lookup key with
  | none => simp
  | some before =>
    cases hd : delta before now with
    | none => simp [hd]
    | some d =>
      cases hmark : key.or mark with
      | none => simp [CountedIn, hmark, hd]
      | some m =>
        have hin : CountedIn mark ks key ↔ m ∈ ks := by
          simp [CountedIn, hmark]
        simp only [hin, hbefore, hd, Option.bind_some, Option.elim_some] at hsmall ⊢
        apply sum_upsert (count · c) hks
        intro hm
        apply count_add
        have hle : count (getD out m noTraffic) c ≤
            (ks.map fun k => count (getD out k noTraffic) c).sum :=
          List.single_le_sum (by simp) _ (List.mem_map_of_mem hm)
        rw [if_pos hm] at hsmall
        omega

variable (prev curr mark c) in
/-- **The readings, counted once.** Any marks together get what the keys that are counted under them
have gained, in whichever order the keys come. -/
theorem sum_attributeCounters {ks : List UInt32} (hks : ks.Nodup)
    (hsmall : (curr.entries.map fun e =>
      if CountedIn mark ks e.1 then gain prev c e.1 e.2 else 0).sum < 2 ^ 64) :
    (ks.map fun k => count (getD (attributeCounters prev curr mark) k noTraffic) c).sum =
      (curr.entries.map fun e => if CountedIn mark ks e.1 then gain prev c e.1 e.2 else 0).sum := by
  have hfold : ∀ (es : List (Sigma fun _ : Option UInt32 => IfCounters))
      (out : HashMap UInt32 IfCounters),
      (ks.map fun k => count (getD out k noTraffic) c).sum +
        (es.map fun e => if CountedIn mark ks e.1 then gain prev c e.1 e.2 else 0).sum < 2 ^ 64 →
      (ks.map fun k => count (getD
          (es.foldl (fun out e => attributeKey prev mark out e.1 e.2) out) k noTraffic) c).sum =
        (ks.map fun k => count (getD out k noTraffic) c).sum +
          (es.map fun e => if CountedIn mark ks e.1 then gain prev c e.1 e.2 else 0).sum := by
    intro es
    induction es with
    | nil => simp
    | cons e es ih =>
      intro out hlt
      rw [List.map_cons, List.sum_cons] at hlt ⊢
      have hstep := sum_attributeKey prev mark c hks out e.1 e.2 (by omega)
      rw [List.foldl_cons, ih _ (by omega), hstep]
      omega
  have hempty : (ks.map fun k => count (getD (∅ : HashMap UInt32 IfCounters) k noTraffic) c).sum =
      0 := by
    simp [getD]
  have h := hfold curr.entries ∅ (by omega)
  rwa [hempty, Nat.zero_add] at h

/-! ## What the rows say -/

variable {providers : List Provider} {markOf : Provider → UInt32}

variable (prev curr mark c) in
/-- What is credited to anyone: every key, but the unmarked one only if a provider is active. -/
def credited : ℕ :=
  ((curr.keys.filter fun key => (key.or mark).isSome).map fun key => difference prev curr key c).sum

/-- The keys of a reading that the rules of these providers can have made. -/
def MarkedBy (markOf : Provider → UInt32) (providers : List Provider) (curr : Reading) : Prop :=
  ∀ key ∈ curr.keys, key = none ∨ ∃ p ∈ providers, key = some (markOf p)

variable (prev curr mark c) in
theorem credited_eq (hkeys : MarkedBy markOf providers curr)
    (hmark : ∀ m, mark = some m → m ∈ providers.map markOf) :
    credited prev curr mark c = (curr.entries.map fun e =>
      if CountedIn mark (providers.map markOf) e.1 then gain prev c e.1 e.2 else 0).sum := by
  have hcounted : ∀ e ∈ curr.entries,
      CountedIn mark (providers.map markOf) e.1 ↔ (e.1.or mark).isSome = true := by
    intro e he
    have hkey := hkeys e.1 (List.mem_map_of_mem he)
    unfold CountedIn
    constructor
    · rintro ⟨k, -, hk⟩
      rw [hk, Option.isSome_some]
    · intro hsome
      obtain ⟨k, hk⟩ := Option.isSome_iff_exists.mp hsome
      refine ⟨k, ?_, hk⟩
      obtain hnone | ⟨p, hp, hp'⟩ := hkey
      · rw [hnone, Option.none_or] at hk
        exact hmark k hk
      · rw [hp', Option.some_or, Option.some_inj] at hk
        rw [← hk]
        exact List.mem_map_of_mem hp
  rw [credited, sum_keys_filter]
  refine congrArg List.sum (List.map_congr_left fun e he => ?_)
  rw [difference_eq he]
  simp only [hcounted e he]

theorem sum_entries_gain (key : Option UInt32) :
    (curr.entries.map fun e => if e.1 = key then gain prev c e.1 e.2 else 0).sum =
      difference prev curr key c := by
  have h := sum_entries_ite curr key (gain prev c key)
  have hcongr : (curr.entries.map fun e => if e.1 = key then gain prev c e.1 e.2 else 0) =
      curr.entries.map fun e => if e.1 = key then gain prev c key e.2 else 0 := by
    apply List.map_congr_left
    intro e _
    split_ifs with hkey
    · rw [hkey]
    · rfl
  rw [hcongr, h]
  unfold difference gain
  cases prev.lookup key <;> cases curr.lookup key <;> rfl

/-- What is counted under one mark: its own key, and the unmarked one if the mark is active. -/
theorem sum_countedIn_singleton (k : UInt32) :
    (curr.entries.map fun e => if CountedIn mark [k] e.1 then gain prev c e.1 e.2 else 0).sum =
      difference prev curr (some k) c + if mark = some k then difference prev curr none c else 0 := by
  have hsplit : ∀ e : Sigma fun _ : Option UInt32 => IfCounters,
      (if CountedIn mark [k] e.1 then gain prev c e.1 e.2 else 0) =
        (if e.1 = some k then gain prev c e.1 e.2 else 0) +
          if mark = some k then (if e.1 = none then gain prev c e.1 e.2 else 0) else 0 := by
    rintro ⟨key, now⟩
    cases key with
    | none => simp [CountedIn]
    | some m => simp [CountedIn]
  simp only [hsplit, List.sum_map_add, sum_entries_gain]
  by_cases h : mark = some k
  · simp only [if_pos h, sum_entries_gain]
  · simp only [if_neg h, List.map_const', List.sum_replicate, Nat.nsmul_eq_mul, Nat.mul_zero]

variable (prev curr mark c) in
/-- The traffic of one provider: its own, and what has no mark if it is the active one. -/
def ownTraffic (k : UInt32) : ℕ :=
  difference prev curr (some k) c + if mark = some k then difference prev curr none c else 0

/-- **One provider's counters.** -/
theorem count_attributeCounters (hkeys : MarkedBy markOf providers curr)
    (hmark : ∀ m, mark = some m → m ∈ providers.map markOf)
    (hsmall : credited prev curr mark c < 2 ^ 64) {p : Provider} (hp : p ∈ providers) :
    count (getD (attributeCounters prev curr mark) (markOf p) noTraffic) c =
      ownTraffic prev curr mark c (markOf p) := by
  have hle : (curr.entries.map fun e =>
      if CountedIn mark [markOf p] e.1 then gain prev c e.1 e.2 else 0).sum ≤
        credited prev curr mark c := by
    rw [credited_eq prev curr mark c hkeys hmark]
    apply List.sum_le_sum
    intro e _
    have hsub : CountedIn mark [markOf p] e.1 → CountedIn mark (providers.map markOf) e.1 := by
      rintro ⟨k, hk, h⟩
      rw [List.mem_singleton.mp hk] at h
      exact ⟨markOf p, List.mem_map_of_mem hp, h⟩
    split_ifs with h1 h2
    · exact le_refl _
    · exact absurd (hsub h1) h2
    · exact Nat.zero_le _
    · exact le_refl _
  have h := sum_attributeCounters prev curr mark c (List.nodup_singleton (markOf p))
    (Nat.lt_of_le_of_lt hle hsmall)
  rwa [sum_countedIn_singleton, List.map_singleton, List.sum_singleton] at h

theorem activeMark_mem {active : Option String} {m : UInt32}
    (h : activeMark providers markOf active = some m) : m ∈ providers.map markOf := by
  simp only [activeMark, Option.bind_eq_some_iff, Option.map_eq_some_iff] at h
  obtain ⟨a, -, p, hp, rfl⟩ := h
  exact List.mem_map_of_mem (List.mem_of_find?_eq_some hp)

/-! ## By interface -/

variable {ifaceDelta : HashMap String IfCounters} {i : String} {d : IfCounters}

variable (providers i) in
/-- The providers behind an interface. -/
def behind : List Provider := providers.filter fun p => p.interface = i

theorem getD_sharing : getD (sharing providers) i 0 = (behind providers i).length := by
  have hfold : ∀ (ps : List Provider) (m : HashMap String ℕ),
      getD (ps.foldl (fun m p => upsert 0 (· + 1) p.interface m) m) i 0 =
        getD m i 0 + (behind ps i).length := by
    intro ps
    induction ps with
    | nil => intro m; rfl
    | cons p ps ih =>
      intro m
      rw [List.foldl_cons, ih, getD_upsert, behind, behind, List.filter_cons]
      by_cases h : p.interface = i
      · subst h
        simp only [decide_true, if_true, List.length_cons]
        omega
      · rw [if_neg (Ne.symm h), if_neg (by simpa using h)]
  exact (hfold providers ∅).trans (Nat.zero_add _)

theorem interfaceRows_other {counts : HashMap String ℕ} {p : Provider} (h : p.interface ≠ i)
    (ps : List Provider) (totalsWritten : List String) :
    ∃ written, (i ∈ written ↔ i ∈ totalsWritten) ∧
      (interfaceRows counts ifaceDelta (p :: ps) totalsWritten).filter (fun r => r.interface = i) =
        (interfaceRows counts ifaceDelta ps written).filter fun r => r.interface = i := by
  have hother (name : String) (d : IfCounters) (rows : List Row) :
      (⟨name, p.interface, d⟩ :: rows).filter (fun r => r.interface = i) =
        rows.filter fun r => r.interface = i := List.filter_cons_of_neg (by simpa using h)
  rw [interfaceRows]
  cases ifaceDelta.lookup p.interface with
  | none => exact ⟨totalsWritten, Iff.rfl, rfl⟩
  | some d =>
    dsimp only
    split_ifs
    · exact ⟨totalsWritten, Iff.rfl, hother _ _ _⟩
    · exact ⟨totalsWritten, Iff.rfl, rfl⟩
    · exact ⟨p.interface :: totalsWritten, by simp [Ne.symm h], hother _ _ _⟩

theorem interfaceRows_own {counts : HashMap String ℕ} (hd : ifaceDelta.lookup i = some d)
    (hone : getD counts i 0 = 1) (ps : List Provider) (totalsWritten : List String) :
    (interfaceRows counts ifaceDelta ps totalsWritten).filter (fun r => r.interface = i) =
      (behind ps i).map fun p => ⟨p.name, i, d⟩ := by
  induction ps generalizing totalsWritten with
  | nil => rfl
  | cons p ps ih =>
    rw [behind, List.filter_cons]
    by_cases h : p.interface = i
    · subst h
      rw [interfaceRows]
      simp only [hd, hone, if_true, List.filter_cons, decide_true, List.map_cons, ih]
      rfl
    · obtain ⟨written, -, hrest⟩ := interfaceRows_other h ps totalsWritten
      rw [hrest, ih, if_neg (by simpa using h)]
      rfl

/-- The rows of an interface that several share: its total, where it was not yet written. -/
theorem interfaceRows_shared {counts : HashMap String ℕ} (hd : ifaceDelta.lookup i = some d)
    (hmany : getD counts i 0 ≠ 1) (ps : List Provider) (totalsWritten : List String) :
    (interfaceRows counts ifaceDelta ps totalsWritten).filter (fun r => r.interface = i) =
      if i ∈ totalsWritten ∨ behind ps i = [] then [] else [⟨"", i, d⟩] := by
  induction ps generalizing totalsWritten with
  | nil => simp [interfaceRows, behind]
  | cons p ps ih =>
    rw [behind, List.filter_cons]
    by_cases h : p.interface = i
    · subst h
      rw [interfaceRows]
      simp only [hd, if_neg hmany, decide_true, if_true]
      by_cases hw : p.interface ∈ totalsWritten
      · rw [if_pos hw, ih, if_pos (.inl hw), if_pos (.inl hw)]
      · rw [if_neg hw, List.filter_cons_of_pos (by simp), ih,
          if_pos (.inl List.mem_cons_self), if_neg (by simp [hw])]
    · obtain ⟨written, hmem, hrest⟩ := interfaceRows_other h ps totalsWritten
      have hne : ¬ decide (p.interface = i) = true := by simpa using h
      rw [hrest, ih, if_neg hne]
      simp only [hmem]
      rfl

theorem interfaceRows_missing {counts : HashMap String ℕ} (hd : ifaceDelta.lookup i = none)
    (ps : List Provider) (totalsWritten : List String) :
    (interfaceRows counts ifaceDelta ps totalsWritten).filter (fun r => r.interface = i) = [] := by
  induction ps generalizing totalsWritten with
  | nil => rfl
  | cons p ps ih =>
    by_cases h : p.interface = i
    · subst h
      rw [interfaceRows, hd]
      exact ih _
    · obtain ⟨written, -, hrest⟩ := interfaceRows_other h ps totalsWritten
      rw [hrest, ih]

/-- Who an interface is written for: its only provider, or nobody in particular. -/
def ownerName : List Provider → String
  | [p] => p.name
  | _ => ""

/-- **Each interface is written once**, if there is something to write. -/
theorem interface_once (hbehind : behind providers i ≠ []) :
    (trafficRows providers ifaceDelta none markOf).filter (fun r => r.interface = i) =
      (ifaceDelta.lookup i).toList.map fun d => ⟨ownerName (behind providers i), i, d⟩ := by
  unfold trafficRows
  cases hd : ifaceDelta.lookup i with
  | none => exact interfaceRows_missing hd _ _
  | some d =>
    match hps : behind providers i with
    | [] => exact absurd hps hbehind
    | [p] =>
      have hone : getD (sharing providers) i 0 = 1 := by rw [getD_sharing, hps, List.length_singleton]
      rw [interfaceRows_own hd hone, hps]
      rfl
    | p :: q :: ps =>
      have hmany : getD (sharing providers) i 0 ≠ 1 := by
        rw [getD_sharing, hps, List.length_cons, List.length_cons]
        omega
      rw [interfaceRows_shared hd hmany, hps, if_neg (by simp)]
      rfl

/-! ## Conservation -/

/-- **Every byte is counted once.** With counters per mark, the rows have what the readings differ by,
the unmarked difference only if a provider is active, and then on its row. Without them, an interface
is on one row. -/
theorem trafficRows_conserve (ifaceDelta : HashMap String IfCounters) (active : Option String)
    (hmarks : (providers.map markOf).Nodup) (hkeys : MarkedBy markOf providers curr)
    (hsmall : ∀ c, credited prev curr (activeMark providers markOf active) c < 2 ^ 64) :
    let mark := activeMark providers markOf active
    let rows := trafficRows providers ifaceDelta (some (attributeCounters prev curr mark)) markOf
    (∀ c, (rows.map fun r => count r.delta c).sum = credited prev curr mark c) ∧
      (∀ c, (rows.map fun r => (r.provider, r.interface, count r.delta c)) =
        providers.map fun p => (p.name, p.interface, ownTraffic prev curr mark c (markOf p))) ∧
      ∀ i, behind providers i ≠ [] →
        (trafficRows providers ifaceDelta none markOf).filter (fun r => r.interface = i) =
          (ifaceDelta.lookup i).toList.map fun d => ⟨ownerName (behind providers i), i, d⟩ := by
  intro mark rows
  have hmark : ∀ m, mark = some m → m ∈ providers.map markOf := fun m h => activeMark_mem h
  refine ⟨fun c => ?_, fun c => ?_, fun i hbehind => interface_once hbehind⟩
  · have hcredited := credited_eq prev curr mark c hkeys hmark
    have hsum := sum_attributeCounters prev curr mark c hmarks
      (by rw [← hcredited]; exact hsmall c)
    rw [hcredited, ← hsum]
    simp only [rows, trafficRows, List.map_map]
    rfl
  · simp only [rows, trafficRows, List.map_map]
    apply List.map_congr_left
    intro p hp
    simp only [Function.comp_apply, count_attributeCounters hkeys hmark (hsmall c) hp]

/-- Two uplinks behind one interface, the second of which is active, and a third on its own, whose
counter was reset. -/
theorem trafficRows_conserve_shared :
    let providers : List Provider := [⟨"a", 0, "lan", 0⟩, ⟨"b", 0, "lan", 1⟩, ⟨"c", 0, "wan2", 2⟩]
    let markOf : Provider → UInt32 := fun p => 0x200 + p.priority
    let prev : Reading := List.toAList [⟨some 0x200, ⟨1000, 10, 100, 1⟩⟩,
      ⟨none, ⟨10000, 100, 1000, 10⟩⟩, ⟨some 0x202, ⟨700, 7, 70, 1⟩⟩]
    let curr : Reading := List.toAList [⟨some 0x202, ⟨20, 1, 70, 1⟩⟩,
      ⟨none, ⟨30000, 300, 3000, 30⟩⟩, ⟨some 0x200, ⟨1500, 15, 150, 1⟩⟩]
    let mark := activeMark providers markOf (some "b")
    ((trafficRows providers ∅ (some (attributeCounters prev curr mark)) markOf).map fun r =>
      (r.provider, r.interface, count r.delta .rxBytes)) =
        [("a", "lan", 500), ("b", "lan", 20000), ("c", "wan2", 0)] := by
  intro providers markOf prev curr mark
  have hmarks : (providers.map markOf).Nodup := by decide
  have hkeysAll : (curr.keys.all fun key =>
      key == none || providers.any fun p => key == some (markOf p)) = true := by decide +kernel
  have hkeys : MarkedBy markOf providers curr := by
    intro key hkey
    have h := List.all_eq_true.mp hkeysAll key hkey
    simpa only [Bool.or_eq_true, beq_iff_eq, List.any_eq_true] using h
  have hsmall : ∀ c, credited prev curr mark c < 2 ^ 64 := by intro c; cases c <;> decide
  rw [(trafficRows_conserve ∅ (some "b") hmarks hkeys hsmall).2.1 .rxBytes]
  decide

end Vlb.Uplinks
