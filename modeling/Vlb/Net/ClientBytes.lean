import Vlb.Net.ClientRules

/-!
# What is reported of a counter

A round reports by how much each counter has grown since the last reading, and a counter that is
taken over at startup counts from where it was. A round whose reading fails has no counters, which
the next one takes for counters that start from zero.

* `base`, `latest`, `reported`: the account of one counter, from the notes of a run.
* `Accounts`: what was reported lies below the last reading, and this one below the chain.
* `observe_bytes`: one round reports no more than the readings differ by.
* `deltas_within`: nothing is reported twice, where no reading is missed of a client that was read.
-/

namespace Vlb.Clients

open Entries Interrupted Transition

/-! ## The account of a counter -/

/-- What a reading says of a counter. -/
def Note.value (key : Key) : Note → Option ℕ
  | .read _ (some counters) => (counters.lookup key.1).map fun c => c.bytes key.2
  | _ => none

/-- Where a counter stands as the monitor creates its rule, or finds it. -/
def Note.adopted (key : Key) : Note → Option ℕ
  | .appended k true => if k = key then some 0 else none
  | n => n.value key

/-- The bytes that a round reports under the key. -/
def reportedBytes (key : Key) (out : List ClientObservation) : ℕ :=
  (out.map fun o => if o.ip = key.1 then o.delta.bytes key.2 else 0).sum

/-- The bytes that are reported with a note. -/
def Note.bytes (key : Key) : Note → ℕ
  | .reported out => reportedBytes key out
  | _ => 0

/-- Where the counter stood when the monitor first created its rule, or found it. -/
def base (key : Key) : List Note → Option ℕ
  | [] => none
  | n :: notes => (base key notes).or (n.adopted key)

/-- The last value that was read of it. -/
def latest (key : Key) : List Note → Option ℕ
  | [] => none
  | n :: notes => (n.value key).or (latest key notes)

/-- The sum of what was reported of it. -/
def reported (key : Key) (notes : List Note) : ℕ := (notes.map (Note.bytes key)).sum

/-- What was reported is not more than the counter has grown by. -/
def Within (key : Key) (notes : List Note) : Prop :=
  (base key notes).getD 0 + reported key notes ≤ (latest key notes).getD 0

section Account

variable {key : Key} {new notes : List Note} {n : Note}

theorem base_isSome_cons (h : (base key notes).isSome = true) : base key (n :: notes) = base key notes := by
  obtain ⟨b, hb⟩ := Option.isSome_iff_exists.mp h
  rw [base, hb, Option.some_or]

theorem base_cons_none (h : n.adopted key = none) : base key (n :: notes) = base key notes := by
  rw [base, h, Option.or_none]

theorem latest_cons_none (h : n.value key = none) : latest key (n :: notes) = latest key notes := by
  rw [latest, h, Option.none_or]

theorem reported_cons : reported key (n :: notes) = n.bytes key + reported key notes := by
  rw [reported, List.map_cons, List.sum_cons, reported]

variable (key notes) in
theorem account_appended (h : ∀ n ∈ new, ∃ k ok, n = .appended k ok) :
    (base key (new ++ notes)).getD 0 = (base key notes).getD 0 ∧
      latest key (new ++ notes) = latest key notes ∧
      reported key (new ++ notes) = reported key notes ∧
      ((base key notes).isSome = true → (base key (new ++ notes)).isSome = true) ∧
      (.appended key true ∈ new → (base key (new ++ notes)).isSome = true) := by
  induction new with
  | nil => simp
  | cons n new ih =>
    obtain ⟨hbase, hlatest, hreported, hkept, hcreated⟩ :=
      ih fun n' hn' => h n' (List.mem_cons_of_mem _ hn')
    obtain ⟨k, ok, rfl⟩ := h n List.mem_cons_self
    rw [List.cons_append]
    have hvalue : (Note.appended k ok).value key = none := rfl
    have hbytes : (Note.appended k ok).bytes key = 0 := rfl
    rw [latest_cons_none hvalue, reported_cons, hbytes, Nat.zero_add]
    refine ⟨?_, hlatest, hreported, fun hsome => ?_, fun hin => ?_⟩
    · cases ok with
      | false =>
        have hadopted : (Note.appended k false).adopted key = none := rfl
        rw [base_cons_none hadopted, hbase]
      | true =>
        rw [base, Note.adopted, ← hbase]
        cases base key (new ++ notes) with
        | none => split_ifs <;> rfl
        | some b => rfl
    · rw [base_isSome_cons (hkept hsome)]
      exact hkept hsome
    · rcases List.mem_cons.mp hin with heq | hin
      · cases heq
        rw [base, Note.adopted, if_pos rfl]
        cases base key (new ++ notes) <;> rfl
      · rw [base_isSome_cons (hcreated hin)]
        exact hcreated hin

end Account

/-! ## One round -/

section Observing

variable {counters : Reading} {candidates : List Neighbour} {m : ClientMonitor} {ip : Ipv4Addr}
  {d : Direction}

/-- The last reading of a counter that the monitor has. -/
def ClientMonitor.lastRead (m : ClientMonitor) (key : Key) : ℕ :=
  (getD m.prev key.1 .zero).bytes key.2

theorem checkedSub_bytes {a b c : UInt64} (h : Canary.checkedSub a b = some c) :
    b.toNat + c.toNat = a.toNat := by
  unfold Canary.checkedSub at h
  split_ifs at h with hle
  rw [← Option.some.inj h, UInt64.toNat_sub_of_le _ _ hle]
  exact Nat.add_sub_cancel' (UInt64.le_iff_toNat_le.mp hle)

theorem delta_bytes {prev curr c : ClientCounters} (h : ClientCounters.delta prev curr = some c)
    (d : Direction) : prev.bytes d + c.bytes d = curr.bytes d := by
  simp only [ClientCounters.delta, Option.bind_eq_bind, Option.bind_eq_some_iff, Option.pure_def,
    Option.some.injEq] at h
  obtain ⟨rxBytes, hrx, rxPackets, -, txBytes, htx, txPackets, -, rfl⟩ := h
  cases d with
  | download => exact checkedSub_bytes hrx
  | upload => exact checkedSub_bytes htx

theorem difference_bytes_le (hle : m.lastRead (ip, d) ≤ (getD counters ip .zero).bytes d) :
    m.lastRead (ip, d) + (m.difference counters ip).bytes d ≤ (getD counters ip .zero).bytes d := by
  unfold ClientMonitor.difference ClientMonitor.lastRead getD at *
  cases hprev : m.prev.lookup ip with
  | none => simp
  | some prev =>
    rw [hprev, Option.getD_some] at hle
    dsimp only
    cases hdelta : ClientCounters.delta prev ((counters.lookup ip).getD .zero) with
    | none => simpa using hle
    | some c => exact (delta_bytes hdelta d).le

variable (ip) in
/-- A round reports no more than the readings differ by, and has each of its clients read. -/
theorem observe_bytes
    (hle : ∀ n ∈ candidates, m.lastRead (n.ip, d) ≤ (getD counters n.ip .zero).bytes d) :
    m.lastRead (ip, d) + reportedBytes (ip, d) (m.observe counters candidates).1 ≤
        (m.observe counters candidates).2.lastRead (ip, d) ∧
      ((m.observe counters candidates).2.lastRead (ip, d) = m.lastRead (ip, d) ∨
        (m.observe counters candidates).2.lastRead (ip, d) = (getD counters ip .zero).bytes d) := by
  induction candidates generalizing m with
  | nil => exact ⟨le_refl _, Or.inl rfl⟩
  | cons n candidates ih =>
    have hn := hle n List.mem_cons_self
    let m₁ := { m with prev := m.prev.insert n.ip (getD counters n.ip .zero) }
    have hself : m₁.lastRead (n.ip, d) = (getD counters n.ip .zero).bytes d := by
      show (((m.prev.insert n.ip _).lookup n.ip).getD _).bytes d = _
      rw [AList.lookup_insert, Option.getD_some]
    have hother : ∀ {ip'}, ip' ≠ n.ip → m₁.lastRead (ip', d) = m.lastRead (ip', d) := by
      intro ip' hne
      show (((m.prev.insert n.ip _).lookup ip').getD _).bytes d = _
      rw [AList.lookup_insert_ne hne]
      rfl
    have hle₁ : ∀ n' ∈ candidates,
        m₁.lastRead (n'.ip, d) ≤ (getD counters n'.ip .zero).bytes d := by
      intro n' hn'
      by_cases hip : n'.ip = n.ip
      · rw [hip, hself]
      · rw [hother hip]
        exact hle n' (List.mem_cons_of_mem _ hn')
    obtain ⟨hsum, hlast⟩ := ih hle₁
    have hout : reportedBytes (ip, d) (m.observe counters (n :: candidates)).1 =
        (if n.ip = ip then (m.difference counters n.ip).bytes d else 0) +
          reportedBytes (ip, d) (m₁.observe counters candidates).1 := by
      rw [reportedBytes, ClientMonitor.observe, List.map_cons, List.sum_cons, reportedBytes]
    have hmonitor : (m.observe counters (n :: candidates)).2 = (m₁.observe counters candidates).2 :=
      rfl
    rw [hout, hmonitor]
    by_cases hip : n.ip = ip
    · subst hip
      have hdelta := difference_bytes_le hn
      rw [hself] at hsum hlast
      rw [if_pos rfl]
      exact ⟨by omega, Or.inr (hlast.elim id id)⟩
    · rw [hother (Ne.symm hip)] at hsum hlast
      rw [if_neg hip]
      exact ⟨by omega, hlast⟩

end Observing

/-! ## Runs -/

/-- A monitor that goes on, with all that it has done. -/
structure Watch where
  kernel : Kernel
  monitor : ClientMonitor
  notes : List Note

/-- A round with what it meets. -/
structure Tick where
  params : SampleParams
  lan : Option String → List Neighbour
  now : ℕ
  script : List Moment

/-- The neighbours that are accepted. -/
def Tick.candidates (e : Tick) : List Neighbour :=
  (e.lan e.params.lanInterface).filter fun n => e.params.accepts n.ip

/-- The reading before the one that is at the head of `notes`, of a round that `m` has started. -/
def ClientMonitor.HasRead (m : ClientMonitor) (notes : List Note) (prev : Reading) : Prop :=
  if m.chainReady = true then prev = m.prev else .read true (some prev) ∈ notes

namespace Watch

/-- A monitor that has just been started. The chain is what earlier runs have left. -/
def started (kernel : Kernel) (dryRun : Bool) : Watch := ⟨kernel, { dryRun }, []⟩

/-- A round that comes to its end. -/
def step (s : Watch) (e : Tick) : Option Watch :=
  match s.monitor.sample e.params e.lan e.now ⟨s.kernel, e.script, s.notes⟩ with
  | (some (_, monitor), w) => some ⟨w.kernel, monitor, w.notes⟩
  | (none, _) => none

/-- A round that misses no counter: rules that are there at startup are listed, no client is left
with the first of its rules, and where the counters cannot be read, nothing has been read yet of the
clients that are looked at. -/
structure Complete (s : Watch) (e : Tick) (t : Watch) : Prop where
  startup : s.monitor.chainReady = false → .read true none ∈ t.notes → s.kernel.keys = []
  pairs : ¬ HalfAdded t.notes
  reading : ∀ out notes, t.notes = .reported out :: .read false none :: notes →
    ∀ prev, s.monitor.HasRead notes prev → ∀ n ∈ e.candidates, ∀ d, (getD prev n.ip .zero).bytes d = 0

end Watch

/-- What has been reported of a counter lies below the last reading that the monitor has, and this
one below what was read last, and below the chain. -/
structure Accounts (m : ClientMonitor) (w : World) : Prop where
  counters : m.chainReady = true → m.countersKnown = true
  unread : m.chainReady = false → m.prev = ∅
  tracks : m.chainReady = true → ∀ key ∈ w.kernel.keys, key.1 ∈ m.tracked
  based : ∀ ip ∈ m.tracked, ∀ d, (base (ip, d) w.notes).isSome = true
  below : ∀ key, (base key w.notes).getD 0 + reported key w.notes ≤ m.lastRead key
  latest : ∀ key, m.lastRead key ≤ (latest key w.notes).getD 0
  counter : ∀ key, m.lastRead key ≤ w.kernel.counter key

section Accounting

variable {m m' : ClientMonitor} {w w' : World} {added : List Key} {new : List Note}
  {params : SampleParams} {lan : Option String → List Neighbour}

theorem Accounts.within (h : Accounts m w) (key : Key) : Within key w.notes :=
  (h.below key).trans (h.latest key)

theorem Accounts.with_script (h : Accounts m w) (script : List Moment) :
    Accounts m ⟨w.kernel, script, w.notes⟩ :=
  ⟨h.counters, h.unread, h.tracks, h.based, h.below, h.latest, h.counter⟩

theorem Quiet.accounts (h : Quiet w w') (hm : Accounts m w) : Accounts m w' where
  counters := hm.counters
  unread := hm.unread
  tracks hready key hkey := hm.tracks hready key (h.keys ▸ hkey)
  based := h.notes ▸ hm.based
  below := h.notes ▸ hm.below
  latest := h.notes ▸ hm.latest
  counter key := (hm.counter key).trans (h.kernel.counter_le key List.not_mem_nil)

theorem value_read (startup : Bool) (counters : Option Reading) (key : Key) :
    ((Note.read startup counters).value key).getD 0 =
      (getD (counters.getD ∅) key.1 .zero).bytes key.2 := by
  cases counters with
  | none => exact (ClientCounters.bytes_zero key.2).symm
  | some c =>
    show ((c.lookup key.1).map _).getD 0 = ((c.lookup key.1).getD _).bytes key.2
    cases c.lookup key.1 with
    | none => exact (ClientCounters.bytes_zero key.2).symm
    | some _ => rfl

theorem bytes_read {counters : Option Reading} {k : Kernel}
    (h : ∀ c ∈ counters, c = listed k.rules) (key : Key) :
    (getD (counters.getD ∅) key.1 .zero).bytes key.2 =
      if counters.isSome then k.counter key else 0 := by
  cases counters with
  | none => exact ClientCounters.bytes_zero key.2
  | some c => rw [Option.getD_some, h c rfl, bytes_listed]; rfl

theorem mem_keys_of_value {startup : Bool} {counters : Option Reading} {k : Kernel} {key : Key}
    (h : ∀ c ∈ counters, c = listed k.rules)
    (hvalue : ((Note.read startup counters).value key).isSome = true) :
    ∃ d, (key.1, d) ∈ k.keys := by
  cases counters with
  | none => exact absurd hvalue Bool.false_ne_true
  | some c =>
    rw [Note.value, Option.isSome_map, h c rfl, AList.lookup_isSome] at hvalue
    exact mem_listed.mp hvalue

/-- The rules of an empty chain, and those that are listed, are known from the start. -/
theorem StartsUp.accounts (h : StartsUp m w m' w') (hm : Accounts m w)
    (hstartup : m.chainReady = false → .read true none ∈ w'.notes → w.kernel.keys = []) :
    Accounts m' w' := by
  cases h with
  | ready hready hquiet => exact hquiet.accounts hm
  | adopted counters hready hkernel hnotes hlisted =>
    have hkeys : w'.kernel.keys = w.kernel.keys := by rw [hkernel.keys, List.append_nil]
    have hzero : ∀ key, m.lastRead key = 0 := fun key => by
      unfold ClientMonitor.lastRead
      rw [hm.unread hready]
      exact ClientCounters.bytes_zero key.2
    have hlast : ∀ key, (getD (counters.getD ∅) key.1 .zero).bytes key.2 =
        ((Note.read true counters).value key).getD 0 := fun key => (value_read true counters key).symm
    refine ⟨fun _ => rfl, fun h => by simp at h, fun _ key hkey => ?_, fun ip hin d => ?_,
      fun key => ?_, fun key => ?_, fun key => ?_⟩
    · rw [List.mem_toFinset, ← AList.mem_keys]
      cases counters with
      | none =>
        rw [hkeys, hstartup hready (hnotes ▸ List.mem_cons_self)] at hkey
        exact absurd hkey List.not_mem_nil
      | some c =>
        rw [Option.getD_some, hlisted c rfl, mem_listed]
        exact ⟨key.2, hkey⟩
    · rw [List.mem_toFinset, ← AList.mem_keys] at hin
      have hvalue : ((Note.read true counters).adopted (ip, d)).isSome = true := by
        cases counters with
        | none => exact absurd hin (AList.notMem_empty _)
        | some c =>
          show ((c.lookup ip).map _).isSome = true
          rw [Option.isSome_map]
          exact AList.lookup_isSome.mpr hin
      rw [hnotes, base]
      exact Option.isSome_or.trans (by rw [hvalue, Bool.or_true])
    · have hbelow := hm.below key
      rw [hzero] at hbelow
      show _ ≤ (getD (counters.getD ∅) key.1 .zero).bytes key.2
      rw [hlast, hnotes, reported_cons, base]
      have hbytes : (Note.read true counters).bytes key = 0 := rfl
      have hadopted : (Note.read true counters).adopted key = (Note.read true counters).value key := rfl
      rw [hbytes, hadopted]
      cases hbase : base key w.notes with
      | none =>
        rw [hbase] at hbelow
        rw [Option.none_or]
        omega
      | some b =>
        rw [hbase] at hbelow
        simp only [Option.some_or, Option.getD_some] at hbelow ⊢
        omega
    · show (getD (counters.getD ∅) key.1 .zero).bytes key.2 ≤ _
      rw [hlast, hnotes, Clients.latest]
      cases (Note.read true counters).value key with
      | none => exact Nat.zero_le _
      | some v => exact le_refl _
    · show (getD (counters.getD ∅) key.1 .zero).bytes key.2 ≤ _
      rw [bytes_read hlisted]
      split_ifs
      · exact le_refl _
      · exact Nat.zero_le _

theorem Installs.accounts (h : Installs m w m' w' added new) (hm : Accounts m w)
    (hready : m.chainReady = true) (hhalf : ¬ HalfAdded new) : Accounts m' w' := by
  have hfresh : ∀ key ∈ added, key ∉ w.kernel.keys := fun key hadded hkey =>
    h.fresh key hadded (hm.tracks hready key hkey)
  have haccount := fun key => account_appended key w.notes h.appended
  rw [← h.notes] at haccount
  have hlast : ∀ key, m'.lastRead key = m.lastRead key := by
    rw [h.monitor]
    exact fun _ => rfl
  constructor
  · rw [h.monitor]
    exact hm.counters
  · rw [h.monitor]
    exact hm.unread
  · intro _ key hkey
    rw [h.kernel.keys, List.mem_append] at hkey
    rcases hkey with hkey | hkey
    · exact h.tracked (hm.tracks hready key hkey)
    · exact h.known hhalf key hkey
  · intro ip hin d
    obtain ⟨-, -, -, hkept, hcreated⟩ := haccount (ip, d)
    by_cases htracked : ip ∈ m.tracked
    · exact hkept (hm.based ip htracked d)
    · exact hcreated (h.created ip hin htracked d)
  · intro key
    obtain ⟨hbase, -, hreported, -⟩ := haccount key
    rw [hbase, hreported, hlast]
    exact hm.below key
  · intro key
    obtain ⟨-, hlatest, -⟩ := haccount key
    rw [hlatest, hlast]
    exact hm.latest key
  · intro key
    rw [hlast]
    exact (hm.counter key).trans (h.kernel.counter_le_of_fresh hfresh key)

/-- **One round** keeps the account, if what it reads is not less than what was read before. -/
theorem Round.accounts {candidates : List Neighbour} {out : List ClientObservation}
    {counters : Option Reading}
    (h : Round m w candidates out m' w' added new counters) (hm : Accounts m w)
    (hready : m.chainReady = true) (hhalf : ¬ HalfAdded new)
    (hread : counters = none → ∀ n ∈ candidates, ∀ d, m.lastRead (n.ip, d) = 0) :
    Accounts m' w' := by
  obtain ⟨m₁, w₁, hinstalls, probes, hobserve⟩ := h.installs
  obtain ⟨k, hk, hk', hlisted⟩ := h.kernel
  have hm₁ : Accounts m₁ ⟨k, [], new ++ w.notes⟩ :=
    Installs.accounts { hinstalls with kernel := hk, notes := rfl } hm hready hhalf
  have hlast₁ : ∀ key, m₁.lastRead key = m.lastRead key := by
    rw [hinstalls.monitor]
    exact fun _ => rfl
  have hready₁ : m₁.chainReady = true := by
    rw [hinstalls.monitor]
    exact hready
  obtain ⟨prev, hprev⟩ := observe_monitor (counters.getD ∅) candidates { m₁ with lastProbe := probes }
  have hmonitor : m' = { m₁ with lastProbe := probes, prev } :=
    (congrArg Prod.snd hobserve).trans hprev
  -- What the clients of this round are read to have is not less than what was read last.
  have hle : ∀ d, ∀ n ∈ candidates, m₁.lastRead (n.ip, d) ≤
      (getD (counters.getD ∅) n.ip .zero).bytes d := by
    intro d n hn
    rw [bytes_read hlisted (n.ip, d)]
    split_ifs with hsome
    · exact hm₁.counter (n.ip, d)
    · rw [Option.not_isSome_iff_eq_none] at hsome
      rw [hlast₁, hread hsome n hn d]
  have hround : ∀ key, m₁.lastRead key + reportedBytes key out ≤ m'.lastRead key ∧
      (m'.lastRead key = m₁.lastRead key ∨
        m'.lastRead key = (getD (counters.getD ∅) key.1 .zero).bytes key.2) := by
    intro key
    have hbytes := observe_bytes (m := { m₁ with lastProbe := probes }) key.1 (hle key.2)
    rw [← hobserve] at hbytes
    exact hbytes
  -- A counter that is read has been adopted before, since its rule is known.
  have hvalue : ∀ key, (base key (new ++ w.notes)).isSome = true ∨
      (Note.read false counters).value key = none := by
    intro key
    rw [or_iff_not_imp_right, ← ne_eq, Option.ne_none_iff_isSome]
    intro hsome
    obtain ⟨d, hd⟩ := mem_keys_of_value hlisted hsome
    exact hm₁.based key.1 (hm₁.tracks hready₁ (key.1, d) hd) key.2
  have hbase : ∀ key, base key w'.notes = base key (new ++ w.notes) := by
    intro key
    rw [h.notes, base_cons_none rfl]
    rcases hvalue key with hsome | hnone
    · exact base_isSome_cons hsome
    · exact base_cons_none hnone
  have hreported : ∀ key, reported key w'.notes =
      reportedBytes key out + reported key (new ++ w.notes) := by
    intro key
    rw [h.notes, reported_cons, reported_cons]
    exact congrArg _ (Nat.zero_add _)
  constructor
  · rw [hmonitor]
    exact hm₁.counters
  · rw [hmonitor]
    exact fun hnot => Bool.noConfusion (hready₁.symm.trans hnot)
  · rw [hmonitor]
    intro _ key hkey
    rw [hk'.keys, List.append_nil] at hkey
    exact hm₁.tracks hready₁ key hkey
  · rw [hmonitor]
    intro ip hin d
    rw [hbase]
    exact hm₁.based ip hin d
  · intro key
    have hbelow : (base key (new ++ w.notes)).getD 0 + reported key (new ++ w.notes) ≤ _ :=
      hm₁.below key
    have hsum := (hround key).1
    rw [hbase, hreported]
    omega
  · intro key
    have hcurr := value_read false counters key
    have hlatest : m₁.lastRead key ≤ (Clients.latest key (new ++ w.notes)).getD 0 := hm₁.latest key
    have hsame : Clients.latest key w'.notes =
        ((Note.read false counters).value key).or (Clients.latest key (new ++ w.notes)) := by
      rw [h.notes, latest_cons_none rfl, Clients.latest]
    have hbytes := bytes_read hlisted key
    rw [hsame]
    cases hv : (Note.read false counters).value key with
    | none =>
      rw [hv, Option.getD_none] at hcurr
      rw [Option.none_or]
      rcases (hround key).2 with heq | heq <;> omega
    | some v =>
      rw [hv, Option.getD_some] at hcurr
      rw [Option.some_or, Option.getD_some]
      have hsome : counters.isSome = true := by
        cases counters with
        | none => cases hv
        | some c => rfl
      rw [if_pos hsome] at hbytes
      have hcounter : m₁.lastRead key ≤ k.counter key := hm₁.counter key
      rcases (hround key).2 with heq | heq <;> omega
  · intro key
    have hcounter : m₁.lastRead key ≤ k.counter key := hm₁.counter key
    have hgrown := hk'.counter_le key List.not_mem_nil
    have hbytes := bytes_read hlisted key
    rcases (hround key).2 with heq | heq
    · omega
    · rw [heq, hbytes]
      split_ifs <;> omega

/-- What the monitor goes by after it has started up is what it has read before. -/
theorem StartsUp.hasRead (h : StartsUp m w m' w') (key : Key) :
    m'.lastRead key = 0 ∨ m.HasRead (new ++ w'.notes) m'.prev := by
  cases h with
  | ready hready =>
    right
    rw [ClientMonitor.HasRead, if_pos hready]
  | adopted counters hready hkernel hnotes =>
    cases counters with
    | none => exact Or.inl (ClientCounters.bytes_zero key.2)
    | some c =>
      right
      rw [ClientMonitor.HasRead, hready, if_neg Bool.false_ne_true, hnotes]
      exact List.mem_append_right _ List.mem_cons_self

end Accounting

namespace Watch

variable {s t : Watch} {e : Tick} {es : List Tick} {kernel : Kernel} {dryRun : Bool}

theorem accounts_started (kernel : Kernel) (dryRun : Bool) (script : List Moment) :
    Accounts (started kernel dryRun).monitor ⟨kernel, script, []⟩ where
  counters h := absurd h Bool.false_ne_true
  unread _ := rfl
  tracks h := absurd h Bool.false_ne_true
  based ip hin := absurd hin (Finset.notMem_empty ip)
  below key := (ClientCounters.bytes_zero key.2).ge
  latest key := (ClientCounters.bytes_zero key.2).le
  counter key := (ClientCounters.bytes_zero key.2).le.trans (Nat.zero_le _)

theorem accounts_step (hs : ∀ script, Accounts s.monitor ⟨s.kernel, script, s.notes⟩)
    (hstep : s.step e = some t) (hcomplete : Complete s e t) :
    ∀ script, Accounts t.monitor ⟨t.kernel, script, t.notes⟩ := by
  intro script
  have hm := hs e.script
  have hspec := sample_ensures e.params e.lan e.now hm.counters ⟨s.kernel, e.script, s.notes⟩
  unfold step at hstep
  rcases hrun : s.monitor.sample e.params e.lan e.now ⟨s.kernel, e.script, s.notes⟩ with
    ⟨_ | ⟨r, m'⟩, w'⟩
  · rw [hrun] at hstep
    cases hstep
  · rw [hrun] at hstep
    cases hstep
    have hsamples := hspec.of_eq hrun
    suffices h : Accounts m' w' from h.with_script script
    cases hsamples with
    | dry => exact hm
    | notReady _ _ hquiet => exact hquiet.accounts hm
    | noNeighbours _ hstart hquiet =>
      refine hquiet.accounts (hstart.accounts hm fun hready hread => ?_)
      exact hcomplete.startup hready (hquiet.notes ▸ hread)
    | @round m₁ _ w₁ _ out added new counters hstart hround =>
      have hnotes : w'.notes = [.reported out, .read false counters] ++ new ++ w₁.notes :=
        hround.notes
      have hm₁ := hstart.accounts hm fun hready hread =>
        hcomplete.startup hready (hnotes ▸ List.mem_append_right _ hread)
      have hhalf : ¬ HalfAdded new := by
        have hpairs : ¬ HalfAdded w'.notes := hcomplete.pairs
        rw [hnotes, halfAdded_append, halfAdded_append, not_or, not_or] at hpairs
        exact hpairs.1.2
      refine hround.accounts hm₁ hstart.chainReady hhalf fun hnone n hn d => ?_
      subst hnone
      rcases hstart.hasRead (n.ip, d) with hzero | hread
      · exact hzero
      · exact hcomplete.reading out (new ++ w₁.notes) hnotes m₁.prev hread n hn d

/-- **Client bytes never exceed what the kernel counted**, in every run in which no counter is
missed: for each client and direction, what has been reported is at most the last value that was
read, less the value at which the monitor first found or created the rule. -/
theorem deltas_within (hrun : Run step (started kernel dryRun) es s)
    (hcomplete : AllSteps step Complete (started kernel dryRun) es) (key : Key) :
    Within key s.notes := by
  have haccounts := hrun.invariant (I := fun s => ∀ script, Accounts s.monitor ⟨s.kernel, script, s.notes⟩)
    (fun _ _ _ hs hstep hC => accounts_step hs hstep hC) hcomplete
    (accounts_started kernel dryRun)
  exact (haccounts []).within key

/-! ## A reading that fails -/

instance (key : Key) (notes : List Note) : Decidable (Within key notes) :=
  inferInstanceAs (Decidable (_ ≤ _))

/-- The laptop has downloaded 1000 bytes in an earlier run. -/
def leftBehind : Kernel where
  chain := some [⟨Accounting.laptop.ip, .download, 1, 1000⟩, ⟨Accounting.laptop.ip, .upload, 0, 0⟩]
  hooked := true

def round (script : List Moment) : Tick :=
  ⟨Accounting.anyClient, fun _ => [Accounting.laptop], 0, script⟩

/-- A command that runs after another 500 bytes. -/
def later : Moment := ⟨.ran, fun key => if key.2 = .download then (1, 500) else (0, 0)⟩

theorem complete_of_none_failed (h : t.notes.all (fun n => !n.failed) = true) : Complete s e t := by
  have hfailed : ∀ n ∈ t.notes, n.failed = false := by simpa using h
  refine ⟨fun _ hin => ?_, fun ⟨ip, hin⟩ => ?_, fun out notes hnotes => ?_⟩
  · exact absurd (hfailed _ hin) (by decide)
  · exact absurd (hfailed _ hin) (by simp [Note.failed])
  · have hin : .read false none ∈ t.notes := hnotes ▸ List.mem_cons_of_mem _ List.mem_cons_self
    exact absurd (hfailed _ hin) (by decide)

/-- The bytes of the earlier run are not reported again, those that come are. -/
theorem deltas_within_leftBehind : ∃ s,
    Run step (started leftBehind false)
        [round (List.replicate 5 Accounting.ran), round [Accounting.ran, later]] s ∧
      reported (Accounting.laptop.ip, .download) s.notes = 500 ∧
      Within (Accounting.laptop.ip, .download) s.notes := by
  have hsome : (exec step (started leftBehind false)
      [round (List.replicate 5 Accounting.ran), round [Accounting.ran, later]]).isSome = true := by
    decide +kernel
  have hrun := run_get hsome
  refine ⟨_, hrun, Run.of_all
    (P := fun s => reported (Accounting.laptop.ip, .download) s.notes = 500) (by decide +kernel) hrun, ?_⟩
  exact deltas_within hrun (allSteps_of_check (c := fun _ _ t => t.notes.all fun n => !n.failed)
    (fun _ _ _ h => complete_of_none_failed h) (by decide +kernel)) _

/-- The second round cannot read the counters. -/
def missedReading : List Tick :=
  [round (List.replicate 5 Accounting.ran),
    round [Accounting.ran, Accounting.refused, Accounting.refused],
    round (List.replicate 2 Accounting.ran)]

/-- After a round that could not read the counters, the next one reports all that they have ever
counted. -/
theorem deltas_not_within :
    ¬ ∀ (kernel : Kernel) (dryRun : Bool) (es : List Tick) (s : Watch),
      Run step (started kernel dryRun) es s → ∀ key, Within key s.notes := by
  intro hall
  have hsome : (exec step (started leftBehind false) missedReading).isSome = true := by
    decide +kernel
  have hrun := run_get hsome
  have hnot := Run.of_all (P := fun s => ¬ Within (Accounting.laptop.ip, .download) s.notes)
    (by decide +kernel) hrun
  exact hnot (hall leftBehind false missedReading _ hrun _)

end Watch

end Vlb.Clients
