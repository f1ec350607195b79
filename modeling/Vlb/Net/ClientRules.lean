import Vlb.Lib.Transition
import Vlb.Net.Clients

/-!
# One rule for each client and direction

The monitor adds rules without looking, and removes them without looking back: what it knows of the
chain it has read at startup, or done itself. What each part does to the chain is said once here.

* `Quiet`, `Adds`, `Installs`: what the commands of a part have done to the chain.
* `installNew_ensures`, `sample_ensures`, `forget_ensures`: one lemma for each part.
* `tracks_installs`: the monitor knows of every rule, unless a client has got only one of its two.
* `rules_unique`: no rule is there twice, in runs where the reading at startup succeeds, no client is
  left with half of its rules, and no deletion fails.
-/

namespace Vlb.Clients

open Entries Interrupted Transition

/-! ## What each part does -/

/-- No rule has come or gone. -/
structure Quiet (w w' : World) : Prop where
  kernel : w.kernel.Extends w'.kernel []
  notes : w'.notes = w.notes

section Commands

variable {w w' w'' : World} {key : Key} {startup : Bool}

theorem Quiet.refl (w : World) : Quiet w w := ⟨Kernel.Extends.refl _, rfl⟩

theorem Quiet.trans (h : Quiet w w') (h' : Quiet w' w'') : Quiet w w'' :=
  ⟨h.kernel.then h'.kernel, h'.notes.trans h.notes⟩

theorem Quiet.after {α : Type} {x : Shell α} (h : Quiet w w')
    (hx : Ensures x w' (fun _ => Quiet w') (Quiet w')) :
    Ensures x w' (fun _ => Quiet w) (Quiet w) :=
  hx.mono (fun _ _ hquiet => h.trans hquiet) fun _ hquiet => h.trans hquiet

theorem quiet_next {o : Outcome} (h : w.next = some (o, w')) : Quiet w w' := by
  unfold World.next at h
  split at h
  · cases h
  · cases h
    exact ⟨Kernel.extends_count, rfl⟩

theorem runOk_ensures (effect : Kernel → Bool × Kernel) (w : World) :
    Ensures (runOk effect) w
      (fun ok w' => w'.notes = w.notes ∧ ∃ k, w.kernel.Extends k [] ∧
        ((ok = some (effect k).1 ∧ w'.kernel = (effect k).2) ∨ (ok ≠ some true ∧ w'.kernel = k)))
      (Quiet w) := by
  refine command_ensures (fun _ => Quiet.refl w) (fun w₁ h => ?_) fun o w₁ ho h => ?_
  · exact ⟨(quiet_next h).notes, _, (quiet_next h).kernel, Or.inl ⟨rfl, rfl⟩⟩
  · exact ⟨(quiet_next h).notes, _, (quiet_next h).kernel, Or.inr ⟨o.failure_ne, rfl⟩⟩

theorem runOk_quiet {effect : Kernel → Bool × Kernel} (h : ∀ k : Kernel, k.Extends (effect k).2 [])
    (w : World) : Ensures (runOk effect) w (fun _ => Quiet w) (Quiet w) := by
  apply (runOk_ensures effect w).mono _ fun _ h => h
  rintro ok w' ⟨hnotes, k, hk, ⟨-, hkernel⟩ | ⟨-, hkernel⟩⟩
  · exact ⟨hk.then (hkernel ▸ h k), hnotes⟩
  · exact ⟨hkernel ▸ hk, hnotes⟩

theorem runStdout_ensures {α : Type} (output : Kernel → Option α) (w : World) :
    Ensures (runStdout output) w
      (fun out w' => Quiet w w' ∧ ∀ a ∈ out, output w'.kernel = some a) (Quiet w) := by
  refine command_ensures (fun _ => Quiet.refl w) (fun w₁ h => ?_) fun o w₁ ho h => ?_
  · exact ⟨quiet_next h, fun a ha => ha⟩
  · exact ⟨quiet_next h, fun a ha => absurd ha (by simp)⟩

theorem note_ensures {K : World → Prop} (n : Note) (w : World) :
    Ensures (note n) w (fun _ w' => w' = { w with notes := n :: w.notes }) K := rfl

theorem ensureChain_ensures (w : World) :
    Ensures ensureChain w (fun _ => Quiet w) (Quiet w) := by
  unfold ensureChain
  apply (runOk_quiet (fun _ => Kernel.extends_newChain) w).bind
  intro _ w₁ h₁
  have hhooked : ∀ k : Kernel, k.Extends (Kernel.isHooked k).2 [] := fun k => Kernel.Extends.refl k
  apply (h₁.after (runOk_quiet hhooked w₁)).bind
  intro hooked w₂ h₂
  dsimp only
  split_ifs
  · exact ensures_pure h₂
  · apply (h₂.after (runOk_quiet (fun _ => Kernel.extends_hook) w₂)).bind
    rintro (_ | _ | _) w₃ h₃ <;> exact ensures_pure h₃

theorem readCounters_ensures (startup : Bool) (w : World) :
    Ensures (readCounters startup) w
      (fun r w' => w.kernel.Extends w'.kernel [] ∧ ∃ counters : Option Reading,
        w'.notes = .read startup counters :: w.notes ∧ r = .ok (counters.getD ∅) ∧
          ∀ c ∈ counters, c = listed w'.kernel.rules)
      (Quiet w) := by
  unfold readCounters
  apply (runStdout_ensures _ w).bind
  rintro (_ | counters) w₁ ⟨h₁, hout₁⟩
  · apply ((runStdout_ensures (fun k : Kernel => k.chain.map listed) w₁).mono
      (fun _ _ h => And.imp_left h₁.trans h) fun _ h => h₁.trans h).bind
    rintro (_ | counters) w₂ ⟨h₂, hout₂⟩
    · apply (note_ensures _ w₂).bind
      rintro _ _ rfl
      refine ensures_pure ⟨h₂.kernel, none, ?_, rfl, fun c hc => by simp at hc⟩
      rw [h₂.notes]
    · apply (note_ensures _ w₂).bind
      rintro _ _ rfl
      refine ensures_pure ⟨h₂.kernel, some counters, ?_, rfl, fun c hc => ?_⟩
      · rw [h₂.notes]
      · obtain ⟨rules, hchain, hlisted⟩ := Option.map_eq_some_iff.mp (hout₂ counters rfl)
        rw [← Option.mem_some_iff.mp hc, ← hlisted, Kernel.rules, hchain, Option.getD_some]
  · apply (note_ensures _ w₁).bind
    rintro _ _ rfl
    refine ensures_pure ⟨h₁.kernel, some counters, ?_, rfl, fun c hc => ?_⟩
    · rw [h₁.notes]
    · rw [← Option.mem_some_iff.mp hc, ← Option.some.inj (hout₁ counters rfl)]

theorem readNeighbours_ensures (lan : Option String → List Neighbour) (dev : Option String)
    (w : World) :
    Ensures (readNeighbours lan dev) w
      (fun r w' => Quiet w w' ∧ ∀ neighbours, r = .ok neighbours → neighbours = lan dev)
      (Quiet w) := by
  unfold readNeighbours
  apply (runStdout_ensures _ w).bind
  rintro (_ | neighbours) w₁ ⟨h₁, hout⟩
  · exact ensures_pure ⟨h₁, fun _ h => by simp at h⟩
  · refine ensures_pure ⟨h₁, fun _ h => ?_⟩
    rw [← Except.ok.inj h, ← Option.some.inj (hout neighbours rfl)]

end Commands

/-! ## Adding rules -/

/-- A client has been left with the first of its rules only. -/
def HalfAdded (notes : List Note) : Prop := ∃ ip, .appended (ip, .upload) false ∈ notes

/-- The rules `added` have come, of clients that `m` does not track. -/
structure Adds (m : ClientMonitor) (w w' : World) (added : List Key) (new : List Note) : Prop where
  kernel : w.kernel.Extends w'.kernel added
  notes : w'.notes = new ++ w.notes
  appended : ∀ n ∈ new, ∃ key ok, n = .appended key ok
  fresh : ∀ key ∈ added, key.1 ∉ m.tracked
  nodup : ¬ HalfAdded new → added.Nodup

/-- And `m'` tracks them, those that came in pairs. -/
structure Installs (m : ClientMonitor) (w : World) (m' : ClientMonitor) (w' : World)
    (added : List Key) (new : List Note) : Prop extends Adds m w w' added new where
  monitor : m' = { m with tracked := m'.tracked }
  tracked : m.tracked ⊆ m'.tracked
  known : ¬ HalfAdded new → ∀ key ∈ added, key.1 ∈ m'.tracked
  created : ∀ ip ∈ m'.tracked, ip ∉ m.tracked → ∀ d, .appended (ip, d) true ∈ new

section Adding

variable {m m₁ m₂ : ClientMonitor} {w w₁ w₂ : World} {added₁ added₂ : List Key}
  {new₁ new₂ : List Note} {key : Key} {ip : Ipv4Addr}

theorem halfAdded_append {new₁ new₂ : List Note} :
    HalfAdded (new₁ ++ new₂) ↔ HalfAdded new₁ ∨ HalfAdded new₂ := by
  simp only [HalfAdded, List.mem_append, exists_or]

theorem Quiet.adds (h : Quiet w w₁) : Adds m w w₁ [] [] :=
  ⟨h.kernel, h.notes, by simp, by simp, fun _ => List.nodup_nil⟩

theorem Quiet.installs (h : Quiet w w₁) : Installs m w m w₁ [] [] :=
  { h.adds with
    monitor := rfl
    tracked := Finset.Subset.refl _
    known := by simp
    created := fun _ hin hnotin => absurd hin hnotin }

theorem Installs.adds_trans (h₁ : Installs m w m₁ w₁ added₁ new₁)
    (h₂ : Adds m₁ w₁ w₂ added₂ new₂) : Adds m w w₂ (added₁ ++ added₂) (new₂ ++ new₁) where
  kernel := h₁.kernel.trans h₂.kernel
  notes := by rw [h₂.notes, h₁.notes, List.append_assoc]
  appended n hn := (List.mem_append.mp hn).elim (h₂.appended n) (h₁.appended n)
  fresh key hkey :=
    (List.mem_append.mp hkey).elim (h₁.fresh key) fun h hin => h₂.fresh key h (h₁.tracked hin)
  nodup hhalf := by
    rw [halfAdded_append, not_or] at hhalf
    rw [List.nodup_append']
    exact ⟨h₁.nodup hhalf.2, h₂.nodup hhalf.1,
      fun key hkey hkey' => h₂.fresh key hkey' (h₁.known hhalf.2 key hkey)⟩

theorem Installs.trans (h₁ : Installs m w m₁ w₁ added₁ new₁)
    (h₂ : Installs m₁ w₁ m₂ w₂ added₂ new₂) :
    Installs m w m₂ w₂ (added₁ ++ added₂) (new₂ ++ new₁) :=
  { h₁.adds_trans h₂.toAdds with
    monitor := by rw [h₂.monitor, h₁.monitor]
    tracked := h₁.tracked.trans h₂.tracked
    known := by
      intro hhalf key hkey
      rw [halfAdded_append, not_or] at hhalf
      rcases List.mem_append.mp hkey with hkey | hkey
      · exact h₂.tracked (h₁.known hhalf.2 key hkey)
      · exact h₂.known hhalf.1 key hkey
    created := by
      intro ip hin hnotin d
      rw [List.mem_append]
      by_cases hmid : ip ∈ m₁.tracked
      · exact Or.inr (h₁.created ip hmid hnotin d)
      · exact Or.inl (h₂.created ip hin hmid d) }

theorem addRule_ensures (key : Key) (w : World) :
    Ensures (addRule true key) w
      (fun r w₁ =>
        (r = .ok () ∧ w.kernel.Extends w₁.kernel [key] ∧
          w₁.notes = .appended key true :: w.notes) ∨
        ((∃ e, r = .error e) ∧ w.kernel.Extends w₁.kernel [] ∧
          w₁.notes = .appended key false :: w.notes))
      (Quiet w) := by
  unfold addRule
  have hskip : Ensures (isThere true key) w (fun there w' => there = false ∧ w = w') (Quiet w) :=
    ⟨rfl, rfl⟩
  apply hskip.bind
  rintro _ _ ⟨rfl, rfl⟩
  apply (runOk_ensures (Kernel.append key) w).bind
  rintro ok w₁ ⟨hnotes, k, hk, hran | hfailed⟩
  · apply (note_ensures _ w₁).bind
    rintro _ _ rfl
    obtain ⟨rfl, hkernel⟩ := hran
    cases hok : (k.append key).1 with
    | true =>
      have happend := hk.trans (Kernel.extends_append hok)
      exact ensures_pure (Or.inl ⟨rfl, hkernel ▸ happend, congrArg _ hnotes⟩)
    | false =>
      rw [Kernel.append_snd_of_false hok] at hkernel
      exact ensures_pure (Or.inr ⟨⟨_, rfl⟩, hkernel ▸ hk, congrArg _ hnotes⟩)
  · apply (note_ensures _ w₁).bind
    rintro _ _ rfl
    obtain ⟨hok, hkernel⟩ := hfailed
    rcases ok with _ | _ | _
    · exact ensures_pure (Or.inr ⟨⟨_, rfl⟩, hkernel ▸ hk, congrArg _ hnotes⟩)
    · exact ensures_pure (Or.inr ⟨⟨_, rfl⟩, hkernel ▸ hk, congrArg _ hnotes⟩)
    · exact absurd rfl hok

theorem addRules_ensures (hfresh : ip ∉ m.tracked) (w : World) :
    Ensures (addRules true ip) w
      (fun r w₁ => ∃ added new, Installs m w
        (match r with
          | .ok () => { m with tracked := insert ip m.tracked }
          | .error _ => m) w₁ added new)
      (fun w₁ => ∃ added new, Adds m w w₁ added new) := by
  unfold addRules
  apply ((addRule_ensures (ip, .download) w).mono (fun _ _ h => h)
    fun w₁ hquiet => ⟨[], [], hquiet.adds⟩).bind
  rintro _ w₁ (⟨rfl, hkernel₁, hnotes₁⟩ | ⟨⟨e, rfl⟩, hkernel₁, hnotes₁⟩)
  · have hdownload : Adds m w w₁ [(ip, .download)] [.appended (ip, .download) true] :=
      ⟨hkernel₁, hnotes₁, by simp, by simpa using hfresh, fun _ => List.nodup_singleton _⟩
    apply (addRule_ensures (ip, .upload) w₁).mono
    · rintro _ w₂ (⟨rfl, hkernel₂, hnotes₂⟩ | ⟨⟨e, rfl⟩, hkernel₂, hnotes₂⟩)
      · refine ⟨[(ip, .download), (ip, .upload)],
          [.appended (ip, .upload) true, .appended (ip, .download) true], ⟨?_, rfl, ?_, ?_, ?_⟩⟩
        · refine ⟨hkernel₁.trans hkernel₂, by rw [hnotes₂, hnotes₁]; rfl, by simp, ?_, by simp⟩
          simpa using hfresh
        · exact Finset.subset_insert ip m.tracked
        · simp
        · intro ip' hin hnotin d
          have hip : ip' = ip := (Finset.mem_insert.mp hin).resolve_right hnotin
          cases d <;> simp [hip]
      · refine ⟨[(ip, .download)],
          [.appended (ip, .upload) false, .appended (ip, .download) true], ⟨?_, rfl, ?_, ?_, ?_⟩⟩
        · refine ⟨hkernel₁.then hkernel₂, by rw [hnotes₂, hnotes₁]; rfl, by simp, ?_, by simp⟩
          simpa using hfresh
        · exact Finset.Subset.refl _
        · exact fun hhalf => absurd ⟨ip, List.mem_cons_self⟩ hhalf
        · exact fun _ hin hnotin => absurd hin hnotin
    · intro w₂ hquiet
      exact ⟨_, _, hkernel₁.then hquiet.kernel, hquiet.notes.trans hnotes₁, hdownload.appended,
        hdownload.fresh, hdownload.nodup⟩
  · refine ensures_pure ⟨[], [.appended (ip, .download) false], ⟨?_, rfl, ?_, ?_, ?_⟩⟩
    · exact ⟨hkernel₁, hnotes₁, by simp, by simp, fun _ => List.nodup_nil⟩
    · exact Finset.Subset.refl _
    · simp
    · exact fun _ hin hnotin => absurd hin hnotin

theorem installNew_ensures (params : SampleParams) (candidates : List Neighbour) (installed : ℕ)
    {m : ClientMonitor} (hknown : m.countersKnown = true) (w : World) :
    Ensures (m.installNew params candidates installed) w
      (fun m₁ w₁ => ∃ added new, Installs m w m₁ w₁ added new)
      (fun w₁ => ∃ added new, Adds m w w₁ added new) := by
  induction candidates generalizing installed m w with
  | nil => exact ensures_pure ⟨[], [], (Quiet.refl w).installs⟩
  | cons n candidates ih =>
    unfold ClientMonitor.installNew
    split_ifs with htracked hburst hceiling
    · exact ih installed hknown w
    · exact ensures_pure ⟨[], [], (Quiet.refl w).installs⟩
    · exact ensures_pure ⟨[], [], (Quiet.refl w).installs⟩
    · have hadd := addRules_ensures htracked w
      rw [← hknown] at hadd
      apply hadd.bind
      rintro (e | ⟨⟩) w₁ ⟨added₁, new₁, h₁⟩
      · apply (ih installed hknown w₁).mono
        · rintro m₂ w₂ ⟨added₂, new₂, h₂⟩
          exact ⟨_, _, h₁.trans h₂⟩
        · rintro w₂ ⟨added₂, new₂, h₂⟩
          exact ⟨_, _, h₁.adds_trans h₂⟩
      · apply (ih (installed + 1) (m := { m with tracked := insert n.ip m.tracked }) hknown w₁).mono
        · rintro m₂ w₂ ⟨added₂, new₂, h₂⟩
          exact ⟨_, _, h₁.trans h₂⟩
        · rintro w₂ ⟨added₂, new₂, h₂⟩
          exact ⟨_, _, h₁.adds_trans h₂⟩

end Adding

/-! ## A round -/

/-- The monitor after the start of a round: as it was, or with what it has found in the chain. -/
inductive StartsUp (m : ClientMonitor) (w : World) : ClientMonitor → World → Prop
  | ready {w₁ : World} : m.chainReady = true → Quiet w w₁ → StartsUp m w m w₁
  | adopted {w₁ : World} (counters : Option Reading) : m.chainReady = false →
      w.kernel.Extends w₁.kernel [] → w₁.notes = .read true counters :: w.notes →
      (∀ c ∈ counters, c = listed w₁.kernel.rules) →
      StartsUp m w { m with
        chainReady := true, tracked := (counters.getD ∅).keys.toFinset, prev := counters.getD ∅,
        countersKnown := true } w₁

/-- A round that came to its end, from the monitor that has started up. -/
structure Round (m : ClientMonitor) (w : World) (candidates : List Neighbour)
    (out : List ClientObservation) (m' : ClientMonitor) (w' : World) (added : List Key)
    (new : List Note) (counters : Option Reading) : Prop where
  installs : ∃ m₁ w₁, Installs m w m₁ w₁ added new ∧
    ∃ probes, (out, m') = { m₁ with lastProbe := probes }.observe (counters.getD ∅) candidates
  kernel : ∃ k, w.kernel.Extends k added ∧ k.Extends w'.kernel [] ∧
    ∀ c ∈ counters, c = listed k.rules
  notes : w'.notes = .reported out :: .read false counters :: (new ++ w.notes)

/-- How a round ends. -/
inductive Samples (params : SampleParams) (lan : Option String → List Neighbour)
    (m : ClientMonitor) (w : World) :
    Except String (List ClientObservation) × ClientMonitor → World → Prop
  | dry : m.dryRun = true → Samples params lan m w (.ok [], m) w
  | notReady (e : String) {w' : World} : m.chainReady = false → Quiet w w' →
      Samples params lan m w (.error e, m) w'
  | noNeighbours (e : String) {m₁ : ClientMonitor} {w₁ w' : World} : StartsUp m w m₁ w₁ →
      Quiet w₁ w' → Samples params lan m w (.error e, m₁) w'
  | round {m₁ m' : ClientMonitor} {w₁ w' : World} {out : List ClientObservation}
      {added : List Key} {new : List Note} {counters : Option Reading} : StartsUp m w m₁ w₁ →
      Round m₁ w₁ ((lan params.lanInterface).filter fun n => params.accepts n.ip) out m' w' added
        new counters →
      Samples params lan m w (.ok out, m') w'

/-- How it is stopped. -/
inductive StopsSampling (m : ClientMonitor) (w : World) : World → Prop
  | early {w' : World} : Quiet w w' → StopsSampling m w w'
  | late {m₁ : ClientMonitor} {w₁ w₂ w' : World} {added : List Key} {new : List Note}
      (more : List Note) :
      StartsUp m w m₁ w₁ → Adds m₁ w₁ w₂ added new → w₂.kernel.Extends w'.kernel [] →
      w'.notes = more ++ w₂.notes → StopsSampling m w w'

section Sampling

variable {m m₁ m₂ : ClientMonitor} {w w₁ w₂ : World} {params : SampleParams}
  {candidates : List Neighbour}

theorem startUp_ensures (m : ClientMonitor) (w : World) :
    Ensures m.startUp w
      (fun r w₁ =>
        match r with
        | .error _ => m.chainReady = false ∧ Quiet w w₁
        | .ok m₁ => StartsUp m w m₁ w₁)
      (Quiet w) := by
  unfold ClientMonitor.startUp
  split_ifs with hready
  · exact ensures_pure (.ready hready (Quiet.refl w))
  · rw [Bool.not_eq_true] at hready
    apply (ensureChain_ensures w).bind
    rintro (e | _) w₁ h₁
    · exact ensures_pure ⟨hready, h₁⟩
    · apply ((readCounters_ensures true w₁).mono (fun _ _ h => h) fun _ h => h₁.trans h).bind
      rintro _ w₂ ⟨hkernel, counters, hnotes, rfl, hlisted⟩
      apply ensures_pure
      exact .adopted counters hready (h₁.kernel.then hkernel) (by rw [hnotes, h₁.notes]) hlisted

/-- The reading at startup is taken to have worked in every case, and so the check before a rule is
added is never made. -/
theorem StartsUp.countersKnown (h : StartsUp m w m₁ w₁)
    (hm : m.chainReady = true → m.countersKnown = true) : m₁.countersKnown = true := by
  cases h with
  | ready hready => exact hm hready
  | adopted => rfl

theorem StartsUp.chainReady (h : StartsUp m w m₁ w₁) : m₁.chainReady = true := by
  cases h with
  | ready hready => exact hready
  | adopted => rfl

theorem nudge_ensures (params : SampleParams) (candidates : List Neighbour) (now : ℕ)
    (m : ClientMonitor) (w : World) :
    Ensures (m.nudge params candidates now) w
      (fun m₁ w₁ => Quiet w w₁ ∧ ∃ probes, m₁ = { m with lastProbe := probes }) (Quiet w) := by
  unfold ClientMonitor.nudge
  split_ifs
  · dsimp only
    split_ifs
    · apply (runOk_quiet (fun k => Kernel.Extends.refl k) w).bind
      intro _ w₁ h₁
      exact ensures_pure ⟨h₁, _, rfl⟩
    · exact ensures_pure ⟨Quiet.refl w, _, rfl⟩
  · exact ensures_pure ⟨Quiet.refl w, _, rfl⟩

/-- A round, where `prev` and `tracked` are what the monitor has read, or done itself. -/
theorem sample_ensures (params : SampleParams) (lan : Option String → List Neighbour) (now : ℕ)
    (hm : m.chainReady = true → m.countersKnown = true) (w : World) :
    Ensures (m.sample params lan now) w (Samples params lan m w) (StopsSampling m w) := by
  unfold ClientMonitor.sample
  split_ifs with hdry
  · exact ensures_pure (.dry hdry)
  · apply ((startUp_ensures m w).mono (fun _ _ h => h) fun _ h => .early h).bind
    rintro (e | m₁) w₁ h₁
    · exact ensures_pure (.notReady e h₁.1 h₁.2)
    · have hstopped : ∀ {w'}, Quiet w₁ w' → StopsSampling m w w' := fun h =>
        .late [] h₁ (Quiet.refl w₁).adds h.kernel h.notes
      apply ((readNeighbours_ensures lan params.lanInterface w₁).mono (fun _ _ h => h)
        fun _ h => hstopped h).bind
      rintro (e | neighbours) w₂ ⟨h₂, hlan⟩
      · exact ensures_pure (.noNeighbours e h₁ h₂)
      · rw [hlan neighbours rfl]
        have hquiet : Installs m₁ w₁ m₁ w₂ [] [] := h₂.installs
        apply ((installNew_ensures params _ 0 (h₁.countersKnown hm) w₂).mono (fun _ _ h => h)
          fun w' ⟨added, new, h⟩ =>
            .late [] h₁ (hquiet.adds_trans h) (Kernel.Extends.refl _) rfl).bind
        rintro m₂ w₃ ⟨added, new, h₃⟩
        have h₃ := hquiet.trans h₃
        rw [List.append_nil, List.nil_append] at h₃
        apply ((readCounters_ensures false w₃).mono (fun _ _ h => h)
          fun w' h => .late [] h₁ h₃.toAdds h.kernel h.notes).bind
        rintro _ w₄ ⟨h₄, counters, hnotes₄, rfl, hlisted⟩
        apply ((nudge_ensures params _ now m₂ w₄).mono (fun _ _ h => h)
          fun w' h => .late [_] h₁ h₃.toAdds (h₄.then h.kernel) (h.notes.trans hnotes₄)).bind
        rintro _ w₅ ⟨h₅, probes, rfl⟩
        apply (note_ensures _ w₅).bind
        rintro _ _ rfl
        refine ensures_pure (.round h₁ ⟨⟨m₂, w₃, h₃, probes, rfl⟩, ?_, ?_⟩)
        · exact ⟨w₄.kernel, h₃.kernel.then h₄, h₅.kernel, hlisted⟩
        · show _ :: w₅.notes = _
          rw [h₅.notes, hnotes₄, h₃.notes]

end Sampling


/-! ## Forgetting -/

section Forgetting

variable {m : ClientMonitor} {w w₁ w₂ : World} {key : Key} {ip : Ipv4Addr}

theorem Kernel.keys_delete (key : Key) (k : Kernel) :
    (k.delete key).2.keys = k.keys.erase key := by
  obtain ⟨_ | rules, hooked⟩ := k
  · rfl
  · simp only [Kernel.delete, Kernel.keys, Kernel.rules, Option.getD_some]
    induction rules with
    | nil => rfl
    | cons r rules ih =>
      by_cases h : r.key = key
      · rw [List.eraseP_cons_of_pos (by simpa using h), List.map_cons, h, List.erase_cons_head]
      · rw [List.eraseP_cons_of_neg (by simpa using h), List.map_cons, List.map_cons, ih,
          List.erase_cons_tail (by simpa using h)]

theorem deleteRule_ensures (key : Key) (w : World) :
    Ensures (ClientMonitor.deleteRule key) w
      (fun _ w₁ => ∃ ok, w₁.notes = .deleted key ok :: w.notes ∧
        (w₁.kernel.keys = w.kernel.keys.erase key ∨ (ok = false ∧ w₁.kernel.keys = w.kernel.keys)))
      (Quiet w) := by
  unfold ClientMonitor.deleteRule
  apply (runOk_ensures (Kernel.delete key) w).bind
  rintro ok w₁ ⟨hnotes, k, hk, hcases⟩
  apply (note_ensures _ w₁).mono _ fun _ h => h
  rintro _ _ rfl
  refine ⟨ok.getD false, congrArg _ hnotes, ?_⟩
  have hkeys : k.keys = w.kernel.keys := by rw [hk.keys, List.append_nil]
  rcases hcases with ⟨rfl, hkernel⟩ | ⟨hok, hkernel⟩
  · left
    show w₁.kernel.keys = _
    rw [hkernel, Kernel.keys_delete, hkeys]
  · right
    refine ⟨?_, (congrArg Kernel.keys hkernel).trans hkeys⟩
    rcases ok with _ | _ | _
    · rfl
    · rfl
    · exact absurd rfl hok

/-- No deletion of a rule that is there has failed. -/
def Deleted (k : Kernel) (new : List Note) : Prop := ∀ key, .deleted key false ∈ new → key ∉ k.keys

/-- What `forget` has done. -/
structure Forgets (ip : Ipv4Addr) (m : ClientMonitor) (w : World) (m' : ClientMonitor) (w' : World)
    (new : List Note) : Prop where
  notes : w'.notes = new ++ w.notes
  keys : w'.kernel.keys.Sublist w.kernel.keys
  chainReady : m'.chainReady = m.chainReady
  countersKnown : m'.countersKnown = m.countersKnown
  tracked : ∀ ip' ∈ m.tracked, ip' ≠ ip → ip' ∈ m'.tracked
  gone : ip ∈ m.tracked → ip ∉ m'.tracked → w.kernel.keys.Nodup → Deleted w.kernel new →
    ∀ d, (ip, d) ∉ w'.kernel.keys

/-- How it is stopped. -/
def StopsForgetting (w w' : World) : Prop :=
  w'.kernel.keys.Sublist w.kernel.keys

theorem not_mem_of_deleted {k : Kernel} {keys keys' : List Key} {ok : Bool} {new : List Note}
    (hsub : keys.Sublist k.keys) (hnodup : k.keys.Nodup) (hdeleted : Deleted k new)
    (hnote : .deleted key ok ∈ new) (hkeys : keys' = keys.erase key ∨ (ok = false ∧ keys' = keys)) :
    key ∉ keys' := by
  rcases hkeys with rfl | ⟨rfl, rfl⟩
  · exact (hnodup.sublist hsub).not_mem_erase
  · exact fun hin => hdeleted key hnote (hsub.subset hin)

theorem forget_ensures (ip : Ipv4Addr) (m : ClientMonitor) (w : World) :
    Ensures (m.forget ip) w (fun m' w' => ∃ new, Forgets ip m w m' w' new)
      (StopsForgetting w) := by
  unfold ClientMonitor.forget
  split_ifs with hdry
  · refine ensures_pure ⟨[], rfl, List.Sublist.refl _, rfl, rfl, fun _ h _ => h, ?_⟩
    exact fun hin hnotin => absurd hin hnotin
  · by_cases htracked : ip ∈ m.tracked
    · simp only [htracked, decide_true, if_true]
      have hstop : ∀ w₁, Quiet w w₁ → StopsForgetting w w₁ := fun w₁ h => by
        rw [StopsForgetting, h.kernel.keys, List.append_nil]
      apply ((deleteRule_ensures (ip, .download) w).mono (fun _ _ h => h) hstop).bind
      rintro _ w₁ ⟨ok₁, hnotes₁, hkeys₁⟩
      have hsub₁ : w₁.kernel.keys.Sublist w.kernel.keys := by
        rcases hkeys₁ with h | ⟨-, h⟩
        · exact h ▸ List.erase_sublist
        · exact h ▸ List.Sublist.refl _
      apply ((deleteRule_ensures (ip, .upload) w₁).mono (fun _ _ h => h) fun w₂ h => by
        rw [StopsForgetting, h.kernel.keys, List.append_nil]
        exact hsub₁).bind
      rintro _ w₂ ⟨ok₂, hnotes₂, hkeys₂⟩
      have hsub₂ : w₂.kernel.keys.Sublist w₁.kernel.keys := by
        rcases hkeys₂ with h | ⟨-, h⟩
        · exact h ▸ List.erase_sublist
        · exact h ▸ List.Sublist.refl _
      refine ensures_pure ⟨[.deleted (ip, .upload) ok₂, .deleted (ip, .download) ok₁], ?_,
        hsub₂.trans hsub₁, rfl, rfl, ?_, ?_⟩
      · rw [hnotes₂, hnotes₁]
        rfl
      · exact fun ip' hin hne => Finset.mem_erase.mpr ⟨hne, hin⟩
      · intro _ _ hnodup hdeleted d
        cases d with
        | download =>
          exact fun hin => not_mem_of_deleted (List.Sublist.refl _) hnodup hdeleted (by simp) hkeys₁
            (hsub₂.subset hin)
        | upload => exact not_mem_of_deleted hsub₁ hnodup hdeleted (by simp) hkeys₂
    · simp only [htracked, decide_false, Bool.false_eq_true, if_false]
      refine ensures_pure ⟨[], rfl, List.Sublist.refl _, rfl, rfl, ?_, ?_⟩
      · exact fun ip' hin hne => Finset.mem_erase.mpr ⟨hne, hin⟩
      · exact fun hin => absurd hin htracked

end Forgetting

/-! ## Runs -/

/-- What has not succeeded. -/
def Note.failed : Note → Bool
  | .appended _ ok => !ok
  | .deleted _ ok => !ok
  | .read _ counters => counters.isNone
  | .reported _ => false

/-- The chain, and the monitor of the process that is running, if there is one. -/
structure Accounting where
  kernel : Kernel
  monitor : Option ClientMonitor
  /-- What this monitor has done. -/
  notes : List Note

/-- What the daemon does with the chain. -/
inductive Accounting.Event
  /-- The daemon is started, again perhaps. -/
  | start (dryRun : Bool)
  | sample (params : SampleParams) (lan : Option String → List Neighbour) (now : ℕ)
      (script : List Moment)
  | forget (ip : Ipv4Addr) (script : List Moment)

namespace Accounting

/-- Before the first start, on a host whose firewall is empty. -/
def initial : Accounting := ⟨⟨none, false⟩, none, []⟩

/-- What is left where a program of the monitor came to its end, or was stopped. -/
def after {α : Type} (monitor : α → ClientMonitor) : Option α × World → Accounting
  | (some a, w) => ⟨w.kernel, some (monitor a), w.notes⟩
  | (none, w) => ⟨w.kernel, none, w.notes⟩

/-- Nothing is sampled before the start. -/
def step (s : Accounting) : Event → Option Accounting
  | .start dryRun => some { s with monitor := some { dryRun }, notes := [] }
  | .sample params lan now script =>
    s.monitor.map fun m => after Prod.snd (m.sample params lan now ⟨s.kernel, script, s.notes⟩)
  | .forget ip script =>
    s.monitor.map fun m => after id (m.forget ip ⟨s.kernel, script, s.notes⟩)

/-- No rule is there twice. -/
def Unique (s : Accounting) : Prop := s.kernel.keys.Nodup

/-- `counters_known` says that the reading at startup worked, and it did. -/
def KnownIsTrue (s : Accounting) : Prop :=
  ∀ m ∈ s.monitor, m.countersKnown = true → ∃ counters, .read true (some counters) ∈ s.notes

/-- A step in which no failure goes unnoticed: the reading at startup finds a listing, no client is
left with the first of its rules, and what is to be deleted is. -/
structure Noticed (s : Accounting) (_ : Event) (t : Accounting) : Prop where
  startup : .read true none ∉ t.notes
  pairs : ¬ HalfAdded t.notes
  deleted : ∀ new, t.notes = new ++ s.notes → Deleted s.kernel new

end Accounting

/-- What the monitor knows is so. -/
structure Knows (m : ClientMonitor) (w : World) : Prop where
  counters : m.chainReady = true → m.countersKnown = true
  startup : m.countersKnown = true → ∃ counters, .read true (some counters) ∈ w.notes
  tracks : m.chainReady = true → ∀ key ∈ w.kernel.keys, key.1 ∈ m.tracked

section Knowing

variable {m m' : ClientMonitor} {w w' : World} {added : List Key} {new : List Note}
  {params : SampleParams} {lan : Option String → List Neighbour}
  {r : Except String (List ClientObservation) × ClientMonitor} {ip : Ipv4Addr}

theorem Knows.mono (hm : Knows m w) (hkeys : w'.kernel.keys = w.kernel.keys)
    (hnotes : w.notes ⊆ w'.notes) : Knows m w' where
  counters := hm.counters
  startup hknown := (hm.startup hknown).imp fun _ hread => hnotes hread
  tracks hready key hkey := hm.tracks hready key (hkeys ▸ hkey)

theorem Quiet.keys (h : Quiet w w') : w'.kernel.keys = w.kernel.keys := by
  rw [h.kernel.keys, List.append_nil]

theorem Quiet.knows (h : Quiet w w') (hm : Knows m w) : Knows m w' :=
  hm.mono h.keys fun _ hn => h.notes ▸ hn

theorem StartsUp.knows (h : StartsUp m w m' w') (hm : Knows m w) (hread : .read true none ∉ w'.notes) :
    Knows m' w' := by
  cases h with
  | ready hready hquiet => exact hquiet.knows hm
  | adopted counters hready hkernel hnotes hlisted =>
    cases counters with
    | none => exact absurd (hnotes ▸ List.mem_cons_self) hread
    | some c =>
      refine ⟨fun _ => rfl, fun _ => ⟨c, hnotes ▸ List.mem_cons_self⟩, fun _ key hkey => ?_⟩
      rw [Option.getD_some, List.mem_toFinset, ← AList.mem_keys, hlisted c rfl, mem_listed]
      exact ⟨key.2, hkey⟩

theorem StartsUp.keys (h : StartsUp m w m' w') : w'.kernel.keys = w.kernel.keys := by
  cases h with
  | ready _ hquiet => rw [hquiet.kernel.keys, List.append_nil]
  | adopted _ _ hkernel => rw [hkernel.keys, List.append_nil]

/-- What is added to a chain whose rules are all known has not been there. -/
theorem Adds.unique (h : Adds m w w' added new) (hm : Knows m w) (hready : m.chainReady = true)
    (hhalf : ¬ HalfAdded new) (hunique : w.kernel.keys.Nodup) : w'.kernel.keys.Nodup := by
  rw [h.kernel.keys, List.nodup_append']
  refine ⟨hunique, h.nodup hhalf, fun key hkey hadded => ?_⟩
  exact h.fresh key hadded (hm.tracks hready key hkey)

theorem Installs.knows (h : Installs m w m' w' added new) (hm : Knows m w)
    (hready : m.chainReady = true) (hhalf : ¬ HalfAdded new) : Knows m' w' := by
  have hknown := hm.counters hready
  rw [h.monitor]
  refine ⟨fun _ => hknown, fun _ => ?_, fun _ key hkey => ?_⟩
  · obtain ⟨counters, hread⟩ := hm.startup hknown
    exact ⟨counters, h.notes ▸ List.mem_append_right _ hread⟩
  · rw [h.kernel.keys, List.mem_append] at hkey
    rcases hkey with hkey | hkey
    · exact h.tracked (hm.tracks hready key hkey)
    · exact h.known hhalf key hkey

theorem observe_monitor (counters : Reading) (candidates : List Neighbour) (m : ClientMonitor) :
    ∃ prev, (m.observe counters candidates).2 = { m with prev } := by
  induction candidates generalizing m with
  | nil => exact ⟨m.prev, rfl⟩
  | cons n candidates ih =>
    obtain ⟨prev, hprev⟩ := ih { m with prev := m.prev.insert n.ip (getD counters n.ip .zero) }
    exact ⟨prev, hprev⟩

theorem Round.knows {candidates : List Neighbour} {out : List ClientObservation}
    {counters : Option Reading}
    (h : Round m w candidates out m' w' added new counters) (hm : Knows m w)
    (hready : m.chainReady = true) (hhalf : ¬ HalfAdded new) : Knows m' w' := by
  obtain ⟨m₁, w₁, hinstalls, probes, hobserve⟩ := h.installs
  obtain ⟨k, hk, hk', -⟩ := h.kernel
  have hknows : Knows m₁ w' := by
    apply (hinstalls.knows hm hready hhalf).mono
    · rw [hk'.keys, hk.keys, hinstalls.kernel.keys, List.append_nil]
    · rw [h.notes, hinstalls.notes]
      exact fun n hn => List.mem_cons_of_mem _ (List.mem_cons_of_mem _ hn)
  obtain ⟨prev, hprev⟩ := observe_monitor (counters.getD ∅) candidates { m₁ with lastProbe := probes }
  have hmonitor : m' = { m₁ with lastProbe := probes, prev } := (congrArg Prod.snd hobserve).trans hprev
  rw [hmonitor]
  exact ⟨hknows.counters, hknows.startup, hknows.tracks⟩

theorem Round.unique {candidates : List Neighbour} {out : List ClientObservation}
    {counters : Option Reading}
    (h : Round m w candidates out m' w' added new counters) (hm : Knows m w)
    (hready : m.chainReady = true) (hhalf : ¬ HalfAdded new) (hunique : w.kernel.keys.Nodup) :
    w'.kernel.keys.Nodup := by
  obtain ⟨m₁, w₁, hinstalls, -⟩ := h.installs
  obtain ⟨k, hk, hk', -⟩ := h.kernel
  rw [hk'.keys, List.append_nil, hk.keys, ← hinstalls.kernel.keys]
  exact hinstalls.unique hm hready hhalf hunique

/-- **A round that notices its failures** leaves no rule twice, and what the monitor knows is so. -/
theorem Samples.sound (h : Samples params lan m w r w') (hm : Knows m w)
    (hunique : w.kernel.keys.Nodup) (hread : .read true none ∉ w'.notes)
    (hhalf : ¬ HalfAdded w'.notes) : w'.kernel.keys.Nodup ∧ Knows r.2 w' := by
  cases h with
  | dry => exact ⟨hunique, hm⟩
  | notReady e hready hquiet =>
    rw [hquiet.keys]
    exact ⟨hunique, hquiet.knows hm⟩
  | noNeighbours e hstart hquiet =>
    rw [hquiet.keys, hstart.keys]
    rw [hquiet.notes] at hread
    exact ⟨hunique, hquiet.knows (hstart.knows hm hread)⟩
  | @round m₁ m' w₁ _ out added new counters hstart hround =>
    have hnotes : w'.notes = [.reported out, .read false counters] ++ new ++ w₁.notes := hround.notes
    have hread₁ : .read true none ∉ w₁.notes := fun hin => hread (hnotes ▸ List.mem_append_right _ hin)
    have hhalf₁ : ¬ HalfAdded new := by
      rw [hnotes, halfAdded_append, halfAdded_append, not_or, not_or] at hhalf
      exact hhalf.1.2
    have hm₁ := hstart.knows hm hread₁
    have hunique₁ : w₁.kernel.keys.Nodup := hstart.keys ▸ hunique
    exact ⟨hround.unique hm₁ hstart.chainReady hhalf₁ hunique₁,
      hround.knows hm₁ hstart.chainReady hhalf₁⟩

theorem StopsSampling.unique (h : StopsSampling m w w') (hm : Knows m w)
    (hunique : w.kernel.keys.Nodup) (hread : .read true none ∉ w'.notes)
    (hhalf : ¬ HalfAdded w'.notes) : w'.kernel.keys.Nodup := by
  cases h with
  | early hquiet => exact hquiet.keys ▸ hunique
  | late more hstart hadds hkernel hnotes =>
    rw [hnotes, hadds.notes] at hread hhalf
    rw [halfAdded_append, halfAdded_append, not_or, not_or] at hhalf
    have hm₁ := hstart.knows hm fun hin =>
      hread (List.mem_append_right _ (List.mem_append_right _ hin))
    rw [hkernel.keys, List.append_nil]
    exact hadds.unique hm₁ hstart.chainReady hhalf.2.1 (hstart.keys ▸ hunique)

theorem Forgets.knows (h : Forgets ip m w m' w' new) (hm : Knows m w) (hunique : w.kernel.keys.Nodup)
    (hdeleted : Deleted w.kernel new) : Knows m' w' where
  counters hready := h.countersKnown ▸ hm.counters (h.chainReady ▸ hready)
  startup hknown := by
    obtain ⟨counters, hread⟩ := hm.startup (h.countersKnown ▸ hknown)
    exact ⟨counters, h.notes ▸ List.mem_append_right _ hread⟩
  tracks hready key hkey := by
    have hin := hm.tracks (h.chainReady ▸ hready) key (h.keys.subset hkey)
    by_cases hip : key.1 = ip
    · by_contra hnotin
      rw [hip] at hin hnotin
      have hkey' : (ip, key.2) ∈ w'.kernel.keys := hip ▸ hkey
      exact h.gone hin hnotin hunique hdeleted key.2 hkey'
    · exact h.tracked key.1 hin hip

end Knowing

namespace Accounting

variable {s t : Accounting} {e : Event} {es : List Event}

/-- Holds in every state of a run whose failures are all noticed. -/
structure Sound (s : Accounting) : Prop where
  unique : s.Unique
  knows : ∀ m ∈ s.monitor, ∀ script, Knows m ⟨s.kernel, script, s.notes⟩

theorem sound_initial : initial.Sound := ⟨List.nodup_nil, fun m hm => by simp [initial] at hm⟩

theorem Sound.step (hs : s.Sound) (hstep : s.step e = some t) (hnoticed : Noticed s e t) :
    t.Sound := by
  cases e with
  | start dryRun =>
    cases hstep
    refine ⟨hs.unique, fun m hm script => ?_⟩
    cases hm
    exact ⟨fun h => by simp at h, fun h => by simp at h, fun h => by simp at h⟩
  | sample params lan now script =>
    obtain ⟨m, hm, rfl⟩ := Option.map_eq_some_iff.mp hstep
    have hknows := hs.knows m hm script
    have hspec := sample_ensures params lan now hknows.counters ⟨s.kernel, script, s.notes⟩
    rcases hrun : m.sample params lan now ⟨s.kernel, script, s.notes⟩ with ⟨_ | ⟨r, m'⟩, w'⟩
    · have hstops := hspec.of_stopped hrun
      rw [hrun] at hnoticed
      refine ⟨hstops.unique hknows hs.unique hnoticed.startup hnoticed.pairs, fun m' hm' => ?_⟩
      simp [after] at hm'
    · have hsamples := hspec.of_eq hrun
      rw [hrun] at hnoticed
      have hsound := hsamples.sound hknows hs.unique hnoticed.startup hnoticed.pairs
      refine ⟨hsound.1, fun m' hm' script => ?_⟩
      cases hm'
      exact ⟨hsound.2.counters, hsound.2.startup, hsound.2.tracks⟩
  | forget ip script =>
    obtain ⟨m, hm, rfl⟩ := Option.map_eq_some_iff.mp hstep
    have hknows := hs.knows m hm script
    have hspec := forget_ensures ip m ⟨s.kernel, script, s.notes⟩
    rcases hrun : m.forget ip ⟨s.kernel, script, s.notes⟩ with ⟨_ | m', w'⟩
    · have hstops := hspec.of_stopped hrun
      refine ⟨List.Nodup.sublist hstops hs.unique, fun m' hm' => ?_⟩
      simp [after] at hm'
    · obtain ⟨new, hforgets⟩ := hspec.of_eq hrun
      rw [hrun] at hnoticed
      have hdeleted : Deleted s.kernel new := hnoticed.deleted new hforgets.notes
      refine ⟨List.Nodup.sublist hforgets.keys hs.unique, fun m' hm' script => ?_⟩
      cases hm'
      have hsound := hforgets.knows hknows hs.unique hdeleted
      exact ⟨hsound.counters, hsound.startup, hsound.tracks⟩

/-- **At most one rule for each client and direction**, and the monitor knows of the chain what it
says it knows, in every state of a run in which the reading at startup finds a listing, no client is
left with one of its rules, and no deletion of a rule fails. -/
theorem rules_unique (hrun : Run step initial es s) (hnoticed : AllSteps step Noticed initial es) :
    s.Unique ∧ s.KnownIsTrue := by
  have hsound := hrun.invariant (fun _ _ _ hs hstep hC => Sound.step hs hstep hC) hnoticed
    sound_initial
  exact ⟨hsound.unique, fun m hm hknown => (hsound.knows m hm []).startup hknown⟩

instance (s : Accounting) : Decidable s.Unique := inferInstanceAs (Decidable (List.Nodup _))

theorem noticed_of_none_failed (h : t.notes.all (fun n => !n.failed) = true) : Noticed s e t := by
  have hfailed : ∀ n ∈ t.notes, n.failed = false := by simpa using h
  refine ⟨fun hin => ?_, fun ⟨ip, hin⟩ => ?_, fun new hnew key hin => ?_⟩
  · exact absurd (hfailed _ hin) (by decide)
  · exact absurd (hfailed _ hin) (by simp [Note.failed])
  · exact absurd (hfailed _ (hnew ▸ List.mem_append_left _ hin)) (by simp [Note.failed])

/-! ## A restart -/

/-- A command that does its work, while there is no traffic. -/
def ran : Moment := ⟨.ran, fun _ => (0, 0)⟩

/-- One that does not. -/
def refused : Moment := ⟨.refused, fun _ => (0, 0)⟩

/-- Everybody is accepted. -/
def anyClient : SampleParams where
  lanInterface := none
  excluded := ∅
  lanNetworks := []
  maxTracked := 256
  presenceProbe := false

def laptop : Neighbour where
  ip := .ofOctets 10 0 0 50
  mac := some "02:42:0a:00:00:32"
  reachable := true
  stale := false

/-- The daemon meets the laptop, and is started again. -/
def restart (script : List Moment) : List Event :=
  [.start false, .sample anyClient (fun _ => [laptop]) 0 (List.replicate 8 ran), .start false,
    .sample anyClient (fun _ => [laptop]) 0 script]

/-- The rules of a client are found again by the next run, and deleted when it is forgotten. -/
theorem rules_unique_restart : ∃ s,
    Run step initial (restart (List.replicate 5 ran)) s ∧ s.kernel.keys.length = 2 ∧ s.Unique ∧
      s.KnownIsTrue := by
  have hsome : (exec step initial (restart (List.replicate 5 ran))).isSome = true := by
    decide +kernel
  have hrun := run_get hsome
  refine ⟨_, hrun, Run.of_all (P := fun s => s.kernel.keys.length = 2) (by decide +kernel) hrun, ?_⟩
  exact rules_unique hrun (allSteps_of_check
    (c := fun _ _ t => t.notes.all fun n => !n.failed)
    (fun _ _ _ h => noticed_of_none_failed h) (by decide +kernel))

/-- Where neither listing can be read at the second start, the rules are added once more. -/
theorem rules_not_unique :
    ¬ ∀ (es : List Event) (s : Accounting), Run step initial es s → s.Unique ∧ s.KnownIsTrue := by
  intro hall
  let script := [ran, ran, refused, refused, ran, ran, ran, ran]
  have hsome : (exec step initial (restart script)).isSome = true := by decide +kernel
  have hrun := run_get hsome
  have htwice := Run.of_all (P := fun s => ¬ s.Unique) (by decide +kernel) hrun
  exact htwice (hall _ _ hrun).1

end Accounting

end Vlb.Clients
