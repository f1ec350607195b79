import Vlb.Balancer.Clients
import Vlb.Net.ClientRules

/-!
# Counting rules that can be reclaimed

The rules of a client go when the client is forgotten, and it is the live state that forgets. The
monitor has its own set of clients with rules, to which a daemon that is started adds whatever the
chain holds.

* `Sys`: the loop and its monitor, whose rounds run between the ticks of the loop.
* `sample_tracked`, `forget_monitor`: what a round and a forgetting do to the set.
* `Held`: every client with rules is live, or about to be forgotten.
* **`reclaimable_of_run`**: between two ticks every client with rules is live, in runs where the rules
  that are found at a start are of clients that are live, or listed by then.
-/

namespace Vlb.Reclaim

open Clients ClientsLoop Entries Interrupted Stats Time Transition

/-! ## The loop with its monitor -/

/-- The loop, with the monitor and the chain of the rules. -/
structure Sys where
  loop : ClientsLoop.Sys
  kernel : Kernel
  /-- The monitor of the process that runs. -/
  monitor : ClientMonitor

/-- Before the first start. -/
def initial : Sys := ⟨ClientsLoop.initial, ⟨none, false⟩, { dryRun := false }⟩

/-- What a round comes upon, and the moment after it. -/
structure Tick where
  params : SampleParams
  lan : Option String → List Neighbour
  instant : ℕ
  script : List Moment
  now : DateTime
  discovered : HashMap Ipv4Addr (Option String × Option String)

/-- What the monitor takes part in, and the rest. -/
inductive Event
  | start (dryRun : Bool) (cfg : ClientsConfig) (now : DateTime) (rosterRead sessionsRead : Bool)
  | tick (i : Tick)
  /-- The next step of the tick, which is a forgetting. -/
  | forget (script : List Moment)
  /-- What does not concern the monitor. -/
  | other (e : ClientsLoop.Event)

/-- The client that the next step of the tick forgets. -/
def nextForgotten (loop : ClientsLoop.Sys) : Option Ipv4Addr :=
  loop.process.bind fun p =>
    match p.work with
    | .forget ip :: _ => some ip
    | _ => none

/-- The round of a tick. -/
def Sys.sample (s : Sys) (i : Tick) :
    Option (Except String (List ClientObservation) × ClientMonitor) × World :=
  s.monitor.sample i.params i.lan i.instant ⟨s.kernel, i.script, []⟩

/-- The process has come to its end in the middle of something. -/
def Sys.stopped (s : Sys) (w : World) : Sys :=
  { s with loop := { s.loop with process := none }, kernel := w.kernel }

/-- Whether the loop waits for its next tick. -/
def betweenTicks (loop : ClientsLoop.Sys) : Bool :=
  loop.process.any fun p => p.looping && p.work.isEmpty

/-- A tick of the loop is a round of the monitor. -/
def step (s : Sys) : Event → Option Sys
  | .start dryRun cfg now rosterRead sessionsRead =>
    (ClientsLoop.step s.loop (.start cfg now rosterRead sessionsRead)).map fun loop =>
      { s with loop, monitor := { dryRun } }
  | .tick i =>
    if betweenTicks s.loop then
      match s.sample i with
      | (none, w) => some (s.stopped w)
      | (some (.error _, monitor), w) => some { s with kernel := w.kernel, monitor }
      | (some (.ok out, monitor), w) =>
        (ClientsLoop.step s.loop (.tick ⟨i.now, out, i.discovered⟩)).map fun loop =>
          ⟨loop, w.kernel, monitor⟩
    else none
  | .forget script =>
    (nextForgotten s.loop).bind fun ip =>
      match s.monitor.forget ip ⟨s.kernel, script, []⟩ with
      | (none, w) => some (s.stopped w)
      | (some monitor, w) =>
        (ClientsLoop.step s.loop (.proceed (fun _ => true) .epoch)).map fun loop =>
          ⟨loop, w.kernel, monitor⟩
  | .other e =>
    match e with
    | .start .. | .tick _ => none
    | .proceed ok clock =>
      if (nextForgotten s.loop).isSome then none
      else (ClientsLoop.step s.loop (.proceed ok clock)).map fun loop => { s with loop }
    | e => (ClientsLoop.step s.loop e).map fun loop => { s with loop }

/-- Between two ticks, every client that the monitor holds rules for is live. -/
def Reclaimable (s : Sys) : Prop :=
  ∀ p ∈ s.loop.process, p.work = [] → ∀ ip ∈ s.monitor.tracked, ip ∈ p.live

/-- The listing that a round finds at the start of the process shows rules of this client. -/
def Found (w : World) (ip : Ipv4Addr) : Prop := ∃ counters, .read true (some counters) ∈ w.notes ∧ ip ∈ counters

/-- The round reports this client. -/
def Reported (r : Except String (List ClientObservation)) (ip : Ipv4Addr) : Prop :=
  ∃ out, r = .ok out ∧ ip ∈ out.map ClientObservation.ip

/-- The rules that are found at a start are of clients that have been taken up again, or are
neighbours in this round, which does not fail. -/
def Accounted (s : Sys) (e : Event) (_ : Sys) : Prop :=
  match e with
  | .tick i => ∀ p ∈ s.loop.process, ∀ ip, Found (s.sample i).2 ip → ip ∈ p.live ∨
      (∃ out m, (s.sample i).1 = some (.ok out, m)) ∧
        ∃ n ∈ i.lan i.params.lanInterface, n.ip = ip ∧ i.params.accepts n.ip = true
  | _ => True

/-! ## What the monitor does -/

section Monitor

variable {m : ClientMonitor} {w : World} {params : SampleParams} {candidates : List Neighbour}
  {ip : Ipv4Addr}

theorem installNew_tracked (params : SampleParams) (candidates : List Neighbour) (installed : ℕ)
    (m : ClientMonitor) (w : World) :
    Ensures (m.installNew params candidates installed) w
      (fun m' _ => ∀ ip ∈ m'.tracked, ip ∈ m.tracked ∨ ip ∈ candidates.map Neighbour.ip)
      (fun _ => True) := by
  induction candidates generalizing installed m w with
  | nil => exact ensures_pure fun _ => Or.inl
  | cons n candidates ih =>
    have hlater : ∀ {ip : Ipv4Addr}, ip ∈ candidates.map Neighbour.ip →
        ip ∈ (n :: candidates).map Neighbour.ip := List.mem_cons_of_mem _
    unfold ClientMonitor.installNew
    split_ifs
    · exact (ih installed m w).mono (fun _ _ h ip hip => (h ip hip).imp id hlater) fun _ h => h
    · exact ensures_pure fun _ => Or.inl
    · exact ensures_pure fun _ => Or.inl
    · apply (ensures_true _ w).bind
      rintro (e | _) w₁ -
      · exact (ih installed m w₁).mono (fun _ _ h ip hip => (h ip hip).imp id hlater) fun _ h => h
      · apply (ih (installed + 1) { m with tracked := insert n.ip m.tracked } w₁).mono _ fun _ h => h
        intro m' w' h ip hip
        rcases h ip hip with hip | hip
        · rcases Finset.mem_insert.mp hip with rfl | hip
          · exact Or.inr List.mem_cons_self
          · exact Or.inl hip
        · exact Or.inr (hlater hip)

theorem observe_ips (counters : Reading) (candidates : List Neighbour) (m : ClientMonitor) :
    (m.observe counters candidates).1.map ClientObservation.ip = candidates.map Neighbour.ip := by
  induction candidates generalizing m with
  | nil => rfl
  | cons n candidates ih =>
    rw [ClientMonitor.observe, List.map_cons, List.map_cons, ih]

theorem tracked_of_startsUp {m₁ : ClientMonitor} {w₁ : World} (h : StartsUp m w m₁ w₁) :
    ∀ ip ∈ m₁.tracked, ip ∈ m.tracked ∨ Found w₁ ip := by
  cases h with
  | ready => exact fun _ => Or.inl
  | adopted counters _ _ hnotes =>
    intro ip hip
    cases counters with
    | none => exact absurd hip (Finset.notMem_empty ip)
    | some counters =>
      refine Or.inr ⟨counters, hnotes ▸ List.mem_cons_self, ?_⟩
      rw [Option.getD_some, List.mem_toFinset] at hip
      exact AList.mem_keys.mp hip

theorem Found.later {w w' : World} (h : Found w ip) (hnotes : w.notes ⊆ w'.notes) : Found w' ip :=
  h.imp fun _ hfound => ⟨hnotes hfound.1, hfound.2⟩

/-- **Whose rules a round leaves the monitor with**: of those it had, those it has found, and those it
reports. -/
theorem sample_tracked (params : SampleParams) (lan : Option String → List Neighbour) (now : ℕ)
    (hm : m.chainReady = true → m.countersKnown = true) (w : World) :
    Ensures (m.sample params lan now) w
      (fun r w' => ∀ ip ∈ r.2.tracked, ip ∈ m.tracked ∨ Found w' ip ∨ Reported r.1 ip)
      (fun _ => True) := by
  unfold ClientMonitor.sample
  split_ifs
  · exact ensures_pure fun _ => Or.inl
  · apply ((startUp_ensures m w).mono (fun _ _ h => h) fun _ _ => trivial).bind
    rintro (e | m₁) w₁ h₁
    · exact ensures_pure fun _ => Or.inl
    · have htracked := tracked_of_startsUp h₁
      apply ((readNeighbours_ensures lan params.lanInterface w₁).mono (fun _ _ h => h)
        fun _ _ => trivial).bind
      rintro (e | neighbours) w₂ ⟨h₂, hlan⟩
      · refine ensures_pure fun ip hip => (htracked ip hip).imp id fun hfound => Or.inl ?_
        exact hfound.later fun _ hn => h₂.notes ▸ hn
      · apply (((installNew_ensures params _ 0 (h₁.countersKnown hm) w₂).and
          (installNew_tracked params _ 0 m₁ w₂)).mono (fun _ _ h => h) fun _ _ => trivial).bind
        rintro m₂ w₃ ⟨⟨added, new, h₃⟩, hinstalled⟩
        apply ((readCounters_ensures false w₃).mono (fun _ _ h => h) fun _ _ => trivial).bind
        rintro _ w₄ ⟨-, counters, hnotes₄, rfl, -⟩
        apply ((nudge_ensures params _ now m₂ w₄).mono (fun _ _ h => h) fun _ _ => trivial).bind
        rintro _ w₅ ⟨h₅, probes, rfl⟩
        apply (note_ensures _ w₅).bind
        rintro _ _ rfl
        apply ensures_pure
        intro ip hip
        obtain ⟨prev, hmonitor⟩ := observe_monitor (counters.getD ∅)
          (neighbours.filter fun n => params.accepts n.ip) { m₂ with lastProbe := probes }
        dsimp only at hip
        rw [hmonitor] at hip
        rcases hinstalled ip hip with hip | hip
        · refine (htracked ip hip).imp id fun hfound => Or.inl (hfound.later fun n hn => ?_)
          show n ∈ _ :: w₅.notes
          rw [h₅.notes, hnotes₄, h₃.notes, h₂.notes]
          simp [hn]
        · refine Or.inr (Or.inr ⟨_, rfl, ?_⟩)
          rw [observe_ips]
          exact hip

theorem monitor_of_samples {lan : Option String → List Neighbour} {w' : World}
    {r : Except String (List ClientObservation) × ClientMonitor} (h : Samples params lan m w r w')
    (hm : m.chainReady = true → m.countersKnown = true) :
    r.2.dryRun = m.dryRun ∧ (r.2.chainReady = true → r.2.countersKnown = true) := by
  have hstart : ∀ {m₁ w₁}, StartsUp m w m₁ w₁ → m₁.dryRun = m.dryRun := by
    intro m₁ w₁ h
    cases h <;> rfl
  cases h with
  | dry => exact ⟨rfl, hm⟩
  | notReady => exact ⟨rfl, hm⟩
  | noNeighbours e h₁ => exact ⟨hstart h₁, fun _ => h₁.countersKnown hm⟩
  | @round m₁ m' w₁ _ out added new counters h₁ hround =>
    obtain ⟨m₂, w₂, hinstalls, probes, hobserve⟩ := hround.installs
    obtain ⟨prev, hprev⟩ := observe_monitor (counters.getD ∅)
      ((lan params.lanInterface).filter fun n => params.accepts n.ip) { m₂ with lastProbe := probes }
    have hmonitor : m' = { m₂ with lastProbe := probes, prev } := (congrArg Prod.snd hobserve).trans hprev
    have hdry := hstart h₁
    have hknown := h₁.countersKnown hm
    rw [hmonitor, hinstalls.monitor]
    exact ⟨hdry, fun _ => hknown⟩

/-- A round that comes to its end reports every neighbour that is accepted. -/
theorem reported_of_samples {lan : Option String → List Neighbour} {w' : World} {out : List ClientObservation}
    {m' : ClientMonitor} (h : Samples params lan m w (.ok out, m') w') (hdry : m.dryRun = false)
    {n : Neighbour} (hn : n ∈ lan params.lanInterface) (haccepts : params.accepts n.ip = true) :
    n.ip ∈ out.map ClientObservation.ip := by
  cases h with
  | dry h => exact Bool.noConfusion (hdry.symm.trans h)
  | @round m₁ _ w₁ _ _ added new counters h₁ hround =>
    obtain ⟨m₂, w₂, -, probes, hobserve⟩ := hround.installs
    rw [show out = _ from congrArg Prod.fst hobserve, observe_ips]
    exact List.mem_map_of_mem (List.mem_filter.mpr ⟨hn, haccepts⟩)

theorem sample_dry {lan : Option String → List Neighbour} {now : ℕ} (h : m.dryRun = true) :
    m.sample params lan now w = (some (.ok [], m), w) := by
  unfold ClientMonitor.sample
  rw [if_pos h]
  rfl

theorem forget_monitor (ip : Ipv4Addr) (m : ClientMonitor) (w : World) :
    Ensures (m.forget ip) w
      (fun m' _ => m'.dryRun = m.dryRun ∧ m'.chainReady = m.chainReady ∧
        m'.countersKnown = m.countersKnown ∧
          m'.tracked = if m.dryRun then m.tracked else m.tracked.erase ip)
      (fun _ => True) := by
  unfold ClientMonitor.forget
  split_ifs with hdry
  · exact ensures_pure ⟨rfl, rfl, rfl, rfl⟩
  · dsimp only
    by_cases hknown : ip ∈ m.tracked
    · simp only [hknown, decide_true, if_true]
      apply (ensures_true _ w).bind
      rintro _ w₁ -
      apply (ensures_true _ w₁).bind
      rintro _ w₂ -
      exact ensures_pure ⟨rfl, rfl, rfl, rfl⟩
    · simp only [hknown, decide_false, Bool.false_eq_true, if_false]
      exact ensures_pure ⟨rfl, rfl, rfl, rfl⟩

end Monitor

/-! ## What the loop does -/

section Loop

variable {live : Live} {i : Sampled} {ip : Ipv4Addr} {t : Timing} {now : DateTime} {f : Folding}

/-- Whoever was live, or is observed, is live after the observations are taken in. -/
theorem mem_takeIn (h : ip ∈ live ∨ ip ∈ i.observations.map ClientObservation.ip) :
    ip ∈ (takeIn i live).live := by
  unfold takeIn
  generalize hf : (⟨live, i.discovered, [], []⟩ : Folding) = f
  have h : ip ∈ f.live ∨ ip ∈ i.observations.map ClientObservation.ip := hf ▸ h
  clear hf
  generalize i.observations = observations at h ⊢
  induction observations generalizing f with
  | nil => exact h.resolve_right List.not_mem_nil
  | cons o observations ih =>
    obtain ⟨mac, hostname, label, hlookup⟩ := lookup_foldObservation i.now f o
    apply ih
    have hmem : ip ∈ (foldObservation i.now f o).live ↔ ip = o.ip ∨ ip ∈ f.live := by
      rw [← AList.lookup_isSome, hlookup, ← AList.lookup_isSome]
      split_ifs with hip <;> simp [hip]
    rw [hmem]
    rw [List.map_cons, List.mem_cons] at h
    tauto

theorem mem_remaining (h : ip ∈ f.live) (prune : List Op) :
    ip ∈ remaining t now f ∨ .forget ip ∈ writes t now f ++ prune := by
  by_cases hforgets : ip ∈ forgets now (passAll t now f.live)
  · refine Or.inr (List.mem_append_left _ ?_)
    exact List.mem_append_right _ (List.mem_map_of_mem hforgets)
  · left
    rw [← AList.lookup_isSome, remaining, lookup_foldl_erase, if_neg hforgets, passAll,
      lookup_mapValues, Option.isSome_map]
    exact AList.lookup_isSome.mpr h

/-- Every client with rules is live, or about to be forgotten. -/
def Held (tracked : Finset Ipv4Addr) (p : Process) : Prop :=
  ∀ ip ∈ tracked, ip ∈ p.live ∨ .forget ip ∈ p.work

/-- What a step that does not concern the monitor leaves: whoever is live, and whoever is about to
be forgotten. -/
structure Carries (p p' : Process) : Prop where
  live : ∀ ip ∈ p.live, ip ∈ p'.live
  work : ∀ ip, .forget ip ∈ p.work → .forget ip ∈ p'.work

theorem Carries.held {tracked : Finset Ipv4Addr} {p p' : Process} (h : Carries p p')
    (hheld : Held tracked p) : Held tracked p' :=
  fun ip hip => (hheld ip hip).imp (h.live ip) (h.work ip)

theorem carries_perform {s : ClientsLoop.Sys} {p p' : Process} {op : Op} {work : List Op} {ok : Succeeds}
    {clock : DateTime} (hwork : p.work = op :: work) (hop : ∀ ip, op ≠ .forget ip)
    (hp' : (perform s p work ok clock op).process = some p') : Carries p p' := by
  have hrest : ∀ ip, .forget ip ∈ p.work → .forget ip ∈ work := by
    intro ip hin
    rw [hwork] at hin
    exact (List.mem_cons.mp hin).resolve_left fun h => hop ip h.symm
  cases op with
  | upsert | closeSession | flush =>
    cases hp'
    exact ⟨fun _ h => h, hrest⟩
  | forget ip => exact absurd rfl (hop ip)
  | openSession ip startedAt =>
    unfold perform at hp'
    cases hok : ok 0 with
    | true =>
      rw [hok] at hp'
      cases hp'
      exact ⟨fun _ h => h, fun ip h => List.mem_cons_of_mem _ (hrest ip h)⟩
    | false =>
      rw [hok] at hp'
      cases hp'
      exact ⟨fun _ h => h, hrest⟩
  | enterSession ip id =>
    cases hp'
    refine ⟨fun ip' hin => ?_, hrest⟩
    dsimp only
    cases p.live.lookup ip with
    | none => exact hin
    | some c => exact (AList.mem_insert _).mpr (Or.inr hin)
  | prune =>
    unfold perform at hp'
    cases hcut : pruneCutoff p.timing.retentionHours clock with
    | none =>
      rw [hcut] at hp'
      cases hp'
    | some cutoff =>
      rw [hcut] at hp'
      cases hp'
      exact ⟨fun _ h => h, hrest⟩

theorem mem_emptied {now : DateTime} (h : ip ∈ live) : ip ∈ emptied now live := by
  rw [← AList.lookup_isSome, emptied, lookup_mapValues, Option.isSome_map]
  exact AList.lookup_isSome.mpr h

/-- The events of the loop that go with no action of the monitor. -/
def Apart (loop : ClientsLoop.Sys) : ClientsLoop.Event → Prop
  | .start .. | .tick _ => False
  | .proceed .. => nextForgotten loop = none
  | _ => True

theorem carries_of_apart {loop loop' : ClientsLoop.Sys} {e : ClientsLoop.Event} (hapart : Apart loop e)
    (hstep : ClientsLoop.step loop e = some loop') {p' : Process} (hp' : loop'.process = some p') :
    ∃ p, loop.process = some p ∧ Carries p p' := by
  rcases step_cases hstep with ⟨cfg, t, now, rosterRead, sessionsRead, -, -, rfl, -⟩ | ⟨p, hp, hmove⟩
  · exact hapart.elim
  · refine ⟨p, hp, ?_⟩
    cases hmove with
    | stop => cases hp'
    | tick => exact hapart.elim
    | @proceed op work ok clock _ hwork =>
      refine carries_perform hwork (fun ip h => ?_) hp'
      have hnext : nextForgotten loop = some ip := by
        rw [nextForgotten, hp, Option.bind_some, hwork, h]
      rw [show nextForgotten loop = none from hapart] at hnext
      cases hnext
    | take =>
      cases hp'
      exact ⟨fun _ => mem_emptied, fun _ h => h⟩
    | signal | hand | abort | cancel | leave =>
      cases hp'
      exact ⟨fun _ h => h, fun _ h => h⟩

end Loop

/-! ## The runs -/

/-- What holds of the monitor and the loop. -/
structure Sound (s : Sys) : Prop where
  known : s.monitor.chainReady = true → s.monitor.countersKnown = true
  dry : s.monitor.dryRun = true → s.monitor.tracked = ∅
  held : ∀ p ∈ s.loop.process, Held s.monitor.tracked p

section Runs

variable {s t : Sys} {e : Event} {es : List Event}

theorem Sound.stopped (h : Sound s) (w : World) : Sound (s.stopped w) :=
  ⟨h.known, h.dry, fun _ hp => by cases hp⟩

theorem Sound.reclaimable (h : Sound s) : Reclaimable s := by
  intro p hp hwork ip hip
  rcases h.held p hp ip hip with hlive | hforget
  · exact hlive
  · rw [hwork] at hforget
    exact absurd hforget List.not_mem_nil

theorem sound_initial : Sound initial :=
  ⟨fun h => Bool.noConfusion h, fun _ => rfl, fun _ hp => by cases hp⟩

section Round

variable {i : Tick} {r : Except String (List ClientObservation)} {m' : ClientMonitor} {w' : World}
  {p : Process}

theorem Sound.tracked (h : Sound s) (haccounted : Accounted s (.tick i) t)
    (hround : s.sample i = (some (r, m'), w')) (hp : s.loop.process = some p) (hwork : p.work = []) :
    ∀ ip ∈ m'.tracked, ip ∈ p.live ∨ Reported r ip := by
  intro ip hip
  cases hdry : s.monitor.dryRun with
  | true =>
    rw [Sys.sample, sample_dry hdry] at hround
    cases hround
    rw [h.dry hdry] at hip
    exact absurd hip (Finset.notMem_empty ip)
  | false =>
    have hsamples := (sample_ensures i.params i.lan i.instant h.known _).of_eq hround
    have htracked := (sample_tracked i.params i.lan i.instant h.known _).of_eq hround
    rcases htracked ip hip with hip | hfound | hreported
    · left
      apply (h.held p hp ip hip).resolve_right
      rw [hwork]
      exact List.not_mem_nil
    · have hfound : Found (s.sample i).2 ip := by rw [hround]; exact hfound
      rcases haccounted p hp ip hfound with hlive | ⟨⟨out, m, hok⟩, n, hn, rfl, haccepts⟩
      · exact Or.inl hlive
      · rw [hround] at hok
        cases hok
        exact Or.inr ⟨out, rfl, reported_of_samples hsamples hdry hn haccepts⟩
    · exact Or.inr hreported

theorem Sound.monitor (h : Sound s) (hround : s.sample i = (some (r, m'), w')) :
    (m'.chainReady = true → m'.countersKnown = true) ∧ (m'.dryRun = true → m'.tracked = ∅) := by
  have hsamples := (sample_ensures i.params i.lan i.instant h.known _).of_eq hround
  obtain ⟨hsame, hknown⟩ := monitor_of_samples hsamples h.known
  refine ⟨hknown, fun hdry => ?_⟩
  have hdry : s.monitor.dryRun = true := hsame.symm.trans hdry
  rw [Sys.sample, sample_dry hdry] at hround
  cases hround
  exact h.dry hdry

end Round

/-- **A tick.** -/
theorem Sound.tick (h : Sound s) {i : Tick} (hstep : step s (.tick i) = some t)
    (haccounted : Accounted s (.tick i) t) : Sound t := by
  simp only [step, Option.ite_none_right_eq_some] at hstep
  obtain ⟨hbetween, hstep⟩ := hstep
  rcases hround : s.sample i with ⟨_ | ⟨_ | out, m'⟩, w'⟩
  · rw [hround] at hstep
    cases hstep
    exact h.stopped w'
  · rw [hround] at hstep
    cases hstep
    obtain ⟨hknown, hdry⟩ := h.monitor hround
    refine ⟨hknown, hdry, fun p hp ip hip => ?_⟩
    have hwork : p.work = [] := by
      rw [betweenTicks, Option.mem_def.mp hp, Option.any_some, Bool.and_eq_true] at hbetween
      exact List.isEmpty_iff.mp hbetween.2
    rcases h.tracked haccounted hround hp hwork ip hip with hlive | ⟨out, hout, -⟩
    · exact Or.inl hlive
    · cases hout
  · rw [hround] at hstep
    obtain ⟨loop, hloop, rfl⟩ := Option.map_eq_some_iff.mp hstep
    obtain ⟨hknown, hdry⟩ := h.monitor hround
    refine ⟨hknown, hdry, fun p' hp' ip hip => ?_⟩
    rcases step_cases hloop with ⟨cfg, ti, now, rosterRead, sessionsRead, -, -, he, -⟩ | ⟨p, hp, hmove⟩
    · cases he
    · cases hmove with
      | tick _ hwork =>
        cases hp'
        apply mem_remaining
        apply mem_takeIn
        rcases h.tracked haccounted hround hp hwork ip hip with hlive | ⟨out', hout, hin⟩
        · exact Or.inl hlive
        · cases hout
          exact Or.inr hin

/-- **A forgetting.** -/
theorem Sound.forget (h : Sound s) {script : List Moment} (hstep : step s (.forget script) = some t) :
    Sound t := by
  simp only [step, Option.bind_eq_some_iff] at hstep
  obtain ⟨ip, hnext, hstep⟩ := hstep
  rcases hforget : s.monitor.forget ip ⟨s.kernel, script, []⟩ with ⟨_ | m', w'⟩
  · rw [hforget] at hstep
    cases hstep
    exact h.stopped w'
  · rw [hforget] at hstep
    obtain ⟨loop, hloop, rfl⟩ := Option.map_eq_some_iff.mp hstep
    obtain ⟨hdry, hready, hknown, htracked⟩ := (forget_monitor ip s.monitor _).of_eq hforget
    refine ⟨fun hr => ?_, fun hd => ?_, fun p' hp' other hin => ?_⟩
    · exact hknown.trans (h.known (hready ▸ hr))
    · have hd : s.monitor.dryRun = true := hdry.symm.trans hd
      rw [htracked, if_pos hd]
      exact h.dry hd
    · rcases step_cases hloop with ⟨cfg, ti, now, rosterRead, sessionsRead, -, -, he, -⟩ | ⟨p, hp, hmove⟩
      · cases he
      · cases hmove with
        | @proceed op work _ _ _ hwork =>
          rw [nextForgotten, hp, Option.bind_some, hwork] at hnext
          have hop : op = .forget ip := by
            cases op <;> cases hnext
            rfl
          subst hop
          cases hp'
          have hmem : other ∈ s.monitor.tracked ∧ other ≠ ip := by
            dsimp only at hin
            rw [htracked] at hin
            split_ifs at hin with hd
            · rw [h.dry hd] at hin
              exact absurd hin (Finset.notMem_empty _)
            · exact ⟨Finset.mem_of_mem_erase hin, Finset.ne_of_mem_erase hin⟩
          refine (h.held p hp other hmem.1).imp id fun hforget => ?_
          rw [hwork] at hforget
          rcases List.mem_cons.mp hforget with heq | hrest
          · exact absurd (Op.forget.inj heq) hmem.2
          · exact hrest

theorem Sound.other (h : Sound s) {loop : ClientsLoop.Sys} {e : ClientsLoop.Event}
    (hstep : ClientsLoop.step s.loop e = some loop) (hapart : Apart s.loop e) : Sound { s with loop } := by
  refine ⟨h.known, h.dry, fun p' hp' => ?_⟩
  obtain ⟨p, hp, hcarries⟩ := carries_of_apart hapart hstep hp'
  exact hcarries.held (h.held p hp)

theorem Sound.step (h : Sound s) (hstep : step s e = some t) (haccounted : Accounted s e t) :
    Sound t := by
  cases e with
  | start dryRun cfg now rosterRead sessionsRead =>
    obtain ⟨loop, -, rfl⟩ := Option.map_eq_some_iff.mp hstep
    exact ⟨fun hready => Bool.noConfusion hready, fun _ => rfl,
      fun _ _ ip hip => absurd hip (Finset.notMem_empty ip)⟩
  | tick i => exact h.tick hstep haccounted
  | forget script => exact h.forget hstep
  | other e =>
    cases e with
    | start | tick => cases hstep
    | proceed ok clock =>
      simp only [Reclaim.step, Option.ite_none_left_eq_some] at hstep
      obtain ⟨hnext, hstep⟩ := hstep
      obtain ⟨loop, hloop, rfl⟩ := Option.map_eq_some_iff.mp hstep
      exact h.other hloop (Option.not_isSome_iff_eq_none.mp hnext)
    | stop | signal | take | hand | abort | cancel | leave =>
      obtain ⟨loop, hloop, rfl⟩ := Option.map_eq_some_iff.mp hstep
      exact h.other hloop trivial

end Runs

/-- **Accounting rules stay reclaimable.** In runs where the rules that are found at a start are of
clients that are taken up again, or listed in the first round, which does not fail. -/
theorem reclaimable_of_run {es : List Event} {s : Sys} (hrun : Run step initial es s)
    (haccounted : AllSteps step Accounted initial es) : Reclaimable s :=
  (hrun.invariant (fun _ _ _ h hstep hC => Sound.step h hstep hC) haccounted sound_initial).reclaimable

/-! ## A restart -/

/-- A round that finds these neighbours. -/
def roundAt (secs : ℕ) (neighbours : List Neighbour) : Event :=
  .tick {
    params := Accounting.anyClient
    lan := fun _ => neighbours
    instant := 0
    script := List.replicate 8 Accounting.ran
    now := moment secs
    discovered := ∅ }

/-- The daemon meets the laptop. -/
def meeting : List Event :=
  [.start false .default (moment 0) true true, roundAt 5 [Accounting.laptop], .other proceeds,
    .other proceeds, .other proceeds]

/-- Is this a step of the condition? -/
def accounts (s : Sys) (e : Event) (_ : Sys) : Bool :=
  match e with
  | .tick i => s.loop.process.all fun p => (s.sample i).2.notes.all fun n =>
      match n with
      | .read true (some counters) => counters.keys.all fun ip => (p.live.lookup ip).isSome
      | _ => true
  | _ => true

theorem accounted_of_accounts {s t : Sys} {e : Event} (h : accounts s e t = true) : Accounted s e t := by
  cases e with
  | tick i =>
    rintro p hp ip ⟨counters, hread, hin⟩
    simp only [accounts, Option.mem_def.mp hp, Option.all_some, List.all_eq_true] at h
    have hlive := List.all_eq_true.mp (h _ hread) ip (AList.mem_keys.mpr hin)
    exact Or.inl (AList.lookup_isSome.mp hlive)
  | _ => trivial

/-- The laptop is there when the daemon is started again. -/
def staying : List Event :=
  meeting ++ [.other .stop, .start false .default (moment 300) true true,
    roundAt 305 [Accounting.laptop]]

theorem staying_accounted : AllSteps step Accounted initial staying :=
  allSteps_of_check (c := accounts) (fun _ _ _ => accounted_of_accounts) (by decide +kernel)

theorem reclaimable_restart : ∃ s,
    Run step initial staying s ∧ s.monitor.tracked = {Accounting.laptop.ip} ∧ Reclaimable s := by
  have hsome : (exec step initial staying).isSome = true := by decide +kernel
  obtain ⟨s, hrun⟩ : ∃ s, Run step initial staying s := ⟨_, run_get hsome⟩
  have htracked := Run.of_all (P := fun s => s.monitor.tracked = {Accounting.laptop.ip})
    (by decide +kernel) hrun
  exact ⟨s, hrun, htracked, reclaimable_of_run hrun staying_accounted⟩

/-- The laptop has gone, and its session is closed, before the daemon is started again. -/
def goneBefore : List Event :=
  meeting ++ [roundAt 200 [], .other proceeds, .other .stop,
    .start false .default (moment 300) true true, roundAt 305 []]

/-- Its rules are found in the chain, but nothing will ever forget it. -/
theorem not_reclaimable_goneBefore :
    ¬ ∀ (es : List Event) (s : Sys), Run step initial es s → Reclaimable s := by
  intro hall
  have hsome : (exec step initial goneBefore).isSome = true := by decide +kernel
  obtain ⟨s, hrun⟩ : ∃ s, Run step initial goneBefore s := ⟨_, run_get hsome⟩
  have htracked := Run.of_all (P := fun s => Accounting.laptop.ip ∈ s.monitor.tracked)
    (by decide +kernel) hrun
  have hprocess := Run.of_all (P := fun s => s.loop.process.map (fun p => (p.work, p.live.keys)) =
    some ([], [])) (by decide +kernel) hrun
  obtain ⟨p, hp, hvalues⟩ := Option.map_eq_some_iff.mp hprocess
  rw [Prod.mk.injEq] at hvalues
  have hlive := hall _ _ hrun p hp hvalues.1 _ htracked
  rw [AList.mem_keys, hvalues.2] at hlive
  exact absurd hlive List.not_mem_nil

end Vlb.Reclaim
