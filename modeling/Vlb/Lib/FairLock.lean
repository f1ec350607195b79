import Mathlib.Data.Fintype.Basic
import Mathlib.Data.List.Nodup
import Mathlib.Logic.Function.Basic
import Mathlib.Logic.Relation
import Mathlib.Tactic.Common
import Vlb.Lib.Transition

/-!
# Fair read-write locks

Tasks `T` run programs of lock operations on read-write locks `L`. A lock is fair: a request that
cannot be granted at once joins the end of the lock's queue, a request that finds somebody queued
joins behind them, and a release hands the lock to the front of the queue for as long as the front
is admitted.

* `State`, `step`: a task runs one of the programs it may run (`rounds`), then the next.
* `owed`: the locks a program releases without having acquired them; `WellFormed R`: a program
  that acquires each lock once, and asks for `l` only while it holds locks `l'` with `R l' l`.
* `Inv`: on reachable states the locks a task holds are those its remaining program owes.
* `WaitsFor`, `Deadlocked`: the wait-for graph and its cycles.
* **`Deadlocked.inversion`**: whatever the order put on the locks, some task of a deadlock asks
  for a lock against it. **`Deadlocked.of_inversion`**: two opposite requests are a deadlock.
* `Opposed`, `Crosses`, **`allSteps_not_crosses_iff`**: two locks taken in both orders, and the
  moves by which that goes wrong.
-/

namespace FairLock

/-- How a lock is taken. -/
inductive Mode
  | read
  | write
  deriving DecidableEq

/-- One operation of a program. -/
inductive Op (L : Type*)
  | acquire (l : L) (m : Mode)
  | release (l : L)
  deriving DecidableEq

/-- A lock: who holds it, and who is queued for it, the oldest request first. -/
structure Lock (T : Type*) where
  holders : List (T × Mode)
  queue : List (T × Mode)

/-- The locks, and what each task still has to do. A queued task keeps its request at the head
of its program until it is granted. -/
structure State (T L : Type*) where
  lock : L → Lock T
  prog : T → List (Op L)

/-- A move of the system: an idle task begins a program, or a task runs its next operation. -/
inductive Move (T L : Type*)
  | start (t : T) (ops : List (Op L))
  | run (t : T)

variable {T L : Type*} [DecidableEq T] [DecidableEq L]

/-- Whether a request can be added to these holders. -/
def admits (holders : List (T × Mode)) : Mode → Bool
  | .read => holders.all fun h => h.2 == .read
  | .write => holders.isEmpty

/-- Hand the lock to the front of its queue, if the holders admit it. -/
def grantHead (s : State T L) (l : L) : State T L :=
  match (s.lock l).queue with
  | [] => s
  | (u, m) :: q =>
    if admits (s.lock l).holders m then
      { lock := Function.update s.lock l ⟨(u, m) :: (s.lock l).holders, q⟩
        prog := Function.update s.prog u (s.prog u).tail }
    else s

/-- Hand the lock on at most `n` times. -/
def settle (l : L) : ℕ → State T L → State T L
  | 0, s => s
  | n + 1, s => settle l n (grantHead s l)

/-- Give the lock back. -/
def giveBack (s : State T L) (t : T) (l : L) (rest : List (Op L)) : State T L :=
  { lock := Function.update s.lock l
      ⟨(s.lock l).holders.filter fun h => h.1 ≠ t, (s.lock l).queue⟩
    prog := Function.update s.prog t rest }

/-- Take a lock that is free for the request. -/
def take (s : State T L) (t : T) (l : L) (m : Mode) (rest : List (Op L)) : State T L :=
  { lock := Function.update s.lock l ⟨(t, m) :: (s.lock l).holders, (s.lock l).queue⟩
    prog := Function.update s.prog t rest }

/-- Join the end of a lock's queue. -/
def enqueue (s : State T L) (t : T) (l : L) (m : Mode) : State T L :=
  { lock := Function.update s.lock l ⟨(s.lock l).holders, (s.lock l).queue ++ [(t, m)]⟩
    prog := s.prog }

/-- A request is granted at once when nobody is queued and the holders admit it. -/
def grantable (s : State T L) (l : L) (m : Mode) : Bool :=
  (s.lock l).queue.isEmpty && admits (s.lock l).holders m

variable (rounds : T → List (List (Op L)))

/-- One move. A queued task cannot run. -/
def step (s : State T L) : Move T L → Option (State T L)
  | .start t ops =>
    if s.prog t = [] ∧ ops ∈ rounds t then
      some { s with prog := Function.update s.prog t ops }
    else none
  | .run t =>
    match s.prog t with
    | [] => none
    | .acquire l m :: rest =>
      if t ∈ (s.lock l).queue.map Prod.fst then none
      else if grantable s l m then some (take s t l m rest)
      else some (enqueue s t l m)
    | .release l :: rest =>
      some (settle l (s.lock l).queue.length (giveBack s t l rest))

variable (T L) in
/-- Every lock is free and every task idle. -/
def init : State T L := ⟨fun _ => ⟨[], []⟩, fun _ => []⟩

/-- Task `t` holds lock `l`. -/
def Holds (s : State T L) (t : T) (l : L) : Prop := ∃ m, (t, m) ∈ (s.lock l).holders

/-- Task `t` is queued for lock `l`. -/
def Waits (s : State T L) (t : T) (l : L) : Prop := ∃ m, (t, m) ∈ (s.lock l).queue

/-- `t` waits for a lock that `u` holds or is queued for before `t`. -/
def WaitsFor (s : State T L) (t u : T) : Prop :=
  ∃ l pre m post, (s.lock l).queue = pre ++ (t, m) :: post ∧
    (Holds s u l ∨ ∃ m', (u, m') ∈ pre)

/-- A cycle of tasks, each waiting for the next. -/
def Deadlocked (s : State T L) : Prop := ∃ t, Relation.TransGen (WaitsFor s) t t

/-! ## Programs -/

/-- Whether the program releases `l` without acquiring it first: whoever still has to run it
holds `l`. -/
def owed (l : L) : List (Op L) → Bool
  | [] => false
  | .acquire l' _ :: p => decide (l ≠ l') && owed l p
  | .release l' :: p => decide (l = l') || owed l p

/-- Every acquired lock is released before it is acquired again, and a lock `l` is asked for only
while locks `l'` with `R l' l` are held. -/
def WellFormed (R : L → L → Prop) : List (Op L) → Prop
  | [] => True
  | .acquire l _ :: p => owed l p = true ∧ (∀ l', owed l' p = true → l' ≠ l → R l' l) ∧
      WellFormed R p
  | .release l :: p => owed l p = false ∧ WellFormed R p

/-- A program that begins and ends without a lock. -/
def Balanced (R : L → L → Prop) (p : List (Op L)) : Prop :=
  (∀ l, owed l p = false) ∧ WellFormed R p

instance decidableWellFormed [Fintype L] (R : L → L → Prop) [DecidableRel R] :
    ∀ p : List (Op L), Decidable (WellFormed R p)
  | [] => isTrue trivial
  | .acquire l _ :: p =>
    letI := decidableWellFormed R p
    inferInstanceAs (Decidable (owed l p = true ∧ (∀ l', owed l' p = true → l' ≠ l → R l' l) ∧
      WellFormed R p))
  | .release l :: p =>
    letI := decidableWellFormed R p
    inferInstanceAs (Decidable (owed l p = false ∧ WellFormed R p))

instance [Fintype L] (R : L → L → Prop) [DecidableRel R] (p : List (Op L)) :
    Decidable (Balanced R p) :=
  inferInstanceAs (Decidable (_ ∧ _))

/-! ## The invariant -/

/-- The locks a task holds are those its program owes, and a queued task is at its request. -/
structure Inv (R : L → L → Prop) (s : State T L) : Prop where
  holds_iff : ∀ t l, Holds s t l ↔ owed l (s.prog t) = true
  queued : ∀ t l m, (t, m) ∈ (s.lock l).queue → ∃ rest, s.prog t = .acquire l m :: rest
  nodup : ∀ l, ((s.lock l).queue.map Prod.fst).Nodup
  wellFormed : ∀ t, WellFormed R (s.prog t)

omit [DecidableEq T] in
theorem inv_init (R : L → L → Prop) : Inv R (init T L) where
  holds_iff t l := by simp [Holds, init, owed]
  queued t l m h := by simp [init] at h
  nodup l := by simp [init]
  wellFormed t := trivial

variable {R : L → L → Prop} {s : State T L}

omit [DecidableEq T] in
theorem Inv.queued_unique (h : Inv R s) {t : T} {l l' : L} {m m' : Mode}
    (hl : (t, m) ∈ (s.lock l).queue) (hl' : (t, m') ∈ (s.lock l').queue) : l = l' ∧ m = m' := by
  obtain ⟨r, hr⟩ := h.queued t l m hl
  obtain ⟨r', hr'⟩ := h.queued t l' m' hl'
  rw [hr] at hr'
  cases hr'
  exact ⟨rfl, rfl⟩

omit [DecidableEq T] in
theorem Inv.rel_of_waits (h : Inv R s) {t : T} {l l' : L} (hw : Waits s t l)
    (hh : Holds s t l') : R l' l := by
  obtain ⟨m, hm⟩ := hw
  obtain ⟨rest, hrest⟩ := h.queued t l m hm
  have howed := (h.holds_iff t l').mp hh
  have hwf := h.wellFormed t
  rw [hrest] at howed hwf
  simp only [owed, Bool.and_eq_true, decide_eq_true_eq] at howed
  exact hwf.2.1 l' howed.2 howed.1

theorem Inv.start (h : Inv R s) {t : T} {ops : List (Op L)} (hidle : s.prog t = [])
    (hops : Balanced R ops) :
    Inv R { s with prog := Function.update s.prog t ops } where
  holds_iff u l := by
    by_cases hu : u = t
    · subst hu
      have := h.holds_iff u l
      rw [hidle] at this
      simpa [Holds, hops.1 l, owed] using this
    · simpa [Holds, hu] using h.holds_iff u l
  queued u l m hm := by
    have hu : u ≠ t := by
      rintro rfl
      obtain ⟨rest, hrest⟩ := h.queued u l m hm
      rw [hidle] at hrest
      cases hrest
    simpa [hu] using h.queued u l m hm
  nodup := h.nodup
  wellFormed u := by
    by_cases hu : u = t
    · subst hu; simpa using hops.2
    · simpa [hu] using h.wellFormed u

/-- A task gets the lock it asks for; the queue may lose entries, and loses the task's own. -/
theorem Inv.acquire (h : Inv R s) {u : T} {l : L} {m : Mode} {rest : List (Op L)}
    (hprog : s.prog u = .acquire l m :: rest) {q : List (T × Mode)}
    (hq : q.Sublist (s.lock l).queue) (hu : ∀ m', (u, m') ∉ q) :
    Inv R { lock := Function.update s.lock l ⟨(u, m) :: (s.lock l).holders, q⟩
            prog := Function.update s.prog u rest } where
  holds_iff t l' := by
    have hwf := h.wellFormed u
    have hold := h.holds_iff t l'
    rw [hprog] at hwf
    by_cases ht : t = u
    · subst ht
      rw [hprog] at hold
      by_cases hl : l' = l
      · subst hl; simpa [Holds] using hwf.1
      · simpa [Holds, hl, owed] using hold
    · by_cases hl : l' = l
      · subst hl; simpa [Holds, ht] using hold
      · simpa [Holds, ht, hl] using hold
  queued t l' m' hm := by
    by_cases hl : l' = l
    · subst hl
      simp only [Function.update_self] at hm
      have ht : t ≠ u := fun e => hu m' (e ▸ hm)
      simpa [ht] using h.queued t l' m' (hq.subset hm)
    · simp only [Function.update_of_ne hl] at hm
      obtain ⟨r, hr⟩ := h.queued t l' m' hm
      have ht : t ≠ u := by
        rintro rfl
        rw [hprog] at hr
        cases hr
        exact hl rfl
      exact ⟨r, by simpa [ht] using hr⟩
  nodup l' := by
    by_cases hl : l' = l
    · subst hl; simpa using (h.nodup l').sublist (hq.map _)
    · simpa [hl] using h.nodup l'
  wellFormed t := by
    by_cases ht : t = u
    · subst ht
      have hwf := h.wellFormed t
      rw [hprog] at hwf
      simpa using hwf.2.2
    · simpa [ht] using h.wellFormed t

omit [DecidableEq T] in
theorem Inv.of_enqueue (h : Inv R s) {t : T} {l : L} {m : Mode} {rest : List (Op L)}
    (hprog : s.prog t = .acquire l m :: rest) (ht : t ∉ (s.lock l).queue.map Prod.fst) :
    Inv R (enqueue s t l m) where
  holds_iff u l' := by
    have := h.holds_iff u l'
    by_cases hl : l' = l
    · subst hl; simpa [Holds, enqueue] using this
    · simpa [Holds, enqueue, hl] using this
  queued u l' m' hm := by
    by_cases hl : l' = l
    · subst hl
      simp only [enqueue, Function.update_self, List.mem_append, List.mem_singleton,
        Prod.mk.injEq] at hm
      rcases hm with hm | ⟨rfl, rfl⟩
      · exact h.queued u l' m' hm
      · exact ⟨rest, hprog⟩
    · simp only [enqueue, Function.update_of_ne hl] at hm
      exact h.queued u l' m' hm
  nodup l' := by
    by_cases hl : l' = l
    · subst hl
      simp only [enqueue, Function.update_self, List.map_append, List.map_cons,
        List.map_nil]
      exact List.nodup_append.mpr ⟨h.nodup l', by simp, fun a ha b hb => by
        rintro rfl; rw [List.mem_singleton.mp hb] at ha; exact ht ha⟩
    · simpa [enqueue, hl] using h.nodup l'
  wellFormed := h.wellFormed

theorem Inv.of_giveBack (h : Inv R s) {t : T} {l : L} {rest : List (Op L)}
    (hprog : s.prog t = .release l :: rest) : Inv R (giveBack s t l rest) where
  holds_iff u l' := by
    have hwf := h.wellFormed t
    have hold := h.holds_iff u l'
    rw [hprog] at hwf
    by_cases hu : u = t
    · subst hu
      rw [hprog] at hold
      by_cases hl : l' = l
      · subst hl; simp [Holds, giveBack, hwf.1]
      · simpa [Holds, giveBack, hl, owed] using hold
    · by_cases hl : l' = l
      · subst hl; simpa [Holds, giveBack, hu] using hold
      · simpa [Holds, giveBack, hu, hl] using hold
  queued u l' m hm := by
    have hm' : (u, m) ∈ (s.lock l').queue := by
      by_cases hl : l' = l
      · subst hl; simpa [giveBack] using hm
      · simpa [giveBack, hl] using hm
    obtain ⟨r, hr⟩ := h.queued u l' m hm'
    have hu : u ≠ t := by
      rintro rfl
      rw [hprog] at hr
      cases hr
    exact ⟨r, by simpa [giveBack, hu] using hr⟩
  nodup l' := by
    by_cases hl : l' = l
    · subst hl; simpa [giveBack] using h.nodup l'
    · simpa [giveBack, hl] using h.nodup l'
  wellFormed u := by
    by_cases hu : u = t
    · subst hu
      have hwf := h.wellFormed u
      rw [hprog] at hwf
      simpa [giveBack] using hwf.2
    · simpa [giveBack, hu] using h.wellFormed u

theorem Inv.of_grantHead (h : Inv R s) (l : L) : Inv R (grantHead s l) := by
  unfold grantHead
  cases hq : (s.lock l).queue with
  | nil => exact h
  | cons front q =>
    obtain ⟨u, m⟩ := front
    dsimp only
    split_ifs with hadm
    · obtain ⟨rest, hrest⟩ := h.queued u l m (by rw [hq]; exact List.mem_cons_self)
      have hnodup := h.nodup l
      rw [hq, List.map_cons, List.nodup_cons] at hnodup
      rw [hrest]
      refine h.acquire hrest (by rw [hq]; exact List.sublist_cons_self _ _) fun m' hm => ?_
      exact hnodup.1 (List.mem_map.mpr ⟨_, hm, rfl⟩)
    · exact h

theorem Inv.of_settle (l : L) : ∀ (n : ℕ) {s : State T L}, Inv R s → Inv R (settle l n s)
  | 0, _, h => h
  | n + 1, _, h => Inv.of_settle l n (h.of_grantHead l)

variable {rounds : T → List (List (Op L))}

/-- **Every move keeps the invariant.** -/
theorem Inv.of_step (hrounds : ∀ t, ∀ ops ∈ rounds t, Balanced R ops) {s' : State T L}
    {mv : Move T L} (h : Inv R s) (hstep : step rounds s mv = some s') : Inv R s' := by
  cases mv with
  | start t ops =>
    simp only [step] at hstep
    split_ifs at hstep with hc
    cases hstep
    exact h.start hc.1 (hrounds t ops hc.2)
  | run t =>
    cases hprog : s.prog t with
    | nil => simp [step, hprog] at hstep
    | cons op rest =>
      cases op with
      | acquire l m =>
        simp only [step, hprog] at hstep
        split_ifs at hstep with hq hg
        · cases hstep
          exact h.acquire hprog (List.Sublist.refl _) fun m' hm =>
            hq (List.mem_map.mpr ⟨_, hm, rfl⟩)
        · cases hstep
          exact h.of_enqueue hprog hq
      | release l =>
        simp only [step, hprog] at hstep
        cases hstep
        exact (h.of_giveBack hprog).of_settle l _

/-! ## Who starts waiting -/

/-- The next operation of `t` asks for `l`, and is not granted at once. -/
def Refused (s : State T L) (t : T) (l : L) : Prop :=
  ∃ m rest, s.prog t = .acquire l m :: rest ∧ t ∉ (s.lock l).queue.map Prod.fst ∧
    grantable s l m = false

/-- **A refused request queues its task**, and changes nothing else. -/
theorem Refused.step_eq (rounds : T → List (List (Op L))) {t : T} {l : L} (h : Refused s t l) :
    ∃ m, step rounds s (.run t) = some (enqueue s t l m) := by
  obtain ⟨m, rest, hprog, hq, hg⟩ := h
  exact ⟨m, by simp [step, hprog, hq, hg]⟩

omit [DecidableEq T] in
theorem waits_enqueue {t u : T} {l l' : L} {m : Mode} :
    Waits (enqueue s t l m) u l' ↔ Waits s u l' ∨ (u = t ∧ l' = l) := by
  by_cases hl : l' = l
  · subst hl; simp [Waits, enqueue, exists_or]
  · simp [Waits, enqueue, hl]

omit [DecidableEq T] in
theorem holds_enqueue {t u : T} {l l' : L} {m : Mode} :
    Holds (enqueue s t l m) u l' ↔ Holds s u l' := by
  by_cases hl : l' = l
  · subst hl; simp [Holds, enqueue]
  · simp [Holds, enqueue, hl]

theorem Inv.waits_grantHead (h : Inv R s) {l l' : L} {t : T}
    (hw : Waits (grantHead s l) t l') :
    Waits s t l' ∧ (grantHead s l).prog t = s.prog t := by
  unfold grantHead at hw ⊢
  cases hq : (s.lock l).queue with
  | nil => rw [hq] at hw; exact ⟨hw, rfl⟩
  | cons front q =>
    obtain ⟨u, m⟩ := front
    rw [hq] at hw
    dsimp only at hw ⊢
    split_ifs at hw ⊢ with hadm
    · obtain ⟨m', hm'⟩ := hw
      have hmem : (t, m') ∈ (s.lock l').queue := by
        by_cases hl : l' = l
        · subst hl
          simp only [Function.update_self] at hm'
          rw [hq]
          exact List.mem_cons_of_mem _ hm'
        · simpa [hl] using hm'
      have htu : t ≠ u := by
        rintro rfl
        have hmu : (t, m) ∈ (s.lock l).queue := by rw [hq]; exact List.mem_cons_self
        obtain rfl := (h.queued_unique hmem hmu).1
        simp only [Function.update_self] at hm'
        have hnodup := h.nodup l'
        rw [hq, List.map_cons, List.nodup_cons] at hnodup
        exact hnodup.1 (List.mem_map.mpr ⟨_, hm', rfl⟩)
      exact ⟨⟨m', hmem⟩, by simp [htu]⟩
    · exact ⟨hw, rfl⟩

theorem Inv.waits_settle (l : L) {l' : L} {t : T} : ∀ (n : ℕ) {s : State T L}, Inv R s →
    Waits (settle l n s) t l' →
      Waits s t l' ∧ (settle l n s).prog t = s.prog t
  | 0, _, _, hw => ⟨hw, rfl⟩
  | n + 1, _, h, hw => by
    obtain ⟨hw', hprog⟩ := Inv.waits_settle l n (h.of_grantHead l) hw
    obtain ⟨hw'', hprog'⟩ := h.waits_grantHead hw'
    exact ⟨hw'', hprog.trans hprog'⟩

/-- **A queued task was queued before, or was refused in this move**; either way its program has
not moved. -/
theorem Inv.waits_of_step (h : Inv R s) {s' : State T L} {mv : Move T L} {t : T} {l : L}
    (hstep : step rounds s mv = some s') (hw : Waits s' t l) :
    s'.prog t = s.prog t ∧ (Waits s t l ∨ (mv = .run t ∧ Refused s t l)) := by
  cases mv with
  | start u ops =>
    simp only [step] at hstep
    split_ifs at hstep with hc
    cases hstep
    obtain ⟨m, hm⟩ := hw
    obtain ⟨rest, hrest⟩ := h.queued t l m hm
    have htu : t ≠ u := by
      rintro rfl
      rw [hc.1] at hrest
      cases hrest
    exact ⟨by simp [htu], Or.inl ⟨m, hm⟩⟩
  | run u =>
    cases hprog : s.prog u with
    | nil => simp [step, hprog] at hstep
    | cons op rest =>
      cases op with
      | acquire l₀ m₀ =>
        simp only [step, hprog] at hstep
        split_ifs at hstep with hq hg
        · cases hstep
          obtain ⟨m, hm⟩ := hw
          have hmem : (t, m) ∈ (s.lock l).queue := by
            by_cases hl : l = l₀
            · subst hl; simpa [take] using hm
            · simpa [take, hl] using hm
          have htu : t ≠ u := by
            rintro rfl
            obtain ⟨r, hr⟩ := h.queued t l m hmem
            rw [hprog] at hr
            cases hr
            exact hq (List.mem_map.mpr ⟨_, hmem, rfl⟩)
          exact ⟨by simp [take, htu], Or.inl ⟨m, hmem⟩⟩
        · cases hstep
          refine ⟨rfl, (waits_enqueue.mp hw).imp id ?_⟩
          rintro ⟨rfl, rfl⟩
          exact ⟨rfl, m₀, rest, hprog, hq, by simpa using hg⟩
      | release l₀ =>
        simp only [step, hprog] at hstep
        cases hstep
        obtain ⟨hw', hsame⟩ := Inv.waits_settle l₀ _ (h.of_giveBack hprog) hw
        obtain ⟨m, hm⟩ := hw'
        have hmem : (t, m) ∈ (s.lock l).queue := by
          by_cases hl : l = l₀
          · subst hl; simpa [giveBack] using hm
          · simpa [giveBack, hl] using hm
        have htu : t ≠ u := by
          rintro rfl
          obtain ⟨r, hr⟩ := h.queued t l m hmem
          rw [hprog] at hr
          cases hr
        exact ⟨by rw [hsame]; simp [giveBack, htu], Or.inl ⟨m, hmem⟩⟩

/-! ## The wait-for graph -/

omit [DecidableEq T] [DecidableEq L] in
theorem WaitsFor.waits {t u : T} (h : WaitsFor s t u) : ∃ l, Waits s t l := by
  obtain ⟨l, pre, m, post, hq, _⟩ := h
  exact ⟨l, m, by rw [hq]; simp⟩

omit [DecidableEq L] in
/-- Where a task stands in a queue. -/
def place (s : State T L) (t : T) (l : L) : ℕ := ((s.lock l).queue.map Prod.fst).idxOf t

/-- `t` waits for a lower-ranked lock than `u`, or for the same lock behind `u`. -/
def Below (rank : L → ℕ) (s : State T L) (t u : T) : Prop :=
  ∃ l l', Waits s t l ∧ Waits s u l' ∧
    (rank l < rank l' ∨ (l = l' ∧ place s u l < place s t l))

theorem Below.trans (h : Inv R s) {rank : L → ℕ} {t u v : T} (h₁ : Below rank s t u)
    (h₂ : Below rank s u v) : Below rank s t v := by
  obtain ⟨l₁, l₂, ht, ⟨m₂, hu⟩, h₁⟩ := h₁
  obtain ⟨l₂', l₃, ⟨m₂', hu'⟩, hv, h₂⟩ := h₂
  obtain rfl := (h.queued_unique hu hu').1
  refine ⟨l₁, l₃, ht, hv, ?_⟩
  rcases h₁ with h₁ | ⟨rfl, h₁⟩ <;> rcases h₂ with h₂ | ⟨rfl, h₂⟩
  · exact Or.inl (h₁.trans h₂)
  · exact Or.inl h₁
  · exact Or.inl h₂
  · exact Or.inr ⟨rfl, h₂.trans h₁⟩

theorem Below.irrefl (h : Inv R s) {rank : L → ℕ} {t : T} : ¬ Below rank s t t := by
  rintro ⟨l, l', ⟨m, ht⟩, ⟨m', ht'⟩, hlt⟩
  obtain rfl := (h.queued_unique ht ht').1
  omega

/-- With the locks ranked so that every queued task holds only lower-ranked ones, the wait-for
graph goes up. -/
theorem WaitsFor.below (h : Inv R s) {rank : L → ℕ}
    (hrank : ∀ t l l', Waits s t l → Holds s t l' → rank l' < rank l) {t u : T} {l' : L}
    (hw : WaitsFor s t u) (hu : Waits s u l') : Below rank s t u := by
  obtain ⟨l, pre, m, post, hq, hblock⟩ := hw
  have ht : Waits s t l := ⟨m, by rw [hq]; simp⟩
  rcases hblock with hblock | ⟨m', hpre⟩
  · exact ⟨l, l', ht, hu, Or.inl (hrank u l' l hu hblock)⟩
  · have hul : (u, m') ∈ (s.lock l).queue := by rw [hq]; simp [hpre]
    refine ⟨l, l, ht, ⟨m', hul⟩, Or.inr ⟨rfl, ?_⟩⟩
    -- `u` stands in the part of the queue before `t`, and `t` is not in that part
    have hnodup := h.nodup l
    rw [hq, List.map_append, List.map_cons] at hnodup
    have hmem : u ∈ pre.map Prod.fst := List.mem_map.mpr ⟨_, hpre, rfl⟩
    have htpre : t ∉ pre.map Prod.fst := fun hmem' =>
      (List.nodup_append.mp hnodup).2.2 t hmem' t List.mem_cons_self rfl
    unfold place
    rw [hq, List.map_append, List.map_cons, List.idxOf_append_of_mem hmem,
      List.idxOf_append_of_notMem htpre]
    have := List.idxOf_lt_length_of_mem hmem
    omega

/-- **A deadlock goes against every order**: whatever rank the locks are given, some task is
queued for a lock while it holds one ranked no lower. -/
theorem Deadlocked.inversion (h : Inv R s) (hd : Deadlocked s) (rank : L → ℕ) :
    ∃ t l l', Waits s t l ∧ Holds s t l' ∧ rank l ≤ rank l' := by
  by_contra hno
  push Not at hno
  have hbelow : ∀ t u, Relation.TransGen (WaitsFor s) t u → (∃ l, Waits s u l) →
      Below rank s t u := by
    intro t u htu
    induction htu with
    | single hw => rintro ⟨l, hl⟩; exact hw.below h hno hl
    | tail _ hw ih =>
      rintro ⟨l, hl⟩
      exact (ih hw.waits).trans h (hw.below h hno hl)
  obtain ⟨t, ht⟩ := hd
  have hwaits : ∃ l, Waits s t l := by
    obtain ⟨u, hu, _⟩ := Relation.TransGen.head'_iff.mp ht
    exact hu.waits
  exact Below.irrefl h (hbelow t t ht hwaits)

omit [DecidableEq T] [DecidableEq L] in
theorem WaitsFor.of_holds {t u : T} {l : L} (ht : Waits s t l) (hu : Holds s u l) :
    WaitsFor s t u := by
  obtain ⟨m, hm⟩ := ht
  obtain ⟨pre, post, hq⟩ := List.append_of_mem hm
  exact ⟨l, pre, m, post, hq, Or.inl hu⟩

omit [DecidableEq T] [DecidableEq L] in
/-- **Two opposite requests are a deadlock.** -/
theorem Deadlocked.of_inversion {t u : T} {l l' : L} (ht : Waits s t l) (ht' : Holds s t l')
    (hu : Waits s u l') (hu' : Holds s u l) : Deadlocked s :=
  ⟨t, (Relation.TransGen.single (WaitsFor.of_holds ht hu')).tail (WaitsFor.of_holds hu ht')⟩

/-! ## Two locks taken in both orders -/

/-- Somebody holding `l'` is queued for `l`, and somebody holding `l` is queued for `l'`. -/
def Opposed (s : State T L) (l l' : L) : Prop :=
  (∃ t, Waits s t l ∧ Holds s t l') ∧ ∃ u, Waits s u l' ∧ Holds s u l

/-- The move by which a task holding `l'` is refused `l`, somebody being queued the other way
round already. -/
def Crosses (l l' : L) (s : State T L) (mv : Move T L) : Prop :=
  ∃ t, mv = .run t ∧ Refused s t l ∧ Holds s t l' ∧ ∃ u, Waits s u l' ∧ Holds s u l

theorem Crosses.opposed {l l' : L} {s' : State T L} {mv : Move T L} (hc : Crosses l l' s mv)
    (hstep : step rounds s mv = some s') : Opposed s' l l' := by
  obtain ⟨t, rfl, href, ht, u, hu, hu'⟩ := hc
  obtain ⟨m, hm⟩ := href.step_eq rounds
  rw [hm] at hstep
  cases hstep
  exact ⟨⟨t, waits_enqueue.mpr (Or.inr ⟨rfl, rfl⟩), holds_enqueue.mpr ht⟩,
    u, waits_enqueue.mpr (Or.inl hu), holds_enqueue.mpr hu'⟩

/-- A task that waits for one lock and holds another did so before the move, or was refused in
it. -/
theorem Inv.blocked_of_step (h : Inv R s) (hrounds : ∀ t, ∀ ops ∈ rounds t, Balanced R ops)
    {s' : State T L} {mv : Move T L} {t : T} {l l' : L} (hstep : step rounds s mv = some s')
    (hw : Waits s' t l) (hh : Holds s' t l') :
    Holds s t l' ∧ (Waits s t l ∨ (mv = .run t ∧ Refused s t l)) := by
  obtain ⟨hprog, hwaits⟩ := h.waits_of_step hstep hw
  have h' := h.of_step hrounds hstep
  exact ⟨(h.holds_iff t l').mpr (hprog ▸ (h'.holds_iff t l').mp hh), hwaits⟩

/-- **Two locks become opposed only by a crossing request.** -/
theorem Inv.opposed_of_step (h : Inv R s) (hrounds : ∀ t, ∀ ops ∈ rounds t, Balanced R ops)
    {s' : State T L} {mv : Move T L} {l l' : L} (hstep : step rounds s mv = some s')
    (ho : Opposed s' l l') : Opposed s l l' ∨ Crosses l l' s mv ∨ Crosses l' l s mv := by
  obtain ⟨⟨t, ht, ht'⟩, u, hu, hu'⟩ := ho
  obtain ⟨htold, htw⟩ := h.blocked_of_step hrounds hstep ht ht'
  obtain ⟨huold, huw⟩ := h.blocked_of_step hrounds hstep hu hu'
  rcases htw with htw | ⟨hmv, htr⟩
  · rcases huw with huw | ⟨hmv, hur⟩
    · exact Or.inl ⟨⟨t, htw, htold⟩, u, huw, huold⟩
    · exact Or.inr (Or.inr ⟨u, hmv, hur, huold, t, htw, htold⟩)
  · rcases huw with huw | ⟨hmv', hur⟩
    · exact Or.inr (Or.inl ⟨t, hmv, htr, htold, u, huw, huold⟩)
    · -- one task cannot be refused two locks in one move
      exfalso
      rw [hmv] at hmv'
      cases hmv'
      obtain ⟨m, rest, hp, _⟩ := htr
      obtain ⟨m', rest', hp', _⟩ := hur
      rw [hp] at hp'
      cases hp'
      have := (h.holds_iff t l).mp htold
      rw [hp] at this
      simp [owed] at this

/-- **A run is free of opposed requests exactly when none of its moves crosses.** -/
theorem allSteps_not_crosses_iff (hrounds : ∀ t, ∀ ops ∈ rounds t, Balanced R ops) (l l' : L)
    {s₀ : State T L} (h₀ : Inv R s₀) (hfree : ¬ Opposed s₀ l l') (es : List (Move T L)) :
    Transition.AllSteps (step rounds)
        (fun s mv _ => ¬ Crosses l l' s mv ∧ ¬ Crosses l' l s mv) s₀ es ↔
      ∀ pre post s, es = pre ++ post → Transition.Run (step rounds) s₀ pre s →
        ¬ Opposed s l l' := by
  constructor
  · intro hall pre post s hes hrun
    have hpre : Transition.AllSteps (step rounds)
        (fun s mv _ => ¬ Crosses l l' s mv ∧ ¬ Crosses l' l s mv) s₀ pre :=
      fun pre' e post' t u he => hall pre' e (post' ++ post) t u (by rw [hes, he]; simp)
    have hboth : Inv R s ∧ ¬ Opposed s l l' := by
      refine hrun.invariant (I := fun s => Inv R s ∧ ¬ Opposed s l l') ?_ hpre ⟨h₀, hfree⟩
      rintro t e u ⟨ht, hto⟩ hstep hc
      refine ⟨ht.of_step hrounds hstep, fun ho => ?_⟩
      rcases ht.opposed_of_step hrounds hstep ho with ho | hx | hx
      · exact hto ho
      · exact hc.1 hx
      · exact hc.2 hx
    exact hboth.2
  · intro hno pre e post t u hes hrun hstep
    have hu := hno (pre ++ [e]) post u (by rw [hes]; simp) (hrun.concat hstep)
    refine ⟨fun hx => hu (hx.opposed hstep), fun hx => hu ?_⟩
    exact ⟨(hx.opposed hstep).2, (hx.opposed hstep).1⟩

end FairLock
