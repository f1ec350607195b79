import Mathlib.Data.List.Induction
import Mathlib.Order.Basic
import Mathlib.Tactic.Common

/-!
# Runs of a guarded step function

A system is given by `step : σ → ε → Option σ`; an event that is not enabled gives `none`.

* `exec`: the state after a list of events; `Run`: the same as a relation, grown at its end.
* `AllSteps C s es`: every step that the run of `es` from `s` takes satisfies `C`.
* `Run.simulates`: each step is a run of another system.
* `Run.invariant`: the induction rule; an invariant may rest on a condition on the steps taken.
* `Since φ ψ s es`: some step satisfied `ψ`, and every state from there on `φ`; `SinceStep χ ψ s es`:
  and every later step `χ`.
* `stateAt clock m s es`: in a system with a clock, the state in force at the moment `m`.
* `allSteps_cons`, `since_concat`, `sinceStep_concat`, `stateAt_concat`: how these unroll.
-/

namespace Transition

variable {σ ε : Type*} (step : σ → ε → Option σ)

/-- The state after the events `es`, if each of them is enabled in its turn. -/
def exec : σ → List ε → Option σ
  | s, [] => some s
  | s, e :: es => (step s e).bind fun s' => exec s' es

/-- `Run step s es t`: the events `es` lead from `s` to `t`. -/
inductive Run : σ → List ε → σ → Prop
  | nil (s : σ) : Run s [] s
  | concat {s : σ} {es : List ε} {t : σ} {e : ε} {u : σ} :
      Run s es t → step t e = some u → Run s (es ++ [e]) u

/-- Every step taken by the events `es` from `s` satisfies `C`. -/
def AllSteps (C : σ → ε → σ → Prop) (s : σ) (es : List ε) : Prop :=
  ∀ pre e post t u, es = pre ++ e :: post → Run step s pre t → step t e = some u → C t e u

/-- Some step taken by the events `es` from `s` satisfies `C`. -/
def SomeStep (C : σ → ε → σ → Prop) (s : σ) (es : List ε) : Prop :=
  ∃ pre e post t u, es = pre ++ e :: post ∧ Run step s pre t ∧ step t e = some u ∧ C t e u

variable {step}

theorem exec_concat (s : σ) (es : List ε) (e : ε) :
    exec step s (es ++ [e]) = (exec step s es).bind fun t => step t e := by
  induction es generalizing s with
  | nil => simp [exec]
  | cons e' es ih =>
    simp only [List.cons_append, exec, ih]
    cases step s e' <;> rfl

theorem run_iff_exec {s t : σ} {es : List ε} : Run step s es t ↔ exec step s es = some t := by
  constructor
  · intro h
    induction h with
    | nil => rfl
    | concat _ hstep ih => rw [exec_concat, ih, Option.bind_some, hstep]
  · intro h
    induction es using List.reverseRecOn generalizing t with
    | nil => cases h; exact Run.nil s
    | append_singleton es e ih =>
      rw [exec_concat] at h
      obtain ⟨t', ht', hstep⟩ := Option.bind_eq_some_iff.mp h
      exact Run.concat (ih ht') hstep

theorem run_get {s : σ} {es : List ε} (h : (exec step s es).isSome) :
    Run step s es ((exec step s es).get h) :=
  run_iff_exec.mpr (Option.some_get h).symm

/-- A decidable property of the state that a run reaches is checked by running. -/
theorem Run.of_all {P : σ → Prop} [DecidablePred P] {s t : σ} {es : List ε}
    (h : (exec step s es).all (fun u => decide (P u)) = true) (hrun : Run step s es t) : P t := by
  rw [run_iff_exec] at hrun
  simpa [hrun] using h

theorem Run.unique {s t t' : σ} {es : List ε} (h : Run step s es t) (h' : Run step s es t') :
    t = t' := by
  rw [run_iff_exec] at h h'
  exact Option.some.inj (h.symm.trans h')

theorem run_concat_iff {s u : σ} {es : List ε} {e : ε} :
    Run step s (es ++ [e]) u ↔ ∃ t, Run step s es t ∧ step t e = some u := by
  simp only [run_iff_exec, exec_concat, Option.bind_eq_some_iff]

theorem run_append_iff {s t : σ} {es fs : List ε} :
    Run step s (es ++ fs) t ↔ ∃ u, Run step s es u ∧ Run step u fs t := by
  simp only [run_iff_exec]
  induction es generalizing s with
  | nil => simp [exec]
  | cons e es ih =>
    simp only [List.cons_append, exec, Option.bind_eq_some_iff, ih]
    constructor
    · rintro ⟨v, hv, u, hu, ht⟩
      exact ⟨u, ⟨v, hv, hu⟩, ht⟩
    · rintro ⟨u, ⟨v, hv, hu⟩, ht⟩
      exact ⟨v, hv, u, hu, ht⟩

/-- **A simulation**: where each step is a run of the other system, a run is one too. -/
theorem Run.simulates {τ δ : Type*} {step' : τ → δ → Option τ} {seen : σ → τ} {s t : σ} {es : List ε}
    (h : ∀ s e t, step s e = some t → ∃ es', Run step' (seen s) es' (seen t)) (hrun : Run step s es t) :
    ∃ es', Run step' (seen s) es' (seen t) := by
  induction hrun with
  | nil => exact ⟨[], .nil _⟩
  | concat _ hstep ih =>
    obtain ⟨pre, hpre⟩ := ih
    obtain ⟨post, hpost⟩ := h _ _ _ hstep
    exact ⟨pre ++ post, run_append_iff.mpr ⟨_, hpre, hpost⟩⟩

theorem run_cons_iff {s t : σ} {e : ε} {es : List ε} :
    Run step s (e :: es) t ↔ ∃ u, step s e = some u ∧ Run step u es t := by
  simp only [run_iff_exec, exec, Option.bind_eq_some_iff]

theorem allSteps_nil (C : σ → ε → σ → Prop) (s : σ) : AllSteps step C s [] := by
  intro pre e post t u h
  simp at h

theorem AllSteps.restrict {C : σ → ε → σ → Prop} {s : σ} {es fs : List ε}
    (h : AllSteps step C s fs) (hpre : es <+: fs) : AllSteps step C s es := by
  obtain ⟨rest, rfl⟩ := hpre
  intro pre e post t u hes hrun hstep
  exact h pre e (post ++ rest) t u (by rw [hes]; simp) hrun hstep

theorem AllSteps.and {C D : σ → ε → σ → Prop} {s : σ} {es : List ε}
    (hC : AllSteps step C s es) (hD : AllSteps step D s es) :
    AllSteps step (fun t e u => C t e u ∧ D t e u) s es :=
  fun pre e post t u hes hrun hstep =>
    ⟨hC pre e post t u hes hrun hstep, hD pre e post t u hes hrun hstep⟩

theorem allSteps_concat {C : σ → ε → σ → Prop} {s t : σ} {es : List ε} {e : ε}
    (hrun : Run step s es t) :
    AllSteps step C s (es ++ [e]) ↔
      AllSteps step C s es ∧ ∀ u, step t e = some u → C t e u := by
  constructor
  · intro h
    refine ⟨fun pre e' post t' u he hpre hstep => ?_, fun u hstep => ?_⟩
    · exact h pre e' (post ++ [e]) t' u (by rw [he]; simp) hpre hstep
    · exact h es e [] t u rfl hrun hstep
  · rintro ⟨hes, hlast⟩ pre e' post t' u he hpre hstep
    rcases List.eq_nil_or_concat post with rfl | ⟨post', x, rfl⟩
    · obtain ⟨rfl, h⟩ := List.append_inj' he rfl
      cases h
      rw [hpre.unique hrun] at hstep ⊢
      exact hlast u hstep
    · have he' : es ++ [e] = (pre ++ e' :: post') ++ [x] := by rw [he]; simp
      obtain ⟨rfl, h⟩ := List.append_inj' he' rfl
      exact hes pre e' post' t' u rfl hpre hstep

theorem allSteps_cons {C : σ → ε → σ → Prop} {s t : σ} {e : ε} {es : List ε}
    (hstep : step s e = some t) :
    AllSteps step C s (e :: es) ↔ C s e t ∧ AllSteps step C t es := by
  constructor
  · intro h
    refine ⟨h [] e es s t rfl (Run.nil s) hstep, fun pre e' post t' u he hpre hlast => ?_⟩
    exact h (e :: pre) e' post t' u (by rw [he]; rfl) (run_cons_iff.mpr ⟨t, hstep, hpre⟩) hlast
  · rintro ⟨hfirst, hes⟩ pre e' post t' u he hpre hlast
    cases pre with
    | nil =>
      obtain ⟨rfl, rfl⟩ := List.cons.inj he
      rw [(Run.nil s).unique hpre] at hstep
      rw [hstep] at hlast
      cases hlast
      rwa [(Run.nil s).unique hpre] at hfirst
    | cons x pre =>
      obtain ⟨rfl, rfl⟩ := List.cons.inj he
      obtain ⟨v, hv, hrun⟩ := run_cons_iff.mp hpre
      rw [hstep] at hv
      cases hv
      exact hes pre e' post t' u rfl hrun hlast

/-- Whether every step that the run of `es` from `s` takes passes the check `c`. -/
def checkSteps (step : σ → ε → Option σ) (c : σ → ε → σ → Bool) : σ → List ε → Bool
  | _, [] => true
  | s, e :: es =>
    match step s e with
    | none => true
    | some t => c s e t && checkSteps step c t es

theorem allSteps_of_check {c : σ → ε → σ → Bool} {C : σ → ε → σ → Prop}
    (hc : ∀ s e t, c s e t = true → C s e t) {s : σ} {es : List ε}
    (h : checkSteps step c s es = true) : AllSteps step C s es := by
  induction es generalizing s with
  | nil => exact allSteps_nil C s
  | cons e es ih =>
    cases hstep : step s e with
    | none =>
      intro pre e' post t u he hpre hlast
      cases pre with
      | nil =>
        obtain ⟨rfl, rfl⟩ := List.cons.inj he
        rw [← (Run.nil s).unique hpre, hstep] at hlast
        cases hlast
      | cons x pre =>
        obtain ⟨rfl, rfl⟩ := List.cons.inj he
        obtain ⟨v, hv, -⟩ := run_cons_iff.mp hpre
        rw [hstep] at hv
        cases hv
    | some t =>
      simp only [checkSteps, hstep, Bool.and_eq_true] at h
      exact (allSteps_cons hstep).mpr ⟨hc _ _ _ h.1, ih h.2⟩

/-- **The induction rule.** An invariant that every step satisfying `C` preserves holds after
every run whose steps all satisfy `C`. -/
theorem Run.invariant {I : σ → Prop} {C : σ → ε → σ → Prop} {s t : σ} {es : List ε}
    (hstep : ∀ t e u, I t → step t e = some u → C t e u → I u) (hrun : Run step s es t)
    (hC : AllSteps step C s es) (hs : I s) : I t := by
  induction hrun with
  | nil => exact hs
  | concat hrun hlast ih =>
    rw [allSteps_concat hrun] at hC
    exact hstep _ _ _ (ih hC.1) hlast (hC.2 _ hlast)

theorem Run.preserves {I : σ → Prop} {s t : σ} {es : List ε}
    (hstep : ∀ t e u, I t → step t e = some u → I u) (hrun : Run step s es t) (hs : I s) : I t :=
  hrun.invariant (C := fun _ _ _ => True) (fun t e u hI h _ => hstep t e u hI h)
    (fun _ _ _ _ _ _ _ _ => trivial) hs

theorem someStep_iff_not_allSteps {C : σ → ε → σ → Prop} {s : σ} {es : List ε} :
    SomeStep step C s es ↔ ¬ AllSteps step (fun t e u => ¬ C t e u) s es := by
  constructor
  · rintro ⟨pre, e, post, t, u, he, hpre, hstep, h⟩ hall
    exact hall pre e post t u he hpre hstep h
  · intro h
    by_contra hno
    exact h fun pre e post t u he hpre hstep hC => hno ⟨pre, e, post, t, u, he, hpre, hstep, hC⟩

theorem not_someStep_nil (C : σ → ε → σ → Prop) (s : σ) : ¬ SomeStep step C s [] := by
  rintro ⟨pre, e, post, t, u, he, -⟩
  simp at he

theorem someStep_concat_iff {C : σ → ε → σ → Prop} {s t u : σ} {es : List ε} {e : ε}
    (hrun : Run step s es t) (hstep : step t e = some u) :
    SomeStep step C s (es ++ [e]) ↔ SomeStep step C s es ∨ C t e u := by
  simp only [someStep_iff_not_allSteps, allSteps_concat hrun, hstep, Option.some.injEq,
    forall_eq', not_and_or, not_not]

theorem someStep_singleton {C : σ → ε → σ → Prop} {s u : σ} {e : ε} (hstep : step s e = some u) :
    SomeStep step C s [e] ↔ C s e u := by
  have hconcat := someStep_concat_iff (C := C) (Run.nil s) hstep
  rwa [List.nil_append, or_iff_right (not_someStep_nil C s)] at hconcat

/-! ## Timed runs -/

section Timed

variable {τ : Type*} {clock : σ → τ} {m : τ} {s t u : σ} {e : ε} {es : List ε}

/-- The state in force at the moment `m`: the last of the run whose clock has not passed `m`. -/
def stateAt [LE τ] [DecidableLE τ] (step : σ → ε → Option σ) (clock : σ → τ) (m : τ) :
    σ → List ε → Option σ
  | s, [] => if clock s ≤ m then some s else none
  | s, e :: es =>
    match step s e with
    | none => if clock s ≤ m then some s else none
    | some t => (stateAt step clock m t es).or (if clock s ≤ m then some s else none)

theorem stateAt_concat [LE τ] [DecidableLE τ] (hrun : Run step s es t) (hstep : step t e = some u) :
    stateAt step clock m s (es ++ [e]) =
      if clock u ≤ m then some u else stateAt step clock m s es := by
  induction es generalizing s with
  | nil =>
    obtain rfl := (Run.nil s).unique hrun
    simp only [List.nil_append, stateAt, hstep]
    by_cases h : clock u ≤ m <;> simp [h]
  | cons e' es ih =>
    obtain ⟨v, hv, hrun⟩ := run_cons_iff.mp hrun
    simp only [List.cons_append, stateAt, hv, ih hrun]
    by_cases h : clock u ≤ m <;> simp [h]

theorem stateAt_eq_none [Preorder τ] [DecidableLE τ]
    (hclock : AllSteps step (fun u _ v => clock u ≤ clock v) s es) (hrun : Run step s es t)
    (hm : m < clock s) : stateAt step clock m s es = none := by
  suffices h : stateAt step clock m s es = none ∧ m < clock t from h.1
  induction hrun with
  | nil => exact ⟨if_neg (not_le_of_gt hm), hm⟩
  | concat hrun hstep ih =>
    rw [allSteps_concat hrun] at hclock
    obtain ⟨hnone, hlt⟩ := ih hclock.1
    have hlt := lt_of_lt_of_le hlt (hclock.2 _ hstep)
    exact ⟨by rw [stateAt_concat hrun hstep, if_neg (not_le_of_gt hlt), hnone], hlt⟩

end Timed

/-! ## Since -/

/-- Some step of the run of `es` from `s` satisfied `ψ`, and every state from there on `φ`. -/
def Since (step : σ → ε → Option σ) (φ : σ → Prop) (ψ : σ → ε → σ → Prop) (s : σ)
    (es : List ε) : Prop :=
  ∃ pre e post u v, es = pre ++ e :: post ∧ Run step s pre u ∧ step u e = some v ∧ ψ u e v ∧
    ∀ mid w, mid <+: post → Run step v mid w → φ w

theorem not_since_nil (φ : σ → Prop) (ψ : σ → ε → σ → Prop) (s : σ) :
    ¬ Since step φ ψ s [] := by
  rintro ⟨pre, e, post, u, v, he, -⟩
  simp at he

theorem since_concat {φ : σ → Prop} {ψ : σ → ε → σ → Prop} {s t u : σ} {es : List ε} {e : ε}
    (hrun : Run step s es t) (hstep : step t e = some u) :
    Since step φ ψ s (es ++ [e]) ↔ φ u ∧ (ψ t e u ∨ Since step φ ψ s es) := by
  constructor
  · rintro ⟨pre, e', post, t', v, he, hpre, hfirst, hψ, hφ⟩
    rcases List.eq_nil_or_concat post with rfl | ⟨post, x, rfl⟩
    · obtain ⟨rfl, hx⟩ := List.append_inj' he rfl
      cases hx
      obtain rfl := hpre.unique hrun
      rw [hstep] at hfirst
      cases hfirst
      exact ⟨hφ [] u List.nil_prefix (Run.nil u), Or.inl hψ⟩
    · have he' : es ++ [e] = (pre ++ e' :: post) ++ [x] := by rw [he]; simp
      obtain ⟨rfl, hx⟩ := List.append_inj' he' rfl
      cases hx
      rw [List.concat_eq_append] at hφ
      obtain ⟨w, hw, hpost⟩ := run_append_iff.mp hrun
      obtain rfl := hw.unique hpre
      obtain ⟨v', hv', hpost⟩ := run_cons_iff.mp hpost
      rw [hfirst] at hv'
      cases hv'
      refine ⟨hφ _ u List.prefix_rfl (Run.concat hpost hstep), Or.inr ?_⟩
      exact ⟨pre, e', post, w, v, rfl, hpre, hfirst, hψ,
        fun mid w hmid => hφ mid w (hmid.trans (List.prefix_append _ _))⟩
  · rintro ⟨hφu, hψ | ⟨pre, e', post, t', v, rfl, hpre, hfirst, hψ, hφ⟩⟩
    · refine ⟨es, e, [], t, u, rfl, hrun, hstep, hψ, fun mid w hmid hw => ?_⟩
      obtain rfl := List.prefix_nil.mp hmid
      rwa [← (Run.nil u).unique hw]
    · refine ⟨pre, e', post ++ [e], t', v, by simp, hpre, hfirst, hψ, fun mid w hmid hw => ?_⟩
      rcases List.prefix_concat_iff.mp hmid with rfl | hmid
      · obtain ⟨w', hw', hpost⟩ := run_append_iff.mp hrun
        obtain rfl := hw'.unique hpre
        obtain ⟨v', hv', hpost⟩ := run_cons_iff.mp hpost
        rw [hfirst] at hv'
        cases hv'
        rwa [hw.unique (Run.concat hpost hstep)]
      · exact hφ mid w hmid hw

/-- Some step of the run of `es` from `s` satisfied `ψ`, and every later one `χ`. -/
def SinceStep (step : σ → ε → Option σ) (χ ψ : σ → ε → σ → Prop) (s : σ) (es : List ε) : Prop :=
  ∃ pre e post u v, es = pre ++ e :: post ∧ Run step s pre u ∧ step u e = some v ∧ ψ u e v ∧
    AllSteps step χ v post

theorem not_sinceStep_nil (χ ψ : σ → ε → σ → Prop) (s : σ) : ¬ SinceStep step χ ψ s [] := by
  rintro ⟨pre, e, post, u, v, he, -⟩
  simp at he

theorem SinceStep.someStep {χ ψ : σ → ε → σ → Prop} {s : σ} {es : List ε}
    (h : SinceStep step χ ψ s es) : SomeStep step ψ s es := by
  obtain ⟨pre, e, post, u, v, he, hpre, hstep, hψ, -⟩ := h
  exact ⟨pre, e, post, u, v, he, hpre, hstep, hψ⟩

theorem sinceStep_concat {χ ψ : σ → ε → σ → Prop} {s t u : σ} {es : List ε} {e : ε}
    (hrun : Run step s es t) (hstep : step t e = some u) :
    SinceStep step χ ψ s (es ++ [e]) ↔ ψ t e u ∨ χ t e u ∧ SinceStep step χ ψ s es := by
  constructor
  · rintro ⟨pre, e', post, t', v, he, hpre, hfirst, hψ, hχ⟩
    rcases List.eq_nil_or_concat post with rfl | ⟨post, x, rfl⟩
    · obtain ⟨rfl, hx⟩ := List.append_inj' he rfl
      cases hx
      obtain rfl := hpre.unique hrun
      rw [hstep] at hfirst
      cases hfirst
      exact Or.inl hψ
    · have he' : es ++ [e] = (pre ++ e' :: post) ++ [x] := by rw [he]; simp
      obtain ⟨rfl, hx⟩ := List.append_inj' he' rfl
      cases hx
      obtain ⟨w, hw, hpost⟩ := run_append_iff.mp hrun
      obtain rfl := hw.unique hpre
      obtain ⟨v', hv', hpost⟩ := run_cons_iff.mp hpost
      rw [hfirst] at hv'
      cases hv'
      rw [List.concat_eq_append, allSteps_concat hpost] at hχ
      exact Or.inr ⟨hχ.2 u hstep, pre, e', post, w, v, rfl, hpre, hfirst, hψ, hχ.1⟩
  · rintro (hψ | ⟨hχ, pre, e', post, t', v, rfl, hpre, hfirst, hψ, hpost⟩)
    · exact ⟨es, e, [], t, u, rfl, hrun, hstep, hψ, allSteps_nil χ u⟩
    · obtain ⟨w, hw, hmid⟩ := run_append_iff.mp hrun
      obtain rfl := hw.unique hpre
      obtain ⟨v', hv', hmid⟩ := run_cons_iff.mp hmid
      rw [hfirst] at hv'
      cases hv'
      refine ⟨pre, e', post ++ [e], w, v, by simp, hpre, hfirst, hψ, ?_⟩
      rw [allSteps_concat hmid]
      refine ⟨hpost, fun x hx => ?_⟩
      rw [hstep] at hx
      cases hx
      exact hχ

end Transition
