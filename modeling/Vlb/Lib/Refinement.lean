import Vlb.Lib.Transition

/-!
# Refinement

A system carries out another one: seen through a `view` of its state, each of its steps is one move
of the other system, or changes nothing.

* `Refines`: the simulation, under an invariant of the system below.
* `moves`: the moves that a run makes above.
* **`Refines.run`**: a run below is a run above, move for move.
-/

namespace Transition

variable {σ ε α μ : Type*}

/-- What the step taken at `e` in `s` is above; `none` is a step that changes nothing there. -/
structure Refines (step : σ → ε → Option σ) (above : α → μ → Option α) (inv : σ → Prop)
    (view : σ → α) (move : σ → ε → Option μ) : Prop where
  keeps : ∀ s e t, inv s → step s e = some t → inv t
  idle : ∀ s e t, inv s → step s e = some t → move s e = none → view t = view s
  acts : ∀ s e t m, inv s → step s e = some t → move s e = some m →
    above (view s) m = some (view t)

/-- The moves that the events `es` make above, from `s` on. -/
def moves (step : σ → ε → Option σ) (move : σ → ε → Option μ) : σ → List ε → List μ
  | _, [] => []
  | s, e :: es =>
    match step s e with
    | none => []
    | some t => (move s e).toList ++ moves step move t es

variable {step : σ → ε → Option σ} {above : α → μ → Option α} {inv : σ → Prop} {view : σ → α}
  {move : σ → ε → Option μ} {s t u : σ} {es : List ε} {e : ε}

theorem moves_concat (hrun : Run step s es t) (hstep : step t e = some u) :
    moves step move s (es ++ [e]) = moves step move s es ++ (move t e).toList := by
  induction es generalizing s with
  | nil =>
    obtain rfl := (Run.nil s).unique hrun
    simp [moves, hstep]
  | cons e' es ih =>
    obtain ⟨v, hv, hrun⟩ := run_cons_iff.mp hrun
    simp only [List.cons_append, moves, hv, ih hrun, List.append_assoc]

namespace Refines

/-- **Runs are carried over**, and the invariant with them. -/
theorem run (h : Refines step above inv view move) (hs : inv s) (hrun : Run step s es t) :
    inv t ∧ Run above (view s) (moves step move s es) (view t) := by
  induction hrun with
  | nil => exact ⟨hs, Run.nil _⟩
  | @concat es t e u hrun hstep ih =>
    obtain ⟨ht, habove⟩ := ih
    refine ⟨h.keeps _ _ _ ht hstep, ?_⟩
    rw [moves_concat hrun hstep]
    cases hmove : move t e with
    | none => simpa [h.idle _ _ _ ht hstep hmove] using habove
    | some m => exact Run.concat habove (h.acts _ _ _ _ ht hstep hmove)

end Refines

end Transition
