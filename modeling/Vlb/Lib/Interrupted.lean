import Mathlib.Logic.Basic
import Mathlib.Tactic.Common

/-!
# Programs that can be stopped

A program over a state that may be stopped before its end, as a process is that is killed: what it
has done to the state stays done, and there is no result.

* `Prog σ α`: from a state, the result if there is one, and the state that is left behind.
* `Ensures x s Q K`: from `s`, `x` gives a result with `Q`, or is stopped in a state with `K`.
* `Ensures.bind`, `Ensures.mono`, `Ensures.and`: the rules.
* `command`, `command_ensures`: a command that may be refused, or not run at all.
-/

namespace Interrupted

/-- A program over the state `σ`. It gives `none` where it is stopped. -/
def Prog (σ α : Type) := σ → Option α × σ

variable {σ α β : Type}

namespace Prog

/-- Nothing is run. -/
def pure (a : α) : Prog σ α := fun s => (some a, s)

/-- A program that is stopped does not go on. -/
def bind (x : Prog σ α) (f : α → Prog σ β) : Prog σ β := fun s =>
  match x s with
  | (some a, t) => f a t
  | (none, t) => (none, t)

instance : Monad (Prog σ) where
  pure := Prog.pure
  bind := Prog.bind

end Prog

/-- From the state `s`, `x` gives a result with `Q`, or is stopped in a state with `K`. -/
def Ensures (x : Prog σ α) (s : σ) (Q : α → σ → Prop) (K : σ → Prop) : Prop :=
  match x s with
  | (some a, t) => Q a t
  | (none, t) => K t

variable {x : Prog σ α} {f : α → Prog σ β} {s : σ} {Q Q' : α → σ → Prop} {R : β → σ → Prop}
  {K K' : σ → Prop}

theorem ensures_pure {a : α} (h : Q a s) : Ensures (pure a : Prog σ α) s Q K := h

theorem Ensures.bind (hx : Ensures x s Q K) (hf : ∀ a t, Q a t → Ensures (f a) t R K) :
    Ensures (x >>= f) s R K := by
  show Ensures (Prog.bind x f) s R K
  unfold Ensures at hx
  unfold Ensures Prog.bind
  rcases hs : x s with ⟨_ | a, t⟩
  · rw [hs] at hx
    exact hx
  · rw [hs] at hx
    exact hf a t hx

theorem Ensures.mono (hx : Ensures x s Q K) (hQ : ∀ a t, Q a t → Q' a t)
    (hK : ∀ t, K t → K' t) : Ensures x s Q' K' := by
  unfold Ensures at hx ⊢
  rcases hs : x s with ⟨_ | a, t⟩
  · rw [hs] at hx
    exact hK t hx
  · rw [hs] at hx
    exact hQ a t hx

theorem Ensures.and (hx : Ensures x s Q K) (hx' : Ensures x s Q' K') :
    Ensures x s (fun a t => Q a t ∧ Q' a t) (fun t => K t ∧ K' t) := by
  unfold Ensures at hx hx' ⊢
  rcases hs : x s with ⟨_ | a, t⟩
  · rw [hs] at hx hx'
    exact ⟨hx, hx'⟩
  · rw [hs] at hx hx'
    exact ⟨hx, hx'⟩

theorem ensures_true (x : Prog σ α) (s : σ) : Ensures x s (fun _ _ => True) (fun _ => True) := by
  unfold Ensures
  split <;> trivial

theorem Ensures.of_eq {a : α} {t : σ} (hx : Ensures x s Q K) (h : x s = (some a, t)) : Q a t := by
  unfold Ensures at hx
  rw [h] at hx
  exact hx

theorem Ensures.of_stopped {t : σ} (hx : Ensures x s Q K) (h : x s = (none, t)) : K t := by
  unfold Ensures at hx
  rw [h] at hx
  exact hx

/-! ## Commands -/

/-- How a command ends. -/
inductive Outcome
  /-- It does what can be done. -/
  | ran
  /-- It exits with an error, and has done nothing. -/
  | refused
  /-- It could not be spawned. -/
  | notRun
  deriving DecidableEq

/-- The exit status of a command that has done nothing. -/
def Outcome.failure : Outcome → Option Bool
  | .notRun => none
  | .ran | .refused => some false

theorem Outcome.failure_ne (o : Outcome) : o.failure ≠ some true := by cases o <;> decide

/-- The command that comes next, which ends as `next` says, in the state that it finds. The program is
stopped where there is none. -/
def command (next : σ → Option (Outcome × σ)) (effect : σ → α × σ)
    (otherwise : Outcome → σ → α × σ) : Prog σ α := fun s =>
  match next s with
  | none => (none, s)
  | some (.ran, t) => (some (effect t).1, (effect t).2)
  | some (outcome, t) => (some (otherwise outcome t).1, (otherwise outcome t).2)

/-- **A command** is stopped, does its work, or fails. -/
theorem command_ensures {next : σ → Option (Outcome × σ)} {effect : σ → α × σ}
    {otherwise : Outcome → σ → α × σ} (hstopped : next s = none → K s)
    (hran : ∀ t, next s = some (.ran, t) → Q (effect t).1 (effect t).2)
    (hfailed : ∀ o t, o ≠ .ran → next s = some (o, t) → Q (otherwise o t).1 (otherwise o t).2) :
    Ensures (command next effect otherwise) s Q K := by
  unfold Ensures command
  rcases hnext : next s with _ | ⟨_ | _ | _, t⟩
  · exact hstopped hnext
  · exact hran t hnext
  · exact hfailed .refused t (by decide) hnext
  · exact hfailed .notRun t (by decide) hnext

end Interrupted
