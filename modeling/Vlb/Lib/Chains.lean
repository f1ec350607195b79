import Mathlib.Data.List.Basic
import Mathlib.Logic.Function.Basic
import Vlb.Lib.Drain
import Vlb.Lib.Interrupted

/-!
# Chains of rules, one command at a time

A packet filter keeps its rules in chains. A program changes them by commands, any of which may be
refused, or not run at all; and the program may be stopped before any of them. It looks before it
adds, and what it sees is wrong only when the command that looks does not run.

* `World`, `Shell`: the chains, and programs that change them.
* `ensure`: look, and add what is not there.
* `removeAll`: delete, again and again.
* `Keeps`: what such programs do to one's own rules, and to those of others.
* **`ensure_keeps`**, **`removeAll_ensures`**: what they do, wherever they are stopped.
-/

namespace Chains

open Drain Interrupted

variable {κ ρ : Type}

/-- The chains, of which some may be missing, and how the next commands end. `missed` counts the
looks that did not see what was there. -/
structure World (κ ρ : Type) where
  tables : κ → Option (List ρ)
  missed : ℕ
  script : List Outcome

/-- A program that runs commands on chains. -/
abbrev Shell (κ ρ α : Type) := Prog (World κ ρ) α

namespace World

/-- How the next command ends, if there is time for it. -/
def next (w : World κ ρ) : Option (Outcome × World κ ρ) :=
  match w.script with
  | [] => none
  | o :: script => some (o, { w with script })

/-- A chain that is not there has none. -/
def rules (w : World κ ρ) (c : κ) : List ρ := (w.tables c).getD []

/-- How often the rule is in the chain. -/
def times [DecidableEq ρ] (w : World κ ρ) (c : κ) (r : ρ) : ℕ := (w.rules c).countP (· = r)

/-- The chain is written, or gone. -/
def set [DecidableEq κ] (w : World κ ρ) (c : κ) (l : Option (List ρ)) : World κ ρ :=
  { w with tables := Function.update w.tables c l }

theorem rules_set [DecidableEq κ] (w : World κ ρ) (c c' : κ) (l : Option (List ρ)) :
    (w.set c l).rules c' = if c' = c then l.getD [] else w.rules c' := by
  unfold rules set
  by_cases h : c' = c
  · subst h
    simp
  · simp [h]

end World

/-! ## Commands -/

/-- A command that the kernel decides about; there is no exit status where it did not run. -/
def run (effect : World κ ρ → Option (World κ ρ)) : Shell κ ρ (Option Bool) :=
  command World.next
    (fun w =>
      match effect w with
      | some w' => (some true, w')
      | none => (some false, w))
    fun o w => (o.failure, w)

section Commands

variable [DecidableEq κ] [DecidableEq ρ]

/-- `-C`. -/
def look (c : κ) (r : ρ) : Shell κ ρ (Option Bool) :=
  command World.next (fun w => (some (decide (r ∈ w.rules c)), w)) fun o w =>
    (o.failure, { w with missed := if r ∈ w.rules c then w.missed + 1 else w.missed })

/-- `-N`. -/
def newChain (c : κ) : Shell κ ρ (Option Bool) :=
  run fun w => if w.tables c = none then some (w.set c (some [])) else none

/-- `-I` at the head, and `-A`. -/
def insert (c : κ) (r : ρ) : Shell κ ρ (Option Bool) :=
  run fun w => (w.tables c).map fun l => w.set c (some (r :: l))

/-- `-A`, which needs the chain. -/
def append (c : κ) (r : ρ) : Shell κ ρ (Option Bool) :=
  run fun w => (w.tables c).map fun l => w.set c (some (l ++ [r]))

/-- `-D`. -/
def delete (c : κ) (r : ρ) : Shell κ ρ (Option Bool) :=
  run fun w => if r ∈ w.rules c then some (w.set c (some ((w.rules c).eraseP (· = r)))) else none

/-- A batch that replaces a chain. -/
def replace (c : κ) (l : List ρ) : Shell κ ρ (Option Bool) := run fun w => some (w.set c (some l))

/-- `-F`. -/
def flush (c : κ) : Shell κ ρ (Option Bool) :=
  run fun w => (w.tables c).map fun _ => w.set c (some [])

/-- `-X`. -/
def dropChain (c : κ) : Shell κ ρ (Option Bool) :=
  run fun w => if w.tables c = some [] then some (w.set c none) else none

/-! ## Programs -/

/-- Add the rule by `add` unless it is seen; whether it is there, or no exit status. -/
def ensure (add : κ → ρ → Shell κ ρ (Option Bool)) (c : κ) (r : ρ) : Shell κ ρ (Option Bool) := do
  let seen ← look c r
  if seen.getD false then return some true
  else add c r

/-- Delete the rule until there is none, so many times at most. -/
def removeAll (c : κ) (r : ρ) : ℕ → Shell κ ρ Unit
  | 0 => return ()
  | n + 1 => do
    let gone ← delete c r
    if gone.getD false then removeAll c r n else return ()

end Commands

/-! ## One's own rules, and those of others -/

section Keeps

variable [DecidableEq ρ] (own : κ → ρ → Bool) (private_ : κ → Bool)

/-- The rules of others are as they were, in the chains that others use, and one's own are there once
at most, or as often as before, or were overlooked. -/
structure Keeps (w w' : World κ ρ) : Prop where
  others : ∀ c, private_ c = false →
    (w'.rules c).filter (fun r => !own c r) = (w.rules c).filter fun r => !own c r
  missed : w.missed ≤ w'.missed
  count : ∀ c r, private_ c = false → own c r = true →
    w'.times c r + w.missed ≤ max (w.times c r) 1 + w'.missed

variable {own private_} {w w' w'' : World κ ρ} {c : κ} {r : ρ}

theorem Keeps.refl (w : World κ ρ) : Keeps own private_ w w :=
  ⟨fun _ _ => rfl, Nat.le_refl _, fun c r _ _ => by omega⟩

theorem Keeps.trans (h : Keeps own private_ w w') (h' : Keeps own private_ w' w'') :
    Keeps own private_ w w'' where
  others c hc := (h'.others c hc).trans (h.others c hc)
  missed := h.missed.trans h'.missed
  count c r hc hr := by
    have := h.count c r hc hr
    have := h'.count c r hc hr
    have := h.missed
    omega

theorem Keeps.after {α : Type} {x : Shell κ ρ α} {Q : α → World κ ρ → Prop}
    (h : Keeps own private_ w w')
    (hx : Ensures x w' (fun a w'' => Keeps own private_ w' w'' ∧ Q a w'') (Keeps own private_ w')) :
    Ensures x w' (fun a w'' => Keeps own private_ w w'' ∧ Q a w'') (Keeps own private_ w) :=
  hx.mono (fun _ _ h' => ⟨h.trans h'.1, h'.2⟩) fun _ h' => h.trans h'

/-- The chains are as they were. -/
structure Same (w w' : World κ ρ) : Prop where
  rules : ∀ c, w'.rules c = w.rules c
  missed : w'.missed = w.missed

omit [DecidableEq ρ] in
theorem Same.refl (w : World κ ρ) : Same w w := ⟨fun _ => rfl, rfl⟩

theorem Same.keeps (h : Same w w') : Keeps own private_ w w' where
  others c _ := by rw [h.rules]
  missed := h.missed.ge
  count c r _ _ := by
    rw [World.times, h.rules, h.missed, World.times]
    omega

/-- One rule has come. -/
structure Added (c : κ) (r : ρ) (w w' : World κ ρ) : Prop where
  split : ∃ l₁ l₂, w.rules c = l₁ ++ l₂ ∧ w'.rules c = l₁ ++ r :: l₂
  elsewhere : ∀ c' ≠ c, w'.rules c' = w.rules c'
  missed : w'.missed = w.missed

/-- **A rule of one's own that was not there, or was overlooked.** -/
theorem Added.keeps (h : Added c r w' w'') (hown : own c r = true)
    (hsame : ∀ c, w'.rules c = w.rules c)
    (hseen : (r ∉ w.rules c ∧ w.missed ≤ w'.missed) ∨ w'.missed = w.missed + 1) :
    Keeps own private_ w w'' := by
  obtain ⟨l₁, l₂, hbefore, hafter⟩ := h.split
  have hle : w.missed ≤ w'.missed := by
    rcases hseen with ⟨-, h⟩ | h <;> omega
  refine ⟨fun c' _ => ?_, h.missed ▸ hle, fun c' r' _ _ => ?_⟩
  · by_cases hc : c' = c
    · subst hc
      rw [hafter, ← hsame, hbefore, List.filter_append, List.filter_append,
        List.filter_cons_of_neg (by simp [hown])]
    · rw [h.elsewhere c' hc, hsame]
  · rw [h.missed, World.times, World.times]
    by_cases hc : c' = c
    · subst hc
      rw [hafter, ← hsame, hbefore, List.countP_append, List.countP_append, List.countP_cons]
      by_cases hr : r = r'
      · subst hr
        rw [← hsame, hbefore] at hseen
        simp only [decide_true, if_true]
        rcases hseen with ⟨hnot, -⟩ | hmissed
        · have hzero : (l₁ ++ l₂).countP (· = r) = 0 :=
            List.countP_eq_zero.mpr fun r' hr' heq => hnot (of_decide_eq_true heq ▸ hr')
          rw [List.countP_append] at hzero
          omega
        · omega
      · simp only [hr, decide_false, Bool.false_eq_true, if_false]
        omega
    · rw [h.elsewhere c' hc, hsame]
      omega

end Keeps

/-! ## What the programs do -/

section Programs

variable [DecidableEq κ] [DecidableEq ρ] {own : κ → ρ → Bool} {private_ : κ → Bool}
  {w w' : World κ ρ} {c : κ} {r : ρ} {add : κ → ρ → Shell κ ρ (Option Bool)}

omit [DecidableEq κ] [DecidableEq ρ] in
theorem next_eq_some {o : Outcome} (h : w.next = some (o, w')) :
    Same w w' ∧ ∃ script, w.script = o :: script ∧ w' = { w with script } := by
  unfold World.next at h
  split at h
  · cases h
  · rename_i hscript
    cases h
    exact ⟨⟨fun _ => rfl, rfl⟩, _, hscript, rfl⟩

omit [DecidableEq κ] [DecidableEq ρ] in
theorem run_ensures (effect : World κ ρ → Option (World κ ρ)) (w : World κ ρ) :
    Ensures (run effect) w
      (fun ok w' => (ok ≠ some true ∧ Same w w') ∨
        (ok = some true ∧ ∃ script, effect { w with script } = some w'))
      (Same w) := by
  refine command_ensures (fun _ => Same.refl w) (fun w₁ h => ?_) fun o w₁ ho h => ?_
  · obtain ⟨hsame, script, -, rfl⟩ := next_eq_some h
    cases heffect : effect { w with script } with
    | none => exact Or.inl ⟨fun heq => (nomatch heq), hsame⟩
    | some w' => exact Or.inr ⟨rfl, script, heffect⟩
  · exact Or.inl ⟨o.failure_ne, (next_eq_some h).1⟩

omit [DecidableEq κ] in
theorem look_ensures (c : κ) (r : ρ) (w : World κ ρ) :
    Ensures (look c r) w
      (fun seen w' => (∀ c, w'.rules c = w.rules c) ∧ w.missed ≤ w'.missed ∧
        (seen.getD false = true → w'.missed = w.missed ∧ r ∈ w.rules c) ∧
        (seen.getD false = false → r ∉ w.rules c ∨ w'.missed = w.missed + 1))
      (Same w) := by
  refine command_ensures (fun _ => Same.refl w) (fun w₁ h => ?_) fun o w₁ ho h => ?_
  · obtain ⟨-, script, -, rfl⟩ := next_eq_some h
    have hrules : ∀ c, ({ w with script } : World κ ρ).rules c = w.rules c := fun _ => rfl
    by_cases hr : r ∈ w.rules c <;> simp [hr, hrules]
  · obtain ⟨-, script, -, rfl⟩ := next_eq_some h
    have hrules : ∀ (missed : ℕ) (c : κ), ({ w with script, missed } : World κ ρ).rules c = w.rules c :=
      fun _ _ => rfl
    have hfailure : o.failure.getD false = false := by cases o <;> rfl
    by_cases hr : r ∈ w.rules c <;> simp [hr, hrules, hfailure]

/-- What an addition does. -/
def AddsRule (add : κ → ρ → Shell κ ρ (Option Bool)) : Prop := ∀ c r (w : World κ ρ),
  Ensures (add c r) w
    (fun ok w' => (ok ≠ some true ∧ Same w w') ∨ (ok = some true ∧ Added c r w w')) (Same w)

omit [DecidableEq ρ] in
theorem addsRule_insert : AddsRule (insert : κ → ρ → Shell κ ρ (Option Bool)) := by
  intro c r w
  refine (run_ensures _ w).mono ?_ fun _ h => h
  rintro ok w' (hnot | ⟨hok, script, heffect⟩)
  · exact Or.inl hnot
  · obtain ⟨l, hl, rfl⟩ := Option.map_eq_some_iff.mp heffect
    refine Or.inr ⟨hok, ⟨[], l, ?_, ?_⟩, fun c' hc => ?_, rfl⟩
    · simp [World.rules, show w.tables c = some l from hl]
    · simp [World.rules_set]
    · rw [World.rules_set, if_neg hc]
      rfl

omit [DecidableEq ρ] in
theorem addsRule_append : AddsRule (append : κ → ρ → Shell κ ρ (Option Bool)) := by
  intro c r w
  refine (run_ensures _ w).mono ?_ fun _ h => h
  rintro ok w' (hnot | ⟨hok, script, heffect⟩)
  · exact Or.inl hnot
  · obtain ⟨l, hl, rfl⟩ := Option.map_eq_some_iff.mp heffect
    refine Or.inr ⟨hok, ⟨l, [], ?_, ?_⟩, fun c' hc => ?_, rfl⟩
    · simp [World.rules, show w.tables c = some l from hl]
    · simp [World.rules_set]
    · rw [World.rules_set, if_neg hc]
      rfl

omit [DecidableEq κ] in
/-- **Looking first.** The rule is there in the end, unless the program failed or was stopped; and
nothing is lost, whichever it was. -/
theorem ensure_keeps (hadd : AddsRule add) (hown : own c r = true) (w : World κ ρ) :
    Ensures (ensure add c r) w
      (fun ok w' => Keeps own private_ w w' ∧ (∀ c' r', r' ∈ w.rules c' → r' ∈ w'.rules c') ∧
        (ok = some true → r ∈ w'.rules c))
      (Keeps own private_ w) := by
  unfold ensure
  refine ((look_ensures c r w).mono (fun _ _ h => h) fun _ h => h.keeps).bind ?_
  rintro seen w₁ ⟨hsame, hmissed, hseen, hunseen⟩
  cases hs : seen.getD false with
  | true =>
    obtain ⟨heq, hr⟩ := hseen hs
    exact ensures_pure ⟨Same.keeps ⟨hsame, heq⟩, fun c' r' h => hsame c' ▸ h, fun _ => hsame c ▸ hr⟩
  | false =>
    have hlook : Keeps own private_ w w₁ := by
      refine ⟨fun c _ => by rw [hsame], hmissed, fun c r _ _ => ?_⟩
      rw [World.times, hsame, World.times]
      omega
    refine (hadd c r w₁).mono ?_ fun w₂ h => hlook.trans h.keeps
    rintro ok w₂ (⟨hnot, h⟩ | ⟨hok, h⟩)
    · refine ⟨hlook.trans h.keeps, fun c' r' hr' => ?_, fun hok => absurd hok hnot⟩
      rw [h.rules, hsame]
      exact hr'
    · obtain ⟨l₁, l₂, hbefore, hafter⟩ := h.split
      refine ⟨h.keeps hown hsame ?_, fun c' r' hr' => ?_, fun _ => ?_⟩
      · exact (hunseen hs).imp (fun h => ⟨h, hmissed⟩) id
      · rw [← hsame] at hr'
        by_cases hc : c' = c
        · subst hc
          rw [hbefore, List.mem_append] at hr'
          rw [hafter, List.mem_append]
          exact hr'.imp id (List.mem_cons_of_mem r)
        · rwa [h.elsewhere c' hc]
      · rw [hafter]
        exact List.mem_append_right _ (List.mem_cons_self ..)

theorem delete_ensures (c : κ) (r : ρ) (w : World κ ρ) :
    Ensures (delete c r) w
      (fun ok w' => w'.script <:+ w.script ∧
        ((ok ≠ some true ∧ Same w w' ∧ ((∀ o ∈ w.script, o = .ran) → r ∉ w.rules c)) ∨
          (ok = some true ∧ w'.rules c = (w.rules c).eraseP (· = r) ∧
            (∀ c' ≠ c, w'.rules c' = w.rules c') ∧ w'.missed = w.missed)))
      (Same w) := by
  refine command_ensures (fun _ => Same.refl w) (fun w₁ h => ?_) fun o w₁ ho h => ?_
  · obtain ⟨hsame, script, hscript, rfl⟩ := next_eq_some h
    have hsuffix : script <:+ w.script := hscript ▸ List.suffix_cons .ran script
    by_cases hr : r ∈ w.rules c
    · simp only [show ({ w with script } : World κ ρ).rules c = w.rules c from rfl, hr, if_true]
      refine ⟨hsuffix, Or.inr ⟨trivial, ?_, fun c' hc' => ?_, rfl⟩⟩
      · rw [World.rules_set, if_pos rfl, Option.getD_some]
      · rw [World.rules_set, if_neg hc']
        rfl
    · simp only [show ({ w with script } : World κ ρ).rules c = w.rules c from rfl, hr, if_false]
      exact ⟨hsuffix, Or.inl ⟨by decide, hsame, fun _ => not_false⟩⟩
  · obtain ⟨hsame, script, hscript, rfl⟩ := next_eq_some h
    refine ⟨hscript ▸ List.suffix_cons o script, Or.inl ⟨o.failure_ne, hsame, fun hran => ?_⟩⟩
    exact absurd (hran o (hscript ▸ List.mem_cons_self ..)) ho

/-- **Deleting again and again**: so many of the rule go, where every command runs. -/
theorem removeAll_ensures (hown : own c r = true) (n : ℕ) (w : World κ ρ) :
    Ensures (removeAll c r n) w
      (fun _ w' => Keeps own private_ w w' ∧
        ((∀ o ∈ w.script, o = .ran) → w'.rules c = drain (· = r) n (w.rules c)))
      (Keeps own private_ w) := by
  induction n generalizing w with
  | zero => exact ensures_pure ⟨Keeps.refl w, fun _ => rfl⟩
  | succ n ih =>
    unfold removeAll
    refine ((delete_ensures c r w).mono (fun _ _ h => h) fun _ h => h.keeps).bind ?_
    rintro ok w₁ ⟨hsuffix, ⟨hnot, hsame, hnone⟩ | ⟨rfl, hrules, helsewhere, hmissed⟩⟩
    · have hstop : ok.getD false = false := by
        rcases ok with _ | _ | _
        · rfl
        · rfl
        · exact absurd rfl hnot
      simp only [hstop, Bool.false_eq_true, if_false]
      refine ensures_pure ⟨hsame.keeps, fun hran => ?_⟩
      rw [hsame.rules, drain_of_forall_not]
      rintro r' hr' heq
      exact hnone hran (of_decide_eq_true heq ▸ hr')
    · have hdelete : Keeps own private_ w w₁ := by
        refine ⟨fun c' _ => ?_, hmissed.ge, fun c' r' _ _ => ?_⟩
        · by_cases hc : c' = c
          · subst hc
            rw [hrules]
            refine filter_eraseP (fun r' hr' heq => ?_) _
            rw [of_decide_eq_true heq, hown] at hr'
            cases hr'
          · rw [helsewhere c' hc]
        · rw [hmissed, World.times, World.times]
          by_cases hc : c' = c
          · subst hc
            rw [hrules]
            have hle := (List.eraseP_sublist (p := fun r' => decide (r' = r))
              (l := w.rules c')).countP_le (p := fun r => decide (r = r'))
            omega
          · rw [helsewhere c' hc]
            omega
      simp only [Option.getD_some, if_true]
      refine (ih w₁).mono (fun _ w₂ h => ⟨hdelete.trans h.1, fun hran => ?_⟩) fun w₂ h =>
        hdelete.trans h
      rw [h.2 fun o ho => hran o (hsuffix.subset ho), hrules]
      rfl

theorem private_keeps (hc : private_ c = true) {effect : World κ ρ → Option (World κ ρ)}
    (heffect : ∀ w w', effect w = some w' → ∃ l, w' = w.set c l) (w : World κ ρ) :
    Ensures (run effect) w
      (fun _ w' => Keeps own private_ w w' ∧ ∀ c', private_ c' = false → w'.rules c' = w.rules c')
      (Keeps own private_ w) := by
  refine (run_ensures effect w).mono ?_ fun _ h => h.keeps
  rintro ok w' (⟨-, h⟩ | ⟨-, script, h⟩)
  · exact ⟨h.keeps, fun c' _ => h.rules c'⟩
  · obtain ⟨l, rfl⟩ := heffect _ _ h
    have hrules : ∀ c', private_ c' = false →
        (World.set { w with script } c l).rules c' = w.rules c' := by
      intro c' hc'
      have hne : c' ≠ c := by
        rintro rfl
        rw [hc] at hc'
        cases hc'
      rw [World.rules_set, if_neg hne]
      rfl
    refine ⟨⟨fun c' hc' => by rw [hrules c' hc'], Nat.le_refl _, fun c' r hc' _ => ?_⟩, hrules⟩
    rw [World.times, hrules c' hc']
    exact Nat.add_le_add_right (Nat.le_max_left _ _) _

end Programs

end Chains
