import Vlb.Lib.Streak

/-!
# What a machine has said

A machine answers each of its inputs. What it says is judged by what it has said before.

* `journal`: its answers to a list of inputs.
* `Throughout`: every entry of a list is as a law has it, after the entries before it.
* **`throughout_journal`**: a law holds throughout where an invariant of the past and the state
  carries it over each step.
* `latest`: the last entry of the past that counts.
-/

namespace Journal

open Streak

variable {σ ι α : Type*}

/-- The answers to the inputs, one after the other. -/
def journal (step : σ → ι → α × σ) : σ → List ι → List α
  | _, [] => []
  | s, i :: is => (step s i).1 :: journal step (step s i).2 is

/-- Every entry is as the law has it, after those before it. -/
def Throughout (law : List α → α → Prop) (l : List α) : Prop :=
  ∀ before x after, l = before ++ x :: after → law before x

variable {law ok : List α → α → Prop} {l : List α} {x : α}

theorem throughout_nil : Throughout law [] := by
  intro before x after h
  simp at h

/-- The law of a tail is that of the list, with the head among the entries before. -/
theorem throughout_cons : Throughout law (x :: l) ↔
    law [] x ∧ Throughout (fun before => law (x :: before)) l := by
  constructor
  · intro h
    refine ⟨h [] x l rfl, fun before y after hl => h (x :: before) y after ?_⟩
    rw [hl, List.cons_append]
  · rintro ⟨hx, htail⟩ before y after h
    cases before with
    | nil =>
      obtain ⟨rfl, -⟩ := List.cons.inj h
      exact hx
    | cons b before =>
      obtain ⟨rfl, hl⟩ := List.cons.inj h
      exact htail before y after hl

theorem Throughout.and (h : Throughout law l) (hok : Throughout ok l) :
    Throughout (fun before x => law before x ∧ ok before x) l :=
  fun before x after hl => ⟨h before x after hl, hok before x after hl⟩

theorem Throughout.imp {law' : List α → α → Prop} (h : Throughout law l)
    (himp : ∀ before x, law before x → law' before x) : Throughout law' l :=
  fun before x after hl => himp before x (h before x after hl)

theorem throughout_of_pairwise {R : α → α → Prop} (h : l.Pairwise R) :
    Throughout (fun before x => ∀ b ∈ before, R b x) l := by
  rintro before x after rfl b hb
  exact (List.pairwise_append.mp h).2.2 b hb x List.mem_cons_self

theorem map_journal {β : Type*} {step : σ → ι → α × σ} {f : α → β} {g : ι → β}
    (h : ∀ s i, f (step s i).1 = g i) (s : σ) (is : List ι) :
    (journal step s is).map f = is.map g := by
  induction is generalizing s with
  | nil => rfl
  | cons i is ih => rw [journal, List.map_cons, List.map_cons, h, ih]

/-- **A law holds throughout a journal** where an invariant carries it over each step, as long as the
answers are as they may be. -/
theorem throughout_journal {step : σ → ι → α × σ} {Inv : List α → σ → Prop}
    (hstep : ∀ before s i, Inv before s → ok before (step s i).1 →
      law before (step s i).1 ∧ Inv (before ++ [(step s i).1]) (step s i).2)
    {s : σ} (hinit : Inv [] s) {is : List ι} (hok : Throughout ok (journal step s is)) :
    Throughout law (journal step s is) := by
  -- the past grows while the inputs are used up
  suffices hrun : ∀ is past s, Inv past s →
      Throughout (fun before => ok (past ++ before)) (journal step s is) →
      Throughout (fun before => law (past ++ before)) (journal step s is) from
    hrun is [] s hinit hok
  intro is
  induction is with
  | nil => exact fun _ _ _ _ => throughout_nil
  | cons i is ih =>
    intro past s hinv hok
    rw [journal, throughout_cons] at hok ⊢
    obtain ⟨hhead, htail⟩ := hok
    rw [List.append_nil] at hhead
    obtain ⟨hlaw, hnext⟩ := hstep past s i hinv hhead
    refine ⟨by rwa [List.append_nil], ?_⟩
    simpa using ih (past ++ [(step s i).1]) _ hnext (by simpa using htail)

/-- The last entry that counts. -/
def latest (p : α → Bool) (l : List α) : Option α := (l.filter p).getLast?

@[simp] theorem latest_nil (p : α → Bool) : latest p [] = none := rfl

theorem latest_concat (p : α → Bool) (l : List α) (x : α) :
    latest p (l ++ [x]) = if p x then some x else latest p l := by
  rw [latest, List.filter_append]
  split_ifs with h
  · rw [List.filter_cons_of_pos h, List.filter_nil, List.getLast?_concat]
  · rw [List.filter_cons_of_neg h, List.filter_nil, List.append_nil, latest]

theorem streak_lt {p : α → Bool} (hx : x ∈ l) (hp : p x = false) : streak p l < l.length := by
  refine Nat.lt_of_le_of_ne (List.rtakeWhile_suffix p l).length_le fun heq => ?_
  have hall := (List.rtakeWhile_suffix p l).eq_of_length heq
  rw [← hall] at hx
  rw [List.mem_rtakeWhile_imp hx] at hp
  cases hp

end Journal
