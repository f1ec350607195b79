import Mathlib.Data.List.Chain
import Mathlib.Data.List.Nodup
import Vlb.Lib.Words
import Vlb.Selection

/-!
# Status frames

The status of the providers is printed where it has changed, and otherwise once in a while. What
matters of it is put into a text, which is compared with the text of the last frame.

* `Situation`: what there is to be said.
* `statusFingerprint`: the text of a situation.
* `poll`: a turn of the loop.
* `statusFingerprint_eq_iff`: the text tells two situations apart.
* **`frames_of_run`**: no change goes unprinted, and nothing else is printed before its time.
-/

namespace Vlb.StatusLoop

open Text

/-! ## Fingerprints -/

/-- `State::as_str`. -/
def stateText : HealthState → String
  | .up => "up"
  | .down => "down"
  | .unknown => "unknown"

/-- A provider's priority, its name and its state. -/
structure Entry where
  priority : UInt32
  name : String
  state : HealthState
  deriving DecidableEq

/-- What is read of the state, with the providers in whatever order the map has them. -/
structure Situation where
  active : Option String
  forced : Option String
  providers : List Entry

/-- The order of the tuples. -/
def Entry.le (a b : Entry) : Bool :=
  decide (a.priority < b.priority) ||
    a.priority == b.priority && (decide (a.name < b.name) ||
      a.name == b.name && decide (stateText a.state ≤ stateText b.state))

/-- A provider and its state. -/
def Entry.text (e : Entry) : List Char := e.name.toList ++ '=' :: (stateText e.state).toList

/-- In the order of their priorities. -/
def sorted (s : Situation) : List Entry := s.providers.mergeSort Entry.le

/-- The text by which the loop tells whether something has changed. -/
def statusFingerprint (s : Situation) : List Char :=
  "active=".toList ++ (s.active.getD "").toList ++ ' ' :: ("forced=".toList ++
    (s.forced.getD "").toList ++ ' ' :: [' '].intercalate ((sorted s).map Entry.text))

/-! ## The loop -/

/-- Instants are in nanoseconds. -/
def statusDue (last : Option (List Char × ℕ)) (fingerprint : List Char) (now everySecs : ℕ) : Bool :=
  match last with
  | none => true
  | some (printed, at_) =>
    decide (printed ≠ fingerprint) ||
      decide (0 < everySecs) && decide (everySecs * 1000000000 ≤ now - at_)

/-- A turn of the loop: what it sees, and when. What it prints is read a little later. -/
structure Poll where
  seen : Situation
  now : ℕ

/-- The last frame, with the time it was printed at. -/
structure Printer where
  last : Option (List Char × ℕ)
  /-- The turns in which something has been printed. -/
  frames : List Poll

/-- One turn of the loop. -/
def poll (everySecs : ℕ) (l : Printer) (p : Poll) : Printer :=
  let fingerprint := statusFingerprint p.seen
  if statusDue l.last fingerprint p.now everySecs then
    { last := some (fingerprint, p.now), frames := l.frames ++ [p] }
  else l

/-- The first turn prints. -/
def run (everySecs : ℕ) (ps : List Poll) : Printer := ps.foldl (poll everySecs) ⟨none, []⟩

/-! ## What a fingerprint says -/

/-- It may be a situation of these providers. -/
structure Situation.Of (s : Situation) (cfg : Config) : Prop where
  active : ∀ name ∈ s.active, name ∈ cfg.providers.map Provider.name
  forced : ∀ name ∈ s.forced, name ∈ cfg.providers.map Provider.name
  providers : (s.providers.map fun e => (e.priority, e.name)).Perm
    (cfg.providers.map fun p => (p.priority, p.name))

/-- There is the same to be said. -/
structure Situation.Same (s s' : Situation) : Prop where
  active : s.active = s'.active
  forced : s.forced = s'.forced
  providers : s.providers.Perm s'.providers

theorem Entry.le_trans {a b c : Entry} (hab : a.le b = true) (hbc : b.le c = true) :
    a.le c = true := by
  unfold Entry.le at *
  grind [String.lt_trans, String.le_trans, UInt32.lt_trans]

theorem Entry.le_total (a b : Entry) : (a.le b || b.le a) = true := by
  unfold Entry.le
  grind

theorem Entry.priority_le {a b : Entry} (h : a.le b = true) : a.priority ≤ b.priority := by
  unfold Entry.le at h
  grind

theorem stateText_injective : Function.Injective stateText := by
  intro x y h
  cases x <;> cases y <;> first | rfl | exact absurd h (by decide)

/-- The priority and the name come first, so that the text tells the state. -/
theorem Entry.text_injective :
    Function.Injective fun e : Entry => ((e.priority, e.name), e.text) := by
  rintro ⟨p, n, x⟩ ⟨p', n', x'⟩ heq
  simp only [Entry.text, Prod.mk.injEq] at heq
  obtain ⟨⟨rfl, rfl⟩, htext⟩ := heq
  have hstate := List.cons.inj (List.append_cancel_left htext)
  rw [stateText_injective (String.toList_inj.mp hstate.2)]

theorem eq_of_getD_eq {x y : Option String} (hx : ∀ name ∈ x, name ≠ "")
    (hy : ∀ name ∈ y, name ≠ "") (h : x.getD "" = y.getD "") : x = y := by
  cases x with
  | none =>
    cases y with
    | none => rfl
    | some b => exact absurd h.symm (hy b rfl)
  | some a =>
    cases y with
    | none => exact absurd h (hx a rfl)
    | some b => exact congrArg some h

theorem eq_of_perm_of_priority {α : Type} {f : α → UInt32} {l l' : List α}
    (hl : l.Pairwise fun a b => f a ≤ f b) (hl' : l'.Pairwise fun a b => f a ≤ f b)
    (hperm : l.Perm l') (hnodup : (l.map f).Nodup) : l = l' :=
  hperm.eq_of_pairwise (fun _ _ ha hb hab hba => List.inj_on_of_nodup_map hnodup ha
    (hperm.mem_iff.mpr hb) (UInt32.le_antisymm hab hba)) hl hl'

section Sorted

variable {s s' : Situation} {cfg : Config}

theorem sorted_perm (s : Situation) : (sorted s).Perm s.providers := List.mergeSort_perm _ _

theorem sorted_pairwise (s : Situation) :
    (sorted s).Pairwise fun a b => a.priority ≤ b.priority := by
  have hsorted : (s.providers.mergeSort Entry.le).Pairwise fun a b => Entry.le a b = true := by
    refine List.pairwise_mergeSort ?_ ?_ _
    · exact fun a b c hab hbc => Entry.le_trans hab hbc
    · exact Entry.le_total
  exact hsorted.imp Entry.priority_le

theorem Situation.Of.priorities_nodup (hcfg : cfg.Accepted) (h : s.Of cfg) :
    (s.providers.map Entry.priority).Nodup := by
  have hperm := h.providers.map Prod.fst
  simp only [List.map_map, Function.comp_def] at hperm
  exact hperm.nodup_iff.mpr (Config.priorities_nodup hcfg)

theorem sorted_eq_of_perm (hcfg : cfg.Accepted) (hs : s.Of cfg)
    (hperm : s.providers.Perm s'.providers) : sorted s = sorted s' := by
  refine eq_of_perm_of_priority (sorted_pairwise s) (sorted_pairwise s')
    ((sorted_perm s).trans (hperm.trans (sorted_perm s').symm)) ?_
  exact ((sorted_perm s).map _).nodup_iff.mpr (hs.priorities_nodup hcfg)

theorem sorted_names (hcfg : cfg.Accepted) (hs : s.Of cfg) (hs' : s'.Of cfg) :
    (sorted s).map (fun e => (e.priority, e.name)) =
      (sorted s').map fun e => (e.priority, e.name) := by
  refine eq_of_perm_of_priority (f := Prod.fst) ?_ ?_ ?_ ?_
  · exact List.pairwise_map.mpr (sorted_pairwise s)
  · exact List.pairwise_map.mpr (sorted_pairwise s')
  · exact ((sorted_perm s).map _).trans (hs.providers.trans
      (hs'.providers.symm.trans ((sorted_perm s').map _).symm))
  · rw [List.map_map]
    exact ((sorted_perm s).map _).nodup_iff.mpr (hs.priorities_nodup hcfg)

end Sorted

/-! ## Words -/

section Words

variable {s s' : Situation} {cfg : Config}

theorem name_plain (hcfg : cfg.Accepted) {name : String}
    (h : name ∈ cfg.providers.map Provider.name) : Plain name.toList ∧ name ≠ "" := by
  obtain ⟨p, hp, rfl⟩ := List.mem_map.mp h
  have hproviders := (Config.accepted_iff.mp hcfg).1
  simp only [validateProviders, bind_eq_ok, forM_eq_ok] at hproviders
  have hvalid := hproviders.2.2.2 p hp
  simp only [Provider.validate, bind_eq_ok, bailIf_eq_ok] at hvalid
  obtain ⟨hempty, hblank, -⟩ := hvalid
  constructor
  · intro c hc
    by_contra hwhite
    exact hblank (List.any_eq_true.mpr ⟨c, hc, by simpa using hwhite⟩)
  · intro heq
    rw [heq] at hempty
    exact hempty (by decide)

theorem Entry.text_plain {e : Entry} (h : Plain e.name.toList) : Plain e.text := by
  have hstate : Plain ('=' :: (stateText e.state).toList) := by
    cases e.state <;> decide
  exact List.forall_mem_append.mpr ⟨h, hstate⟩

/-- The text between its blanks. -/
def wordsOf (s : Situation) : List (List Char) :=
  ("active=".toList ++ (s.active.getD "").toList) :: ("forced=".toList ++ (s.forced.getD "").toList) ::
    (sorted s).map Entry.text

theorem sorted_ne_nil (hcfg : cfg.Accepted) (hs : s.Of cfg) : sorted s ≠ [] := by
  intro hnil
  have hproviders := (Config.accepted_iff.mp hcfg).1
  simp only [validateProviders, bind_eq_ok, bailIf_eq_ok] at hproviders
  have hlength := ((sorted_perm s).map fun e => (e.priority, e.name)).trans hs.providers
  rw [hnil, List.map_nil, List.nil_perm, List.map_eq_nil_iff] at hlength
  exact hproviders.1 (List.isEmpty_iff.mpr hlength)

theorem words_statusFingerprint (hcfg : cfg.Accepted) (hs : s.Of cfg) :
    words (statusFingerprint s) = wordsOf s := by
  have hname {x : Option String} (hx : ∀ name ∈ x, name ∈ cfg.providers.map Provider.name) :
      Plain (x.getD "").toList := by
    cases x with
    | none => exact fun c hc => absurd hc List.not_mem_nil
    | some name => exact (name_plain hcfg (hx name rfl)).1
  have hentry : ∀ e ∈ sorted s, e.text ≠ [] ∧ Plain e.text := by
    intro e he
    have hkey := hs.providers.mem_iff.mp
      (List.mem_map_of_mem ((sorted_perm s).mem_iff.mp he))
    obtain ⟨p, hp, heq⟩ := List.mem_map.mp hkey
    have hplain := (name_plain hcfg (List.mem_map_of_mem hp)).1
    rw [(Prod.mk.inj heq).2] at hplain
    exact ⟨by simp [Entry.text], Entry.text_plain hplain⟩
  have hfingerprint : statusFingerprint s = [' '].intercalate (wordsOf s) := by
    obtain ⟨e, es, hsorted⟩ := List.exists_cons_of_ne_nil (sorted_ne_nil hcfg hs)
    unfold statusFingerprint wordsOf
    generalize "active=".toList ++ (s.active.getD "").toList = active
    generalize "forced=".toList ++ (s.forced.getD "").toList = forced
    rw [hsorted, List.map_cons, List.intercalate_cons_cons, List.intercalate_cons_cons]
    simp only [List.append_assoc, List.cons_append, List.nil_append]
  rw [hfingerprint, words_spaced]
  unfold wordsOf
  rw [List.forall_mem_cons, List.forall_mem_cons, List.forall_mem_map]
  have hactive : Plain "active=".toList := by decide
  have hforced : Plain "forced=".toList := by decide
  exact ⟨⟨List.append_ne_nil_of_left_ne_nil (by decide) _,
      List.forall_mem_append.mpr ⟨hactive, hname hs.active⟩⟩,
    ⟨List.append_ne_nil_of_left_ne_nil (by decide) _,
      List.forall_mem_append.mpr ⟨hforced, hname hs.forced⟩⟩, hentry⟩

/-- **The text tells two situations apart.** -/
theorem statusFingerprint_eq_iff (hcfg : cfg.Accepted) (hs : s.Of cfg) (hs' : s'.Of cfg) :
    statusFingerprint s = statusFingerprint s' ↔ s.Same s' := by
  constructor
  · intro h
    have hwords : wordsOf s = wordsOf s' := by
      rw [← words_statusFingerprint hcfg hs, ← words_statusFingerprint hcfg hs', h]
    simp only [wordsOf, List.cons.injEq, List.append_cancel_left_eq, String.toList_inj] at hwords
    obtain ⟨hactive, hforced, htexts⟩ := hwords
    refine ⟨eq_of_getD_eq ?_ ?_ hactive, eq_of_getD_eq ?_ ?_ hforced, ?_⟩
    · exact fun name hname => (name_plain hcfg (hs.active name hname)).2
    · exact fun name hname => (name_plain hcfg (hs'.active name hname)).2
    · exact fun name hname => (name_plain hcfg (hs.forced name hname)).2
    · exact fun name hname => (name_plain hcfg (hs'.forced name hname)).2
    · have hzip (l : List Entry) : (l.map fun e => (e.priority, e.name)).zip (l.map Entry.text) =
          l.map fun e => ((e.priority, e.name), e.text) := List.zip_map'
      have hboth : (sorted s).map (fun e => ((e.priority, e.name), e.text)) =
          (sorted s').map fun e => ((e.priority, e.name), e.text) := by
        rw [← hzip, ← hzip, sorted_names hcfg hs hs', htexts]
      have hsorted := List.map_injective_iff.mpr Entry.text_injective hboth
      exact (sorted_perm s).symm.trans (hsorted ▸ sorted_perm s')
  · intro h
    have hsorted := sorted_eq_of_perm hcfg hs h.providers
    unfold statusFingerprint
    rw [h.active, h.forced, hsorted]

end Words

/-! ## Runs -/

/-- Between two frames that follow each other something has changed, or it is time. -/
def Paced (everySecs : ℕ) (f g : Poll) : Prop :=
  ¬ f.seen.Same g.seen ∨ 0 < everySecs ∧ f.now + everySecs * 1000000000 ≤ g.now

theorem run_concat (everySecs : ℕ) (ps : List Poll) (p : Poll) :
    run everySecs (ps ++ [p]) = poll everySecs (run everySecs ps) p := by
  rw [run, List.foldl_append]
  rfl

theorem last_run (everySecs : ℕ) (ps : List Poll) : (run everySecs ps).last =
    (run everySecs ps).frames.getLast?.map fun f => (statusFingerprint f.seen, f.now) := by
  induction ps using List.reverseRecOn with
  | nil => rfl
  | append_singleton ps p ih =>
    rw [run_concat, poll]
    split_ifs
    · rw [List.getLast?_concat, Option.map_some]
    · exact ih

theorem mem_frames {everySecs : ℕ} {ps : List Poll} {f : Poll}
    (h : f ∈ (run everySecs ps).frames) : f ∈ ps := by
  induction ps using List.reverseRecOn with
  | nil => cases h
  | append_singleton ps p ih =>
    rw [run_concat, poll] at h
    split_ifs at h
    · rcases List.mem_append.mp h with h | h
      · exact List.mem_append_left _ (ih h)
      · exact List.mem_append_right _ h
    · exact List.mem_append_left _ (ih h)

/-- **No change goes unprinted**, over every run of the loop: after each turn the last frame is of
a turn that has seen the same. And nothing is printed twice before its time. -/
theorem frames_of_run {cfg : Config} (hcfg : cfg.Accepted) (everySecs : ℕ) {ps : List Poll}
    (hps : ∀ p ∈ ps, p.seen.Of cfg) :
    (∀ p ∈ ps.getLast?, ∃ f ∈ (run everySecs ps).frames.getLast?, f.seen.Same p.seen) ∧
      (run everySecs ps).frames.IsChain (Paced everySecs) := by
  induction ps using List.reverseRecOn with
  | nil => exact ⟨fun p hp => absurd hp (by simp), List.IsChain.nil⟩
  | append_singleton ps p ih =>
    rw [List.forall_mem_append, List.forall_mem_singleton] at hps
    have hlast := last_run everySecs ps
    rw [run_concat, poll]
    by_cases hdue : statusDue (run everySecs ps).last (statusFingerprint p.seen) p.now everySecs = true
    · rw [if_pos hdue]
      constructor
      · intro q hq
        rw [List.getLast?_concat, Option.mem_some_iff] at hq
        exact ⟨p, by simp, hq ▸ ⟨rfl, rfl, List.Perm.refl _⟩⟩
      · rw [List.isChain_append]
        refine ⟨(ih hps.1).2, List.isChain_singleton _, ?_⟩
        intro f hf g hg
        rw [List.head?_cons, Option.mem_some_iff] at hg
        subst hg
        have hof := hps.1 f (mem_frames (List.mem_of_getLast? hf))
        rw [hlast, hf, Option.map_some] at hdue
        simp only [statusDue, Bool.or_eq_true, Bool.and_eq_true, decide_eq_true_eq] at hdue
        obtain hchanged | ⟨hpos, htime⟩ := hdue
        · exact Or.inl fun hsame => hchanged ((statusFingerprint_eq_iff hcfg hof hps.2).mpr hsame)
        · exact Or.inr ⟨hpos, by omega⟩
    · rw [if_neg hdue]
      refine ⟨?_, (ih hps.1).2⟩
      intro q hq
      rw [List.getLast?_concat, Option.mem_some_iff] at hq
      subst hq
      cases hframe : (run everySecs ps).frames.getLast? with
      | none =>
        rw [hlast, hframe] at hdue
        exact absurd rfl hdue
      | some f =>
        have hof := hps.1 f (mem_frames (List.mem_of_getLast? hframe))
        rw [hlast, hframe, Option.map_some] at hdue
        simp only [statusDue, Bool.or_eq_true, decide_eq_true_eq, not_or, not_not] at hdue
        exact ⟨f, rfl, (statusFingerprint_eq_iff hcfg hof hps.2).mp hdue.1⟩

def bothUp (active : String) : Situation :=
  ⟨some active, none, [⟨5, "lte", .up⟩, ⟨0, "fibre", .up⟩]⟩

theorem of_bothUp {active : String} (h : active ∈ ["fibre", "lte"]) :
    (bothUp active).Of Config.twoUplinks where
  active := fun name hname => by
    rw [← Option.mem_some_iff.mp hname]
    exact h
  forced := fun name hname => by cases hname
  providers := List.Perm.swap _ _ _

/-- The traffic moves between two turns, and this is printed though no time has been set. -/
theorem frames_of_run_moved :
    ∃ f ∈ (run 0 [⟨bothUp "fibre", 0⟩, ⟨bothUp "lte", 1⟩]).frames.getLast?,
      f.seen.Same (bothUp "lte") :=
  (frames_of_run (show Config.twoUplinks.Accepted by decide +kernel) 0 (by
    rw [List.forall_mem_cons, List.forall_mem_singleton]
    exact ⟨of_bothUp (by decide), of_bothUp (by decide)⟩)).1 ⟨bothUp "lte", 1⟩ rfl

end Vlb.StatusLoop
