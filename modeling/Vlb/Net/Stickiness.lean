import Vlb.Lib.Transition
import Vlb.Net.Marks

/-!
# Connections keep their provider

Packets of any connections cross the pinning chain in any order, while `install` rewrites the chain
for one provider after another.

* `Flows`, `Flows.step`: the chain and the tracked connections; one packet, or one rewrite.
* `StampedAs`: a packet crossed the chain, and its connection has been tracked since.
* `step_stamp`: a stamp outlives every step but the loss of its entry.
* **`sticky`**: the stamp of a connection stays, its packets leave with it, replies are left alone,
  and so are the bits outside the mask.
-/

namespace Vlb.Pin

open Netfilter Transition

/-- The chain that packets cross, and the mark of each tracked connection. -/
structure Flows where
  chain : List (Rule 32)
  conntrack : ℕ → Option (BitVec 32)

/-- What happens to the chain and to the connections. -/
inductive FlowEvent
  /-- The chain is rewritten for a provider. -/
  | install (p : Provider)
  | packet (conn : ℕ) (d : Direction) (nfmark : BitVec 32)
  /-- The kernel makes an entry for a connection; `mark` is what others have put there. -/
  | track (conn : ℕ) (mark : BitVec 32)
  | evict (conn : ℕ)

namespace Flows

/-- The marks with which a packet of a tracked connection leaves the chain. -/
def crossing (s : Flows) (conn : ℕ) (d : Direction) (nfmark : BitVec 32) : Option (Marks 32) :=
  (s.conntrack conn).map fun mark => traverse d s.chain ⟨nfmark, mark⟩

/-- The entry of a connection. -/
def setEntry (s : Flows) (conn : ℕ) (mark : Option (BitVec 32)) : Flows :=
  { s with conntrack := Function.update s.conntrack conn mark }

@[simp] theorem setEntry_self (s : Flows) (conn : ℕ) (mark : Option (BitVec 32)) :
    (s.setEntry conn mark).conntrack conn = mark := Function.update_self _ _ _

theorem setEntry_of_ne (s : Flows) {conn conn' : ℕ} (mark : Option (BitVec 32))
    (h : conn ≠ conn') : (s.setEntry conn' mark).conntrack conn = s.conntrack conn :=
  Function.update_of_ne h _ _

/-- A packet crosses the chain where its connection is tracked. -/
def step (cfg : Config) (s : Flows) : FlowEvent → Option Flows
  | .install p =>
    if p ∈ cfg.providers then some { s with chain := Pin.install cfg (cfg.markFor p) s.chain }
    else none
  | .packet conn d nfmark =>
    (s.crossing conn d nfmark).map fun m => s.setEntry conn (some m.connection)
  | .track conn mark =>
    if s.conntrack conn = none then some (s.setEntry conn (some mark)) else none
  | .evict conn => some (s.setEntry conn none)

/-- The mark of a connection under the mask. -/
def stamp (cfg : Config) (s : Flows) (conn : ℕ) : Option (BitVec 32) :=
  (s.conntrack conn).map (· &&& mask cfg)

end Flows

variable {cfg : Config} {s s₀ t : Flows} {e : FlowEvent} {es : List FlowEvent} {conn : ℕ}
  {mark : BitVec 32}

/-- The marks are usable: nonzero, and within the mask. -/
def Usable (cfg : Config) : Prop := ∀ p ∈ cfg.providers, cfg.markFor p ≠ 0 ∧ InMask cfg p

instance (cfg : Config) : Decidable (Usable cfg) := inferInstanceAs (Decidable (∀ p ∈ _, _))

/-- There is no chain yet, or it is one that `install` wrote. -/
def Written (cfg : Config) (chain : List (Rule 32)) : Prop :=
  chain = [] ∨ ∃ p ∈ cfg.providers, chain = rules cfg (cfg.markFor p)

/-- An original packet of the connection has crossed the chain and left it stamped with `mark`;
the connection has been tracked ever since. -/
def StampedAs (cfg : Config) (conn : ℕ) (mark : BitVec 32) (s₀ : Flows) (es : List FlowEvent) :
    Prop :=
  Since (Flows.step cfg) (fun u => u.conntrack conn ≠ none)
    (fun u e v => (∃ nfmark, e = .packet conn .original nfmark) ∧ u.chain ≠ [] ∧
      v.stamp cfg conn = some mark) s₀ es

theorem step_chain_cases (hstep : s.step cfg e = some t) :
    t.chain = s.chain ∨ ∃ p ∈ cfg.providers, t.chain = rules cfg (cfg.markFor p) := by
  cases e with
  | install p =>
    simp only [Flows.step] at hstep
    split_ifs at hstep with hp
    cases hstep
    unfold Pin.install
    split_ifs
    · exact Or.inr ⟨p, hp, rfl⟩
    · exact Or.inl rfl
  | packet c d nfmark =>
    obtain ⟨m, -, rfl⟩ := Option.map_eq_some_iff.mp hstep
    exact Or.inl rfl
  | track c mark =>
    simp only [Flows.step] at hstep
    split_ifs at hstep
    cases hstep
    exact Or.inl rfl
  | evict c =>
    cases hstep
    exact Or.inl rfl

theorem Written.step (h : Written cfg s.chain) (hstep : s.step cfg e = some t) :
    Written cfg t.chain := by
  rcases step_chain_cases hstep with hkept | ⟨p, hp, hwritten⟩
  · rwa [hkept]
  · exact Or.inr ⟨p, hp, hwritten⟩

theorem step_chain_ne_nil (h : s.chain ≠ []) (hstep : s.step cfg e = some t) : t.chain ≠ [] := by
  rcases step_chain_cases hstep with hkept | ⟨p, -, hwritten⟩
  · rwa [hkept]
  · rw [hwritten]
    simp [rules]

/-! ## One packet -/

theorem traverse_written_ne_zero (husable : Usable cfg) {chain : List (Rule 32)}
    (hchain : Written cfg chain) (hne : chain ≠ []) (m : Marks 32) :
    (traverse .original chain m).connection &&& mask cfg ≠ 0 := by
  obtain ⟨p, hp, rfl⟩ := hchain.resolve_left hne
  by_cases hm : m.connection &&& mask cfg = 0
  · rw [(traverse_rules_fresh _ m hm).1, show _ = _ from (husable p hp).2]
    exact fun hzero => (husable p hp).1 (UInt32.toBitVec_inj.mp hzero)
  · rwa [traverse_rules_stamped _ m hm]

theorem traverse_written_stamped {chain : List (Rule 32)} (hchain : Written cfg chain)
    (d : Direction) (m : Marks 32) (hm : m.connection &&& mask cfg ≠ 0) :
    (traverse d chain m).connection = m.connection := by
  rcases hchain with rfl | ⟨p, -, rfl⟩
  · rfl
  · cases d with
    | reply => rw [traverse_rules_reply]
    | original => exact traverse_rules_stamped _ m hm

theorem traverse_written_reply {chain : List (Rule 32)} (hchain : Written cfg chain)
    (m : Marks 32) : traverse .reply chain m = m := by
  rcases hchain with rfl | ⟨p, -, rfl⟩
  · rfl
  · rw [traverse_rules_reply]

theorem traverse_written_outside (husable : Usable cfg) {chain : List (Rule 32)}
    (hchain : Written cfg chain) (d : Direction) (m : Marks 32) :
    (traverse d chain m).packet &&& ~~~mask cfg = m.packet &&& ~~~mask cfg ∧
      (traverse d chain m).connection &&& ~~~mask cfg = m.connection &&& ~~~mask cfg := by
  rcases hchain with rfl | ⟨p, hp, rfl⟩
  · exact ⟨rfl, rfl⟩
  · exact traverse_rules_outside (husable p hp).2 d m

/-! ## Runs -/

theorem stamp_eq_some_iff :
    s.stamp cfg conn = some mark ↔ ∃ c, s.conntrack conn = some c ∧ c &&& mask cfg = mark := by
  rw [Flows.stamp, Option.map_eq_some_iff]

/-- **One step**: a stamp stays for as long as the connection is tracked. -/
theorem step_stamp (hchain : Written cfg s.chain) (hstamp : s.stamp cfg conn = some mark)
    (hmark : mark ≠ 0) (hstep : s.step cfg e = some t) (hkept : t.conntrack conn ≠ none) :
    t.stamp cfg conn = some mark := by
  obtain ⟨c, hc, hcmark⟩ := stamp_eq_some_iff.mp hstamp
  cases e with
  | install p =>
    simp only [Flows.step] at hstep
    split_ifs at hstep
    cases hstep
    exact hstamp
  | packet conn' d nfmark =>
    obtain ⟨m, hm, rfl⟩ := Option.map_eq_some_iff.mp hstep
    by_cases hconn : conn = conn'
    · subst hconn
      rw [Flows.crossing, hc, Option.map_some] at hm
      cases hm
      have hsame := traverse_written_stamped hchain d ⟨nfmark, c⟩ (hcmark ▸ hmark)
      exact stamp_eq_some_iff.mpr ⟨c, by rw [Flows.setEntry_self, hsame], hcmark⟩
    · exact stamp_eq_some_iff.mpr ⟨c, by rw [Flows.setEntry_of_ne _ _ hconn, hc], hcmark⟩
  | track conn' mark' =>
    simp only [Flows.step] at hstep
    split_ifs at hstep with hnone
    cases hstep
    have hconn : conn ≠ conn' := by
      rintro rfl
      rw [hc] at hnone
      cases hnone
    exact stamp_eq_some_iff.mpr ⟨c, by rw [Flows.setEntry_of_ne _ _ hconn, hc], hcmark⟩
  | evict conn' =>
    cases hstep
    have hconn : conn ≠ conn' := by
      rintro rfl
      exact hkept (s.setEntry_self conn none)
    exact stamp_eq_some_iff.mpr ⟨c, by rw [Flows.setEntry_of_ne _ _ hconn, hc], hcmark⟩

theorem packet_stamp_ne_zero (husable : Usable cfg) (hchain : Written cfg s.chain)
    (hne : s.chain ≠ []) {nfmark : BitVec 32}
    (hstep : s.step cfg (.packet conn .original nfmark) = some t)
    (hstamp : t.stamp cfg conn = some mark) : mark ≠ 0 := by
  obtain ⟨m, hm, rfl⟩ := Option.map_eq_some_iff.mp hstep
  obtain ⟨c, -, rfl⟩ := Option.map_eq_some_iff.mp hm
  obtain ⟨c', hc', rfl⟩ := stamp_eq_some_iff.mp hstamp
  rw [Flows.setEntry_self] at hc'
  cases hc'
  exact traverse_written_ne_zero husable hchain hne _

/-- **A whole run**: the stamp is the one that the connection got, and the chain stands. -/
theorem StampedAs.stamp (husable : Usable cfg) (hs₀ : Written cfg s₀.chain)
    (hrun : Run (Flows.step cfg) s₀ es t) (h : StampedAs cfg conn mark s₀ es) :
    t.stamp cfg conn = some mark ∧ mark ≠ 0 ∧ t.chain ≠ [] := by
  induction hrun with
  | nil => exact absurd h (not_since_nil _ _ _)
  | concat hrun hstep ih =>
    have hchain := hrun.preserves (fun _ _ _ hI hstep => Written.step hI hstep) hs₀
    obtain ⟨hkept, ⟨⟨nfmark, rfl⟩, hne, hstamp⟩ | hbefore⟩ := (since_concat hrun hstep).mp h
    · exact ⟨hstamp, packet_stamp_ne_zero husable hchain hne hstep hstamp,
        step_chain_ne_nil hne hstep⟩
    · obtain ⟨hstamp, hmark, hne⟩ := ih hbefore
      exact ⟨step_stamp hchain hstamp hmark hstep hkept, hmark, step_chain_ne_nil hne hstep⟩

/-- **Connections keep their provider.** From the packet that stamps a connection on, its masked
mark is that stamp and its packets leave the chain with it, whatever else crosses the chain and for
whichever providers it is rewritten; replies are left alone, and the bits outside the mask always
are. -/
theorem sticky (husable : Usable cfg) (hs₀ : Written cfg s₀.chain)
    (hrun : Run (Flows.step cfg) s₀ es t) :
    (∀ conn mark, StampedAs cfg conn mark s₀ es → mark ≠ 0 ∧ t.stamp cfg conn = some mark ∧
      ∀ nfmark m, t.crossing conn .original nfmark = some m →
        m.packet &&& mask cfg = mark ∧ m.connection &&& mask cfg = mark) ∧
    (∀ conn nfmark c m, t.conntrack conn = some c → t.crossing conn .reply nfmark = some m →
      m = ⟨nfmark, c⟩) ∧
    ∀ conn d nfmark c m, t.conntrack conn = some c → t.crossing conn d nfmark = some m →
      m.packet &&& ~~~mask cfg = nfmark &&& ~~~mask cfg ∧
        m.connection &&& ~~~mask cfg = c &&& ~~~mask cfg := by
  have hchain := hrun.preserves (fun _ _ _ hI hstep => Written.step hI hstep) hs₀
  refine ⟨fun conn mark h => ?_, fun conn nfmark c m hc hm => ?_, fun conn d nfmark c m hc hm => ?_⟩
  · obtain ⟨hstamp, hmark, hne⟩ := h.stamp husable hs₀ hrun
    refine ⟨hmark, hstamp, fun nfmark m hm => ?_⟩
    obtain ⟨c, hc, rfl⟩ := stamp_eq_some_iff.mp hstamp
    rw [Flows.crossing, hc, Option.map_some] at hm
    cases hm
    obtain ⟨p, -, hrules⟩ := hchain.resolve_left hne
    have hsame := traverse_written_stamped hchain .original ⟨nfmark, c⟩ hmark
    refine ⟨?_, by rw [hsame]⟩
    rw [hrules, traverse_rules_packet, ← hrules, hsame]
  · rw [Flows.crossing, hc, Option.map_some] at hm
    cases hm
    exact traverse_written_reply hchain _
  · rw [Flows.crossing, hc, Option.map_some] at hm
    cases hm
    exact traverse_written_outside husable hchain d _

/-- Three providers, the default marks, and a chain to write. -/
def threeUplinks : Config := { sparseMask with lanInterface := some "lan", routing := {} }

/-- The chain is written for the first provider and a connection is tracked. -/
def tracked : List FlowEvent := [.install threeUplinks.providers[0], .track 7 0]

/-- Its first packet crosses the chain, which is rewritten after that; a reply comes in. -/
def rewritten : List FlowEvent :=
  tracked ++ [.packet 7 .original 0] ++ [.install threeUplinks.providers[1]] ++ [.packet 7 .reply 0]

def untracked : Flows := { chain := [], conntrack := fun _ => none }

theorem rewritten_enabled : (exec (Flows.step threeUplinks) untracked rewritten).isSome := by
  decide

theorem stampedAs_rewritten : StampedAs threeUplinks 7 0x200 untracked rewritten := by
  obtain ⟨u, hu, hreply⟩ := run_concat_iff.mp (run_get rewritten_enabled)
  obtain ⟨v, hv, hinstall⟩ := run_concat_iff.mp hu
  obtain ⟨w, hw, hpacket⟩ := run_concat_iff.mp hv
  have hkept {s : Flows} {es : List FlowEvent} (hrun : Run (Flows.step threeUplinks) untracked es s)
      (h : (exec (Flows.step threeUplinks) untracked es).all
        (fun s => decide (s.conntrack 7 ≠ none)) = true) : s.conntrack 7 ≠ none :=
    Run.of_all (P := fun s : Flows => s.conntrack 7 ≠ none) h hrun
  refine (since_concat hu hreply).mpr ⟨hkept (run_get rewritten_enabled) (by decide), Or.inr ?_⟩
  refine (since_concat hv hinstall).mpr ⟨hkept hu (by decide), Or.inr ?_⟩
  refine (since_concat hw hpacket).mpr ⟨hkept hv (by decide), Or.inl ⟨⟨0, rfl⟩, ?_, ?_⟩⟩
  · exact Run.of_all (P := fun s : Flows => s.chain ≠ []) (by decide) hw
  · exact Run.of_all (P := fun s : Flows => s.stamp threeUplinks 7 = some 0x200) (by decide) hv

theorem sticky_rewritten :
    ((exec (Flows.step threeUplinks) untracked rewritten).get rewritten_enabled).stamp
      threeUplinks 7 = some 0x200 :=
  ((sticky (by decide) (Or.inl rfl) (run_get rewritten_enabled)).1 7 0x200 stampedAs_rewritten).2.1

end Vlb.Pin
