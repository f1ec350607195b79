import Vlb.Config
import Vlb.Lib.Chains
import Vlb.Lib.Entries
import Vlb.Lib.Transition

/-!
# The rules in the chains of others

Masquerading, and the jumps to the daemon's own chains, are rules in chains that belong to everyone.
They stay when the daemon ends, and the next one looks for them before it adds them.

* `configureNat`, `ensureJump`, `remove`, `installUplinks`, `removeUplinks`: the programs.
* `own`: the rules that they may add.
* `Completes`: what they leave when they come to their end.
* **`firewall_of_run`**: any of them in any order, each stopped anywhere, and others at work between.
-/

namespace Vlb.Firewall

open Chains Drain Entries Interrupted Transition

/-- A chain by its table and its name. -/
abbrev Chain := String × String

/-- The words of a rule. -/
abbrev Rule := List String

/-- A program over the chains. -/
abbrev Command (α : Type) := Shell Chain Rule α

/-! ## The programs -/

def postrouting : Chain := ("nat", "POSTROUTING")

def prerouting : Chain := ("mangle", "PREROUTING")

def forward : Chain := ("filter", "FORWARD")

def pinChain : Chain := ("mangle", "VLB_PIN")

def uplinksChain : Chain := ("filter", "VLB_UPLINKS")

/-- The rule of an uplink. -/
def masquerade (iface : String) : Rule := ["-o", iface, "-j", "MASQUERADE"]

/-- What comes from the LAN, and is not for the gateway itself. -/
def pinJump (lan : String) : Rule :=
  ["-i", lan, "-m", "addrtype", "!", "--dst-type", "LOCAL", "-j", pinChain.2]

/-- Everything that is forwarded. -/
def uplinksJump : Rule := ["-j", uplinksChain.2]

/-- The interfaces that get a rule. -/
def natInterfaces (wanInterface : Option String) (cfg : Config) : List String :=
  match wanInterface with
  | some wan => [wan]
  | none => cfg.providers.map Provider.interface

/-- The first failure ends it. -/
def masqueradeAll : List String → Command (Except String Unit)
  | [] => return .ok ()
  | iface :: ifaces => do
    match ← ensure append postrouting (masquerade iface) with
    | some true => masqueradeAll ifaces
    | some false => return .error ("failed to install MASQUERADE rule on " ++ iface)
    | none => return .error "failed to invoke iptables for MASQUERADE rule"

/-- Every uplink once. -/
def configureNat (wanInterface : Option String) (cfg : Config) : Command (Except String Unit) :=
  masqueradeAll (unseen [] (natInterfaces wanInterface cfg))

/-- The chain is made where it is not there, and the jump put in front. -/
def ensureJump (lan : String) : Command (Except String Unit) := do
  let _ ← newChain pinChain
  match ← ensure insert prerouting (pinJump lan) with
  | some true => return .ok ()
  | some false => return .error "could not hook VLB_PIN into mangle PREROUTING"
  | none => return .error "failed to invoke iptables to hook the connection-pinning chain"

/-- The source's `pin::remove`. -/
def remove (lan : Option String) : Command Unit := do
  match lan with
  | some lan => removeAll prerouting (pinJump lan) 8
  | none => pure ()
  let _ ← flush pinChain
  let _ ← dropChain pinChain
  return ()

/-- The source's `uplinks::install`; `rules` is what it writes into the chain. -/
def installUplinks (rules : List Rule) : Command (Except String Unit) := do
  let _ ← newChain uplinksChain
  match ← replace uplinksChain rules with
  | some true =>
    match ← ensure insert forward uplinksJump with
    | some true => return .ok ()
    | some false => return .error "iptables refused to hook VLB_UPLINKS into FORWARD"
    | none => return .error "failed to invoke iptables to hook the uplink accounting chain"
  | some false => return .error "iptables-restore refused the uplink accounting rules"
  | none => return .error "failed to run iptables-restore"

/-- The source's `uplinks::remove`. -/
def removeUplinks : Command Unit := do
  removeAll forward uplinksJump 8
  let _ ← flush uplinksChain
  let _ ← dropChain uplinksChain
  return ()

/-! ## Runs -/

/-- The rules that the daemon may add to chains of others. -/
def own (c : Chain) (r : Rule) : Bool :=
  (c = postrouting ∧ r = masquerade (r.getD 1 "")) ∨ (c = prerouting ∧ r = pinJump (r.getD 1 "")) ∨
    (c = forward ∧ r = uplinksJump)

/-- Its own chains. -/
def ownChain (c : Chain) : Bool := c = pinChain ∨ c = uplinksChain

/-- The programs, each with the fate of its commands, and others. -/
inductive Event
  | configureNat (wanInterface : Option String) (cfg : Config) (script : List Outcome)
  | ensureJump (lan : String) (script : List Outcome)
  | remove (lan : Option String) (script : List Outcome)
  | installUplinks (rules : List Rule) (script : List Outcome)
  | removeUplinks (script : List Outcome)
  /-- Someone else rewrites a chain, and leaves the daemon's rules in it. -/
  | edit (c : Chain) (l : List Rule)

/-- The chains, with the rules of everybody. -/
abbrev Filter := World Chain Rule

/-- A program from its beginning, with the commands that are given to it. -/
def perform {α : Type} (x : Command α) (script : List Outcome) (w : Filter) : Option α × Filter :=
  x { w with script }

/-- A program runs as far as its script goes. -/
def step (w : Filter) : Event → Option Filter
  | .configureNat wanInterface cfg script =>
    some (perform (Firewall.configureNat wanInterface cfg) script w).2
  | .ensureJump lan script => some (perform (Firewall.ensureJump lan) script w).2
  | .remove lan script => some (perform (Firewall.remove lan) script w).2
  | .installUplinks rules script => some (perform (Firewall.installUplinks rules) script w).2
  | .removeUplinks script => some (perform Firewall.removeUplinks script w).2
  | .edit c l =>
    if l.filter (own c) = (w.rules c).filter (own c) then some (w.set c (some l)) else none

/-- It is the daemon's own doing. -/
def Event.isOwn : Event → Bool
  | .edit .. => false
  | _ => true

/-- What a program has done when it has come to its end: its rules are there, and the rule that it
takes away is not, unless there were more than eight of it. -/
def Completes (w : Filter) : Event → Filter → Prop
  | .configureNat wanInterface cfg script, w' =>
    (perform (Firewall.configureNat wanInterface cfg) script w).1 = some (.ok ()) →
      ∀ iface ∈ natInterfaces wanInterface cfg, masquerade iface ∈ w'.rules postrouting
  | .ensureJump lan script, w' =>
    (perform (Firewall.ensureJump lan) script w).1 = some (.ok ()) →
      pinJump lan ∈ w'.rules prerouting
  | .remove lan script, w' =>
    (perform (Firewall.remove lan) script w).1 = some () → (∀ o ∈ script, o = .ran) →
      ∀ i ∈ lan, w'.times prerouting (pinJump i) = w.times prerouting (pinJump i) - 8
  | .installUplinks rules script, w' =>
    (perform (Firewall.installUplinks rules) script w).1 = some (.ok ()) →
      uplinksJump ∈ w'.rules forward
  | .removeUplinks script, w' =>
    (perform Firewall.removeUplinks script w).1 = some () → (∀ o ∈ script, o = .ran) →
      w'.times forward uplinksJump = w.times forward uplinksJump - 8
  | .edit .., _ => True

variable {w w' w₀ : Filter} {e : Event} {es : List Event} {c : Chain} {r : Rule}
  {script : List Outcome}

/-! ## What the programs do -/

theorem own_masquerade (iface : String) : own postrouting (masquerade iface) = true := by
  simp [own, masquerade]

theorem own_pinJump (lan : String) : own prerouting (pinJump lan) = true := by
  simp [own, pinJump]

theorem own_uplinksJump : own forward uplinksJump = true := by decide

/-- The programs add and remove nothing but the daemon's rules. -/
abbrev Leaves (w w' : Filter) : Prop := Keeps own ownChain w w'

/-- The chains of others are as they were. -/
def Aside (w w' : Filter) : Prop := ∀ c, ownChain c = false → w'.rules c = w.rules c

theorem newChain_leaves (hc : ownChain c = true) (w : Filter) :
    Ensures (newChain c) w (fun _ w' => Leaves w w' ∧ Aside w w') (Leaves w) := by
  refine private_keeps hc (fun w w' h => ?_) w
  split_ifs at h
  exact ⟨some [], (Option.some.inj h).symm⟩

theorem flush_leaves (hc : ownChain c = true) (w : Filter) :
    Ensures (flush c) w (fun _ w' => Leaves w w' ∧ Aside w w') (Leaves w) := by
  refine private_keeps hc (fun w w' h => ?_) w
  obtain ⟨l, -, rfl⟩ := Option.map_eq_some_iff.mp h
  exact ⟨some [], rfl⟩

theorem dropChain_leaves (hc : ownChain c = true) (w : Filter) :
    Ensures (dropChain c) w (fun _ w' => Leaves w w' ∧ Aside w w') (Leaves w) := by
  refine private_keeps hc (fun w w' h => ?_) w
  split_ifs at h
  exact ⟨none, (Option.some.inj h).symm⟩

theorem replace_leaves (hc : ownChain c = true) (l : List Rule) (w : Filter) :
    Ensures (replace c l) w (fun _ w' => Leaves w w' ∧ Aside w w') (Leaves w) :=
  private_keeps hc (fun _ _ h => ⟨some l, (Option.some.inj h).symm⟩) w

theorem masqueradeAll_ensures (ifaces : List String) (w : Filter) :
    Ensures (masqueradeAll ifaces) w
      (fun res w' => Leaves w w' ∧ (∀ c r, r ∈ w.rules c → r ∈ w'.rules c) ∧
        (res = .ok () → ∀ iface ∈ ifaces, masquerade iface ∈ w'.rules postrouting))
      (Leaves w) := by
  induction ifaces generalizing w with
  | nil => exact ensures_pure ⟨Keeps.refl w, fun _ _ h => h, fun _ _ h => by cases h⟩
  | cons iface ifaces ih =>
    unfold masqueradeAll
    refine (ensure_keeps addsRule_append (own_masquerade iface) w).bind ?_
    rintro ok w₁ ⟨hkeeps, hgrows, hthere⟩
    match ok with
    | none => exact ensures_pure ⟨hkeeps, hgrows, fun h => by cases h⟩
    | some false => exact ensures_pure ⟨hkeeps, hgrows, fun h => by cases h⟩
    | some true =>
      refine hkeeps.after ((ih w₁).mono ?_ fun _ h => h)
      rintro res w₂ ⟨hleaves, hgrows', hall⟩
      refine ⟨hleaves, fun c r h => hgrows' c r (hgrows c r h), fun hres i hi => ?_⟩
      rcases List.mem_cons.mp hi with rfl | hi
      · exact hgrows' _ _ (hthere rfl)
      · exact hall hres i hi

theorem ensureJump_ensures (lan : String) (w : Filter) :
    Ensures (ensureJump lan) w
      (fun res w' => Leaves w w' ∧ (res = .ok () → pinJump lan ∈ w'.rules prerouting))
      (Leaves w) := by
  unfold ensureJump
  refine (newChain_leaves rfl w).bind ?_
  rintro - w₁ ⟨h₁, -⟩
  refine (h₁.after (ensure_keeps addsRule_insert (own_pinJump lan) w₁)).bind ?_
  rintro ok w₂ ⟨h₂, -, hthere⟩
  match ok with
  | none => exact ensures_pure ⟨h₂, fun h => by cases h⟩
  | some false => exact ensures_pure ⟨h₂, fun h => by cases h⟩
  | some true => exact ensures_pure ⟨h₂, fun _ => hthere rfl⟩

theorem installUplinks_ensures (rules : List Rule) (w : Filter) :
    Ensures (installUplinks rules) w
      (fun res w' => Leaves w w' ∧ (res = .ok () → uplinksJump ∈ w'.rules forward))
      (Leaves w) := by
  unfold installUplinks
  refine (newChain_leaves rfl w).bind ?_
  rintro - w₁ ⟨h₁, -⟩
  refine (h₁.after (replace_leaves rfl rules w₁)).bind ?_
  rintro restored w₂ ⟨h₂, -⟩
  match restored with
  | none => exact ensures_pure ⟨h₂, fun h => by cases h⟩
  | some false => exact ensures_pure ⟨h₂, fun h => by cases h⟩
  | some true =>
    refine (h₂.after (ensure_keeps addsRule_insert own_uplinksJump w₂)).bind ?_
    rintro ok w₃ ⟨h₃, -, hthere⟩
    match ok with
    | none => exact ensures_pure ⟨h₃, fun h => by cases h⟩
    | some false => exact ensures_pure ⟨h₃, fun h => by cases h⟩
    | some true => exact ensures_pure ⟨h₃, fun _ => hthere rfl⟩

theorem takeDown_ensures {chain : Chain} (hc : ownChain chain = true) (w : Filter) :
    Ensures (do let _ ← flush chain; let _ ← dropChain chain; return () : Command Unit) w
      (fun _ w' => Leaves w w' ∧ Aside w w') (Leaves w) := by
  refine (flush_leaves hc w).bind ?_
  rintro - w₁ ⟨h₁, hsame₁⟩
  refine (h₁.after (dropChain_leaves hc w₁)).bind ?_
  rintro - w₂ ⟨h₂, hsame₂⟩
  exact ensures_pure ⟨h₂, fun c hc => (hsame₂ c hc).trans (hsame₁ c hc)⟩

theorem remove_ensures (lan : Option String) (w : Filter) :
    Ensures (remove lan) w
      (fun _ w' => Leaves w w' ∧ ((∀ o ∈ w.script, o = .ran) → ∀ i ∈ lan,
        w'.rules prerouting = drain (· = pinJump i) 8 (w.rules prerouting)))
      (Leaves w) := by
  unfold remove
  cases lan with
  | none =>
    exact (takeDown_ensures rfl w).mono (fun _ _ h => ⟨h.1, fun _ _ hi => by cases hi⟩) fun _ h => h
  | some lan =>
    refine (removeAll_ensures (own_pinJump lan) 8 w).bind ?_
    rintro - w₁ ⟨h₁, hdrained⟩
    refine h₁.after ((takeDown_ensures rfl w₁).mono ?_ fun _ h => h)
    rintro - w₂ ⟨h₂, hsame⟩
    refine ⟨h₂, fun hran i hi => ?_⟩
    cases hi
    rw [hsame prerouting (by decide), hdrained hran]

theorem removeUplinks_ensures (w : Filter) :
    Ensures removeUplinks w
      (fun _ w' => Leaves w w' ∧ ((∀ o ∈ w.script, o = .ran) →
        w'.rules forward = drain (· = uplinksJump) 8 (w.rules forward)))
      (Leaves w) := by
  unfold removeUplinks
  refine (removeAll_ensures own_uplinksJump 8 w).bind ?_
  rintro - w₁ ⟨h₁, hdrained⟩
  refine h₁.after ((takeDown_ensures rfl w₁).mono ?_ fun _ h => h)
  rintro - w₂ ⟨h₂, hsame⟩
  exact ⟨h₂, fun hran => by rw [hsame forward (by decide), hdrained hran]⟩

/-! ## Any of them -/

theorem perform_spec {α : Type} {x : Command α} {Q : α → Filter → Prop}
    (h : Ensures x { w with script } (fun a w' => Leaves { w with script } w' ∧ Q a w')
      (Leaves { w with script })) :
    Leaves w (perform x script w).2 ∧
      ∀ a, (perform x script w).1 = some a → Q a (perform x script w).2 := by
  have hleaves {w' : Filter} (h' : Leaves { w with script } w') : Leaves w w' :=
    ⟨h'.others, h'.missed, h'.count⟩
  unfold Ensures at h
  unfold perform
  rcases hx : x { w with script } with ⟨_ | a, w'⟩
  · rw [hx] at h
    exact ⟨hleaves h, fun a ha => by cases ha⟩
  · rw [hx] at h
    refine ⟨hleaves h.1, fun b hb => ?_⟩
    cases hb
    exact h.2

/-- **One step of the daemon's own**, stopped or not. -/
theorem step_own (hown : e.isOwn = true) (hstep : step w e = some w') :
    Leaves w w' ∧ Completes w e w' := by
  cases e with
  | configureNat wanInterface cfg script =>
    cases hstep
    obtain ⟨hleaves, hdone⟩ := perform_spec (masqueradeAll_ensures
      (unseen [] (natInterfaces wanInterface cfg)) { w with script })
    refine ⟨hleaves, fun hok i hi => (hdone _ hok).2 rfl i ?_⟩
    exact mem_unseen.mpr ⟨hi, List.not_mem_nil⟩
  | ensureJump lan script =>
    cases hstep
    obtain ⟨hleaves, hdone⟩ := perform_spec (ensureJump_ensures lan { w with script })
    exact ⟨hleaves, fun hok => hdone _ hok rfl⟩
  | remove lan script =>
    cases hstep
    obtain ⟨hleaves, hdone⟩ := perform_spec (remove_ensures lan { w with script })
    refine ⟨hleaves, fun hok hran i hi => ?_⟩
    rw [World.times, hdone _ hok hran i hi, countP_drain]
    rfl
  | installUplinks rules script =>
    cases hstep
    obtain ⟨hleaves, hdone⟩ := perform_spec (installUplinks_ensures rules { w with script })
    exact ⟨hleaves, fun hok => hdone _ hok rfl⟩
  | removeUplinks script =>
    cases hstep
    obtain ⟨hleaves, hdone⟩ := perform_spec (removeUplinks_ensures { w with script })
    refine ⟨hleaves, fun hok hran => ?_⟩
    rw [World.times, hdone _ hok hran, countP_drain]
    rfl
  | edit c l => cases hown

/-- The rule is there once at most, but for the times it was overlooked. -/
def Single (w : Filter) : Prop := ∀ c r, ownChain c = false → own c r = true →
  w.times c r ≤ 1 + w.missed

theorem Single.step (h : Single w) (hstep : Firewall.step w e = some w') : Single w' := by
  cases hown : e.isOwn with
  | true =>
    obtain ⟨hleaves, -⟩ := step_own hown hstep
    intro c r hc hr
    have := hleaves.count c r hc hr
    have := h c r hc hr
    omega
  | false =>
    cases e with
    | edit c l =>
      simp only [Firewall.step] at hstep
      split_ifs at hstep with hkept
      cases hstep
      intro c' r hc hr
      rw [World.times, World.rules_set]
      split_ifs with heq
      · subst heq
        have hcount : ∀ l : List Rule, l.countP (· = r) = (l.filter (own c')).countP (· = r) := by
          intro l
          rw [List.countP_filter]
          refine List.countP_congr fun r' _ => ?_
          simp only [Bool.and_eq_true, decide_eq_true_eq]
          exact ⟨fun heq => ⟨heq, heq ▸ hr⟩, And.left⟩
        rw [Option.getD_some, hcount, hkept, ← hcount]
        exact h c' r hc hr
      · exact h c' r hc hr
    | _ => cases hown

/-- **The daemon's rules in the chains of others.** However often it is started, with whatever
configurations, and wherever its programs are stopped: a rule is there once at most, unless a look
for it did not run; its programs leave the rules of others as they are; and the ones that come to
their end have done what they are for. -/
theorem firewall_of_run (hclean : Single w₀) (hrun : Run step w₀ es w) :
    Single w ∧
      AllSteps step (fun u e v => e.isOwn = true → Completes u e v ∧ ∀ c, ownChain c = false →
        (v.rules c).filter (fun r => !own c r) = (u.rules c).filter fun r => !own c r) w₀ es := by
  refine ⟨hrun.preserves (fun _ _ _ h hstep => h.step hstep) hclean, ?_⟩
  intro pre e post u v _ _ hstep hown
  obtain ⟨hleaves, hdone⟩ := step_own hown hstep
  exact ⟨hdone, hleaves.others⟩

/-- A firewall with a rule of someone else. -/
def bareFilter : Filter where
  tables := fun c =>
    if c = postrouting then some [] else if c = prerouting then some []
    else if c = forward then some [["-j", "DOCKER"]] else none
  missed := 0
  script := []

/-- The first start is stopped between looking and adding; the second one gets through, and an
operator adds a rule; at the next start pinning is off. -/
def restarts : List Event :=
  [.configureNat none Config.twoUplinks [.ran, .ran, .ran],
    .configureNat none Config.twoUplinks [.ran, .ran, .ran, .ran],
    .ensureJump "lan0" [.ran, .ran, .ran], .edit forward [["-j", "DOCKER"], ["-j", "DROP"]],
    .installUplinks [] [.ran, .ran, .ran, .ran], .remove (some "lan0") [.ran, .ran, .ran, .ran]]

theorem restarts_enabled : (exec step bareFilter restarts).isSome := by decide +kernel

theorem firewall_of_run_restarts :
    let w := (exec step bareFilter restarts).get restarts_enabled
    w.rules postrouting = [masquerade "eth0", masquerade "eth1"] ∧ w.rules prerouting = [] ∧
      w.rules forward = [uplinksJump, ["-j", "DOCKER"], ["-j", "DROP"]] ∧ Single w := by
  have hclean : Single bareFilter := by
    intro c r _ _
    have hfew : (bareFilter.rules c).length ≤ 1 := by
      show ((if c = postrouting then some [] else if c = prerouting then some []
        else if c = forward then some [["-j", "DOCKER"]] else none).getD []).length ≤ 1
      split_ifs <;> simp
    exact List.countP_le_length.trans hfew
  exact ⟨by decide +kernel, by decide +kernel, by decide +kernel,
    (firewall_of_run hclean (run_get restarts_enabled)).1⟩

end Vlb.Firewall
