import Vlb.Ui.Control
import Vlb.Update.FrontEnds

/-!
# The screens of the dashboard

The dashboard shows the providers, the clients, or one client. It asks the daemon for what it shows,
and passes on what the operator says to whichever provider is selected.

* `exchange`: one request, and what is done with its answer.
* `refresh`, `refreshClients`: the requests for a screen.
* `handleKey`: the keys, for the update, for the clients' screens and for the providers.
* `step`: the dashboard, a turn of its loop at a time, and its update task.
* `WellFormed`: what is shown and what is selected fit together.
* **`commands_of_run`**: the daemon is told what the operator says, and nothing else.
* **`updates_of_run`**: what the update sees of a run is a run of its own.
-/

namespace Vlb.Screens

open Control Entries

/-! ## The dashboard -/

inductive View
  | dashboard
  | clients
  | clientDetail
  deriving DecidableEq

/-- `WINDOWS`: hours, and how they are called. -/
def windows : List (UInt32 × String) := [(1, "1h"), (24, "24h"), (168, "7d"), (720, "30d")]

structure App where
  snapshot : ControlSnapshot
  selected : ℕ := 0
  traffic : HashMap String (List TrafficPointWire) := ∅
  /-- The providers whose graph is the total of an interface. -/
  trafficShared : HashMap String String := ∅
  system : List SystemPointWire := []
  events : List FailoverEventWire := []
  view : View := .dashboard
  clients : List ClientInfo := []
  clientSelected : ℕ := 0
  clientDetail : Option ClientDetail := none
  /-- Which of the `windows`. -/
  window : ℕ := 1
  clientError : Option String := none
  lastMessage : Option String := none
  unreachableFor : UInt32 := 0
  /-- `update`, `update_task` and `should_quit`. -/
  updates : Update.Dashboard := {}
  /-- The requests so far, of which the program keeps no list. -/
  sent : List Request := []

/-- What `control::send` returns: an answer, or why there is none. -/
abbrev Answer := Except String Response

section Requests

-- What each request is answered, in their order.
variable (world : ℕ → Answer)

/-- A request, and what is done with its answer. -/
def exchange (r : Request) (take : App → Answer → App) (a : App) : App :=
  take { a with sent := a.sent ++ [r] } (world a.sent.length)

def setMessage (a : App) (message : String) : App := { a with lastMessage := some message }

/-- The selection is kept within a list that may have become shorter. -/
def keptWithin (n selected : ℕ) : ℕ := if n ≤ selected then n - 1 else selected

def takeStatus (a : App) : Answer → App
  | .ok (.status snapshot) =>
    let a := if 0 < a.unreachableFor then
        setMessage a ("daemon is back (v" ++
          (if snapshot.version = "" then "?" else snapshot.version) ++ ")")
      else a
    { a with
      unreachableFor := 0
      snapshot
      selected := keptWithin snapshot.providers.length a.selected }
  | .ok (.error e) => setMessage a ("status error: " ++ e)
  | .ok _ => setMessage a "unexpected response to status"
  | .error e =>
    let n := UInt32.saturatingAdd a.unreachableFor 1
    setMessage { a with unreachableFor := n }
      ("daemon unreachable (" ++ toString n.toNat ++ "×): " ++ e)

def takeEvents (a : App) : Answer → App
  | .ok (.events events) => { a with events }
  | _ => a

def takeTraffic (name : String) (a : App) : Answer → App
  | .ok (.traffic points interfaceTotal) =>
    { a with
      traffic := a.traffic.insert name points
      trafficShared := match interfaceTotal with
        | some interface => a.trafficShared.insert name interface
        | none => a.trafficShared.erase name }
  | _ => a

def takeSystem (a : App) : Answer → App
  | .ok (.system points) => { a with system := points }
  | _ => a

def takeClients (a : App) : Answer → App
  | .ok (.clients clients) =>
    { a with
      clientError := none
      clients
      clientSelected := keptWithin clients.length a.clientSelected }
  | .ok (.error e) => { a with clientError := some e }
  | .ok _ => { a with clientError := some "unexpected response to `clients`" }
  | .error e => { a with clientError := some e }

def takeDetail (a : App) : Answer → App
  | .ok (.clientDetail detail) => { a with clientDetail := some detail, clientError := none }
  | .ok (.error e) => { a with clientError := some e }
  | .ok _ => a
  | .error e => { a with clientError := some e }

/-- What came of a command. -/
def takeOutcome (failed : String) (a : App) : Answer → App
  | .ok (.ok message) => setMessage a message
  | .ok (.error e) => setMessage a ("error: " ++ e)
  | .ok _ => setMessage a "unexpected response"
  | .error e => setMessage a (failed ++ e)

def windowHours (a : App) : UInt32 :=
  (windows.get ⟨min a.window (windows.length - 1), lt_of_le_of_lt (min_le_right _ _) (by decide)⟩).1

def selectedClient (a : App) : Option ClientInfo := a.clients[a.clientSelected]?

def refreshClients (a : App) : App :=
  let hours := windowHours a
  let a := exchange world (.clients hours) takeClients a
  if a.view = .clientDetail then
    match selectedClient a with
    | some c => exchange world (.clientDetail c.ip hours 600) takeDetail a
    | none => a
  else a

def refresh (a : App) : App :=
  let a := exchange world .status takeStatus a
  if a.view ≠ .dashboard then refreshClients world a
  else
    let a := exchange world (.events 8) takeEvents a
    let a := a.snapshot.providers.foldl
      (fun a p => exchange world (.traffic p.name 180) (takeTraffic p.name) a) a
    exchange world (.system 240) takeSystem a

def selectedProvider (a : App) : Option ProviderSnapshot := a.snapshot.providers[a.selected]?

def forceSelected (a : App) : App :=
  match selectedProvider a with
  | some p => exchange world (.force p.name) (takeOutcome "force failed: ") a
  | none => a

def clearForce (a : App) : App := exchange world .auto (takeOutcome "clear failed: ") a

/-! ## Keys -/

inductive KeyCode
  | char (c : Char)
  | enter
  | esc
  | backspace
  | left
  | right
  | up
  | down
  | other
  deriving DecidableEq

structure Key where
  code : KeyCode
  control : Bool
  released : Bool

/-- What the update makes of a key. -/
def Key.forUpdate (key : Key) : Update.Key :=
  match key.code with
  | .char c => .char c key.control
  | .enter => .enter
  | .esc => .esc
  | _ => .other

def next (n selected : ℕ) : ℕ := (selected + 1) % n

def previous (n selected : ℕ) : ℕ := if selected = 0 then n - 1 else selected - 1

def moveClient (go : ℕ → ℕ → ℕ) (a : App) : App :=
  if a.clients = [] then a
  else
    let a := { a with clientSelected := go a.clients.length a.clientSelected }
    if a.view = .clientDetail then refreshClients world a else a

def moveProvider (go : ℕ → ℕ → ℕ) (a : App) : App :=
  if a.snapshot.providers = [] then a
  else { a with selected := go a.snapshot.providers.length a.selected }

def quit (a : App) : App := { a with updates := Update.quit a.updates }

/-- A key on the clients' screens. -/
def handleClientKey (a : App) (key : Key) : App :=
  if key.code = .char 'c' ∧ key.control = true then quit a
  else match key.code with
    | .char 'q' => quit a
    | .esc | .backspace | .left | .char 'h' =>
      if a.view = .clientDetail then { a with view := .clients, clientDetail := none }
      else { a with view := .dashboard }
    | .char 'c' => { a with view := .dashboard, clientDetail := none }
    | .char 'j' | .down => moveClient world next a
    | .char 'k' | .up => moveClient world previous a
    | .enter | .right | .char 'l' =>
      if a.view = .clients ∧ a.clients ≠ [] then
        refreshClients world { a with view := .clientDetail }
      else a
    | .char 'w' => refreshClients world { a with window := (a.window + 1) % windows.length }
    | .char 'r' => refreshClients world a
    | _ => a

/-- A key on the screen of the providers. The answer is for a query of the releases. -/
def handleProviderKey (env : Update.Env) (a : App) (key : Key) (answer : Update.Answer) : App :=
  if key.code = .char 'c' ∧ key.control = true then quit a
  else match key.code with
    | .char 'q' | .esc => quit a
    | .char 'c' => refreshClients world { a with view := .clients }
    | .char 'j' | .down => moveProvider next a
    | .char 'k' | .up => moveProvider previous a
    | .char 'f' | .enter => refresh world (forceSelected world a)
    | .char 'a' => refresh world (clearForce world a)
    | .char 'r' => setMessage (refresh world a) "refreshed"
    | .char 'u' => { a with updates := Update.checkForUpdate env a.updates answer }
    | _ => a

def handleKey (env : Update.Env) (a : App) (key : Key) (answer : Update.Answer) : App :=
  if key.released then a
  else if a.updates.update ≠ .idle then
    { a with updates := Update.handleModalKey a.updates key.forUpdate }
  else if a.view ≠ .dashboard then handleClientKey world a key
  else handleProviderKey world env a key answer

/-! ## Runs -/

/-- One turn of the loop: a key, if one is pressed, and a refresh, if the last one is old. -/
def turn (env : Update.Env) (key : Option (Key × Update.Answer)) (stale : Bool) (a : App) : App :=
  let a := key.elim a fun k => handleKey world env a k.1 k.2
  let a := { a with updates := Update.pollUpdateTask a.updates }
  if stale then refresh world a else a

inductive Event
  /-- The answer is for a query of the releases that the key causes. -/
  | turn (key : Option (Key × Update.Answer)) (stale : Bool)
  /-- The update task has its answer, and the path of the binary. -/
  | taskQueried (currentExe : Except String String) (answer : Update.Answer)
  /-- `perform` returns. -/
  | taskEnded (result : Except String String)

def step (env : Update.Env) (a : App) : Event → Option App
  | .turn key stale => if a.updates.shouldQuit then none else some (turn world env key stale a)
  | .taskQueried currentExe answer =>
    (Update.step env a.updates (.taskQueried currentExe answer)).map fun updates => { a with updates }
  | .taskEnded result =>
    (Update.step env a.updates (.taskEnded result)).map fun updates => { a with updates }

/-- The dashboard at its start, with the snapshot that it has waited for. -/
def start (snapshot : ControlSnapshot) : App := refresh world { snapshot }

end Requests

/-! ## Commands -/

/-- The daemon is told what to do. -/
def isCommand : Request → Bool
  | .force _ | .auto => true
  | _ => false

/-- What the daemon has been told. -/
def commands (a : App) : List Request := a.sent.filter isCommand

/-- What the operator tells the daemon on the screen of the providers: the provider that is selected
is to have the traffic, or whichever is best. -/
def saidToProviders (a : App) (key : Key) : Option Request :=
  match key.code with
  | .char 'f' | .enter => (selectedProvider a).map fun p => .force p.name
  | .char 'a' => some .auto
  | _ => none

/-- What the operator tells the daemon by a key. Nothing is told from the screens of the clients, nor
while the update has the keyboard. -/
def said (a : App) (key : Key) : Option Request :=
  if key.released = true ∨ a.updates.update ≠ .idle ∨ a.view ≠ .dashboard then none
  else saidToProviders a key

def commanded (a : App) : Event → List Request
  | .turn key _ => (key.bind fun k => said a k.1).toList
  | .taskQueried .. | .taskEnded _ => []

/-- What the operator has told the daemon by these events. -/
def told (world : ℕ → Answer) (env : Update.Env) : App → List Event → List Request
  | _, [] => []
  | a, e :: es => commanded a e ++ ((step world env a e).map fun b => told world env b es).getD []

section Telling

variable {world : ℕ → Answer} {env : Update.Env} {a : App}

theorem sent_takeStatus (a : App) (answer : Answer) : (takeStatus a answer).sent = a.sent := by
  unfold takeStatus
  split
  · dsimp only
    split_ifs <;> rfl
  all_goals rfl

theorem sent_takeEvents (a : App) (answer : Answer) : (takeEvents a answer).sent = a.sent := by
  unfold takeEvents
  split <;> rfl

theorem sent_takeTraffic (name : String) (a : App) (answer : Answer) :
    (takeTraffic name a answer).sent = a.sent := by
  unfold takeTraffic
  split <;> rfl

theorem sent_takeSystem (a : App) (answer : Answer) : (takeSystem a answer).sent = a.sent := by
  unfold takeSystem
  split <;> rfl

theorem sent_takeClients (a : App) (answer : Answer) : (takeClients a answer).sent = a.sent := by
  unfold takeClients
  split <;> rfl

theorem sent_takeDetail (a : App) (answer : Answer) : (takeDetail a answer).sent = a.sent := by
  unfold takeDetail
  split <;> rfl

theorem sent_takeOutcome (failed : String) (a : App) (answer : Answer) :
    (takeOutcome failed a answer).sent = a.sent := by
  unfold takeOutcome
  split <;> rfl

theorem commands_exchange {take : App → Answer → App}
    (htake : ∀ b answer, (take b answer).sent = b.sent) (r : Request) (a : App) :
    commands (exchange world r take a) = commands a ++ [r].filter isCommand := by
  rw [commands, exchange, htake, List.filter_append]
  rfl

theorem commands_question {take : App → Answer → App}
    (htake : ∀ b answer, (take b answer).sent = b.sent) {r : Request} (hr : isCommand r = false)
    (a : App) : commands (exchange world r take a) = commands a := by
  rw [commands_exchange htake, List.filter_singleton, hr]
  exact List.append_nil _

theorem commands_refreshClients (a : App) : commands (refreshClients world a) = commands a := by
  have hclients : commands (exchange world (.clients (windowHours a)) takeClients a) = commands a :=
    commands_question sent_takeClients rfl a
  unfold refreshClients
  dsimp only
  split_ifs
  · split
    · rw [commands_question sent_takeDetail rfl, hclients]
    · exact hclients
  · exact hclients

theorem commands_refresh (a : App) : commands (refresh world a) = commands a := by
  have htraffic (ps : List ProviderSnapshot) (a : App) : commands (ps.foldl (fun a p =>
      exchange world (.traffic p.name 180) (takeTraffic p.name) a) a) = commands a := by
    induction ps generalizing a with
    | nil => rfl
    | cons p ps ih =>
      rw [List.foldl_cons, ih, commands_question (sent_takeTraffic p.name) rfl]
  unfold refresh
  dsimp only
  split_ifs
  · rw [commands_refreshClients, commands_question sent_takeStatus rfl]
  · rw [commands_question sent_takeSystem rfl, htraffic, commands_question sent_takeEvents rfl,
      commands_question sent_takeStatus rfl]

theorem commands_forceSelected (a : App) : commands (forceSelected world a) =
    commands a ++ ((selectedProvider a).map fun p => Request.force p.name).toList := by
  unfold forceSelected
  cases selectedProvider a with
  | none => exact (List.append_nil _).symm
  | some p => exact commands_exchange (sent_takeOutcome _) _ a

theorem commands_clearForce (a : App) : commands (clearForce world a) = commands a ++ [.auto] :=
  commands_exchange (sent_takeOutcome _) _ a

theorem commands_moveClient (go : ℕ → ℕ → ℕ) (a : App) :
    commands (moveClient world go a) = commands a := by
  unfold moveClient
  by_cases hclients : a.clients = []
  · rw [if_pos hclients]
  · rw [if_neg hclients]
    dsimp only
    split_ifs
    · exact commands_refreshClients _
    · rfl

theorem commands_moveProvider (go : ℕ → ℕ → ℕ) (a : App) :
    commands (moveProvider go a) = commands a := by
  unfold moveProvider
  split_ifs <;> rfl

theorem commands_handleClientKey (a : App) (key : Key) :
    commands (handleClientKey world a key) = commands a := by
  unfold handleClientKey
  by_cases hquit : key.code = .char 'c' ∧ key.control = true
  · rw [if_pos hquit]
    rfl
  · rw [if_neg hquit]
    split
    all_goals first
      | rfl
      | exact commands_refreshClients _
      | exact commands_moveClient _ _
      | split_ifs <;> first | rfl | exact commands_refreshClients _

theorem commands_handleProviderKey (a : App) (key : Key) (answer : Update.Answer) :
    commands (handleProviderKey world env a key answer) =
      commands a ++ (saidToProviders a key).toList := by
  unfold handleProviderKey saidToProviders
  by_cases hquit : key.code = .char 'c' ∧ key.control = true
  · rw [if_pos hquit, hquit.1]
    exact (List.append_nil _).symm
  · rw [if_neg hquit]
    split
    iterate 2
      rename_i hcode
      rw [hcode]
      exact (List.append_nil _).symm
    · rename_i hcode
      rw [hcode]
      exact (commands_refreshClients _).trans (List.append_nil _).symm
    iterate 4
      rename_i hcode
      rw [hcode]
      exact (commands_moveProvider _ a).trans (List.append_nil _).symm
    iterate 2
      rename_i hcode
      rw [hcode, commands_refresh]
      exact commands_forceSelected a
    · rename_i hcode
      rw [hcode, commands_refresh]
      exact commands_clearForce a
    · rename_i hcode
      rw [hcode]
      exact (commands_refresh a).trans (List.append_nil _).symm
    · rename_i hcode
      rw [hcode]
      exact (List.append_nil _).symm
    · -- no other key says anything
      split
      · exact absurd ‹key.code = .char 'f'› ‹key.code = .char 'f' → False›
      · exact absurd ‹key.code = .enter› ‹key.code = .enter → False›
      · exact absurd ‹key.code = .char 'a'› ‹key.code = .char 'a' → False›
      · exact (List.append_nil _).symm

/-- **A key tells the daemon** what the operator says by it. -/
theorem commands_handleKey (a : App) (key : Key) (answer : Update.Answer) :
    commands (handleKey world env a key answer) = commands a ++ (said a key).toList := by
  unfold handleKey said
  cases hreleased : key.released with
  | true => simp
  | false =>
    by_cases hidle : a.updates.update = .idle
    · by_cases hview : a.view = .dashboard
      · simp only [hidle, hview, Bool.false_eq_true, ne_eq, not_true_eq_false, or_self, if_false]
        exact commands_handleProviderKey a key answer
      · simp only [hidle, hview, Bool.false_eq_true, ne_eq, not_true_eq_false, not_false_eq_true,
          or_true, if_false, if_true]
        rw [commands_handleClientKey]
        exact (List.append_nil _).symm
    · simp [hidle, commands]

theorem commands_turn (a : App) (key : Option (Key × Update.Answer)) (stale : Bool) :
    commands (turn world env key stale a) = commands a ++ (key.bind fun k => said a k.1).toList := by
  have hkey : commands (key.elim a fun k => handleKey world env a k.1 k.2) =
      commands a ++ (key.bind fun k => said a k.1).toList := by
    cases key with
    | none => exact (List.append_nil _).symm
    | some k => exact commands_handleKey a k.1 k.2
  unfold turn
  dsimp only
  split_ifs
  · exact (commands_refresh _).trans hkey
  · exact hkey

theorem commands_step {u : App} {e : Event} (h : step world env a e = some u) :
    commands u = commands a ++ commanded a e := by
  cases e with
  | turn key stale =>
    unfold step at h
    dsimp only at h
    split_ifs at h
    obtain rfl := Option.some.inj h
    exact commands_turn a key stale
  | taskQueried currentExe answer =>
    obtain ⟨updates, -, rfl⟩ := Option.map_eq_some_iff.mp h
    exact (List.append_nil _).symm
  | taskEnded result =>
    obtain ⟨updates, -, rfl⟩ := Option.map_eq_some_iff.mp h
    exact (List.append_nil _).symm

/-! ## What is selected -/

/-- What is shown and what is selected fit together. -/
structure WellFormed (a : App) : Prop where
  selected : a.selected < max 1 a.snapshot.providers.length
  clientSelected : a.clientSelected < max 1 a.clients.length
  window : a.window < windows.length
  detail : a.clientDetail.isSome = true → a.view = .clientDetail

theorem keptWithin_lt (n selected : ℕ) : keptWithin n selected < max 1 n := by
  unfold keptWithin
  split_ifs <;> omega

theorem next_lt {n : ℕ} (hn : 0 < n) (selected : ℕ) : next n selected < max 1 n :=
  lt_of_lt_of_le (Nat.mod_lt _ hn) (le_max_right 1 n)

theorem previous_lt {n selected : ℕ} (h : selected < max 1 n) : previous n selected < max 1 n := by
  unfold previous
  split_ifs <;> omega

namespace WellFormed

theorem takeStatus (h : WellFormed a) (answer : Answer) : WellFormed (takeStatus a answer) := by
  unfold Screens.takeStatus
  split
  · dsimp only
    split_ifs <;> exact ⟨keptWithin_lt _ _, h.clientSelected, h.window, h.detail⟩
  all_goals exact ⟨h.selected, h.clientSelected, h.window, h.detail⟩

theorem takeEvents (h : WellFormed a) (answer : Answer) : WellFormed (takeEvents a answer) := by
  unfold Screens.takeEvents
  split <;> exact ⟨h.selected, h.clientSelected, h.window, h.detail⟩

theorem takeTraffic (h : WellFormed a) (name : String) (answer : Answer) :
    WellFormed (takeTraffic name a answer) := by
  unfold Screens.takeTraffic
  split <;> exact ⟨h.selected, h.clientSelected, h.window, h.detail⟩

theorem takeSystem (h : WellFormed a) (answer : Answer) : WellFormed (takeSystem a answer) := by
  unfold Screens.takeSystem
  split <;> exact ⟨h.selected, h.clientSelected, h.window, h.detail⟩

theorem takeClients (h : WellFormed a) (answer : Answer) : WellFormed (takeClients a answer) := by
  unfold Screens.takeClients
  split
  · exact ⟨h.selected, keptWithin_lt _ _, h.window, h.detail⟩
  all_goals exact ⟨h.selected, h.clientSelected, h.window, h.detail⟩

theorem takeDetail (h : WellFormed a) (hview : a.view = .clientDetail) (answer : Answer) :
    WellFormed (takeDetail a answer) := by
  unfold Screens.takeDetail
  split <;> exact ⟨h.selected, h.clientSelected, h.window, fun _ => hview⟩

theorem takeOutcome (h : WellFormed a) (failed : String) (answer : Answer) :
    WellFormed (takeOutcome failed a answer) := by
  unfold Screens.takeOutcome
  split <;> exact ⟨h.selected, h.clientSelected, h.window, h.detail⟩

theorem sent (h : WellFormed a) (sent : List Request) : WellFormed { a with sent } :=
  ⟨h.selected, h.clientSelected, h.window, h.detail⟩

theorem updates (h : WellFormed a) (updates : Update.Dashboard) : WellFormed { a with updates } :=
  ⟨h.selected, h.clientSelected, h.window, h.detail⟩

theorem refreshClients (h : WellFormed a) : WellFormed (refreshClients world a) := by
  have hclients : WellFormed (exchange world (.clients (windowHours a)) Screens.takeClients a) :=
    (h.sent _).takeClients _
  unfold Screens.refreshClients
  dsimp only
  generalize exchange world (.clients (windowHours a)) Screens.takeClients a = b at hclients ⊢
  by_cases hview : b.view = .clientDetail
  · rw [if_pos hview]
    cases selectedClient b with
    | none => exact hclients
    | some c =>
      exact (hclients.sent (b.sent ++ [.clientDetail c.ip (windowHours a) 600])).takeDetail hview
        (world b.sent.length)
  · rw [if_neg hview]
    exact hclients

theorem refresh (h : WellFormed a) : WellFormed (refresh world a) := by
  have htraffic (ps : List ProviderSnapshot) (a : App) (h : WellFormed a) :
      WellFormed (ps.foldl (fun a p =>
        exchange world (.traffic p.name 180) (Screens.takeTraffic p.name) a) a) := by
    induction ps generalizing a with
    | nil => exact h
    | cons p ps ih => exact ih _ ((h.sent _).takeTraffic p.name _)
  have hstatus := (h.sent (a.sent ++ [.status])).takeStatus (world a.sent.length)
  unfold Screens.refresh
  dsimp only
  split_ifs
  · exact hstatus.refreshClients
  · exact ((htraffic _ _ ((hstatus.sent _).takeEvents _)).sent _).takeSystem _

theorem forceSelected (h : WellFormed a) : WellFormed (forceSelected world a) := by
  unfold Screens.forceSelected
  split
  · exact (h.sent _).takeOutcome _ _
  · exact h

theorem clearForce (h : WellFormed a) : WellFormed (clearForce world a) := (h.sent _).takeOutcome _ _

theorem moveClient (h : WellFormed a) {go : ℕ → ℕ → ℕ}
    (hgo : ∀ n selected, 0 < n → selected < max 1 n → go n selected < max 1 n) :
    WellFormed (moveClient world go a) := by
  unfold Screens.moveClient
  by_cases hclients : a.clients = []
  · rw [if_pos hclients]
    exact h
  · have hmoved : WellFormed { a with clientSelected := go a.clients.length a.clientSelected } :=
      ⟨h.selected, hgo _ _ (List.length_pos_iff.mpr hclients) h.clientSelected, h.window, h.detail⟩
    rw [if_neg hclients]
    dsimp only
    split_ifs
    · exact hmoved.refreshClients
    · exact hmoved

theorem moveProvider (h : WellFormed a) {go : ℕ → ℕ → ℕ}
    (hgo : ∀ n selected, 0 < n → selected < max 1 n → go n selected < max 1 n) :
    WellFormed (moveProvider go a) := by
  unfold Screens.moveProvider
  split_ifs with hproviders
  · exact h
  · exact ⟨hgo _ _ (List.length_pos_iff.mpr hproviders) h.selected, h.clientSelected, h.window,
      h.detail⟩

theorem handleClientKey (h : WellFormed a) (key : Key) :
    WellFormed (handleClientKey world a key) := by
  have hother : a.view ≠ .clientDetail → a.clientDetail = none := by
    intro hne
    rw [← Option.not_isSome_iff_eq_none]
    exact fun hsome => hne (h.detail hsome)
  unfold Screens.handleClientKey
  by_cases hquit : key.code = .char 'c' ∧ key.control = true
  · rw [if_pos hquit]
    exact h.updates _
  · rw [if_neg hquit]
    split
    · exact h.updates _
    iterate 4
      split_ifs with hdetail
      · exact ⟨h.selected, h.clientSelected, h.window, fun hsome => by simp at hsome⟩
      · exact ⟨h.selected, h.clientSelected, h.window, fun hsome => by simp [hother hdetail] at hsome⟩
    · exact ⟨h.selected, h.clientSelected, h.window, fun hsome => by simp at hsome⟩
    iterate 2 exact h.moveClient fun n selected hn _ => next_lt hn selected
    iterate 2 exact h.moveClient fun n selected _ hlt => previous_lt hlt
    iterate 3
      split_ifs
      · exact refreshClients ⟨h.selected, h.clientSelected, h.window, fun _ => rfl⟩
      · exact h
    · exact refreshClients ⟨h.selected, h.clientSelected, Nat.mod_lt _ (by decide), h.detail⟩
    · exact h.refreshClients
    · exact h

theorem handleProviderKey (h : WellFormed a) (hview : a.view = .dashboard) (key : Key)
    (answer : Update.Answer) : WellFormed (handleProviderKey world env a key answer) := by
  have hnone : a.clientDetail.isSome = true → False := by
    intro hsome
    have := h.detail hsome
    rw [hview] at this
    cases this
  unfold Screens.handleProviderKey
  by_cases hquit : key.code = .char 'c' ∧ key.control = true
  · rw [if_pos hquit]
    exact h.updates _
  · rw [if_neg hquit]
    split
    iterate 2 exact h.updates _
    · exact refreshClients ⟨h.selected, h.clientSelected, h.window, fun hsome => (hnone hsome).elim⟩
    iterate 2 exact h.moveProvider fun n selected hn _ => next_lt hn selected
    iterate 2 exact h.moveProvider fun n selected _ hlt => previous_lt hlt
    iterate 2 exact h.forceSelected.refresh
    · exact h.clearForce.refresh
    · exact ⟨h.refresh.selected, h.refresh.clientSelected, h.refresh.window, h.refresh.detail⟩
    · exact h.updates _
    · exact h

theorem handleKey (h : WellFormed a) (key : Key) (answer : Update.Answer) :
    WellFormed (handleKey world env a key answer) := by
  unfold Screens.handleKey
  split_ifs with hreleased hidle hview
  · exact h
  · exact h.updates _
  · exact h.handleClientKey key
  · exact h.handleProviderKey (not_not.mp hview) key answer

theorem turn (h : WellFormed a) (key : Option (Key × Update.Answer)) (stale : Bool) :
    WellFormed (turn world env key stale a) := by
  have hkey : WellFormed (key.elim a fun k => Screens.handleKey world env a k.1 k.2) := by
    cases key with
    | none => exact h
    | some k => exact h.handleKey k.1 k.2
  unfold Screens.turn
  dsimp only
  split_ifs
  · exact (hkey.updates _).refresh
  · exact hkey.updates _

theorem step {u : App} {e : Event} (h : WellFormed a) (hstep : step world env a e = some u) :
    WellFormed u := by
  cases e with
  | turn key stale =>
    unfold Screens.step at hstep
    dsimp only at hstep
    split_ifs at hstep
    obtain rfl := Option.some.inj hstep
    exact h.turn key stale
  | taskQueried currentExe answer =>
    obtain ⟨updates, -, rfl⟩ := Option.map_eq_some_iff.mp hstep
    exact h.updates updates
  | taskEnded result =>
    obtain ⟨updates, -, rfl⟩ := Option.map_eq_some_iff.mp hstep
    exact h.updates updates

end WellFormed

theorem wellFormed_start (snapshot : ControlSnapshot) : WellFormed (start world snapshot) :=
  WellFormed.refresh ⟨lt_max_of_lt_left Nat.one_pos, lt_max_of_lt_left Nat.one_pos,
    show 1 < windows.length by decide, fun hsome => by simp at hsome⟩

theorem commands_run {b : App} {es : List Event} (hrun : Transition.Run (step world env) b es a) :
    commands a = commands b ++ told world env b es := by
  induction es generalizing b with
  | nil =>
    obtain rfl := Option.some.inj (Transition.run_iff_exec.mp hrun)
    exact (List.append_nil _).symm
  | cons e es ih =>
    obtain ⟨u, hstep, hrest⟩ := Transition.run_cons_iff.mp hrun
    rw [ih hrest, commands_step hstep, told, hstep, List.append_assoc]
    rfl

/-- **The daemon is told what the operator says**, in every run of the dashboard, whatever the
daemon answers and whenever it does not; and where there is a provider, one is selected, and where
there are clients, one of them. The details of a client are shown on their own screen. -/
theorem commands_of_run {snapshot : ControlSnapshot} {es : List Event}
    (hrun : Transition.Run (step world env) (start world snapshot) es a) :
    commands a = told world env (start world snapshot) es ∧
      (a.snapshot.providers ≠ [] → ∃ p ∈ a.snapshot.providers, selectedProvider a = some p) ∧
      (a.clients ≠ [] → ∃ c ∈ a.clients, selectedClient a = some c) ∧
      (a.clientDetail.isSome = true → a.view = .clientDetail) := by
  have hwell : WellFormed a := hrun.preserves (fun t e u h hstep => h.step hstep)
    (wellFormed_start snapshot)
  refine ⟨?_, ?_, ?_, hwell.detail⟩
  · rw [commands_run hrun, start, commands_refresh]
    rfl
  · intro hne
    have hpos := List.length_pos_iff.mpr hne
    have hlt : a.selected < a.snapshot.providers.length := by
      have := hwell.selected
      omega
    exact ⟨_, List.getElem_mem hlt, List.getElem?_eq_getElem hlt⟩
  · intro hne
    have hpos := List.length_pos_iff.mpr hne
    have hlt : a.clientSelected < a.clients.length := by
      have := hwell.clientSelected
      omega
    exact ⟨_, List.getElem_mem hlt, List.getElem?_eq_getElem hlt⟩

/-- An uplink that is shown. -/
def wan : ProviderSnapshot where
  name := "wan"
  gateway := "10.0.1.1"
  interface := "eth1"
  priority := 10
  role := "primary"
  state := .up
  lastLatencyMs := none
  lastCheck := none
  consecutiveFailures := 0
  consecutiveSuccesses := 0
  upSince := none
  failureLayer := none
  failureDetail := none
  canaryOk := true
  lastCanaryAt := none
  lastCanarySummary := none
  throughputOk := true
  lastThroughputAt := none
  lastThroughputSummary := none
  pinnedConnections := none

def shown : ControlSnapshot where
  active := some "wan"
  forced := none
  providers := [{ wan with name := "lte" }, wan]
  version := "0.7.1"
  startedAt := none
  activeAdopted := false
  kernelRoute := none
  failbackPending := none

/-- A daemon that answers nothing. -/
def silent : ℕ → Answer := fun _ => .error "timed out"

def noReleases : Update.Env := ⟨"0.7.1", .ok "x86_64-unknown-linux-musl", "vlb", false⟩

/-- The second provider is selected, and is to have the traffic; on the clients' screen the same key
says nothing. -/
def keys : List Event :=
  ([.down, .char 'f', .char 'c', .char 'f'].map fun code =>
    .turn (some (⟨code, false, false⟩, .error "no network")) false)

theorem commands_of_run_keys :
    ((Transition.exec (step silent noReleases) (start silent shown) keys).map commands) =
      some [.force "wan"] := by
  have h : (Transition.exec (step silent noReleases) (start silent shown) keys).isSome := by
    decide +kernel
  rw [← Option.some_get h, Option.map_some,
    (commands_of_run (Transition.run_get h)).1]
  decide +kernel

end Telling

/-! ## The update -/

section Updating

variable {world : ℕ → Answer} {env : Update.Env} {a : App}

/-- What the update sees of the dashboard. -/
def seen (a : App) : Update.Dashboard := { a.updates with onDashboard := decide (a.view = .dashboard) }

/-- What is shown may have changed, but not which screen it is, and the update has not. -/
structure Beside (a b : App) : Prop where
  updates : b.updates = a.updates
  view : b.view = a.view

theorem Beside.trans {b c : App} (h : Beside a b) (h' : Beside b c) : Beside a c :=
  ⟨h'.updates.trans h.updates, h'.view.trans h.view⟩

theorem beside_takeStatus (a : App) (answer : Answer) : Beside a (takeStatus a answer) := by
  unfold takeStatus
  split
  · dsimp only
    split_ifs <;> exact ⟨rfl, rfl⟩
  all_goals exact ⟨rfl, rfl⟩

theorem beside_takeEvents (a : App) (answer : Answer) : Beside a (takeEvents a answer) := by
  unfold takeEvents
  split <;> exact ⟨rfl, rfl⟩

theorem beside_takeTraffic (name : String) (a : App) (answer : Answer) :
    Beside a (takeTraffic name a answer) := by
  unfold takeTraffic
  split <;> exact ⟨rfl, rfl⟩

theorem beside_takeSystem (a : App) (answer : Answer) : Beside a (takeSystem a answer) := by
  unfold takeSystem
  split <;> exact ⟨rfl, rfl⟩

theorem beside_takeClients (a : App) (answer : Answer) : Beside a (takeClients a answer) := by
  unfold takeClients
  split <;> exact ⟨rfl, rfl⟩

theorem beside_takeDetail (a : App) (answer : Answer) : Beside a (takeDetail a answer) := by
  unfold takeDetail
  split <;> exact ⟨rfl, rfl⟩

theorem beside_takeOutcome (failed : String) (a : App) (answer : Answer) :
    Beside a (takeOutcome failed a answer) := by
  unfold takeOutcome
  split <;> exact ⟨rfl, rfl⟩

theorem beside_exchange {take : App → Answer → App} (htake : ∀ b answer, Beside b (take b answer))
    (r : Request) (a : App) : Beside a (exchange world r take a) :=
  ⟨(htake _ _).updates, (htake _ _).view⟩

theorem beside_refreshClients (a : App) : Beside a (refreshClients world a) := by
  have hclients : Beside a (exchange world (.clients (windowHours a)) takeClients a) :=
    beside_exchange beside_takeClients _ a
  unfold refreshClients
  dsimp only
  split_ifs
  · split
    · exact hclients.trans (beside_exchange beside_takeDetail _ _)
    · exact hclients
  · exact hclients

theorem beside_refresh (a : App) : Beside a (refresh world a) := by
  have htraffic (ps : List ProviderSnapshot) (a : App) : Beside a (ps.foldl (fun a p =>
      exchange world (.traffic p.name 180) (takeTraffic p.name) a) a) := by
    induction ps generalizing a with
    | nil => exact ⟨rfl, rfl⟩
    | cons p ps ih => exact (beside_exchange (beside_takeTraffic p.name) _ a).trans (ih _)
  have hstatus : Beside a (exchange world .status takeStatus a) :=
    beside_exchange beside_takeStatus _ a
  unfold refresh
  dsimp only
  split_ifs
  · exact hstatus.trans (beside_refreshClients _)
  · exact ((hstatus.trans (beside_exchange beside_takeEvents _ _)).trans (htraffic _ _)).trans
      (beside_exchange beside_takeSystem _ _)

theorem beside_forceSelected (a : App) : Beside a (forceSelected world a) := by
  unfold forceSelected
  cases selectedProvider a with
  | none => exact ⟨rfl, rfl⟩
  | some p => exact beside_exchange (beside_takeOutcome _) _ a

theorem beside_moveClient (go : ℕ → ℕ → ℕ) (a : App) : Beside a (moveClient world go a) := by
  unfold moveClient
  by_cases hclients : a.clients = []
  · rw [if_pos hclients]
    exact ⟨rfl, rfl⟩
  · rw [if_neg hclients]
    dsimp only
    split_ifs
    · exact ⟨(beside_refreshClients _).updates, (beside_refreshClients _).view⟩
    · exact ⟨rfl, rfl⟩

theorem beside_moveProvider (go : ℕ → ℕ → ℕ) (a : App) : Beside a (moveProvider go a) := by
  unfold moveProvider
  split_ifs <;> exact ⟨rfl, rfl⟩

theorem seen_handleModalKey (a : App) (key : Update.Key) :
    seen { a with updates := Update.handleModalKey a.updates key } =
      Update.handleModalKey (seen a) key := by
  unfold Update.handleModalKey Update.applyUpdate Update.dismissUpdate seen
  dsimp only
  split_ifs
  · rfl
  · split
    · split <;> simp_all
    all_goals simp_all
  · split
    · split <;> simp_all
    all_goals simp_all

theorem seen_checkForUpdate (a : App) (answer : Update.Answer) :
    seen { a with updates := Update.checkForUpdate env a.updates answer } =
      Update.checkForUpdate env (seen a) answer := by
  unfold Update.checkForUpdate
  cases Update.check env env.allowPrerelease answer with
  | error e => rfl
  | ok release =>
    dsimp only
    split_ifs <;> rfl

theorem seen_pollUpdateTask (a : App) :
    seen { a with updates := Update.pollUpdateTask a.updates } = Update.pollUpdateTask (seen a) := by
  unfold Update.pollUpdateTask seen
  dsimp only
  split <;> rfl

variable (env) in
/-- What is not for the update leaves it alone, whichever screen is shown then. -/
theorem handleKey_elsewhere (hidle : a.updates.update = .idle) (hview : a.view ≠ .dashboard)
    (key : Key) (answer : Update.Answer) : Update.handleKey env (seen a) key.forUpdate answer =
      if (key.code = .char 'c' ∧ key.control = true) ∨ key.code = .char 'q' then Update.quit (seen a)
      else seen a := by
  have hseen : (seen a).update = .idle := hidle
  have hon : (seen a).onDashboard = false := decide_eq_false hview
  unfold Update.handleKey Key.forUpdate
  rw [if_neg (not_not.mpr hseen), hon]
  cases hcode : key.code with
  | char c =>
    by_cases hq : c = 'q'
    · subst hq
      simp
    · by_cases hc : c = 'c'
      · subst hc
        simp
      · have hother : ∀ control, Update.Key.char c control ≠ .char 'c' true := by simp [hc]
        rw [if_neg (hother _), if_neg (by simp [hq, hc])]
        split <;> simp_all
  | _ => simp

variable (env) in
theorem handleKey_here (hidle : a.updates.update = .idle) (hview : a.view = .dashboard)
    (key : Key) (answer : Update.Answer) : Update.handleKey env (seen a) key.forUpdate answer =
      if (key.code = .char 'c' ∧ key.control = true) ∨ key.code = .char 'q' ∨ key.code = .esc then
        Update.quit (seen a)
      else if key.code = .char 'u' then Update.checkForUpdate env (seen a) answer
      else seen a := by
  have hseen : (seen a).update = .idle := hidle
  have hon : (seen a).onDashboard = true := decide_eq_true hview
  unfold Update.handleKey Key.forUpdate
  rw [if_neg (not_not.mpr hseen), hon]
  cases hcode : key.code with
  | char c =>
    by_cases hq : c = 'q'
    · subst hq
      simp
    · by_cases hc : c = 'c'
      · subst hc
        simp
      · by_cases hu : c = 'u'
        · subst hu
          simp
        · have hother : ∀ control, Update.Key.char c control ≠ .char 'c' true := by simp [hc]
          rw [if_neg (hother _), if_neg (by simp [hq, hc]), if_neg (by simp [hu])]
          split <;> simp_all
  | _ => simp

/-- After a key, the update is where its own part of the key has taken it. Another screen is shown only
where that is nowhere. -/
def Follows (env : Update.Env) (key : Key) (answer : Update.Answer) (a b : App) : Prop :=
  seen b = Update.handleKey env (seen a) key.forUpdate answer ∨
    b.updates = a.updates ∧ a.updates.update = .idle ∧
      Update.handleKey env (seen a) key.forUpdate answer = seen a

theorem Beside.seen_eq {b : App} (h : Beside a b) : seen b = seen a := by
  unfold seen
  rw [h.updates, h.view]

theorem follows_handleClientKey (hidle : a.updates.update = .idle) (hview : a.view ≠ .dashboard)
    (key : Key) (answer : Update.Answer) : Follows env key answer a (handleClientKey world a key) := by
  have hpart := handleKey_elsewhere env hidle hview key answer
  by_cases hquit : (key.code = .char 'c' ∧ key.control = true) ∨ key.code = .char 'q'
  · rw [if_pos hquit] at hpart
    have hkey : handleClientKey world a key = quit a := by
      unfold handleClientKey
      rcases hquit with hquit | hquit
      · rw [if_pos hquit]
      · rw [if_neg (by simp [hquit]), hquit]
        rfl
    exact Or.inl (hkey ▸ hpart.symm)
  · rw [if_neg hquit] at hpart
    refine Or.inr ⟨?_, hidle, hpart⟩
    rw [not_or] at hquit
    unfold handleClientKey
    rw [if_neg hquit.1]
    split
    · exact absurd ‹_› hquit.2
    iterate 4 split_ifs <;> rfl
    · rfl
    iterate 4 exact (beside_moveClient _ a).updates
    iterate 3
      split_ifs
      · exact (beside_refreshClients _).updates
      · rfl
    · exact (beside_refreshClients _).updates
    · exact (beside_refreshClients _).updates
    · rfl

theorem follows_handleProviderKey (hidle : a.updates.update = .idle) (hview : a.view = .dashboard)
    (key : Key) (answer : Update.Answer) :
    Follows env key answer a (handleProviderKey world env a key answer) := by
  have hpart := handleKey_here env hidle hview key answer
  by_cases hquit : (key.code = .char 'c' ∧ key.control = true) ∨ key.code = .char 'q' ∨ key.code = .esc
  · rw [if_pos hquit] at hpart
    have hkey : handleProviderKey world env a key answer = quit a := by
      unfold handleProviderKey
      rcases hquit with hquit | hquit | hquit
      · rw [if_pos hquit]
      · rw [if_neg (by simp [hquit]), hquit]
        rfl
      · rw [if_neg (by simp [hquit]), hquit]
    exact Or.inl (hkey ▸ hpart.symm)
  · rw [if_neg hquit] at hpart
    by_cases hu : key.code = .char 'u'
    · rw [if_pos hu] at hpart
      have hkey : handleProviderKey world env a key answer =
          { a with updates := Update.checkForUpdate env a.updates answer } := by
        unfold handleProviderKey
        rw [if_neg (by simp [hu]), hu]
        rfl
      exact Or.inl (hkey ▸ (seen_checkForUpdate a answer).trans hpart.symm)
    · rw [if_neg hu] at hpart
      refine Or.inr ⟨?_, hidle, hpart⟩
      rw [not_or, not_or] at hquit
      unfold handleProviderKey
      rw [if_neg hquit.1]
      split
      · exact absurd ‹_› hquit.2.1
      · exact absurd ‹_› hquit.2.2
      · exact (beside_refreshClients _).updates
      iterate 4 exact (beside_moveProvider _ a).updates
      iterate 2 exact ((beside_forceSelected a).trans (beside_refresh _)).updates
      · exact ((beside_exchange (beside_takeOutcome _) _ a).trans (beside_refresh _)).updates
      · exact (beside_refresh a).updates
      · exact absurd ‹_› hu
      · rfl

theorem step_key (hgoes : a.updates.shouldQuit = false) (key : Update.Key) (answer : Update.Answer) :
    Update.step env (seen a) (.key key answer) = some (Update.handleKey env (seen a) key answer) :=
  if_neg (ne_true_of_eq_false hgoes)

theorem run_of_follows {key : Key} {answer : Update.Answer} {b : App}
    (hgoes : a.updates.shouldQuit = false) (h : Follows env key answer a b) :
    ∃ es, Transition.Run (Update.step env) (seen a) es (seen b) := by
  have hnil : Transition.Run (Update.step env) (seen a) [] (seen a) := .nil _
  have hkey := hnil.concat (step_key hgoes key.forUpdate answer)
  rcases h with h | ⟨hupdates, hidle, hkept⟩
  · exact ⟨_, h ▸ hkey⟩
  · rw [hkept] at hkey
    refine ⟨_, hkey.concat (e := .view (decide (b.view = .dashboard))) ?_⟩
    have hview : ¬ (seen a).shouldQuit = true ∧ (seen a).update = .idle :=
      ⟨ne_true_of_eq_false hgoes, hidle⟩
    have hseen : seen b = { seen a with onDashboard := decide (b.view = .dashboard) } := by
      rw [seen, hupdates]
      rfl
    rw [Update.step, if_pos hview, hseen]

theorem run_handleKey (hgoes : a.updates.shouldQuit = false) (key : Key) (answer : Update.Answer) :
    ∃ es, Transition.Run (Update.step env) (seen a) es (seen (handleKey world env a key answer)) := by
  unfold handleKey
  split_ifs with hreleased hmodal hview
  · exact ⟨[], .nil _⟩
  · have hpart : Update.handleKey env (seen a) key.forUpdate answer =
        Update.handleModalKey (seen a) key.forUpdate := if_pos hmodal
    rw [seen_handleModalKey, ← hpart]
    exact ⟨_, (Transition.Run.nil _).concat (step_key hgoes key.forUpdate answer)⟩
  · exact run_of_follows hgoes (follows_handleClientKey (not_not.mp hmodal) hview key answer)
  · exact run_of_follows hgoes
      (follows_handleProviderKey (not_not.mp hmodal) (not_not.mp hview) key answer)

theorem run_turn (hgoes : a.updates.shouldQuit = false) (key : Option (Key × Update.Answer))
    (stale : Bool) :
    ∃ es, Transition.Run (Update.step env) (seen a) es (seen (turn world env key stale a)) := by
  have hkey : ∃ es, Transition.Run (Update.step env) (seen a) es
      (seen (key.elim a fun k => handleKey world env a k.1 k.2)) := by
    cases key with
    | none => exact ⟨[], .nil _⟩
    | some k => exact run_handleKey hgoes k.1 k.2
  obtain ⟨es, hes⟩ := hkey
  refine ⟨es ++ [.poll], hes.concat ?_⟩
  unfold turn
  dsimp only
  split_ifs
  · rw [(beside_refresh _).seen_eq, seen_pollUpdateTask]
    rfl
  · rw [seen_pollUpdateTask]
    rfl

theorem run_step {u : App} {e : Event} (h : step world env a e = some u) :
    ∃ es, Transition.Run (Update.step env) (seen a) es (seen u) := by
  cases e with
  | turn key stale =>
    unfold step at h
    dsimp only at h
    split_ifs at h with hquit
    obtain rfl := Option.some.inj h
    exact run_turn (Bool.eq_false_of_not_eq_true hquit) key stale
  | taskQueried currentExe answer =>
    obtain ⟨updates, hstep, rfl⟩ := Option.map_eq_some_iff.mp h
    refine ⟨_, (Transition.Run.nil _).concat (e := .taskQueried currentExe answer) ?_⟩
    unfold Update.step at hstep ⊢
    dsimp only [seen] at hstep ⊢
    split at hstep
    · obtain rfl := Option.some.inj hstep
      unfold Update.taskQueried
      dsimp only
      split <;> rfl
    · cases hstep
  | taskEnded result =>
    obtain ⟨updates, hstep, rfl⟩ := Option.map_eq_some_iff.mp h
    refine ⟨_, (Transition.Run.nil _).concat (e := .taskEnded result) ?_⟩
    unfold Update.step at hstep ⊢
    dsimp only [seen] at hstep ⊢
    split at hstep
    · obtain rfl := Option.some.inj hstep
      rfl
    · cases hstep

/-- **What the update sees of a run is a run of its own**, so that what is said of its runs is said of
the dashboard. -/
theorem updates_of_run {snapshot : ControlSnapshot} {es : List Event}
    (hrun : Transition.Run (step world env) (start world snapshot) es a) :
    ∃ es', Transition.Run (Update.step env) {} es' (seen a) := by
  have hstart : seen (start world snapshot) = {} := (beside_refresh _).seen_eq
  have hruns : ∃ es', Transition.Run (Update.step env) (seen (start world snapshot)) es' (seen a) :=
    hrun.simulates fun _ _ _ h => run_step h
  exact hstart ▸ hruns

end Updating

end Vlb.Screens
