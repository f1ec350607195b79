import Vlb.Lib.Transition
import Vlb.Update.Version

/-!
# The two ways to an update

`vlb update` asks the releases API once and acts on the answer. The dashboard asks when the operator
presses `u`, and once more in the task that installs what the operator has confirmed.

* `check`: the release that an answer of the API amounts to.
* `doUpdate`: the command line.
* `step`: the dashboard, between its keys, its update task and the answers that they get.
* `performs_newer_iff`: an older release is never installed from the command line without `--force`,
  and is installed from the dashboard where the second answer has one.
-/

namespace Vlb.Update

open Text

/-! ## The releases API -/

/-- A file of a release. -/
structure GhAsset where
  name : String
  browserDownloadUrl : String
  deriving DecidableEq

/-- A release as the API lists it. -/
structure GhRelease where
  tagName : String
  prerelease : Bool := false
  draft : Bool := false
  assets : List GhAsset := []
  deriving DecidableEq

/-- What is installed from. -/
structure ReleaseInfo where
  tag : String
  prerelease : Bool
  archiveUrl : String
  checksumUrl : Option String
  assetName : String
  deriving DecidableEq

/-- What the update reads of the program that runs it, and of its configuration. -/
structure Env where
  /-- `CARGO_PKG_VERSION`. -/
  currentVersion : String
  /-- The platform, where releases are built for it. -/
  hostTarget : Except String String
  repo : String
  allowPrerelease : Bool

/-- What a query comes to: a list of releases, in the order of the server, or why there is none. -/
abbrev Answer := Except String (List GhRelease)

def noCandidate (repo : String) (allowPrerelease : Bool) : String :=
  if allowPrerelease then "repository " ++ repo ++ " has no published releases yet"
  else
    "repository " ++ repo ++ " has no stable releases yet — only pre-releases. " ++
      "Set update.allow_prerelease = true (or pass --pre) to install one."

def noAsset (candidate : GhRelease) (target : String) : String :=
  "release " ++ candidate.tagName ++ " has no asset for " ++ target ++ ". Available: " ++
    ", ".intercalate (candidate.assets.map GhAsset.name)

/-- The asset for this platform: by its name, or else by how the name ends. -/
def archiveOf (candidate : GhRelease) (target : String) : Option GhAsset :=
  let want := "vlb-" ++ candidate.tagName ++ "-" ++ target ++ ".tar.gz"
  (candidate.assets.find? fun a => a.name = want).or
    (candidate.assets.find? fun a => (target ++ ".tar.gz").toList.isSuffixOf a.name.toList)

/-- The first release allowed, and its files. -/
def check (env : Env) (allowPrerelease : Bool) (answer : Answer) : Except String ReleaseInfo := do
  let target ← env.hostTarget
  let releases ← answer
  let candidate ← ((releases.filter fun r => !r.draft).find? fun r =>
    allowPrerelease || !r.prerelease).elim (.error (noCandidate env.repo allowPrerelease)) .ok
  let archive ← (archiveOf candidate target).elim (.error (noAsset candidate target)) .ok
  let checksum := candidate.assets.find? fun a => a.name = archive.name ++ ".sha256"
  return {
    tag := candidate.tagName
    prerelease := candidate.prerelease
    archiveUrl := archive.browserDownloadUrl
    checksumUrl := checksum.map GhAsset.browserDownloadUrl
    assetName := archive.name }

/-- Is the release newer than what runs? -/
def Env.isNewer (env : Env) (release : ReleaseInfo) : Bool :=
  Update.isNewer release.tag.toList env.currentVersion.toList

/-! ## The command line -/

/-- What the command line is told. -/
structure UpdateArgs where
  checkOnly : Bool := false
  pre : Bool := false
  assumeYes : Bool := false
  force : Bool := false

/-- What the command finds besides the answer: the path of the binary, and what the operator types
when asked. -/
structure Terminal where
  currentExe : Except String String
  reply : Except String (List Char)

/-- The release that `perform` is called with, if it comes to that. -/
def doUpdate (env : Env) (args : UpdateArgs) (answer : Answer) (terminal : Terminal) :
    Except String (Option ReleaseInfo) := do
  let release ← check env (args.pre || env.allowPrerelease) answer
  let newer := env.isNewer release
  if !newer && !args.force then return none
  if args.checkOnly then return none
  let _ ← terminal.currentExe
  if args.assumeYes then return some release
  let reply ← terminal.reply
  if toAsciiLowercase (trim reply) ∈ [['y'], ['y', 'e', 's']] then return some release
  return none

/-- **The command line installs what is newer**, or what it is told to. -/
theorem doUpdate_newer {env : Env} {args : UpdateArgs} {answer : Answer} {terminal : Terminal}
    {release : ReleaseInfo} (h : doUpdate env args answer terminal = .ok (some release)) :
    args.force = true ∨ env.isNewer release = true := by
  unfold doUpdate at h
  cases hcheck : check env (args.pre || env.allowPrerelease) answer with
  | error e => simp [hcheck, bind, Except.bind] at h
  | ok r =>
    simp only [hcheck, bind, Except.bind, pure, Except.pure] at h
    by_cases hstop : (!env.isNewer r && !args.force) = true
    · rw [if_pos hstop] at h
      simp at h
    · have hrelease : r = release := by
        rw [if_neg hstop] at h
        cases hexe : terminal.currentExe <;> cases hreply : terminal.reply <;>
          simp only [hexe, hreply] at h <;> split_ifs at h <;> simp_all
      rw [← hrelease]
      cases hforce : args.force with
      | true => exact .inl rfl
      | false =>
        right
        simpa [hforce] using hstop

/-! ## The dashboard -/

/-- What the dashboard shows of an update. -/
inductive UpdateState
  | idle
  | checking
  /-- A newer release is waiting for a yes or no. -/
  | available (tag : String) (prerelease : Bool)
  | upToDate (tag : String)
  | installing (tag : String)
  | done (message : String)
  | failed (error : String)
  deriving DecidableEq

/-- How far the task that installs has come. -/
inductive Task
  | querying
  | performing (release : ReleaseInfo)
  | finished (result : Except String String)

/-- The dashboard, as far as updates go. -/
structure Dashboard where
  update : UpdateState := .idle
  updateTask : Option Task := none
  /-- The clients' screens own the keyboard while they are up. -/
  onDashboard : Bool := true
  shouldQuit : Bool := false
  /-- The calls of `perform` so far. -/
  performed : List ReleaseInfo := []

inductive Key
  | char (c : Char) (control : Bool)
  | enter
  | esc
  | other
  deriving DecidableEq

/-- What happens to it. -/
inductive Event
  /-- A key is pressed. The answer is for a query that it causes. -/
  | key (key : Key) (answer : Answer)
  /-- Another screen is shown, or this one again. -/
  | view (onDashboard : Bool)
  /-- The task has its answer, and the path of the binary. -/
  | taskQueried (currentExe : Except String String) (answer : Answer)
  /-- `perform` returns. -/
  | taskEnded (result : Except String String)
  | poll

variable (env : Env)

/-- The first query. -/
def checkForUpdate (d : Dashboard) (answer : Answer) : Dashboard :=
  match check env env.allowPrerelease answer with
  | .ok release =>
    if env.isNewer release then
      { d with update := .available release.tag release.prerelease }
    else { d with update := .upToDate release.tag }
  | .error e => { d with update := .failed e }

/-- The task is started. -/
def applyUpdate (d : Dashboard) : Dashboard :=
  match d.update with
  | .available tag _ => { d with update := .installing tag, updateTask := some .querying }
  | _ => d

/-- A task that runs is not dismissed. -/
def dismissUpdate (d : Dashboard) : Dashboard :=
  if d.updateTask.isSome then d else { d with update := .idle }

/-- The loop ends after this turn. -/
def quit (d : Dashboard) : Dashboard := { d with shouldQuit := true }

/-- A key while the update has the keyboard. -/
def handleModalKey (d : Dashboard) (key : Key) : Dashboard :=
  if key = .char 'c' true then quit d
  else match d.update with
    | .available _ _ =>
      match key with
      | .char 'y' _ | .char 'Y' _ | .enter => applyUpdate d
      | .char 'n' _ | .char 'N' _ | .esc | .char 'q' _ => dismissUpdate d
      | _ => d
    | .upToDate _ | .done _ | .failed _ => dismissUpdate d
    | .checking | .installing _ | .idle => d

/-- The part of a key that concerns the update. On the other screens `q` quits, and no key asks for an
update. -/
def handleKey (d : Dashboard) (key : Key) (answer : Answer) : Dashboard :=
  if d.update ≠ .idle then handleModalKey d key
  else if key = .char 'c' true then quit d
  else match d.onDashboard, key with
    | _, .char 'q' _ | true, .esc => quit d
    | true, .char 'u' _ => checkForUpdate env d answer
    | _, _ => d

/-- The task goes on to `perform`, with whichever release the answer has. -/
def taskQueried (d : Dashboard) (currentExe : Except String String) (answer : Answer) :
    Dashboard :=
  match check env env.allowPrerelease answer, currentExe with
  | .error e, _ | .ok _, .error e => { d with updateTask := some (.finished (.error e)) }
  | .ok release, .ok _ =>
    { d with updateTask := some (.performing release), performed := d.performed ++ [release] }

/-- What the task has come to is shown. -/
def pollUpdateTask (d : Dashboard) : Dashboard :=
  match d.updateTask with
  | some (.finished (.ok message)) => { d with update := .done message, updateTask := none }
  | some (.finished (.error e)) => { d with update := .failed e, updateTask := none }
  | _ => d

/-- After the key that quits, the task is still polled, and may still run. -/
def step (d : Dashboard) : Event → Option Dashboard
  | .key key answer => if d.shouldQuit then none else some (handleKey env d key answer)
  | .view onDashboard =>
    if ¬ d.shouldQuit ∧ d.update = .idle then some { d with onDashboard } else none
  | .taskQueried currentExe answer =>
    match d.updateTask with
    | some .querying => some (taskQueried env d currentExe answer)
    | _ => none
  | .taskEnded result =>
    match d.updateTask with
    | some (.performing _) => some { d with updateTask := some (.finished result) }
    | _ => none
  | .poll => some (pollUpdateTask d)

/-! ## What is performed -/

/-- The release that the answer to a task's own query amounts to. -/
def installAnswer : Event → Option ReleaseInfo
  | .taskQueried (.ok _) answer => (check env env.allowPrerelease answer).toOption
  | _ => none

variable {env} {d u : Dashboard} {e : Event} {es : List Event}

@[simp] theorem performed_checkForUpdate (answer : Answer) :
    (checkForUpdate env d answer).performed = d.performed := by
  unfold checkForUpdate
  cases check env env.allowPrerelease answer with
  | error e => rfl
  | ok release =>
    dsimp only
    split_ifs <;> rfl

@[simp] theorem performed_applyUpdate : (applyUpdate d).performed = d.performed := by
  unfold applyUpdate
  cases d.update <;> rfl

@[simp] theorem performed_dismissUpdate : (dismissUpdate d).performed = d.performed := by
  unfold dismissUpdate
  split_ifs <;> rfl

@[simp] theorem performed_handleModalKey (key : Key) :
    (handleModalKey d key).performed = d.performed := by
  unfold handleModalKey
  split
  · rfl
  · split
    · split <;> simp
    all_goals simp

@[simp] theorem performed_handleKey (key : Key) (answer : Answer) :
    (handleKey env d key answer).performed = d.performed := by
  unfold handleKey
  split_ifs
  · exact performed_handleModalKey key
  · rfl
  · split
    · rfl
    · rfl
    · exact performed_checkForUpdate answer
    · rfl

@[simp] theorem performed_pollUpdateTask : (pollUpdateTask d).performed = d.performed := by
  unfold pollUpdateTask
  split <;> rfl

/-- **What a step performs**: what the task's own query has been answered with. -/
theorem performed_step (h : step env d e = some u) :
    u.performed = d.performed ++ (installAnswer env e).toList := by
  unfold step at h
  cases e with
  | key key answer =>
    dsimp only at h
    split_ifs at h
    obtain rfl := Option.some.inj h
    simp [installAnswer]
  | view onDashboard =>
    dsimp only at h
    split_ifs at h
    obtain rfl := Option.some.inj h
    simp [installAnswer]
  | taskQueried currentExe answer =>
    dsimp only at h
    split at h
    · obtain rfl := Option.some.inj h
      cases hcheck : check env env.allowPrerelease answer <;> cases currentExe <;>
        simp [taskQueried, installAnswer, hcheck, Except.toOption]
    · injection h
  | taskEnded result =>
    dsimp only at h
    split at h
    · obtain rfl := Option.some.inj h
      simp [installAnswer]
    · injection h
  | poll =>
    obtain rfl := Option.some.inj h
    simp [installAnswer]

/-- Whatever release the task's own query is answered with is newer than what runs. -/
def AnsweredNewer (env : Env) (_ : Dashboard) (e : Event) (_ : Dashboard) : Prop :=
  ∀ release ∈ installAnswer env e, env.isNewer release = true

/-- **From the dashboard** an install is of a newer release where the second answer has one. -/
theorem dashboard_newer_iff (hrun : Transition.Run (step env) {} es d) :
    (∀ release ∈ d.performed, env.isNewer release = true) ↔
      Transition.AllSteps (step env) (AnsweredNewer env) {} es := by
  generalize hd₀ : ({} : Dashboard) = d₀ at hrun
  induction hrun with
  | nil => simp [← hd₀, Transition.allSteps_nil]
  | concat hrun hstep ih =>
    rw [Transition.allSteps_concat hrun, ← ih, performed_step hstep]
    simp only [List.mem_append, Option.mem_toList, Option.mem_def, AnsweredNewer, hstep, Option.some.injEq,
      forall_eq', or_imp, forall_and]

/-- **Both ways to an update.** The command line compares the release that it goes on to install. The
dashboard compares one and installs another, so it takes that the other is newer as well. -/
theorem performs_newer_iff (env : Env) :
    (∀ args answer terminal release, doUpdate env args answer terminal = .ok (some release) →
      args.force = true ∨ env.isNewer release = true) ∧
    ∀ es d, Transition.Run (step env) {} es d →
      ((∀ release ∈ d.performed, env.isNewer release = true) ↔
        Transition.AllSteps (step env) (AnsweredNewer env) {} es) :=
  ⟨fun _ _ _ _ h => doUpdate_newer h, fun _ _ hrun => dashboard_newer_iff hrun⟩

/-- A release is published and taken back while the operator reads the prompt. -/
theorem dashboard_downgrades :
    ¬ ∀ (env : Env) (es : List Event) (d : Dashboard), Transition.Run (step env) {} es d →
      ∀ release ∈ d.performed, env.isNewer release = true := by
  let env : Env := ⟨"1.0.0", .ok "x86_64-unknown-linux-musl", "o/r", false⟩
  let release (tag : String) : GhRelease :=
    { tagName := tag, assets := [⟨"vlb-x86_64-unknown-linux-musl.tar.gz", "https://a/b"⟩] }
  let es : List Event := [.key (.char 'u' false) (.ok [release "v1.1.0", release "v0.9.0"]),
    .key (.char 'y' false) (.ok []), .taskQueried (.ok "/usr/local/bin/vlb") (.ok [release "v0.9.0"])]
  intro h
  have hbad : (Transition.exec (step env) {} es).any (fun d =>
      d.performed.any fun release => !env.isNewer release) = true := by decide +kernel
  obtain ⟨d, hd, hbad⟩ := (Option.any_eq_true _ _).mp hbad
  obtain ⟨release, hmem, hold⟩ := List.any_eq_true.mp hbad
  rw [h env es d (Transition.run_iff_exec.mpr hd) release hmem] at hold
  injection hold

/-! ## The same answer twice -/

/-- An install is waiting: for the operator, or for the answer to its query. -/
def Waiting (d : Dashboard) : Prop :=
  d.updateTask = some .querying ∨ ∃ tag prerelease, d.update = .available tag prerelease

/-- The release of this answer, if it has one, is newer than what runs. -/
def Newer (env : Env) (answer : Answer) : Prop :=
  ∀ release, check env env.allowPrerelease answer = .ok release → env.isNewer release = true

theorem waiting_checkForUpdate {answer : Answer} (h : Waiting (checkForUpdate env d answer)) :
    Waiting d ∨ Newer env answer := by
  unfold checkForUpdate at h
  cases hcheck : check env env.allowPrerelease answer with
  | error e =>
    right
    intro release hrelease
    rw [hcheck] at hrelease
    injection hrelease
  | ok release =>
    by_cases hnewer : env.isNewer release = true
    · right
      intro r hr
      obtain rfl := Except.ok.inj (hcheck.symm.trans hr)
      exact hnewer
    · left
      left
      simpa [hcheck, hnewer, Waiting] using h

theorem waiting_dismissUpdate (h : Waiting (dismissUpdate d)) : Waiting d := by
  unfold dismissUpdate at h
  split_ifs at h
  · exact h
  · left
    simpa [Waiting] using h

theorem waiting_handleModalKey {key : Key} (h : Waiting (handleModalKey d key)) : Waiting d := by
  unfold handleModalKey at h
  split at h
  · exact h
  · split at h
    · next hupdate => exact .inr ⟨_, _, hupdate⟩
    all_goals first
      | exact h
      | exact waiting_dismissUpdate h

theorem waiting_handleKey {key : Key} {answer : Answer}
    (h : Waiting (handleKey env d key answer)) : Waiting d ∨ Newer env answer := by
  unfold handleKey at h
  split_ifs at h
  · exact .inl (waiting_handleModalKey h)
  · exact .inl h
  · split at h
    · exact .inl h
    · exact .inl h
    · exact waiting_checkForUpdate h
    · exact .inl h

/-- The event has this answer for whoever asks. -/
def Answers (answer : Answer) (_ : Dashboard) (e : Event) (_ : Dashboard) : Prop :=
  match e with
  | .key _ a | .taskQueried _ a => a = answer
  | _ => True

/-- An install that is waiting has been compared, as long as the answer stays. -/
theorem waiting_step {answer : Answer} (h : step env d e = some u) (he : Answers answer d e u)
    (hu : Waiting u) : Waiting d ∨ Newer env answer := by
  unfold step at h
  cases e with
  | key key a =>
    dsimp only at h
    split_ifs at h
    obtain rfl := Option.some.inj h
    obtain rfl : a = answer := he
    exact waiting_handleKey hu
  | view onDashboard =>
    dsimp only at h
    split at h
    · obtain rfl := Option.some.inj h
      exact .inl hu
    · injection h
  | taskQueried currentExe a =>
    dsimp only at h
    split at h
    · next htask => exact .inl (.inl htask)
    · injection h
  | taskEnded result =>
    dsimp only at h
    split at h
    · obtain rfl := Option.some.inj h
      left
      right
      simpa [Waiting] using hu
    · injection h
  | poll =>
    obtain rfl := Option.some.inj h
    left
    unfold pollUpdateTask at hu
    split at hu
    · simp [Waiting] at hu
    · simp [Waiting] at hu
    · exact hu

/-- The step that performs is that of a task which was waiting for its answer. -/
theorem waiting_of_installAnswer {release : ReleaseInfo} (h : step env d e = some u)
    (hrelease : installAnswer env e = some release) : Waiting d := by
  unfold installAnswer at hrelease
  split at hrelease
  · unfold step at h
    dsimp only at h
    split at h
    · next htask => exact .inl htask
    · injection h
  · injection hrelease

/-- What has been performed is newer, and so is what is waiting for this answer. -/
def Compared (env : Env) (answer : Answer) (d : Dashboard) : Prop :=
  (Waiting d → Newer env answer) ∧ ∀ release ∈ d.performed, env.isNewer release = true

theorem compared_step {answer : Answer} (hd : Compared env answer d) (h : step env d e = some u)
    (he : Answers answer d e u) : Compared env answer u := by
  obtain ⟨hwaiting, hperformed⟩ := hd
  refine ⟨fun hu => (waiting_step h he hu).elim hwaiting id, fun release hrelease => ?_⟩
  rw [performed_step h, List.mem_append, Option.mem_toList] at hrelease
  obtain hbefore | hnow := hrelease
  · exact hperformed release hbefore
  · have hnewer := hwaiting (waiting_of_installAnswer h hnow)
    unfold installAnswer at hnow
    split at hnow
    · next a =>
      obtain rfl : a = answer := he
      apply hnewer
      cases hcheck : check env env.allowPrerelease a with
      | error e => simp [hcheck, Except.toOption] at hnow
      | ok r =>
        obtain rfl : r = release := by simpa [hcheck, Except.toOption] using hnow
        rfl
    · injection hnow

/-- **As long as the answer stays**, the dashboard installs what it has compared. -/
theorem dashboard_newer_of_same_answer {answer : Answer}
    (hrun : Transition.Run (step env) {} es d)
    (hsame : Transition.AllSteps (step env) (Answers answer) {} es) :
    ∀ release ∈ d.performed, env.isNewer release = true := by
  have hstart : Compared env answer {} := by
    simp [Compared, Waiting]
  exact (hrun.invariant (fun _ _ _ => compared_step) hsame hstart).2

end Vlb.Update
