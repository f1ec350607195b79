import Vlb.Lib.Files
import Vlb.Update.FrontEnds
import Vlb.Update.Preflight

/-!
# Installing an update

`perform` stages the new binary beside the old one, has it prove itself, renames it into place and
restarts the service; if the service does not come back, `rollback` puts the backup in its place.
Every operation on a file, every command and every download may fail.

* `perform`, `rollback`: the steps, with what each of them leaves in the directory.
* `rollbackRestores_iff`: a rollback that is reported restores the binary where the backup had its
  bytes.
* `refusedLeavesNoTrace_iff`: a refused update leaves nothing behind where what it has started to
  write, it can remove.
-/

namespace Vlb.Update

open Files

/-! ## What is given -/

/-- The files of the directory that an update touches. `dest` is the binary, under whatever name; the
others are `vlb.bak`, `.vlb.update.new`, `.vlb.update.probe` and `.vlb.rollback.new`. -/
inductive Name
  | dest
  | backup
  | staged
  | probe
  | rollbackStaged
  deriving DecidableEq

/-- What an update goes by. -/
structure Plan where
  configPath : String
  controlListen : String
  service : String
  restartService : Bool
  skipPreflight : Bool

/-- How each operation on a file ends. -/
structure Io where
  probeWrite : Write := .done
  probeRemoved : Bool := true
  stagedWrite : Write := .done
  stagedExecutable : Bool := true
  /-- The removal of the staged file, by whichever check has refused it. -/
  discarded : Bool := true
  backupCopy : Write := .done
  installed : Bool := true
  rollbackCopy : Write := .done
  rollbackExecutable : Bool := true
  restored : Bool := true

/-- The daemon's answer to a status request. -/
structure Status where
  version : String
  active : Option String
  activeAdopted : Bool

/-- One turn of the wait for the daemon: is the service active, and does it answer? -/
structure Poll where
  active : Bool
  answer : Option Status

/-- What the downloads and the commands come to. -/
structure World where
  download : String → Except String Bytes
  /-- `--version`, `check` and `probe` of the new binary. -/
  reported : Except String String := .ok ""
  configCheck : Except String Unit := .ok ()
  probeRun : Except String (List Char × Bool) := .ok ([], true)
  serviceActive : Bool := true
  restart : Except String Unit := .ok ()
  /-- The turns before the deadline. -/
  polls : List Poll := []
  rollbackRestart : Except String Unit := .ok ()

/-! ## Errors -/

inductive RollbackError
  | noBackup
  | noDirectory
  | copyFailed
  | chmodFailed
  | renameFailed
  | restartFailed (e : String)
  deriving DecidableEq

inductive UpdateError
  | noDirectory
  | notWritable
  | fetch (e : String)
  | stageFailed
  | chmodFailed
  | notRunnable (e : String)
  | configRejected (e : String)
  | quorumNotMet (detail : List Char)
  | renameFailed
  | restartFailed (e : String) (rollback : Except RollbackError Unit)
  | didNotStayUp (rollback : Except RollbackError Unit)

namespace UpdateError

/-- How the rollback went, if the error came after the rename. -/
def rollback? : UpdateError → Option (Except RollbackError Unit)
  | .restartFailed _ rb | .didNotStayUp rb => some rb
  | _ => none

/-- "Rolled back to the previous binary and restarted it." -/
def saysRolledBack (e : UpdateError) : Bool :=
  match e.rollback? with
  | some (.ok ()) => true
  | _ => false

end UpdateError

/-- What an update reports. -/
structure Outcome where
  tag : String
  path : List String
  restarted : Bool := false
  active : Option String := none
  activeAdopted : Bool := false
  notes : List String := []

/-! ## The download -/

/-- `parse_sha256sum_line`: the digest at the front of the first line that has one there. -/
def parseSha256sumLine (text : List Char) : Option (List Char) :=
  go (Text.lines text)
where
  go : List (List Char) → Option (List Char)
    | [] => none
    | line :: rest =>
      match (Text.words line).head? with
      | none => none
      | some token =>
        if token.length = 64 ∧ token.all fun c => (Text.digit? 16 c).isSome then
          some (Text.toAsciiLowercase token)
        else go rest

/-- The crates that the download rests on. -/
structure Crates where
  /-- The digest, in hexadecimal. -/
  sha256 : Bytes → List Char
  /-- `String::from_utf8_lossy`. -/
  utf8Lossy : Bytes → List Char
  /-- The file named `vlb` of the archive. -/
  extract : Bytes → Except String Bytes

/-- `.context(message)`. -/
def context {α : Type} (message : String) (x : Except String α) : Except String α :=
  x.mapError fun e => message ++ ": " ++ e

/-- A checksum that does not match refuses the archive. -/
def fetchVerifiedBinary (crates : Crates) (world : World) (release : ReleaseInfo) :
    Except String Bytes := do
  let archive ← context "failed to download the release archive"
    (world.download release.archiveUrl)
  match release.checksumUrl with
  | some url =>
    let raw ← context "failed to download the checksum file" (world.download url)
    let actual := crates.sha256 archive
    match parseSha256sumLine (crates.utf8Lossy raw) with
    | none => throw "could not parse the published checksum file"
    | some expected =>
      if actual ≠ expected then
        throw ("checksum mismatch for " ++ release.assetName ++ ": published " ++
          String.ofList expected ++ ", downloaded " ++ String.ofList actual ++
          ". Refusing to install — the download is corrupt or has been tampered with.")
  | none =>
    throw ("release " ++ release.tag ++ " publishes no .sha256 for " ++ release.assetName ++
      " — refusing to install an unverified binary. Re-run the release workflow, or install " ++
      "manually.")
  let binary ← context "failed to extract `vlb` from the archive" (crates.extract archive)
  if binary.isEmpty then throw "the extracted binary is empty"
  return binary

/-! ## The steps -/

/-- `Path::parent`, of the parts of a path. -/
def parent (path : List String) : Option (List String) :=
  if path.isEmpty then none else some path.dropLast

/-- What a step comes to, and what it leaves in the directory. -/
abbrev Step (α : Type) := Except UpdateError α × Dir Name

/-- `?`: the steps after an error are not taken. -/
def andThen {α β : Type} (x : Step α) (f : α → Dir Name → Step β) : Step β :=
  match x with
  | (.error e, d) => (.error e, d)
  | (.ok a, d) => f a d

variable (io : Io) (world : World) (plan : Plan)

/-- Is the directory writable? -/
def checkWritable (d : Dir Name) : Step Unit :=
  if (d .dest).isSome then
    match write d .probe [] io.probeWrite with
    | (true, d) => (.ok (), remove d .probe io.probeRemoved)
    | (false, d) => (.error .notWritable, d)
  else (.ok (), d)

/-- The binary is written beside its destination, and made executable. -/
def stage (binary : Bytes) (d : Dir Name) : Step Unit :=
  match write d .staged binary io.stagedWrite with
  | (true, d) => if io.stagedExecutable then (.ok (), d) else (.error .chmodFailed, d)
  | (false, d) => (.error .stageFailed, d)

def preflightCanary : Preflight :=
  match world.probeRun with
  | .ok (output, exitedOk) => classifyPreflight output exitedOk
  | .error why => .unknown why

/-- The checks on the staged binary. -/
def prove : Except UpdateError Unit :=
  match world.reported with
  | .error e => .error (.notRunnable e)
  | .ok _ =>
    match world.configCheck with
    | .error e => .error (.configRejected e)
    | .ok () =>
      if plan.skipPreflight then .ok ()
      else match preflightCanary world with
        | .notMet detail => .error (.quorumNotMet detail)
        | _ => .ok ()

/-- What a check refuses is discarded. -/
def proveStaged (d : Dir Name) : Step Unit :=
  match prove world plan with
  | .error e => (.error e, remove d .staged io.discarded)
  | .ok () => (.ok (), d)

/-- The previous binary is kept, if it can be. -/
def saveBackup (d : Dir Name) : Dir Name :=
  if (d .dest).isSome then (copy d .dest .backup io.backupCopy).2 else d

/-- The backup is saved, and the new binary put in place. -/
def install (d : Dir Name) : Step Unit :=
  match rename (saveBackup io d) .staged .dest io.installed with
  | (true, d) => (.ok (), d)
  | (false, d) => (.error .renameFailed, d)

/-- The backup is put in place, and the service restarted. -/
def rollback (dest : List String) (d : Dir Name) : Except RollbackError Unit × Dir Name :=
  if (d .backup).isNone then (.error .noBackup, d)
  else if (parent dest).isNone then (.error .noDirectory, d)
  else match copy d .backup .rollbackStaged io.rollbackCopy with
    | (false, d) => (.error .copyFailed, d)
    | (true, d) =>
      if !io.rollbackExecutable then (.error .chmodFailed, d)
      else match rename d .rollbackStaged .dest io.restored with
        | (false, d) => (.error .renameFailed, d)
        | (true, d) => (world.rollbackRestart.mapError .restartFailed, d)

/-- The wait for the daemon. `none` if the service stopped; no status if it has not answered by the
deadline. -/
def awaitDaemon : List Poll → Option (Option Status)
  | [] => some none
  | poll :: polls =>
    if !poll.active then none
    else match poll.answer with
      | some status => some (some status)
      | none => awaitDaemon polls

def versionNote (release : ReleaseInfo) (status : Status) : List String :=
  if status.version ≠ "" ∧
      status.version.toList ≠ release.tag.toList.dropWhile (fun c => c == 'v') then
    ["the daemon that answered reports version " ++ status.version ++ " — expected " ++
      release.tag]
  else []

/-- The service is restarted, and waited for. -/
def restartService (release : ReleaseInfo) (dest : List String) (d : Dir Name) : Step Outcome :=
  let outcome : Outcome := { tag := release.tag, path := dest }
  if !plan.restartService then
    (.ok { outcome with notes :=
      ["update.restart_service = false — restart vlb yourself to use the new binary"] }, d)
  else if !world.serviceActive then
    (.ok { outcome with notes := ["the `" ++ plan.service ++
      "` service is not active, so nothing was restarted; the new binary is used on the next " ++
      "start"] }, d)
  else match world.restart with
    | .error e =>
      let (rb, d) := rollback io world dest d
      (.error (.restartFailed e rb), d)
    | .ok () =>
      match awaitDaemon world.polls with
      | none =>
        let (rb, d) := rollback io world dest d
        (.error (.didNotStayUp rb), d)
      | some (some status) =>
        (.ok { outcome with
          restarted := true
          active := status.active
          activeAdopted := status.activeAdopted
          notes := versionNote release status }, d)
      | some none =>
        (.ok { outcome with
          restarted := true
          notes := ["the service is active but its control socket at " ++ plan.controlListen ++
            " did not answer within 30s; check `journalctl -u " ++ plan.service ++ " -n 50`"] }, d)

/-- The steps of an update, up to the first that refuses. -/
def perform (crates : Crates) (release : ReleaseInfo) (dest : List String) (d : Dir Name) :
    Step Outcome :=
  match parent dest with
  | none => (.error .noDirectory, d)
  | some _ =>
    andThen (checkWritable io d) fun _ d =>
    andThen ((fetchVerifiedBinary crates world release).mapError .fetch, d) fun binary d =>
    andThen (stage io binary d) fun _ d =>
    andThen (proveStaged io world plan d) fun _ d =>
    andThen (install io d) fun _ d =>
    restartService io world plan release dest d

/-! ## What the steps leave alone -/

variable {io world plan} {crates : Crates} {release : ReleaseInfo} {dest : List String}
  {d d' : Dir Name} {n : Name} {binary : Bytes} {e : UpdateError}

theorem checkWritable_error (h : checkWritable io d = (.error e, d')) :
    e = .notWritable ∧ io.probeWrite ≠ .done ∧ d' = (write d .probe [] io.probeWrite).2 := by
  unfold checkWritable at h
  split_ifs at h
  · split at h
    · simp at h
    · next d₁ heq =>
      obtain ⟨he, hd⟩ := Prod.mk.inj h
      refine ⟨(Except.error.inj he).symm, fun hdone => ?_, by rw [heq, hd]⟩
      have hfst : (write d .probe [] io.probeWrite).1 = true := write_fst.mpr hdone
      rw [heq] at hfst
      injection hfst
  · simp at h

theorem checkWritable_ok (h : checkWritable io d = (.ok (), d')) :
    d' = d ∨ io.probeWrite = .done ∧
      d' = remove (write d .probe [] io.probeWrite).2 .probe io.probeRemoved := by
  unfold checkWritable at h
  split_ifs at h
  · split at h
    · next d₁ heq =>
      refine .inr ⟨write_fst.mp (congrArg Prod.fst heq), ?_⟩
      rw [heq]
      exact (Prod.mk.inj h).2.symm
    · simp at h
  · exact .inl (Prod.mk.inj h).2.symm

theorem checkWritable_ok_apply (h : checkWritable io d = (.ok (), d')) (hn : n ≠ .probe) :
    d' n = d n := by
  obtain rfl | ⟨-, rfl⟩ := checkWritable_ok h
  · rfl
  · exact (remove_apply_of_ne hn).trans (write_apply_of_ne hn)

theorem stage_error (h : stage io binary d = (.error e, d')) :
    d' = (write d .staged binary io.stagedWrite).2 ∧
      (e = .stageFailed ∧ io.stagedWrite ≠ .done ∨
        e = .chmodFailed ∧ io.stagedExecutable = false) := by
  unfold stage at h
  split at h
  · next d₁ heq =>
    split_ifs at h with hexecutable
    · simp at h
    · obtain ⟨he, hd⟩ := Prod.mk.inj h
      exact ⟨by rw [heq, hd], .inr ⟨(Except.error.inj he).symm, by simpa using hexecutable⟩⟩
  · next d₁ heq =>
    obtain ⟨he, hd⟩ := Prod.mk.inj h
    refine ⟨by rw [heq, hd], .inl ⟨(Except.error.inj he).symm, fun hdone => ?_⟩⟩
    have hfst : (write d .staged binary io.stagedWrite).1 = true := write_fst.mpr hdone
    rw [heq] at hfst
    injection hfst

theorem stage_ok (h : stage io binary d = (.ok (), d')) :
    io.stagedWrite = .done ∧ d' = (write d .staged binary io.stagedWrite).2 := by
  unfold stage at h
  split at h
  · next d₁ heq =>
    split_ifs at h
    · exact ⟨write_fst.mp (congrArg Prod.fst heq), by rw [heq]; exact (Prod.mk.inj h).2.symm⟩
    · simp at h
  · simp at h

theorem prove_error (h : prove world plan = .error e) : e.rollback? = none := by
  unfold prove at h
  split at h
  · rw [← Except.error.inj h]
    rfl
  · split at h
    · rw [← Except.error.inj h]
      rfl
    · split_ifs at h
      split at h
      · rw [← Except.error.inj h]
        rfl
      · simp at h

theorem proveStaged_error (h : proveStaged io world plan d = (.error e, d')) :
    e.rollback? = none ∧ d' = remove d .staged io.discarded := by
  unfold proveStaged at h
  split at h
  · next heq =>
    obtain ⟨he, hd⟩ := Prod.mk.inj h
    rw [Except.error.inj he] at heq
    exact ⟨prove_error heq, hd.symm⟩
  · simp at h

theorem proveStaged_ok (h : proveStaged io world plan d = (.ok (), d')) : d' = d := by
  unfold proveStaged at h
  split at h
  · simp at h
  · exact (Prod.mk.inj h).2.symm

theorem andThen_eq_error {α β : Type} {x : Step α} {f : α → Dir Name → Step β} :
    andThen x f = (.error e, d') ↔
      x = (.error e, d') ∨ ∃ a d, x = (.ok a, d) ∧ f a d = (.error e, d') := by
  obtain ⟨r, d⟩ := x
  cases r <;> simp [andThen]

/-! ## The backup -/

/-- What `vlb.bak` holds once the binary has been copied, or not. -/
def backupAfter (dest backup : Option Bytes) (how : Write) : Option Bytes :=
  match dest, how with
  | none, _ | some _, .refused => backup
  | some bytes, .done => some bytes
  | some bytes, .cutOff written => some (bytes.take written)

theorem saveBackup_backup :
    saveBackup io d .backup = backupAfter (d .dest) (d .backup) io.backupCopy := by
  unfold saveBackup copy backupAfter
  cases hdest : d .dest with
  | none => rfl
  | some bytes => cases io.backupCopy <;> simp [write]

theorem saveBackup_apply_of_ne (h : n ≠ .backup) : saveBackup io d n = d n := by
  unfold saveBackup
  split_ifs
  · exact copy_apply_of_ne h
  · rfl

/-- **What a rollback restores** is the backup. -/
theorem rollback_ok (h : rollback io world dest d = (.ok (), d')) :
    d' .dest = d .backup ∧ d .backup ≠ none := by
  unfold rollback at h
  by_cases hnone : (d .backup).isNone = true
  · simp [hnone] at h
  by_cases hparent : (parent dest).isNone = true
  · simp [hnone, hparent] at h
  rw [if_neg hnone, if_neg hparent] at h
  split at h
  · simp at h
  · next d₁ hcopy =>
    by_cases hexecutable : (!io.rollbackExecutable) = true
    · simp [hexecutable] at h
    rw [if_neg hexecutable] at h
    split at h
    · simp at h
    · next d₂ hrename =>
      obtain ⟨-, rfl⟩ := Prod.mk.inj h
      have hcopied := copy_apply_dst (congrArg Prod.fst hcopy)
      have hrenamed := rename_apply_dst (congrArg Prod.fst hrename)
      rw [hcopy] at hcopied
      rw [hrename] at hrenamed
      exact ⟨hrenamed.trans hcopied, fun hbackup => hnone (by rw [hbackup]; rfl)⟩

theorem restartService_error
    (h : restartService io world plan release dest d = (.error e, d')) :
    plan.restartService = true ∧ ∃ rb, e.rollback? = some rb ∧
      rollback io world dest d = (rb, d') := by
  unfold restartService at h
  dsimp only at h
  split_ifs at h with hrestart hactive
  · simp at h
  · simp at h
  · have hplan : plan.restartService = true := by simpa using hrestart
    split at h
    · obtain ⟨he, hd⟩ := Prod.mk.inj h
      rw [← Except.error.inj he, ← hd]
      exact ⟨hplan, _, rfl, rfl⟩
    · split at h
      · obtain ⟨he, hd⟩ := Prod.mk.inj h
        rw [← Except.error.inj he, ← hd]
        exact ⟨hplan, _, rfl, rfl⟩
      · simp at h
      · simp at h

theorem install_error (h : install io d = (.error e, d')) :
    e = .renameFailed ∧ ¬ (io.installed = true ∧ (d .staged).isSome) ∧ d' = saveBackup io d := by
  have hstaged : saveBackup io d .staged = d .staged := saveBackup_apply_of_ne (by decide)
  unfold install at h
  split at h
  · simp at h
  · next d₁ hrename =>
    obtain ⟨he, hd⟩ := Prod.mk.inj h
    refine ⟨(Except.error.inj he).symm, fun hboth => ?_, ?_⟩
    · rw [← hstaged] at hboth
      have hfst : (rename (saveBackup io d) .staged .dest io.installed).1 = true :=
        rename_fst.mpr hboth
      rw [hrename] at hfst
      injection hfst
    · have hsame := rename_of_not (congrArg Prod.fst hrename)
      rw [hrename] at hsame
      exact hd.symm.trans hsame

theorem install_ok (h : install io d = (.ok (), d')) :
    d' .backup = backupAfter (d .dest) (d .backup) io.backupCopy := by
  unfold install at h
  split at h
  · next d₁ hrename =>
    obtain rfl := (Prod.mk.inj h).2
    have hbackup : (rename (saveBackup io d) .staged .dest io.installed).2 .backup =
        saveBackup io d .backup := rename_apply_of_ne (by decide) (by decide)
    rw [hrename, saveBackup_backup] at hbackup
    exact hbackup
  · simp at h

/-- The steps up to the restart, of which one has refused the update or the last has installed it. -/
theorem perform_error (h : perform io world plan crates release dest d = (.error e, d')) :
    (e = .noDirectory ∧ d' = d) ∨ checkWritable io d = (.error e, d') ∨
      ∃ d₁, checkWritable io d = (.ok (), d₁) ∧
        ((∃ why, e = .fetch why ∧ d' = d₁) ∨
          ∃ binary, stage io binary d₁ = (.error e, d') ∨
            ∃ d₂, stage io binary d₁ = (.ok (), d₂) ∧
              (proveStaged io world plan d₂ = (.error e, d') ∨ install io d₂ = (.error e, d') ∨
                ∃ d₃, install io d₂ = (.ok (), d₃) ∧
                  restartService io world plan release dest d₃ = (.error e, d'))) := by
  unfold perform at h
  split at h
  · obtain ⟨he, hd⟩ := Prod.mk.inj h
    exact .inl ⟨(Except.error.inj he).symm, hd.symm⟩
  rw [andThen_eq_error] at h
  obtain hwritable | ⟨⟨⟩, d₁, hwritable, h⟩ := h
  · exact .inr (.inl hwritable)
  refine .inr (.inr ⟨d₁, hwritable, ?_⟩)
  rw [andThen_eq_error] at h
  obtain hfetch | ⟨binary, d₁', hfetch, h⟩ := h
  · left
    obtain ⟨he, hd⟩ := Prod.mk.inj hfetch
    cases hfetched : fetchVerifiedBinary crates world release with
    | ok binary => simp [hfetched, Except.mapError] at he
    | error why =>
      rw [hfetched] at he
      exact ⟨why, (Except.error.inj he).symm, hd.symm⟩
  obtain rfl : d₁ = d₁' := (Prod.mk.inj hfetch).2
  refine .inr ⟨binary, ?_⟩
  rw [andThen_eq_error] at h
  obtain hstage | ⟨⟨⟩, d₂, hstage, h⟩ := h
  · exact .inl hstage
  refine .inr ⟨d₂, hstage, ?_⟩
  rw [andThen_eq_error] at h
  obtain hprove | ⟨⟨⟩, d₂', hprove, h⟩ := h
  · exact .inl hprove
  obtain rfl := proveStaged_ok hprove
  rw [andThen_eq_error] at h
  obtain hinstall | ⟨⟨⟩, d₃, hinstall, h⟩ := h
  · exact .inr (.inl hinstall)
  · exact .inr (.inr ⟨d₃, hinstall, h⟩)

/-- **A rollback that is reported** has put in place what the backup held after the copy. -/
theorem perform_rolledBack (h : perform io world plan crates release dest d = (.error e, d'))
    (he : e.saysRolledBack = true) :
    plan.restartService = true ∧ d' .dest = backupAfter (d .dest) (d .backup) io.backupCopy ∧
      backupAfter (d .dest) (d .backup) io.backupCopy ≠ none := by
  have hsome : e.rollback? = some (.ok ()) := by
    unfold UpdateError.saysRolledBack at he
    split at he
    · next heq => exact heq
    · injection he
  obtain ⟨rfl, -⟩ | hwritable | ⟨d₁, hwritable, ⟨why, rfl, -⟩ | ⟨binary, hstage | ⟨d₂, hstage,
    hprove | hinstall | ⟨d₃, hinstall, hrestart⟩⟩⟩⟩ := perform_error h
  · simp [UpdateError.rollback?] at hsome
  · rw [(checkWritable_error hwritable).1] at hsome
    simp [UpdateError.rollback?] at hsome
  · simp [UpdateError.rollback?] at hsome
  · obtain ⟨-, ⟨rfl, -⟩ | ⟨rfl, -⟩⟩ := stage_error hstage <;>
      simp [UpdateError.rollback?] at hsome
  · rw [(proveStaged_error hprove).1] at hsome
    injection hsome
  · rw [(install_error hinstall).1] at hsome
    simp [UpdateError.rollback?] at hsome
  · obtain ⟨hplan, rb, hrb, hrollback⟩ := restartService_error hrestart
    obtain rfl : rb = .ok () := Option.some.inj (hrb.symm.trans hsome)
    obtain ⟨hdest, hne⟩ := rollback_ok hrollback
    have hframe : ∀ n, n ≠ .probe → n ≠ .staged → d₂ n = d n := by
      intro n hprobe hstaged
      rw [(stage_ok hstage).2, write_apply_of_ne hstaged, checkWritable_ok_apply hwritable hprobe]
    have hbackup : d₃ .backup = backupAfter (d .dest) (d .backup) io.backupCopy := by
      rw [install_ok hinstall, hframe .dest (by decide) (by decide),
        hframe .backup (by decide) (by decide)]
    rw [hbackup] at hdest hne
    exact ⟨hplan, hdest, hne⟩

/-! ## Rolling back -/

/-- In whichever way the other steps, the commands and the downloads end: when the update says that it
has rolled back, the binary is what it was. -/
def RollbackRestores (restartService : Bool) (backupCopy : Write) (d : Dir Name) : Prop :=
  ∀ io world plan crates release dest e d', plan.restartService = restartService →
    io.backupCopy = backupCopy → perform io world plan crates release dest d = (.error e, d') →
      e.saysRolledBack = true → d' .dest = d .dest

/-- What ends up in `vlb.bak`, if anything does, is what the binary was: it was copied, or the copy
that was cut off had it all, or what was there before is the same. -/
def BackupSound (d : Dir Name) (backupCopy : Write) : Prop :=
  match d .dest, backupCopy with
  | none, _ => d .backup = none
  | some _, .done => True
  | some bytes, .refused => d .backup = none ∨ d .backup = some bytes
  | some bytes, .cutOff written => bytes.length ≤ written

theorem backupSound_iff {backupCopy : Write} : BackupSound d backupCopy ↔
    backupAfter (d .dest) (d .backup) backupCopy = none ∨
      backupAfter (d .dest) (d .backup) backupCopy = d .dest := by
  unfold BackupSound backupAfter
  cases d .dest with
  | none => simp
  | some bytes => cases backupCopy <;> simp [List.take_eq_self_iff]

/-- A release that is downloaded, checked and unpacked. -/
def someRelease : ReleaseInfo := ⟨"v2.0.0", false, "archive", some "checksum", "vlb.tar.gz"⟩

def someCrates : Crates where
  sha256 _ := List.replicate 64 '0'
  utf8Lossy _ := List.replicate 64 '0'
  extract _ := .ok [2]

/-- The commands and downloads go well. -/
def someWorld : World := { download := fun _ => .ok [] }

def somePlan (restartService : Bool) : Plan :=
  ⟨"/etc/vlb/vlb.toml", "127.0.0.1:9876", "vlb", restartService, true⟩

theorem exists_rollback {backupCopy : Write}
    (hbackup : backupAfter (d .dest) (d .backup) backupCopy ≠ none) :
    ∃ io world plan crates release dest e d', plan.restartService = true ∧
      io.backupCopy = backupCopy ∧
        perform io world plan crates release dest d = (.error e, d') ∧ e.saysRolledBack = true := by
  let io : Io := { backupCopy }
  let world : World := { someWorld with restart := .error "" }
  have hwritable : ∃ d₁, checkWritable io d = (.ok (), d₁) := by
    unfold checkWritable
    split_ifs
    · exact ⟨_, rfl⟩
    · exact ⟨_, rfl⟩
  obtain ⟨d₁, hwritable⟩ := hwritable
  have hstage : stage io [2] d₁ = (.ok (), Function.update d₁ .staged (some [2])) := rfl
  have hinstall : ∃ d₃, install io (Function.update d₁ .staged (some [2])) = (.ok (), d₃) := by
    cases hinstall : install io (Function.update d₁ .staged (some [2])) with
    | mk r d₃ =>
      cases r with
      | ok u => exact ⟨d₃, rfl⟩
      | error e =>
        have hnot := (install_error hinstall).2.1
        simp [io] at hnot
  obtain ⟨d₃, hinstall⟩ := hinstall
  have hbackup₃ : d₃ .backup = backupAfter (d .dest) (d .backup) backupCopy := by
    rw [install_ok hinstall]
    simp only [Function.update_of_ne, ne_eq, reduceCtorEq, not_false_iff,
      checkWritable_ok_apply hwritable, io]
  obtain ⟨bytes, hbytes⟩ := Option.ne_none_iff_exists'.mp (hbackup₃ ▸ hbackup)
  have hrollback : ∃ d', rollback io world ["vlb"] d₃ = (.ok (), d') := by
    have hcopy : copy d₃ .backup .rollbackStaged io.rollbackCopy =
        (true, Function.update d₃ .rollbackStaged (some bytes)) := by
      rw [copy, hbytes]
      rfl
    have hrename : ∃ d', rename (Function.update d₃ .rollbackStaged (some bytes)) .rollbackStaged
        .dest io.restored = (true, d') := by
      rw [rename, Function.update_self]
      exact ⟨_, rfl⟩
    obtain ⟨d', hrename⟩ := hrename
    refine ⟨d', ?_⟩
    simp only [rollback, hbytes, hcopy, hrename]
    rfl
  obtain ⟨d', hrollback⟩ := hrollback
  refine ⟨io, world, somePlan true, someCrates, someRelease, ["vlb"], .restartFailed "" (.ok ()), d',
    rfl, rfl, ?_, rfl⟩
  have hfetch : fetchVerifiedBinary someCrates world someRelease = .ok [2] := rfl
  have hprove : proveStaged io world (somePlan true) (Function.update d₁ .staged (some [2])) =
      (.ok (), Function.update d₁ .staged (some [2])) := rfl
  have hrestart : restartService io world (somePlan true) someRelease ["vlb"] d₃ =
      (.error (.restartFailed "" (.ok ())), d') := by
    simp only [restartService, hrollback]
    rfl
  simp only [perform, parent, andThen, hwritable, hfetch, hstage, hprove, hinstall, hrestart,
    Except.mapError, List.isEmpty_cons, Bool.false_eq_true, if_false]

/-- **When the update says that it has rolled back**, the binary is what it was, for whatever else
happens, where the backup was sound. -/
theorem rollbackRestores_iff (restartService : Bool) (backupCopy : Write) (d : Dir Name) :
    RollbackRestores restartService backupCopy d ↔
      (restartService = true → BackupSound d backupCopy) := by
  rw [backupSound_iff]
  constructor
  · intro h hrestart
    by_cases hnone : backupAfter (d .dest) (d .backup) backupCopy = none
    · exact .inl hnone
    · obtain ⟨io, world, plan, crates, release, dest, e, d', hplan, hcopy, hperform, he⟩ :=
        exists_rollback hnone
      have hsame := h io world plan crates release dest e d' (hplan.trans hrestart.symm) hcopy
        hperform he
      rw [(perform_rolledBack hperform he).2.1, hcopy] at hsame
      exact .inr hsame
  · intro h io world plan crates release dest e d' hplan hcopy hperform he
    obtain ⟨hrestart, hdest, hne⟩ := perform_rolledBack hperform he
    rw [hcopy] at hdest hne
    obtain hnone | hsame := h (hplan.symm.trans hrestart)
    · exact absurd hnone hne
    · exact hdest.trans hsame

/-- The copy of the binary is refused, and `vlb.bak` is an older version's. -/
theorem rollback_restores_stale :
    ¬ ∀ (io : Io) (world : World) (plan : Plan) (crates : Crates) (release : ReleaseInfo)
      (dest : List String) (d d' : Dir Name) (e : UpdateError),
      perform io world plan crates release dest d = (.error e, d') → e.saysRolledBack = true →
        d' .dest = d .dest := by
  intro h
  let d : Dir Name := fun n => match n with
    | .dest => some [1]
    | .backup => some [0]
    | _ => none
  have hbackup : backupAfter (d .dest) (d .backup) .refused ≠ none := Option.some_ne_none _
  obtain ⟨io, world, plan, crates, release, dest, e, d', -, hcopy, hperform, he⟩ :=
    exists_rollback hbackup
  have hsame := h io world plan crates release dest d d' e hperform he
  rw [(perform_rolledBack hperform he).2.1, hcopy] at hsame
  exact absurd hsame (by decide)

/-! ## Refusing -/

/-- The binary is untouched, and no staged file or probe is there that was not. -/
def NoTrace (d d' : Dir Name) : Prop :=
  d' .dest = d .dest ∧ ∀ n ∈ [Name.staged, .probe], d' n = none ∨ d' n = d n

/-- In whichever directory, and however the commands and the downloads end. -/
def RefusedLeavesNoTrace (io : Io) : Prop :=
  ∀ world plan crates release dest d d' e,
    perform io world plan crates release dest d = (.error e, d') → e.rollback? = none → NoTrace d d'

/-- A write that fails has not begun; what has been written can be removed; and once the staged file
is there, making it executable and renaming it succeed. -/
def Tidy (io : Io) : Prop :=
  (io.probeWrite = .refused ∨ io.probeWrite = .done ∧ io.probeRemoved = true) ∧
    (io.stagedWrite = .refused ∨ io.stagedWrite = .done ∧ io.stagedExecutable = true ∧
      io.discarded = true ∧ io.installed = true)

/-- **A refused update never touches the binary.** -/
theorem refused_dest (h : perform io world plan crates release dest d = (.error e, d'))
    (he : e.rollback? = none) : d' .dest = d .dest := by
  obtain ⟨-, rfl⟩ | hwritable | ⟨d₁, hwritable, ⟨why, -, rfl⟩ | ⟨binary, hstage | ⟨d₂, hstage,
    hprove | hinstall | ⟨d₃, hinstall, hrestart⟩⟩⟩⟩ := perform_error h
  · rfl
  · rw [(checkWritable_error hwritable).2.2]
    exact write_apply_of_ne (by decide)
  · exact checkWritable_ok_apply hwritable (by decide)
  · rw [(stage_error hstage).1, write_apply_of_ne (by decide)]
    exact checkWritable_ok_apply hwritable (by decide)
  · rw [(proveStaged_error hprove).2, remove_apply_of_ne (by decide), (stage_ok hstage).2,
      write_apply_of_ne (by decide)]
    exact checkWritable_ok_apply hwritable (by decide)
  · rw [(install_error hinstall).2.2, saveBackup_apply_of_ne (by decide), (stage_ok hstage).2,
      write_apply_of_ne (by decide)]
    exact checkWritable_ok_apply hwritable (by decide)
  · obtain ⟨-, rb, hrb, -⟩ := restartService_error hrestart
    rw [he] at hrb
    injection hrb

theorem checkWritable_probe (hio : Tidy io) (h : checkWritable io d = (.ok (), d')) :
    d' .probe = none ∨ d' .probe = d .probe := by
  obtain rfl | ⟨hdone, rfl⟩ := checkWritable_ok h
  · exact .inr rfl
  · left
    obtain hrefused | ⟨-, hremoved⟩ := hio.1
    · rw [hdone] at hrefused
      injection hrefused
    · rw [hremoved]
      exact remove_true_apply

theorem refused_noTrace (hio : Tidy io)
    (h : perform io world plan crates release dest d = (.error e, d')) (he : e.rollback? = none) :
    NoTrace d d' := by
  refine ⟨refused_dest h he, ?_⟩
  rw [List.forall_mem_cons, List.forall_mem_singleton]
  obtain ⟨-, rfl⟩ | hwritable | ⟨d₁, hwritable, ⟨why, -, rfl⟩ | ⟨binary, hstage | ⟨d₂, hstage,
    hprove | hinstall | ⟨d₃, hinstall, hrestart⟩⟩⟩⟩ := perform_error h
  · exact ⟨.inr rfl, .inr rfl⟩
  · obtain ⟨-, hnot, rfl⟩ := checkWritable_error hwritable
    obtain hrefused | ⟨hdone, -⟩ := hio.1
    · rw [hrefused]
      exact ⟨.inr rfl, .inr rfl⟩
    · exact absurd hdone hnot
  · exact ⟨.inr (checkWritable_ok_apply hwritable (by decide)), checkWritable_probe hio hwritable⟩
  · obtain ⟨hd, hwhy⟩ := stage_error hstage
    obtain hrefused | ⟨hdone, hexecutable, -⟩ := hio.2
    · rw [hrefused] at hd
      subst hd
      exact ⟨.inr (checkWritable_ok_apply hwritable (by decide)),
        checkWritable_probe hio hwritable⟩
    · obtain ⟨-, hnot⟩ | ⟨-, hnot⟩ := hwhy
      · exact absurd hdone hnot
      · rw [hexecutable] at hnot
        injection hnot
  · obtain ⟨hdone, rfl⟩ := stage_ok hstage
    obtain hrefused | ⟨-, -, hdiscarded, -⟩ := hio.2
    · rw [hdone] at hrefused
      injection hrefused
    · rw [(proveStaged_error hprove).2, hdiscarded, remove_true_apply,
        remove_apply_of_ne (by decide), write_apply_of_ne (by decide)]
      exact ⟨.inl rfl, checkWritable_probe hio hwritable⟩
  · obtain ⟨hdone, rfl⟩ := stage_ok hstage
    obtain hrefused | ⟨-, -, -, hinstalled⟩ := hio.2
    · rw [hdone] at hrefused
      injection hrefused
    · have hnot := (install_error hinstall).2.1
      rw [hdone, write_done_apply] at hnot
      exact absurd ⟨hinstalled, rfl⟩ hnot
  · obtain ⟨-, rb, hrb, -⟩ := restartService_error hrestart
    rw [he] at hrb
    injection hrb

theorem not_noTrace {bytes : Bytes} (hn : n ∈ [Name.staged, .probe]) (hbefore : d n = none)
    (hafter : d' n = some bytes) : ¬ NoTrace d d' := by
  intro h
  have hsame := h.2 n hn
  rw [hbefore, hafter, or_self] at hsame
  injection hsame

theorem probe_tidy (h : RefusedLeavesNoTrace io) :
    io.probeWrite = .refused ∨ io.probeWrite = .done ∧ io.probeRemoved = true := by
  let d : Dir Name := Function.update (fun _ => none) .dest (some [1])
  have hd : d .probe = none := rfl
  cases hwrite : io.probeWrite with
  | refused => exact .inl rfl
  | cutOff written =>
    have hperform : perform io someWorld (somePlan true) someCrates someRelease ["vlb"] d =
        (.error .notWritable, (write d .probe [] (.cutOff written)).2) := by
      simp only [perform, parent, checkWritable, hwrite]
      rfl
    have htrace : (write d .probe [] (.cutOff written)).2 .probe = some ([].take written) := rfl
    exact absurd (h _ _ _ _ _ d _ _ hperform rfl) (not_noTrace (by decide) hd htrace)
  | done =>
    refine .inr ⟨rfl, ?_⟩
    by_contra hremoved
    have hkept : io.probeRemoved = false := by simpa using hremoved
    -- the download fails, and the probe is still there
    have hperform : perform io { someWorld with download := fun _ => .error "" } (somePlan true)
        someCrates someRelease ["vlb"] d =
          (.error (.fetch "failed to download the release archive: "),
            (write d .probe [] .done).2) := by
      simp only [perform, parent, checkWritable, hwrite, hkept]
      rfl
    exact absurd (h _ _ _ _ _ d _ _ hperform rfl) (not_noTrace (by decide) hd write_done_apply)

theorem perform_of_stage {world : World} (hdownload : world.download = someWorld.download) :
    perform io world (somePlan true) someCrates someRelease ["vlb"] (fun _ => none) =
      andThen (stage io [2] fun _ => none) fun _ d =>
        andThen (proveStaged io world (somePlan true) d) fun _ d =>
          andThen (install io d) fun _ d =>
            restartService io world (somePlan true) someRelease ["vlb"] d := by
  have hfetch : fetchVerifiedBinary someCrates world someRelease = .ok [2] := by
    rw [fetchVerifiedBinary, hdownload]
    rfl
  simp only [perform, parent, checkWritable, hfetch]
  rfl

theorem staged_tidy (h : RefusedLeavesNoTrace io) :
    io.stagedWrite = .refused ∨ io.stagedWrite = .done ∧ io.stagedExecutable = true ∧
      io.discarded = true ∧ io.installed = true := by
  have hempty : (fun _ => none : Dir Name) .staged = none := rfl
  cases hwrite : io.stagedWrite with
  | refused => exact .inl rfl
  | cutOff written =>
    have hperform : perform io someWorld (somePlan true) someCrates someRelease ["vlb"]
        (fun _ => none) = (.error .stageFailed,
          (write (fun _ => none) .staged [2] (.cutOff written)).2) := by
      simp only [perform_of_stage, stage, hwrite]
      rfl
    have htrace : (write (fun _ => none : Dir Name) .staged [2] (.cutOff written)).2 .staged =
        some ([2].take written) := rfl
    exact absurd (h _ _ _ _ _ _ _ _ hperform rfl) (not_noTrace (by decide) hempty htrace)
  | done =>
    have hexecutable : io.stagedExecutable = true := by
      by_contra hnot
      have hfalse : io.stagedExecutable = false := by simpa using hnot
      have hperform : perform io someWorld (somePlan true) someCrates someRelease ["vlb"]
          (fun _ => none) = (.error .chmodFailed, (write (fun _ => none) .staged [2] .done).2) := by
        simp only [perform_of_stage, stage, hwrite, hfalse]
        rfl
      exact absurd (h _ _ _ _ _ _ _ _ hperform rfl)
        (not_noTrace (by decide) hempty write_done_apply)
    have hdiscarded : io.discarded = true := by
      by_contra hnot
      have hfalse : io.discarded = false := by simpa using hnot
      let world : World := { download := someWorld.download, reported := .error "" }
      have hdownload : world.download = someWorld.download := rfl
      have hperform : perform io world (somePlan true) someCrates someRelease ["vlb"]
          (fun _ => none) = (.error (.notRunnable ""),
            (write (fun _ => none) .staged [2] .done).2) := by
        rw [perform_of_stage hdownload]
        simp only [stage, hwrite, hexecutable, proveStaged, hfalse]
        rfl
      exact absurd (h _ _ _ _ _ _ _ _ hperform rfl)
        (not_noTrace (by decide) hempty write_done_apply)
    have hinstalled : io.installed = true := by
      by_contra hnot
      have hfalse : io.installed = false := by simpa using hnot
      have hperform : perform io someWorld (somePlan true) someCrates someRelease ["vlb"]
          (fun _ => none) = (.error .renameFailed, (write (fun _ => none) .staged [2] .done).2) := by
        simp only [perform_of_stage, stage, hwrite, hexecutable, install, hfalse]
        rfl
      exact absurd (h _ _ _ _ _ _ _ _ hperform rfl)
        (not_noTrace (by decide) hempty write_done_apply)
    exact .inr ⟨rfl, hexecutable, hdiscarded, hinstalled⟩

/-- **What a refused update leaves behind**: never another binary, and nothing at all, whichever step
refuses, where the files are tidy. -/
theorem refusedLeavesNoTrace_iff (io : Io) :
    (∀ world plan crates release dest d d' e,
      perform io world plan crates release dest d = (.error e, d') → e.rollback? = none →
        d' .dest = d .dest) ∧
    (RefusedLeavesNoTrace io ↔ Tidy io) :=
  ⟨fun _ _ _ _ _ _ _ _ => refused_dest,
    fun h => ⟨probe_tidy h, staged_tidy h⟩, fun hio _ _ _ _ _ _ _ _ => refused_noTrace hio⟩

/-- The disk is full, and what has been written of the new binary stays. -/
theorem refused_leaves_staged :
    ¬ ∀ (io : Io) (world : World) (plan : Plan) (crates : Crates) (release : ReleaseInfo)
      (dest : List String) (d d' : Dir Name) (e : UpdateError),
      perform io world plan crates release dest d = (.error e, d') → e.rollback? = none →
        NoTrace d d' := by
  intro h
  have htidy := staged_tidy
    fun world plan crates release dest d d' e =>
      h { stagedWrite := .cutOff 1 } world plan crates release dest d d' e
  simp at htidy

end Vlb.Update
