/-
  File transactions of the Linux maintenance helper (`usque-update/src/linux/transaction.rs`).

  * The calls of the file system and of the service manager are operations (`UpdateOp`). The
    journal that a transaction holds in memory is passed along and returned.
  * SHA-256 is a parameter (`Sha256`). Staged files and backups hold whatever is read of them;
    the code checks it against a recorded identity.
  * `call`, `report` and `finished` note when a recovery begins, what it returns, and what
    `finish_operation` returns; the source has no such calls.
-/
import Usque.Lib.Bytes
import Usque.Lib.Service

namespace Usque.Update
open Lib Fallible

/-- `linux::Error`, as far as transactions raise it. -/
inductive Error where
  | installation
  | maintenance
  | recoveryRequired
  | io (code : ℕ)
deriving DecidableEq

/-- `sha2::Sha256`: the texts of its digests, and the digest of bytes. -/
class Sha256 where
  Digest : Type
  decEq : DecidableEq Digest
  digest : Bytes → Digest

attribute [instance] Sha256.decEq

variable [Sha256]

structure Identity where
  size : ℕ
  sha256 : Sha256.Digest
  mode : ℕ
deriving DecidableEq

def MAX_PACKAGE_BYTES : ℕ := 512 * 1024 * 1024

namespace Identity

/-- `Identity::validate`; every digest is a text of 64 hexadecimal digits. -/
def validate (identity : Identity) : Bool :=
  decide (identity.size ≤ MAX_PACKAGE_BYTES) && decide (identity.mode < 0o1000) &&
    identity.mode &&& 0o022 == 0

def sameBytes (identity other : Identity) : Bool :=
  identity.size == other.size && identity.sha256 == other.sha256

end Identity

structure Change where
  name : String
  prior : Option Identity
  candidate : Option Identity
deriving DecidableEq

structure Journal where
  schemaVersion : ℕ := 1
  stage : String
  replacing : Bool
  previousActive : Bool
  previousEnabled : Bool
  startAttempted : Bool := false
  enablementAttempted : Bool := false
  candidateStopped : Bool := false
  enablementReverted : Bool := false
  complete : Bool := false
  rolledBack : Bool := false
  changes : List Change := []
deriving DecidableEq

inductive Recovery where
  | noTransaction
  | committed
  | rolledBack
deriving DecidableEq

def SERVICE_FILES : List String :=
  ["usr/lib/usque/usque-agent", "usr/lib/usque/usque-engine", "usr/lib/usque/usque-update",
    "usr/lib/systemd/system/usque-agent.service",
    "usr/share/polkit-1/actions/io.github.georgexie2333.usque.policy"]

/-- `RECORD`, without its leading slash. -/
def RECORD : String := "etc/usque/install.json"

section
variable (source : Source) (journal : Journal) (name : String)

def allowed : Bool := SERVICE_FILES.contains name || name == RECORD

def safeStageName : Bool :=
  "transaction-".isPrefixOf name && decide (name.utf8ByteSize ≤ 128) &&
    name.toList.all fun c => c.isAlphanum || c == '-' || c == '_'

def Journal.accepted : Bool :=
  journal.schemaVersion == 1 && safeStageName journal.stage &&
    decide (journal.changes.length ≤ SERVICE_FILES.length + 1) &&
    (journal.changes.all fun change => allowed change.name &&
      change.prior.all Identity.validate && change.candidate.all Identity.validate) &&
    decide (journal.changes.map Change.name).Nodup

/-! ## Operations -/

structure ServiceFile where
  bytes : Bytes
  mode : ℕ
deriving DecidableEq

/-- `Store::identity` of a file. -/
def ServiceFile.identity (file : ServiceFile) : Identity :=
  ⟨file.bytes.length, Sha256.digest file.bytes, file.mode &&& 0o777⟩

inductive Source where
  | staged (path : String)
  | backup (index : ℕ)

/-- Calls that succeed or not, and leave service files and the journal as they are. -/
inductive SystemCall where
  | secureDirectory (create : Bool)
  | openFile (name : String)
  | createBackup (index : ℕ)
  | copyBackup (index limit : ℕ)
  | syncBackup
  | syncStage
  | readTemp
  | setPermissions (mode : ℕ)
  | syncTemp
  | syncDirectory
  | syncRestoredParent (name : String)
  | syncBase
  | removeStage
  | command

inductive UpdateOp where
  | system (call : SystemCall)
  | stageMode
  | stageExists
  | readJournal
  | save (journal : Journal)
  | removeJournal
  | existingIdentity (name : String)
  | exists (name : String)
  | identity (source : Source)
  | read (source : Source) (limit : ℕ)
  | publish (name : String) (file : ServiceFile)
  | removeFile (name : String)
  | stopCandidate
  | reload
  | enable (enabled : Bool)
  | startPrevious
  | call (succeeded : Bool)
  | report (recovery : Recovery) (changes : List Change)
  | finished (succeeded : Bool)
  | edit (name : String) (file : Option ServiceFile)

abbrev UpdateOp.Answer : UpdateOp → Type
  | .system _ | .save _ | .removeJournal | .publish .. | .removeFile _ | .stopCandidate | .reload
  | .enable _ | .startPrevious => Except Error Unit
  | .stageMode => Except Error ℕ
  | .stageExists | .exists _ => Bool
  | .readJournal => Except Error (Option Journal)
  | .existingIdentity _ => Except Error (Option Identity)
  | .identity _ => Except Error Identity
  | .read .. => Except Error Bytes
  | .call _ | .report .. | .finished _ | .edit .. => Unit

abbrev UpdateCode := Fallible UpdateOp UpdateOp.Answer Error

def system (call : SystemCall) : UpdateCode Unit := ExceptT.mk (Code.perform (UpdateOp.system call))

def stageMode : UpdateCode ℕ := ExceptT.mk (Code.perform UpdateOp.stageMode)

def save : UpdateCode Unit := ExceptT.mk (Code.perform (UpdateOp.save journal))

def removeJournal : UpdateCode Unit := ExceptT.mk (Code.perform UpdateOp.removeJournal)

def existingIdentity : UpdateCode (Option Identity) :=
  ExceptT.mk (Code.perform (UpdateOp.existingIdentity name))

def identity : UpdateCode Identity :=
  ExceptT.mk (Code.perform (UpdateOp.identity source))

def read (limit : ℕ) : UpdateCode Bytes :=
  ExceptT.mk (Code.perform (UpdateOp.read source limit))

def publish (file : ServiceFile) : UpdateCode Unit :=
  ExceptT.mk (Code.perform (UpdateOp.publish name file))

def removeFile : UpdateCode Unit :=
  ExceptT.mk (Code.perform (UpdateOp.removeFile name))

def stopCandidate : UpdateCode Unit := ExceptT.mk (Code.perform UpdateOp.stopCandidate)

def reload : UpdateCode Unit := ExceptT.mk (Code.perform UpdateOp.reload)

def enable (enabled : Bool) : UpdateCode Unit := ExceptT.mk (Code.perform (UpdateOp.enable enabled))

def startPrevious : UpdateCode Unit := ExceptT.mk (Code.perform UpdateOp.startPrevious)

/-- `if c { return Err(error) }`. -/
def refuse (c : Bool) (error : Error) : UpdateCode Unit := if c then throw error else pure ()

/-- `map_err(|_| error)`. -/
def orElseError (error : Error) (x : UpdateCode Unit) : UpdateCode Unit := do
  match ← attempt x with
  | .ok () => pure ()
  | .error _ => throw error

/-! ## The store -/

def load : UpdateCode (Option Journal) := do
  let journal ← ExceptT.mk (Code.perform UpdateOp.readJournal)
  match journal with
  | none => pure none
  | some journal =>
    if journal.accepted then pure (some journal) else throw .recoveryRequired

/-- `Store::atomic_copy`: a checked copy is renamed over the destination. -/
def atomicCopy (expected : Identity) : UpdateCode Unit := do
  system (.secureDirectory true)
  let bytes ← read source (expected.size + 1)
  system .readTemp
  refuse (!(Identity.mk bytes.length (Sha256.digest bytes) 0).sameBytes expected) .recoveryRequired
  system (.setPermissions expected.mode)
  system .syncTemp
  publish name ⟨bytes, expected.mode⟩
  system .syncDirectory

/-- `Store::begin`, with the staging directory by its name if it is one of the base. -/
def beginTransaction (stage : Option String)
    (replacing previousActive previousEnabled : Bool) : UpdateCode Journal := do
  let journal ← load
  refuse (journal.isSome || stage.isNone) .recoveryRequired
  system (.secureDirectory false)
  let mode ← stageMode
  refuse (!safeStageName (stage.getD "") || mode != 0o700) .installation
  let journal : Journal :=
    { stage := stage.getD "", replacing, previousActive, previousEnabled }
  system .syncStage
  save journal
  pure journal

/-! ## Transactions -/

/-- The backup of a file that is replaced or removed. -/
def backUp (index : ℕ) (name : String) (prior : Identity) : UpdateCode Unit := do
  system (.openFile name)
  system (.createBackup index)
  system (.copyBackup index (prior.size + 1))
  system .syncBackup
  let found ← identity (.backup index)
  refuse (!found.sameBytes prior) .recoveryRequired
  system .syncStage

def intent (candidate : Option Identity) : UpdateCode Journal := do
  refuse
    (!allowed name || (journal.changes.any fun change => change.name == name) ||
      candidate.any fun value => !value.validate)
    .installation
  system (.secureDirectory true)
  let prior ← existingIdentity name
  refuse (prior.isSome && !journal.replacing) .installation
  (match prior with
    | some prior => backUp journal.changes.length name prior
    | none => pure ())
  let journal := { journal with changes := journal.changes ++ [⟨name, prior, candidate⟩] }
  save journal
  pure journal

def replace (name source : String) (mode : ℕ) : UpdateCode Journal := do
  let found ← identity (.staged source)
  let candidate := { found with mode }
  let journal ← intent journal name (some candidate)
  atomicCopy (.staged source) name candidate
  pure journal

def removeExisting : UpdateCode Unit := do
  if ← perform (UpdateOp.exists name) then do
    removeFile name
    system .syncDirectory
  else pure ()

def remove : UpdateCode Journal := do
  let journal ← intent journal name none
  removeExisting name
  pure journal

def beforeStart : UpdateCode Journal := do
  let journal := { journal with startAttempted := true, enablementAttempted := true }
  save journal
  pure journal

def beforeEnablement : UpdateCode Journal := do
  let journal := { journal with enablementAttempted := true }
  save journal
  pure journal

def removeStage : UpdateCode Unit := do
  if ← perform UpdateOp.stageExists then do
    system (.secureDirectory false)
    let mode ← stageMode
    refuse (mode != 0o700) .recoveryRequired
    system .removeStage
  else pure ()

def finish : UpdateCode Unit := do
  removeStage
  removeJournal
  system .syncBase

def finishCommitted : UpdateCode Unit := do
  let _ ← attempt finish
  pure ()

def commit : UpdateCode Unit := do
  save { journal with complete := true }
  finishCommitted

/-! ## Recovery -/

/-- The closure `restored` of the loop of `recover`. -/
def restoreChange (change : Change) (index : ℕ) : UpdateCode Unit := do
  let current ← existingIdentity change.name
  if current = change.prior then system (.syncRestoredParent change.name)
  else if current ≠ change.candidate then throw .recoveryRequired
  else
    match change.prior with
    | some prior => atomicCopy (.backup index) change.name prior
    | none => do
      removeFile change.name
      system .syncDirectory

/-- The loop of `recover`, with whether a change has failed. -/
def restoreChanges : List (Change × ℕ) → Bool → UpdateCode Bool
  | [], failed => pure failed
  | (change, index) :: changes, failed => do
    let restored ← attempt (restoreChange change index)
    restoreChanges changes (failed || !restored.isOk)

/-- The candidate is stopped before a file is restored, once. -/
def stopFirst : UpdateCode Journal :=
  if journal.startAttempted && !journal.candidateStopped then do
    orElseError .recoveryRequired stopCandidate
    let journal := { journal with candidateStopped := true }
    save journal
    pure journal
  else pure journal

/-- An initial installation is disabled before its unit is removed. -/
def disableFirst : UpdateCode Journal :=
  if journal.enablementAttempted && !journal.previousEnabled && !journal.enablementReverted then do
    orElseError .recoveryRequired (enable false)
    let journal := { journal with enablementReverted := true }
    save journal
    pure journal
  else pure journal

/-- `failed |= lifecycle.enable(true).is_err()`, if the service was enabled. -/
def enableAgain (failed : Bool) : UpdateCode Bool :=
  if journal.enablementAttempted && journal.previousEnabled then do
    let enabled ← attempt (enable true)
    pure (failed || !enabled.isOk)
  else pure failed

/-- The previous service is started, unless something has failed. -/
def startAgain (failed : Bool) : UpdateCode Bool :=
  if !failed && journal.previousActive then do
    let started ← attempt startPrevious
    pure (failed || !started.isOk)
  else pure failed

/-- `Store::recover` of a journal without a terminal decision. -/
def rollBack : UpdateCode Recovery := do
  system (.secureDirectory false)
  let mode ← stageMode
  refuse (mode != 0o700) .recoveryRequired
  let journal ← stopFirst journal
  let journal ← disableFirst journal
  let failed ← restoreChanges journal.changes.zipIdx.reverse false
  let reloaded ← attempt reload
  let failed ← enableAgain journal (failed || !reloaded.isOk)
  let failed ← startAgain journal failed
  refuse failed .recoveryRequired
  commit { journal with rolledBack := true }
  perform (UpdateOp.report .rolledBack journal.changes)
  pure .rolledBack

def Journal.decision : Recovery :=
  if journal.rolledBack then .rolledBack else .committed

def recover : UpdateCode Recovery := do
  match ← load with
  | none => do
    perform (UpdateOp.report .noTransaction [])
    pure .noTransaction
  | some journal =>
    if journal.complete then do
      system .syncBase
      finishCommitted
      perform (UpdateOp.report journal.decision journal.changes)
      pure journal.decision
    else rollBack journal

/-- What `finish_operation` makes of a failed operation. -/
def afterRecovery (error : Error) : Except Error Recovery → UpdateCode Unit
  | .ok .committed => pure ()
  | .ok .rolledBack => throw (if error = .recoveryRequired then .maintenance else error)
  | .ok .noTransaction | .error _ => throw .recoveryRequired

def finishOperation (result : Except Error Unit) : UpdateCode Unit :=
  match result with
  | .ok () => pure ()
  | .error error => do
    let recovery ← attempt recover
    afterRecovery error recovery

/-! ## Requests -/

/-- What an operation does between its beginning and its commit; a `command` is any other
    call of the helper that may fail. -/
inductive Step where
  | replace (name source : String) (mode : ℕ)
  | remove (name : String)
  | beforeStart
  | beforeEnablement
  | command

def Step.code : Step → UpdateCode Journal
  | .replace name source mode => Update.replace journal name source mode
  | .remove name => Update.remove journal name
  | .beforeStart => Update.beforeStart journal
  | .beforeEnablement => Update.beforeEnablement journal
  | .command => do
    system .command
    pure journal

end

/-- The steps up to the first error, and the commit. -/
def runSteps : List Step → Journal → UpdateCode Unit
  | [], journal => commit journal
  | step :: steps, journal => do
    let journal ← step.code journal
    runSteps steps journal

/-- `finish_operation` with the notes of its call and its result. -/
def finishNoted (result : Except Error Unit) : UpdateCode Unit := do
  perform (UpdateOp.call result.isOk)
  let outcome ← attempt (finishOperation result)
  perform (UpdateOp.finished outcome.isOk)

/-- What the helper is asked for, and what others do to a file between its runs. -/
inductive Request where
  | operate (stage : Option String) (replacing previousActive previousEnabled : Bool)
    (steps : List Step)
  | finishOperation (result : Except Error Unit)
  | recover
  | edit (name : String) (file : Option ServiceFile)

def Request.code : Request → Code UpdateOp UpdateOp.Answer Unit
  | .operate stage replacing previousActive previousEnabled steps => ignore do
    let journal ← beginTransaction stage replacing previousActive previousEnabled
    let result ← attempt (runSteps steps journal)
    finishNoted result
  | .finishOperation result => ignore (finishNoted result)
  | .recover => ignore do
    perform (UpdateOp.call false)
    Update.recover
  | .edit name file => ignore (perform (UpdateOp.edit name file) : UpdateCode Unit)

end Usque.Update
