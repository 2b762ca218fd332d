/-
  The checks of a request and the routines under the journal lock that several
  operations share (`usque-agent/src/coordinator.rs`,
  `coordinator/device_lifecycle.rs` and `coordinator/replacement.rs`).
-/
import Usque.Agent.Recovery

namespace Usque.Agent
open Lib

/-! ## Checks -/

section
variable (agent : AgentCoordinator) (operationId : Uuid) (caller : AuthenticatedCaller)
  (journal : RecoveryJournal)

def validateCaller : Except CoordinatorError Unit :=
  rejectIf (caller.processId == 0 || !validSidText caller.userSid || !caller.absolutePath)
    .invalidCaller

def ensureClean : Except CoordinatorError Unit :=
  rejectIf (!journal.isFullyClean) (.recoveryRequired journal.phase)

def ensureOperationKind (expected : OperationKind) : Except CoordinatorError Unit :=
  rejectIf (journal.operationKind != some expected) (.operationKind expected journal.operationKind)

def ensureOwner (operationId : Uuid) (caller : AuthenticatedCaller) :
    Except CoordinatorError Unit := do
  validateCaller caller
  rejectIf (journal.operationId != some operationId) .operationMismatch
  rejectIf
    (journal.ownerSid != some caller.userSid || journal.ownerProcessId != some caller.processId)
    .ownerMismatch

def requireDeviceOwner (key : Option DeviceLeaseKey) : Except CoordinatorError Unit :=
  rejectIf
    (!agent.deviceLease.any fun lease =>
      lease.attached && lease.sid == caller.userSid && lease.processId == caller.processId &&
        key.all (· == lease.key))
    .deviceLeaseRequired

/-- The device of the journal, if there is one, is leased to the caller. -/
def requireOwnerOfDevice : Except CoordinatorError Unit :=
  if agent.journal.device.isSome then requireDeviceOwner agent caller none else .ok ()

def ensureTunnelOwner : Except CoordinatorError Unit := do
  requireOwnerOfDevice agent caller
  ensureOwner agent.journal operationId caller
  ensureOperationKind agent.journal .tunnel

end

def validatePlan (plan : ValidatedTunnelPlan) : Except CoordinatorError Unit :=
  plan.validate.mapError fun error => .invalidPlan error.message

def okOr {ε α : Type} (error : ε) : Option α → Except ε α
  | none => .error error
  | some a => .ok a

namespace RecoveryJournal

section
variable (step : MutationRecord) (journal : RecoveryJournal) (kind : MutationKind)

def hasStep : Bool :=
  journal.steps.any fun step => step.kind == kind

def hasApplied : Bool :=
  journal.steps.any fun step => step.kind == kind && step.state == .applied

def stepOf : Option MutationRecord :=
  journal.steps.find? fun step => step.kind == kind

def appliedStepOf : Option MutationRecord :=
  journal.steps.find? fun step => step.kind == kind && step.state == .applied

def removeStep (journal : RecoveryJournal) : RecoveryJournal :=
  { journal with steps := journal.steps.eraseP fun step => step.kind == kind }

def forgetRestored (journal : RecoveryJournal) : RecoveryJournal :=
  { journal with
    steps := journal.steps.filter fun step => !(step.kind == kind && step.state == .restored) }

def pushStep : RecoveryJournal :=
  { journal with steps := journal.steps ++ [step] }

def setLastStep : RecoveryJournal :=
  { journal with steps := journal.steps.dropLast ++ [step] }

end

end RecoveryJournal

/-! ## Applying a step -/

section
variable (platform : Platform)

/-- `apply_new_step`; the plan and the caller are only passed on to the backend. -/
def applyNewStep (kind : MutationKind) (parameter : StepParameter) :
    Locked StepOutput := do
  .ensure ((← journal).hasStep kind = false) (.duplicateStep kind)
  let receipt ← orReturn (ask platform platform.planStep (.planStep kind parameter))
  .ensure (receipt.kind = kind) (.backendReceiptMismatch kind receipt.kind)
  modifyJournal (.pushStep ⟨kind, .intended, receipt⟩)
  storeOrReturn platform
  match ← ask platform platform.applyStep (.applyStep receipt) with
  | .ok (applied, output) =>
    .ensure (applied.kind = kind) (.backendReceiptMismatch kind applied.kind)
    modifyJournal (.setLastStep ⟨kind, .applied, applied⟩)
    storeOrReturn platform
    pure output
  | .error (.partialApply text enriched) =>
    .when (enriched.kind = kind) do
      modifyJournal (.setLastStep ⟨kind, .intended, enriched⟩)
      storeOrReturn platform
    .fail (.backend (.partialApply text enriched))
  | .error error => .fail (.backend error)

/-- Runs `m`; an error is followed by recovery unless the operation is a VPN
    chain, which keeps its protection. -/
def orRecover {α : Type} (platform : Platform) (vpnChain : Bool) (m : Locked α) : Locked α := do
  let result ← .attempt m
  match result with
  | .ok a => pure a
  | .error error => if vpnChain then .fail error else failAfterRecovery platform error error.message

/-- The same for the save of the journal. -/
def storeOrRecover (vpnChain : Bool) : Locked Unit := do
  match ← store platform with
  | .ok () => pure ()
  | .error error =>
    if vpnChain then .fail (.journal error)
    else failAfterRecovery platform (.journal error) error.message

/-! ## Preparing a tunnel -/

/-- The steps of `prepare_locked`. -/
def prepareKinds (plan : ValidatedTunnelPlan) : List MutationKind :=
  let kinds : List MutationKind :=
    if plan.deferNetworkConfiguration then [.endpointBypass, .killSwitch]
    else if plan.vpnChain then [.endpointBypass, .killSwitch, .interfaceConfiguration, .dns]
    else [.endpointBypass, .interfaceConfiguration, .dns]
  .wintunAdapter ::
    if plan.automaticEndpointPolicy.isSome || plan.presetEndpointPolicy.isSome then
      .wfpMetadata :: kinds
    else kinds

/-- The journal at the start of `prepare_locked`. -/
def RecoveryJournal.preparing (operationId : Uuid) (plan : ValidatedTunnelPlan)
    (caller : AuthenticatedCaller) (journal : RecoveryJournal) : RecoveryJournal :=
  let device := journal.device.map fun device =>
    { device with state := .inUse, ownerProcessId := caller.processId }
  { schemaVersion := JOURNAL_SCHEMA_VERSION
    replacement := journal.replacement.filter TunnelReplacement.pending
    deviceBinding := device.map ManagedDevice.binding
    device := device
    generation := journal.generation
    phase := .preparing
    operationKind := some .tunnel
    operationId := some operationId
    ownerSid := some caller.userSid
    ownerProcessId := some caller.processId
    plan := some plan
    pauseDeadlineUnixSeconds := none
    steps := [] }

def prepareLocked (operationId : Uuid) (plan : ValidatedTunnelPlan) (caller : AuthenticatedCaller) :
    Locked RecoveryJournal := do
  modifyJournal (.preparing operationId plan caller)
  storeOrReturn platform
  (prepareKinds plan).forM fun kind => do
    let managed := (← journal).device.isSome
    .when (¬ (kind = .wintunAdapter ∧ managed)) do
      let _ ← orRecover platform false (applyNewStep platform kind .none)
      pure ()
  modifyJournal fun journal => { journal with phase := .prepared }
  storeOrRecover platform false
  journal

/-! ## Completing a replacement -/

def RecoveryJournal.mapReplacement (f : TunnelReplacement → TunnelReplacement)
    (journal : RecoveryJournal) : RecoveryJournal :=
  { journal with replacement := journal.replacement.map f }

def setReplacementPhase (phase : ReplacementPhase) : Locked Unit :=
  modifyJournal (.mapReplacement fun replacement => { replacement with phase := phase })

/-- The removal of the guard, read back. -/
def removeReplacementGuard (receipt : MutationReceipt) : Locked Unit := do
  orReturn (ask platform platform.restoreReplacementGuard (.restoreReplacementGuard receipt))
  let active ← inspectReplacementGuard platform receipt
  .ensure (active = false) .replacementGuardUnavailable

/-- Saves the journal `completed` and publishes it; only its generation is
    published if the save fails. -/
def publish (completed : RecoveryJournal) : Locked Unit := do
  let (completed, saved) ← save platform completed
  match saved with
  | .ok () => modifyJournal fun _ => completed
  | .error error =>
    modifyJournal fun journal => { journal with generation := completed.generation }
    .fail (.journal error)

def completeReplacementLocked : Locked Unit := do
  let agent ← .read id
  match agent.journal.replacement.filter TunnelReplacement.pending with
  | none => pure ()
  | some replacement =>
    .ensure
      (agent.journal.operationId = some replacement.operationId ∧
        agent.packetSessionAttached = true)
      .replacementGuardUnavailable
    let inspection ← orReturn (inspectTunnel platform)
    .ensure (inspection = .reattachable) .replacementGuardUnavailable
    setReplacementPhase .committing
    storeOrReturn platform
    removeReplacementGuard platform replacement.guard.receipt
    publish platform ((← journal).mapReplacement fun replacement =>
      { replacement with
        guard := { replacement.guard with state := .restored }
        phase := .complete })

/-! ## The system proxy -/

def SYSTEM_PROXY_RESTORE_ATTEMPTS : Nat := 3

/-- The attempts of `restore_system_proxy_step`; `attempts` are left after this
    one. -/
def restoreProxyAttempts (platform : Platform) (receipt : MutationReceipt) :
    Nat → Locked (Except BackendError Unit)
  | 0 => restoreStep platform .direct receipt none
  | attempts + 1 => do
    match ← restoreStep platform .direct receipt none with
    | .ok () => pure (.ok ())
    | .error _ => restoreProxyAttempts platform receipt attempts

/-- `restore_system_proxy_step`: the last error of its attempts. -/
def restoreSystemProxyStep (receipt : MutationReceipt) :
    Locked (Except BackendError Unit) :=
  restoreProxyAttempts platform receipt (SYSTEM_PROXY_RESTORE_ATTEMPTS - 1)

end

def RecoveryJournal.dropLastStep (journal : RecoveryJournal) : RecoveryJournal :=
  { journal with steps := journal.steps.dropLast }

/-- `rollback_appended_system_proxy`, where `receipt` is that of the last step. -/
def rollbackAppendedSystemProxy {α : Type} (platform : Platform) (receipt : MutationReceipt)
    (apply : String) : Locked α := do
  match ← restoreSystemProxyStep platform receipt with
  | .ok () =>
    modifyJournal .dropLastStep
    match ← store platform with
    | .ok () => .fail (.backend (.operation apply))
    | .error error =>
      .fail (.applyAndRecovery apply
        ("persist active tunnel after system-proxy rollback: " ++ error.message))
  | .error recovery => .fail (.applyAndRecovery apply recovery.message)

end Usque.Agent
