/-
  The protected replacement of a tunnel
  (`usque-agent/src/coordinator/replacement.rs`).
-/
import Usque.Agent.Device

namespace Usque.Agent
open Lib

section
variable (platform : Platform) (receipt : MutationReceipt) (current : RecoveryJournal)
  (agent : AgentCoordinator) (replacement : TunnelReplacement)

def restoreReplacementNormalLocked : Locked Unit := do
  dropTunnelLease
  modifyJournal fun journal => { journal with phase := .recovering }
  storeOrReturn platform
  let failures ← restoreStepsLocked platform .replacement
  modifyJournal fun journal => { journal with phase := .recoveryRequired }
  storeOrReturn platform
  .ensure (failures = []) (recoveryError failures)
  modifyJournal fun journal => { journal with steps := [] }
  storeOrReturn platform

def dropDevice : Locked Unit := do
  setDeviceState .recoveryRequired
  storeOrReturn platform
  orReturn (restoreStep platform .replacement receipt none)
  modifyJournal fun journal => { journal with device := none, deviceBinding := none }
  storeOrReturn platform

section
variable (operationId : Uuid) (plan : ValidatedTunnelPlan) (sourceOperationId : Uuid)
  (expectedGeneration : Nat) (caller : AuthenticatedCaller)

/-- The device of a replacement that has none it can use. -/
def createReplacementDevice : Locked Unit := do
  let agent ← .read id
  let deviceId := platform.newUuid agent.trace.length
  let device := newDevice agent caller deviceId
  modifyJournal fun journal =>
    { journal with deviceBinding := some device.binding, device := some device }
  storeOrReturn platform
  let receipt ← orReturn
    (ask platform platform.createDevice (.createDevice (deviceIntent deviceId)))
  .ensure (identifiesDevice deviceId receipt = true) (.backend .adapterIdentity)
  updateDevice receipt .inUse
  storeOrReturn platform

/-- Whether the device of the journal was created by this process and is idle. -/
def deviceUsable (device : ManagedDevice) : Locked Bool := do
  if device.agentInstance = (← .read (·.agentInstance)) then
    orReturn (inspectIdleDevice platform device.receipt)
  else
    pure false

def prepareReplacementDeviceLocked : Locked Unit := do
  match (← journal).device with
  | none => createReplacementDevice platform caller
  | some device =>
    if ← deviceUsable platform device then
      pure ()
    else
      dropDevice platform device.receipt
      createReplacementDevice platform caller

/-- The source of a new replacement: its operation, plan and exclusions. -/
structure ReplacementSource where
  operationId : Uuid
  plan : ValidatedTunnelPlan
  exclusions : List IpNet

/-- `inspect_guard_policy(..).await?`. -/
def inspectGuardPolicy (persistent : Bool) : Locked Bool :=
  orReturn (ask platform platform.inspectGuardPolicy (.inspectGuardPolicy receipt persistent))

/-- Whether the source is still protected by its own policy, in a replacement
    whose guard was never installed. -/
def sourceStillProtected : Locked Bool :=
  match current.plan, current.appliedStepOf .killSwitch with
  | some plan, some policy =>
    if replacement.phase = .installingGuard ∧ (plan.killSwitch || plan.vpnChain) = true then
      inspectGuardPolicy platform policy.receipt plan.killSwitch
    else
      pure false
  | _, _ => pure false

/-- The source of a retarget: that of the pending replacement, which is still
    protected. -/
def retargetSource (sourceOperationId operationId : Uuid) (caller : AuthenticatedCaller) :
    Locked ReplacementSource := do
  .ensure
    (¬ (replacement.operationId ≠ sourceOperationId ∨
      operationId = replacement.originalSourceOperationId ∨
      operationId = replacement.cleanupOperationId ∨ operationId = replacement.sourceOperationId ∨
      replacement.phase = .aborting ∨
      replacement.ownerProcessId ≠ caller.processId ∧
        (agent.packetSessionAttached || agent.tunnelLeaseAttached) = true))
    .recoveryConflict
  let guarded ← inspectReplacementGuard platform replacement.guard.receipt
  .when (guarded = false) do
    let sourceStillProtected ← sourceStillProtected platform agent.journal replacement
    let committedTarget := replacement.phase == .committing && agent.journal.phase == .active
    .ensure ((sourceStillProtected || committedTarget) = true) .replacementGuardUnavailable
  pure
    { operationId := replacement.originalSourceOperationId
      plan := replacement.originalSourcePlan
      exclusions := replacement.guardPlan.exclusions }

/-- The source of a first replacement: the tunnel of the journal, which is
    protected by its own policy. -/
def tunnelSource :
    Locked ReplacementSource := do
  .check (ensureOwner current sourceOperationId caller)
  .check (ensureOperationKind current .tunnel)
  let sourcePlan ← .check (okOr .missingPlan current.plan)
  .ensure ((sourcePlan.killSwitch || sourcePlan.vpnChain) = true) .replacementGuardUnavailable
  let policy ← .check (okOr .replacementGuardUnavailable (current.appliedStepOf .killSwitch))
  let guarded ← inspectGuardPolicy platform policy.receipt sourcePlan.killSwitch
  .ensure (guarded = true) .replacementGuardUnavailable
  pure
    { operationId := sourceOperationId
      plan := sourcePlan
      exclusions := effectiveExclusions sourcePlan }

def replacementSource (sourceOperationId operationId : Uuid) (caller : AuthenticatedCaller) :
    Locked ReplacementSource :=
  match agent.journal.replacement.filter TunnelReplacement.pending with
  | some replacement =>
    retargetSource platform agent replacement sourceOperationId operationId caller
  | none => tunnelSource platform agent.journal sourceOperationId caller

/-- A request other than the current one: its replacement is planned and its
    intent saved. -/
def startReplacement (operationId : Uuid) (plan : ValidatedTunnelPlan)
    (caller : AuthenticatedCaller) : Locked Unit := do
  .ensure (agent.journal.generation = expectedGeneration) .recoveryConflict
  let source ← replacementSource platform agent sourceOperationId operationId caller
  let guardPlan : ReplacementGuardPlan :=
    { exclusions := intersectExclusions source.exclusions plan, target := plan }
  let receipt ← orReturn (ask platform platform.planReplacementGuard .planReplacementGuard)
  let cleanupOperationId ← .check (okOr .operationMismatch agent.journal.operationId)
  let replacement : TunnelReplacement :=
    { originalSourceOperationId := source.operationId
      originalSourcePlan := source.plan
      sourceOperationId := sourceOperationId
      cleanupOperationId := cleanupOperationId
      sourceJournalGeneration := expectedGeneration
      operationId := operationId
      ownerSid := caller.userSid
      ownerProcessId := caller.processId
      guardPlan := guardPlan
      guard := ⟨.killSwitch, .intended, receipt⟩
      phase := .installingGuard
      abortGeneration := none }
  .check (replacement.validate.mapError .journal)
  modifyJournal fun journal =>
    { journal with ownerProcessId := some caller.processId, replacement := some replacement }
  storeOrReturn platform

/-- The journal with the process of its owner in all three places. -/
def RecoveryJournal.setOwner (processId : Nat) (journal : RecoveryJournal) : RecoveryJournal :=
  { journal with
    ownerProcessId := some processId
    replacement := journal.replacement.map fun replacement =>
      { replacement with ownerProcessId := processId }
    device := journal.device.map fun device => { device with ownerProcessId := processId } }

/-- The checks of a request that is repeated. -/
def resumeReplacement : Locked Unit := do
  .ensure
    (expectedGeneration = agent.journal.generation ∨
      expectedGeneration = replacement.sourceJournalGeneration)
    .recoveryConflict
  .ensure (replacement.phase ≠ .aborted) .recoveryConflict
  .when (replacement.ownerProcessId ≠ caller.processId) do
    .ensure ((agent.packetSessionAttached || agent.tunnelLeaseAttached) = false) .recoveryBusy
    modifyJournal (.setOwner caller.processId)
    storeOrReturn platform

/-- The guard is installed and confirmed: the journal takes over its receipt. -/
def installGuard : Locked Unit := do
  let receipt ← orReturn
    (ask platform platform.applyReplacementGuard (.applyReplacementGuard receipt))
  modifyJournal (.mapReplacement fun replacement =>
    { replacement with
      guard := { replacement.guard with receipt := receipt, state := .applied }
      phase := .sourceCleanup })
  storeOrReturn platform

/-- The guard of the replacement is read back; one that a commit removed before
    its completion was saved is installed again. -/
def confirmGuard : Locked Unit := do
  let current ← journal
  let replacement ← .check (okOr .replacementGuardUnavailable current.replacement)
  let active ← inspectReplacementGuard platform replacement.guard.receipt
  .when (active = false) do
    .ensure (replacement.phase = .committing ∧ current.phase = .active) .replacementGuardUnavailable
    installGuard platform replacement.guard.receipt
    let installed ← .check (okOr .replacementGuardUnavailable (← journal).replacement)
    let active ← inspectReplacementGuard platform installed.guard.receipt
    .ensure (active = true) .replacementGuardUnavailable

/-- `replace_tunnel` once the intent is saved. -/
def runReplacement :
    Locked RecoveryJournal := do
  let agent ← .read id
  let replacement ← .check (okOr .replacementGuardUnavailable agent.journal.replacement)
  if replacement.phase = .committing ∧ agent.journal.phase = .active ∧
      agent.packetSessionAttached = true then
    completeReplacementLocked platform
    journal
  else
    .ensure (replacement.phase ≠ .aborting) .replacementPending
    .when (replacement.guard.state = .intended) do
      -- an earlier save of the intent may have failed
      storeOrReturn platform
      installGuard platform replacement.guard.receipt
    confirmGuard platform
    let current ← journal
    if current.operationId = some operationId ∧ current.phase = .prepared ∧
        (current.replacement.any fun replacement => replacement.phase == .prepared) = true ∧
        (current.device.any fun device => device.agentInstance == agent.agentInstance) = true then
      journal
    else
      restoreReplacementNormalLocked platform
      prepareReplacementDeviceLocked platform caller
      setReplacementPhase .preparingTarget
      storeOrReturn platform
      let _ ← prepareLocked platform operationId plan caller
      setReplacementPhase .prepared
      storeOrReturn platform
      journal

def replaceTunnel (operationId : Uuid) (plan : ValidatedTunnelPlan) (caller : AuthenticatedCaller)
    (key : DeviceLeaseKey) :
    Locked RecoveryJournal := do
  .check (validateCaller caller)
  .check (validatePlan plan)
  .ensure
    (sourceOperationId.isNil = false ∧ operationId.isNil = false ∧ sourceOperationId ≠ operationId)
    .recoveryConflict
  let agent ← .read id
  .check (requireDeviceOwner agent caller (some key))
  match agent.journal.replacement with
  | none =>
    startReplacement platform agent sourceOperationId expectedGeneration operationId plan caller
    runReplacement platform operationId plan caller
  | some replacement =>
    let sameRequest := replacement.operationId == operationId &&
      replacement.sourceOperationId == sourceOperationId && replacement.guardPlan.target == plan
    .ensure (replacement.ownerSid = caller.userSid) .ownerMismatch
    .ensure (¬ (replacement.operationId = operationId ∧ sameRequest = false)) .recoveryConflict
    if sameRequest then
      resumeReplacement platform agent replacement expectedGeneration caller
      if replacement.phase = .complete then
        let current ← journal
        .ensure (current.operationId = some operationId ∧ current.phase = .active) .recoveryConflict
        journal
      else
        runReplacement platform operationId plan caller
    else
      startReplacement platform agent sourceOperationId expectedGeneration operationId plan caller
      runReplacement platform operationId plan caller

/-- The checks of `abort_replacement` on a replacement that is not aborted yet. -/
def checkAbort : Except CoordinatorError Unit :=
  rejectIf
    (replacement.phase == .complete ||
      agent.journal.generation != expectedGeneration &&
        replacement.abortGeneration != some expectedGeneration)
    .recoveryConflict

/-- A device that another process created is removed. -/
def dropForeignDevice : Locked Unit := do
  let agent ← .read id
  match agent.journal.device with
  | none => pure ()
  | some device =>
    .when (device.agentInstance ≠ agent.agentInstance) (dropDevice platform device.receipt)

/-- `abort_replacement` after its checks. -/
def runAbort :
    Locked RecoveryJournal := do
  modifyJournal (.mapReplacement fun replacement =>
    { replacement with
      abortGeneration := replacement.abortGeneration.or (some expectedGeneration)
      phase := .aborting })
  modifyJournal (.setOwner caller.processId)
  storeOrReturn platform
  restoreReplacementNormalLocked platform
  dropForeignDevice platform
  let replacement ← .check (okOr .recoveryConflict (← journal).replacement)
  removeReplacementGuard platform replacement.guard.receipt
  publish platform ((← journal).disconnected.mapReplacement fun replacement =>
    { replacement with
      guard := { replacement.guard with state := .restored }
      phase := .aborted })
  journal

def abortReplacement :
    Locked RecoveryJournal := do
  .check (validateCaller caller)
  let agent ← .read id
  let replacement ← .check (okOr .recoveryConflict agent.journal.replacement)
  .ensure (replacement.operationId = operationId ∧ replacement.ownerSid = caller.userSid)
    .ownerMismatch
  .ensure
    (¬ (replacement.ownerProcessId ≠ caller.processId ∧
      (agent.packetSessionAttached || agent.tunnelLeaseAttached ||
        agent.deviceLeaseAttached && (requireDeviceOwner agent caller none).toOption.isNone) =
          true))
    .recoveryBusy
  if replacement.phase = .aborted then
    journal
  else
    .check (checkAbort agent replacement expectedGeneration)
    runAbort platform expectedGeneration caller

end

def abortReplacementForMaintenance : Locked Unit := do
  let agent ← .read id
  match agent.journal.replacement.filter TunnelReplacement.pending with
  | none => pure ()
  | some replacement =>
    let absolutePath ← .check
      ((platform.currentExe agent.trace.length).mapError fun text => .backend (.operation text))
    let _ ← abortReplacement platform replacement.operationId agent.journal.generation
      ⟨replacement.ownerProcessId, replacement.ownerSid, absolutePath⟩
    pure ()

end

end Usque.Agent
