/-
  The operations on tunnels and the system proxy
  (`usque-agent/src/coordinator.rs`).
-/
import Usque.Agent.Prepare

namespace Usque.Agent
open Lib

def MIN_PACKET_RING_CAPACITY : Nat := 128 * 1024
def MAX_PACKET_RING_CAPACITY : Nat := 64 * 1024 * 1024

/-! ## Recovery requests -/

section
variable (agent : AgentCoordinator) (platform : Platform) (operationId : Uuid)
  (expectedGeneration : Nat) (caller : AuthenticatedCaller)

/-- `reconcile_removed_adapter_dependencies`; the changed journal is published
    only once it is saved. -/
def reconcileRemovedAdapterDependencies : Locked Bool := do
  let original ← journal
  if original.phase ≠ .recoveryRequired ∨ original.replacementPending = true then
    pure false
  else
    let restored (steps : List MutationRecord) := steps.all fun step => step.state == .restored
    let satisfied := dependencySatisfiedByRestoredWintun original.steps
    if original.steps.any satisfied = false ∧ restored original.steps = false then
      pure false
    else
      let steps := original.steps.map fun step =>
        if satisfied step then { step with state := .restored } else step
      let reconciled := { original with steps := steps }
      let (reconciled, saved) ← save platform
        (if restored steps then reconciled.disconnected else reconciled)
      match saved with
      | .error error => .fail (.journal error)
      | .ok () =>
        modifyJournal fun _ => reconciled
        pure true

/-- `recover_stale` and `recover_stale_with_egress`. -/
def recoverStale : Locked Unit := do
  .when ((← journal).phase ≠ .clean) (recoverLocked platform)

def inspectStartupTunnel : Locked TunnelInspection := do
  let agent ← .read id
  .ensure
    (agent.journal.phase = .active ∧ agent.journal.operationKind = some .tunnel ∧
      agent.packetSessionAttached = false ∧ agent.tunnelLeaseAttached = false)
    .recoveryBusy
  match ← inspectTunnel platform with
  | .ok inspection => pure inspection
  | .error error =>
    modifyJournal fun journal => { journal with phase := .recoveryRequired }
    storeOrReturn platform
    .fail (.backend error)

def inspectAdapterForRecovery (receipt : MutationReceipt) : Locked Bool :=
  orReturn (ask platform platform.inspectAdapter (.inspectAdapter receipt))

/-- The adapters of the journal that are not restored are identified before the
    recovery. -/
def inspectAdapters : Locked Unit := do
  (← journal).steps.forM fun step =>
    .when (step.kind = .wintunAdapter ∧ step.state ≠ .restored) do
      let _ ← inspectAdapterForRecovery platform step.receipt
      pure ()

/-- The recovery of `recover_orphaned` and `recover_automatic` after their
    checks. -/
def recoverInspected : Locked RecoveryJournal := do
  inspectAdapters platform
  revokeEgress platform
  recoverLocked platform
  journal

def recoverOrphaned : Locked RecoveryJournal := do
  .check (validateCaller caller)
  let agent ← .read id
  let journal := agent.journal
  .ensure (journal.operationId = some operationId ∧ journal.generation = expectedGeneration)
    .recoveryConflict
  .ensure (journal.ownerSid = some caller.userSid) .ownerMismatch
  .ensure
    ((journal.phase = .recoveryRequired ∨ journal.phase = .paused) ∧
      agent.packetSessionAttached = false ∧ agent.tunnelLeaseAttached = false)
    .recoveryBusy
  recoverInspected platform

def recoverAutomatic : Locked RecoveryJournal := do
  let agent ← .read id
  let journal := agent.journal
  .ensure (journal.operationId = some operationId ∧ journal.generation = expectedGeneration)
    .recoveryConflict
  .ensure (journal.phase = .recoveryRequired) .recoveryConflict
  .ensure (agent.packetSessionAttached = false ∧ agent.tunnelLeaseAttached = false) .recoveryBusy
  recoverInspected platform

def validateAutomaticRecoveryRestartSnapshot : Except CoordinatorError Unit := do
  validateCaller caller
  rejectIf
    (agent.journal.operationId != some operationId || agent.journal.generation != expectedGeneration)
    .recoveryConflict
  rejectIf (agent.journal.ownerSid != some caller.userSid) .ownerMismatch
  rejectIf (agent.journal.phase != .recoveryRequired) .recoveryConflict
  rejectIf (agent.packetSessionAttached || agent.tunnelLeaseAttached) .recoveryBusy

def reconcileAbsentAdapterOnRetry : Locked (Option RecoveryJournal) := do
  let agent ← .read id
  .check (validateAutomaticRecoveryRestartSnapshot agent operationId expectedGeneration caller)
  match agent.journal.steps.filter fun step => step.state != .restored with
  | [unresolved] =>
    if unresolved.kind ≠ .wintunAdapter then
      pure none
    else if ← inspectAdapterForRecovery platform unresolved.receipt then
      pure none
    else
      let (clean, saved) ← save platform agent.journal.disconnected
      .check (saved.mapError .journal)
      modifyJournal fun _ => clean
      pure (some clean)
  | _ => pure none

/-! ## Chains -/

/-- The takeover of a detached tunnel by another process of its owner, which
    `begin_chain_transition` and `finalize_tunnel` allow. -/
def setOwnerProcess : Locked Unit :=
  modifyJournal fun journal => { journal with ownerProcessId := some caller.processId }

def beginChainTransition : Locked RecoveryJournal := do
  .check (validateCaller caller)
  let agent ← .read id
  .check (requireOwnerOfDevice agent caller)
  .when (agent.journal.ownerProcessId ≠ some caller.processId) do
    .ensure
      (agent.journal.operationId = some operationId ∧ agent.journal.phase = .active ∧
        agent.journal.ownerSid = some caller.userSid ∧ agent.packetSessionAttached = false ∧
        agent.tunnelLeaseAttached = false)
      .ownerMismatch
    let inspection ← orReturn (inspectTunnel platform)
    .ensure (inspection = .reattachable) .ownerMismatch
    setOwnerProcess caller
  let current ← journal
  .check (ensureOwner current operationId caller)
  .check (ensureOperationKind current .tunnel)
  .ensure (current.phase = .active ∨ current.phase = .prepared)
    (.invalidPhase "active or prepared tunnel" current.phase)
  let plan ← .check (okOr .missingPlan current.plan)
  modifyJournal fun journal => { journal with plan := some { plan with vpnChain := true } }
  storeOrReturn platform
  .update fun agent =>
    if agent.tunnelLeaseAttached then agent
    else { agent with tunnelLeaseEpoch := (agent.tunnelLeaseEpoch + 1) % 2 ^ 64 }
  .when ((← journal).hasApplied .killSwitch = false) do
    .ensure ((← journal).hasStep .killSwitch = false) (.missingAppliedStep .killSwitch)
    let _ ← applyNewStep platform .killSwitch .none
    pure ()
  journal

/-- The removal of a step of the previous network in `finalize_tunnel`. -/
def retireStep (adapter : Option MutationReceipt) (kind : MutationKind) : Locked Unit := do
  match (← journal).stepOf kind with
  | none => pure ()
  | some step =>
    .when (step.state ≠ .restored) (orReturn (restoreStep platform .direct step.receipt adapter))
    modifyJournal (.removeStep kind)
    storeOrReturn platform

/-- The check of `finalize_tunnel` that only the final network differs. -/
def checkFinalPlan (previous plan : ValidatedTunnelPlan) : Except CoordinatorError Unit := do
  rejectIf (!previous.vpnChain || !plan.vpnChain || plan.deferNetworkConfiguration)
    (.invalidPlan "finalization requires a VPN chain")
  let allowed :=
    { previous with
      assignedIpv4 := plan.assignedIpv4
      assignedIpv6 := plan.assignedIpv6
      dnsServers := plan.dnsServers
      splitDns := plan.splitDns
      mtu := plan.mtu
      deferNetworkConfiguration := false }
  rejectIf (allowed != plan) (.invalidPlan "bootstrap or direct policy changed during finalization")

def finalizeTunnel (plan : ValidatedTunnelPlan) (caller : AuthenticatedCaller) :
    Locked RecoveryJournal := do
  .check (validatePlan plan)
  .check (validateCaller caller)
  let agent ← .read id
  .check (requireOwnerOfDevice agent caller)
  .check (ensureOperationKind agent.journal .tunnel)
  .ensure (agent.journal.operationId = some operationId) .operationMismatch
  let previous ← .check (okOr .missingPlan agent.journal.plan)
  .check (checkFinalPlan previous plan)
  .ensure (agent.packetSessionAttached = false) .packetSessionAlreadyAttached
  .ensure (agent.journal.phase = .prepared ∨ agent.journal.phase = .active)
    (.invalidPhase "prepared or detached active chain" agent.journal.phase)
  .when (agent.journal.ownerProcessId ≠ some caller.processId) do
    .ensure
      (agent.journal.phase = .active ∧ agent.tunnelLeaseAttached = false ∧
        agent.journal.ownerSid = some caller.userSid)
      .ownerMismatch
    let inspection ← orReturn (inspectTunnel platform)
    .ensure (inspection = .reattachable) (.invalidPlan "previous chain requires platform recovery")
    setOwnerProcess caller
    storeOrReturn platform
  let current ← journal
  .check (ensureOwner current operationId caller)
  .ensure (current.hasApplied .killSwitch = true) (.missingAppliedStep .killSwitch)
  [MutationKind.defaultRoutes, .dns, .interfaceConfiguration, .packetSession].forM
    (retireStep platform current.adapterReceipt)
  modifyJournal fun journal => { journal with phase := .prepared, plan := some plan }
  storeOrReturn platform
  [MutationKind.interfaceConfiguration, .dns].forM fun kind => do
    let _ ← applyNewStep platform kind .none
    pure ()
  journal

/-! ## Packet sessions and leases -/

def attachPacketSession : Locked Unit :=
  .update fun agent => { agent with packetSessionAttached := true }

def openPacketSession (capacity : Nat) (caller : AuthenticatedCaller) :
    Locked PacketSessionHandles := do
  .ensure
    (MIN_PACKET_RING_CAPACITY ≤ capacity ∧ capacity ≤ MAX_PACKET_RING_CAPACITY ∧
      capacity.isPowerOfTwo)
    (.invalidRingCapacity capacity)
  let agent ← .read id
  .check (ensureTunnelOwner agent operationId caller)
  .ensure (agent.journal.phase = .prepared) (.invalidPhase "prepared" agent.journal.phase)
  modifyJournal (.forgetRestored .packetSession)
  let current ← journal
  .ensure (current.hasStep .packetSession = false) .duplicatePacketSession
  let plan ← .check (okOr .missingPlan current.plan)
  .ensure (plan.deferNetworkConfiguration = false)
    (.invalidPlan "final network configuration is pending")
  let output ← orRecover platform plan.vpnChain
    (applyNewStep platform .packetSession (.packetRing capacity))
  let handles ← .check (okOr .missingPacketHandles output.packetSession)
  attachPacketSession
  pure handles

def closePacketSession : Locked RecoveryJournal := do
  let current ← journal
  .check (ensureOwner current operationId caller)
  .check (ensureOperationKind current .tunnel)
  .ensure (current.phase = .prepared ∨ current.phase = .active)
    (.invalidPhase "prepared or active" current.phase)
  match current.stepOf .packetSession with
  | none =>
    detachPacketSession
    journal
  | some step =>
    .when (step.state ≠ .restored) (orReturn (restoreStep platform .direct step.receipt none))
    -- an active tunnel keeps the step: the session can be resumed
    .when (current.phase ≠ .active) (modifyJournal (.removeStep .packetSession))
    detachPacketSession
    storeOrReturn platform
    journal

def resumeTunnel (operationId profileId : Uuid) (caller : AuthenticatedCaller) :
    Locked PacketSessionHandles := do
  .check (validateCaller caller)
  let agent ← .read id
  let current := agent.journal
  .check (requireOwnerOfDevice agent caller)
  .ensure (current.operationId = some operationId) .operationMismatch
  .check (ensureOperationKind current .tunnel)
  .ensure (current.phase = .active) (.invalidPhase "active" current.phase)
  .ensure (current.ownerSid = some caller.userSid) .ownerMismatch
  .ensure (agent.packetSessionAttached = false) .packetSessionAlreadyAttached
  let plan ← .check (okOr .missingPlan current.plan)
  .ensure (plan.profileId = profileId) (.profileMismatch plan.profileId profileId)
  let adapter ← .check (okOr (.missingAppliedStep .wintunAdapter) current.adapterReceipt)
  let session ← .check
    (okOr (.missingAppliedStep .packetSession) (current.appliedStepOf .packetSession))
  modifyJournal fun journal =>
    { journal with
      ownerProcessId := some caller.processId
      device := journal.device.map fun device =>
        { device with ownerProcessId := caller.processId, agentInstance := agent.agentInstance } }
  storeOrReturn platform
  let handles ← orReturn
    (ask platform platform.resumePacketSession (.resumePacketSession adapter session.receipt))
  attachPacketSession
  pure handles

def acquireTunnelLease : Locked RecoveryJournal := do
  let agent ← .read id
  .check (ensureTunnelOwner agent operationId caller)
  .ensure (agent.journal.phase = .active) (.invalidPhase "active" agent.journal.phase)
  .ensure (agent.packetSessionAttached = true) .packetSessionNotAttached
  .update fun agent => { agent with tunnelLeaseAttached := true }
  .ensure (agent.tunnelLeaseAttached = false) .tunnelLeaseAlreadyAttached
  .update fun agent => { agent with tunnelLeaseEpoch := (agent.tunnelLeaseEpoch + 1) % 2 ^ 64 }
  journal

/-- Whether the tunnel of the operation is prepared or active and owned by the
    caller. -/
def ownsTunnel (journal : RecoveryJournal) (operationId : Uuid) (caller : AuthenticatedCaller) :
    Prop :=
  (journal.phase = .prepared ∨ journal.phase = .active) ∧ journal.operationKind = some .tunnel ∧
    journal.operationId = some operationId ∧ journal.ownerSid = some caller.userSid ∧
    journal.ownerProcessId = some caller.processId

instance (journal : RecoveryJournal) (operationId : Uuid) (caller : AuthenticatedCaller) :
    Decidable (ownsTunnel journal operationId caller) := by
  unfold ownsTunnel
  infer_instance

def releaseStartupTunnelLease : Locked (Option Nat) := do
  .check (validateCaller caller)
  let agent ← .read id
  if ownsTunnel agent.journal operationId caller ∧ agent.tunnelLeaseAttached = false then
    let epoch := (agent.tunnelLeaseEpoch + 1) % 2 ^ 64
    .update fun agent => { agent with tunnelLeaseEpoch := epoch }
    pure (some epoch)
  else
    pure none

def releaseTunnelLease : Locked (Option Nat) := do
  .check (validateCaller caller)
  let agent ← .read id
  if ownsTunnel agent.journal operationId caller ∧ agent.tunnelLeaseAttached = true then
    .when (agent.packetSessionAttached = true) do
      let step ← .check
        (okOr (.missingAppliedStep .packetSession) (agent.journal.appliedStepOf .packetSession))
      orReturn (restoreStep platform .direct step.receipt none)
    .update fun agent =>
      { agent with packetSessionAttached := false, tunnelLeaseAttached := false }
    storeOrReturn platform
    let epoch := (agent.tunnelLeaseEpoch + 1) % 2 ^ 64
    .update fun agent => { agent with tunnelLeaseEpoch := epoch }
    pure (some epoch)
  else
    pure none

/-- The tunnel of the operation is prepared or active and has no lease since
    `leaseEpoch`. -/
def isOrphaned (leaseEpoch : Nat) : Prop :=
  (agent.journal.phase = .prepared ∨ agent.journal.phase = .active) ∧
    agent.journal.operationKind = some .tunnel ∧ agent.journal.operationId = some operationId ∧
    agent.tunnelLeaseAttached = false ∧ agent.tunnelLeaseEpoch = leaseEpoch

instance (agent : AgentCoordinator) (operationId : Uuid) (leaseEpoch : Nat) :
    Decidable (isOrphaned agent operationId leaseEpoch) := by
  unfold isOrphaned
  infer_instance

def recoverOrphanedStartupTunnel (leaseEpoch : Nat) : Locked Bool := do
  let agent ← .read id
  if isOrphaned agent operationId leaseEpoch then
    recoverLocked platform
    pure true
  else
    pure false

def recoverOrphanedTunnel (leaseEpoch : Nat) : Locked Bool := do
  let agent ← .read id
  if isOrphaned agent operationId leaseEpoch ∧ agent.packetSessionAttached = false then
    recoverLocked platform
    pure true
  else
    pure false

/-! ## Commit and rollback -/

def commitSteps (journal : RecoveryJournal) (plan : ValidatedTunnelPlan) : List MutationKind :=
  (if (plan.killSwitch || plan.vpnChain) && !journal.hasApplied .killSwitch then
    [.killSwitch] else []) ++
  (if journal.hasApplied .defaultRoutes then [] else [.defaultRoutes])

/-- The check that the prepared steps are applied. -/
def checkPrepared (journal : RecoveryJournal) : Except CoordinatorError Unit :=
  [MutationKind.wintunAdapter, .endpointBypass, .interfaceConfiguration, .dns].forM fun kind =>
    rejectIf
      (!(kind == .wintunAdapter && journal.deviceBinding.isSome) && !journal.hasApplied kind)
      (.missingAppliedStep kind)

def commit : Locked RecoveryJournal := do
  let agent ← .read id
  .check (ensureTunnelOwner agent operationId caller)
  if agent.journal.phase = .active ∧ agent.journal.replacementPending = true then
    completeReplacementLocked platform
    journal
  else
    .ensure (agent.journal.phase = .prepared) (.invalidPhase "prepared" agent.journal.phase)
    .ensure (agent.journal.hasApplied .packetSession = true) .packetSessionRequired
    let plan ← .check (okOr .missingPlan agent.journal.plan)
    .ensure (plan.deferNetworkConfiguration = false)
      (.invalidPlan "final network configuration is pending")
    .when (agent.journal.replacementPending = true) do
      setReplacementPhase .committing
      storeOrReturn platform
    .check (checkPrepared (← journal))
    (commitSteps (← journal) plan).forM fun kind => do
      let _ ← orRecover platform plan.vpnChain (applyNewStep platform kind .none)
      pure ()
    modifyJournal fun journal => { journal with phase := .active }
    storeOrRecover platform plan.vpnChain
    completeReplacementLocked platform
    journal

/-- `rollback` and `rollback_with_egress`. -/
def rollback : Locked RecoveryJournal := do
  .check (ensureOwner (← journal) operationId caller)
  recoverLocked platform
  journal

/-! ## The system proxy -/

def planSystemProxy : Locked (Except CoordinatorError MutationReceipt) := do
  match ← ask platform platform.planSystemProxy .planSystemProxy with
  | .error error => pure (.error (.backend error))
  | .ok receipt =>
    if receipt.kind = .systemProxy then pure (.ok receipt)
    else pure (.error (.backendReceiptMismatch .systemProxy receipt.kind))

/-- The receipt of the applied system proxy, or why it was not applied. -/
def applyProxyReceipt (receipt : MutationReceipt) :
    Locked (Except CoordinatorError MutationReceipt) := do
  match ← ask platform platform.applySystemProxy (.applySystemProxy receipt) with
  | .error error => pure (.error (.backend error))
  | .ok applied =>
    if applied.kind = .systemProxy then pure (.ok applied)
    else pure (.error (.backendReceiptMismatch .systemProxy applied.kind))

/-- `apply_system_proxy` on an active tunnel. -/
def applyTunnelProxy : Locked RecoveryJournal := do
  .check (ensureOwner (← journal) operationId caller)
  modifyJournal (.forgetRestored .systemProxy)
  .ensure ((← journal).hasStep .systemProxy = false) (.duplicateStep .systemProxy)
  let planned ← planSystemProxy platform
  let receipt ← .check planned
  modifyJournal (.pushStep ⟨.systemProxy, .intended, receipt⟩)
  storeOrReturn platform
  match ← applyProxyReceipt platform receipt with
  | .error error => rollbackAppendedSystemProxy platform receipt error.message
  | .ok applied =>
    modifyJournal (.setLastStep ⟨.systemProxy, .applied, applied⟩)
    match ← store platform with
    | .error error => rollbackAppendedSystemProxy platform applied error.message
    | .ok () => journal

/-- The journal at the start of `apply_system_proxy` without a tunnel. -/
def RecoveryJournal.preparingProxy (journal : RecoveryJournal) : RecoveryJournal :=
  { RecoveryJournal.clean journal.generation with
    device := journal.device
    phase := .preparing
    operationKind := some .systemProxy
    operationId := some operationId
    ownerSid := some caller.userSid
    ownerProcessId := some caller.processId }

/-- `apply_system_proxy` on a clean journal. -/
def applyProxyClean : Locked RecoveryJournal := do
  modifyJournal (.preparingProxy operationId caller)
  storeOrReturn platform
  match ← planSystemProxy platform with
  | .error error =>
    recoverLocked platform
    .fail error
  | .ok receipt =>
    modifyJournal (.pushStep ⟨.systemProxy, .intended, receipt⟩)
    storeOrReturn platform
    match ← applyProxyReceipt platform receipt with
    | .error error => failAfterRecovery platform error error.message
    | .ok applied =>
      modifyJournal (.setLastStep ⟨.systemProxy, .applied, applied⟩)
      modifyJournal fun journal => { journal with phase := .active }
      storeOrRecover platform false
      journal

/-- `apply_system_proxy` without a tunnel. -/
def applyProxyOnly : Locked RecoveryJournal := do
  let agent ← .read id
  match agent.journal.device with
  | none => .check (ensureClean agent.journal)
  | some device =>
    .check (requireDeviceOwner agent caller none)
    .ensure
      (agent.journal.phase = .clean ∧ device.state = .idle ∧
        device.agentInstance = agent.agentInstance)
      .deviceRecoveryRequired
  applyProxyClean platform operationId caller

/-- `apply_system_proxy`; the settings are only passed on to the backend. -/
def applySystemProxy (_settings : SystemProxySettings) (caller : AuthenticatedCaller) :
    Locked RecoveryJournal := do
  .check (validateCaller caller)
  let agent ← .read id
  .check (requireOwnerOfDevice agent caller)
  if agent.journal.phase = .active ∧ agent.journal.operationKind = some .tunnel then
    applyTunnelProxy platform operationId caller
  else
    applyProxyOnly platform operationId caller

def restoreSystemProxy : Locked RecoveryJournal := do
  let current ← journal
  .check (ensureOwner current operationId caller)
  if current.operationKind = some .tunnel then
    .ensure (current.phase = .active) (.invalidPhase "active" current.phase)
    match current.stepOf .systemProxy with
    | none => journal
    | some step =>
      .when (step.state ≠ .restored) (orReturn (restoreSystemProxyStep platform step.receipt))
      modifyJournal (.removeStep .systemProxy)
      storeOrReturn platform
      journal
  else
    .check (ensureOperationKind current .systemProxy)
    recoverLocked platform
    journal

end

end Usque.Agent
