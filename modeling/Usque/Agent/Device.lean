/-
  The operations on the managed device and its lease
  (`usque-agent/src/coordinator/device_lifecycle.rs`).
-/
import Usque.Agent.Tunnel

namespace Usque.Agent
open Lib

def detachLease : Locked Unit :=
  .update fun agent =>
    { agent with deviceLease := agent.deviceLease.map fun lease => { lease with attached := false } }

section
variable (platform : Platform) (key : DeviceLeaseKey) (caller : AuthenticatedCaller)

/-- The recovery of what is left, and the retirement of the device after it. -/
def recoverAndRetire : Locked DeviceRetirement := do
  if (← journal).phase ≠ .clean then
    recoverLocked platform
  else
    revokeEgress platform
  retireDeviceLocked platform

def retryDeviceRetirementPersistence : Locked Unit := do
  let agent ← .read id
  .when (agent.deviceRetirementRetryPending = true) do
    .ensure (agent.journal.phase = .clean ∧ agent.deviceLeaseAttached = false) .recoveryBusy
    let _ ← retireDeviceLocked platform
    pure ()

def recoverForProcessExit : Locked DeviceRetirement := do
  detachLease
  recoverAndRetire platform

def acquireDeviceLease : Locked DeviceLeaseKey := do
  .check (validateCaller caller)
  let agent ← .read id
  let current := agent.journal
  let inUse := agent.packetSessionAttached || agent.tunnelLeaseAttached
  let replacementTakeover :=
    (current.replacement.any fun replacement =>
      replacement.pending && replacement.ownerSid == caller.userSid) && !inUse
  .check <|
    match current.device with
    | none => .ok ()
    | some device => do
      rejectIf (device.ownerSid != caller.userSid) .ownerMismatch
      let currentIdle := device.state == .idle && device.agentInstance == agent.agentInstance
      let reattach := current.phase == .active && device.state == .inUse
      rejectIf (!currentIdle && !reattach && !replacementTakeover) .deviceRecoveryRequired
  .ensure (current.phase = .clean ∨ current.phase = .active ∨ replacementTakeover = true)
    (.recoveryRequired current.phase)
  .ensure (¬ (current.phase = .active ∧ inUse = true)) .recoveryBusy
  .ensure (agent.deviceLeaseAttached = false) .deviceLeaseRequired
  let epoch := (agent.deviceLeaseEpoch + 1) % 2 ^ 64
  let key : DeviceLeaseKey := ⟨platform.newUuid agent.trace.length, epoch⟩
  .update fun agent =>
    { agent with
      deviceLease := some ⟨key, caller.userSid, caller.processId, true⟩
      deviceLeaseEpoch := epoch
      deviceRetirementDeferred := false
      deviceRetirementCompleted := false
      deviceRetirementResult := none
      deviceRetirementRetryPending := false }
  pure key

def detachDeviceLease : Locked Bool := do
  let agent ← .read id
  if agent.deviceLease.any fun lease =>
      lease.key == key && lease.sid == caller.userSid && lease.processId == caller.processId &&
        lease.attached then
    detachLease
    pure true
  else
    pure false

/-- The receipt of a device that is still to be created. -/
def deviceIntent (deviceId : Uuid) : MutationReceipt :=
  .wintunAdapter (ManagedDevice.name deviceId) deviceId 0

/-- Whether a receipt is that of the created device. -/
def identifiesDevice (deviceId : Uuid) (receipt : MutationReceipt) : Bool :=
  match receipt with
  | .wintunAdapter adapterName adapterGuid interfaceLuid =>
    adapterGuid == deviceId && adapterName == ManagedDevice.name deviceId && interfaceLuid != 0
  | _ => false

/-- The record of a device that is still to be created. -/
def newDevice (agent : AgentCoordinator) (caller : AuthenticatedCaller) (deviceId : Uuid) :
    ManagedDevice where
  deviceId := deviceId
  generation := min (agent.journal.generation + 1) U64_MAX
  agentInstance := agent.agentInstance
  ownerSid := caller.userSid
  ownerProcessId := caller.processId
  state := .creating
  receipt := deviceIntent deviceId

def updateDevice (receipt : MutationReceipt) (state : DeviceState) : Locked Unit :=
  modifyJournal fun journal =>
    { journal with
      device := journal.device.map fun device => { device with receipt := receipt, state := state } }

/-- The creation of the device in `prepare_managed`. -/
def createManagedDevice : Locked Unit := do
  let agent ← .read id
  let deviceId := platform.newUuid agent.trace.length
  modifyJournal fun journal => { journal with device := some (newDevice agent caller deviceId) }
  -- no native work until the intent is durable
  storeOrReturn platform
  match ← ask platform platform.createDevice (.createDevice (deviceIntent deviceId)) with
  | .ok receipt =>
    if identifiesDevice deviceId receipt then
      updateDevice receipt .idle
      match ← store platform with
      | .ok () => pure ()
      | .error error =>
        setDeviceState .recoveryRequired
        .fail (.journal error)
    else
      setDeviceState .recoveryRequired
      storeOrReturn platform
      .fail (.backend .adapterIdentity)
  | .error error =>
    setDeviceState .recoveryRequired
    storeOrReturn platform
    .fail (.backend error)

/-- The reuse of an idle device in `prepare_managed`. -/
def reuseManagedDevice (device : ManagedDevice) : Locked Unit := do
  let agent ← .read id
  .ensure
    (device.state = .idle ∧ device.agentInstance = agent.agentInstance ∧
      device.ownerSid = caller.userSid ∧ agent.packetSessionAttached = false)
    .deviceRecoveryRequired
  match ← inspectIdleDevice platform device.receipt with
  | .ok true => pure ()
  | .ok false =>
    setDeviceState .recoveryRequired
    storeOrReturn platform
    .fail .deviceRecoveryRequired
  | .error error =>
    setDeviceState .recoveryRequired
    storeOrReturn platform
    .fail (.backend error)

def prepareManaged (operationId : Uuid) (plan : ValidatedTunnelPlan) (caller : AuthenticatedCaller)
    (key : DeviceLeaseKey) (expectedGeneration : Nat) :
    Locked RecoveryJournal := do
  .check (validateCaller caller)
  .check (validatePlan plan)
  let agent ← .read id
  .check (requireDeviceOwner agent caller (some key))
  .ensure (agent.journal.generation = expectedGeneration) .recoveryConflict
  .ensure (agent.journal.phase = .clean) (.recoveryRequired agent.journal.phase)
  match agent.journal.device with
  | some device => reuseManagedDevice platform caller device
  | none => createManagedDevice platform caller
  prepareLocked platform operationId plan caller

/-- `release_device_lease` and `release_device_lease_with_egress`. -/
def releaseDeviceLease : Locked DeviceRetirement := do
  .check (requireDeviceOwner (← .read id) caller (some key))
  detachLease
  recoverAndRetire platform

/-- `retire_orphaned_device` and `retire_orphaned_device_with_egress`. -/
def retireOrphanedDevice : Locked Bool := do
  let agent ← .read id
  if agent.deviceLease.any fun lease => lease.key == key && !lease.attached then
    let _ ← recoverAndRetire platform
    pure true
  else
    pure false

def retireDevice : Locked DeviceRetirement := do
  let agent ← .read id
  .ensure
    (agent.journal.phase = .clean ∧ agent.packetSessionAttached = false ∧
      agent.deviceLeaseAttached = false)
    .recoveryBusy
  retireDeviceLocked platform

end

end Usque.Agent
