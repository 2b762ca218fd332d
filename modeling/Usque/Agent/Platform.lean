/-
  The coordinator's state and its calls to the privileged backend and to the
  journal store (`usque-agent/src/coordinator.rs`, the trait `PrivilegedBackend`,
  and `JournalStore::save`).

  * A `Platform` answers every call of a run; its answers are arbitrary.
  * `AgentCoordinator` is the state behind the journal lock. Operations run one
    at a time under that lock, except that `detach_device_lease` may run during
    any call of another one; the platform says where it does.
  * `AgentCoordinator.trace` lists the requests and calls of the run, the last
    one first, each with the journal in memory at that time. It is the record
    that statements about runs are about; no operation reads it.
-/
import Usque.Agent.Error

namespace Usque.Agent
open Lib

/-! ## Calls -/

/-- `AuthenticatedCaller`; of the path of the executable only
    `Path::is_absolute` matters. -/
structure AuthenticatedCaller where
  processId : Nat
  userSid : String
  absolutePath : Bool

structure PacketSessionHandles where
  mappingHandle : Nat
  engineToAgentEventHandle : Nat
  agentToEngineEventHandle : Nat
  shutdownEventHandle : Nat
  ringCapacity : Nat
  layoutVersion : Nat

inductive StepParameter where
  | none
  | packetRing (capacity : Nat)

structure SystemProxySettings where
  proxyUri : String
  bypassHosts : List String

structure StepOutput where
  packetSession : Option PacketSessionHandles

inductive TunnelInspection where
  | reattachable
  | needsRecovery
deriving DecidableEq

structure DeviceLeaseKey where
  id : Uuid
  generation : Nat
deriving DecidableEq

inductive DeviceRetirement where
  | complete
  | deferred

/-- The routine that issues a restore: `restore_steps_locked` on behalf of the
    recovery or of a replacement, the retirement of the device, or an operation
    itself. -/
inductive RestorePath where
  | recovery
  | replacement
  | device
  | direct

inductive Request where
  | reconcileRemovedAdapterDependencies
  | recoverStale
  | inspectStartupTunnel
  | recoverOrphaned (operationId : Uuid) (expectedGeneration : Nat) (caller : AuthenticatedCaller)
  | recoverAutomatic (operationId : Uuid) (expectedGeneration : Nat)
  | beginChainTransition (operationId : Uuid) (caller : AuthenticatedCaller)
  | finalizeTunnel (operationId : Uuid) (plan : ValidatedTunnelPlan) (caller : AuthenticatedCaller)
  | openPacketSession (operationId : Uuid) (capacity : Nat) (caller : AuthenticatedCaller)
  | closePacketSession (operationId : Uuid) (caller : AuthenticatedCaller)
  | resumeTunnel (operationId profileId : Uuid) (caller : AuthenticatedCaller)
  | acquireTunnelLease (operationId : Uuid) (caller : AuthenticatedCaller)
  | releaseStartupTunnelLease (operationId : Uuid) (caller : AuthenticatedCaller)
  | releaseTunnelLease (operationId : Uuid) (caller : AuthenticatedCaller)
  | recoverOrphanedStartupTunnel (operationId : Uuid) (leaseEpoch : Nat)
  | recoverOrphanedTunnel (operationId : Uuid) (leaseEpoch : Nat)
  | commit (operationId : Uuid) (caller : AuthenticatedCaller)
  | rollback (operationId : Uuid) (caller : AuthenticatedCaller)
  | reconcileAbsentAdapterOnRetry (operationId : Uuid) (expectedGeneration : Nat)
    (caller : AuthenticatedCaller)
  | applySystemProxy (operationId : Uuid) (settings : SystemProxySettings)
    (caller : AuthenticatedCaller)
  | restoreSystemProxy (operationId : Uuid) (caller : AuthenticatedCaller)
  | retryDeviceRetirementPersistence
  | recoverForProcessExit
  | acquireDeviceLease (caller : AuthenticatedCaller)
  | detachDeviceLease (key : DeviceLeaseKey) (caller : AuthenticatedCaller)
  | prepareManaged (operationId : Uuid) (plan : ValidatedTunnelPlan) (caller : AuthenticatedCaller)
    (key : DeviceLeaseKey) (expectedGeneration : Nat)
  | releaseDeviceLease (key : DeviceLeaseKey) (caller : AuthenticatedCaller)
  | retireOrphanedDevice (key : DeviceLeaseKey)
  | retireDevice
  | replaceTunnel (sourceOperationId : Uuid) (expectedGeneration : Nat) (operationId : Uuid)
    (plan : ValidatedTunnelPlan) (caller : AuthenticatedCaller) (key : DeviceLeaseKey)
  | abortReplacement (operationId : Uuid) (expectedGeneration : Nat) (caller : AuthenticatedCaller)
  | abortReplacementForMaintenance

/-- An entry of the trace: the start of a process or of a request, a call of the
    store or of the backend with its answer, the revocation of direct egress, or
    the end of a recovery with the phase that it found. -/
inductive Call where
  | opened (file : Option JournalFile)
  | requested
  | save (journal : RecoveryJournal) (result : Except JournalError Nat)
  | planReplacementGuard (result : Except BackendError MutationReceipt)
  | applyReplacementGuard (receipt : MutationReceipt)
    (result : Except BackendError MutationReceipt)
  | inspectReplacementGuard (receipt : MutationReceipt) (result : Except BackendError Bool)
  | restoreReplacementGuard (receipt : MutationReceipt) (result : Except BackendError Unit)
  | inspectGuardPolicy (receipt : MutationReceipt) (persistent : Bool)
    (result : Except BackendError Bool)
  | createDevice (receipt : MutationReceipt) (result : Except BackendError MutationReceipt)
  | inspectIdleDevice (receipt : MutationReceipt) (result : Except BackendError Bool)
  | planStep (kind : MutationKind) (parameter : StepParameter)
    (result : Except BackendError MutationReceipt)
  | applyStep (receipt : MutationReceipt)
    (result : Except BackendError (MutationReceipt × StepOutput))
  | restoreStep (path : RestorePath) (receipt : MutationReceipt)
    (adapter : Option MutationReceipt) (result : Except BackendError Unit)
  | inspectAdapter (receipt : MutationReceipt) (result : Except BackendError Bool)
  | inspectTunnel (result : Except BackendError TunnelInspection)
  | resumePacketSession (adapter session : MutationReceipt)
    (result : Except BackendError PacketSessionHandles)
  | planSystemProxy (result : Except BackendError MutationReceipt)
  | applySystemProxy (receipt : MutationReceipt) (result : Except BackendError MutationReceipt)
  | revokeEgress
  | recovered (before : RecoveryJournal) (result : Except CoordinatorError Unit)

/-- An entry of the trace, with the request in progress, the journal in memory and
    whether a packet session is attached. -/
structure Entry where
  request : Option Request
  journal : RecoveryJournal
  sessionAttached : Bool
  call : Call

/-- The answers of the platform: each field gives the answer to a call that is
    made when the trace has `n` entries. -/
structure Platform where
  planReplacementGuard : Nat → Except BackendError MutationReceipt
  applyReplacementGuard : Nat → Except BackendError MutationReceipt
  inspectReplacementGuard : Nat → Except BackendError Bool
  restoreReplacementGuard : Nat → Except BackendError Unit
  inspectGuardPolicy : Nat → Except BackendError Bool
  createDevice : Nat → Except BackendError MutationReceipt
  inspectIdleDevice : Nat → Except BackendError Bool
  planStep : Nat → Except BackendError MutationReceipt
  applyStep : Nat → Except BackendError (MutationReceipt × StepOutput)
  restoreStep : Nat → Except BackendError Unit
  inspectAdapter : Nat → Except BackendError Bool
  inspectTunnel : Nat → Except BackendError TunnelInspection
  resumePacketSession : Nat → Except BackendError PacketSessionHandles
  planSystemProxy : Nat → Except BackendError MutationReceipt
  applySystemProxy : Nat → Except BackendError MutationReceipt
  /-- The writes of the journal file: the length written, or the error, in which
      case the previous file stays. -/
  write : Nat → Except JournalError Nat
  newUuid : Nat → Uuid
  /-- `std::env::current_exe`, and whether its path is absolute. -/
  currentExe : Nat → Except String Bool
  /-- Whether the holder of the device lease detaches it during the call. -/
  detaches : Nat → Bool

/-! ## The coordinator -/

structure DeviceOwnerLease where
  key : DeviceLeaseKey
  sid : String
  processId : Nat
  attached : Bool

structure AgentCoordinator where
  journal : RecoveryJournal
  packetSessionAttached : Bool
  tunnelLeaseAttached : Bool
  tunnelLeaseEpoch : Nat
  agentInstance : Uuid
  deviceLease : Option DeviceOwnerLease
  deviceLeaseEpoch : Nat
  deviceRetirementDeferred : Bool
  deviceRetirementCompleted : Bool
  deviceRetirementResult : Option DeviceRetirement
  deviceRetirementRetryPending : Bool
  request : Option Request
  trace : List Entry

/-- An operation of the coordinator, under the journal lock. -/
abbrev Locked (α : Type) := Prog AgentCoordinator CoordinatorError α

def AgentCoordinator.deviceLeaseAttached (agent : AgentCoordinator) : Bool :=
  agent.deviceLease.any (·.attached)

section
variable (platform : Platform)

/-- The state after a call: the trace grows, and the lease may be detached. -/
def AgentCoordinator.record (call : Call) (agent : AgentCoordinator) : AgentCoordinator :=
  { agent with
    deviceLease :=
      if platform.detaches agent.trace.length then
        agent.deviceLease.map fun lease => { lease with attached := false }
      else agent.deviceLease
    trace := ⟨agent.request, agent.journal, agent.packetSessionAttached, call⟩ :: agent.trace }

def ask {α : Type} (platform : Platform) (answer : Nat → α) (call : α → Call) : Locked α :=
  fun agent =>
    let result := answer agent.trace.length
    (.ok result, agent.record platform (call result))

/-- `?` on the result of the backend. -/
def orReturn {α : Type} (call : Locked (Except BackendError α)) : Locked α := do
  let result ← call
  Prog.check (result.mapError .backend)

def journal : Locked RecoveryJournal := .read (·.journal)

def modifyJournal (f : RecoveryJournal → RecoveryJournal) : Locked Unit :=
  .update fun agent => { agent with journal := f agent.journal }

/-- `JournalStore::save` up to the write of the file: the journal with its next
    generation, and the first error. -/
def RecoveryJournal.beforeWrite (journal : RecoveryJournal) :
    RecoveryJournal × Except JournalError Unit :=
  if journal.generation < U64_MAX then
    let journal := { journal with generation := journal.generation + 1 }
    (journal, journal.validate)
  else
    (journal, .error .generationOverflow)

/-- `JournalStore::save`; the journal is changed whether or not it is saved. -/
def save (journal : RecoveryJournal) : Locked (RecoveryJournal × Except JournalError Unit) := do
  let (journal, valid) := journal.beforeWrite
  match valid with
  | .error error =>
    ask platform (fun _ => ()) fun _ => .save journal (.error error)
    pure (journal, .error error)
  | .ok () =>
    let written ← ask platform platform.write (.save journal)
    pure (journal, written.map fun _ => ())

/-- `self.store.save(journal)`. -/
def store : Locked (Except JournalError Unit) := do
  let (journal, result) ← save platform (← journal)
  modifyJournal fun _ => journal
  pure result

/-- `self.store.save(journal)?`. -/
def storeOrReturn : Locked Unit := do
  let result ← store platform
  Prog.check (result.mapError .journal)

def revokeEgress : Locked Unit := ask platform (fun _ => ()) fun _ => .revokeEgress

/-- `restore_step` and `restore_step_with_adapter`. -/
def restoreStep (path : RestorePath) (receipt : MutationReceipt) (adapter : Option MutationReceipt) :
    Locked (Except BackendError Unit) :=
  ask platform platform.restoreStep (.restoreStep path receipt adapter)

def inspectReplacementGuard (receipt : MutationReceipt) : Locked Bool :=
  orReturn (ask platform platform.inspectReplacementGuard (.inspectReplacementGuard receipt))

def inspectTunnel : Locked (Except BackendError TunnelInspection) :=
  ask platform platform.inspectTunnel .inspectTunnel

def inspectIdleDevice (receipt : MutationReceipt) : Locked (Except BackendError Bool) :=
  ask platform platform.inspectIdleDevice (.inspectIdleDevice receipt)

/-- `AgentCoordinator::open` in a run with the trace `trace` so far. -/
def AgentCoordinator.open (trace : List Entry) (file : Option JournalFile) :
    Except CoordinatorError AgentCoordinator := do
  let journal ← (loadOrClean file).mapError .journal
  pure
    { journal := journal
      packetSessionAttached := false
      tunnelLeaseAttached := false
      tunnelLeaseEpoch := 0
      agentInstance := platform.newUuid trace.length
      deviceLease := none
      deviceLeaseEpoch := 0
      deviceRetirementDeferred := false
      deviceRetirementCompleted := false
      deviceRetirementResult := none
      deviceRetirementRetryPending := false
      request := none
      trace := ⟨none, journal, false, .opened file⟩ :: trace }

end

end Usque.Agent
