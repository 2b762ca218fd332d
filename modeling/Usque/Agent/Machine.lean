/-
  Runs of the agent: the requests that its coordinator serves one after the
  other, and the process restarts between and during them.

  * `next` is the machine: a request runs to its end, and a crash loses the last
    calls and opens the journal file that the others left.
-/
import Usque.Agent.Replacement
import Usque.Lib.Run

namespace Usque.Agent
open Lib

section
variable (platform : Platform)

def dispatch : Request → Locked Unit
  | .reconcileRemovedAdapterDependencies => do
    let _ ← reconcileRemovedAdapterDependencies platform
    pure ()
  | .recoverStale => recoverStale platform
  | .inspectStartupTunnel => do
    let _ ← inspectStartupTunnel platform
    pure ()
  | .recoverOrphaned operationId expectedGeneration caller => do
    let _ ← recoverOrphaned platform operationId expectedGeneration caller
    pure ()
  | .recoverAutomatic operationId expectedGeneration => do
    let _ ← recoverAutomatic platform operationId expectedGeneration
    pure ()
  | .beginChainTransition operationId caller => do
    let _ ← beginChainTransition platform operationId caller
    pure ()
  | .finalizeTunnel operationId plan caller => do
    let _ ← finalizeTunnel platform operationId plan caller
    pure ()
  | .openPacketSession operationId capacity caller => do
    let _ ← openPacketSession platform operationId capacity caller
    pure ()
  | .closePacketSession operationId caller => do
    let _ ← closePacketSession platform operationId caller
    pure ()
  | .resumeTunnel operationId profileId caller => do
    let _ ← resumeTunnel platform operationId profileId caller
    pure ()
  | .acquireTunnelLease operationId caller => do
    let _ ← acquireTunnelLease operationId caller
    pure ()
  | .releaseStartupTunnelLease operationId caller => do
    let _ ← releaseStartupTunnelLease operationId caller
    pure ()
  | .releaseTunnelLease operationId caller => do
    let _ ← releaseTunnelLease platform operationId caller
    pure ()
  | .recoverOrphanedStartupTunnel operationId leaseEpoch => do
    let _ ← recoverOrphanedStartupTunnel platform operationId leaseEpoch
    pure ()
  | .recoverOrphanedTunnel operationId leaseEpoch => do
    let _ ← recoverOrphanedTunnel platform operationId leaseEpoch
    pure ()
  | .commit operationId caller => do
    let _ ← commit platform operationId caller
    pure ()
  | .rollback operationId caller => do
    let _ ← rollback platform operationId caller
    pure ()
  | .reconcileAbsentAdapterOnRetry operationId expectedGeneration caller => do
    let _ ← reconcileAbsentAdapterOnRetry platform operationId expectedGeneration caller
    pure ()
  | .applySystemProxy operationId settings caller => do
    let _ ← applySystemProxy platform operationId settings caller
    pure ()
  | .restoreSystemProxy operationId caller => do
    let _ ← restoreSystemProxy platform operationId caller
    pure ()
  | .retryDeviceRetirementPersistence => retryDeviceRetirementPersistence platform
  | .recoverForProcessExit => do
    let _ ← recoverForProcessExit platform
    pure ()
  | .acquireDeviceLease caller => do
    let _ ← acquireDeviceLease platform caller
    pure ()
  | .detachDeviceLease key caller => do
    let _ ← detachDeviceLease key caller
    pure ()
  | .prepareManaged operationId plan caller key expectedGeneration => do
    let _ ← prepareManaged platform operationId plan caller key expectedGeneration
    pure ()
  | .releaseDeviceLease key caller => do
    let _ ← releaseDeviceLease platform key caller
    pure ()
  | .retireOrphanedDevice key => do
    let _ ← retireOrphanedDevice platform key
    pure ()
  | .retireDevice => do
    let _ ← retireDevice platform
    pure ()
  | .replaceTunnel sourceOperationId expectedGeneration operationId plan caller key => do
    let _ ← replaceTunnel platform sourceOperationId expectedGeneration operationId plan caller key
    pure ()
  | .abortReplacement operationId expectedGeneration caller => do
    let _ ← abortReplacement platform operationId expectedGeneration caller
    pure ()
  | .abortReplacementForMaintenance => abortReplacementForMaintenance platform

/-- A request: its entry of the trace, then its operation. -/
def serve (request : Request) : Locked Unit := do
  .update fun agent => { agent with request := some request }
  ask platform (fun _ => ()) fun _ => .requested
  dispatch platform request

def storedFile : List Entry → Option JournalFile
  | [] => none
  | entry :: trace =>
    match entry.call with
    | .opened file => file
    | .save journal (.ok len) => some ⟨len, .ok journal⟩
    | _ => storedFile trace

inductive Stimulus where
  /-- A request is served. -/
  | request (request : Request)
  /-- The process ends `lost` calls before the end of the trace, and another one
      opens the journal file. -/
  | crash (lost : Nat)

/-- A step of the run. A new process that cannot open the file serves nothing. -/
def next (agent : AgentCoordinator) : Stimulus → AgentCoordinator × Except CoordinatorError Unit
  | .request request =>
    let (result, agent) := serve platform request agent
    (agent, result)
  | .crash lost =>
    let trace := agent.trace.drop lost
    match AgentCoordinator.open platform trace (storedFile trace) with
    | .ok opened => (opened, .ok ())
    | .error error => (agent, .error error)

/-- The states in which a run may start: a process has opened some file. -/
def Started (agent : AgentCoordinator) : Prop :=
  ∃ file, AgentCoordinator.open platform [] file = .ok agent

end

end Usque.Agent
