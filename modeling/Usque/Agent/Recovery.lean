/-
  Recovery and retirement of the device (`usque-agent/src/coordinator.rs`,
  `restore_steps_locked` and `recover_locked`, and
  `coordinator/device_lifecycle.rs`, `retire_device_locked`).
-/
import Usque.Agent.Platform

namespace Usque.Agent
open Lib

/-! ## Restoring the steps -/

/-- Whether the removal of the adapter of the one receipt removes what the other
    describes: the interface configuration with its LUID, the DNS settings with
    its GUID. -/
def removedWith (dependency adapter : MutationReceipt) : Bool :=
  match dependency, adapter with
  | .interfaceConfiguration dependencyLuid .., .wintunAdapter _ _ interfaceLuid =>
    dependencyLuid == interfaceLuid
  | .dns interfaceGuid .., .wintunAdapter _ adapterGuid _ => interfaceGuid == adapterGuid
  | _, _ => false

def dependencySatisfiedByRestoredWintun (steps : List MutationRecord)
    (dependency : MutationRecord) : Bool :=
  dependency.state != .restored && steps.any fun adapter =>
    adapter.kind == .wintunAdapter && adapter.state == .restored &&
      removedWith dependency.receipt adapter.receipt

def markRestored (index : Nat) (steps : List MutationRecord) : List MutationRecord :=
  steps.modify index fun step => { step with state := .restored }

/-- The order of the restores: the packet session and the Kill Switch first, then
    the other steps from the last one to the first. -/
def restoreOrder (steps : List MutationRecord) : List Nat :=
  let unrestored (p : MutationKind → Bool) (index : Nat) :=
    steps[index]?.any fun step => p step.kind && step.state != .restored
  let indices := List.range steps.length
  indices.filter (unrestored (· == .packetSession)) ++
    indices.filter (unrestored (· == .killSwitch)) ++
      indices.reverse.filter (unrestored fun kind => kind != .packetSession && kind != .killSwitch)

def sessionStillAttached : RecoveryFailure :=
  .restore .packetSession (.operation "packet session is still attached")

def persistFailure (kind : Option MutationKind) : Except JournalError Unit → List RecoveryFailure
  | .ok () => []
  | .error error => [.persist kind error]

section
variable (platform : Platform)

/-- The revocation of egress when it is `due`; `false` if a packet session is still
    attached, which must not happen then. -/
def revokeDue (due : Bool) : Locked Bool :=
  if due then do
    if ← .read (·.packetSessionAttached) then
      pure false
    else
      revokeEgress platform
      pure true
  else
    pure true

def detachPacketSession : Locked Unit :=
  .update fun agent => { agent with packetSessionAttached := false }

/-- The restore of the step at `index`: its failures, and whether the restores
    stop after it. -/
def restoreIndex (path : RestorePath) (adapter : Option MutationReceipt) (index : Nat)
    (step : MutationRecord) : Locked (List RecoveryFailure × Bool) := do
  let steps ← .read (·.journal.steps)
  if dependencySatisfiedByRestoredWintun steps step then
    modifyJournal fun journal => { journal with steps := markRestored index journal.steps }
    let saved ← store platform
    pure (persistFailure (some step.kind) saved, false)
  else
    match ← restoreStep platform path step.receipt adapter with
    | .ok () =>
      modifyJournal fun journal => { journal with steps := markRestored index journal.steps }
      .when (step.kind = .packetSession) detachPacketSession
      let saved ← store platform
      pure (persistFailure (some step.kind) saved, false)
    -- a live or indeterminate packet pump must retain the firewall policy
    | .error error => pure ([.restore step.kind error], step.kind == .packetSession)

/-- The loop over the order: `revoke` says whether egress is still to be revoked. -/
def restoreIndices (platform : Platform) (path : RestorePath) (adapter : Option MutationReceipt) :
    List Nat → Bool → List RecoveryFailure → Locked (Option Bool × List RecoveryFailure)
  | [], revoke, failures => pure (some revoke, failures)
  | index :: order, revoke, failures => do
    match (← .read (·.journal.steps))[index]? with
    | none => restoreIndices platform path adapter order revoke failures
    | some step =>
      if step.state = .restored then
        restoreIndices platform path adapter order revoke failures
      else
        let due := revoke && step.kind != .packetSession
        if ← revokeDue platform due then
          let (failed, stop) ← restoreIndex platform path adapter index step
          if stop then
            pure (none, failures ++ failed)
          else
            restoreIndices platform path adapter order (revoke && !due) (failures ++ failed)
        else
          pure (none, [sessionStillAttached])

/-- The second pass: steps whose adapter has gone by now, and their failures. -/
def reconcileIndices (platform : Platform) :
    List Nat → List RecoveryFailure → Locked (List RecoveryFailure)
  | [], failures => pure failures
  | index :: indices, failures => do
    let steps ← .read (·.journal.steps)
    match steps[index]? with
    | none => reconcileIndices platform indices failures
    | some step =>
      if dependencySatisfiedByRestoredWintun steps step then
        modifyJournal fun journal => { journal with steps := markRestored index journal.steps }
        let failures := failures.filter fun failure =>
          match failure with
          | .restore failed _ => failed != step.kind
          | .persist .. => true
        let saved ← store platform
        reconcileIndices platform indices (failures ++ persistFailure (some step.kind) saved)
      else
        reconcileIndices platform indices failures

def restoreStepsLocked (path : RestorePath) :
    Locked (List RecoveryFailure) := do
  let journal ← journal
  match ← restoreIndices platform path journal.adapterReceipt (restoreOrder journal.steps) true []
  with
  | (none, failures) => pure failures
  | (some revoke, failures) =>
    -- no step but the packet session's: egress is revoked here
    if ← revokeDue platform revoke then
      reconcileIndices platform (List.range journal.steps.length) failures
    else
      pure [sessionStillAttached]

/-! ## Retirement of the device -/

/-- `save_device_retirement`: the note of a save that is to be tried again. -/
def noteRetirementSave (result : Except JournalError Unit) : Locked Unit :=
  .update fun agent =>
    { agent with
      deviceRetirementRetryPending :=
        match result with
        | .error (.io _) => true
        | _ => false }

def setDeviceState (state : DeviceState) : Locked Unit :=
  modifyJournal fun journal =>
    { journal with device := journal.device.map fun device => { device with state := state } }

/-- The removal of the device at most once: what became of it. -/
def removeDevice (receipt : MutationReceipt) : Locked DeviceRetirement := do
  match ← .read (·.deviceRetirementResult) with
  | some result => pure result
  | none =>
    setDeviceState .retiring
    -- a failed intent write cannot start native work
    let saved ← store platform
    noteRetirementSave saved
    Prog.check (saved.mapError .journal)
    .update fun agent => { agent with deviceRetirementResult := some .deferred }
    let retirement :=
      match ← restoreStep platform .device receipt none with
      | .ok () => DeviceRetirement.complete
      | .error _ => DeviceRetirement.deferred
    .update fun agent => { agent with deviceRetirementResult := some retirement }
    pure retirement

def retireDeviceLocked : Locked DeviceRetirement := do
  if ← .read (·.deviceRetirementDeferred) then
    pure .deferred
  else
    match ← .read (·.journal.device) with
    | none => pure .complete
    | some device =>
      let agent ← .read id
      Prog.ensure (agent.journal.phase = .clean ∧ agent.packetSessionAttached = false) .recoveryBusy
      match ← removeDevice platform device.receipt with
      | .deferred =>
        setDeviceState .recoveryRequired
        let saved ← store platform
        noteRetirementSave saved
        Prog.check (saved.mapError .journal)
        .update fun agent => { agent with deviceRetirementDeferred := true }
        pure .deferred
      | .complete =>
        let generation ← .read (·.journal.generation)
        let (clean, saved) ← save platform (RecoveryJournal.clean generation)
        noteRetirementSave saved
        match saved with
        | .error error =>
          modifyJournal fun journal => { journal with generation := clean.generation }
          setDeviceState .recoveryRequired
          .fail (.journal error)
        | .ok () =>
          modifyJournal fun _ => clean
          .update fun agent => { agent with deviceRetirementCompleted := true }
          pure .complete

/-! ## Recovery -/

def dropTunnelLease : Locked Unit :=
  .update fun agent =>
    { agent with
      tunnelLeaseAttached := false
      tunnelLeaseEpoch := (agent.tunnelLeaseEpoch + 1) % 2 ^ 64 }

/-- The end of a recovery with failures, after its phase was changed. -/
def failRecovery (failures : List RecoveryFailure) : Locked Unit := do
  let requiredSaved ← store platform
  .fail (recoveryError (failures ++ persistFailure none requiredSaved))

/-- The end of a recovery without failures: `Clean` is published only once it is
    durable, and a device without a lease is retired. -/
def finishRecovery : Locked Unit := do
  let (clean, saved) ← save platform (← journal).disconnected
  match saved with
  | .error error =>
    modifyJournal fun journal =>
      { journal with generation := clean.generation, phase := .recoveryRequired }
    failRecovery platform [.persist none error]
  | .ok () =>
    modifyJournal fun _ => clean
    let agent ← .read id
    .when (agent.journal.device.isSome ∧ agent.deviceLeaseAttached = false) do
      let _ ← retireDeviceLocked platform
      pure ()

/-- The restores of a recovery, after the save with the result `recoveringSaved`. -/
def recoverSteps (recoveringSaved : Except JournalError Unit) :
    Locked Unit := do
  let failures ← restoreStepsLocked platform .recovery
  if failures ≠ [] then
    modifyJournal fun journal => { journal with phase := .recoveryRequired }
    failRecovery platform (failures ++ persistFailure none recoveringSaved)
  else
    finishRecovery platform

/-- The body of `recover_locked_with_egress`. -/
def recoverJournal : Locked Unit := do
  Prog.ensure ((← journal).replacementPending = false) .replacementPending
  dropTunnelLease
  modifyJournal fun journal =>
    { journal with phase := .recovering, pauseDeadlineUnixSeconds := none }
  -- a failed write must never prevent the cleanup
  let recoveringSaved ← store platform
  recoverSteps platform recoveringSaved

/-- `recover_locked` and `recover_locked_with_egress`. -/
def recoverLocked : Locked Unit := do
  let before ← journal
  let result ← .attempt (recoverJournal platform)
  ask platform (fun _ => ()) fun _ => .recovered before result
  .check result

end

/-- The error `error` of an operation whose recovery ran: with that of the
    recovery, if it failed too. -/
def failAfterRecovery {α : Type} (platform : Platform) (error : CoordinatorError) (apply : String) :
    Locked α := do
  let recovered ← .attempt (recoverLocked platform)
  match recovered with
  | .ok () => .fail error
  | .error recovery => .fail (.applyAndRecovery apply recovery.message)

end Usque.Agent
