/-
  The coordinator of the Linux agent (`usque-agent/src/linux/coordinator.rs`).

  * A call of the backend or of the journal store is an operation (`LinuxOp`). `persist`
    is the function of the source: the save, and what it does to the coordinator; nothing
    but it and the `load` of `recover` writes the coordinator.
  * The code follows the source function by function; the four loops that restore
    records are one, `restoreRecords`.
  * The evidence that `linux_failure` collects is left out; errors keep their stages.
-/
import Usque.Lib.Service
import Usque.Linux.Journal

namespace Usque.Linux
open Agent (ValidatedTunnelPlan)
open Lib Fallible

/-- The fields of the `Coordinator` besides the backend and the store. -/
structure Coordinator where
  journal : Journal
  persistenceUncertain : Bool

inductive LinuxOp where
  | state
  | persist (next : Journal)
  | load
  | preflight (plan : ValidatedTunnelPlan)
  | initializeGuard (resources : Resources)
  | initializeResources (resources : Resources)
  | apply (step : Step) (resources : Resources) (plan : ValidatedTunnelPlan)
  | restore (step : Step) (resources : Resources) (plan : ValidatedTunnelPlan)
  | installBridge (resources : Resources) (plan : ValidatedTunnelPlan)
  | invalidateNetwork (resources : Resources)
  | takeReusableEgressMark

/-- What a call answers; the resources that it changes are part of its result. -/
abbrev LinuxOp.Answer : LinuxOp → Type
  | .state => Coordinator
  | .persist _ | .load | .preflight _ | .restore .. | .invalidateNetwork _ => Except IoError Unit
  | .initializeGuard _ | .initializeResources _ => Except IoError Resources
  | .apply .. | .installBridge .. => Except IoError Resources
  | .takeReusableEgressMark => Option ℕ

abbrev LinuxCode := Fallible LinuxOp LinuxOp.Answer IoError

def state : LinuxCode Coordinator := perform LinuxOp.state

def persist (next : Journal) : LinuxCode Unit := ExceptT.mk (Code.perform (LinuxOp.persist next))

def load : LinuxCode Unit := ExceptT.mk (Code.perform LinuxOp.load)

section
variable (step : Step) (resources : Resources) (owner : Owner) (operationId : Uuid)
  (plan : ValidatedTunnelPlan)

def preflight : LinuxCode Unit :=
  ExceptT.mk (Code.perform (LinuxOp.preflight plan))

def initializeGuard : LinuxCode Resources :=
  ExceptT.mk (Code.perform (LinuxOp.initializeGuard resources))

def initializeResources : LinuxCode Resources :=
  ExceptT.mk (Code.perform (LinuxOp.initializeResources resources))

def applyStep : LinuxCode Resources :=
  ExceptT.mk (Code.perform (LinuxOp.apply step resources plan))

def restore : LinuxCode Unit :=
  ExceptT.mk (Code.perform (LinuxOp.restore step resources plan))

def installBridge : LinuxCode Resources :=
  ExceptT.mk (Code.perform (LinuxOp.installBridge resources plan))

def invalidateNetwork : LinuxCode Unit :=
  ExceptT.mk (Code.perform (LinuxOp.invalidateNetwork resources))

def takeReusableEgressMark : LinuxCode (Option ℕ) :=
  perform LinuxOp.takeReusableEgressMark

/-- `if c { return Err(denied(message)) }`. -/
def deny (c : Bool) (message : String) : LinuxCode Unit :=
  if c then throw (.denied message) else pure ()

/-- `map_err(|e| linux_failure::wrap(stage, e))`. -/
def wrapped {α : Type} (stage : FailureStage) (x : LinuxCode α) : LinuxCode α := do
  match ← attempt x with
  | .ok a => pure a
  | .error e => throw (.wrap stage e)

/-- `plan.validate().map_err(|_| denied(message))`. -/
def validPlan (message : String) : LinuxCode Unit :=
  deny (plan.validate.toOption.isNone) message

/-- `checked_add(1)` of a `u64`. -/
def nextGeneration (generation : ℕ) : LinuxCode ℕ :=
  if generation + 1 < 2 ^ 64 then pure (generation + 1)
  else throw (.denied "Linux network generation exhausted")

def Journal.isReady (journal : Journal) : Bool :=
  journal.phase == .prepared || journal.phase == .active

/-- `journal` with the phase saved. -/
def persistPhase (phase : Phase) : LinuxCode Unit := do
  let self ← state
  persist { self.journal with phase }

def requireRecovery : LinuxCode Unit := persistPhase .recoveryRequired

def checkOwner : LinuxCode Unit := do
  let self ← state
  deny
    (self.persistenceUncertain || self.journal.owner != some owner ||
      self.journal.operationId != some operationId)
    "Linux operation is owned by another process or user"

/-! ## Restoring -/

/-- One round of the loops over the records. A failure is recorded unless it is a retry of
    a replacement (`retain`). -/
def restoreRecord (retain : Bool) (index : ℕ) : LinuxCode Unit := do
  let self ← state
  let record ← expect self.journal.records[index]?
  if record.state = .restored then pure ()
  else do
    let resources ← expect self.journal.resources
    let plan ← expect self.journal.plan
    match ← attempt (restore record.step resources plan) with
    | .error e =>
      if retain then do
        let _ ← attempt (persistPhase .recoveryRequired)
        throw (.wrap .recovery e)
      else throw e
    | .ok () =>
      persist { self.journal with
        records := self.journal.records.set index { record with state := .restored } }

/-- `for index in (start..n).rev()`. -/
def restoreDown (retain : Bool) (start : ℕ) : ℕ → LinuxCode Unit
  | 0 => pure ()
  | index + 1 =>
    if index < start then pure ()
    else do
      restoreRecord retain index
      restoreDown retain start index

/-- The records from `start` on, the last one first. -/
def restoreRecords (retain : Bool) (start : ℕ) : LinuxCode Unit := do
  let self ← state
  restoreDown retain start self.journal.records.length

/-- The first lines of `recover`. -/
def reload : LinuxCode Unit := do
  let self ← state
  if self.persistenceUncertain then load else pure ()

/-- The restore of the bridge at the end of `recover`. -/
def restoreReplacement : LinuxCode Unit := do
  let self ← state
  match self.journal.replacement with
  | none => pure ()
  | some replacement => restore .protection replacement.resources replacement.plan

def recover : LinuxCode Unit := do
  reload
  let self ← state
  if self.journal.phase = .clean then pure ()
  else do
    persistPhase .recovering
    restoreRecords true 0
    restoreReplacement
    let self ← state
    persist { generation := self.journal.generation }

def recordFailure (primary : IoError) : LinuxCode IoError := do
  let self ← state
  let cleanup ← attempt <|
    if self.journal.replacementOrigin.isSome || self.journal.replacement.isSome then
      persistPhase .recoveryRequired
    else recover
  match cleanup with
  | .ok () => pure primary
  | .error cleanup => pure (.withCleanup primary cleanup)

/-! ## Applying -/

def Step.stage : Step → FailureStage
  | .protection => .protection
  | .tun => .tunCreate
  | .addresses => .addressApply
  | .dns => .dnsApply
  | .routes => .routeApply

def apply : LinuxCode Unit := do
  let self ← state
  persist { self.journal with
    phase := .preparing, records := self.journal.records ++ [⟨step, .intended⟩] }
  let self ← state
  let resources ← expect self.journal.resources
  let plan ← expect self.journal.plan
  let resources ← wrapped step.stage (applyStep step resources plan)
  let last ← expect self.journal.records.getLast?
  persist { self.journal with
    resources := some resources
    records := self.journal.records.dropLast ++ [{ last with state := .applied }] }

def applyOrRecord : LinuxCode Unit := do
  match ← attempt (apply step) with
  | .ok () => pure ()
  | .error e => do
    let e ← recordFailure e
    throw e

def prepare (generation : ℕ) (plan : ValidatedTunnelPlan) : LinuxCode Unit := do
  let self ← state
  deny
    (self.persistenceUncertain || operationId.isNil || generation != self.journal.generation)
    "stale Linux operation generation"
  deny (self.journal.phase != .clean) "another Linux tunnel or recovery owns this host"
  validPlan plan "invalid Linux tunnel plan"
  wrapped .preflight (preflight plan)
  let networkGeneration ← nextGeneration self.journal.generation
  let resources ←
    initializeGuard { Resources.forOperation operationId with networkGeneration }
  let resources ← wrapped .dnsProbe (initializeResources resources)
  persist {
    generation := self.journal.generation
    phase := .preparing
    operationId := some operationId
    owner := some owner
    plan := some plan
    resources := some resources }
  let self ← state
  let plan ← expect self.journal.plan
  ([Step.protection, .tun, .addresses, .dns].take
    (if plan.deferNetworkConfiguration then 2 else 4)).forM applyOrRecord
  persistPhase .prepared

def commit : LinuxCode Unit := do
  checkOwner owner operationId
  let self ← state
  if self.journal.phase = .active then pure ()
  else do
    deny (self.journal.phase != .prepared) "Linux tunnel is not prepared"
    deny (self.journal.plan.any (·.deferNetworkConfiguration))
      "Linux chain network must be finalized before commit"
    applyOrRecord .routes
    persistPhase .active

/-- The changes of the plan that `finalize` allows. -/
def finalized (bootstrap plan : ValidatedTunnelPlan) : ValidatedTunnelPlan :=
  { bootstrap with
    assignedIpv4 := plan.assignedIpv4
    assignedIpv6 := plan.assignedIpv6
    dnsServers := plan.dnsServers
    mtu := plan.mtu
    deferNetworkConfiguration := false }

def finalize : LinuxCode Unit := do
  checkOwner owner operationId
  validPlan plan "invalid Linux final network"
  let self ← state
  deny (self.journal.phase != .prepared) "Linux chain is not prepared"
  let bootstrap ← expect self.journal.plan
  if !bootstrap.deferNetworkConfiguration then
    deny (bootstrap != plan) "Linux network is already finalized"
  else do
    deny (finalized bootstrap plan != plan)
      "Linux chain bootstrap policy cannot change during finalization"
    persist { self.journal with plan := some plan, phase := .preparing }
    [Step.addresses, .dns].forM applyOrRecord
    persistPhase .prepared

def rollback : LinuxCode Unit := do
  checkOwner owner operationId
  recover

/-! ## Changing the plan and the operation -/

/-- The end of `begin_chain_transition`, with the journal that it saves. -/
def chainPrepared (next : Journal) (resources : Resources) : LinuxCode Unit := do
  let current ← initializeResources resources
  if resources.physicalInterfaces ≠ current.physicalInterfaces then do
    invalidateNetwork current
    let networkGeneration ← nextGeneration current.networkGeneration
    persist { next with resources := some { current with networkGeneration } }
  else persist { next with resources := some current }

def beginChainTransition : LinuxCode Unit := do
  checkOwner owner operationId
  let self ← state
  deny (!self.journal.isReady || self.journal.plan.all fun plan => !plan.vpnChain)
    "Linux chain transition is unavailable"
  if self.journal.plan.any (·.deferNetworkConfiguration) then pure ()
  else do
    persistPhase .recovering
    restoreRecords true 2
    let self ← state
    let plan ← expect self.journal.plan
    let resources ← expect self.journal.resources
    chainPrepared { self.journal with
      records := self.journal.records.take 2
      phase := .prepared
      plan := some { plan with deferNetworkConfiguration := true } } resources

def prepareTargetSteps : LinuxCode Unit := do
  ([Step.tun, .addresses, .dns].take
    (if plan.deferNetworkConfiguration then 1 else 3)).forM applyOrRecord
  persistPhase .prepared

/-- `Coordinator::replace` when the target already is the operation of the journal. -/
def retryReplacement (source operationId : Uuid) (generation : ℕ) (plan : ValidatedTunnelPlan) :
    LinuxCode Unit := do
  checkOwner owner operationId
  let self ← state
  deny
    (self.journal.replacementOrigin != some source ||
      self.journal.replacementInitialPlan != some plan)
    "Linux replacement target policy changed"
  if self.journal.isReady then pure ()
  else do
    deny
      (generation != self.journal.generation ||
        !(self.journal.phase == .preparing || self.journal.phase == .recovering ||
          self.journal.phase == .recoveryRequired))
      "Linux replacement retry generation changed"
    let resources ← expect self.journal.resources
    invalidateNetwork resources
    persistPhase .recovering
    restoreRecords false 1
    let self ← state
    let resources ← expect self.journal.resources
    let resources ← initializeResources { resources with interfaceIndex := none }
    let networkGeneration ← nextGeneration resources.networkGeneration
    persist { self.journal with
      phase := .preparing
      plan := some plan
      records := self.journal.records.take 1
      resources := some { resources with networkGeneration } }
    prepareTargetSteps plan

def intendReplacement : LinuxCode Unit := do
  let self ← state
  match self.journal.replacement with
  | some replacement =>
    deny (replacement.operationId != operationId || replacement.plan != plan)
      "another Linux replacement already owns protection"
  | none => do
    deny (!self.journal.isReady) "Linux replacement source is not ready"
    let resources ← initializeGuard (Resources.forOperation operationId)
    let source ← expect self.journal.resources
    let networkGeneration ← nextGeneration source.networkGeneration
    persist { self.journal with
      phase := .recovering
      replacement := some ⟨operationId, plan, { resources with networkGeneration }, .intended⟩ }

def bridge : LinuxCode Replacement := do
  let self ← state
  let replacement ← expect self.journal.replacement
  if replacement.state = .applied then pure replacement
  else do
    let resources ← installBridge replacement.resources replacement.plan
    let replacement := { replacement with resources, state := .applied }
    persist { self.journal with replacement := some replacement }
    pure replacement

def invalidateSource : LinuxCode Unit := do
  let self ← state
  match self.journal.resources with
  | none => pure ()
  | some resources => invalidateNetwork resources

def replace (source operationId : Uuid) (generation : ℕ) (plan : ValidatedTunnelPlan) :
    LinuxCode Unit := do
  let self ← state
  if self.journal.operationId = some operationId then
    retryReplacement owner source operationId generation plan
  else do
    checkOwner owner source
    deny (operationId.isNil || operationId == source || generation != self.journal.generation)
      "stale Linux replacement identity or generation"
    validPlan plan "invalid Linux replacement plan"
    wrapped .preflight (preflight plan)
    intendReplacement operationId plan
    let replacement ← bridge
    invalidateSource
    restoreRecords true 0
    let resources ← initializeResources replacement.resources
    let self ← state
    persist {
      generation := self.journal.generation
      phase := .preparing
      operationId := some operationId
      owner := some owner
      plan := some plan
      resources := some resources
      records := [⟨.protection, .applied⟩]
      replacementOrigin := some source
      replacementInitialPlan := some plan }
    prepareTargetSteps plan

def abortReplacement (target : Uuid) (generation : ℕ) : LinuxCode Unit := do
  let self ← state
  match self.journal.operationId with
  | none => throw (.denied "Linux replacement is absent")
  | some operation => do
    checkOwner owner operation
    deny
      (generation != self.journal.generation ||
        operation != target &&
          self.journal.replacement.all fun replacement => replacement.operationId != target)
      "Linux replacement abort identity changed"
    recover

/-! ## The physical network -/

def invalidatePhysicalNetwork : LinuxCode Unit := do
  let self ← state
  deny self.persistenceUncertain "Linux recovery journal requires reconciliation"
  match self.journal.resources with
  | none => throw (.denied "Linux network is absent")
  | some resources => do
    invalidateNetwork resources
    let networkGeneration ← nextGeneration resources.networkGeneration
    persist { self.journal with resources := some { resources with networkGeneration } }

def updatePhysicalSnapshotWithRouting (interfaces : List PhysicalInterface)
    (routingChanged : Bool) : LinuxCode Unit := do
  let self ← state
  deny self.persistenceUncertain "Linux recovery journal requires reconciliation"
  match self.journal.resources with
  | none => pure ()
  | some resources =>
    if !routingChanged && resources.physicalInterfaces == interfaces then pure ()
    else do
      invalidateNetwork resources
      let networkGeneration ← nextGeneration resources.networkGeneration
      persist { self.journal with
        resources := some { resources with networkGeneration, physicalInterfaces := interfaces } }

structure PhysicalObservation where
  routingBaseline : Option (List (List UInt8)) := none
  unavailable : Bool := false
  invalidated : Bool := false

/-- `Coordinator::observe_physical_network`, with the observation that it leaves. -/
def observePhysicalNetwork (observation : PhysicalObservation)
    (snapshot : Except IoError (List PhysicalInterface × List (List UInt8))) :
    LinuxCode (PhysicalObservation × Except IoError Unit) :=
  match snapshot with
  | .ok (interfaces, routing) => do
    let changed := observation.unavailable || observation.routingBaseline != some routing
    match ← attempt (updatePhysicalSnapshotWithRouting interfaces changed) with
    | .error e => do
      let _ ← attempt requireRecovery
      pure ({ observation with unavailable := true }, .error e)
    | .ok () => pure (⟨some routing, false, false⟩, .ok ())
  | .error e =>
    if observation.invalidated then pure ({ observation with unavailable := true }, .error e)
    else do
      match ← attempt invalidatePhysicalNetwork with
      | .error e => do
        let _ ← attempt requireRecovery
        pure ({ observation with unavailable := true }, .error e)
      | .ok () => pure ({ observation with unavailable := true, invalidated := true }, .error e)

def reserveEgressMark (generation : ℕ) : LinuxCode (Resources × ℕ) := do
  checkOwner owner operationId
  let self ← state
  deny
    ((self.journal.resources.all fun resources => resources.networkGeneration != generation) ||
      !self.journal.isReady)
    "Linux egress generation or phase changed"
  let resources ← expect self.journal.resources
  match ← takeReusableEgressMark with
  | some slot => do
    deny (slot == 0 || slot > resources.egressMarkHighwater) "invalid recycled Linux mark"
    pure (resources, resources.socketMark ||| slot)
  | none =>
    if resources.egressMarkHighwater + 1 < 2 ^ 16 then do
      let allocated :=
        { resources with egressMarkHighwater := resources.egressMarkHighwater + 1 }
      persist { self.journal with resources := some allocated }
      pure (allocated, allocated.socketMark ||| allocated.egressMarkHighwater)
    else throw (.denied "Linux egress marks exhausted")

end

/-! ## Recovery without the owner -/

def AutomaticRecovery.due (recovery : AutomaticRecovery) : AutomaticPhase :=
  if recovery.attempts ≥ RECOVERY_ATTEMPT_LIMIT then .exhausted else .waiting

/-- The phase saved by `arm_automatic_recovery`. -/
def armWaiting : LinuxCode Unit := do
  let self ← state
  if self.journal.automaticRecovery.phase = .waiting then pure ()
  else
    persist { self.journal with automaticRecovery := { self.journal.automaticRecovery with
      phase := self.journal.automaticRecovery.due } }

def armAutomaticRecovery : LinuxCode Bool := do
  let self ← state
  if self.persistenceUncertain || self.journal.phase != .recoveryRequired then pure false
  else if self.journal.automaticRecovery.phase = .exhausted ∨
      self.journal.automaticRecovery.phase = .blocked then pure false
  else do
    armWaiting
    let self ← state
    pure (self.journal.automaticRecovery.phase == .waiting)

/-- The bookkeeping of `automatic_recover` after a failed recovery. -/
def recordAttempt (error : IoError) : LinuxCode Unit := do
  let self ← state
  if self.persistenceUncertain then pure ()
  else do
    let phase :=
      if error.kind = .permissionDenied ∨ error.kind = .invalidData ∨ error.kind = .unsupported then
        .blocked
      else self.journal.automaticRecovery.due
    let _ ← attempt <| persist { self.journal with
      phase := .recoveryRequired
      automaticRecovery := { self.journal.automaticRecovery with phase } }
    pure ()

def automaticRecover (operation : Uuid) (generation : ℕ) : LinuxCode Unit := do
  let self ← state
  deny
    (self.persistenceUncertain || self.journal.operationId != some operation ||
      self.journal.generation != generation || self.journal.phase != .recoveryRequired ||
      self.journal.automaticRecovery.phase != .waiting ||
      self.journal.automaticRecovery.attempts ≥ RECOVERY_ATTEMPT_LIMIT)
    "Linux automatic recovery identity or budget changed"
  persist { self.journal with automaticRecovery :=
    ⟨.running, self.journal.automaticRecovery.attempts + 1⟩ }
  match ← attempt recover with
  | .ok () => pure ()
  | .error e => do
    recordAttempt e
    throw e

def restartAutomaticRecovery (uid : ℕ) (operation : Uuid) (generation : ℕ) (ownerAlive : Bool) :
    LinuxCode Unit := do
  let self ← state
  deny
    (self.persistenceUncertain || self.journal.operationId != some operation ||
      self.journal.generation != generation || self.journal.phase != .recoveryRequired ||
      (self.journal.owner.all fun owner => owner.uid != uid) || ownerAlive)
    "Linux recovery restart identity or owner changed"
  persist { self.journal with automaticRecovery := ⟨.waiting, 0⟩ }

def recoverOrphaned (uid : ℕ) (operationId : Uuid) (generation : ℕ) (ownerAlive : Bool) :
    LinuxCode Unit := do
  let self ← state
  deny
    (self.journal.operationId != some operationId || self.journal.generation != generation ||
      (self.journal.owner.all fun owner => owner.uid != uid) || ownerAlive)
    "Linux recovery identity or generation changed"
  recover

end Usque.Linux
