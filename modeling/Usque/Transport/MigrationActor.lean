/-
  The handlers of the migration actor (`usque-transport/src/h3/migration.rs`) and the
  packet output of the H3 task (`usque-transport/src/h3.rs`), and the machine of their
  runs.
-/
import Usque.Transport.Migration

namespace Usque.Transport.H3
open Lib

/-! ## Attempts -/

/-- Whether the reply of an attempt is gone or closed. -/
def replyClosed (env : Environment) (attempt : PendingMigration) : Handler Bool :=
  if attempt.reply.isNone then pure true else ask env.replyClosed

section
variable (env : Environment) (prepared : PreparedPathSocket)

def invalidAttemptReason (now : ℕ) : Handler (Option MigrationReasonCode) := do
  match ← .read (·.migration.pending) with
  | none => pure none
  | some attempt =>
    if now ≥ attempt.deadline then
      pure (some .pathValidationTimeout)
    else
      let closed ← replyClosed env attempt
      if closed = true then
        pure (some .superseded)
      else
        let current ← networkGeneration env
        if current = some attempt.targetGeneration then
          pure none
        else if attempt.phase = .preparingSocket then
          pure (some .generationChangedDuringSetup)
        else if current.any (· > attempt.targetGeneration) then
          pure (some .superseded)
        else
          pure (some .generationChangedDuringSetup)

def abort (reason : MigrationReasonCode) : Handler Unit := do
  finishBarrier
  match ← .read (·.migration.pending) with
  | none => pure ()
  | some attempt =>
    modifyMigration fun migration => { migration with pending := none }
    -- the attempt is no longer the actor's: `dropMigration` finds none if the task ends here
    clearCandidate env
    match attempt.reply with
    | some request => sendReply request (.failed reason)
    | none => pure ()

/-- Gives up an attempt that is no longer valid. -/
def abortIfInvalid (now : ℕ) : Handler Unit := do
  match ← invalidAttemptReason env now with
  | some reason => abort env reason
  | none => pure ()

def deferProbe : Handler Unit := do
  let now ← now env
  modifyPending fun attempt => { attempt with nextProbeAt := now + MIGRATION_PROBE_INTERVAL }

/-! ## Commands -/

/-- Whether `handle_command` finds the request stale. -/
def isStale (targetGeneration : ℕ) : Handler Bool := do
  let highest ← .read (·.migration.highestGeneration)
  if targetGeneration ≤ highest then
    pure true
  else
    let current ← networkGeneration env
    pure (current.any (targetGeneration < ·))

/-- The start of an attempt in `handle_command`. -/
def startAttempt (request targetGeneration deadline : ℕ) : Handler ℕ := do
  let now ← now env
  .update fun actor =>
    { actor with
      migration := { actor.migration with
        highestGeneration := targetGeneration
        pending := some {
          targetGeneration := targetGeneration
          deadline := min deadline (now + MIGRATION_TIMEOUT)
          reply := some request
          preparation := none
          phase := .preparingSocket
          nextProbeAt := now + MIGRATION_STATE_POLL_INTERVAL } }
      trace := .accepted request targetGeneration :: actor.trace }
  pure now

/-- Whether migration is switched on and the platform knows its networks. -/
def migrationSupported : Handler Bool :=
  if env.quicMigration then do
    let current ← networkGeneration env
    pure current.isSome
  else
    pure false

/-- Why `handle_command` gives a new attempt up. -/
def refusal (now : ℕ) : Handler (Option MigrationReasonCode) := do
  let supported ← migrationSupported env
  if supported = false then
    pure (some .unsupported)
  else
    let available ← ask env.endpointFamilyAvailable
    if available = some false then
      pure (some .familyUnavailable)
    else
      let established ← ask env.established
      let stopping ← ask env.stopping
      if established = false ∨ stopping = true then
        pure (some .connectionClosed)
      else
        invalidAttemptReason env now

/-- Why the connection identifiers make `handle_command` give a new attempt up. -/
def cidRefusal : Option CidAvailability → Option MigrationReasonCode
  | some .ready => none
  | some .peerUnavailable => some .peerCidUnavailable
  | some .localUnavailable | none => some .localCidUnavailable

/-- The end of `handle_command`, with a new attempt. -/
def beginPreparation (targetGeneration now : ℕ) : Handler Unit := do
  match ← .read (·.paths.active) with
  | none => abort env .connectionClosed
  | some active =>
    match ← refusal env now with
    | some reason => abort env reason
    | none =>
      let availability ← ask env.maintainConnectionIds
      match cidRefusal availability with
      | some reason => abort env reason
      | none =>
        modifyPending fun attempt =>
          { attempt with preparation := some ⟨active.peerAddr, targetGeneration⟩ }

/-- `handle_command`. Each request has a reply channel of its own. -/
def handleCommand (targetGeneration deadline : ℕ) : Handler Unit := do
  let request ← .read (·.requests)
  .update fun actor => { actor with requests := actor.requests + 1 }
  let closed ← ask env.replyClosed
  if closed = true then
    pure ()
  else
    let stale ← isStale env targetGeneration
    if stale = true then
      sendReply request .staleRequest
    else
      abort env .superseded
      clearRetiring env
      let now ← startAttempt env request targetGeneration deadline
      beginPreparation env targetGeneration now

/-! ## Preparation -/

inductive SocketPrepareError where
  | staleGeneration
  | io
  | protection

structure PreparedPathSocket where
  socket : ℕ
  localAddr : SocketAddr
  peerAddr : SocketAddr
  networkGeneration : ℕ
  egressLease : DirectEgressLease

/-- What happens during one `prepare_udp_for_generation`: the network generations that it
    reads, whether a socket is bound and set up, the lease, or whether it is refused as
    stale, the socket and its local address, and the generation read after it. -/
structure PrepareAnswers where
  generationBefore : Option ℕ
  bound : Bool
  lease : Except Bool DirectEgressLease
  generationProtected : Option ℕ
  socket : Option (ℕ × SocketAddr)
  generationAfter : Option ℕ
  generationRetry : Option ℕ

def prepareUdpForGeneration (target : SocketAddr) (expectedGeneration : ℕ)
    (answers : PrepareAnswers) : Except SocketPrepareError PreparedPathSocket :=
  if answers.generationBefore.getD 0 ≠ expectedGeneration then .error .staleGeneration
  else if answers.bound = false then .error .io
  else
    match answers.lease with
    | .error stale => .error (if stale then .staleGeneration else .protection)
    | .ok lease =>
      if answers.generationProtected.getD 0 ≠ expectedGeneration ∨
          lease.generation ≠ some expectedGeneration then
        .error .staleGeneration
      else
        match answers.socket with
        | none => .error .io
        | some (socket, localAddr) =>
          if answers.generationAfter.getD 0 ≠ expectedGeneration then .error .staleGeneration
          else .ok ⟨socket, localAddr, target, expectedGeneration, lease⟩

/-- The future that `handle_command` starts, with the answers of each round left. -/
def prepare (preparation : Preparation) (answers : ℕ → PrepareAnswers) :
    ℕ → Except SocketPrepareError PreparedPathSocket
  | 0 => .error .staleGeneration
  | rounds + 1 =>
    match prepareUdpForGeneration preparation.endpoint preparation.targetGeneration
        (answers rounds) with
    | .error .staleGeneration =>
      if (answers rounds).generationRetry = some preparation.targetGeneration then
        prepare preparation answers rounds
      else
        .error .staleGeneration
    | result => result

/-- The candidate that `on_prepared` makes. -/
def candidateOf (pathId receivePool : ℕ) : PathSocket where
  pathId := pathId
  localAddr := prepared.localAddr
  peerAddr := prepared.peerAddr
  networkGeneration := prepared.networkGeneration
  role := .candidate
  socket := prepared.socket
  egressLease := prepared.egressLease
  receivePool := receivePool

/-- The end of `on_prepared`, with a prepared socket. -/
def addCandidate : Handler Unit := do
  let pathId ← .read (·.migration.nextPathId)
  if pathId + 1 > USIZE_MAX then
    abort env .unsupported
  else
    let socketAddr ← ask env.socketAddr
    let io ← ask env.batchIo
    let paths ← .read (·.paths)
    modifyMigration fun migration => { migration with nextPathId := pathId + 1 }
    let path := candidateOf prepared pathId paths.receivePool
    match (path.spawn socketAddr io).map paths.insert with
    | some (.ok paths) =>
      .update fun actor => { actor with paths := paths, trace := .inserted path :: actor.trace }
      let now ← now env
      modifyPending fun attempt => { attempt with phase := .probing, nextProbeAt := now }
    | _ => abort env .socketProtectFailed

def onPrepared (prepared : Except SocketPrepareError PreparedPathSocket) :
    Handler Unit := do
  match ← .read (·.migration.pending) with
  | none => pure ()
  | some _ =>
    modifyPending fun attempt => { attempt with preparation := none }
    let now ← now env
    match ← invalidAttemptReason env now with
    | some reason => abort env reason
    | none =>
      match prepared with
      | .ok prepared => addCandidate env prepared
      | .error .staleGeneration => abort env .generationChangedDuringSetup
      | .error _ => abort env .socketProtectFailed

/-- The branch of the task for a preparation that is done: the actor prepares a socket. -/
def handlePrepared (answers : ℕ → PrepareAnswers) : Handler Unit := do
  match (← .read (·.migration.pending)).bind (·.preparation) with
  | none => pure ()
  | some preparation => onPrepared env (prepare preparation answers SOCKET_PREPARE_ATTEMPTS)

/-- `handle_receive_failure`, for a path of the set. -/
def handleReceiveFailure (pathId : ℕ) : Handler Unit := do
  let paths ← .read (·.paths)
  if paths.contains pathId = false then
    pure ()
  else if paths.candidate.any (·.pathId = pathId) then
    abort env .pathProbeRejected
  else if paths.retiring.any (·.pathId = pathId) then
    clearRetiring env
  else
    .fail .io

/-! ## Path events -/

def PathSocket.matches (path : PathSocket) (localAddr peerAddr : SocketAddr) : Bool :=
  path.localAddr = localAddr && path.peerAddr = peerAddr

/-- The answer to a `Validated` event of the candidate. -/
def onValidated : Handler Unit := do
  let time ← now env
  match ← invalidAttemptReason env time with
  | some reason => abort env reason
  | none =>
    let stopping ← ask env.stopping
    let running ← ask env.receiverRunning
    let validated ← ask env.pathValidated
    let paths ← .read (·.paths)
    if stopping = true ∨ paths.promotionReady running = false ∨ validated = false then
      abort env .promotionFailed
    else
      let time ← now env
      modifyPending fun attempt =>
        if attempt.phase = .probing then
          { attempt with phase := .validated, nextProbeAt := time }
        else attempt

/-- One round of `process_path_events`. -/
def processPathEvent (event : PathEvent) : Handler Unit := do
  let paths ← .read (·.paths)
  match event with
  | .validated localAddr peerAddr =>
    .when (paths.candidate.any (PathSocket.matches · localAddr peerAddr) = true) (onValidated env)
  | .failedValidation localAddr peerAddr =>
    .when (paths.candidate.any (PathSocket.matches · localAddr peerAddr) = true)
      (abort env .pathValidationTimeout)
  | .closed localAddr peerAddr =>
    .when (paths.candidate.any (PathSocket.matches · localAddr peerAddr) = true)
      (abort env .pathProbeRejected)
    .when (paths.retiring.any (PathSocket.matches · localAddr peerAddr) = true) (clearRetiring env)
  | _ => pure ()

def pathEventNext (env : Environment) : Handler (Option PathEvent) :=
  askWith env.pathEventNext fun _ event => event.elim .observed .pathEvent

def processPathEvents (env : Environment) : ℕ → Handler Unit
  | 0 => pure ()
  | rounds + 1 => do
    match ← pathEventNext env with
    | none => pure ()
    | some event =>
      processPathEvent env event
      processPathEvents env rounds

/-! ## Packet output -/

/-- `WireSendOutcome`; `cancelled` if the call is given up. -/
inductive WireSendOutcome where
  | sent
  | messageTooLarge
  | cancelled

/-- The number of packets in the batch of `send_due_wire_datagrams`. -/
def dueBatch (now quantum : ℕ) (first : WireDatagram) : ℕ → List WireDatagram → ℕ
  | _, [] => 0
  | sentBytes, datagram :: rest =>
    if datagram.at > now ∨ datagram.source ≠ first.source ∨
        datagram.destination ≠ first.destination then 0
    else if min (sentBytes + datagram.length) USIZE_MAX > quantum then 0
    else dueBatch now quantum first (min (sentBytes + datagram.length) USIZE_MAX) rest + 1

def completeWireSends (sent : ℕ) : Handler Unit :=
  .update fun actor => { actor with wireDatagrams := actor.wireDatagrams.drop sent }

def sendDueWireDatagrams (quantum : ℕ) : Handler WireSendOutcome := do
  match ← .read (·.wireDatagrams) with
  | [] => pure .sent
  | first :: rest =>
    let time ← now env
    if first.at > time then
      pure .sent
    else
      let paths ← .read (·.paths)
      match paths.ioForSend first.source first.destination with
      | .error error => .fail (.http3 error.text)
      | .ok path =>
        let batchLen := dueBatch time quantum first 0 ((first :: rest).take UDP_ACTOR_DRAIN_LIMIT)
        if batchLen = 0 then
          pure .sent
        else
          match ← sendBatch env path with
          | .cancelled => pure .cancelled
          | .tooLarge =>
            completeWireSends 1
            pure .messageTooLarge
          | .failed => .fail .io
          | .sent count =>
            .ensure (count ≤ batchLen)
              (.http3 "UDP batch backend reported more sends than requested")
            completeWireSends count
            pure .sent

def discardPendingWireDatagrams : Handler Unit :=
  .update fun actor => { actor with wireDatagrams := [] }

def pushWireDatagram (datagram : WireDatagram) : Handler Unit :=
  .update fun actor => { actor with wireDatagrams := actor.wireDatagrams ++ [datagram] }

/-- The loop of `generate_wire_datagrams`, as long as the queue has room. -/
def generateLoop (env : Environment) (active : PathBinding) (quantum capacity : ℕ) :
    ℕ → ℕ → Handler Unit
  | 0, _ => pure ()
  | room + 1, generatedBytes =>
    if min capacity (quantum - generatedBytes) < MIN_CLIENT_INITIAL_LEN then
      pure ()
    else do
      match ← sendOnPath env active.localAddr active.peerAddr with
      | .ok datagram =>
        pushWireDatagram datagram
        generateLoop env active quantum capacity room
          (min (generatedBytes + datagram.length) USIZE_MAX)
      | .error .done => pure ()
      | .error _ => .fail (.http3 "generate QUIC packet")

/-- `generate_wire_datagrams`, as the task calls it. -/
def generateWireDatagrams (capacity : ℕ) : Handler Unit := do
  let quantum ← ask env.sendQuantum
  let time ← now env
  let suppressed ← .read (·.pmtu.sendSuppressedUntil time)
  .when (suppressed = none) do
    match ← .read (·.paths.active) with
    | none => .fail .panicked
    | some active =>
      let queued ← .read (·.wireDatagrams.length)
      generateLoop env active.binding quantum capacity (MAX_PENDING_WIRE_DATAGRAMS - queued) 0

def handlePmtuSendTooLarge (probeOnly : Bool) : Handler Unit := do
  let active ← ask env.activePaths
  match active.head? with
  | none => .fail (.http3 "active QUIC path disappeared after UDP EMSGSIZE")
  | some (localAddr, peerAddr) =>
    let completed ← ask env.completedPmtu
    let time ← now env
    let controller ← .read (·.pmtu)
    let key : PmtuPathKey := ⟨localAddr, peerAddr⟩
    match
      if probeOnly then controller.onProbeSendTooLarge key time
      else controller.onSendTooLarge key completed time with
    | none => .fail .panicked
    | some (controller, action) =>
      .update fun actor => { actor with pmtu := controller }
      match action with
      | .exhausted _ => .fail .pmtuRevalidationExhausted
      | _ => pure ()

/-- The branch of the task that sends what is due. -/
def handleWire (quantum : ℕ) : Handler Unit := do
  match ← sendDueWireDatagrams env quantum with
  | .messageTooLarge =>
    let probeOnly ← ask env.probeSendError
    .when (probeOnly = false) discardPendingWireDatagrams
    handlePmtuSendTooLarge env probeOnly
  | _ => pure ()

def injectApplicationData : Handler Unit :=
  .update fun actor =>
    if actor.migration.barrier.allowsApplicationInjection then actor.log .injected else actor

/-! ## The probe cycle -/

/-- `ActiveDrain`; `timedOut` if the cycle ends first. -/
inductive ActiveDrain where
  | drained (packets : ℕ)
  | deferred
  | messageTooLarge
  | timedOut

/-- The next packet of the active path: the first that is queued, or else quiche's. -/
def nextActiveOutput (active : PathBinding) : Handler (Option WireDatagram) := do
  match ← .read (·.wireDatagrams) with
  | first :: _ => pure (some first)
  | [] =>
    match ← sendOnPath env active.localAddr active.peerAddr with
    | .ok datagram =>
      pushWireDatagram datagram
      pure (some datagram)
    | .error .done => pure none
    | .error _ => .fail (.http3 "migration active drain failed")

/-- The wait until a packet is due; `true` if the cycle ends first. -/
def waitUntilDue (due : ℕ) : Handler Bool := do
  let time ← now env
  if due > time then
    awaits env .sleep
    ask env.expires
  else
    pure false

/-- `drain_active_output`. A round sends at least one packet, so there are at most as many
    rounds as packets in the budget. -/
def drainActiveOutput (env : Environment) (active : PathBinding) : ℕ → ℕ → Handler ActiveDrain
  | 0, _ => pure .deferred
  | rounds + 1, packets =>
    if packets ≥ MIGRATION_DRAIN_PACKET_BUDGET then
      pure .deferred
    else do
      match ← nextActiveOutput env active with
      | none => pure (.drained packets)
      | some first =>
        .ensure (first.source = active.localAddr ∧ first.destination = active.peerAddr)
          (.http3 "migration drain found output for a non-active binding")
        let late ← waitUntilDue env first.at
        if late = true then
          pure .timedOut
        else
          let before ← .read (·.wireDatagrams.length)
          let quantum ← ask env.sendQuantum
          match ← sendDueWireDatagrams env quantum with
          | .cancelled => pure .timedOut
          | .messageTooLarge =>
            discardPendingWireDatagrams
            pure .messageTooLarge
          | .sent =>
            let after ← .read (·.wireDatagrams.length)
            if before - after = 0 then
              pure .deferred
            else
              drainActiveOutput env active rounds (packets + (before - after))

def probeFailureReason (error : QuicheError) (availablePeerIds : ℕ) : MigrationReasonCode :=
  match error with
  | .outOfIdentifiers => if availablePeerIds = 0 then .peerCidUnavailable else .localCidUnavailable
  | .idLimit => .localCidUnavailable
  | _ => .pathProbeRejected

/-- `send_candidate_control`, with the packets that it may still send; the reason for
    which it fails. -/
def sendCandidateControl (env : Environment) (candidate : PathBinding) (deadline : ℕ) :
    ℕ → Handler (Option MigrationReasonCode)
  | 0 => pure none
  | budget + 1 => do
    let time ← now env
    if time ≥ deadline then
      pure none
    else
      match ← sendOnPath env candidate.localAddr candidate.peerAddr with
      | .error .done => pure none
      | .error error =>
        let availablePeerIds ← ask env.availableDcids
        pure (some (probeFailureReason error availablePeerIds))
      | .ok datagram =>
        if datagram.source ≠ candidate.localAddr ∨ datagram.destination ≠ candidate.peerAddr then
          pure (some .pathProbeRejected)
        else
          let late ← waitUntilDue env datagram.at
          if late = true then
            pure none
          else
            let paths ← .read (·.paths)
            match paths.ioForSend datagram.source datagram.destination with
            | .error _ => pure (some .pathProbeRejected)
            | .ok path =>
              match ← sendBatch env path with
              | .sent 1 => sendCandidateControl env candidate deadline budget
              | .cancelled => pure none
              | _ => pure (some .pathProbeRejected)

/-- The end of `promote`: the path is the active one. -/
def finishPromotion (binding : PathBinding) : Handler Unit := do
  let controller ← .read (·.pmtu)
  match controller.onPathPromoted ⟨binding.localAddr, binding.peerAddr⟩ with
  | some (controller, .revalidate _) =>
    let time ← now env
    let pending ← .read (·.migration.pending)
    .update fun actor =>
      { actor with
        pmtu := controller
        migration := { actor.migration with
          retiringDeadline := some (time + RETIRING_GRACE)
          pending := none } }
    match pending with
    | some attempt =>
      match attempt.reply with
      | some request => sendReply request (.promoted binding.networkGeneration)
      | none => pure ()
    | none => .fail .panicked
  | some (controller, _) =>
    .update fun actor => { actor with pmtu := controller }
    .fail (.http3 "promoted QUIC path rejected PMTU revalidation")
  | none => .fail .panicked

/-- `promote_candidate`, with the entry of the swap. -/
def promoteCandidate (env : Environment) : Handler PathBinding := do
  let running ← ask env.receiverRunning
  let paths ← .read (·.paths)
  match paths.promoteCandidate running with
  | .error _ =>
    .fail (.http3 "QUIC promotion could not atomically swap its socket binding")
  | .ok (paths', binding) =>
    match paths.active, paths.candidate with
    | some previous, some next =>
      .update fun actor =>
        { actor with paths := paths', trace := .promoted previous next :: actor.trace }
      pure binding
    | _, _ => .fail .panicked

def promote (candidate : PathBinding) : Handler Unit := do
  .update fun actor => actor.log (.promoting candidate)
  let running ← ask env.receiverRunning
  let validated ← ask env.pathValidated
  let current ← networkGeneration env
  let stopping ← ask env.stopping
  let actor ← .read id
  if actor.paths.promotionReady running = false ∨ validated = false ∨
      current ≠ some candidate.networkGeneration ∨ stopping = true ∨ actor.wireDatagrams ≠ [] then
    abort env .promotionFailed
  else
    let migrated ← ask env.migrateSource
    if migrated = false then
      abort env .promotionFailed
    else
      let binding ← promoteCandidate env
      finishPromotion env binding

/-- The part of `tick` after the drain: the candidate is promoted or probed. -/
def probeOrPromote (phase : MigrationPhase) (candidate : PathBinding) (cycleDeadline packets : ℕ) :
    Handler Unit := do
  let time ← now env
  match ← invalidAttemptReason env time with
  | some reason =>
    finishBarrier
    abort env reason
  | none =>
    if phase = .validated then
      promote env candidate
      finishBarrier
    else
      match ← ask env.probePath with
      | some error =>
        let availablePeerIds ← ask env.availableDcids
        finishBarrier
        abort env (probeFailureReason error availablePeerIds)
      | none =>
        let sent ← sendCandidateControl env candidate cycleDeadline
          (MIGRATION_DRAIN_PACKET_BUDGET - packets)
        finishBarrier
        match sent with
        | none => deferProbe env
        | some reason => abort env reason

/-- `MigrationTxBarrier::begin` in `tick`. -/
def beginBarrier : Handler Unit := do
  let time ← now env
  let barrier ← .read (·.migration.barrier)
  match barrier.begin time with
  | none => .fail (.http3 "migration transmit barrier was re-entered")
  | some barrier =>
    .update fun actor =>
      { actor with
        migration := { actor.migration with barrier := barrier }
        trace := .begun :: actor.trace }

/-- `MigrationTxBarrier::complete_active_drain` in `tick`. -/
def completeActiveDrain (env : Environment) (packets : ℕ) : Handler Bool := do
  let time ← now env
  let barrier ← .read (·.migration.barrier)
  let (complete, barrier) := barrier.completeActiveDrain time packets true
  modifyMigration fun migration => { migration with barrier := barrier }
  pure complete

def probeCycle (phase : MigrationPhase) (cycleDeadline : ℕ) : Handler Unit := do
  match ← .read (·.paths.active) with
  | none => abort env .connectionClosed
  | some active =>
    match ← .read (·.paths.candidate) with
    | none => abort env .pathProbeRejected
    | some candidate =>
      beginBarrier env
      match ← .attempt (drainActiveOutput env active.binding MIGRATION_DRAIN_PACKET_BUDGET 0) with
      | .error error =>
        -- an abort of the task passes here too; nothing asks for its barrier any more
        finishBarrier
        .fail error
      | .ok .messageTooLarge =>
        finishBarrier
        handlePmtuSendTooLarge env false
        deferProbe env
      | .ok .deferred | .ok .timedOut =>
        finishBarrier
        deferProbe env
      | .ok (.drained packets) =>
        let complete ← completeActiveDrain env packets
        if complete = false then
          deferProbe env
        else
          probeOrPromote env phase candidate.binding cycleDeadline packets

def verifyActiveBinding : Handler Unit := do
  match ← .read (·.paths.active) with
  | none => .fail (.http3 "H3 has no active socket binding")
  | some active =>
    let activePaths ← ask env.activePaths
    .ensure ((active.localAddr, active.peerAddr) ∈ activePaths)
      (.http3 "QUIC active path diverged from its socket binding")

def tick : Handler Unit := do
  let time ← now env
  let deadline ← .read (·.migration.retiringDeadline)
  .when (deadline.any (time ≥ ·) = true) (clearRetiring env)
  let stopping ← ask env.stopping
  if stopping = true then
    abort env .connectionClosed
  else
    abortIfInvalid env time
    processPathEvents env MAX_PATH_EVENTS_PER_TURN
    verifyActiveBinding env
    match ← .read (·.migration.pending) with
    | none => pure ()
    | some attempt =>
      if attempt.phase = .preparingSocket ∨ time < attempt.nextProbeAt then
        pure ()
      else
        let later ← now env
        let suppressed ← .read (·.pmtu.sendSuppressedUntil later)
        .when (suppressed = none)
          (probeCycle env attempt.phase (min (time + MIGRATION_DRAIN_BUDGET) attempt.deadline))

/-! ## Runs -/

/-- `MigrationActor::drop`. -/
def dropMigration : Handler Unit := do
  match ← .read (·.migration.pending) with
  | none => pure ()
  | some attempt =>
    modifyMigration fun migration => { migration with pending := none }
    match attempt.reply with
    | some request => sendReply request (.failed .connectionClosed)
    | none => pure ()

def shutdownAll : Handler Unit :=
  .update fun actor =>
    { actor with
      paths := { actor.paths with active := none, candidate := none, retiring := none }
      trace := (actor.paths.iter.map .released).reverse ++ actor.trace }

def stop : Handler Unit := do
  dropMigration
  shutdownAll

/-- What happens to the task. `stop` is an end that has nothing to do with migration. -/
inductive Input where
  | command (targetGeneration deadline : ℕ)
  | prepared (answers : ℕ → PrepareAnswers)
  | receiveFailed (pathId : ℕ)
  | tick
  | inject
  | generate (capacity : ℕ)
  | send (quantum : ℕ)
  | stop

def handle : Input → Handler Unit
  | .command targetGeneration deadline => handleCommand env targetGeneration deadline
  | .prepared answers => handlePrepared env answers
  | .receiveFailed pathId => handleReceiveFailure env pathId
  | .tick => tick env
  | .inject => injectApplicationData
  | .generate capacity => generateWireDatagrams env capacity
  | .send quantum => handleWire env quantum
  | .stop => pure ()

inductive Outcome where
  | running
  | ended (error : Option H3Error)

structure Session where
  actor : H3Actor
  running : Bool

/-- The machine of the task: after an error or a stop it ends. -/
def next (session : Session) (input : Input) : Session × Outcome :=
  if session.running = false then (session, .ended none)
  else
    match handle env input session.actor with
    | (.ok (), actor) =>
      match input with
      | .stop => (⟨(stop actor).2, false⟩, .ended none)
      | _ => (⟨actor, true⟩, .running)
    | (.error error, actor) => (⟨(stop actor).2, false⟩, .ended (some error))

end

/-- The task when it starts, with its first path. -/
def start (active : PathSocket) (pmtu : PmtuController) : Except PathSocketSetError Session := do
  let paths ← PathSocketSet.withActive active
  return {
    actor := {
      migration := .new active.networkGeneration
      paths := paths
      wireDatagrams := []
      pmtu := pmtu
      requests := 0
      trace := [] }
    running := true }

end Usque.Transport.H3
