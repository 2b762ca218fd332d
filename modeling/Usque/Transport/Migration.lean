/-
  The migration of an H3 connection to another path
  (`usque-transport/src/h3/migration.rs`, with the packet output of `h3.rs`).

  * An `Environment` answers what the actor asks of the clock, the network, quiche and
    the sockets; its answers are arbitrary functions of the time, the number of entries
    in the trace. quiche sends a packet on the path that it was asked for
    (`send_on_path` of the vendored quiche), so an `Output` names no addresses.
  * `H3Actor` is the state of the connection's task, which runs one handler at a time.
    Its `trace` lists what happened, the last entry first; no handler reads it.
  * The task can be aborted wherever a handler waits (`awaits`).
  * Telemetry is left out, and so are the bytes of the packets.
-/
import Usque.Lib.Prog
import Usque.Transport.PathSocket
import Usque.Transport.Pmtu

namespace Usque.Transport.H3
open Lib

/-! ## What happens -/

/-- `MigrationReasonCode` (`network_quality.rs`). -/
inductive MigrationReasonCode where
  | familyUnavailable
  | socketProtectFailed
  | generationChangedDuringSetup
  | peerCidUnavailable
  | localCidUnavailable
  | pathProbeRejected
  | pathValidationTimeout
  | superseded
  | promotionFailed
  | connectionClosed
  | unsupported
deriving DecidableEq

inductive H3MigrationResult where
  | promoted (networkGeneration : ℕ)
  | staleRequest
  | failed (reason : MigrationReasonCode)
deriving DecidableEq

inductive PathEvent where
  | new (localAddr peerAddr : SocketAddr)
  | validated (localAddr peerAddr : SocketAddr)
  | failedValidation (localAddr peerAddr : SocketAddr)
  | closed (localAddr peerAddr : SocketAddr)
  | reusedSourceConnectionId
  | peerMigrated (localAddr peerAddr : SocketAddr)
deriving DecidableEq

/-- `quiche::Error`, as far as it is told apart. -/
inductive QuicheError where
  | done
  | outOfIdentifiers
  | idLimit
  | other
deriving DecidableEq

/-- A packet of quiche: its length and the time to send it. -/
structure Output where
  length : ℕ
  «at» : ℕ
deriving DecidableEq

/-- What a UDP socket does with a batch; `cancelled` if the call is given up first. -/
inductive SendResult where
  | sent (count : ℕ)
  | tooLarge
  | failed
  | cancelled

/-- `CidAvailability` (`h3.rs`). -/
inductive CidAvailability where
  | ready
  | peerUnavailable
  | localUnavailable

/-- The places at which a handler waits. -/
inductive Await where
  | clearCandidate
  | clearRetiring
  | sendBatch
  | sleep
deriving DecidableEq

/-- What ends the task in a handler: an error (`TransportError`), a panic, or the owner of the
    task, who can abort it only where it waits. -/
inductive H3Error where
  | http3 (message : String)
  | pmtuRevalidationExhausted
  | io
  | panicked
  | aborted (place : Await)
deriving DecidableEq

inductive Entry where
  /-- Something was asked whose answer is not recorded. -/
  | observed
  /-- `network_generation` was asked. -/
  | generation (current : Option ℕ)
  /-- A path event was taken from quiche. -/
  | pathEvent (event : PathEvent)
  /-- quiche was asked for a packet of the path; it had one, or was done, or failed. -/
  | output (source destination : SocketAddr) (result : Except QuicheError Output)
  /-- Application data was handed to quiche. -/
  | injected
  /-- The barrier was set. -/
  | begun
  /-- Packets were given to a socket, with what was active, the barrier, and the number of
      packets queued at that time. -/
  | sent (path : PathSocket) (active : Option PathSocket) (barrier : MigrationTxBarrier)
      (queued : ℕ)
  | accepted (request targetGeneration : ℕ)
  /-- A request was answered. -/
  | replied (request : ℕ) (result : H3MigrationResult)
  /-- A candidate was added to the paths. -/
  | inserted (path : PathSocket)
  /-- `promote` was called. -/
  | promoting (candidate : PathBinding)
  /-- The candidate `next` took the place of `previous`. -/
  | promoted (previous next : PathSocket)
  /-- A path was shut down. -/
  | released (path : PathSocket)
deriving DecidableEq

/-- The answers to what the actor asks, each at its time. -/
structure Environment where
  quicMigration : Bool
  automaticPmtu : Bool
  now : ℕ → ℕ
  networkGeneration : ℕ → Option ℕ
  replyClosed : ℕ → Bool
  endpointFamilyAvailable : ℕ → Option Bool
  established : ℕ → Bool
  stopping : ℕ → Bool
  maintainConnectionIds : ℕ → Option CidAvailability
  pathEventNext : ℕ → Option PathEvent
  pathValidated : ℕ → Bool
  activePaths : ℕ → List (SocketAddr × SocketAddr)
  migrateSource : ℕ → Bool
  probePath : ℕ → Option QuicheError
  availableDcids : ℕ → ℕ
  sendOnPath : ℕ → Except QuicheError Output
  sendBatch : ℕ → SendResult
  sendQuantum : ℕ → ℕ
  expires : ℕ → Bool
  receiverRunning : ℕ → Bool
  socketAddr : ℕ → Option SocketAddr
  batchIo : ℕ → Bool
  completedPmtu : ℕ → Option ℕ
  probeSendError : ℕ → Bool
  aborted : Await → ℕ → Bool

/-! ## The state -/

/-- `MigrationPhase` (`network_quality.rs`), as far as an attempt takes it. -/
inductive MigrationPhase where
  | preparingSocket
  | probing
  | validated
deriving DecidableEq

/-- The future of `PendingMigration::preparation`: what it was started with. -/
structure Preparation where
  endpoint : SocketAddr
  targetGeneration : ℕ

/-- `PendingMigration`; a reply channel is known by the number of its request. -/
structure PendingMigration where
  targetGeneration : ℕ
  deadline : ℕ
  reply : Option ℕ
  preparation : Option Preparation
  phase : MigrationPhase
  nextProbeAt : ℕ

structure MigrationActor where
  pending : Option PendingMigration
  highestGeneration : ℕ
  nextPathId : ℕ
  retiringDeadline : Option ℕ
  barrier : MigrationTxBarrier

def MigrationActor.new (initialGeneration : ℕ) : MigrationActor where
  pending := none
  highestGeneration := initialGeneration
  nextPathId := 1
  retiringDeadline := none
  barrier := .finished

/-- `WireDatagram`: a packet that waits to be sent. -/
structure WireDatagram where
  length : ℕ
  source : SocketAddr
  destination : SocketAddr
  «at» : ℕ

/-- The task of an H3 connection. -/
structure H3Actor where
  migration : MigrationActor
  paths : PathSocketSet
  wireDatagrams : List WireDatagram
  pmtu : PmtuController
  requests : ℕ
  trace : List Entry

/-- A handler; an error ends the task. -/
abbrev Handler := Prog H3Actor H3Error

def SOCKET_PREPARE_ATTEMPTS : ℕ := 2
def MAX_PENDING_WIRE_DATAGRAMS : ℕ := 64
def UDP_ACTOR_DRAIN_LIMIT : ℕ := 64
def MAX_PATH_EVENTS_PER_TURN : ℕ := 64
def MIN_CLIENT_INITIAL_LEN : ℕ := 1200
def MIGRATION_TIMEOUT : ℕ := 3 * 10 ^ 9
def MIGRATION_PROBE_INTERVAL : ℕ := 100 * 10 ^ 6
def MIGRATION_STATE_POLL_INTERVAL : ℕ := 20 * 10 ^ 6
def RETIRING_GRACE : ℕ := 2 * 10 ^ 9

/-! ## Questions and effects -/

def H3Actor.log (actor : H3Actor) (entry : Entry) : H3Actor :=
  { actor with trace := entry :: actor.trace }

/-- A question, with the entry of its answer. -/
def askWith {α : Type} (answer : ℕ → α) (entry : H3Actor → α → Entry) : Handler α := fun actor =>
  let a := answer actor.trace.length
  (.ok a, actor.log (entry actor a))

def ask {α : Type} (answer : ℕ → α) : Handler α := askWith answer fun _ _ => .observed

/-- The end of a wait, unless the task is aborted during it. -/
def awaits (env : Environment) (place : Await) : Handler Unit := do
  let time ← .read (·.trace.length)
  .ensure (env.aborted place time = false) (.aborted place)

def now (env : Environment) : Handler ℕ := ask env.now

def networkGeneration (env : Environment) : Handler (Option ℕ) :=
  askWith env.networkGeneration fun _ => .generation

def sendOnPath (env : Environment) (source destination : SocketAddr) :
    Handler (Except QuicheError WireDatagram) := do
  let result ← askWith env.sendOnPath fun _ => .output source destination
  return result.map fun output => ⟨output.length, source, destination, output.at⟩

/-- `UdpBatchIo::send_batch` on the socket of a path. -/
def sendBatch (env : Environment) (path : PathSocket) : Handler SendResult := do
  let result ← askWith env.sendBatch fun actor _ =>
    .sent path actor.paths.active actor.migration.barrier actor.wireDatagrams.length
  awaits env .sendBatch
  pure result

def modifyMigration (change : MigrationActor → MigrationActor) : Handler Unit :=
  .update fun actor => { actor with migration := change actor.migration }

def modifyPending (change : PendingMigration → PendingMigration) : Handler Unit :=
  modifyMigration fun migration => { migration with pending := migration.pending.map change }

/-- `MigrationTxBarrier::finish`. -/
def finishBarrier : Handler Unit :=
  modifyMigration fun migration => { migration with barrier := .finished }

/-- `oneshot::Sender::send`. -/
def sendReply (request : ℕ) (result : H3MigrationResult) : Handler Unit :=
  .update fun actor => actor.log (.replied request result)

def clearCandidate (env : Environment) : Handler Unit := do
  match ← .read (·.paths.candidate) with
  | some path =>
    .update fun actor =>
      { actor with
        paths := { actor.paths with candidate := none }
        trace := .released path :: actor.trace }
    awaits env .clearCandidate
  | none => pure ()

/-- `clear_retiring`, and the deadline that goes with it. -/
def clearRetiring (env : Environment) : Handler Unit := do
  match ← .read (·.paths.retiring) with
  | some path =>
    .update fun actor =>
      { actor with
        paths := { actor.paths with retiring := none }
        trace := .released path :: actor.trace }
    awaits env .clearRetiring
  | none => pure ()
  modifyMigration fun migration => { migration with retiringDeadline := none }

end Usque.Transport.H3
