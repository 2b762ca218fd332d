/-
  The sockets of the paths of an H3 connection
  (`usque-transport/src/path_socket.rs`), and the barrier that keeps application data
  back while a candidate path is probed (`usque-transport/src/migration_barrier.rs`).

  A socket, its lease and its receive pool are known by a number. Whether the
  receiver of a path still runs is an answer of the platform.
-/
import Usque.IpAddr

namespace Usque.Transport

inductive PathSocketRole where
  | active
  | candidate
  | retiring
deriving DecidableEq

/-- `DirectEgressLease` (`socket.rs`). -/
structure DirectEgressLease where
  id : ℕ
  generation : Option ℕ
deriving DecidableEq

structure PathBinding where
  pathId : ℕ
  localAddr : SocketAddr
  peerAddr : SocketAddr
  networkGeneration : ℕ
deriving DecidableEq

inductive PathSocketSetError where
  | roleOccupied
  | capacity
  | duplicatePathId
  | sendSourceNotFound
  | sendPeerMismatch
  | receivePoolMismatch
  | retiringSendForbidden
  | promotionUnavailable

def PathSocketSetError.text : PathSocketSetError → String
  | .roleOccupied => "the path socket role is already occupied"
  | .capacity => "the path socket set is full"
  | .duplicatePathId => "the path socket identifier is already present"
  | .sendSourceNotFound => "no socket exactly matches the QUIC send source"
  | .sendPeerMismatch => "the QUIC send peer does not match its path socket"
  | .receivePoolMismatch => "path sockets must share one receive buffer budget"
  | .retiringSendForbidden => "a retiring path cannot send packets"
  | .promotionUnavailable => "the path socket set is not ready for atomic promotion"

/-- `PathSocket`; `socket` and `egressLease` are its `PathIoLease`. -/
structure PathSocket where
  pathId : ℕ
  localAddr : SocketAddr
  peerAddr : SocketAddr
  networkGeneration : ℕ
  role : PathSocketRole
  socket : ℕ
  egressLease : DirectEgressLease
  receivePool : ℕ
deriving DecidableEq

def PathSocket.binding (path : PathSocket) : PathBinding where
  pathId := path.pathId
  localAddr := path.localAddr
  peerAddr := path.peerAddr
  networkGeneration := path.networkGeneration

/-- `PathSocket::spawn`, when the local address of the socket is `socketAddr`, if it has
    one, and its batch I/O is set up or not. -/
def PathSocket.spawn (path : PathSocket) (socketAddr : Option SocketAddr) (io : Bool) :
    Option PathSocket :=
  if path.egressLease.generation ≠ some path.networkGeneration then none
  else if socketAddr ≠ some path.localAddr then none
  else if io = true then some path
  else none

/-! ## The set of sockets -/

def MAX_PATH_SOCKETS : ℕ := 3

structure PathSocketSet where
  active : Option PathSocket
  candidate : Option PathSocket
  retiring : Option PathSocket
  receivePool : ℕ

namespace PathSocketSet

def withActive (active : PathSocket) : Except PathSocketSetError PathSocketSet :=
  if active.role ≠ .active then .error .roleOccupied
  else .ok ⟨some active, none, none, active.receivePool⟩

section
variable (paths : PathSocketSet)

def iter : List PathSocket :=
  paths.active.toList ++ paths.candidate.toList ++ paths.retiring.toList

def contains (pathId : ℕ) : Bool :=
  paths.iter.any (·.pathId = pathId)

def slot : PathSocketRole → Option PathSocket
  | .active => paths.active
  | .candidate => paths.candidate
  | .retiring => paths.retiring

def fill (path : PathSocket) : PathSocketSet :=
  match path.role with
  | .active => { paths with active := some path }
  | .candidate => { paths with candidate := some path }
  | .retiring => { paths with retiring := some path }

def insert (path : PathSocket) : Except PathSocketSetError PathSocketSet :=
  if paths.iter.length ≥ MAX_PATH_SOCKETS then .error .capacity
  else if paths.contains path.pathId then .error .duplicatePathId
  else if paths.receivePool ≠ path.receivePool then .error .receivePoolMismatch
  else if (paths.slot path.role).isSome then .error .roleOccupied
  else .ok (paths.fill path)

/-- `io_for_send`: the socket that a packet is sent from. -/
def ioForSend (source destination : SocketAddr) : Except PathSocketSetError PathSocket :=
  match paths.iter.find? (·.localAddr = source) with
  | none => .error .sendSourceNotFound
  | some path =>
    if path.peerAddr ≠ destination then .error .sendPeerMismatch
    else if path.role = .retiring then .error .retiringSendForbidden
    else .ok path

/-- `promotion_ready`, when the receiver of the candidate is `running` or not. -/
def promotionReady (running : Bool) : Bool :=
  paths.active.isSome && paths.retiring.isNone &&
    paths.candidate.any fun path =>
      running && path.egressLease.generation == some path.networkGeneration

/-- `promote_candidate`: the set and the binding of its new active path. -/
def promoteCandidate (running : Bool) : Except PathSocketSetError (PathSocketSet × PathBinding) :=
  if paths.promotionReady running = false then .error .promotionUnavailable
  else
    match paths.candidate, paths.active with
    | some next, some previous =>
      .ok ({ paths with
        active := some { next with role := .active }
        candidate := none
        retiring := some { previous with role := .retiring } }, next.binding)
    -- excluded by the check above
    | _, _ => .error .promotionUnavailable

end

end PathSocketSet

/-! ## The barrier -/

/-- `MIGRATION_DRAIN_BUDGET`, in nanoseconds. -/
def MIGRATION_DRAIN_BUDGET : ℕ := 50 * 10 ^ 6

def MIGRATION_DRAIN_PACKET_BUDGET : ℕ := 64

structure MigrationTxBarrier where
  startedAt : Option ℕ
  activeOutputDrained : Bool
deriving DecidableEq

namespace MigrationTxBarrier

/-- `MigrationTxBarrier::default`, and what `finish` leaves. -/
def finished : MigrationTxBarrier := ⟨none, false⟩

section
variable (barrier : MigrationTxBarrier)

/-- `begin`: the barrier after it, if it was not set before. -/
def begin (now : ℕ) : Option MigrationTxBarrier :=
  if barrier.startedAt.isSome then none else some ⟨some now, false⟩

def allowsApplicationInjection : Bool := barrier.startedAt.isNone

/-- `complete_active_drain`: its answer and the barrier after it. -/
def completeActiveDrain (now packetsGenerated : ℕ) (quicheReportedDone : Bool) :
    Bool × MigrationTxBarrier :=
  match barrier.startedAt with
  | none => (false, barrier)
  | some startedAt =>
    if now - startedAt > MIGRATION_DRAIN_BUDGET ∨
        packetsGenerated > MIGRATION_DRAIN_PACKET_BUDGET ∨ quicheReportedDone = false then
      (false, finished)
    else
      (true, { barrier with activeOutputDrained := true })

def candidateSendAllowed : Bool :=
  barrier.startedAt.isSome && barrier.activeOutputDrained

end

end MigrationTxBarrier

end Usque.Transport
