/-
  The path MTU of the paths of an H3 connection (`usque-transport/src/pmtu.rs`).

  quiche searches for the largest packet that a path carries; `PmtuController`
  decides, path by path, which size is published, and when the search starts again.

  * Instants and durations are numbers of nanoseconds, on a clock that does not run
    out.
  * A method that panics gives no result.
-/
import Usque.IpAddr
import Usque.Lib.Run

namespace Usque.Transport

/-- `PmtuPhase` (`network_quality.rs`). -/
inductive PmtuPhase where
  | unsupported
  | unknown
  | probing
  | stable
  | revalidating
  | degraded
deriving DecidableEq

def INITIAL_SAFE_UDP_PAYLOAD : ℕ := 1350
def PMTUD_MAX_PROBES : ℕ := 3
def MIN_QUIC_UDP_PAYLOAD : ℕ := 1200
def IPV6_MINIMUM_INNER_MTU : ℕ := 1280
def MAX_TRACKED_PATHS : ℕ := 3
def REVALIDATION_WINDOW : ℕ := 10 * 10 ^ 9
def SEND_ERROR_SUPPRESSION : ℕ := 10 ^ 9
def LOSS_WINDOW_MINIMUM : ℕ := 2 * 10 ^ 9
def LOSS_SAMPLE_MAX_GAP : ℕ := 5 * 10 ^ 9
def LOSS_REVALIDATION_COOLDOWN : ℕ := 30 * 10 ^ 9
def MINIMUM_SUSPECT_LOSSES : ℕ := 3
def MAX_DISCOVERY_SEND_ERRORS : ℕ := PMTUD_MAX_PROBES * (Nat.log2 (1472 - 1200) + 2)

/-- `usize::MAX` and `u64::MAX`. -/
def USIZE_MAX : ℕ := 2 ^ 64 - 1

/-- `Duration::MAX`. -/
def DURATION_MAX : ℕ := USIZE_MAX * 10 ^ 9 + 999999999

structure PmtuPathKey where
  «local» : SocketAddr
  peer : SocketAddr
deriving DecidableEq

structure PmtuObservation where
  phase : PmtuPhase
  outerPayloadBytes : Option ℕ
  effectiveConnectIpPayloadBytes : Option ℕ
  numericChanged : Bool

inductive PmtuRevalidationAction where
  | continueDiscovery (observation : PmtuObservation)
  | revalidate (observation : PmtuObservation)
  | exhausted (observation : PmtuObservation)

structure PmtuLossSample where
  sent : ℕ
  lost : ℕ
  lostDatagrams : ℕ
  ptoCount : ℕ
  lossDetectionTimeoutCount : ℕ
  rtt : ℕ
deriving DecidableEq

structure LossWindow where
  started : ℕ
  lastObserved : ℕ
  baseline : PmtuLossSample

def LossWindow.new (now : ℕ) (baseline : PmtuLossSample) : LossWindow := ⟨now, now, baseline⟩

/-- Whether a window goes on with a sample: the clock and the counters do not go back. -/
def LossWindow.continues (window : LossWindow) (sample : PmtuLossSample) (now : ℕ) : Bool :=
  decide (window.lastObserved ≤ now ∧ now - window.lastObserved ≤ LOSS_SAMPLE_MAX_GAP) &&
    !(decide (sample.sent < window.baseline.sent) || decide (sample.lost < window.baseline.lost) ||
      decide (sample.lostDatagrams < window.baseline.lostDatagrams) ||
      decide (sample.ptoCount < window.baseline.ptoCount) ||
      decide (sample.lossDetectionTimeoutCount < window.baseline.lossDetectionTimeoutCount))

/-- Whether what was lost in a window is too little to suspect the path. -/
def LossWindow.harmless (window : LossWindow) (reliableStreams : Bool) (sample : PmtuLossSample) :
    Bool :=
  let sent := sample.sent - window.baseline.sent
  let lost := sample.lost - window.baseline.lost
  let datagramsLost := sample.lostDatagrams - window.baseline.lostDatagrams
  let pto := sample.ptoCount - window.baseline.ptoCount
  let lossDetectionTimeouts :=
    sample.lossDetectionTimeoutCount - window.baseline.lossDetectionTimeoutCount
  decide (lost < MINIMUM_SUSPECT_LOSSES) ||
    if reliableStreams then
      decide (lossDetectionTimeouts < 2)
    else
      datagramsLost == 0 || (decide (min (lost * 4) USIZE_MAX < sent) && decide (pto < 2))

/-! ## The state of a path -/

structure PathPmtuState where
  key : PmtuPathKey
  phase : PmtuPhase
  stableOuterPayload : Option ℕ
  publishedOuterPayload : Option ℕ
  effectiveConnectIpPayload : Option ℕ
  sendTooLargeCount : ℕ
  revalidationTriggers : List ℕ
  discoverySendErrors : ℕ
  sendSuppressedUntil : Option ℕ
  lossWindow : Option LossWindow
  lossRevalidationNotBefore : Option ℕ

namespace PathPmtuState

def new (key : PmtuPathKey) : PathPmtuState where
  key := key
  phase := .unknown
  stableOuterPayload := none
  publishedOuterPayload := none
  effectiveConnectIpPayload := none
  sendTooLargeCount := 0
  revalidationTriggers := []
  discoverySendErrors := 0
  sendSuppressedUntil := none
  lossWindow := none
  lossRevalidationNotBefore := none

def observation (state : PathPmtuState) (previousOuterPayload : Option ℕ) : PmtuObservation where
  phase := state.phase
  outerPayloadBytes := state.publishedOuterPayload
  effectiveConnectIpPayloadBytes := state.effectiveConnectIpPayload
  numericChanged :=
    previousOuterPayload.isSome && state.publishedOuterPayload.isSome &&
      previousOuterPayload != state.publishedOuterPayload

/-- The phase of a path whose size is known. -/
def measuredPhase (effectiveConnectIpPayload : Option ℕ) : PmtuPhase :=
  if effectiveConnectIpPayload.any (· < IPV6_MINIMUM_INNER_MTU) then .degraded else .stable

/-- The phase of a path that is searched; there is none where the source fails a debug
    assertion or is unreachable. -/
def searchedPhase : PmtuPhase → Option PmtuPhase
  | .stable | .degraded => some .revalidating
  | .revalidating => some .revalidating
  | .probing => some .probing
  | .unsupported | .unknown => none

/-- `observe_active_path` on the state of the path. -/
def observeActivePath (automatic : Bool) (completedOuterPayload : Option ℕ)
    (effectiveConnectIpPayload : Option ℕ) (state : PathPmtuState) :
    Option (PathPmtuState × PmtuObservation) :=
  let previous := state.stableOuterPayload
  if automatic = false then
    let state := { state with
      publishedOuterPayload := some INITIAL_SAFE_UDP_PAYLOAD
      effectiveConnectIpPayload := effectiveConnectIpPayload
      phase := measuredPhase effectiveConnectIpPayload }
    some (state, state.observation previous)
  else if state.phase = .unknown then
    let state := { state with
      phase := .probing
      publishedOuterPayload := none
      effectiveConnectIpPayload := none }
    some (state, state.observation previous)
  else
    match completedOuterPayload with
    | some completed =>
      let state := { state with
        stableOuterPayload := some completed
        publishedOuterPayload := some completed
        effectiveConnectIpPayload := effectiveConnectIpPayload
        phase := measuredPhase effectiveConnectIpPayload
        sendSuppressedUntil := none
        discoverySendErrors := 0 }
      some (state, state.observation previous)
    | none =>
      (searchedPhase state.phase).map fun phase =>
        let state := { state with
          publishedOuterPayload := none
          effectiveConnectIpPayload := none
          phase := phase }
        (state, state.observation previous)

/-- The change of `on_send_error` while the search goes on. -/
def failDiscovery (previous : Option ℕ) (state : PathPmtuState) :
    PathPmtuState × PmtuRevalidationAction :=
  let state := { state with discoverySendErrors := min (state.discoverySendErrors + 1) USIZE_MAX }
  if state.discoverySendErrors ≥ MAX_DISCOVERY_SEND_ERRORS then
    let state := { state with phase := .degraded }
    (state, .exhausted (state.observation previous))
  else
    let state :=
      if state.stableOuterPayload.isSome = true ∨ state.phase = .revalidating then
        { state with phase := .revalidating }
      else
        { state with phase := .probing }
    (state, .continueDiscovery (state.observation previous))

/-- The change of `on_send_error` once the search is over. -/
def failCompleted (previous : Option ℕ) (now : ℕ) (state : PathPmtuState) :
    PathPmtuState × PmtuRevalidationAction :=
  let recent := state.revalidationTriggers.dropWhile fun trigger =>
    decide (now - trigger ≥ REVALIDATION_WINDOW)
  let state := { state with
    discoverySendErrors := 0
    revalidationTriggers := recent ++ [now] }
  if state.revalidationTriggers.length ≥ PMTUD_MAX_PROBES then
    let state := { state with phase := .degraded, sendSuppressedUntil := none }
    (state, .exhausted (state.observation previous))
  else
    let state := { state with phase := .revalidating }
    (state, .revalidate (state.observation previous))

/-- `on_send_error` on the state of the path. -/
def onSendError (automatic : Bool) (completedOuterPayload : Option ℕ) (now : ℕ)
    (probeOnly : Bool) (state : PathPmtuState) : PathPmtuState × PmtuRevalidationAction :=
  let previous := state.stableOuterPayload
  let state := { state with
    lossWindow := none
    lossRevalidationNotBefore := some (now + LOSS_REVALIDATION_COOLDOWN)
    sendTooLargeCount := min (state.sendTooLargeCount + 1) USIZE_MAX }
  if automatic = false then
    let state := { state with
      phase := .degraded
      publishedOuterPayload := some INITIAL_SAFE_UDP_PAYLOAD
      effectiveConnectIpPayload := none }
    (state, .exhausted (state.observation previous))
  else
    let state := { state with
      publishedOuterPayload := none
      effectiveConnectIpPayload := none
      sendSuppressedUntil :=
        if probeOnly then state.sendSuppressedUntil else some (now + SEND_ERROR_SUPPRESSION) }
    match completedOuterPayload with
    | none => state.failDiscovery previous
    | some _ => state.failCompleted previous now

/-- `on_loss_sample` on the state of the path. -/
def onLossSample (automatic reliableStreams : Bool) (completedOuterPayload : Option ℕ)
    (sample : PmtuLossSample) (now : ℕ) (state : PathPmtuState) :
    PathPmtuState × Option PmtuObservation :=
  if automatic = false ∨ completedOuterPayload.all (· ≤ MIN_QUIC_UDP_PAYLOAD) = true then
    ({ state with lossWindow := none }, none)
  else if state.lossRevalidationNotBefore.any (now < ·) = true then
    ({ state with lossWindow := none }, none)
  else
    match state.lossWindow with
    | none => ({ state with lossWindow := some (.new now sample) }, none)
    | some window =>
      if window.continues sample now = false then
        ({ state with lossWindow := some (.new now sample) }, none)
      else if now - window.started <
          max LOSS_WINDOW_MINIMUM (min (sample.rtt * 3) DURATION_MAX) then
        ({ state with lossWindow := some { window with lastObserved := now } }, none)
      else if window.harmless reliableStreams sample = true then
        ({ state with lossWindow := some (.new now sample) }, none)
      else
        let state := { state with
          lossWindow := none
          lossRevalidationNotBefore := some (now + LOSS_REVALIDATION_COOLDOWN)
          phase := .revalidating
          publishedOuterPayload := none
          effectiveConnectIpPayload := none }
        (state, some (state.observation state.stableOuterPayload))

/-- `on_path_promoted` on the state of the path. -/
def onPathPromoted (automatic : Bool) (state : PathPmtuState) :
    PathPmtuState × PmtuRevalidationAction :=
  let previous := state.publishedOuterPayload
  let state := { state with
    phase := if automatic then .revalidating else .stable
    stableOuterPayload := none
    publishedOuterPayload := if automatic then none else some INITIAL_SAFE_UDP_PAYLOAD
    effectiveConnectIpPayload := none
    sendSuppressedUntil := none
    discoverySendErrors := 0
    revalidationTriggers := []
    lossWindow := none
    lossRevalidationNotBefore := none }
  (state, .revalidate (state.observation previous))

end PathPmtuState

/-! ## The controller -/

structure PmtuController where
  paths : List PathPmtuState
  active : Option PmtuPathKey
  automatic : Bool
  reliableStreams : Bool

namespace PmtuController

def withAutomatic (initialPath : PmtuPathKey) (automatic : Bool) : PmtuController where
  paths := [.new initialPath]
  active := some initialPath
  automatic := automatic
  reliableStreams := false

def activatePath (controller : PmtuController) (key : PmtuPathKey) : PmtuController :=
  if controller.paths.any (·.key = key) then
    { controller with active := some key }
  else
    let paths :=
      if controller.paths.length = MAX_TRACKED_PATHS then
        let removable := controller.paths.findIdx? fun path => some path.key ≠ controller.active
        controller.paths.eraseIdx (removable.getD 0)
      else
        controller.paths
    { controller with paths := paths ++ [.new key], active := some key }

/-- A change of the state that `active_state_mut` finds. -/
def modifyActive {α : Type} (controller : PmtuController)
    (change : PathPmtuState → Option (PathPmtuState × α)) : Option (PmtuController × α) := do
  let active ← controller.active
  let i ← controller.paths.findIdx? (·.key = active)
  let state ← controller.paths[i]?
  let (state, answer) ← change state
  return ({ controller with paths := controller.paths.set i state }, answer)

def setReliableStreamMode (controller : PmtuController) : PmtuController :=
  { controller with reliableStreams := true }

def observeActivePath (controller : PmtuController) (key : PmtuPathKey)
    (completedOuterPayload : Option ℕ) (_estimatedOuterPayload : ℕ)
    (effectiveConnectIpPayload : Option ℕ) : Option (PmtuController × PmtuObservation) :=
  (controller.activatePath key).modifyActive
    (·.observeActivePath controller.automatic completedOuterPayload effectiveConnectIpPayload)

def onSendError (controller : PmtuController) (key : PmtuPathKey)
    (completedOuterPayload : Option ℕ) (now : ℕ) (probeOnly : Bool) :
    Option (PmtuController × PmtuRevalidationAction) :=
  (controller.activatePath key).modifyActive
    fun state => state.onSendError controller.automatic completedOuterPayload now probeOnly

def onSendTooLarge (controller : PmtuController) (key : PmtuPathKey)
    (completedOuterPayload : Option ℕ) (now : ℕ) :
    Option (PmtuController × PmtuRevalidationAction) :=
  controller.onSendError key completedOuterPayload now false

def onProbeSendTooLarge (controller : PmtuController) (key : PmtuPathKey) (now : ℕ) :
    Option (PmtuController × PmtuRevalidationAction) :=
  controller.onSendError key none now true

def onLossSample (controller : PmtuController) (key : PmtuPathKey)
    (completedOuterPayload : Option ℕ) (sample : PmtuLossSample) (now : ℕ) :
    Option (PmtuController × Option PmtuObservation) :=
  (controller.activatePath key).modifyActive fun state =>
    state.onLossSample controller.automatic controller.reliableStreams completedOuterPayload
      sample now

def onPathPromoted (controller : PmtuController) (key : PmtuPathKey) :
    Option (PmtuController × PmtuRevalidationAction) :=
  (controller.activatePath key).modifyActive (·.onPathPromoted controller.automatic)

def sendSuppressedUntil (controller : PmtuController) (now : ℕ) : Option ℕ := do
  let active ← controller.active
  let state ← controller.paths.find? (·.key = active)
  state.sendSuppressedUntil.filter (· > now)

/-! ## Runs of the controller -/

inductive Call where
  | observeActivePath (key : PmtuPathKey) (completedOuterPayload : Option ℕ)
      (estimatedOuterPayload : ℕ) (effectiveConnectIpPayload : Option ℕ)
  | onSendTooLarge (key : PmtuPathKey) (completedOuterPayload : Option ℕ) (now : ℕ)
  | onProbeSendTooLarge (key : PmtuPathKey) (now : ℕ)
  | onLossSample (key : PmtuPathKey) (completedOuterPayload : Option ℕ)
      (sample : PmtuLossSample) (now : ℕ)
  | onPathPromoted (key : PmtuPathKey)
  | setReliableStreamMode
deriving DecidableEq

def Call.key : Call → Option PmtuPathKey
  | .observeActivePath key .. | .onSendTooLarge key .. | .onProbeSendTooLarge key ..
  | .onLossSample key .. | .onPathPromoted key => some key
  | .setReliableStreamMode => none

inductive Answer where
  | observation (observation : PmtuObservation)
  | action (action : PmtuRevalidationAction)
  | loss (observation : Option PmtuObservation)
  | done

def Answer.observed : Answer → Option PmtuObservation
  | .observation seen => some seen
  | .action (.continueDiscovery seen) => some seen
  | .action (.revalidate seen) => some seen
  | .action (.exhausted seen) => some seen
  | .loss seen => seen
  | .done => none

/-- One call; there is no result if it panics. -/
def apply (controller : PmtuController) : Call → Option (PmtuController × Answer)
  | .observeActivePath key completed estimated effective =>
    (controller.observeActivePath key completed estimated effective).map (.map id .observation)
  | .onSendTooLarge key completed now =>
    (controller.onSendTooLarge key completed now).map (.map id .action)
  | .onProbeSendTooLarge key now => (controller.onProbeSendTooLarge key now).map (.map id .action)
  | .onLossSample key completed sample now =>
    (controller.onLossSample key completed sample now).map (.map id .loss)
  | .onPathPromoted key => (controller.onPathPromoted key).map (.map id .action)
  | .setReliableStreamMode => some (controller.setReliableStreamMode, .done)

/-- The machine of the calls. A panic is the answer `none`. -/
def next (controller : PmtuController) (call : Call) : PmtuController × Option Answer :=
  match controller.apply call with
  | some (controller, answer) => (controller, some answer)
  | none => (controller, none)

end PmtuController

end Usque.Transport
