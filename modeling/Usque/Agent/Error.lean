/-
  The errors of the coordinator (`usque-agent/src/coordinator.rs` and
  `recovery_diagnostics.rs`) and the report of a failed recovery.
-/
import Usque.Agent.Journal

namespace Usque.Agent

/-! ## Debug texts -/

/-- `Debug for Option<T>`. -/
def debugOption {α : Type} (debug : α → String) : Option α → String
  | none => "None"
  | some a => "Some(" ++ debug a ++ ")"

def debugBool (b : Bool) : String := if b then "true" else "false"

/-- `Debug for RecoveryPhase`. -/
def RecoveryPhase.debug : RecoveryPhase → String
  | .clean => "Clean"
  | .preparing => "Preparing"
  | .prepared => "Prepared"
  | .active => "Active"
  | .paused => "Paused"
  | .recovering => "Recovering"
  | .recoveryRequired => "RecoveryRequired"

/-- `Debug for OperationKind`. -/
def OperationKind.debug : OperationKind → String
  | .tunnel => "Tunnel"
  | .systemProxy => "SystemProxy"

/-! ## Errors of the backend -/

inductive RemovalStage where
  | observe
  | request
  | confirm

inductive RemovalFailure where
  | pending
  | identity
  | native
deriving DecidableEq

inductive RecoveryApi where
  | getIfTable2
  | setupDiGetClassDevsW
  | setupDiEnumDeviceInfo
  | setupDiGetDeviceInstanceIdW
  | setupDiSetClassInstallParamsW
  | setupDiCallClassInstaller
  | other

structure AdapterRemovalDiagnostic where
  stage : RemovalStage
  failure : RemovalFailure
  interfacePresent : Option Bool
  devicePresent : Option Bool
  requestAccepted : Bool
  elapsedMs : Nat
  api : Option RecoveryApi
  win32Code : Option Nat

def RemovalStage.debug : RemovalStage → String
  | .observe => "Observe"
  | .request => "Request"
  | .confirm => "Confirm"

def RemovalFailure.debug : RemovalFailure → String
  | .pending => "Pending"
  | .identity => "Identity"
  | .native => "Native"

def RecoveryApi.debug : RecoveryApi → String
  | .getIfTable2 => "GetIfTable2"
  | .setupDiGetClassDevsW => "SetupDiGetClassDevsW"
  | .setupDiEnumDeviceInfo => "SetupDiEnumDeviceInfo"
  | .setupDiGetDeviceInstanceIdW => "SetupDiGetDeviceInstanceIdW"
  | .setupDiSetClassInstallParamsW => "SetupDiSetClassInstallParamsW"
  | .setupDiCallClassInstaller => "SetupDiCallClassInstaller"
  | .other => "Other"

/-- `Display for AdapterRemovalDiagnostic`. -/
def AdapterRemovalDiagnostic.message (diagnostic : AdapterRemovalDiagnostic) : String :=
  "adapter_cleanup stage=" ++ diagnostic.stage.debug ++ " failure=" ++ diagnostic.failure.debug ++
    " interface=" ++ debugOption debugBool diagnostic.interfacePresent ++
    " device=" ++ debugOption debugBool diagnostic.devicePresent ++
    " request_accepted=" ++ debugBool diagnostic.requestAccepted ++
    " elapsed_ms=" ++ toString diagnostic.elapsedMs ++
    " api=" ++ debugOption RecoveryApi.debug diagnostic.api ++
    " win32=" ++ debugOption toString diagnostic.win32Code

inductive BackendError where
  | adapterRemoval (diagnostic : AdapterRemovalDiagnostic)
  | windows (api : String) (code : Nat)
  | adapterIdentity
  | adapterRemovalPending
  | operation (text : String)
  | partialApply (text : String) (receipt : MutationReceipt)
  | unavailable (capability : String)
  | endpointUnreachable
  | controlApiUnreachable

/-- `Display for BackendError`. -/
def BackendError.message : BackendError → String
  | .adapterRemoval diagnostic => diagnostic.message
  | .windows api code =>
    "privileged Windows operation " ++ api ++ " failed (Win32 " ++ toString code ++ ")"
  | .adapterIdentity => "the journaled adapter identity could not be verified"
  | .adapterRemovalPending => "the journaled adapter removal could not be confirmed"
  | .operation text => "privileged backend operation failed: " ++ text
  | .partialApply text _ => "privileged backend operation failed: " ++ text
  | .unavailable capability => "privileged backend capability is unavailable: " ++ capability
  | .endpointUnreachable => "no physical route to a configured WARP endpoint is available"
  | .controlApiUnreachable =>
    "no physical route to an authenticated WARP control endpoint is available"

/-! ## Reports of a failed recovery -/

inductive RecoveryFailure where
  | restore (kind : MutationKind) (error : BackendError)
  | persist (kind : Option MutationKind) (error : JournalError)

inductive RecoveryDisposition where
  | retryable
  | blocked

structure RecoveryReport where
  summary : String
  disposition : RecoveryDisposition

def transientWindowsError (code : Int) : Bool :=
  [21, 32, 33, 142, 170, 1237, 1460, 2404].contains code

/-- `backend_error_is_retryable`. -/
def BackendError.isRetryable : BackendError → Bool
  | .adapterRemovalPending => true
  | .adapterRemoval diagnostic =>
    diagnostic.failure == .pending ||
      diagnostic.win32Code.any fun code => transientWindowsError code
  | .windows _ code => transientWindowsError code
  | _ => false

/-- `journal_error_is_retryable`. -/
def JournalError.isRetryable : JournalError → Bool
  | .io error =>
    error.kind != .other || error.rawOsError.any transientWindowsError
  | _ => false

/-- `recovery_failure_is_retryable`. -/
def RecoveryFailure.isRetryable : RecoveryFailure → Bool
  | .restore _ error => error.isRetryable
  | .persist _ error => error.isRetryable

/-- The line of a failure in the summary: only names and numbers. -/
def RecoveryFailure.summary : RecoveryFailure → String
  | .restore kind (.windows api code) =>
    "restore " ++ kind.debug ++ ": " ++ api ++ " (Win32 " ++ toString code ++ ")"
  | .restore kind .adapterIdentity =>
    "restore " ++ kind.debug ++ ": adapter identity verification failed"
  | .restore kind .adapterRemovalPending =>
    "restore " ++ kind.debug ++ ": adapter removal was not confirmed"
  | .restore kind (.adapterRemoval diagnostic) =>
    "restore " ++ kind.debug ++ ": " ++ diagnostic.message
  | .restore kind _ => "restore " ++ kind.debug ++ ": backend failure"
  | .persist kind (.io error) =>
    "persist " ++ debugOption MutationKind.debug kind ++ ": I/O failure (" ++
      debugOption toString error.rawOsError ++ ")"
  | .persist kind _ => "persist " ++ debugOption MutationKind.debug kind ++ ": journal failure"

inductive CoordinatorError where
  | replacementPending
  | replacementGuardUnavailable
  | deviceLeaseRequired
  | deviceRecoveryRequired
  | journal (error : JournalError)
  | backend (error : BackendError)
  | invalidPlan (text : String)
  | invalidCaller
  | recoveryRequired (phase : RecoveryPhase)
  | recoveryConflict
  | recoveryBusy
  | operationMismatch
  | operationKind (expected : OperationKind) (actual : Option OperationKind)
  | ownerMismatch
  | invalidPhase (expected : String) (actual : RecoveryPhase)
  | invalidRingCapacity (capacity : Nat)
  | duplicatePacketSession
  | packetSessionAlreadyAttached
  | packetSessionNotAttached
  | tunnelLeaseAlreadyAttached
  | packetSessionRequired
  | missingPacketHandles
  | missingPlan
  | missingAppliedStep (kind : MutationKind)
  | profileMismatch (expected actual : Uuid)
  | duplicateStep (kind : MutationKind)
  | backendReceiptMismatch (expected actual : MutationKind)
  | applyAndRecovery (apply recovery : String)
  | recoveryFailures (report : RecoveryReport)

/-- `Display for CoordinatorError`. -/
def CoordinatorError.message : CoordinatorError → String
  | .replacementPending =>
    "a protected replacement is pending; retry replacement or explicitly abort it"
  | .replacementGuardUnavailable =>
    "the replacement guard could not be confirmed; protection is retained"
  | .deviceLeaseRequired =>
    "a valid exclusive device lease is required; use matching Engine and Agent versions"
  | .deviceRecoveryRequired => "the managed TUN device requires recovery before reuse"
  | .journal error => "recovery journal failed: " ++ error.message
  | .backend error => error.message
  | .invalidPlan text => "tunnel plan is invalid: " ++ text
  | .invalidCaller => "authenticated caller metadata is invalid"
  | .recoveryRequired phase =>
    "agent is not clean; recovery is required from phase " ++ phase.debug
  | .recoveryConflict =>
    "the recovery operation or journal generation changed; inspect state again"
  | .recoveryBusy => "the transaction is active or is not eligible for orphaned recovery"
  | .operationMismatch => "agent operation ID does not match the active transaction"
  | .operationKind expected actual =>
    "agent operation kind mismatch: expected " ++ expected.debug ++ ", got " ++
      debugOption OperationKind.debug actual
  | .ownerMismatch => "only the authenticated owner process may mutate this transaction"
  | .invalidPhase expected actual =>
    "agent operation requires phase " ++ expected ++ ", current phase is " ++ actual.debug
  | .invalidRingCapacity capacity =>
    "packet ring capacity must be a power of two between 128 KiB and 64 MiB: " ++ toString capacity
  | .duplicatePacketSession => "a packet session is already open"
  | .packetSessionAlreadyAttached => "the active packet session is already attached to an Engine"
  | .packetSessionNotAttached => "the active packet session is not attached to an Engine"
  | .tunnelLeaseAlreadyAttached => "the active tunnel already has an Engine liveness lease"
  | .packetSessionRequired => "a packet session must be open before default routes are committed"
  | .missingPacketHandles => "privileged backend returned no duplicated packet handles"
  | .missingPlan => "journal is missing its validated tunnel plan"
  | .missingAppliedStep kind => "journal is missing applied mutation step " ++ kind.debug
  | .profileMismatch expected actual =>
    "active tunnel belongs to Profile " ++ expected.hyphenated ++ ", not requested Profile " ++
      actual.hyphenated
  | .duplicateStep kind => "journal already contains mutation step " ++ kind.debug
  | .backendReceiptMismatch expected actual =>
    "backend receipt kind mismatch: expected " ++ expected.debug ++ ", got " ++ actual.debug
  | .applyAndRecovery apply recovery =>
    "apply failed (" ++ apply ++ ") and recovery also failed (" ++ recovery ++ ")"
  | .recoveryFailures report => "platform recovery is incomplete: " ++ report.summary

def recoveryError (failures : List RecoveryFailure) : CoordinatorError :=
  .recoveryFailures
    { summary := String.intercalate "; " (failures.map RecoveryFailure.summary)
      disposition := if failures.all RecoveryFailure.isRetryable then .retryable else .blocked }

end Usque.Agent
