/-
  The recovery journal of the agent (`usque-agent/src/journal.rs` and
  `journal/replacement.rs`): its records, its validation and its file.

  * `RecoveryJournal.validate` checks a journal before every save and after every
    load; `validate_eq_ok` says what a valid journal is, check by check.
-/
import Usque.Agent.Plan
import Usque.Lib.Prog

namespace Usque.Agent
open List IpNet

def JOURNAL_SCHEMA_VERSION : Nat := 6
def MAX_JOURNAL_BYTES : Nat := 1024 * 1024
def MAX_JOURNAL_STEPS : Nat := 16
def WFP_PROVIDER_KEY : Uuid := 0x6d70fda53fa24c36a86c88650b58f013
def WFP_SUBLAYER_KEY : Uuid := 0xc93b70427b1e4ab596ba96b4539b67ec
def REPLACEMENT_WFP_PROVIDER_KEY : Uuid := 0x1c6919724a9143e6a728c43863064c10
def REPLACEMENT_WFP_SUBLAYER_KEY : Uuid := 0xb4185a70076b4c44b5dc523ff03970d1
def REPLACEMENT_FILTER_KEY_BASE : Nat := 0x2a27df7890864a9fbf02000000000000
def REPLACEMENT_MAX_FILTERS : Nat := 512

/-- `u64::MAX`. -/
def U64_MAX : Nat := 2 ^ 64 - 1

/-! ## Records -/

inductive RecoveryPhase where
  | clean
  | preparing
  | prepared
  | active
  | paused
  | recovering
  | recoveryRequired
deriving DecidableEq

inductive OperationKind where
  | tunnel
  | systemProxy
deriving DecidableEq

inductive MutationKind where
  | wintunAdapter
  | endpointBypass
  | killSwitch
  | interfaceConfiguration
  | dns
  | packetSession
  | defaultRoutes
  | systemProxy
  | wfpMetadata
deriving DecidableEq

inductive MutationState where
  | intended
  | applied
  | restored
deriving DecidableEq

/-- A text in a place where the source parses or prints an `IpNet`: the text that
    is printed for a network, another text that parses to it, or a text that does
    not parse. -/
inductive CidrText where
  | printed (net : IpNet)
  | other (net : IpNet) (text : String)
  | invalid (text : String)
deriving DecidableEq

/-- `str::parse::<IpNet>`. -/
def CidrText.parse : CidrText → Option IpNet
  | .printed net => some net
  | .other net _ => some net
  | .invalid _ => none

structure RouteReceipt where
  destination : CidrText
  nextHop : Option IpAddr
  nextHopScopeId : Nat
  interfaceLuid : Nat
  metric : Nat
  owned : Bool
deriving DecidableEq

structure AddressReceipt where
  address : CidrText
  owned : Bool
deriving DecidableEq

inductive MutationReceipt where
  | wintunAdapter (adapterName : String) (adapterGuid : Uuid) (interfaceLuid : Nat)
  | endpointBypass (created : List RouteReceipt)
  | killSwitch (providerKey sublayerKey : Uuid) (filterKeys : List Uuid) (filterIds : List Nat)
  | interfaceConfiguration (interfaceLuid : Nat) (previousIpv4Mtu previousIpv6Mtu : Option Nat)
    (createdAddresses : List AddressReceipt)
  | dns (interfaceGuid : Uuid) (previousAutomatic : Bool) (previousServers : List IpAddr)
  | packetSession (sessionId : Uuid) (ringCapacity : Nat)
  | defaultRoutes (created replaced : List RouteReceipt)
  | systemProxy (userSid : String) (operationId : Uuid) (previousProxyEnable : Option Nat)
    (previousProxy previousBypass previousAutoConfigUrl : Option String)
    (previousAutoDetect : Option Nat) (appliedProxy appliedBypass : String)
  | wfpMetadata (providerKey sublayerKey : Uuid)
deriving DecidableEq

def MutationReceipt.kind : MutationReceipt → MutationKind
  | .wintunAdapter .. => .wintunAdapter
  | .endpointBypass .. => .endpointBypass
  | .killSwitch .. => .killSwitch
  | .interfaceConfiguration .. => .interfaceConfiguration
  | .dns .. => .dns
  | .packetSession .. => .packetSession
  | .defaultRoutes .. => .defaultRoutes
  | .systemProxy .. => .systemProxy
  | .wfpMetadata .. => .wfpMetadata

structure MutationRecord where
  kind : MutationKind
  state : MutationState
  receipt : MutationReceipt

inductive DeviceState where
  | creating
  | idle
  | inUse
  | retiring
  | recoveryRequired
deriving DecidableEq

structure DeviceBinding where
  deviceId : Uuid
  generation : Nat
deriving DecidableEq

structure ManagedDevice where
  deviceId : Uuid
  generation : Nat
  agentInstance : Uuid
  ownerSid : String
  ownerProcessId : Nat
  state : DeviceState
  receipt : MutationReceipt

def ManagedDevice.name (deviceId : Uuid) : String :=
  "Usque-" ++ String.ofList (deviceId.simple.take 12)

def ManagedDevice.binding (device : ManagedDevice) : DeviceBinding :=
  ⟨device.deviceId, device.generation⟩

structure ReplacementGuardPlan where
  exclusions : List IpNet
  target : ValidatedTunnelPlan

inductive ReplacementPhase where
  | installingGuard
  | sourceCleanup
  | preparingTarget
  | prepared
  | committing
  | aborting
  | complete
  | aborted
deriving DecidableEq

def ReplacementPhase.pending : ReplacementPhase → Bool
  | .complete | .aborted => false
  | _ => true

structure TunnelReplacement where
  originalSourceOperationId : Uuid
  originalSourcePlan : ValidatedTunnelPlan
  sourceOperationId : Uuid
  cleanupOperationId : Uuid
  sourceJournalGeneration : Nat
  operationId : Uuid
  ownerSid : String
  ownerProcessId : Nat
  guardPlan : ReplacementGuardPlan
  guard : MutationRecord
  phase : ReplacementPhase
  abortGeneration : Option Nat

def TunnelReplacement.pending (replacement : TunnelReplacement) : Bool := replacement.phase.pending

structure RecoveryJournal where
  schemaVersion : Nat
  generation : Nat
  device : Option ManagedDevice
  deviceBinding : Option DeviceBinding
  replacement : Option TunnelReplacement
  phase : RecoveryPhase
  operationKind : Option OperationKind
  operationId : Option Uuid
  ownerSid : Option String
  ownerProcessId : Option Nat
  plan : Option ValidatedTunnelPlan
  pauseDeadlineUnixSeconds : Option Int
  steps : List MutationRecord

variable {journal : RecoveryJournal}

namespace RecoveryJournal

def clean (generation : Nat) : RecoveryJournal where
  schemaVersion := JOURNAL_SCHEMA_VERSION
  generation := generation
  device := none
  deviceBinding := none
  replacement := none
  phase := .clean
  operationKind := none
  operationId := none
  ownerSid := none
  ownerProcessId := none
  plan := none
  pauseDeadlineUnixSeconds := none
  steps := []

section
variable (journal : RecoveryJournal)

def replacementPending : Bool :=
  journal.replacement.any TunnelReplacement.pending

def isFullyClean : Bool :=
  journal.phase == .clean && journal.device.isNone && !journal.replacementPending

def adapterReceipt : Option MutationReceipt :=
  (journal.device.map (·.receipt)).or
    ((journal.steps.find? fun step => step.kind = .wintunAdapter).map (·.receipt))

def disconnected : RecoveryJournal :=
  { clean journal.generation with
    device := journal.device.map fun device =>
      if device.state = .inUse then { device with state := .idle } else device
    replacement := journal.replacement }

end

end RecoveryJournal

/-! ## Errors -/

/-- `std::io::ErrorKind`; the kinds that no function tells apart are `other`. -/
inductive IoErrorKind where
  | interrupted
  | wouldBlock
  | timedOut
  | resourceBusy
  | other
deriving DecidableEq

/-- `std::io::Error`. -/
structure IoError where
  kind : IoErrorKind
  rawOsError : Option Int
  text : String

inductive JournalError where
  | invalidReplacement
  | invalidDevice
  | io (error : IoError)
  | json (text : String)
  | schema (found supported : Nat)
  | tooLarge (len : Nat)
  | tooManySteps (count : Nat)
  | duplicateStep (kind : MutationKind)
  | receiptMismatch (kind : MutationKind)
  | unsafeReceipt (kind : MutationKind) (reason : String)
  | invalidCleanState
  | missingOwner
  | invalidOperationShape
  | invalidOwnerSid
  | missingPlan
  | missingPauseDeadline
  | unexpectedPauseDeadline
  | generationOverflow
  | missingParent (path : String)
  | plan (error : PlanError)

/-- `Debug for MutationKind`. -/
def MutationKind.debug : MutationKind → String
  | .wintunAdapter => "WintunAdapter"
  | .endpointBypass => "EndpointBypass"
  | .killSwitch => "KillSwitch"
  | .interfaceConfiguration => "InterfaceConfiguration"
  | .dns => "Dns"
  | .packetSession => "PacketSession"
  | .defaultRoutes => "DefaultRoutes"
  | .systemProxy => "SystemProxy"
  | .wfpMetadata => "WfpMetadata"

/-- `Display for JournalError`. -/
def JournalError.message : JournalError → String
  | .invalidReplacement =>
    "journal replacement ownership, policy, phase, or guard receipt is inconsistent"
  | .invalidDevice =>
    "journal device ownership, identity, state, or connection binding is inconsistent"
  | .io error => "journal I/O failed: " ++ error.text
  | .json text => "journal JSON is invalid: " ++ text
  | .schema found supported =>
    "journal schema " ++ toString found ++ " is newer or unsupported; this binary supports " ++
      toString supported
  | .tooLarge len => "journal exceeds " ++ toString MAX_JOURNAL_BYTES ++ " bytes: " ++ toString len
  | .tooManySteps count => "journal contains too many mutation steps: " ++ toString count
  | .duplicateStep kind => "journal contains duplicate step " ++ kind.debug
  | .receiptMismatch kind => "journal receipt does not match step " ++ kind.debug
  | .unsafeReceipt kind reason =>
    "journal contains unsafe " ++ kind.debug ++ " receipt: " ++ reason
  | .invalidCleanState => "clean journal contains active-operation data"
  | .missingOwner => "non-clean journal is missing its authenticated owner"
  | .invalidOperationShape => "journal operation kind, plan, steps, and phase are inconsistent"
  | .invalidOwnerSid => "journal owner SID is malformed"
  | .missingPlan => "non-clean journal is missing its tunnel plan"
  | .missingPauseDeadline => "paused journal is missing its deadline"
  | .unexpectedPauseDeadline => "only a paused journal may contain a pause deadline"
  | .generationOverflow => "journal generation overflowed"
  | .missingParent path => "journal path has no parent: " ++ path
  | .plan error => "journal tunnel plan is invalid: " ++ error.message

/-! ## Validation -/

def validSidText (value : String) : Bool :=
  "S-".toList.isPrefixOf value.toList && value.utf8ByteSize ≤ 256 &&
    (value.toList.drop 2).all fun c => c.isDigit || c == '-'

def isAsciiHexdigit (c : Char) : Bool :=
  c.isDigit || ('a' ≤ c && c ≤ 'f') || ('A' ≤ c && c ≤ 'F')

def validAdapterName (value : String) : Bool :=
  value.utf8ByteSize == 18 && "Usque-".toList.isPrefixOf value.toList &&
    (value.toList.drop 6).all isAsciiHexdigit

/-- The text `to_string` prints for a host address. -/
def hostNetwork (addr : IpAddr) : CidrText := .printed ⟨addr, addr.width, le_width addr⟩

def validateRoute (route : RouteReceipt) : Except String Unit :=
  match route.destination.parse with
  | none => .error "route destination is not a CIDR"
  | some destination =>
    rejectIf
      (route.destination != .printed destination || route.interfaceLuid == 0 ||
        (route.nextHop.any fun nextHop => nextHop.isIpv4 != destination.addr.isIpv4) ||
        route.nextHopScopeId != 0 && route.nextHop.all fun nextHop => !nextHop.isIpv6)
      "route key is malformed or uses mixed address families"

def effectiveExclusions (plan : ValidatedTunnelPlan) : List IpNet :=
  sortDedup <| plan.splitExclusions ++
    if plan.allowLan then
      [v4 10 0 0 0 8, v4 172 16 0 0 12, v4 192 168 0 0 16,
        v4 169 254 0 0 16, v6 0xFC00 0 7, v6 0xFE80 0 10]
    else []

def containsNetwork (outer inner : IpNet) : Bool :=
  outer.prefixLen ≤ inner.prefixLen && outer.contains inner.addr

def intersectExclusions (current : List IpNet) (target : ValidatedTunnelPlan) : List IpNet :=
  let next := effectiveExclusions target
  let all := sortDedup <| current.flatMap fun left => next.filterMap fun right =>
    if containsNetwork left right then some right
    else if containsNetwork right left then some left
    else none
  all.filter fun net => !all.any fun other => other != net && containsNetwork other net

/-- The address text of every entry occurs once, and the texts are those of
    `expected`, as sets. -/
def sameAddresses (created : List AddressReceipt) (expected : List CidrText) : Bool :=
  let actual := created.map (·.address)
  decide actual.Nodup && actual.all (expected.contains ·) && expected.all (actual.contains ·)

/-- Whether a route that `validate_receipt` finds under the default routes is one
    of the planned ones. -/
def plannedRoute (plan : ValidatedTunnelPlan) (wintunLuid : Option Nat) (route : RouteReceipt)
    (destination : IpNet) : Bool :=
  let onAdapter (assigned : Option IpNet) :=
    assigned.isSome && route.interfaceLuid == wintunLuid.getD 0 && route.nextHop.isNone
  if destination.prefixLen = 0 then
    if destination.addr.isIpv4 then onAdapter plan.assignedIpv4 else onAdapter plan.assignedIpv6
  else if plan.splitDns && destination == v4 198 18 0 1 32 le_32 then onAdapter plan.assignedIpv4
  else if plan.splitDns && destination == v6 0xFD00 1 128 le_128 then onAdapter plan.assignedIpv6
  else plan.splitExclusions.contains destination

/-- `validate_receipt` on the receipt of a tunnel, with the reason of its
    `UnsafeReceipt` error. -/
def validateTunnelReceipt (state : MutationState) (receipt : MutationReceipt)
    (plan : ValidatedTunnelPlan) (wintunLuid : Option Nat) : Except String Unit :=
  match receipt with
  | .wfpMetadata providerKey sublayerKey =>
    rejectIf
      ((plan.automaticEndpointPolicy.isNone && plan.presetEndpointPolicy.isNone) ||
        providerKey != WFP_PROVIDER_KEY || sublayerKey != WFP_SUBLAYER_KEY)
      "invalid automatic endpoint WFP metadata identity"
  | .wintunAdapter adapterName adapterGuid interfaceLuid => do
    rejectIf (!validAdapterName adapterName || adapterGuid.isNil) "invalid adapter identity"
    rejectIf (state != .intended && interfaceLuid == 0) "applied adapter has no interface LUID"
  | .endpointBypass created => do
    created.forM validateRoute
    let hosts (endpoints : List SocketAddr) := endpoints.map fun endpoint => hostNetwork endpoint.ip
    let expected := hosts (plan.endpointCandidates ++ plan.controlApiCandidates)
    let actual := created.map (·.destination)
    let disjoint (set : List CidrText) := !actual.any (set.contains ·)
    rejectIf
      (!decide actual.Nodup || !actual.all (expected.contains ·) ||
        disjoint (hosts plan.endpointCandidates) ||
        !plan.controlApiCandidates.isEmpty && disjoint (hosts plan.controlApiCandidates))
      "endpoint receipt is not a safe reachable subset of data/control host routes"
  | .killSwitch providerKey sublayerKey filterKeys filterIds =>
    rejectIf
      (providerKey.isNil || sublayerKey.isNil || filterKeys.isEmpty || filterKeys.length > 256 ||
        !decide filterKeys.Nodup || filterIds.length > 256 || !decide filterIds.Nodup ||
        !filterIds.isEmpty && filterIds.length != filterKeys.length)
      "invalid WFP resource identity"
  | .interfaceConfiguration interfaceLuid previousIpv4Mtu previousIpv6Mtu createdAddresses => do
    rejectIf (interfaceLuid == 0 || wintunLuid != some interfaceLuid)
      "interface receipt does not match the Wintun LUID"
    rejectIf
      ((previousIpv4Mtu.any fun mtu => mtu == 0 || mtu > 65535) ||
        (previousIpv6Mtu.any fun mtu => mtu == 0 || mtu > 65535) || createdAddresses.length > 2)
      "invalid interface snapshot bounds"
    let expected := (plan.assignedIpv4.toList ++ plan.assignedIpv6.toList).map CidrText.printed
    rejectIf (!sameAddresses createdAddresses expected)
      "interface addresses do not exactly match the validated plan"
  | .dns interfaceGuid _ previousServers =>
    rejectIf (interfaceGuid.isNil || previousServers.length > 8) "invalid DNS snapshot"
  | .packetSession sessionId ringCapacity =>
    rejectIf
      (sessionId.isNil || !(128 * 1024 ≤ ringCapacity && ringCapacity ≤ 64 * 1024 * 1024) ||
        !ringCapacity.isPowerOfTwo)
      "invalid packet-ring identity or capacity"
  | .defaultRoutes created replaced => do
    let splitDnsRoutes :=
      (plan.splitDns && plan.assignedIpv4.isSome).toNat +
        (plan.splitDns && plan.assignedIpv6.isSome).toNat
    rejectIf
      (created.length > plan.splitExclusions.length + 2 + splitDnsRoutes || !replaced.isEmpty)
      "unexpected route count or replacement"
    created.forM fun route => do
      validateRoute route
      match route.destination.parse with
      | none => .error "route destination is not a CIDR"
      | some destination =>
        rejectIf (!plannedRoute plan wintunLuid route destination)
          "route is neither a planned default nor split exclusion"
  | .systemProxy .. => .ok ()

/-- `validate_receipt`. The kinds of the record and of its receipt agree here. -/
def validateReceipt (record : MutationRecord) (plan : Option ValidatedTunnelPlan)
    (wintunLuid : Option Nat) (ownerSid : String) (journalOperationId : Uuid) :
    Except JournalError Unit :=
  Except.mapError (.unsafeReceipt record.kind) <|
    match record.receipt with
    | .systemProxy userSid operationId previousProxyEnable previousProxy previousBypass
        previousAutoConfigUrl previousAutoDetect appliedProxy appliedBypass =>
      let long (text : Option String) := text.any fun text => text.utf8ByteSize > 4096
      rejectIf
        (userSid != ownerSid || !validSidText userSid || operationId != journalOperationId ||
          (previousProxyEnable.any fun value => value > 1) ||
          (previousAutoDetect.any fun value => value > 1) ||
          long previousProxy || long previousBypass || long previousAutoConfigUrl ||
          appliedProxy.isEmpty || appliedProxy.utf8ByteSize > 4096 ||
          appliedBypass.utf8ByteSize > 4096)
        "invalid per-user system-proxy snapshot"
    | receipt =>
      match plan with
      | none => .error "tunnel receipt has no tunnel plan"
      | some plan => validateTunnelReceipt record.state receipt plan wintunLuid

def ManagedDevice.validate (device : ManagedDevice) : Except JournalError Unit :=
  match device.receipt with
  | .wintunAdapter adapterName adapterGuid interfaceLuid =>
    rejectIf
      (device.deviceId.isNil || device.generation == 0 || device.agentInstance.isNil ||
        device.ownerProcessId == 0 || !validSidText device.ownerSid ||
        adapterName != ManagedDevice.name device.deviceId || adapterGuid != device.deviceId ||
        (device.state == .idle || device.state == .inUse) && interfaceLuid == 0)
      .invalidDevice
  | _ => .error .invalidDevice

def TunnelReplacement.validate (replacement : TunnelReplacement) : Except JournalError Unit := do
  rejectIf
    (replacement.originalSourceOperationId.isNil || replacement.sourceOperationId.isNil ||
      replacement.cleanupOperationId.isNil || replacement.operationId.isNil ||
      replacement.sourceOperationId == replacement.operationId ||
      replacement.sourceJournalGeneration == 0 || replacement.ownerProcessId == 0 ||
      !validSidText replacement.ownerSid ||
      !(replacement.originalSourcePlan.killSwitch || replacement.originalSourcePlan.vpnChain))
    .invalidReplacement
  replacement.originalSourcePlan.validate.mapError .plan
  replacement.guardPlan.target.validate.mapError .plan
  rejectIf
    (replacement.guardPlan.exclusions.length > 2 * (MAX_SPLIT_EXCLUSIONS + 6) ||
      (replacement.guardPlan.exclusions.any fun net => net.prefixLen == 0) ||
      replacement.guard.kind != .killSwitch)
    .invalidReplacement
  let original := effectiveExclusions replacement.originalSourcePlan
  let target := effectiveExclusions replacement.guardPlan.target
  rejectIf
    (replacement.guardPlan.exclusions.any fun net =>
      !(original.any (containsNetwork · net)) || !(target.any (containsNetwork · net)))
    .invalidReplacement
  match replacement.guard.receipt with
  | .killSwitch providerKey sublayerKey filterKeys filterIds =>
    let expectedKeys := (List.range filterKeys.length).map fun index =>
      BitVec.ofNat 128 (REPLACEMENT_FILTER_KEY_BASE + index)
    rejectIf
      (providerKey != REPLACEMENT_WFP_PROVIDER_KEY || sublayerKey != REPLACEMENT_WFP_SUBLAYER_KEY ||
        filterKeys.isEmpty || filterKeys.length > REPLACEMENT_MAX_FILTERS ||
        filterKeys != expectedKeys ||
        !filterIds.isEmpty && filterIds.length != filterKeys.length ||
        !replacement.pending && replacement.guard.state != .restored ||
        replacement.pending && replacement.guard.state == .restored)
      .invalidReplacement
  | _ => .error .invalidReplacement

/-- The check of the kinds: every receipt is of its step's kind, and no kind
    occurs twice. -/
def validateKinds (kinds : List MutationKind) : List MutationRecord → Except JournalError Unit
  | [] => .ok ()
  | step :: steps => do
    rejectIf (step.kind != step.receipt.kind) (.receiptMismatch step.kind)
    rejectIf (kinds.contains step.kind) (.duplicateStep step.kind)
    validateKinds (step.kind :: kinds) steps

namespace RecoveryJournal

section
variable (journal : RecoveryJournal)

def validateReplacement : Except JournalError Unit :=
  match journal.replacement with
  | none => .ok ()
  | some replacement => do
    replacement.validate
    rejectIf
      (replacement.pending &&
        (journal.phase == .clean || journal.ownerSid != some replacement.ownerSid ||
          !([replacement.cleanupOperationId, replacement.operationId].any fun id =>
            journal.operationId == some id)))
      .invalidReplacement

def validateDevice : Except JournalError Unit :=
  match journal.device with
  | none => .ok ()
  | some device => do
    device.validate
    rejectIf (journal.steps.any fun step => step.kind == .wintunAdapter) .invalidDevice
    rejectIf (device.state == .inUse && journal.deviceBinding.isNone) .invalidDevice
    rejectIf
      (journal.operationKind == some .tunnel && journal.phase != .clean &&
        journal.deviceBinding.isNone)
      .invalidDevice

def validateBinding : Except JournalError Unit :=
  match journal.deviceBinding with
  | none => .ok ()
  | some binding =>
    match journal.device with
    | none => .error .invalidDevice
    | some device =>
      rejectIf
        (binding != device.binding || journal.phase == .clean ||
          journal.operationKind != some .tunnel || journal.ownerSid != some device.ownerSid ||
          !(device.state == .creating || device.state == .inUse ||
            device.state == .recoveryRequired))
        .invalidDevice

def validateClean : Except JournalError Unit :=
  rejectIf
    (journal.operationKind.isSome || journal.operationId.isSome || journal.ownerSid.isSome ||
      journal.ownerProcessId.isSome || journal.plan.isSome ||
      journal.pauseDeadlineUnixSeconds.isSome || !journal.steps.isEmpty ||
      journal.deviceBinding.isSome)
    .invalidCleanState

def validateShape (kind : OperationKind) : Except JournalError (Option ValidatedTunnelPlan) :=
  match kind with
  | .tunnel =>
    match journal.plan with
    | none => .error .missingPlan
    | some plan => do
      plan.validate.mapError .plan
      rejectIf (plan.deferNetworkConfiguration && journal.phase == .active) .invalidOperationShape
      pure (some plan)
  | .systemProxy => do
    rejectIf
      (journal.plan.isSome || (journal.steps.any fun step => step.kind != .systemProxy) ||
        journal.steps.length > 1 || journal.phase == .prepared || journal.phase == .paused)
      .invalidOperationShape
    pure none

def wintunLuid : Option Nat :=
  match journal.adapterReceipt with
  | some (.wintunAdapter _ _ interfaceLuid) => some interfaceLuid
  | _ => none

/-- The part of `validate` on a journal outside the phase `Clean`. -/
def validateOperation : Except JournalError Unit :=
  match journal.operationKind, journal.operationId, journal.ownerProcessId, journal.ownerSid with
  | some kind, some operationId, some _, some ownerSid => do
    rejectIf (!validSidText ownerSid) .invalidOwnerSid
    let plan ← journal.validateShape kind
    journal.steps.forM fun step =>
      validateReceipt step plan journal.wintunLuid ownerSid operationId
    if journal.phase = .paused then
      rejectIf journal.pauseDeadlineUnixSeconds.isNone .missingPauseDeadline
    else
      rejectIf journal.pauseDeadlineUnixSeconds.isSome .unexpectedPauseDeadline
  | _, _, _, _ => .error .missingOwner

def validate : Except JournalError Unit := do
  rejectIf (journal.schemaVersion != JOURNAL_SCHEMA_VERSION)
    (.schema journal.schemaVersion JOURNAL_SCHEMA_VERSION)
  rejectIf (journal.steps.length > MAX_JOURNAL_STEPS) (.tooManySteps journal.steps.length)
  journal.validateReplacement
  journal.validateDevice
  journal.validateBinding
  validateKinds [] journal.steps
  if journal.phase = .clean then journal.validateClean else journal.validateOperation

end

end RecoveryJournal

/-! ## The file -/

/-- The file of the journal: its length, and the journal that it holds or the
    error of reading or parsing it. -/
structure JournalFile where
  len : Nat
  content : Except JournalError RecoveryJournal

/-- The schema of a journal that an older agent wrote, brought up to date. -/
def migrate (journal : RecoveryJournal) : Except JournalError RecoveryJournal := do
  let preset (plan : ValidatedTunnelPlan) := plan.presetEndpointPolicy.isSome
  let unsupported := JournalError.schema journal.schemaVersion JOURNAL_SCHEMA_VERSION
  rejectIf
    (journal.schemaVersion < 6 &&
      (journal.plan.any preset || journal.replacement.any fun replacement =>
        preset replacement.originalSourcePlan || preset replacement.guardPlan.target))
    unsupported
  rejectIf (journal.schemaVersion < 5 && journal.replacement.isSome) .invalidReplacement
  rejectIf (journal.schemaVersion == 2 && (journal.device.isSome || journal.deviceBinding.isSome))
    .invalidDevice
  rejectIf
    ((journal.schemaVersion == 2 || journal.schemaVersion == 3) &&
      ((journal.plan.any fun plan => plan.automaticEndpointPolicy.isSome || preset plan) ||
        journal.steps.any fun step => step.kind == .wfpMetadata))
    unsupported
  if 2 ≤ journal.schemaVersion ∧ journal.schemaVersion ≤ 5 then
    pure { journal with schemaVersion := JOURNAL_SCHEMA_VERSION }
  else
    pure journal

/-- `JournalStore::load_or_clean`; there is no file when `file` is `none`. -/
def loadOrClean (file : Option JournalFile) : Except JournalError RecoveryJournal :=
  match file with
  | none => .ok (RecoveryJournal.clean 0)
  | some file => do
    rejectIf (file.len > MAX_JOURNAL_BYTES) (.tooLarge file.len)
    let journal ← file.content
    let journal ← migrate journal
    journal.validate
    pure journal

/-! ## Valid journals -/

theorem rejectIf_eq_ok {ε : Type} {c : Prop} [Decidable c] {e : ε} {u : Unit} :
    rejectIf c e = .ok u ↔ ¬ c := by
  by_cases h : c <;> simp [rejectIf, h]

theorem validateKinds_eq_ok {kinds : List MutationKind} {steps : List MutationRecord} :
    validateKinds kinds steps = .ok () ↔
      (∀ step ∈ steps, step.kind = step.receipt.kind) ∧ (steps.map (·.kind)).Nodup ∧
        ∀ step ∈ steps, step.kind ∉ kinds := by
  induction steps generalizing kinds with
  | nil => simp [validateKinds]
  | cons _ _ ih =>
    simp only [validateKinds, Lib.seqOk, rejectIf_eq_ok, ih, map_cons,
      nodup_cons, forall_mem_cons, mem_map, bne_iff_ne, ne_eq, not_not,
      contains_iff_mem]
    constructor
    · rintro ⟨hk, hn, hs, hd, hout⟩
      refine ⟨⟨hk, hs⟩, ⟨?_, hd⟩, hn, fun s h hin => hout s h (mem_cons_of_mem _ hin)⟩
      rintro ⟨s, h, heq⟩
      exact hout s h (heq ▸ mem_cons_self ..)
    · rintro ⟨⟨hk, hs⟩, ⟨hnot, hd⟩, hn, hout⟩
      refine ⟨hk, hn, hs, hd, fun s h hin => ?_⟩
      rcases mem_cons.1 hin with heq | hin
      · exact hnot ⟨s, h, heq⟩
      · exact hout s h hin

namespace RecoveryJournal

theorem validate_eq_ok :
    journal.validate = .ok () ↔
      journal.schemaVersion = JOURNAL_SCHEMA_VERSION ∧ journal.steps.length ≤ MAX_JOURNAL_STEPS ∧
      journal.validateReplacement = .ok () ∧ journal.validateDevice = .ok () ∧
      journal.validateBinding = .ok () ∧ validateKinds [] journal.steps = .ok () ∧
      (if journal.phase = .clean then journal.validateClean else journal.validateOperation) =
        .ok () := by
  simp only [validate, Lib.seqOk, rejectIf_eq_ok, bne_iff_ne, ne_eq, not_not, gt_iff_lt, not_lt]

section
variable (h : journal.validate = .ok ())
include h

theorem nodup_kinds : (journal.steps.map (·.kind)).Nodup :=
  (validateKinds_eq_ok.1 (validate_eq_ok.1 h).2.2.2.2.2.1).2.1

theorem kind_eq : ∀ step ∈ journal.steps, step.kind = step.receipt.kind :=
  (validateKinds_eq_ok.1 (validate_eq_ok.1 h).2.2.2.2.2.1).1

theorem operation_eq_none (hcln : journal.phase = .clean) :
    journal.operationId = none ∧ journal.steps = [] := by
  have h := (validate_eq_ok.1 h).2.2.2.2.2.2
  rw [if_pos hcln, validateClean, rejectIf_eq_ok] at h
  simp only [Bool.or_eq_true, not_or, Bool.not_eq_true', Bool.not_eq_true,
    isEmpty_eq_false_iff, not_not, Option.isSome_eq_false_iff, Option.isNone_iff_eq_none] at h
  tauto

theorem not_pending (hcln : journal.phase = .clean) : journal.replacementPending = false := by
  have h := (validate_eq_ok.1 h).2.2.1
  unfold validateReplacement at h
  unfold replacementPending
  split at h
  · rw [‹journal.replacement = none›]
    rfl
  · rename_i replacement hr
    simp only [Lib.seqOk, rejectIf_eq_ok, hcln] at h
    rw [hr]
    simpa using h.2

end

theorem clean_valid (generation : Nat) : (clean generation).validate = .ok () := rfl

theorem guard_state (h : journal.validate = .ok ()) {replacement : TunnelReplacement}
    (hr : journal.replacement = some replacement) (hp : replacement.pending) :
    replacement.guard.state ≠ .restored := by
  have h := (validate_eq_ok.1 h).2.2.1
  simp only [validateReplacement, hr, Lib.seqOk] at h
  have h := h.1
  simp only [TunnelReplacement.validate, Lib.seqOk] at h
  obtain ⟨-, -, -, -, -, h⟩ := h
  split at h
  · simp only [rejectIf_eq_ok, hp] at h
    simp only [Bool.or_eq_true, not_or] at h
    simpa using h.2
  · cases h

end RecoveryJournal

theorem migrate_valid (h : journal.validate = .ok ()) : migrate journal = .ok journal := by
  have hv : journal.schemaVersion = 6 := (RecoveryJournal.validate_eq_ok.1 h).1
  simp [migrate, hv, rejectIf, bind, Except.bind, pure, Except.pure]

theorem loadOrClean_valid {file : Option JournalFile} (h : loadOrClean file = .ok journal) :
    journal.validate = .ok () := by
  cases file with
  | none =>
    cases h
    exact RecoveryJournal.clean_valid 0
  | some =>
    simp only [loadOrClean, Lib.bindOk] at h
    obtain ⟨_, -, _, -, migrated, -, _, hv, hpure⟩ := h
    cases hpure
    exact hv

theorem loadOrClean_written {len : Nat} {loaded : RecoveryJournal} (hv : journal.validate = .ok ())
    (h : loadOrClean (some ⟨len, .ok journal⟩) = .ok loaded) : loaded = journal := by
  simp only [loadOrClean, Lib.bindOk, Except.ok.injEq, exists_eq_left', migrate_valid hv] at h
  obtain ⟨_, -, _, -, hpure⟩ := h
  exact (Except.ok.inj hpure).symm

end Usque.Agent
