/-
  The recovery journal of the Linux agent (`usque-agent/src/linux/journal.rs`).

  * `Resources.forOperation`: everything the agent owns on the host is named after the
    operation.
  * `Journal.validate` is the check that every journal passes when it is saved or loaded;
    `Journal.Valid` is what the proofs use of it.
  * `guardTable` is the name of the nftables table that guards an operation; operations
    have different ones.
-/
import Usque.Agent.Plan
import Usque.Core.Settings
import Usque.Lib.Prog

namespace Usque.Linux
open List Nat
open Agent (ValidatedTunnelPlan)
open Lib

/-! ## Errors -/

/-- `io::ErrorKind`, as far as the coordinator tells the kinds apart. -/
inductive ErrorKind where
  | permissionDenied
  | invalidData
  | unsupported
  | other
deriving DecidableEq

/-- `LinuxFailureStage`. -/
inductive FailureStage where
  | preflight
  | journal
  | protection
  | tunCreate
  | addressApply
  | dnsProbe
  | dnsApply
  | routeApply
  | recovery
  | physicalSnapshot
  | egressPermission

/-- `io::Error`: one of the agent's own, or one of the system, with the stages that
    `linux_failure` notes. -/
inductive IoError where
  | denied (message : String)
  | invalid (message : String)
  | system (kind : ErrorKind) (code : ℕ)
  | wrap (stage : FailureStage) (error : IoError)
  | withCleanup (primary cleanup : IoError)

/-- `io::Error::kind`; a wrapped error has the kind of its source. -/
def IoError.kind : IoError → ErrorKind
  | .denied _ => .permissionDenied
  | .invalid _ => .invalidData
  | .system kind _ => kind
  | .wrap _ error => error.kind
  | .withCleanup primary _ => primary.kind

/-! ## The types of the journal -/

inductive Phase where
  | clean
  | preparing
  | prepared
  | active
  | recovering
  | recoveryRequired
deriving DecidableEq

inductive Step where
  | protection
  | tun
  | addresses
  | dns
  | routes
deriving DecidableEq

inductive StepState where
  | intended
  | applied
  | restored
deriving DecidableEq

structure Record where
  step : Step
  state : StepState
deriving DecidableEq

structure Owner where
  uid : ℕ
  processId : ℕ
  processStartTime : ℕ
deriving DecidableEq

structure PhysicalInterface where
  index : ℕ
  familyMask : ℕ
  dnsServers : List IpAddr
deriving DecidableEq

/-- `dns::Domain`. -/
structure DnsDomain where
  servers : Option (List String)
  options : Option (List String)
deriving DecidableEq

/-- `dns::GlobalDns`; the domains are in the order of their names. -/
structure GlobalDns where
  searches : Option (List String)
  options : Option (List String)
  domains : Option (List (String × DnsDomain))
  certificationAuthority : Option String
  resolveMode : Option String
deriving DecidableEq

inductive DnsReceipt where
  | resolved
  | networkManager (previous : GlobalDns)
deriving DecidableEq

structure Resources where
  interfaceName : String
  interfaceAlias : String
  interfaceIndex : Option ℕ
  nftTable : String
  routeTable : ℕ
  rulePriority : ℕ
  socketMark : ℕ
  egressMarkHighwater : ℕ
  networkGeneration : ℕ
  physicalInterfaces : List PhysicalInterface
  dns : DnsReceipt
  dhcpClientUids : Option (List ℕ)
deriving DecidableEq

def uuidByte (id : Uuid) (i : ℕ) : ℕ := id.toNat / 256 ^ (15 - i) % 256

def Resources.forOperation (id : Uuid) : Resources :=
  let suffix :=
    uuidByte id 0 + 2 ^ 8 * uuidByte id 1 + 2 ^ 16 * uuidByte id 2 + 2 ^ 24 * uuidByte id 3
  { interfaceName := "usq" ++ String.ofList (id.simple.take 12)
    interfaceAlias := "usque:" ++ id.hyphenated
    interfaceIndex := none
    nftTable := "usque_" ++ String.ofList id.simple
    routeTable := 0x75000000 ||| (suffix &&& 0x00ffffff)
    rulePriority := 11000
    socketMark := 0x75000000 ||| ((suffix &&& 0xff) <<< 16)
    egressMarkHighwater := 0
    networkGeneration := 1
    physicalInterfaces := []
    dns := .resolved
    dhcpClientUids := none }

def RECOVERY_ATTEMPT_LIMIT : ℕ := 3

inductive AutomaticPhase where
  | inactive
  | waiting
  | running
  | exhausted
  | blocked
deriving DecidableEq

structure AutomaticRecovery where
  phase : AutomaticPhase := .inactive
  attempts : ℕ := 0
deriving DecidableEq

structure Replacement where
  operationId : Uuid
  plan : ValidatedTunnelPlan
  resources : Resources
  state : StepState

def SCHEMA_VERSION : ℕ := 1

/-- `Journal`, with the values of `Journal::default`. -/
structure Journal where
  schemaVersion : ℕ := SCHEMA_VERSION
  generation : ℕ := 0
  phase : Phase := .clean
  operationId : Option Uuid := none
  owner : Option Owner := none
  plan : Option ValidatedTunnelPlan := none
  resources : Option Resources := none
  records : List Record := []
  replacement : Option Replacement := none
  replacementOrigin : Option Uuid := none
  replacementInitialPlan : Option ValidatedTunnelPlan := none
  automaticRecovery : AutomaticRecovery := {}

/-! ## Validation -/

/-- `dns::valid_string`; `char::is_control` are the C0 and C1 controls. -/
def validString (value : String) : Except IoError Unit :=
  rejectIf
    (value.utf8ByteSize > 512 ∨
      value.toList.any fun c => c.toNat < 0x20 || (0x7f ≤ c.toNat && c.toNat ≤ 0x9f))
    (.invalid "invalid NetworkManager DNS string")

def validList (values : List String) : Except IoError Unit := do
  rejectIf (values.length > 64) (.invalid "NetworkManager DNS array limit exceeded")
  values.forM validString

def GlobalDns.validate (dns : GlobalDns) : Except IoError Unit := do
  (dns.certificationAuthority.toList ++ dns.resolveMode.toList).forM validString
  (dns.searches.toList ++ dns.options.toList).forM validList
  match dns.domains with
  | none => pure ()
  | some domains => do
    rejectIf (domains.length > 64) (.invalid "NetworkManager DNS domain limit exceeded")
    domains.forM fun (name, domain) => do
      validString name
      rejectIf (domain.servers.all List.isEmpty)
        (.invalid "NetworkManager DNS domain has no servers")
      (domain.servers.toList ++ domain.options.toList).forM validList

/-- The check of a receipt: what NetworkManager had before is valid. -/
def DnsReceipt.validate : DnsReceipt → Except IoError Unit
  | .resolved => pure ()
  | .networkManager previous => previous.validate

def MAX_DHCP_CLIENT_UIDS : ℕ := 3

/-- Some pair of neighbours is not increasing (`windows(2)`). -/
def notIncreasing : List ℕ → Bool
  | a :: b :: rest => a ≥ b || notIncreasing (b :: rest)
  | _ => false

def order : List Step := [.protection, .tun, .addresses, .dns, .routes]

/-- `ok_or_else(|| invalid(message))`. -/
def present {α : Type} (o : Option α) (message : String) : Except IoError α :=
  match o with
  | some a => pure a
  | none => .error (.invalid message)

/-- The part of `validate` about the resources of the operation `id`. -/
def Resources.validate (resources : Resources) (id : Uuid) : Except IoError Unit := do
  let expected :=
    { Resources.forOperation id with
      interfaceIndex := resources.interfaceIndex
      egressMarkHighwater := resources.egressMarkHighwater
      networkGeneration := resources.networkGeneration
      physicalInterfaces := resources.physicalInterfaces
      dns := resources.dns
      dhcpClientUids := resources.dhcpClientUids }
  rejectIf
    (resources.dhcpClientUids.any fun uids =>
      uids.length > MAX_DHCP_CLIENT_UIDS || uids.contains 0 || notIncreasing uids)
    (.invalid "invalid Linux DHCP client users")
  rejectIf
    (resources.networkGeneration = 0 ∨ resources.physicalInterfaces.length > 16 ∨
      resources.physicalInterfaces.any fun link =>
        link.index == 0 || !(1 ≤ link.familyMask && link.familyMask ≤ 3) ||
          link.dnsServers.length > 8 ||
          link.dnsServers.any fun ip => ip.isUnspecified || ip.isMulticast || ip.isLoopback)
    (.invalid "invalid Linux physical network snapshot")
  resources.dns.validate
  rejectIf (resources ≠ expected ∨ resources.interfaceIndex = some 0)
    (.invalid "foreign Linux resource identity")

namespace Journal

section
variable (journal : Journal)

/-- The part of `validate` about the identity of an operation, which is all that it checks
    of the journal it makes of a replacement. -/
def validateOperation : Except IoError Unit := do
  rejectIf (journal.automaticRecovery.attempts > RECOVERY_ATTEMPT_LIMIT)
    (.invalid "invalid Linux automatic recovery budget")
  let id ← present (journal.operationId.filter fun id => !id.isNil) "missing operation identity"
  let owner ← present journal.owner "missing Linux owner"
  rejectIf (owner.uid = 0 ∨ owner.processId = 0 ∨ owner.processStartTime = 0)
    (.invalid "invalid Linux owner")
  let plan ← present journal.plan "missing validated plan"
  plan.validate.mapError fun _ => .invalid "invalid recovery plan"
  let resources ← present journal.resources "missing Linux resources"
  resources.validate id
  rejectIf (journal.replacementOrigin.isSome ≠ journal.replacementInitialPlan.isSome)
    (.invalid "incomplete Linux replacement provenance")
  journal.replacementInitialPlan.toList.forM fun initial =>
    initial.validate.mapError fun _ => .invalid "invalid Linux initial replacement plan"
  rejectIf (journal.replacementOrigin.any fun source => source.isNil || source == id)
    (.invalid "invalid Linux replacement origin")

def ofReplacement (replacement : Replacement) : Journal where
  phase := .preparing
  operationId := some replacement.operationId
  owner := journal.owner
  plan := some replacement.plan
  resources := some replacement.resources

def validateReplacement : Except IoError Unit :=
  match journal.replacement with
  | none => pure ()
  | some replacement => do
    rejectIf (some replacement.operationId = journal.operationId ∨ replacement.state = .restored)
      (.invalid "invalid Linux replacement bridge")
    (journal.ofReplacement replacement).validateOperation

def validateRecords : Except IoError Unit := do
  let ready := journal.phase = .prepared ∨ journal.phase = .active
  rejectIf
    (journal.records.length > order.length ∨
      (journal.records.zip order).any fun (record, step) => record.step != step)
    (.invalid "invalid Linux recovery ordering")
  rejectIf
    (ready ∧
      (journal.records.length < (if journal.plan.any (·.deferNetworkConfiguration) then 2 else 4) ∨
        journal.records.any (fun record => record.state != .applied) ∨
        (journal.resources.bind (·.interfaceIndex)).isNone))
    (.invalid "incomplete prepared Linux operation")
  rejectIf (journal.phase = .active ∧ journal.records.length ≠ 5)
    (.invalid "active Linux operation has no routes")
  rejectIf
    (journal.records.head?.any (fun record => record.state == .restored) ∧
      journal.records.any fun record => record.state != .restored)
    (.invalid "protection was removed before dependent recovery")

def validate : Except IoError Unit := do
  rejectIf (journal.schemaVersion ≠ SCHEMA_VERSION) (.invalid "unsupported Linux recovery schema")
  if journal.phase = .clean then
    rejectIf
      (journal.operationId.isSome ∨ journal.owner.isSome ∨ journal.plan.isSome ∨
        journal.resources.isSome ∨ journal.records ≠ [] ∨ journal.replacement.isSome ∨
        journal.replacementOrigin.isSome ∨ journal.replacementInitialPlan.isSome ∨
        journal.automaticRecovery ≠ {})
      (.invalid "clean journal retains an operation")
  else do
    journal.validateOperation
    journal.validateReplacement
    journal.validateRecords

end

end Journal

/-! ## What validation guarantees -/

def guardTable (id : Uuid) : String := (Resources.forOperation id).nftTable

theorem rejectIfOk {ε : Type} {c : Prop} [Decidable c] {e : ε} : rejectIf c e = .ok () ↔ ¬c := by
  unfold rejectIf
  split_ifs with h
  · simp [h]
  · simp [h]

theorem presentOk {α : Type} {o : Option α} {message : String} {a : α} :
    present o message = .ok a ↔ o = some a := by
  cases o with
  | none => simp [present]
  | some => simp [present, pure, Except.pure]

theorem mod_of_hexDigits {width m n : ℕ} (h : hexDigits width m = hexDigits width n) :
    m % 16 ^ width = n % 16 ^ width := by
  have hdigit : ∀ i < width, m / 16 ^ i % 16 = n / 16 ^ i % 16 := by
    intro i hi
    have hmap := map_inj_left.mp h i (by simpa using hi)
    have hinj : ∀ a < 16, ∀ b < 16, digitChar a = digitChar b → a = b := by decide
    exact hinj _ (mod_lt _ (by decide)) _ (mod_lt _ (by decide)) hmap
  clear h
  induction width with
  | zero => rw [Nat.pow_zero, mod_one, mod_one]
  | succ width ih =>
    rw [mod_pow_succ, mod_pow_succ, ih fun i hi => hdigit i (by omega), hdigit width (by omega)]

theorem guardTable_inj {a b : Uuid} : guardTable a = guardTable b ↔ a = b := by
  refine ⟨fun h => ?_, fun h => by rw [h]⟩
  have hlist : a.simple = b.simple := by
    have := congrArg String.toList h
    change ("usque_" ++ String.ofList a.simple).toList = ("usque_" ++ String.ofList b.simple).toList
      at this
    simpa using this
  have hmod := mod_of_hexDigits hlist
  have hpow : 16 ^ 32 = 2 ^ 128 := by norm_num
  rw [hpow, mod_eq_of_lt a.isLt, mod_eq_of_lt b.isLt] at hmod
  exact BitVec.eq_of_toNat_eq hmod

theorem Resources.nftTable_of_validate {resources : Resources} {id : Uuid}
    (h : resources.validate id = .ok ()) : resources.nftTable = guardTable id := by
  unfold Resources.validate at h
  simp only [seqOk, rejectIfOk, not_or, not_not] at h
  obtain ⟨-, -, -, hexpected, -⟩ := h
  rw [hexpected]
  rfl

variable {journal : Journal}

namespace Journal

/-- The journal records a mutation that is not undone: `Prepared` or `Active`. -/
def Ready (journal : Journal) : Prop := journal.phase = .prepared ∨ journal.phase = .active

/-- What the coordinator relies on in a journal that was validated. -/
structure Valid (journal : Journal) : Prop where
  clean : journal.phase = .clean → journal.resources = none ∧ journal.records = [] ∧
    journal.replacement = none
  operation : journal.phase ≠ .clean → ∃ id resources plan, journal.operationId = some id ∧
    journal.resources = some resources ∧ journal.plan = some plan ∧
    resources.nftTable = guardTable id
  replacement : ∀ replacement, journal.replacement = some replacement →
    replacement.resources.nftTable = guardTable replacement.operationId ∧
    journal.operationId ≠ some replacement.operationId
  steps : ∀ (index : ℕ) (record : Record), journal.records[index]? = some record →
    order[index]? = some record.step
  ready : journal.Ready → 2 ≤ journal.records.length ∧
    ∀ record ∈ journal.records, record.state = .applied
  guard : journal.records.head?.any (fun record => record.state == .restored) = true →
    ∀ record ∈ journal.records, record.state = .restored

theorem validateOperation_ok (h : journal.validateOperation = .ok ()) :
    ∃ id resources plan, journal.operationId = some id ∧ journal.resources = some resources ∧
      journal.plan = some plan ∧ resources.nftTable = guardTable id := by
  unfold validateOperation at h
  simp only [bindOk, presentOk, mapErrorOk] at h
  obtain ⟨_, -, id, hid, owner, -, _, -, plan, hplan, _, -, resources, hres, _, hval, -⟩ := h
  exact ⟨id, resources, plan, (Option.filter_eq_some_iff.mp hid).1, hres, hplan,
    Resources.nftTable_of_validate hval⟩

theorem validateReplacement_ok (h : journal.validateReplacement = .ok ()) :
    ∀ replacement, journal.replacement = some replacement →
      replacement.resources.nftTable = guardTable replacement.operationId ∧
      journal.operationId ≠ some replacement.operationId := by
  intro replacement hrepl
  unfold validateReplacement at h
  simp only [hrepl, seqOk, rejectIfOk, not_or] at h
  obtain ⟨⟨hid, -⟩, hval⟩ := h
  obtain ⟨id, resources, plan, hid', hres, -, htab⟩ := validateOperation_ok hval
  cases hid'
  cases hres
  exact ⟨htab, fun heq => hid heq.symm⟩

theorem validateRecords_ok (h : journal.validateRecords = .ok ()) :
    (∀ (index : ℕ) (record : Record), journal.records[index]? = some record →
      order[index]? = some record.step) ∧
    (journal.Ready → 2 ≤ journal.records.length ∧
      ∀ record ∈ journal.records, record.state = .applied) ∧
    (journal.records.head?.any (fun record => record.state == .restored) →
      ∀ record ∈ journal.records, record.state = .restored) := by
  unfold validateRecords at h
  simp only [seqOk, rejectIfOk, not_or, not_and] at h
  obtain ⟨⟨hlen, hord⟩, hrdy, -, hgrd⟩ := h
  refine ⟨?_, ?_, ?_⟩
  · intro index record hrec
    have hidx : index < order.length := by
      have := (List.getElem?_eq_some_iff.mp hrec).1
      omega
    have hstep : order[index]? = some order[index] := List.getElem?_eq_getElem hidx
    have hzip : (record, order[index]) ∈ journal.records.zip order := by
      refine mem_of_getElem? (i := index) ?_
      rw [getElem?_zip_eq_some]
      exact ⟨hrec, hstep⟩
    have hsame : record.step = order[index] := by
      by_contra hne
      refine hord (any_eq_true.mpr ⟨_, hzip, ?_⟩)
      simpa using hne
    rw [hstep, hsame]
  · intro hph
    obtain ⟨hmany, happ, -⟩ := hrdy hph
    refine ⟨?_, ?_⟩
    · split_ifs at hmany with hdefer
      · omega
      · omega
    · simpa using happ
  · intro hhead
    simpa using hgrd hhead

/-- **A validated journal.** -/
theorem valid_of_validate (h : journal.validate = .ok ()) : journal.Valid := by
  unfold validate at h
  rw [seqOk] at h
  obtain ⟨-, h⟩ := h
  by_cases hcln : journal.phase = .clean
  · rw [if_pos hcln, rejectIfOk] at h
    push Not at h
    obtain ⟨-, -, -, hres, hrecs, hrepl, -⟩ := h
    have hnone : journal.replacement = none := by simpa using hrepl
    refine ⟨fun _ => ⟨by simpa using hres, hrecs, hnone⟩, fun hne => absurd hcln hne,
      ?_, ?_, ?_, ?_⟩
    · rw [hnone]
      intro replacement hsome
      cases hsome
    · rw [hrecs]
      intro index record hsome
      cases hsome
    · rintro (hrdy | hrdy)
      · rw [hcln] at hrdy
        cases hrdy
      · rw [hcln] at hrdy
        cases hrdy
    · rw [hrecs]
      intro hhead
      cases hhead
  · rw [if_neg hcln, seqOk, seqOk] at h
    obtain ⟨hop, hrepl, hrecs⟩ := h
    obtain ⟨hstp, hrdy, hgrd⟩ := validateRecords_ok hrecs
    exact ⟨fun h => absurd h hcln, fun _ => validateOperation_ok hop,
      validateReplacement_ok hrepl, hstp, hrdy, hgrd⟩

end Journal

end Usque.Linux
