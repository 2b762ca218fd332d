/-
  Tunnel plans of the agent (`usque-agent/src/plan.rs`), with the endpoint
  policies of `usque-core` that their validation consults.

  * `ValidatedTunnelPlan.validate` is the check that every plan passes before it
    is journaled, and again whenever a journal that holds it is saved or loaded.
-/
import Usque.Core.Network

namespace Usque.Agent
open Core (EndpointPresetRegion EndpointPresetTier)

/-! ## Endpoint policies -/

/-- `std::net::SocketAddr`; the last two fields are zero for IPv4. -/
structure SocketAddr where
  ip : IpAddr
  port : Nat
  flowinfo : Nat
  scopeId : Nat
deriving DecidableEq

inductive Transport where
  | http2
  | http3
deriving DecidableEq

inductive EndpointPool where
  | free
  | warpPlus
deriving DecidableEq

structure AutomaticEndpointPolicy where
  pool : EndpointPool
  port : Nat
  ipv4 : Bool
  ipv6 : Bool
  tcp : Bool
  udp : Bool
deriving DecidableEq

/-- The octet, or segment, of `n` at `i` places of `base` from the right. -/
def digitAt (base i n : Nat) : Nat := n / base ^ i % base

namespace AutomaticEndpointPolicy

/-- The third octet that `permits` matches on for an IPv4 endpoint. -/
def thirdV4 (transport : Transport) (addr : Nat) : Option Nat :=
  let last := digitAt 256 0 addr
  if digitAt 256 3 addr ≠ 162 ∨ digitAt 256 2 addr ≠ 159 then none
  -- the .1 hosts serve HTTP/3 only
  else if transport = .http2 ∧ last = 1 then none
  else if transport = .http3 ∧ ¬ (last = 1 ∨ last = 2) then none
  else some (digitAt 256 1 addr)

def thirdV6 (transport : Transport) (addr : Nat) : Option Nat :=
  let last := digitAt 65536 0 addr
  let between := addr % 2 ^ 80 / 2 ^ 16
  if digitAt 65536 7 addr ≠ 0x2606 ∨ digitAt 65536 6 addr ≠ 0x4700 then none
  else if transport = .http2 ∧ between = 0 ∧ last = 1 then none
  else if transport = .http3 ∧ (between ≠ 0 ∨ ¬ (last = 1 ∨ last = 2)) then none
  else if digitAt 65536 5 addr = 0x103 then some 198
  else if digitAt 65536 5 addr = 0x104 then some 199
  else none

def permits (policy : AutomaticEndpointPolicy) (endpoint : SocketAddr) (transport : Transport) :
    Bool :=
  if policy.port = 0 ∨ endpoint.port ≠ policy.port then false
  else
    let third :=
      match endpoint.ip with
      | .v4 addr => if policy.ipv4 then thirdV4 transport addr.toNat else none
      | .v6 addr => if policy.ipv6 then thirdV6 transport addr.toNat else none
    match third with
    | none => false
    | some third =>
      (third == 199 || policy.pool == .free && third == 198) &&
        match transport with
        | .http2 => policy.tcp
        | .http3 => policy.udp

end AutomaticEndpointPolicy

structure PresetEndpointPolicy where
  hostname : String
  port : Nat
  ipv4Fallback : Option SocketAddr
  tcp : Bool
  udp : Bool
deriving DecidableEq

/-! ## Plans -/

inductive PlanError where
  | presetEndpointPolicy
  | automaticEndpointPolicy
  | endpointCandidateCount (count : Nat)
  | endpointNotCandidate
  | endpointPortMismatch
  | duplicateEndpointFamily
  | controlApiCandidateCount (count : Nat)
  | unsafeControlApiCandidate
  | mtu (size : Nat)
  | dnsCount (count : Nat)
  | exclusionCount (count : Nat)
  | defaultRouteExclusion
  | assignmentFamily (assignment : String)
  | missingAssignment
  | dnsFamilyUnavailable
  | splitDnsServers

def MAX_DNS_SERVERS : Nat := 8
def MAX_SPLIT_EXCLUSIONS : Nat := 128
def MAX_ENDPOINT_CANDIDATES : Nat := 2
def MAX_CONTROL_API_CANDIDATES : Nat := 16
def MIN_MTU : Nat := 1280
def MAX_MTU : Nat := 9000

/-- `Display for PlanError`. -/
def PlanError.message : PlanError → String
  | .presetEndpointPolicy => "invalid built-in preset endpoint policy or candidate set"
  | .automaticEndpointPolicy =>
    "automatic endpoint policy must describe an allowed pool, nonzero port, address family and " ++
      "protocol"
  | .endpointCandidateCount count =>
    "between 1 and " ++ toString MAX_ENDPOINT_CANDIDATES ++
      " endpoint candidates are required, got " ++ toString count
  | .endpointNotCandidate => "the selected endpoint is absent from endpoint_candidates"
  | .endpointPortMismatch => "all endpoint candidates must use the selected endpoint port"
  | .duplicateEndpointFamily =>
    "endpoint_candidates may contain at most one address of each family"
  | .controlApiCandidateCount count =>
    "between 1 and " ++ toString MAX_CONTROL_API_CANDIDATES ++
      " control API candidates are required, got " ++ toString count
  | .unsafeControlApiCandidate =>
    "control API candidates must be usable unicast addresses on TCP/443"
  | .mtu size =>
    "MTU must be between " ++ toString MIN_MTU ++ " and " ++ toString MAX_MTU ++ ", got " ++
      toString size
  | .dnsCount count =>
    "between 1 and " ++ toString MAX_DNS_SERVERS ++ " DNS servers are required, got " ++
      toString count
  | .exclusionCount count =>
    "at most " ++ toString MAX_SPLIT_EXCLUSIONS ++ " split exclusions are accepted, got " ++
      toString count
  | .defaultRouteExclusion => "a /0 split exclusion would bypass the complete VPN"
  | .assignmentFamily assignment =>
    "assigned address has the wrong IP family: " ++ assignment
  | .missingAssignment => "at least one assigned WARP address is required"
  | .dnsFamilyUnavailable => "configured DNS has no matching assigned address family"
  | .splitDnsServers => "Split DNS requires only the Engine-owned internal DNS addresses"

def SPLIT_DNS_IPV4 : IpAddr := (IpNet.v4 198 18 0 1 32).addr
def SPLIT_DNS_IPV6 : IpAddr := (IpNet.v6 0xFD00 1 128).addr

structure ValidatedTunnelPlan where
  profileId : Uuid
  endpoint : SocketAddr
  endpointCandidates : List SocketAddr
  controlApiCandidates : List SocketAddr
  mtu : Nat
  dnsServers : List IpAddr
  splitExclusions : List IpNet
  allowLan : Bool
  killSwitch : Bool
  splitDns : Bool
  assignedIpv4 : Option IpNet
  assignedIpv6 : Option IpNet
  vpnChain : Bool
  deferNetworkConfiguration : Bool
  automaticEndpointPolicy : Option AutomaticEndpointPolicy
  presetEndpointPolicy : Option PresetEndpointPolicy
deriving DecidableEq

def PresetEndpointPolicy.validate (policy : PresetEndpointPolicy) : Except PlanError Unit :=
  let known := [EndpointPresetRegion.us, .de, .fi].any fun region =>
    [EndpointPresetTier.free, .plus, .zeroTrust].any fun tier =>
      region.hostname tier == policy.hostname
  rejectIf
    (!known || policy.port == 0 || !(policy.tcp || policy.udp) ||
      policy.ipv4Fallback.any fun endpoint =>
        !endpoint.ip.isIpv4 || endpoint.port != policy.port ||
          endpoint.ip.isUnspecified || endpoint.ip.isMulticast)
    .presetEndpointPolicy

def validateAutomaticPolicy (policy : AutomaticEndpointPolicy) : Except PlanError Unit :=
  rejectIf (policy.port == 0 || !(policy.ipv4 || policy.ipv6) || !(policy.tcp || policy.udp))
    .automaticEndpointPolicy

def isAutomaticObservationAnchor (policy : AutomaticEndpointPolicy) (endpoint : SocketAddr) :
    Bool :=
  policy.permits endpoint .http2 || policy.permits endpoint .http3

def validateSplitDns (enabled : Bool) (dnsServers : List IpAddr)
    (assignedIpv4 assignedIpv6 : Option IpNet) : Except PlanError Unit :=
  let expected :=
    (assignedIpv4.map fun _ => SPLIT_DNS_IPV4).toList ++
      (assignedIpv6.map fun _ => SPLIT_DNS_IPV6).toList
  rejectIf (enabled && dnsServers != expected) .splitDnsServers

def validateControlApiCandidates (candidates : List SocketAddr) : Except PlanError Unit := do
  rejectIf (candidates.length > MAX_CONTROL_API_CANDIDATES)
    (.controlApiCandidateCount candidates.length)
  rejectIf
    (candidates.any fun candidate =>
      candidate.port != 443 || candidate.ip.isUnspecified || candidate.ip.isMulticast)
    .unsafeControlApiCandidate

def validateEndpointCandidates (endpoint : SocketAddr) (candidates : List SocketAddr) :
    Except PlanError Unit := do
  rejectIf (candidates.isEmpty || candidates.length > MAX_ENDPOINT_CANDIDATES)
    (.endpointCandidateCount candidates.length)
  rejectIf (!candidates.contains endpoint) .endpointNotCandidate
  rejectIf (candidates.any fun candidate => candidate.port != endpoint.port) .endpointPortMismatch
  let ipv4Count := candidates.countP fun candidate => candidate.ip.isIpv4
  let ipv6Count := candidates.countP fun candidate => candidate.ip.isIpv6
  rejectIf (ipv4Count > 1 || ipv6Count > 1) .duplicateEndpointFamily

def ValidatedTunnelPlan.validate (plan : ValidatedTunnelPlan) : Except PlanError Unit := do
  rejectIf (plan.deferNetworkConfiguration && !plan.vpnChain) .missingAssignment
  rejectIf (!(MIN_MTU ≤ plan.mtu && plan.mtu ≤ MAX_MTU)) (.mtu plan.mtu)
  validateEndpointCandidates plan.endpoint plan.endpointCandidates
  match plan.presetEndpointPolicy with
  | none => pure ()
  | some policy => do
    policy.validate
    rejectIf
      (plan.automaticEndpointPolicy.isSome ||
        plan.endpointCandidates.any fun candidate => candidate.port != policy.port)
      .presetEndpointPolicy
  match plan.automaticEndpointPolicy with
  | none => pure ()
  | some policy => do
    validateAutomaticPolicy policy
    rejectIf
      (plan.endpointCandidates.any fun candidate => !isAutomaticObservationAnchor policy candidate)
      .automaticEndpointPolicy
  if plan.controlApiCandidates.isEmpty then pure ()
  else validateControlApiCandidates plan.controlApiCandidates
  rejectIf (plan.dnsServers.isEmpty || plan.dnsServers.length > MAX_DNS_SERVERS)
    (.dnsCount plan.dnsServers.length)
  rejectIf (plan.splitExclusions.length > MAX_SPLIT_EXCLUSIONS)
    (.exclusionCount plan.splitExclusions.length)
  rejectIf (plan.splitExclusions.any fun net => net.prefixLen == 0) .defaultRouteExclusion
  rejectIf
    ((plan.assignedIpv4.any fun net => !net.addr.isIpv4) ||
      plan.assignedIpv6.any fun net => !net.addr.isIpv6)
    (.assignmentFamily "journal assignment")
  rejectIf (plan.assignedIpv4.isNone && plan.assignedIpv6.isNone) .missingAssignment
  rejectIf
    (plan.dnsServers.all IpAddr.isIpv4 && plan.assignedIpv4.isNone ||
      plan.dnsServers.all IpAddr.isIpv6 && plan.assignedIpv6.isNone)
    .dnsFamilyUnavailable
  validateSplitDns plan.splitDns plan.dnsServers plan.assignedIpv4 plan.assignedIpv6

end Usque.Agent
