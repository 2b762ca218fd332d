/-
  Profiles and their validation (`usque-core/src/config/mod.rs`).
-/
import Usque.Core.Settings

namespace Usque.Core

inductive OperatingMode where
  | vpn
  | socks5
  | httpProxy

inductive TransportPolicy where
  | auto
  | http3
  | http2

inductive TlsFingerprint where
  | default
  | chrome155

inductive DataPlaneMode where
  | connectIp
  | l4Proxy
deriving DecidableEq

inductive CongestionControlAlgorithm where
  | cubic
  | reno
  | bbr
  | bbr3

inductive IpPolicy where
  | auto
  | preferIpv4
  | preferIpv6
  | ipv4Only
  | ipv6Only
deriving DecidableEq

structure FrontendSettings where
  tunnel : Bool
  socks5 : Bool
  http : Bool

structure Profile where
  id : Uuid
  name : Str
  mode : OperatingMode
  frontends : FrontendSettings
  transport : TransportPolicy
  tlsFingerprint : TlsFingerprint
  dataPlane : DataPlaneMode
  congestionControl : CongestionControlAlgorithm
  endpoint : EndpointSettings
  ipPolicy : IpPolicy
  mtu : ℕ
  dnsMode : DnsMode
  dnsServers : List IpAddr
  warpDns : WarpDnsSettings
  allowLan : Bool
  disableQuic : Bool
  splitExclusions : List IpNet
  killSwitch : Bool
  autoConnect : Bool
  proxy : ProxySettings
  geoDirectCountries : List Str
  bypassDomains : List Str
  routing : RoutingSettings
  directDns : DirectDnsSettings
  vpnGate : VpnGateSettings
  chainExit : Option ChainExitSettings

def MAX_SPLIT_EXCLUSIONS : ℕ := 256
def MAX_GEO_DIRECT_COUNTRIES : ℕ := 32

/-- `CountryCode::parse`. -/
def parseCountryCode (value : Str) : Option Str :=
  let upper : Str := value.trim.map Char.toUpper
  if upper.len = 2 ∧ upper.all Char.isUpper = true then some upper else none

/-- The loop of `normalize_geo_direct_countries`; `countries` are the codes so far. -/
def normalizeCountries (countries : List Str) : List Str → Except ConfigError (List Str)
  | [] => .ok countries
  | value :: values =>
    match parseCountryCode value with
    | none => .error (.invalidGeoDirectCountry value)
    | some code =>
      if code ∈ countries then .error .duplicateGeoDirectCountry
      else normalizeCountries (countries ++ [code]) values

def normalizeGeoDirectCountries (values : List Str) : Except ConfigError (List Str) :=
  if MAX_GEO_DIRECT_COUNTRIES < values.length then
    .error (.tooManyGeoDirectCountries values.length)
  else normalizeCountries [] values

namespace Profile

section
variable (text : Text) (profile : Profile)

def chainEnabled : Bool :=
  match profile.chainExit with
  | none => profile.vpnGate.enabled
  | some chain => chain.enabled

def usesEncryptedWarpDns : Bool :=
  !profile.chainEnabled && profile.warpDns.isEncrypted

def customChain : Option ChainExitSettings :=
  profile.chainExit.filter fun chain => chain.source != .vpnGate

def validateChain : Except ConfigError Unit :=
  match profile.chainExit with
  | none => rejectIf (profile.vpnGate.valid = false) .invalidVpnGateSelection
  | some chain => do
    rejectIf (chain.valid text = false) .invalidVpnGateSelection
    rejectIf (chain.source = .vpnGate ∧
      ({ profile.vpnGate with enabled := chain.enabled } : VpnGateSettings).valid = false)
      .invalidVpnGateSelection
    rejectIf (chain.source = .vpnGate ∧ chain.enabled = true ∧ profile.vpnGate.selection = none)
      .invalidVpnGateSelection

/-- Whether `validate` finds a DNS server around the tunnel. -/
def bypasses (server : IpAddr) : Bool :=
  profile.splitExclusions.any (fun network => network.contains server) ||
    (profile.endpoint.selection == .custom &&
      (server == .v4 profile.endpoint.ipv4 || server == .v6 profile.endpoint.ipv6)) ||
    (profile.allowLan && isLanBypassAddress server)

def validateTunnelDns : Except ConfigError Unit := do
  rejectIf (profile.dnsMode = .system) .vpnSystemDnsForbidden
  match profile.dnsServers.find? invalidVpnDnsAddress with
  | some server => .error (.invalidVpnDnsServer server)
  | none =>
    match profile.dnsServers.find? fun server =>
        !profile.usesEncryptedWarpDns && profile.bypasses server with
    | some server => .error (.vpnDnsServerBypassed server)
    | none => .ok ()

def validateTunnel : Except ConfigError Unit :=
  if profile.frontends.tunnel = true then profile.validateTunnelDns else .ok ()

/-- The checks of `validate` after the one on the proxy. -/
def validateFrontends : Except ConfigError Unit := do
  rejectIf (profile.proxy.dnsMode = .edgeResolved ∧ profile.dataPlane ≠ .l4Proxy ∧
    profile.customChain.any (fun chain => chain.enabled && chain.source.isProxy) = false)
    .edgeDnsRequiresL4
  rejectIf (profile.frontends.socks5 = true ∧ profile.proxy.socks5Listeners = [])
    .missingSocks5Listener
  rejectIf (profile.frontends.http = true ∧ profile.proxy.httpListeners = []) .missingHttpListener
  rejectIf (profile.proxy.systemProxy = true ∧ profile.frontends.http = false)
    .systemProxyRequiresHttpMode
  rejectIf (profile.proxy.systemProxy = true ∧
    profile.proxy.httpListeners.any (fun listener => listener.ip.isLoopback) = false)
    .systemProxyRequiresLoopback

def validate : Except ConfigError Unit := do
  rejectIf (profile.name.trim = [] ∨ 64 < profile.name.trim.length) .invalidProfileName
  profile.endpoint.validate
  rejectIf (profile.endpoint.presetRegion ≠ none ∧
    ¬ (profile.ipPolicy = .ipv6Only ∨ profile.ipPolicy = .preferIpv6)) .endpointPresetRequiresIpv6
  profile.validateChain text
  rejectIf (profile.mtu < 1280 ∨ 9000 < profile.mtu) (.invalidMtu profile.mtu)
  validateDnsServers profile.dnsServers
  rejectIf (MAX_SPLIT_EXCLUSIONS < profile.splitExclusions.length)
    (.tooManySplitExclusions profile.splitExclusions.length)
  rejectIf (¬ profile.splitExclusions.Nodup) .duplicateSplitExclusion
  let _ ← normalizeGeoDirectCountries profile.geoDirectCountries
  let _ ← normalizeBypassDomains text profile.bypassDomains
  let _ ← profile.routing.normalized text
  profile.directDns.validate text
  profile.warpDns.validate text
  profile.validateTunnel
  profile.proxy.validate
  profile.validateFrontends

end

/-- `Default for Profile`. -/
def default : Profile where
  id := 0x8C30B7719EBD457AB67BBBC74A1DDBA6
  name := "Default".toList
  mode := .vpn
  frontends := ⟨true, true, true⟩
  transport := .auto
  tlsFingerprint := .chrome155
  dataPlane := .connectIp
  congestionControl := .cubic
  endpoint := .default
  ipPolicy := .auto
  mtu := 1280
  dnsMode := .tunnel
  dnsServers := defaultDnsServers
  warpDns := .default
  allowLan := true
  disableQuic := false
  splitExclusions := []
  killSwitch := true
  autoConnect := false
  proxy := .default
  geoDirectCountries := []
  bypassDomains := []
  routing := ⟨[], false⟩
  directDns := .default
  vpnGate := ⟨false, none⟩
  chainExit := none

end Profile

end Usque.Core
