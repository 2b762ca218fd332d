/-
  The groups of settings in a profile, their defaults and their validation
  (`usque-core/src/config/mod.rs`, `chain_exit/mod.rs`, `vpngate/mod.rs`).
-/
import Usque.Core.Routing

namespace Usque

def IpAddr.isLoopback : IpAddr → Bool
  | .v4 addr => addr.toNat / 2 ^ 24 == 127
  | .v6 addr => addr.toNat == 1

/-- `Ipv4Addr::is_link_local` and `Ipv6Addr::is_unicast_link_local`. -/
def IpAddr.isLinkLocal : IpAddr → Bool
  | .v4 addr => addr.toNat / 2 ^ 16 == 169 * 256 + 254
  | .v6 addr => addr.toNat / 2 ^ 118 == 0xFE80 / 2 ^ 6

def IpAddr.isBroadcast : IpAddr → Bool
  | .v4 addr => addr.toNat == 2 ^ 32 - 1
  | .v6 _ => false

def SocketAddr.ip : SocketAddr → IpAddr
  | .v4 addr _ => .v4 addr
  | .v6 addr _ _ _ => .v6 addr

def SocketAddr.port : SocketAddr → UInt16
  | .v4 _ port => port
  | .v6 _ port _ _ => port

namespace Core

def invalidVpnDnsAddress (address : IpAddr) : Bool :=
  address.isUnspecified || address.isLoopback || address.isLinkLocal || address.isMulticast ||
    address.isBroadcast

def invalidDirectDnsBootstrap (address : IpAddr) : Bool :=
  match address with
  | .v4 _ => address.isUnspecified || address.isMulticast || address.isBroadcast
  | .v6 _ => address.isUnspecified || address.isMulticast || address.isLinkLocal

/-! ## DNS settings -/

inductive DnsMode where
  | tunnel
  | localConfigured
  | system
deriving DecidableEq

inductive DirectDnsMode where
  | physicalSystem
  | doh
  | dot
deriving DecidableEq

inductive WarpDnsMode where
  | plain
  | doh
  | dot
deriving DecidableEq

structure DirectDnsSettings where
  mode : DirectDnsMode
  serverName : Str
  dohPath : Str
  bootstrapIps : List IpAddr
  port : UInt16
deriving DecidableEq

structure WarpDnsSettings where
  mode : WarpDnsMode
  serverName : Str
  dohPath : Str
  bootstrapIps : List IpAddr
  port : UInt16
deriving DecidableEq

def MAX_DIRECT_DNS_BOOTSTRAP_IPS : ℕ := 8

namespace DirectDnsSettings

/-- `Default for DirectDnsSettings`. -/
def default : DirectDnsSettings := ⟨.physicalSystem, [], [], [], 0⟩

/-- The check of the path of a DoH server. -/
def invalidDohPath (path : Str) : Bool :=
  256 < path.len || path.head? != some '/' || "//".toList.isPrefixOf path ||
    path.any (fun c => !(33 ≤ c.toNat && c.toNat ≤ 126)) ||
    path.any (fun c => c == '?' || c == '#' || c == '\\') ||
    path.tails.any "://".toList.isPrefixOf

def validateWithBootstrap (text : Text) (settings : DirectDnsSettings) (required : Bool) :
    Except ConfigError Unit :=
  if settings.mode = .physicalSystem then
    rejectIf (settings ≠ default) .nonCanonicalPhysicalDirectDns
  else do
    rejectIf (canonicalDirectDnsName text settings.serverName = none) .invalidDirectDnsServerName
    rejectIf (settings.port = 0) .invalidDirectDnsPort
    rejectIf (required = true ∧ settings.bootstrapIps = []) .missingDirectDnsBootstrapIp
    rejectIf (MAX_DIRECT_DNS_BOOTSTRAP_IPS < settings.bootstrapIps.length)
      (.tooManyDirectDnsBootstrapIps settings.bootstrapIps.length)
    rejectIf (¬ settings.bootstrapIps.Nodup) .duplicateDirectDnsBootstrapIp
    rejectIf (settings.bootstrapIps.any invalidDirectDnsBootstrap = true)
      .invalidDirectDnsBootstrapIp
    rejectIf (settings.mode = .doh ∧ invalidDohPath settings.dohPath = true)
      .invalidDirectDnsDohPath
    rejectIf (settings.mode = .dot ∧ settings.dohPath ≠ []) .directDnsDotPathForbidden

def validate (text : Text) (settings : DirectDnsSettings) : Except ConfigError Unit :=
  settings.validateWithBootstrap text true

end DirectDnsSettings

namespace WarpDnsSettings

/-- `Default for WarpDnsSettings`. -/
def default : WarpDnsSettings := ⟨.plain, [], [], [], 0⟩

def isEncrypted (settings : WarpDnsSettings) : Bool := settings.mode != .plain

def encryptedSettings (settings : WarpDnsSettings) : Option DirectDnsSettings :=
  let encrypted (mode : DirectDnsMode) : DirectDnsSettings :=
    ⟨mode, settings.serverName, settings.dohPath, settings.bootstrapIps, settings.port⟩
  match settings.mode with
  | .plain => none
  | .doh => some (encrypted .doh)
  | .dot => some (encrypted .dot)

/-- The errors of direct DNS settings as those of WARP DNS. -/
def warpError : ConfigError → ConfigError
  | .invalidDirectDnsServerName => .invalidWarpDnsServerName
  | .invalidDirectDnsPort => .invalidWarpDnsPort
  | .missingDirectDnsBootstrapIp => .missingWarpDnsBootstrapIp
  | .tooManyDirectDnsBootstrapIps count => .tooManyWarpDnsBootstrapIps count
  | .duplicateDirectDnsBootstrapIp => .duplicateWarpDnsBootstrapIp
  | .invalidDirectDnsBootstrapIp => .invalidWarpDnsBootstrapIp
  | .invalidDirectDnsDohPath => .invalidWarpDnsDohPath
  | .directDnsDotPathForbidden => .warpDnsDotPathForbidden
  | other => other

def validate (text : Text) (settings : WarpDnsSettings) : Except ConfigError Unit :=
  match settings.encryptedSettings with
  | none => rejectIf (settings ≠ default) .nonCanonicalPlainWarpDns
  | some encrypted => (encrypted.validateWithBootstrap text false).mapError warpError

end WarpDnsSettings

/-! ## Endpoints -/

inductive EndpointSelection where
  | automatic
  | custom
deriving DecidableEq

structure EndpointSettings where
  ipv4 : BitVec 32
  ipv6 : BitVec 128
  port : UInt16
  sni : Str
  selection : EndpointSelection
  presetRegion : Option EndpointPresetRegion

namespace EndpointSettings

/-- `Default for EndpointSettings`. -/
def default : EndpointSettings where
  ipv4 := 0xA29FC602
  ipv6 := 0x26064700010300000000000000000002
  port := 443
  sni := "speed.cloudflare.com".toList
  selection := .automatic
  presetRegion := none

def validate (endpoint : EndpointSettings) : Except ConfigError Unit := do
  rejectIf (endpoint.presetRegion ≠ none ∧ endpoint.selection ≠ .custom)
    .endpointPresetRequiresCustom
  rejectIf (endpoint.port = 0) .invalidPort
  rejectIf (validDnsName endpoint.sni = false) (.invalidSni endpoint.sni)

end EndpointSettings

/-! ## Proxy settings -/

inductive ProxyDnsMode where
  | remote
  | localConfigured
  | system
  | edgeResolved
deriving DecidableEq

structure ProxySettings where
  socks5Listeners : List SocketAddr
  httpListeners : List SocketAddr
  systemProxy : Bool
  udpIdleTimeoutSeconds : ℕ
  dnsMode : ProxyDnsMode
  dnsServers : List IpAddr
  authUsername : Option Str
  authPassword : Option (List UInt8)

def MAX_DNS_SERVERS : ℕ := 8
def MAX_PROXY_LISTENERS_PER_PROTOCOL : ℕ := 16
def MAX_PROXY_AUTH_BYTES : ℕ := 255

def defaultDnsServers : List IpAddr := [.v4 0x01010101, .v6 0x26064700470000000000000000001111]

def validateDnsServers (servers : List IpAddr) : Except ConfigError Unit := do
  rejectIf (servers = []) .missingDnsServer
  rejectIf (MAX_DNS_SERVERS < servers.length) (.tooManyDnsServers servers.length)
  rejectIf (¬ servers.Nodup) .duplicateDnsServer

def validateProxyUsername (username : Str) : Except ConfigError Unit :=
  rejectIf (username = [] ∨ MAX_PROXY_AUTH_BYTES < username.len ∨ ':' ∈ username ∨
    Char.ofNat 0 ∈ username) .invalidProxyAuthUsername

namespace ProxySettings

/-- `Default for ProxySettings`. -/
def default : ProxySettings where
  socks5Listeners := [.v4 0x7F000001 1080, .v6 1 1080 0 0]
  httpListeners := [.v4 0x7F000001 8080, .v6 1 8080 0 0]
  systemProxy := false
  udpIdleTimeoutSeconds := 60
  dnsMode := .remote
  dnsServers := defaultDnsServers
  authUsername := none
  authPassword := none

/-- The loop over the listeners; `seen` are those before them. -/
def validateListeners (seen : List SocketAddr) : List SocketAddr → Except ConfigError Unit
  | [] => .ok ()
  | listener :: listeners => do
    rejectIf (listener.port = 0) .invalidPort
    rejectIf (listener ∈ seen) (.duplicateProxyListener listener)
    validateListeners (listener :: seen) listeners

def listenerAuthUsername (proxy : ProxySettings) : Option Str :=
  proxy.authUsername.filter fun value => !value.isEmpty

def validate (proxy : ProxySettings) : Except ConfigError Unit := do
  rejectIf (MAX_PROXY_LISTENERS_PER_PROTOCOL < proxy.socks5Listeners.length ∨
    MAX_PROXY_LISTENERS_PER_PROTOCOL < proxy.httpListeners.length) .tooManyProxyListeners
  rejectIf (proxy.udpIdleTimeoutSeconds < 1 ∨ 3600 < proxy.udpIdleTimeoutSeconds)
    (.invalidUdpIdleTimeout proxy.udpIdleTimeoutSeconds)
  validateDnsServers proxy.dnsServers
  validateListeners [] (proxy.socks5Listeners ++ proxy.httpListeners)
  match proxy.listenerAuthUsername with
  | none => .ok ()
  | some username => validateProxyUsername username

end ProxySettings

/-! ## Chained exits -/

/-- `vpngate::Selection`. -/
structure VpnGateSelection where
  serverId : Str
  configSha256 : Str

structure VpnGateSettings where
  enabled : Bool
  selection : Option VpnGateSelection

def validHash (value : Str) : Bool :=
  value.len == 64 && value.all fun c => c.isDigit || ('a' ≤ c && c ≤ 'f')

/-- `valid_id` of `vpngate`. -/
def validServerId (value : Str) : Bool :=
  "v1:".toList.isPrefixOf value && validHash (value.drop 3)

/-- `VpnGateSettings::validate` succeeds. -/
def VpnGateSettings.valid (gate : VpnGateSettings) : Bool :=
  !(gate.enabled && gate.selection.isNone) &&
    gate.selection.all fun selection =>
      validServerId selection.serverId && validHash selection.configSha256

inductive ChainSource where
  | openvpnCustom
  | wireguardCustom
  | warpWireguard
  | vpnGate
  | httpProxy
  | socks5Proxy
  | protonVpn
deriving DecidableEq

def ChainSource.isProxy (source : ChainSource) : Bool :=
  source == .httpProxy || source == .socks5Proxy

/-- `chain_exit::Endpoint`. -/
structure ChainEndpoint where
  host : Str
  port : UInt16

structure ChainExitSettings where
  enabled : Bool
  source : ChainSource
  profileId : Option Uuid
  revision : Option Uuid
  endpointOverride : Option ChainEndpoint
  protonServerId : Option Str

/-- `Endpoint::parse` succeeds on the host and the port of the endpoint. -/
def ChainEndpoint.parses (text : Text) (endpoint : ChainEndpoint) : Bool :=
  let host : Str :=
    ((endpoint.host.dropWhile (· == '[')).reverse.dropWhile (· == ']')).reverse
  endpoint.port != 0 &&
    match text.parseAddr host with
    | some ip =>
      !ip.isUnspecified && !ip.isLoopback && !ip.isMulticast && !ip.isLinkLocal && !ip.isBroadcast
    | none =>
      !host.isEmpty && host.len ≤ 253 && (host.splitOn '.').all fun label =>
        !label.isEmpty && Str.len label ≤ 63 && label.head? != some '-' &&
          label.getLast? != some '-' && label.all fun c => c.isAlphanum || c == '-'

/-- `ChainExitSettings::validate` succeeds. -/
def ChainExitSettings.valid (text : Text) (chain : ChainExitSettings) : Bool :=
  !(chain.protonServerId.any fun id =>
      chain.source != .protonVpn || chain.profileId.isNone || 256 < id.len ||
        id.any (fun c => 128 ≤ c.toNat) || id.any isControl) &&
    (chain.endpointOverride.all fun endpoint =>
      chain.source == .warpWireguard && chain.profileId.isSome &&
        (text.parseAddr endpoint.host).isSome && endpoint.parses text) &&
    !(chain.profileId.isSome != chain.revision.isSome ||
      (chain.enabled && chain.source != .vpnGate && chain.profileId.isNone) ||
      (chain.source == .vpnGate && chain.profileId.isSome))

end Core

end Usque
