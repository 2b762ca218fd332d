/-
  Domain names in the configuration (`usque-core/src/config/mod.rs`), and the
  errors of its validation.

  * A `String` is the list of its characters, `Str`; `len` is its length in bytes.
  * `Text` holds what other crates answer about texts: the host that `Url::parse`
    finds in `https://name/` (where the IDNA mapping is done), whether `rustls`
    takes a text for a DNS name, and the reading and printing of networks by
    `ipnet`, which reads back what it prints.
-/
import Mathlib.Data.List.TakeWhile
import Usque.Core.Network

namespace Usque.Core

abbrev Str := List Char

/-- `str::len`, the number of bytes. -/
def Str.len (s : Str) : ℕ := (s.map Char.utf8Size).sum

def isWhitespace (c : Char) : Bool :=
  let n := c.toNat
  (9 ≤ n && n ≤ 13) || n == 0x20 || n == 0x85 || n == 0xA0 || n == 0x1680 ||
    (0x2000 ≤ n && n ≤ 0x200A) || n == 0x2028 || n == 0x2029 || n == 0x202F || n == 0x205F ||
    n == 0x3000

def isControl (c : Char) : Bool := c.toNat < 0x20 || (0x7F ≤ c.toNat && c.toNat < 0xA0)

def Str.trim (s : Str) : Str :=
  ((s.dropWhile isWhitespace).reverse.dropWhile isWhitespace).reverse

theorem trim_of_plain {target : Str} (h : ∀ c ∈ target, isWhitespace c = false) : target.trim = target := by
  have hdrop {s : Str} (hs : ∀ c ∈ s, isWhitespace c = false) : s.dropWhile isWhitespace = s :=
    List.dropWhile_eq_self_iff.2 fun hlt => by simp [hs _ (List.getElem_mem hlt)]
  rw [Str.trim, hdrop h, hdrop (by simpa using h), List.reverse_reverse]

def Str.stripSuffix (s suffix : Str) : Option Str :=
  if suffix.isSuffixOf s then some (s.take (s.length - suffix.length)) else none

/-- What other crates answer about texts. -/
structure Text where
  /-- `Url::parse(&format!("https://{name}/")).ok()?.host_str()` -/
  urlHost : Str → Option Str
  /-- `ServerName::try_from` finds a DNS name. -/
  isDnsName : Str → Bool
  /-- `IpNet::from_str` -/
  parseNet : Str → Option IpNet
  /-- `IpAddr::from_str` -/
  parseAddr : Str → Option IpAddr
  /-- `IpNet::to_string` -/
  showNet : IpNet → Str
  parse_show : ∀ net, parseNet (showNet net) = some net

/-- `ConfigError`, as far as the validation of a profile raises it. -/
inductive ConfigError where
  | endpointPresetRequiresCustom
  | endpointPresetRequiresIpv6
  | invalidRoutingRule (id : Uuid)
  | routingConflict (existing id : Uuid)
  | routingLimit
  | tooManyBypassDomains
  | invalidBypassDomain (entry : ℕ)
  | invalidVpnGateSelection
  | edgeDnsRequiresL4
  | invalidProfileName
  | invalidSni (sni : Str)
  | invalidPort
  | invalidUdpIdleTimeout (seconds : ℕ)
  | invalidMtu (mtu : ℕ)
  | missingDnsServer
  | tooManyDnsServers (count : ℕ)
  | duplicateDnsServer
  | nonCanonicalPhysicalDirectDns
  | invalidDirectDnsServerName
  | invalidDirectDnsPort
  | missingDirectDnsBootstrapIp
  | tooManyDirectDnsBootstrapIps (count : ℕ)
  | duplicateDirectDnsBootstrapIp
  | invalidDirectDnsBootstrapIp
  | invalidDirectDnsDohPath
  | directDnsDotPathForbidden
  | nonCanonicalPlainWarpDns
  | invalidWarpDnsServerName
  | invalidWarpDnsPort
  | missingWarpDnsBootstrapIp
  | tooManyWarpDnsBootstrapIps (count : ℕ)
  | duplicateWarpDnsBootstrapIp
  | invalidWarpDnsBootstrapIp
  | invalidWarpDnsDohPath
  | warpDnsDotPathForbidden
  | vpnSystemDnsForbidden
  | invalidVpnDnsServer (server : IpAddr)
  | vpnDnsServerBypassed (server : IpAddr)
  | tooManySplitExclusions (count : ℕ)
  | duplicateSplitExclusion
  | tooManyGeoDirectCountries (count : ℕ)
  | duplicateGeoDirectCountry
  | invalidGeoDirectCountry (value : Str)
  | missingSocks5Listener
  | missingHttpListener
  | tooManyProxyListeners
  | duplicateProxyListener (listener : SocketAddr)
  | systemProxyRequiresHttpMode
  | systemProxyRequiresLoopback
  | invalidProxyAuthUsername
deriving DecidableEq

def validDnsName (value : Str) : Bool :=
  !(value.isEmpty || 253 < value.len || value.getLast? == some '.' || value.any isWhitespace) &&
    (value.splitOn '.').all fun label =>
      !label.isEmpty && Str.len label ≤ 63 && label.head? != some '-' && label.getLast? != some '-' &&
        label.all fun c => c.isAlphanum || c == '-'

/-- The characters that a URL gives a meaning. -/
def urlMarks : List Char := [':', '/', '\\', '?', '#', '@', '%', '*', '[', ']']

def canonicalDirectDnsName (text : Text) (name : Str) : Option Str :=
  if name.isEmpty || 253 < name.length ||
      name.any (fun c => isWhitespace c || isControl c || urlMarks.contains c) then none
  else do
    let normalized ← text.urlHost name
    if !validDnsName normalized || !text.isDnsName normalized then none else some normalized

def canonicalBypassDomain (text : Text) (name : Str) : Option Str :=
  canonicalDirectDnsName text ((name.stripSuffix ['.']).getD name)

def MAX_BYPASS_DOMAINS : ℕ := 256

/-- The entries of `values`, the first of them with the number `index`. -/
def normalizeEntries (text : Text) :
    (index : ℕ) → (result values : List Str) → Except ConfigError (List Str)
  | _, result, [] => .ok result
  | index, result, value :: values =>
    match canonicalBypassDomain text value with
    | none => .error (.invalidBypassDomain (index + 1))
    | some name =>
      normalizeEntries text (index + 1) (if name ∈ result then result else result ++ [name]) values

def normalizeBypassDomains (text : Text) (values : List Str) : Except ConfigError (List Str) :=
  if MAX_BYPASS_DOMAINS < values.length then .error .tooManyBypassDomains
  else normalizeEntries text 0 [] values

end Usque.Core
