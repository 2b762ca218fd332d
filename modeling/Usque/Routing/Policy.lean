/-
  Routing policies (`usque-transport/src/live_routing.rs` and `geo_direct.rs`).

  * A `RoutingSnapshot` holds the rules of one revision, compiled into lists that
    are searched in the order of falling specificity.
  * An `Arc` is a value with the identity of its allocation, which is what
    `Arc::ptr_eq` compares. The runtimes (`LiveRouting`) live in a heap, `Runtimes`;
    a policy names its runtime by its place there, and reads the published
    snapshot unless it holds one of its own.
-/
import Usque.Core.Profile

namespace Usque.Routing
open Lib Usque.Core

/-- `Arc<T>`. -/
structure Arc (α : Type) where
  id : ℕ
  value : α

/-! ## Snapshots -/

structure RoutingSnapshot where
  revision : ℕ
  settings : RoutingSettings
  networks : List (IpNet × RoutingAction)
  domains : List (Str × RoutingAction)

/-- The networks and the domains of normal rules. -/
def compile (text : Text) : List RoutingRule →
    Except ConfigError (List (IpNet × RoutingAction) × List (Str × RoutingAction))
  | [] => .ok ([], [])
  | rule :: rules =>
    match rule.kind with
    | .cidr =>
      match text.parseNet rule.target with
      | none => .error (.invalidRoutingRule rule.id)
      | some net => do
        let (networks, domains) ← compile text rules
        pure ((net, rule.action) :: networks, domains)
    | .domain => do
      let (networks, domains) ← compile text rules
      pure (networks, (rule.target, rule.action) :: domains)

def RoutingSnapshot.new (text : Text) (settings : RoutingSettings) (revision : ℕ) :
    Except ConfigError RoutingSnapshot := do
  let settings ← settings.normalized text
  let (networks, domains) ← compile text settings.rules
  pure
    { revision
      settings
      networks := sortByKeyReverse (fun entry => entry.1.prefixLen) networks
      domains := sortByKeyReverse (fun entry => Str.len entry.1) domains }

/-! ## Policies -/

structure LiveRouting where
  current : Arc RoutingSnapshot

abbrev Runtimes := ℕ → LiveRouting

inductive GeoRoute where
  | tunnel
  | direct
  | reject
deriving DecidableEq

/-- `From<RoutingAction> for GeoRoute`. -/
def GeoRoute.ofAction : RoutingAction → GeoRoute
  | .direct => .direct
  | .reject => .reject
  | .proxy => .tunnel

/-- `dyn GeoDirectClassifier`. -/
structure GeoDirectClassifier where
  hostMatches : Str → Str → Bool
  ipMatches : IpAddr → Str → Bool

structure GeoDirectPolicy where
  classifier : Option GeoDirectClassifier
  countries : List Str
  allowLan : Bool
  networks : List IpNet
  domains : List Str
  routing : ℕ
  frozenRouting : Option (Arc RoutingSnapshot)
  adsEnabled : Bool

def validHost (host : Str) : Bool :=
  let host : Str := (host.trim.reverse.dropWhile (· == '.')).reverse
  !host.isEmpty && host.len ≤ 253 && !host.contains '/' && !host.any isWhitespace

namespace GeoDirectPolicy

/-- `GeoDirectPolicy::disabled`, with the runtime at `routing`. -/
def disabled (routing : ℕ) : GeoDirectPolicy where
  classifier := none
  countries := []
  allowLan := false
  networks := []
  domains := []
  routing := routing
  frozenRouting := none
  adsEnabled := false

/-- `GeoDirectPolicy::with_custom_rules`: the policy, whose runtime is the new one at
    `routing`, and the snapshot that this runtime starts with. -/
def withCustomRules (text : Text) (policy : GeoDirectPolicy) (profile : Profile) (routing : ℕ) :
    Except ConfigError (GeoDirectPolicy × RoutingSnapshot) := do
  let domains ← normalizeBypassDomains text profile.bypassDomains
  let snapshot ← RoutingSnapshot.new text profile.routing 1
  pure
    ({ policy with
        allowLan := profile.allowLan
        domains
        networks := profile.splitExclusions
        routing
        frozenRouting := none
        adsEnabled := profile.routing.adsEnabled },
      snapshot)

variable (text : Text) (runtimes : Runtimes) (policy : GeoDirectPolicy)

def routingSnapshot : Arc RoutingSnapshot :=
  policy.frozenRouting.getD (runtimes policy.routing).current

def freezeRouting : GeoDirectPolicy :=
  { policy with frozenRouting := some (policy.routingSnapshot runtimes) }

def routingRevision : ℕ := (policy.routingSnapshot runtimes).value.revision

def customHost (host : Str) : Option GeoRoute := do
  let host ← canonicalBypassDomain text host
  let entry ← (policy.routingSnapshot runtimes).value.domains.find? fun entry =>
    domainMatches host entry.1
  pure (.ofAction entry.2)

def customIp (ip : IpAddr) : Option GeoRoute := do
  let ip := ip.toCanonical
  let entry ← (policy.routingSnapshot runtimes).value.networks.find? fun entry =>
    entry.1.contains ip
  pure (.ofAction entry.2)

def rejectsIp (ip : IpAddr) : Bool := policy.customIp runtimes ip == some .reject

def isLanDirect (ip : IpAddr) : Bool := policy.allowLan && isLanBypassAddress ip

def needsDirectDns : Bool :=
  !policy.countries.isEmpty || !policy.domains.isEmpty ||
    (policy.routingSnapshot runtimes).value.settings.hasDirectDomains

def hasDirectRoutes : Bool :=
  policy.allowLan || !policy.countries.isEmpty || !policy.networks.isEmpty ||
    !policy.domains.isEmpty || (policy.routingSnapshot runtimes).value.settings.hasDirectRules

/-- `GeoDirectPolicy::route_host`; `ads` are the ads rules in force, if any. -/
def routeHost (ads : Option (Str → Bool)) (host : Str) : GeoRoute :=
  let host := (canonicalBypassDomain text host).getD host
  match policy.customHost text runtimes host with
  | some route => route
  | none =>
    if ads.any (· host) then .reject
    else if (canonicalBypassDomain text host).any fun host =>
        policy.domains.any fun domain => domainMatches host domain then .direct
    else
      match policy.classifier with
      | none => .tunnel
      | some classifier =>
        if policy.countries.isEmpty || !validHost host then .tunnel
        else if policy.countries.any (classifier.hostMatches host) then .direct
        else .tunnel

def routeIp (ip : IpAddr) : GeoRoute :=
  let ip := ip.toCanonical
  match policy.customIp runtimes ip with
  | some route => route
  | none =>
    if policy.isLanDirect ip || policy.networks.any fun network => network.contains ip then .direct
    else
      match policy.classifier with
      | none => .tunnel
      | some classifier =>
        if policy.countries.isEmpty then .tunnel
        else if policy.countries.any (classifier.ipMatches ip) then .direct
        else .tunnel

def resolvedRoute (ads : Option (Str → Bool)) (host : Str) (ip : IpAddr) : GeoRoute :=
  let policy := policy.freezeRouting runtimes
  if policy.rejectsIp runtimes ip then .reject
  else
    match policy.customHost text runtimes host with
    | some route => route
    | none =>
      match policy.customIp runtimes ip with
      | some route => route
      | none =>
        let route := policy.routeHost text runtimes ads host
        if route ≠ .reject ∧ policy.isLanDirect ip = true then .direct else route

end GeoDirectPolicy

end Usque.Routing
