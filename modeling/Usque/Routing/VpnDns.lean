/-
  The DNS servers of a tunnel and the route that the policy of its profile gives
  them.

  `Profile.validate` looks for DNS servers around the tunnel among the split
  exclusions, the custom endpoint and the local networks. The policy looks at the
  routing rules first, and at the canonical form of an address, so a profile that
  passes may still send a DNS server directly: `Bypassed` says when.
-/
import Usque.Lib.Prog
import Usque.Routing.LongestMatch

namespace Usque.Routing
open Lib Usque.Core GeoDirectPolicy Profile Option

def ruleNet (text : Text) (rule : RoutingRule) : Option IpNet :=
  if rule.kind = .cidr then
    ((text.parseNet rule.target.trim).or ((text.parseAddr rule.target.trim).map IpNet.ofAddr)).map
      IpNet.canonicalNetwork
  else none

def Covers (text : Text) (server : IpAddr) (rule : RoutingRule) : Prop :=
  ∃ net, ruleNet text rule = some net ∧ net.contains server.toCanonical = true

def rulePrefix (text : Text) (rule : RoutingRule) : ℕ :=
  ((ruleNet text rule).map fun net => net.prefixLen).getD 0

/-- A longest rule for the address sends it directly, or no rule is for it and a
    split exclusion contains its canonical form. -/
def Bypassed (text : Text) (profile : Profile) (server : IpAddr) : Prop :=
  (∃ rule ∈ profile.routing.rules, Covers text server rule ∧ rule.action = .direct ∧
      ∀ other ∈ profile.routing.rules, Covers text server other →
        rulePrefix text other ≤ rulePrefix text rule) ∨
    ((∀ rule ∈ profile.routing.rules, ¬ Covers text server rule) ∧
      ∃ net ∈ profile.splitExclusions, net.contains server.toCanonical = true)

variable {text : Text} {profile : Profile}

/-- What `validate` leaves to say about the tunnel's DNS. -/
theorem validate_spec (h : profile.validate text = .ok ()) :
    (∃ domains, normalizeBypassDomains text profile.bypassDomains = .ok domains) ∧
      (∃ normal, profile.routing.normalized text = .ok normal) ∧
      (profile.frontends.tunnel → profile.usesEncryptedWarpDns = false →
        ∀ server ∈ profile.dnsServers, profile.bypasses server = false) := by
  simp only [validate, bindOk] at h
  obtain ⟨_, -, _, -, _, -, _, -, _, -, _, -, _, -, _, -, _, -, domains, hdomains, normal, hnorm,
    _, -, _, -, _, htunnel, -⟩ := h
  refine ⟨⟨domains, hdomains⟩, ⟨normal, hnorm⟩, ?_⟩
  intro ht he server hserver
  simp only [validateTunnel, ht, if_true, validateTunnelDns, bindOk] at htunnel
  obtain ⟨_, -, hfind⟩ := htunnel
  cases hinv : profile.dnsServers.find? invalidVpnDnsAddress with
  | some => simp [hinv] at hfind
  | none =>
    simp only [hinv] at hfind
    cases hbypass : profile.dnsServers.find? fun server =>
        !profile.usesEncryptedWarpDns && profile.bypasses server with
    | some => simp [hbypass] at hfind
    | none =>
      have := List.find?_eq_none.1 hbypass server hserver
      simpa [he] using this

/-- A given rule and the normal rule it is merged into are for the same addresses. -/
theorem covers_iff {given rule : RoutingRule} {server : IpAddr}
    (hkey : keyOf text given = some rule.key) :
    (Covers text server given ↔ MatchesIp text server rule) ∧
      (Covers text server given → rulePrefix text given = specificity text rule) := by
  have hkind : rule.kind = given.kind := keyOf_kind hkey
  rw [keyOf, map_eq_some_iff] at hkey
  obtain ⟨target, htgt, heq⟩ := hkey
  have hsame : target = rule.target := congrArg Prod.snd heq
  subst hsame
  by_cases hcidr : given.kind = .cidr
  · have hnet : ∃ net, ruleNet text given = some net ∧ text.parseNet rule.target = some net := by
      rw [canonicalTarget, hcidr] at htgt
      obtain ⟨net, hnet, hshow⟩ := map_eq_some_iff.1 htgt
      refine ⟨net.canonicalNetwork, ?_, ?_⟩
      · rw [ruleNet, if_pos hcidr, hnet, map_some]
      · rw [← hshow, text.parse_show]
    obtain ⟨net, hgiven, hprs⟩ := hnet
    constructor
    · simp only [Covers, hgiven, some.injEq, exists_eq_left', MatchesIp, hkind, hcidr,
        hprs, true_and]
    · intro _
      simp only [rulePrefix, hgiven, specificity, hkind, hcidr, netOf_eq hprs, map_some,
        getD_some]
  · have hnot : ¬ Covers text server given := by
      rintro ⟨net, hnet, -⟩
      simp [ruleNet, hcidr] at hnet
    exact ⟨iff_of_false hnot fun hm => hcidr (hkind.symm.trans hm.1), fun h => absurd h hnot⟩

variable {normal rules : List RoutingRule}

/-- The longest normal rule sends directly exactly if a longest given rule does. -/
theorem direct_iff (h : Normalized text rules normal) (server : IpAddr) :
    (∃ rule, Foremost (specificity text) (MatchesIp text server) normal rule ∧
        rule.action = .direct) ↔
      ∃ given ∈ rules, Covers text server given ∧ given.action = .direct ∧
        ∀ other ∈ rules, Covers text server other → rulePrefix text other ≤ rulePrefix text given := by
  constructor
  · rintro ⟨rule, hrule, hact⟩
    obtain ⟨given, hgiven, hkey, hsame⟩ := h.origin rule hrule.mem
    have hcovers := (covers_iff hkey).1.2 hrule.holds
    refine ⟨given, hgiven, hcovers, hsame.trans hact, ?_⟩
    intro other hoth hc
    obtain ⟨rule', hr', hkey', -⟩ := h.covers other hoth
    rw [(covers_iff hkey).2 hcovers, (covers_iff hkey').2 hc]
    by_cases heq : rule' = rule
    · rw [heq]
    · exact (hrule.beats rule' hr' ((covers_iff hkey').1.1 hc) heq).le
  · rintro ⟨given, hgiven, hc, hact, hlongest⟩
    obtain ⟨rule, hr, hkey, hsame⟩ := h.covers given hgiven
    refine ⟨rule, .of_le (keyInjOn_ip h server) hr ((covers_iff hkey).1.1 hc) ?_,
      hsame.symm.trans hact⟩
    intro rule' hr' hm
    obtain ⟨other, hoth, hkey', -⟩ := h.origin rule' hr'
    have hc' := (covers_iff hkey').1.2 hm
    rw [← (covers_iff hkey').2 hc', ← (covers_iff hkey).2 hc]
    exact hlongest other hoth hc'

theorem uncovered_iff (h : Normalized text rules normal) (server : IpAddr) :
    (∀ rule ∈ normal, ¬ MatchesIp text server rule) ↔ ∀ given ∈ rules, ¬ Covers text server given := by
  constructor
  · intro hnone given hgiven hc
    obtain ⟨rule, hr, hkey, -⟩ := h.covers given hgiven
    exact hnone rule hr ((covers_iff hkey).1.1 hc)
  · intro hnone rule hr hm
    obtain ⟨given, hgiven, hkey, -⟩ := h.origin rule hr
    exact hnone given hgiven ((covers_iff hkey).1.2 hm)

/-- What the route of an address depends on without countries. -/
theorem routeIp_direct_iff {runtimes : Runtimes} {policy : GeoDirectPolicy} {ip : IpAddr}
    (hcountries : policy.countries = []) :
    policy.routeIp runtimes ip = .direct ↔
      policy.customIp runtimes ip = some .direct ∨
        (policy.customIp runtimes ip = none ∧
          (policy.isLanDirect ip ∨ ∃ net ∈ policy.networks, net.contains ip.toCanonical)) := by
  have hcustom : policy.customIp runtimes ip.toCanonical = policy.customIp runtimes ip := by
    simp only [customIp, IpAddr.toCanonical_toCanonical]
  have hlan : policy.isLanDirect ip.toCanonical = policy.isLanDirect ip := by
    simp only [isLanDirect, isLanBypassAddress_toCanonical]
  rw [GeoDirectPolicy.routeIp]
  simp only [hcustom, hlan]
  cases hroute : policy.customIp runtimes ip with
  | some => simp
  | none =>
    simp only [reduceCtorEq, true_and, false_or, Bool.or_eq_true, List.any_eq_true]
    by_cases hd : policy.isLanDirect ip ∨ ∃ net ∈ policy.networks, net.contains ip.toCanonical
    · simp only [hd, if_true]
    · simp only [hd, if_false, iff_false]
      cases policy.classifier <;> simp [hcountries]

/-- **Where the DNS servers of a tunnel go**: a profile that `validate` accepts, with
    the tunnel on and without encrypted WARP DNS, keeps its DNS servers off the
    direct route exactly if none of them is `Bypassed`. -/
theorem vpn_dns_stays_in_tunnel_iff (text : Text) (profile : Profile)
    (hvalid : profile.validate text = .ok ()) (htunnel : profile.frontends.tunnel = true)
    (hplain : profile.usesEncryptedWarpDns = false) (base : GeoDirectPolicy)
    (hcountries : base.countries = []) (routing : ℕ) :
    ∃ policy snapshot, base.withCustomRules text profile routing = .ok (policy, snapshot) ∧
      ∀ runtimes : Runtimes, (runtimes routing).current.value = snapshot →
        ((∀ server ∈ profile.dnsServers, policy.routeIp runtimes server ≠ .direct) ↔
          ∀ server ∈ profile.dnsServers, ¬ Bypassed text profile server) := by
  obtain ⟨⟨domains, hdomains⟩, ⟨normal, hnormal⟩, hservers⟩ := validate_spec hvalid
  obtain ⟨-, -, hspec⟩ := RoutingSettings.normalized_spec hnormal
  obtain ⟨networks, compiled, hcompile, hnew⟩ := RoutingSnapshot.new_spec hnormal 1
  refine ⟨_, _, by
    simp only [withCustomRules, hdomains, hnew, bind, Except.bind, pure, Except.pure]; rfl, ?_⟩
  intro runtimes hruntime
  refine forall₂_congr fun server hserver => not_congr ?_
  have hbypasses := hservers htunnel hplain server hserver
  rw [routeIp_direct_iff (by exact hcountries)]
  obtain ⟨r, hr⟩ := exists_selects (keyInjOn_ip hspec server)
  rw [customIp_eq hcompile (by
    simp only [routingSnapshot, Option.getD_none, hruntime])
    (keyInjOn_ip hspec server) hr]
  have hlongest := LongestMatch.of_selects hr
  have hdirect : (r.map RoutingRule.action).map GeoRoute.ofAction = some .direct ↔
      r.map RoutingRule.action = some .direct := by
    cases r with
    | none => simp
    | some rule => cases hrule : rule.action <;> simp [hrule, GeoRoute.ofAction]
  rw [hdirect, Option.map_eq_none_iff, hlongest.chosen, hlongest.absent, direct_iff hspec,
    uncovered_iff hspec]
  refine or_congr_right (and_congr_right fun _ => ?_)
  -- the local networks are what `validate` has looked at already
  have hlan : (profile.allowLan && isLanBypassAddress server) = false := by
    simp only [bypasses, Bool.or_eq_false_iff] at hbypasses
    exact hbypasses.2
  simp only [isLanDirect, hlan, Bool.false_eq_true, false_or]

/-- A profile with a routing rule that sends its DNS server directly. -/
def directRuleProfile : Profile :=
  { default with
    routing := ⟨[⟨1, .cidr, "1.1.1.1/32".toList, .direct⟩], false⟩ }

/-- A profile with an excluded DNS server that is written as an IPv6 address. -/
def mappedServerProfile : Profile :=
  { default with
    dnsServers := [.v6 0xFFFF09090909]
    splitExclusions := [.v4 9 9 9 9 32 IpNet.le_32] }

/-- The runtimes after a policy was built. -/
def runtimesOf (snapshot : RoutingSnapshot) : Runtimes := fun _ => ⟨⟨0, snapshot⟩⟩

/-- The routes of a profile's DNS servers under the policy built from it. -/
def dnsRoutes (text : Text) (profile : Profile) : Option (List GeoRoute) :=
  match (disabled 0).withCustomRules text profile 0 with
  | .ok (policy, snapshot) =>
    some (profile.dnsServers.map fun server => policy.routeIp (runtimesOf snapshot) server)
  | .error _ => none

theorem vpn_dns_around_tunnel :
    (directRuleProfile.validate plainText = .ok () ∧
      directRuleProfile.frontends.tunnel = true ∧
      directRuleProfile.usesEncryptedWarpDns = false ∧
      dnsRoutes plainText directRuleProfile = some [.direct, .tunnel]) ∧
    (mappedServerProfile.validate plainText = .ok () ∧
      mappedServerProfile.frontends.tunnel = true ∧
      mappedServerProfile.usesEncryptedWarpDns = false ∧
      dnsRoutes plainText mappedServerProfile = some [.direct]) := by
  decide +kernel

/-- A profile whose DNS servers are covered by a direct network and by an exclusion, but
    also by longer rules that keep them in the tunnel. -/
def guardedProfile : Profile :=
  { default with
    dnsServers := [.v4 0x01010101, .v6 0xFFFF09090909]
    splitExclusions := [.v4 9 9 0 0 16 IpNet.le_16]
    routing := ⟨[⟨1, .cidr, "1.1.1.0/24".toList, .direct⟩, ⟨2, .cidr, "1.1.1.1/32".toList, .proxy⟩,
      ⟨3, .cidr, "0:0:0:0:0:ffff:909:909/128".toList, .proxy⟩], false⟩ }

theorem guardedProfile_validate : guardedProfile.validate plainText = .ok () := by decide +kernel

theorem guardedProfile_routes : dnsRoutes plainText guardedProfile = some [.tunnel, .tunnel] := by
  decide +kernel

theorem vpn_dns_stays_in_tunnel_guarded :
    guardedProfile.validate plainText = .ok () ∧
      ∃ policy snapshot,
        (disabled 0).withCustomRules plainText guardedProfile 0 = .ok (policy, snapshot) ∧
        ∀ server ∈ guardedProfile.dnsServers,
          policy.routeIp (runtimesOf snapshot) server ≠ .direct ∧
            ¬ Bypassed plainText guardedProfile server := by
  refine ⟨guardedProfile_validate, ?_⟩
  obtain ⟨policy, snapshot, hpolicy, hiff⟩ := vpn_dns_stays_in_tunnel_iff plainText guardedProfile
    guardedProfile_validate rfl rfl (.disabled 0) rfl 0
  have hroutes := guardedProfile_routes
  simp only [dnsRoutes, hpolicy, Option.some.injEq] at hroutes
  have hkept : ∀ server ∈ guardedProfile.dnsServers,
      policy.routeIp (runtimesOf snapshot) server ≠ .direct := by
    intro server hserver hdirect
    have hmem := List.mem_map_of_mem (f := fun s => policy.routeIp (runtimesOf snapshot) s) hserver
    rw [hroutes] at hmem
    simp [hdirect] at hmem
  have hclear := (hiff (runtimesOf snapshot) rfl).1 hkept
  exact ⟨policy, snapshot, hpolicy, fun server hserver => ⟨hkept server hserver, hclear server hserver⟩⟩

end Usque.Routing
