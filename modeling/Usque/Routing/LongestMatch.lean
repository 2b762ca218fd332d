/-
  Routing rules are applied by longest match.
-/
import Usque.Core.Normal
import Usque.Core.Plain
import Usque.Routing.Policy

namespace Usque.Routing
open Lib Usque.Core List RoutingSettings RoutingSnapshot

variable {P : RoutingRule → Prop} {r : Option RoutingRule} {host : Str} {settings : RoutingSettings}
  {ip : IpAddr}

variable {text : Text} {rules normal : List RoutingRule} {rule : RoutingRule}

def netOf (text : Text) (rule : RoutingRule) : IpNet :=
  (text.parseNet rule.target).getD (.ofAddr (.v4 0))

/-- The length of the domain, or of the network's prefix, of a rule. -/
def specificity (text : Text) (rule : RoutingRule) : ℕ :=
  match rule.kind with
  | .domain => rule.target.len
  | .cidr => (netOf text rule).prefixLen

def MatchesHost (text : Text) (host : Str) (rule : RoutingRule) : Prop :=
  rule.kind = .domain ∧ ∃ name, canonicalBypassDomain text host = some name ∧
    (name = rule.target ∨ ∃ front, name = front ++ '.' :: rule.target)

def MatchesIp (text : Text) (ip : IpAddr) (rule : RoutingRule) : Prop :=
  rule.kind = .cidr ∧ ∃ net, text.parseNet rule.target = some net ∧
    net.contains ip.toCanonical = true

/-- `result` is the action of the most specific of the rules that match, and there
    is none exactly if no rule matches. -/
structure LongestMatch (text : Text) (Matches : RoutingRule → Prop) (rules : List RoutingRule)
    (result : Option RoutingAction) : Prop where
  chosen : ∀ action, result = some action ↔
    ∃ rule, Foremost (specificity text) Matches rules rule ∧ rule.action = action
  absent : result = none ↔ ∀ rule ∈ rules, ¬ Matches rule

theorem LongestMatch.of_selects (h : Selects (specificity text) P rules r) :
    LongestMatch text P rules (r.map RoutingRule.action) := by
  cases r with
  | none =>
    refine ⟨?_, iff_of_true rfl h⟩
    intro action
    simp only [Option.map_none, reduceCtorEq, false_iff, not_exists, not_and]
    intro rule hrule
    exact absurd hrule.holds (h rule hrule.mem)
  | some best =>
    have hbest : Foremost (specificity text) P rules best := h
    constructor
    · intro action
      simp only [Option.map_some, Option.some.injEq]
      constructor
      · intro hact
        exact ⟨best, hbest, hact⟩
      · rintro ⟨rule, hrule, hact⟩
        rw [hbest.unique hrule]
        exact hact
    · simp only [Option.map_some, reduceCtorEq, false_iff, not_forall, not_not]
      exact ⟨best, hbest.mem, hbest.holds⟩

/-! ## Matching -/

variable {domain : Str}

theorem domainMatches_iff :
    domainMatches host domain ↔ host = domain ∨ ∃ front, host = front ++ '.' :: domain := by
  simp only [domainMatches, Bool.or_eq_true, beq_iff_eq, Str.stripSuffix]
  refine or_congr_right ?_
  constructor
  · intro h
    split_ifs at h with hs
    · obtain ⟨front, rfl⟩ := isSuffixOf_iff_suffix.1 hs
      simp only [Option.any_some, beq_iff_eq, length_append, Nat.add_sub_cancel, take_left] at h
      obtain ⟨init, rfl⟩ := getLast?_eq_some_iff.1 h
      exact ⟨init, by simp⟩
    · simp at h
  · rintro ⟨front, rfl⟩
    have hs : domain <:+ front ++ '.' :: domain := ⟨front ++ ['.'], by simp⟩
    have hlen : (front ++ '.' :: domain).length - domain.length = (front ++ ['.']).length := by
      simp
      omega
    have hspl : front ++ '.' :: domain = (front ++ ['.']) ++ domain := by simp
    rw [if_pos (isSuffixOf_iff_suffix.2 hs), hlen, hspl, take_left]
    simp

theorem suffix_of_domainMatches (h : domainMatches host domain) : domain <:+ host := by
  rcases domainMatches_iff.1 h with rfl | ⟨front, rfl⟩
  · exact suffix_refl _
  · exact ⟨front ++ ['.'], by simp⟩

theorem Str.len_append (s t : Str) : Str.len (s ++ t) = s.len + t.len := by
  simp [Str.len]

variable {s : Str}

theorem Str.eq_nil_of_len (h : s.len = 0) : s = [] := by
  cases s with
  | nil => rfl
  | cons c s =>
    have := Char.utf8Size_pos c
    simp only [Str.len, map_cons, sum_cons] at h
    omega

theorem suffix_eq_of_len {t : Str} (hs : s <:+ host) (ht : t <:+ host) (hlen : s.len = t.len) :
    s = t := by
  wlog hle : s.length ≤ t.length generalizing s t
  · exact (this ht hs hlen.symm (by omega)).symm
  · obtain ⟨front, rfl⟩ := suffix_of_suffix_length_le hs ht hle
    rw [Str.len_append] at hlen
    rw [Str.eq_nil_of_len (s := front) (by omega), nil_append]

/-! ## Normal rules -/

theorem target_of_normalized (h : Normalized text rules normal) (hr : rule ∈ normal)
    (hkind : rule.kind = .cidr) : ∃ net, rule.target = text.showNet net ∧ net.Truncated := by
  obtain ⟨given, -, hkey, -⟩ := h.origin rule hr
  have hgiven : given.kind = .cidr := (keyOf_kind hkey).symm.trans hkind
  rw [keyOf, Option.map_eq_some_iff] at hkey
  obtain ⟨target, htgt, heq⟩ := hkey
  have hsame : target = rule.target := congrArg Prod.snd heq
  rw [canonicalTarget, hgiven] at htgt
  obtain ⟨net, -, hshow⟩ := Option.map_eq_some_iff.1 htgt
  exact ⟨_, hsame.symm.trans hshow.symm, net.canonicalNetwork_truncated⟩

theorem netOf_eq {net : IpNet} (h : text.parseNet rule.target = some net) :
    netOf text rule = net := by
  rw [netOf, h, Option.getD_some]

/-- No two normal rules with one host are equally specific. -/
theorem keyInjOn_host (h : Normalized text rules normal) (host : Str) :
    KeyInjOn (specificity text) (MatchesHost text host) normal := by
  rintro rule hr rule' hr' ⟨hkind, name, hname, hm⟩ ⟨hkind', name', hname', hm'⟩ hlen
  rw [hname] at hname'
  cases hname'
  simp only [specificity, hkind, hkind'] at hlen
  have htgt : rule.target = rule'.target :=
    suffix_eq_of_len (suffix_of_domainMatches (domainMatches_iff.2 hm))
      (suffix_of_domainMatches (domainMatches_iff.2 hm')) hlen
  exact h.eq_of_key hr hr' (by simp only [RoutingRule.key, hkind, hkind', htgt])

/-- No two normal rules with one address are equally specific. -/
theorem keyInjOn_ip (h : Normalized text rules normal) (ip : IpAddr) :
    KeyInjOn (specificity text) (MatchesIp text ip) normal := by
  rintro rule hr rule' hr' ⟨hkind, net, hnet, hc⟩ ⟨hkind', net', hnet', hc'⟩ hlen
  obtain ⟨shown, htgt, htrunc⟩ := target_of_normalized h hr hkind
  obtain ⟨shown', htgt', htrunc'⟩ := target_of_normalized h hr' hkind'
  simp only [specificity, hkind, hkind', netOf_eq hnet, netOf_eq hnet'] at hlen
  rw [htgt, text.parse_show] at hnet
  rw [htgt', text.parse_show] at hnet'
  cases hnet
  cases hnet'
  have hsame : net = net' := IpNet.eq_of_contains htrunc htrunc' hc hc' hlen
  exact h.eq_of_key hr hr' (by simp only [RoutingRule.key, hkind, hkind', htgt, htgt', hsame])

/-! ## The lookups -/

theorem domainAction_eq (hinj : KeyInjOn (specificity text) (MatchesHost text host) settings.rules)
    (hr : Selects (specificity text) (MatchesHost text host) settings.rules r) :
    settings.domainAction text host = r.map RoutingRule.action := by
  rw [domainAction]
  cases hname : canonicalBypassDomain text host with
  | none =>
    have hnone : Selects (specificity text) (MatchesHost text host) settings.rules none := by
      rintro rule - ⟨-, name, hname', -⟩
      rw [hname] at hname'
      cases hname'
    rw [hr.unique hnone]
    rfl
  | some name =>
    have himage : Image id (specificity text) (MatchesHost text host) settings.rules
        (fun rule => rule.target.len)
        (fun rule => rule.kind = .domain ∧ domainMatches name rule.target)
        settings.rules := by
      constructor
      · rintro rule hmem ⟨hkind, hm⟩
        exact ⟨rule, hmem, ⟨hkind, name, hname, domainMatches_iff.1 hm⟩, rfl⟩
      · rintro rule hmem ⟨hkind, name', hname', hm⟩
        rw [hname] at hname'
        cases hname'
        exact ⟨hmem, hkind, domainMatches_iff.2 hm⟩
      · rintro rule - ⟨hkind, -⟩
        simp only [specificity, hkind, id]
    have hmax := (himage.selects hr).unique (maxByKey_filter (himage.keyInjOn hinj))
    simp only [Option.bind_eq_bind, Option.bind_some, ← hmax]
    cases r <;> rfl

theorem ipAction_eq (hinj : KeyInjOn (specificity text) (MatchesIp text ip) settings.rules)
    (hr : Selects (specificity text) (MatchesIp text ip) settings.rules r) :
    settings.ipAction text ip = r.map RoutingRule.action := by
  rw [ipAction]
  set found := (settings.rules.filter fun rule => rule.kind = .cidr).filterMap fun rule =>
    ((text.parseNet rule.target).filter fun net => net.contains ip.toCanonical).map fun net =>
      (net.prefixLen, rule.action) with hfnd
  have hmem (entry : ℕ × RoutingAction) : entry ∈ found ↔ ∃ rule ∈ settings.rules,
      MatchesIp text ip rule ∧ (specificity text rule, rule.action) = entry := by
    simp only [hfnd, mem_filterMap, mem_filter, decide_eq_true_eq,
      Option.map_eq_some_iff, Option.filter_eq_some_iff]
    constructor
    · rintro ⟨rule, ⟨hrule, hkind⟩, net, ⟨hnet, hc⟩, rfl⟩
      refine ⟨rule, hrule, ⟨hkind, net, hnet, hc⟩, ?_⟩
      simp only [specificity, hkind, netOf_eq hnet]
    · rintro ⟨rule, hrule, ⟨hkind, net, hnet, hc⟩, rfl⟩
      refine ⟨rule, ⟨hrule, hkind⟩, net, ⟨hnet, hc⟩, ?_⟩
      simp only [specificity, hkind, netOf_eq hnet]
  have himage : Image (fun rule => (specificity text rule, rule.action)) (specificity text)
      (MatchesIp text ip) settings.rules Prod.fst (fun _ => True) found := by
    constructor
    · intro entry hent _
      exact (hmem entry).1 hent
    · intro rule hrule hm
      exact ⟨(hmem _).2 ⟨rule, hrule, hm, rfl⟩, trivial⟩
    · intro rule _ _
      rfl
  have hmax := (himage.selects hr).unique (maxByKey_filter (himage.keyInjOn hinj))
  rw [filter_eq_self.2 (by simp)] at hmax
  rw [← hmax, Option.map_map]
  rfl

theorem compile_spec {networks : List (IpNet × RoutingAction)}
    {domains : List (Str × RoutingAction)} (h : compile text rules = .ok (networks, domains)) :
    (∀ entry, entry ∈ networks ↔ ∃ rule ∈ rules, rule.kind = .cidr ∧
        text.parseNet rule.target = some entry.1 ∧ rule.action = entry.2) ∧
      ∀ entry, entry ∈ domains ↔ ∃ rule ∈ rules, rule.kind = .domain ∧
        (rule.target, rule.action) = entry := by
  induction rules generalizing networks domains with
  | nil =>
    cases h
    simp
  | cons rule rules ih =>
    rw [compile] at h
    cases hkind : rule.kind with
    | cidr =>
      simp only [hkind] at h
      cases hnet : text.parseNet rule.target with
      | none => simp [hnet] at h
      | some =>
        simp only [hnet] at h
        cases hrest : compile text rules with
        | error => simp [hrest, bind, Except.bind] at h
        | ok =>
          simp only [hrest, bind, Except.bind, pure, Except.pure] at h
          cases h
          obtain ⟨hn, hd⟩ := ih hrest
          constructor
          · intro entry
            simp only [mem_cons, hn, exists_eq_or_imp, hkind, hnet, true_and, Option.some.injEq]
            refine or_congr_left ?_
            constructor
            · rintro rfl
              exact ⟨rfl, rfl⟩
            · rintro ⟨hfst, hsnd⟩
              exact Prod.ext hfst.symm hsnd.symm
          · intro entry
            simp [hd, hkind]
    | domain =>
      simp only [hkind] at h
      cases hrest : compile text rules with
      | error => simp [hrest, bind, Except.bind] at h
      | ok =>
        simp only [hrest, bind, Except.bind, pure, Except.pure] at h
        cases h
        obtain ⟨hn, hd⟩ := ih hrest
        constructor
        · intro entry
          simp [hn, hkind]
        · intro entry
          simp only [mem_cons, hd, exists_eq_or_imp, hkind, true_and]
          exact or_congr_left eq_comm

theorem compile_ok (h : ∀ rule ∈ rules, rule.kind = .cidr → (text.parseNet rule.target).isSome) :
    ∃ compiled, compile text rules = .ok compiled := by
  induction rules with
  | nil => exact ⟨_, rfl⟩
  | cons rule _ ih =>
    obtain ⟨rest, hrest⟩ := ih fun rule hr => h rule (mem_cons_of_mem _ hr)
    rw [compile]
    cases hkind : rule.kind with
    | cidr =>
      obtain ⟨net, hnet⟩ := Option.isSome_iff_exists.1 (h rule (by simp) hkind)
      simp only [hnet, hrest, bind, Except.bind]
      exact ⟨_, rfl⟩
    | domain =>
      simp only [hrest, bind, Except.bind]
      exact ⟨_, rfl⟩

/-- **A snapshot of accepted rules is compiled, from their normal form.** -/
theorem RoutingSnapshot.new_spec {normal : RoutingSettings}
    (h : settings.normalized text = .ok normal) (revision : ℕ) :
    ∃ networks domains, compile text normal.rules = .ok (networks, domains) ∧
      new text settings revision =
        .ok ⟨revision, normal, sortByKeyReverse (fun entry => entry.1.prefixLen) networks,
          sortByKeyReverse (fun entry => Str.len entry.1) domains⟩ := by
  obtain ⟨-, -, hnorm⟩ := normalized_spec h
  have hprs : ∀ rule ∈ normal.rules, rule.kind = .cidr → (text.parseNet rule.target).isSome := by
    intro rule hr hkind
    obtain ⟨net, htgt, -⟩ := target_of_normalized hnorm hr hkind
    rw [htgt, text.parse_show]
    rfl
  obtain ⟨⟨networks, domains⟩, hcomp⟩ := compile_ok hprs
  refine ⟨networks, domains, hcomp, ?_⟩
  simp only [new, h, hcomp, bind, Except.bind, pure, Except.pure]

section
variable {normal : RoutingSettings} {networks : List (IpNet × RoutingAction)}
  {domains : List (Str × RoutingAction)} {r : Option RoutingRule} {runtimes : Runtimes}
  {policy : GeoDirectPolicy}

theorem customHost_eq (hcomp : compile text normal.rules = .ok (networks, domains))
    (hpol : (policy.routingSnapshot runtimes).value.domains =
      sortByKeyReverse (fun entry => Str.len entry.1) domains)
    (hinj : KeyInjOn (specificity text) (MatchesHost text host) normal.rules)
    (hr : Selects (specificity text) (MatchesHost text host) normal.rules r) :
    policy.customHost text runtimes host = (r.map RoutingRule.action).map .ofAction := by
  rw [GeoDirectPolicy.customHost, hpol]
  have hdomains := (compile_spec hcomp).2
  cases hname : canonicalBypassDomain text host with
  | none =>
    have hnone : Selects (specificity text) (MatchesHost text host) normal.rules none := by
      rintro rule - ⟨-, name, hname', -⟩
      rw [hname] at hname'
      cases hname'
    rw [hr.unique hnone]
    rfl
  | some name =>
    have himage : Image (fun rule => (rule.target, rule.action)) (specificity text)
        (MatchesHost text host) normal.rules (fun entry => Str.len entry.1)
        (fun entry => domainMatches name entry.1) domains := by
      constructor
      · intro entry hent hm
        obtain ⟨rule, hrule, hkind, rfl⟩ := (hdomains entry).1 hent
        exact ⟨rule, hrule, ⟨hkind, name, hname, domainMatches_iff.1 hm⟩, rfl⟩
      · rintro rule hrule ⟨hkind, name', hname', hm⟩
        rw [hname] at hname'
        cases hname'
        exact ⟨(hdomains _).2 ⟨rule, hrule, hkind, rfl⟩, domainMatches_iff.2 hm⟩
      · rintro rule - ⟨hkind, -⟩
        simp only [specificity, hkind]
    have hfind := (himage.selects hr).unique (find_sortByKeyReverse (himage.keyInjOn hinj))
    simp only [Bool.decide_eq_true] at hfind
    simp only [Option.bind_eq_bind, Option.bind_some, ← hfind]
    cases r <;> rfl

theorem customIp_eq (hcomp : compile text normal.rules = .ok (networks, domains))
    (hpol : (policy.routingSnapshot runtimes).value.networks =
      sortByKeyReverse (fun entry => entry.1.prefixLen) networks)
    (hinj : KeyInjOn (specificity text) (MatchesIp text ip) normal.rules)
    (hr : Selects (specificity text) (MatchesIp text ip) normal.rules r) :
    policy.customIp runtimes ip = (r.map RoutingRule.action).map .ofAction := by
  rw [GeoDirectPolicy.customIp, hpol]
  have hnets := (compile_spec hcomp).1
  have himage : Image (fun rule => (netOf text rule, rule.action)) (specificity text)
      (MatchesIp text ip) normal.rules (fun entry => entry.1.prefixLen)
      (fun entry => entry.1.contains ip.toCanonical) networks := by
    constructor
    · intro entry hent hm
      obtain ⟨rule, hrule, hkind, hnet, hact⟩ := (hnets entry).1 hent
      refine ⟨rule, hrule, ⟨hkind, entry.1, hnet, hm⟩, ?_⟩
      exact Prod.ext (netOf_eq hnet) hact
    · rintro rule hrule ⟨hkind, net, hnet, hc⟩
      rw [netOf_eq hnet]
      exact ⟨(hnets _).2 ⟨rule, hrule, hkind, hnet, rfl⟩, hc⟩
    · rintro rule - ⟨hkind, -⟩
      simp only [specificity, hkind]
  have hfind := (himage.selects hr).unique (find_sortByKeyReverse (himage.keyInjOn hinj))
  simp only [Bool.decide_eq_true] at hfind
  simp only [Option.bind_eq_bind, ← hfind]
  cases r <;> rfl

end

/-! ## The order of the rules -/

variable {normal' rules' : List RoutingRule}

section
variable (h : Normalized text rules normal) (h' : Normalized text rules' normal')
  (hperm : rules.Perm rules')
  (hP : ∀ rule rule' : RoutingRule, rule.key = rule'.key → (P rule ↔ P rule'))
include h h' hperm hP

/-- Rules in another order have the same matches of the same specificity. -/
theorem image_of_perm :
    Image (fun rule => (specificity text rule, rule.action)) (specificity text) P normal
      Prod.fst (fun entry => ∃ rule ∈ normal', P rule ∧ (specificity text rule, rule.action) = entry)
      (normal'.map fun rule => (specificity text rule, rule.action)) := by
  have hsame {rule rule' : RoutingRule} (hkey : rule.key = rule'.key) :
      specificity text rule = specificity text rule' := by
    rw [RoutingRule.key, RoutingRule.key, Prod.mk.injEq] at hkey
    simp only [specificity, netOf, hkey]
  constructor
  · rintro entry - ⟨rule', hr', hPr', rfl⟩
    obtain ⟨rule, hr, hkey, hact⟩ := h'.perm h hperm.symm hr'
    exact ⟨rule, hr, (hP _ _ hkey).2 hPr', by rw [hsame hkey, hact]⟩
  · intro rule hr hPr
    obtain ⟨rule', hr', hkey, hact⟩ := h.perm h' hperm hr
    have heq : (specificity text rule', rule'.action) = (specificity text rule, rule.action) := by
      rw [hsame hkey, hact]
    exact ⟨mem_map.2 ⟨rule', hr', heq⟩, rule', hr', (hP _ _ hkey).2 hPr, heq⟩
  · intro rule _ _
    rfl

theorem action_of_perm {r' : Option RoutingRule} (hr : Selects (specificity text) P normal r)
    (hr' : Selects (specificity text) P normal' r') :
    r'.map RoutingRule.action = r.map RoutingRule.action := by
  have heq := ((image_of_perm h h' hperm hP).selects hr).unique
    ((image_of_perm h' h' (.refl _) hP).selects hr')
  have hsnd := congrArg (Option.map Prod.snd) heq
  rw [Option.map_map, Option.map_map] at hsnd
  exact hsnd.symm

end

theorem matchesHost_congr (rule rule' : RoutingRule) (h : rule.key = rule'.key) :
    MatchesHost text host rule ↔ MatchesHost text host rule' := by
  rw [RoutingRule.key, RoutingRule.key, Prod.mk.injEq] at h
  rw [MatchesHost, MatchesHost, h.1, h.2]

theorem matchesIp_congr (rule rule' : RoutingRule) (h : rule.key = rule'.key) :
    MatchesIp text ip rule ↔ MatchesIp text ip rule' := by
  rw [RoutingRule.key, RoutingRule.key, Prod.mk.injEq] at h
  rw [MatchesIp, MatchesIp, h.1, h.2]

/-- Rules in another order are accepted and decide alike. -/
theorem normalized_perm {settings settings' normal : RoutingSettings}
    (h : settings.normalized text = .ok normal) (hperm : settings'.rules.Perm settings.rules) :
    ∃ normal', settings'.normalized text = .ok normal' ∧
      (∀ host, normal'.domainAction text host = normal.domainAction text host) ∧
      ∀ ip, normal'.ipAction text ip = normal.ipAction text ip := by
  obtain ⟨hlen, hacc, hnorm⟩ := normalized_spec h
  obtain ⟨normal', h'⟩ := normalized_ok (hperm.length_eq ▸ hlen) (hacc.perm hperm.symm)
  obtain ⟨-, -, hnorm'⟩ := normalized_spec h'
  refine ⟨normal', h', ?_, ?_⟩
  · intro host
    obtain ⟨r, hr⟩ := exists_selects (keyInjOn_host hnorm host)
    obtain ⟨r', hr'⟩ := exists_selects (keyInjOn_host hnorm' host)
    rw [domainAction_eq (keyInjOn_host hnorm host) hr,
      domainAction_eq (keyInjOn_host hnorm' host) hr']
    exact action_of_perm hnorm hnorm' hperm.symm matchesHost_congr hr hr'
  · intro ip
    obtain ⟨r, hr⟩ := exists_selects (keyInjOn_ip hnorm ip)
    obtain ⟨r', hr'⟩ := exists_selects (keyInjOn_ip hnorm' ip)
    rw [ipAction_eq (keyInjOn_ip hnorm ip) hr, ipAction_eq (keyInjOn_ip hnorm' ip) hr']
    exact action_of_perm hnorm hnorm' hperm.symm matchesIp_congr hr hr'

/-- **Longest match**: the lookups of the compiled snapshot and those of the
    settings give the action of the one most specific rule that matches, in
    whatever order the rules were given. -/
theorem custom_rules_by_longest_match (text : Text) (settings normal : RoutingSettings)
    (revision : ℕ) (h : settings.normalized text = .ok normal) :
    ∃ snapshot, new text settings revision = .ok snapshot ∧
      snapshot.settings = normal ∧
      (∀ runtimes policy, (GeoDirectPolicy.routingSnapshot runtimes policy).value = snapshot →
        (∀ host, policy.customHost text runtimes host =
          (normal.domainAction text host).map .ofAction) ∧
        ∀ ip, policy.customIp runtimes ip = (normal.ipAction text ip).map .ofAction) ∧
      (∀ host, LongestMatch text (MatchesHost text host) normal.rules
        (normal.domainAction text host)) ∧
      (∀ ip, LongestMatch text (MatchesIp text ip) normal.rules (normal.ipAction text ip)) ∧
      ∀ settings' : RoutingSettings, settings'.rules.Perm settings.rules →
        ∃ normal', settings'.normalized text = .ok normal' ∧
          (∀ host, normal'.domainAction text host = normal.domainAction text host) ∧
          ∀ ip, normal'.ipAction text ip = normal.ipAction text ip := by
  obtain ⟨-, -, hnormal⟩ := normalized_spec h
  obtain ⟨networks, domains, hcompile, hnew⟩ := new_spec h revision
  refine ⟨_, hnew, rfl, ?_, ?_, ?_, ?_⟩
  · intro runtimes policy hpolicy
    constructor
    · intro host
      obtain ⟨r, hr⟩ := exists_selects (keyInjOn_host hnormal host)
      rw [domainAction_eq (keyInjOn_host hnormal host) hr]
      exact customHost_eq hcompile (by rw [hpolicy]) (keyInjOn_host hnormal host) hr
    · intro ip
      obtain ⟨r, hr⟩ := exists_selects (keyInjOn_ip hnormal ip)
      rw [ipAction_eq (keyInjOn_ip hnormal ip) hr]
      exact customIp_eq hcompile (by rw [hpolicy]) (keyInjOn_ip hnormal ip) hr
  · intro host
    obtain ⟨r, hr⟩ := exists_selects (keyInjOn_host hnormal host)
    rw [domainAction_eq (keyInjOn_host hnormal host) hr]
    exact .of_selects hr
  · intro ip
    obtain ⟨r, hr⟩ := exists_selects (keyInjOn_ip hnormal ip)
    rw [ipAction_eq (keyInjOn_ip hnormal ip) hr]
    exact .of_selects hr
  · exact fun _ => normalized_perm h

/-- A rule for a network, one for an address in it, and two domains. -/
def sampleRules : List RoutingRule :=
  [⟨1, .cidr, "192.0.2.0/24".toList, .reject⟩, ⟨2, .cidr, "192.0.2.7/32".toList, .direct⟩,
    ⟨3, .domain, "a.b".toList, .direct⟩, ⟨4, .domain, "b".toList, .reject⟩]

/-- The same rules with host bits, as an IPv4-mapped address, in capital letters and with a
    trailing dot, and one of them twice. -/
def spelledRules : List RoutingRule :=
  [⟨1, .cidr, " 192.0.2.9/24".toList, .reject⟩,
    ⟨2, .cidr, "0:0:0:0:0:ffff:c000:207/128".toList, .direct⟩,
    ⟨3, .domain, "A.b".toList, .direct⟩, ⟨4, .domain, "B.".toList, .reject⟩,
    ⟨5, .cidr, "192.0.2.7".toList, .direct⟩]

theorem spelledRules_normalized :
    (mk spelledRules false).normalized plainText = .ok ⟨sampleRules, false⟩ := by
  decide +kernel

theorem custom_rules_by_longest_match_sample :
    (mk spelledRules false).normalized plainText = .ok ⟨sampleRules, false⟩ ∧
      ∃ snapshot, new plainText ⟨spelledRules, false⟩ 1 = .ok snapshot ∧
        LongestMatch plainText (MatchesIp plainText (.v4 0xC0000207)) sampleRules (some .direct) ∧
        LongestMatch plainText (MatchesIp plainText (.v4 0xC0000208)) sampleRules (some .reject) := by
  refine ⟨spelledRules_normalized, ?_⟩
  obtain ⟨snapshot, hnew, -, -, -, hip, -⟩ :=
    custom_rules_by_longest_match plainText ⟨spelledRules, false⟩ _ 1 spelledRules_normalized
  have hinside : (mk sampleRules false).ipAction plainText (.v4 0xC0000207) = some .direct := by
    decide +kernel
  have hnear : (mk sampleRules false).ipAction plainText (.v4 0xC0000208) = some .reject := by
    decide +kernel
  exact ⟨snapshot, hnew, hinside ▸ hip _, hnear ▸ hip _⟩

end Usque.Routing
