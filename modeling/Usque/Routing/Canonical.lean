/-
  Normalized routing rules are canonical: normalizing them again changes nothing.
-/
import Usque.Routing.LongestMatch

namespace Usque.Routing
open Lib Usque.Core List RoutingRule

variable {text : Text} {rule : RoutingRule} {name target : Str}

/-! ## Domains -/

/-- The characters of a valid name are not those that `canonical_direct_dns_name` refuses. -/
theorem plain_of_valid {c : Char} (h : validDnsName name = true) (hc : c ∈ name) :
    (isWhitespace c || isControl c || urlMarks.contains c) = false := by
  simp only [validDnsName, Bool.and_eq_true, Bool.not_eq_true', Bool.or_eq_false_iff,
    all_eq_true] at h
  obtain ⟨⟨-, hspace⟩, hlabels⟩ := h
  have hspace' : isWhitespace c = false := by simpa using any_eq_false.1 hspace c hc
  have hclass : c = '.' ∨ c = '-' ∨ c.isAlphanum = true := by
    have hparts : c ∈ ['.'].intercalate (name.splitOn '.') := by
      rwa [intercalate_splitOn]
    refine (mem_intercalate hparts).imp_right ?_
    rintro ⟨label, hlabel, hmem⟩
    have := (hlabels label hlabel).2 c hmem
    simp only [Bool.or_eq_true, beq_iff_eq] at this
    exact this.symm
  rcases hclass with rfl | rfl | halnum
  · decide
  · decide
  · have hctl : isControl c = false := by
      delta Char.isAlphanum Char.isAlpha Char.isUpper Char.isLower Char.isDigit at halnum
      simp only [Bool.or_eq_true, Bool.and_eq_true, decide_eq_true_eq, ge_iff_le,
        UInt32.le_iff_toNat_le] at halnum
      simp only [isControl, Bool.or_eq_false_iff, Bool.and_eq_false_iff, decide_eq_false_iff_not]
      simp at halnum
      omega
    have hmark : urlMarks.contains c = false := by
      rw [Bool.eq_false_iff]
      intro hmark
      simp only [urlMarks, contains_eq_mem, mem_cons, not_mem_nil, or_false,
        decide_eq_true_eq] at hmark
      rcases hmark with rfl | rfl | rfl | rfl | rfl | rfl | rfl | rfl | rfl | rfl <;>
        simp at halnum
    rw [hspace', hctl, hmark]
    rfl

/-- A name that is canonical stays as it is, if the IDNA conversion keeps its own output. -/
theorem canonicalBypassDomain_again
    (hidna : ∀ name host, text.urlHost name = some host → text.urlHost host = some host)
    (h : canonicalBypassDomain text name = some target) :
    canonicalBypassDomain text target = some target := by
  rw [canonicalBypassDomain, canonicalDirectDnsName] at h
  split_ifs at h
  obtain ⟨host, hhost, h⟩ := Option.bind_eq_some_iff.1 h
  split_ifs at h with hbad
  cases h
  simp only [Bool.or_eq_true, Bool.not_eq_true', not_or, Bool.not_eq_false] at hbad
  obtain ⟨hval, hdns⟩ := hbad
  have hplain : target.any (fun c => isWhitespace c || isControl c || urlMarks.contains c) = false :=
    any_eq_false.2 fun c hc => by rw [plain_of_valid hval hc]; simp
  have hshape := hval
  simp only [validDnsName, Bool.and_eq_true, Bool.not_eq_true', Bool.or_eq_false_iff,
    decide_eq_false_iff_not, beq_eq_false_iff_ne, not_lt] at hshape
  obtain ⟨⟨⟨⟨hnonempty, hlen⟩, hdot⟩, -⟩, -⟩ := hshape
  have hlength : target.length ≤ Str.len target := by
    clear * -
    induction target with
    | nil => simp
    | cons c s ih =>
      have := Char.utf8Size_pos c
      simp only [Str.len, map_cons, sum_cons, length_cons] at ih ⊢
      omega
  have hstrip : (Str.stripSuffix target ['.']).getD target = target := by
    rw [Str.stripSuffix, if_neg]
    · rfl
    · intro hsuf
      obtain ⟨front, rfl⟩ := isSuffixOf_iff_suffix.1 hsuf
      simp at hdot
  rw [canonicalBypassDomain, hstrip, canonicalDirectDnsName, if_neg]
  · simp [hidna _ _ hhost, hval, hdns]
  · simp only [hnonempty, hplain, Bool.or_false, Bool.false_or, decide_eq_true_eq, not_lt]
    omega

/-! ## Networks -/

theorem trunc_of_truncated {net : IpNet} (h : net.Truncated) : net.trunc = net := by
  obtain ⟨addr, len, hlen⟩ := net
  cases addr with
  | v4 addr =>
    have hdvd : 2 ^ (32 - len) ∣ addr.toNat := h
    simp only [IpNet.trunc, Nat.div_mul_cancel hdvd, BitVec.ofNat_toNat, BitVec.setWidth_eq]
  | v6 addr =>
    have hdvd : 2 ^ (128 - len) ∣ addr.toNat := h
    simp only [IpNet.trunc, Nat.div_mul_cancel hdvd, BitVec.ofNat_toNat, BitVec.setWidth_eq]

theorem canonicalNetwork_again (net : IpNet) :
    net.canonicalNetwork.canonicalNetwork = net.canonicalNetwork := by
  have htrunc := trunc_of_truncated net.canonicalNetwork_truncated
  rw [IpNet.canonicalNetwork, htrunc]
  rw [IpNet.canonicalNetwork]
  generalize net.trunc = net'
  obtain ⟨addr, len, h⟩ := net'
  cases addr with
  | v4 => rfl
  | v6 addr =>
    simp only
    cases hm : toIpv4Mapped addr with
    | none => simp only [hm]
    | some =>
      split_ifs with hlen
      · rfl
      · simp only [hm, if_neg hlen]

/-! ## Rules -/

/-- The target of a normalized rule is its own normal form. -/
theorem canonicalTarget_again
    (hidna : ∀ name host, text.urlHost name = some host → text.urlHost host = some host)
    (hshow : ∀ net, (text.showNet net).trim = text.showNet net) {given : RoutingRule}
    (hkey : keyOf text given = some rule.key) : canonicalTarget text rule = some rule.target := by
  have hkind := keyOf_kind hkey
  obtain ⟨target, htgt, heq⟩ := Option.map_eq_some_iff.1 hkey
  have hsame : target = rule.target := congrArg Prod.snd heq
  rw [canonicalTarget, ← hkind, key, hsame] at htgt
  rw [canonicalTarget]
  cases hcase : rule.kind with
  | domain =>
    simp only [hcase] at htgt ⊢
    exact canonicalBypassDomain_again hidna htgt
  | cidr =>
    simp only [hcase] at htgt ⊢
    obtain ⟨net, -, hnet⟩ := Option.map_eq_some_iff.1 htgt
    rw [← hnet, hshow, text.parse_show, Option.some_or, Option.map_some, canonicalNetwork_again]

section
variable {done rules : List RoutingRule} {s s' : Normalizing}

/-- Rules with normal targets and different keys stay as they are. -/
theorem run_again (h : Normalizing.Inv text done s) (hdone : s.rules = done)
    (hrun : Normalizing.run text s rules = .ok s')
    (hcanon : ∀ rule ∈ rules, canonicalTarget text rule = some rule.target)
    (hkeys : ((done ++ rules).map key).Nodup) : s'.rules = done ++ rules := by
  induction rules generalizing done s with
  | nil =>
    cases hrun
    simpa using hdone
  | cons rule _ ih =>
    rw [Normalizing.run] at hrun
    cases hstep : Normalizing.step text s rule with
    | error => simp [hstep, bind, Except.bind] at hrun
    | ok t =>
      simp only [hstep, bind, Except.bind] at hrun
      obtain ⟨-, -, target, htgt, hcase⟩ := Normalizing.step_cases hstep
      cases htgt.symm.trans (hcanon rule (by simp))
      have hpushed : t.rules = done ++ [rule] := by
        obtain ⟨existing, hl, -, -⟩ | ⟨-, -, rfl⟩ := hcase
        · obtain ⟨hmem, hkey⟩ := (h.targets _ _).1 hl
          rw [map_append, nodup_append] at hkeys
          exact absurd hkey (hkeys.2.2 _ (mem_map_of_mem (hdone ▸ hmem)) _
            (mem_map_of_mem mem_cons_self))
        · simp [Normalizing.push, hdone]
      have := ih (Normalizing.step_inv h hstep) hpushed hrun
        (fun rule hr => hcanon rule (mem_cons_of_mem _ hr)) (by simpa using hkeys)
      simpa using this

/-- The rules that are kept are some of the given ones, with their identifiers. -/
theorem ids_of_run (hrun : Normalizing.run text s rules = .ok s') :
    (s'.rules.map RoutingRule.id).Sublist
      (s.rules.map RoutingRule.id ++ rules.map RoutingRule.id) := by
  induction rules generalizing s with
  | nil =>
    cases hrun
    simp
  | cons rule _ ih =>
    rw [Normalizing.run] at hrun
    cases hstep : Normalizing.step text s rule with
    | error => simp [hstep, bind, Except.bind] at hrun
    | ok t =>
      simp only [hstep, bind, Except.bind] at hrun
      obtain ⟨-, -, target, -, hcase⟩ := Normalizing.step_cases hstep
      have hkept : (t.rules.map RoutingRule.id).Sublist
          (s.rules.map RoutingRule.id ++ [rule.id]) := by
        obtain ⟨existing, -, -, rfl⟩ | ⟨-, -, rfl⟩ := hcase
        · exact sublist_append_left ..
        · simp [Normalizing.push]
      simpa using (ih hrun).trans (hkept.append_right _)

end

theorem accepts_of_normalized {normal : List RoutingRule} (hacc : Accepts text rules)
    (hnorm : Normalized text rules normal)
    (hids : (normal.map RoutingRule.id).Sublist (rules.map RoutingRule.id))
    (hkeyOf : ∀ rule ∈ normal, keyOf text rule = some rule.key) : Accepts text normal where
  distinct := hacc.distinct.sublist hids
  nonNil := by
    intro rule hr
    obtain ⟨given, hg, hid⟩ := mem_map.1 (hids.subset (mem_map_of_mem hr))
    rw [← hid]
    exact hacc.nonNil given hg
  canonical := fun rule hr => by simp [hkeyOf rule hr]
  agree := by
    intro rule hr rule' hr' heq
    rw [hkeyOf rule hr, hkeyOf rule' hr'] at heq
    rw [hnorm.eq_of_key hr hr' (Option.some.inj heq)]
  few := by
    intro kind
    refine (Finset.card_le_card (Finset.filter_subset_filter _ ?_)).trans (hacc.few kind)
    intro key hkey
    obtain ⟨rule, hr, hrule⟩ := mem_filterMap.1 (mem_toFinset.1 hkey)
    obtain ⟨given, hg, hgiven, -⟩ := hnorm.origin rule hr
    exact mem_toFinset.2 (mem_filterMap.2 ⟨given, hg, hgiven.trans ((hkeyOf rule hr).symm.trans hrule)⟩)

/-- **Normalization is canonical**: what is accepted is normalized once and for all, to few
    rules of different targets, and in whatever order the rules are given they are
    accepted or not, and decide alike. `ipnet` prints a network without white space. -/
theorem routing_normalization_canonical (text : Text)
    (hidna : ∀ name host, text.urlHost name = some host → text.urlHost host = some host)
    (hshow : ∀ net, (text.showNet net).trim = text.showNet net) (settings : RoutingSettings) :
    (∀ normal, settings.normalized text = .ok normal →
      normal.normalized text = .ok normal ∧
      (∀ kind, (normal.rules.countP fun rule => rule.kind = kind) ≤ 256) ∧
      (normal.rules.map key).Nodup ∧
      (∀ rule ∈ normal.rules, canonicalTarget text rule = some rule.target) ∧
      ∀ settings' : RoutingSettings, settings'.rules.Perm settings.rules →
        ∃ normal', settings'.normalized text = .ok normal' ∧
          (∀ host, normal'.domainAction text host = normal.domainAction text host) ∧
          ∀ ip, normal'.ipAction text ip = normal.ipAction text ip) ∧
      ∀ error, settings.normalized text = .error error →
        ∀ settings' : RoutingSettings, settings'.rules.Perm settings.rules →
          ∃ error', settings'.normalized text = .error error' := by
  constructor
  · intro normal h
    obtain ⟨hlen, haccepts, hnormal⟩ := RoutingSettings.normalized_spec h
    obtain ⟨s, hrun, rfl, hinv⟩ := RoutingSettings.normalized_run h
    have hcanonical : ∀ rule ∈ s.rules, canonicalTarget text rule = some rule.target := by
      intro rule hr
      obtain ⟨given, -, hkey, -⟩ := hnormal.origin rule hr
      exact canonicalTarget_again hidna hshow hkey
    have hfew : ∀ kind, (s.rules.countP fun rule => rule.kind = kind) ≤ 256 := by
      intro kind
      rw [← hinv.counts]
      exact hinv.room kind
    refine ⟨?_, hfew, hnormal.keys, hcanonical, fun _ => normalized_perm h⟩
    have hkeyOf : ∀ rule ∈ s.rules, keyOf text rule = some rule.key := by
      intro rule hr
      rw [keyOf, hcanonical rule hr]
      rfl
    have hids : (s.rules.map RoutingRule.id).Sublist (settings.rules.map RoutingRule.id) :=
      ids_of_run hrun
    have hroom := hids.length_le
    rw [length_map, length_map] at hroom
    obtain ⟨normal', h'⟩ : ∃ normal', RoutingSettings.normalized text
        ⟨s.rules, settings.adsEnabled⟩ = .ok normal' :=
      RoutingSettings.normalized_ok (hroom.trans hlen)
        (accepts_of_normalized haccepts hnormal hids hkeyOf)
    obtain ⟨s', hrun', rfl, -⟩ := RoutingSettings.normalized_run h'
    rw [h', run_again (Normalizing.start_inv text) rfl hrun' hcanonical hnormal.keys]
    rfl
  · intro error h settings' hperm
    cases h' : settings'.normalized text with
    | error error' => exact ⟨error', rfl⟩
    | ok =>
      obtain ⟨normal, hnormal, -⟩ := normalized_perm h' hperm.symm
      cases h.symm.trans hnormal

theorem showNet_trim (net : IpNet) : (plainText.showNet net).trim = plainText.showNet net := by
  have hdigit : ∀ d < 16, isWhitespace (Nat.digitChar d) = false := by decide
  refine trim_of_plain fun c hc => ?_
  rcases mem_intercalate hc with rfl | ⟨part, hpart, hc⟩
  · rfl
  · simp only [mem_cons, not_mem_nil, or_false] at hpart
    rcases hpart with rfl | rfl
    · rcases mem_showAddr hc with rfl | rfl | ⟨d, hd, rfl⟩
      · rfl
      · rfl
      · exact hdigit d hd
    · obtain ⟨d, hd, rfl⟩ := mem_toDigits (by decide) (by decide) hc
      exact hdigit d hd

theorem routing_normalization_canonical_sample :
    (RoutingSettings.mk spelledRules false).normalized plainText = .ok ⟨sampleRules, false⟩ ∧
      (RoutingSettings.mk sampleRules false).normalized plainText = .ok ⟨sampleRules, false⟩ ∧
      (sampleRules.map key).Nodup ∧
      ∃ normal, (RoutingSettings.mk spelledRules.reverse false).normalized plainText = .ok normal ∧
        ∀ ip, normal.ipAction plainText ip =
          (RoutingSettings.mk sampleRules false).ipAction plainText ip := by
  have hidna : ∀ name host, plainText.urlHost name = some host → plainText.urlHost host = some host := by
    rintro name _ ⟨⟩
    simp [plainText, toLower_toLower]
  obtain ⟨hagain, -, hkeys, -, hperm⟩ :=
    (routing_normalization_canonical plainText hidna showNet_trim _).1 _ spelledRules_normalized
  obtain ⟨normal, hnormal, -, hip⟩ := hperm ⟨_, false⟩ (reverse_perm spelledRules)
  exact ⟨spelledRules_normalized, hagain, hkeys, normal, hnormal, hip⟩

end Usque.Routing
