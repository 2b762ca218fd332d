/-
  Domain rules (`usque-geo/src/geosite.rs` and `ads.rs`).
-/
import Usque.Core.Names
import Usque.Lib.Text

namespace Usque.Geo
open Lib Usque.Core List

/-! ## The code -/

/-- `trim_end_matches('.')` -/
def trimEndDots (s : Str) : Str := (s.reverse.dropWhile (· == '.')).reverse

def toAsciiLowercase (s : Str) : Str := s.map Char.toLower

/-- The host as the rules are written. -/
def spelled (host : Str) : Str := toAsciiLowercase (trimEndDots host)

structure GeoSiteSet where
  full : Finset Str
  suffixes : Finset Str
  keywords : List Str

/-- `RegexSet::is_match` is a function of the text. -/
structure AdsRules where
  exact : Finset Str
  suffixes : Finset Str
  isMatch : Str → Bool

def normalizeHost (host : Str) : Option Str :=
  if (spelled host.trim).isEmpty || (spelled host.trim).any (['/', ':'].contains ·) ||
      (spelled host.trim).any isWhitespace then none
  else some (spelled host.trim)

/-- The loops over the texts that `split_once('.')` leaves of the host. -/
def tailHit (suffixes : Finset Str) : Str → Bool
  | [] => false
  | c :: tail =>
    if c = '.' then tail ∈ suffixes || tailHit suffixes tail else tailHit suffixes tail

def suffixHit (host : Str) (suffixes : Finset Str) : Bool :=
  host ∈ suffixes || tailHit suffixes host

def GeoSiteSet.contains (set : GeoSiteSet) (host : Str) : Bool :=
  match normalizeHost host with
  | none => false
  | some host =>
    host ∈ set.full || suffixHit host set.suffixes || set.keywords.any (· <:+: host)

def AdsRules.contains (rules : AdsRules) (host : Str) : Bool :=
  if host.isEmpty || host.len > 253 then false
  else spelled host ∈ rules.exact || rules.isMatch (spelled host) ||
    suffixHit (spelled host) rules.suffixes

/-! ## Suffix rules -/

/-- A rule of the set is the host, or a dot and the rule end the host. -/
def Under (suffixes : Finset Str) (host : Str) : Prop :=
  ∃ rule ∈ suffixes, host = rule ∨ '.' :: rule <:+ host

variable {suffixes : Finset Str} {host : Str}

theorem tailHit_iff : tailHit suffixes host ↔ ∃ rule ∈ suffixes, '.' :: rule <:+ host := by
  induction host with
  | nil => simp [tailHit]
  | cons _ _ ih =>
    simp only [tailHit, suffix_cons_iff, cons.injEq, and_or_left, exists_or, ← ih]
    split_ifs with hc
    · simp [hc]
    · simp [Ne.symm hc]

theorem suffixHit_iff : suffixHit host suffixes ↔ Under suffixes host := by
  rw [suffixHit, Bool.or_eq_true, decide_eq_true_iff, tailHit_iff]
  simp only [Under, and_or_left, exists_or, exists_eq_right']

/-! ## Spelling -/

theorem isWhitespace_toLower (c : Char) : isWhitespace c.toLower = isWhitespace c := by
  rcases toLower_cases c with h | ⟨h1, h2, h3⟩
  · rw [h]
  · rw [isWhitespace, isWhitespace, Bool.eq_iff_iff]
    simp
    omega

theorem toLower_eq_dot (c : Char) : (c.toLower == '.') = (c == '.') := by
  rcases toLower_cases c with h | ⟨h1, h2, h3⟩
  · rw [h]
  · have hne : ∀ d : Char, 65 ≤ d.toNat → (d == '.') = false := by
      intro d hd
      simp only [beq_eq_false_iff_ne]
      rintro rfl
      exact absurd hd (by decide)
    rw [hne _ h1, hne _ (by omega)]

theorem len_toAsciiLowercase (s : Str) : (toAsciiLowercase s).len = s.len := by
  have hsize : ∀ c : Char, c.toLower.utf8Size = c.utf8Size := by
    intro c
    rcases toLower_cases c with h | ⟨h1, h2, h3⟩
    · rw [h]
    · have hone : ∀ d : Char, d.toNat ≤ 127 → d.utf8Size = 1 := fun d hd =>
        Char.utf8Size_eq_one_iff.2 (UInt32.le_iff_toNat_le.2 hd)
      rw [hone c (by omega), hone _ (by omega)]
  simp [Str.len, toAsciiLowercase, Function.comp_def, hsize]

theorem spelled_eq (s : Str) : spelled s = trimEndDots (toAsciiLowercase s) := by
  simp [spelled, toAsciiLowercase, trimEndDots, ← map_reverse, dropWhile_map, Function.comp_def,
    toLower_eq_dot]

theorem trim_lower (s : Str) : toAsciiLowercase s.trim = Str.trim (toAsciiLowercase s) := by
  simp [toAsciiLowercase, Str.trim, ← map_reverse, dropWhile_map, Function.comp_def,
    isWhitespace_toLower]

/-! ## Matching -/

def Plain (host : Str) : Prop :=
  host ≠ [] ∧ ∀ c ∈ host, c ≠ '/' ∧ c ≠ ':' ∧ isWhitespace c = false

def GeoSiteSet.Matches (set : GeoSiteSet) (host : Str) : Prop :=
  host ∈ set.full ∨ Under set.suffixes host ∨ ∃ keyword ∈ set.keywords, keyword <:+: host

def AdsRules.Matches (rules : AdsRules) (host : Str) : Prop :=
  host ∈ rules.exact ∨ rules.isMatch host ∨ Under rules.suffixes host

section
variable (set : GeoSiteSet) (rules : AdsRules)

theorem GeoSiteSet.contains_iff (host : Str) :
    set.contains host ↔ Plain (spelled host.trim) ∧ set.Matches (spelled host.trim) := by
  have hplain : Plain (spelled host.trim) ↔ ¬ ((spelled host.trim).isEmpty ||
      (spelled host.trim).any (['/', ':'].contains ·) || (spelled host.trim).any isWhitespace) := by
    simp [Plain, imp_and, forall_and, and_assoc]
  rw [contains, normalizeHost, hplain]
  split_ifs with h
  · exact iff_of_false id fun hm => hm.1 h
  · rw [and_iff_right h]
    simp [Matches, suffixHit_iff, or_assoc]

theorem AdsRules.contains_iff (host : Str) :
    rules.contains host ↔ (host ≠ [] ∧ host.len ≤ 253) ∧ rules.Matches (spelled host) := by
  rw [contains]
  split_ifs with h
  · exact iff_of_false id fun hm => by simp [hm.1, Nat.not_lt.2 hm.1.2] at h
  · rw [and_iff_right (by simpa using h)]
    simp [Matches, suffixHit_iff, or_assoc]

theorem spelled_last {c : Char} (h : (spelled host).getLast? = some c) : c ≠ '.' := by
  rintro rfl
  rw [spelled_eq, trimEndDots, getLast?_reverse] at h
  have hdrop := head?_dropWhile_not (· == '.') (toAsciiLowercase host).reverse
  simp [h] at hdrop

theorem spelled_spelled (s : Str) : spelled (spelled s) = spelled s := by
  have hdrop (l : Str) : (l.dropWhile (· == '.')).dropWhile (· == '.') = l.dropWhile (· == '.') := by
    induction l with
    | nil => rfl
    | cons c l ih => by_cases hc : c = '.' <;> simp [hc, ih]
  simp [spelled, toAsciiLowercase, trimEndDots, ← map_reverse, dropWhile_map, Function.comp_def,
    toLower_eq_dot, toLower_toLower, hdrop]

theorem mem_of_mem_spelled {c : Char} (h : c ∈ spelled host.trim) : c ∈ toAsciiLowercase host := by
  obtain ⟨d, hd, rfl⟩ := mem_map.1 h
  have hmem : d ∈ host.trim := mem_reverse.1 ((dropWhile_sublist _).mem (mem_reverse.1 hd))
  have hdrop : d ∈ (host.dropWhile isWhitespace).reverse :=
    (dropWhile_sublist _).mem (mem_reverse.1 hmem)
  exact mem_map_of_mem ((dropWhile_sublist _).mem (mem_reverse.1 hdrop))

/-- Lower-casing a host leaves its spelling and, behind it, dots. -/
theorem lower_cases {c : Char} (h : c ∈ toAsciiLowercase host) : c ∈ spelled host ∨ c = '.' := by
  have hspl := takeWhile_append_dropWhile (p := (· == '.')) (l := (toAsciiLowercase host).reverse)
  rw [← mem_reverse, ← hspl, mem_append] at h
  rcases h with h | h
  · exact .inr (by simpa using mem_takeWhile_imp h)
  · exact .inl (by rw [spelled_eq, trimEndDots]; exact mem_reverse.2 h)

theorem trim_of_spelled (h : ∀ c ∈ spelled host, isWhitespace c = false) : host.trim = host := by
  refine trim_of_plain fun c hc => ?_
  rw [← isWhitespace_toLower]
  rcases lower_cases (mem_map_of_mem (f := Char.toLower) hc) with hs | hdot
  · exact h _ hs
  · rw [hdot]
    rfl

/-- What `push_full`, `push_suffix` and `push_keyword` store. -/
structure GeoSiteSet.Loaded (set : GeoSiteSet) : Prop where
  rules : ∀ rule ∈ set.full ∪ set.suffixes, Plain rule ∧ spelled rule = rule
  keywords : ∀ keyword ∈ set.keywords,
    keyword ≠ [] ∧ keyword.trim = keyword ∧ toAsciiLowercase keyword = keyword

theorem not_matches_blank (hloaded : set.Loaded) (h : ∀ c ∈ host, isWhitespace c = true) :
    ¬ set.Matches host := by
  have hblank {rule : Str} (hr : rule ∈ set.full ∪ set.suffixes) : rule ≠ host := by
    rintro rfl
    obtain ⟨hne, hplain⟩ := (hloaded.rules _ hr).1
    obtain ⟨c, hc⟩ := exists_mem_of_ne_nil _ hne
    exact absurd (h c hc) (by simp [(hplain c hc).2.2])
  rintro (hfull | ⟨rule, hr, rfl | hsuffix⟩ | ⟨keyword, hk, hsub⟩)
  · exact hblank (Finset.mem_union_left _ hfull) rfl
  · exact hblank (Finset.mem_union_right _ hr) rfl
  · exact absurd (h '.' (hsuffix.subset (mem_cons_self ..))) (by decide)
  · obtain ⟨hne, htrim, -⟩ := hloaded.keywords keyword hk
    have hall : keyword.dropWhile isWhitespace = [] :=
      dropWhile_eq_nil_iff.2 fun c hc => h c (hsub.subset hc)
    exact hne (htrim ▸ by simp [Str.trim, hall])

/-- A loaded set follows its rules at a host exactly if the spelling of the host is blank, or
    has no slash, colon or white space. -/
theorem geoSite_follows_iff (host : Str) :
    (∀ set : GeoSiteSet, set.Loaded → (set.contains host ↔ set.Matches (spelled host))) ↔
      (∀ c ∈ spelled host, isWhitespace c = true) ∨
        ∀ c ∈ spelled host, c ≠ '/' ∧ c ≠ ':' ∧ isWhitespace c = false := by
  constructor
  · intro hall
    by_contra hneither
    rw [not_or] at hneither
    obtain ⟨hblank, hbad⟩ := hneither
    by_cases hplain : Plain (spelled host.trim)
    · -- the host is trimmed to a rule
      have hiff := hall ⟨{spelled host.trim}, ∅, []⟩ ⟨by simpa using ⟨hplain, spelled_spelled _⟩, by simp⟩
      rw [GeoSiteSet.contains_iff] at hiff
      have heq := hiff.1 ⟨hplain, .inl (by simp)⟩
      simp only [GeoSiteSet.Matches, Finset.mem_singleton, Under, Finset.notMem_empty, false_and,
        exists_false, not_mem_nil, or_false] at heq
      exact hbad (heq ▸ hplain.2)
    · -- the host is refused, whatever keyword it has
      push Not at hblank
      obtain ⟨c, hc, hspace⟩ := hblank
      have hlower : c.toLower = c := by
        obtain ⟨d, -, rfl⟩ := mem_map.1 hc
        exact toLower_toLower d
      have hiff := hall ⟨∅, ∅, [[c]]⟩ ⟨by simp, by
        simpa [toAsciiLowercase, hlower] using trim_of_plain (by simpa using hspace)⟩
      rw [GeoSiteSet.contains_iff] at hiff
      have hkeyword : [c] <:+: spelled host := (singleton_infix_iff c _).2 hc
      exact hplain (hiff.2 (.inr (.inr ⟨[c], by simp, hkeyword⟩))).1
  · rintro (hblank | hclear) set hloaded
    · rw [GeoSiteSet.contains_iff]
      refine iff_of_false (fun h => ?_) (not_matches_blank set hloaded hblank)
      obtain ⟨hne, hplain⟩ := h.1
      -- what is left of the host is neither blank nor a dot
      have hlast := spelled_last (getLast?_eq_getLast_of_ne_nil hne)
      have hmem := getLast_mem hne
      rcases lower_cases (mem_of_mem_spelled hmem) with h | h
      · exact absurd (hblank _ h) (by simp [(hplain _ hmem).2.2])
      · exact hlast h
    · rw [GeoSiteSet.contains_iff, trim_of_spelled fun c hc => (hclear c hc).2.2]
      refine ⟨And.right, fun h => ⟨⟨fun hnil => ?_, hclear⟩, h⟩⟩
      exact not_matches_blank set hloaded (by simp) (hnil ▸ h)

/-- The ads rules are followed at a host exactly if it is not empty and not too long. -/
theorem ads_follows_iff (host : Str) :
    (∀ rules : AdsRules, (rules.contains host ↔ rules.Matches (spelled host))) ↔
      host ≠ [] ∧ host.len ≤ 253 := by
  constructor
  · intro hall
    have hiff := hall ⟨∅, ∅, fun _ => true⟩
    rw [AdsRules.contains_iff] at hiff
    exact (hiff.2 (.inr (.inl rfl))).1
  · intro h rules
    rw [AdsRules.contains_iff, and_iff_right h]

theorem plain_of_validDnsName {name : Str} (h : validDnsName name = true) :
    name ≠ [] ∧ name.len ≤ 253 ∧ ∀ c ∈ name, isWhitespace c = false := by
  simp only [validDnsName, Bool.and_eq_true, Bool.not_eq_true', Bool.or_eq_false_iff] at h
  exact ⟨by simpa using h.1.1.1.1, by simpa using h.1.1.1.2, by simpa using h.1.2⟩

/-- **Domain rules follow labels and ignore spelling**, at the hosts that the matchers do not
    refuse, and but for a name of 253 bytes with a trailing dot, which the ads rules miss. -/
theorem geo_domains_match (host : Str) {name : Str} (hname : validDnsName name) :
    ((∀ set : GeoSiteSet, set.Loaded → (set.contains host ↔ set.Matches (spelled host))) ↔
      (∀ c ∈ spelled host, isWhitespace c = true) ∨
        ∀ c ∈ spelled host, c ≠ '/' ∧ c ≠ ':' ∧ isWhitespace c = false) ∧
    ((∀ rules : AdsRules, (rules.contains host ↔ rules.Matches (spelled host))) ↔
      host ≠ [] ∧ host.len ≤ 253) ∧
    (∀ name', toAsciiLowercase name' = toAsciiLowercase name →
      (∀ set : GeoSiteSet, set.contains name' = set.contains name) ∧
      ∀ rules : AdsRules, rules.contains name' = rules.contains name) ∧
    (∀ set : GeoSiteSet, set.contains (name ++ ['.']) = set.contains name) ∧
    ((∀ rules : AdsRules, rules.contains (name ++ ['.']) = rules.contains name) ↔
      name.len ≤ 252) := by
  refine ⟨geoSite_follows_iff host, ads_follows_iff host, ?_⟩
  obtain ⟨hne, hmax, hspace⟩ := plain_of_validDnsName hname
  have hspelled : spelled (name ++ ['.']) = spelled name := by simp [spelled, trimEndDots]
  refine ⟨fun name' heq => ⟨fun set => ?_, fun rules => ?_⟩, fun set => ?_, ?_⟩
  · rw [Bool.eq_iff_iff, set.contains_iff, set.contains_iff, spelled_eq, spelled_eq, trim_lower,
      trim_lower, heq]
  · have hlen : name'.len = name.len := by
      rw [← len_toAsciiLowercase, heq, len_toAsciiLowercase]
    have hnil : name' = [] ↔ name = [] := by
      rw [← map_eq_nil_iff, ← toAsciiLowercase, heq, toAsciiLowercase, map_eq_nil_iff]
    rw [Bool.eq_iff_iff, rules.contains_iff, rules.contains_iff, spelled_eq, spelled_eq, heq, hlen,
      Ne, hnil]
  · rw [Bool.eq_iff_iff, set.contains_iff, set.contains_iff, trim_of_plain hspace,
      trim_of_plain, hspelled]
    simpa [or_imp, forall_and] using ⟨hspace, by decide⟩
  · have hlen : (name ++ ['.']).len = name.len + 1 := by simp [Str.len, Char.utf8Size]
    constructor
    · intro hall
      have heq := hall ⟨∅, ∅, fun _ => true⟩
      rw [Bool.eq_iff_iff, AdsRules.contains_iff, AdsRules.contains_iff, hlen] at heq
      have hle := (heq.2 ⟨⟨hne, hmax⟩, .inr (.inl rfl)⟩).1.2
      omega
    · intro hle rules
      rw [Bool.eq_iff_iff, rules.contains_iff, rules.contains_iff, hspelled, hlen]
      exact and_congr_left fun _ => ⟨fun _ => ⟨hne, hmax⟩, fun _ => ⟨by simp, by omega⟩⟩

end

theorem geo_domains_match_sample :
    (∀ set : GeoSiteSet, set.Loaded →
      (set.contains "www.A-b.".toList ↔ set.Matches "www.a-b".toList)) ∧
    (∀ rules : AdsRules, rules.contains "www.a-b.".toList = rules.contains "www.a-b".toList) ∧
    (∀ rules : AdsRules, rules.contains "WWW.a-b".toList = rules.contains "www.a-b".toList) ∧
    ¬ ∀ set : GeoSiteSet, set.Loaded →
      (set.contains "foo/b".toList ↔ set.Matches (spelled "foo/b".toList)) := by
  have hname : validDnsName "www.a-b".toList := by decide
  obtain ⟨hgeo, -, hcase, -, hdot⟩ := geo_domains_match "www.A-b.".toList hname
  obtain ⟨hslash, -⟩ := geo_domains_match "foo/b".toList hname
  have hall : (spelled "www.A-b.".toList).all fun c => c != '/' && c != ':' && !isWhitespace c := by
    decide
  simp only [all_eq_true, Bool.and_eq_true, bne_iff_ne, Bool.not_eq_true', and_assoc] at hall
  refine ⟨hgeo.2 (.inr hall), hdot.2 (by decide), (hcase _ (by decide)).2, fun h => ?_⟩
  rcases hslash.1 h with hspace | hplain
  · exact absurd (hspace 'f' (by decide)) (by decide)
  · exact (hplain '/' (by decide)).1 rfl

def longName : Str :=
  ['.'].intercalate [.replicate 63 'a', .replicate 63 'a', .replicate 63 'a', .replicate 61 'a']

/-- A name of 253 bytes is blocked; with a trailing dot it is not. -/
theorem trailing_dot_unblocked : validDnsName longName ∧ longName.len = 253 ∧
    (AdsRules.mk {longName} ∅ fun _ => false).contains longName = true ∧
    (AdsRules.mk {longName} ∅ fun _ => false).contains (longName ++ ['.']) = false := by
  decide +kernel

end Usque.Geo
