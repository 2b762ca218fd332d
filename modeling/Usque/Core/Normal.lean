/-
  What the normalization of routing rules accepts and returns.
-/
import Usque.Core.Routing

namespace Usque.Core
open Lib List

variable {text : Text}

def keyOf (text : Text) (rule : RoutingRule) : Option (RoutingMatch × Str) :=
  (canonicalTarget text rule).map fun target => (rule.kind, target)

variable {key : RoutingMatch × Str}

theorem keyOf_kind {rule : RoutingRule} (h : keyOf text rule = some key) : key.1 = rule.kind := by
  rw [keyOf, Option.map_eq_some_iff] at h
  obtain ⟨target, -, rfl⟩ := h
  rfl

/-- `normal` has one rule for each kind and normal target of `rules`. -/
structure Normalized (text : Text) (rules normal : List RoutingRule) : Prop where
  keys : (normal.map RoutingRule.key).Nodup
  origin : ∀ rule ∈ normal, ∃ given ∈ rules,
    keyOf text given = some rule.key ∧ given.action = rule.action
  covers : ∀ given ∈ rules, ∃ rule ∈ normal,
    keyOf text given = some rule.key ∧ given.action = rule.action

namespace Normalized
variable {rules rules' normal normal' : List RoutingRule}

variable {rule : RoutingRule}

theorem eq_of_key (h : Normalized text rules normal) {rule' : RoutingRule} (hr : rule ∈ normal)
    (hr' : rule' ∈ normal) (hkey : rule.key = rule'.key) : rule = rule' :=
  inj_on_of_nodup_map h.keys hr hr' hkey

/-- The kinds, targets and actions of the result do not depend on the order. -/
theorem perm (h : Normalized text rules normal) (h' : Normalized text rules' normal')
    (hperm : rules.Perm rules') (hr : rule ∈ normal) :
    ∃ rule' ∈ normal', rule'.key = rule.key ∧ rule'.action = rule.action := by
  obtain ⟨given, hgiven, hkey, hact⟩ := h.origin rule hr
  obtain ⟨rule', hr', hkey', hact'⟩ := h'.covers given (hperm.mem_iff.1 hgiven)
  rw [hkey] at hkey'
  exact ⟨rule', hr', (Option.some.inj hkey').symm, hact'.symm.trans hact⟩

end Normalized

/-- Each kind has at most as many different normal targets as there may be rules. -/
def FewTargets (text : Text) (rules : List RoutingRule) : Prop :=
  ∀ kind, ((rules.filterMap (keyOf text)).toFinset.filter fun key => key.1 = kind).card ≤
    MAX_ROUTING_RULES_PER_KIND

/-- The lists of rules that the loop of `normalized` accepts. -/
structure Accepts (text : Text) (rules : List RoutingRule) : Prop where
  distinct : (rules.map RoutingRule.id).Nodup
  nonNil : ∀ rule ∈ rules, rule.id.isNil = false
  canonical : ∀ rule ∈ rules, (keyOf text rule).isSome
  agree : ∀ rule ∈ rules, ∀ rule' ∈ rules, keyOf text rule = keyOf text rule' →
    rule.action = rule'.action
  few : FewTargets text rules

theorem Accepts.perm {rules rules' : List RoutingRule} (h : Accepts text rules)
    (hperm : rules.Perm rules') : Accepts text rules' where
  distinct := (hperm.map _).nodup_iff.1 h.distinct
  nonNil := fun rule hr => h.nonNil rule (hperm.mem_iff.2 hr)
  canonical := fun rule hr => h.canonical rule (hperm.mem_iff.2 hr)
  agree := fun rule hr rule' hr' => h.agree rule (hperm.mem_iff.2 hr) rule' (hperm.mem_iff.2 hr')
  few := by
    intro kind
    have hset : (rules'.filterMap (keyOf text)).toFinset = (rules.filterMap (keyOf text)).toFinset :=
      toFinset_eq_of_perm _ _ (hperm.symm.filterMap _)
    rw [hset]
    exact h.few kind

variable {target : Str}

namespace Normalizing

/-- `ids` holds the identifiers of `done`, which are valid. -/
structure Seen (done : List RoutingRule) (ids : List Uuid) : Prop where
  mem_iff : ∀ id, id ∈ ids ↔ id ∈ done.map RoutingRule.id
  distinct : (done.map RoutingRule.id).Nodup
  nonNil : ∀ rule ∈ done, rule.id.isNil = false

theorem Seen.snoc {done : List RoutingRule} {ids : List Uuid} {rule : RoutingRule}
    (h : Seen done ids) (hid : rule.id.isNil = false) (hfresh : rule.id ∉ ids) :
    Seen (done ++ [rule]) (rule.id :: ids) := by
  constructor
  · intro id
    simp only [mem_cons, h.mem_iff, map_append, mem_append, map_cons,
      map_nil, not_mem_nil, or_false]
    exact or_comm
  · rw [map_append, nodup_append]
    refine ⟨h.distinct, nodup_singleton _, ?_⟩
    intro id hmem id' hmem' heq
    rw [map_cons, map_nil, mem_singleton] at hmem'
    subst hmem' heq
    exact hfresh ((h.mem_iff _).2 hmem)
  · intro rule' hr
    rcases mem_append.1 hr with hr | hr
    · exact h.nonNil rule' hr
    · rw [mem_singleton.1 hr]
      exact hid

/-- The loop after the rules `done`. -/
structure Inv (text : Text) (done : List RoutingRule) (s : Normalizing) : Prop where
  seen : Seen done s.ids
  targets : ∀ key rule, s.targets.lookup key = some rule ↔ rule ∈ s.rules ∧ rule.key = key
  normalized : Normalized text done s.rules
  counts : ∀ kind, s.counts kind = s.rules.countP fun rule => rule.kind = kind
  room : ∀ kind, s.counts kind ≤ MAX_ROUTING_RULES_PER_KIND

theorem start_inv (text : Text) : Inv text [] .start where
  seen := ⟨by simp [start], nodup_nil, by simp⟩
  targets := by simp [start]
  normalized := ⟨by simp [start], by simp [start], by simp⟩
  counts := by intro kind; cases kind <;> rfl
  room := by intro kind; cases kind <;> simp [start, Normalizing.counts]

@[simp] theorem counts_push (s : Normalizing) (rule : RoutingRule) (kind : RoutingMatch) :
    (s.push rule).counts kind = s.counts kind + if rule.kind = kind then 1 else 0 := by
  cases kind <;> rfl

/-- What a round does with a rule that it takes. -/
theorem step_cases {s s' : Normalizing} {rule : RoutingRule} (h : step text s rule = .ok s') :
    rule.id.isNil = false ∧ rule.id ∉ s.ids ∧ ∃ target, canonicalTarget text rule = some target ∧
      ((∃ existing, s.targets.lookup (rule.kind, target) = some existing ∧
          existing.action = rule.action ∧ s' = { s with ids := rule.id :: s.ids }) ∨
        (s.targets.lookup (rule.kind, target) = none ∧
          s.counts rule.kind + 1 ≤ MAX_ROUTING_RULES_PER_KIND ∧
          s' = { s with ids := rule.id :: s.ids }.push { rule with target := target })) := by
  rw [step] at h
  split_ifs at h with hid
  rw [not_or, Bool.not_eq_true] at hid
  refine ⟨hid.1, hid.2, ?_⟩
  cases ht : canonicalTarget text rule with
  | none => simp [ht] at h
  | some target =>
    refine ⟨target, rfl, ?_⟩
    simp only [ht] at h
    cases hl : s.targets.lookup (rule.kind, target) with
    | some existing =>
      simp only [hl] at h
      split_ifs at h with hact
      cases h
      exact .inl ⟨existing, rfl, not_not.1 hact, rfl⟩
    | none =>
      simp only [hl] at h
      split_ifs at h with hcount
      cases h
      exact .inr ⟨rfl, not_lt.1 hcount, rfl⟩

variable {done rules : List RoutingRule} {s s' : Normalizing} {rule : RoutingRule}

section
variable (h : Inv text done s)
include h

theorem Inv.lookup_isNone (hl : s.targets.lookup key = none) :
    ∀ rule ∈ s.rules, rule.key ≠ key := by
  intro rule hr hkey
  rw [(h.targets key rule).2 ⟨hr, hkey⟩] at hl
  cases hl

section
variable (hid : rule.id.isNil = false) (hfresh : rule.id ∉ s.ids)
  (ht : canonicalTarget text rule = some target)
include hid hfresh ht

theorem Inv.push (hl : s.targets.lookup (rule.kind, target) = none)
    (hroom : s.counts rule.kind + 1 ≤ MAX_ROUTING_RULES_PER_KIND) :
    Inv text (done ++ [rule])
      ({ s with ids := rule.id :: s.ids }.push { rule with target := target }) := by
  have hkey : keyOf text rule = some (rule.kind, target) := by simp [keyOf, ht]
  have hnone := h.lookup_isNone hl
  constructor
  · exact h.seen.snoc hid hfresh
  · intro key rule'
    simp only [Normalizing.push, HashMap.lookup_insert_eq, mem_append, mem_singleton]
    split_ifs with hk
    · constructor
      · intro heq
        cases heq
        exact ⟨.inr rfl, hk.symm⟩
      · rintro ⟨hr | rfl, hrkey⟩
        · exact absurd (hrkey.trans hk) (hnone rule' hr)
        · rfl
    · rw [h.targets]
      constructor
      · rintro ⟨hr, hrkey⟩
        exact ⟨.inl hr, hrkey⟩
      · rintro ⟨hr | rfl, hrkey⟩
        · exact ⟨hr, hrkey⟩
        · exact absurd hrkey.symm hk
  · constructor
    · simp only [Normalizing.push, map_append, map_cons, map_nil, nodup_append]
      refine ⟨h.normalized.keys, nodup_singleton _, ?_⟩
      intro key hmem key' hmem' heq
      obtain ⟨rule', hr, rfl⟩ := mem_map.1 hmem
      rw [mem_singleton] at hmem'
      subst hmem'
      exact hnone rule' hr heq
    · intro rule' hr
      rcases mem_append.1 hr with hr | hr
      · obtain ⟨given, hg, hgkey, hact⟩ := h.normalized.origin rule' hr
        exact ⟨given, mem_append_left _ hg, hgkey, hact⟩
      · rw [mem_singleton.1 hr]
        exact ⟨rule, by simp, hkey, rfl⟩
    · intro given hg
      rcases mem_append.1 hg with hg | hg
      · obtain ⟨rule', hr, hgkey, hact⟩ := h.normalized.covers given hg
        exact ⟨rule', mem_append_left _ hr, hgkey, hact⟩
      · rw [mem_singleton.1 hg]
        exact ⟨{ rule with target := target }, by simp [Normalizing.push], hkey, rfl⟩
  · intro kind
    have hcounts : ({ s with ids := rule.id :: s.ids } : Normalizing).counts kind = s.counts kind := by
      cases kind <;> rfl
    rw [counts_push, hcounts, h.counts]
    simp only [Normalizing.push, countP_append, countP_singleton, decide_eq_true_eq]
  · intro kind
    rw [counts_push]
    have := h.room kind
    split_ifs with hkind
    · subst hkind
      exact hroom
    · exact this

theorem Inv.merge {existing : RoutingRule}
    (hl : s.targets.lookup (rule.kind, target) = some existing)
    (hact : existing.action = rule.action) :
    Inv text (done ++ [rule]) { s with ids := rule.id :: s.ids } := by
  have hkey : keyOf text rule = some (rule.kind, target) := by simp [keyOf, ht]
  obtain ⟨hmem, hekey⟩ := (h.targets _ _).1 hl
  constructor
  · exact h.seen.snoc hid hfresh
  · exact h.targets
  · refine ⟨h.normalized.keys, ?_, ?_⟩
    · intro rule' hr
      obtain ⟨given, hg, hgkey, hgaction⟩ := h.normalized.origin rule' hr
      exact ⟨given, mem_append_left _ hg, hgkey, hgaction⟩
    · intro given hg
      rcases mem_append.1 hg with hg | hg
      · exact h.normalized.covers given hg
      · rw [mem_singleton.1 hg]
        exact ⟨existing, hmem, hkey.trans (congrArg some hekey.symm), hact.symm⟩
  · exact h.counts
  · exact h.room

end

theorem step_inv (hs : step text s rule = .ok s') : Inv text (done ++ [rule]) s' := by
  obtain ⟨hid, hfresh, target, ht, hcase⟩ := step_cases hs
  obtain ⟨existing, hl, hact, rfl⟩ | ⟨hl, hroom, rfl⟩ := hcase
  · exact h.merge hid hfresh ht hl hact
  · exact h.push hid hfresh ht hl hroom

/-- **What the loop has after the rules it accepts.** -/
theorem run_inv (hs : run text s rules = .ok s') : Inv text (done ++ rules) s' := by
  induction rules generalizing done s with
  | nil =>
    cases hs
    simpa using h
  | cons rule _ ih =>
    rw [run] at hs
    cases hstep : step text s rule with
    | error => simp [hstep, bind, Except.bind] at hs
    | ok =>
      simp only [hstep, bind, Except.bind] at hs
      have := ih (step_inv h hstep) hs
      rwa [append_assoc] at this

theorem Inv.card_keys (kind : RoutingMatch) :
    ((done.filterMap (keyOf text)).toFinset.filter fun key => key.1 = kind).card =
      s.counts kind := by
  have hset : ((done.filterMap (keyOf text)).toFinset.filter fun key => key.1 = kind) =
      ((s.rules.filter fun rule => rule.kind = kind).map RoutingRule.key).toFinset := by
    ext key
    simp only [Finset.mem_filter, mem_toFinset, mem_filterMap, mem_map,
      mem_filter, decide_eq_true_eq]
    constructor
    · rintro ⟨⟨given, hg, hkey⟩, rfl⟩
      obtain ⟨rule, hr, hkey', -⟩ := h.normalized.covers given hg
      rw [hkey] at hkey'
      cases hkey'
      exact ⟨rule, ⟨hr, rfl⟩, rfl⟩
    · rintro ⟨rule, ⟨hr, rfl⟩, rfl⟩
      obtain ⟨given, hg, hkey, -⟩ := h.normalized.origin rule hr
      exact ⟨⟨given, hg, hkey⟩, rfl⟩
  rw [hset, toFinset_card_of_nodup, length_map, h.counts, countP_eq_length_filter]
  exact h.normalized.keys.sublist (filter_sublist.map _)

theorem Inv.accepts : Accepts text done where
  distinct := h.seen.distinct
  nonNil := h.seen.nonNil
  canonical := by
    intro given hg
    obtain ⟨rule, -, hkey, -⟩ := h.normalized.covers given hg
    simp [hkey]
  agree := by
    intro given hg given' hg' heq
    obtain ⟨rule, hr, hkey, hact⟩ := h.normalized.covers given hg
    obtain ⟨rule', hr', hkey', hact'⟩ := h.normalized.covers given' hg'
    rw [heq, hkey'] at hkey
    have : rule' = rule := h.normalized.eq_of_key hr' hr (Option.some.inj hkey)
    rw [hact, hact', this]
  few := by
    intro kind
    rw [h.card_keys]
    exact h.room kind

theorem step_ok (hacc : Accepts text (done ++ rule :: rules)) :
    ∃ s', step text s rule = .ok s' := by
  have hmem : rule ∈ done ++ rule :: rules := by simp
  have hfresh : rule.id ∉ s.ids := by
    rw [h.seen.mem_iff]
    have := hacc.distinct
    rw [map_append, nodup_append] at this
    exact fun hid => this.2.2 _ hid _ (by simp) rfl
  obtain ⟨key, hkey⟩ := Option.isSome_iff_exists.1 (hacc.canonical rule hmem)
  obtain ⟨target, ht, rfl⟩ := Option.map_eq_some_iff.1 hkey
  rw [step, if_neg (by simp [hacc.nonNil rule hmem, hfresh])]
  simp only [ht]
  cases hl : s.targets.lookup (rule.kind, target) with
  | some existing =>
    obtain ⟨hr, hekey⟩ := (h.targets _ _).1 hl
    obtain ⟨given, hg, hgkey, hact⟩ := h.normalized.origin existing hr
    have heq : keyOf text given = keyOf text rule := by rw [hgkey, hkey, hekey]
    have := hacc.agree given (mem_append_left _ hg) rule hmem heq
    simp only
    rw [if_neg (by simp [← hact, this])]
    exact ⟨_, rfl⟩
  | none =>
    -- the target is one more than those read so far, and the list has few of them
    have hnot : (rule.kind, target) ∉
        (done.filterMap (keyOf text)).toFinset.filter fun key => key.1 = rule.kind := by
      simp only [Finset.mem_filter, mem_toFinset, mem_filterMap, and_true]
      rintro ⟨given, hg, hgkey⟩
      obtain ⟨rule', hr, hkey', -⟩ := h.normalized.covers given hg
      rw [hgkey] at hkey'
      exact h.lookup_isNone hl rule' hr (Option.some.inj hkey').symm
    have hsub : insert (rule.kind, target)
          ((done.filterMap (keyOf text)).toFinset.filter fun key => key.1 = rule.kind) ⊆
        ((done ++ rule :: rules).filterMap (keyOf text)).toFinset.filter
          fun key => key.1 = rule.kind := by
      intro key hk
      simp only [Finset.mem_insert, Finset.mem_filter, mem_toFinset, filterMap_append,
        mem_append, mem_filterMap, mem_cons] at hk ⊢
      rcases hk with rfl | ⟨hk, hkind⟩
      · exact ⟨.inr ⟨rule, .inl rfl, hkey⟩, rfl⟩
      · exact ⟨.inl hk, hkind⟩
    have hcard := (Finset.card_le_card hsub).trans (hacc.few rule.kind)
    rw [Finset.card_insert_of_notMem hnot, h.card_keys] at hcard
    have hcounts : ({ s with ids := rule.id :: s.ids } : Normalizing).counts rule.kind =
        s.counts rule.kind := by
      cases rule.kind <;> rfl
    rw [if_neg (by omega)]
    exact ⟨_, rfl⟩

theorem run_ok (hacc : Accepts text (done ++ rules)) : ∃ s', run text s rules = .ok s' := by
  induction rules generalizing done s with
  | nil => exact ⟨s, rfl⟩
  | cons rule rules ih =>
    obtain ⟨t, ht⟩ := step_ok h hacc
    have hacc' : Accepts text (done ++ [rule] ++ rules) := by simpa using hacc
    obtain ⟨s', hs'⟩ := ih (step_inv h ht) hacc'
    refine ⟨s', ?_⟩
    simp only [run, ht, bind, Except.bind]
    exact hs'

end

end Normalizing

namespace RoutingSettings
variable {settings normal : RoutingSettings}

theorem normalized_run (h : settings.normalized text = .ok normal) :
    ∃ s, Normalizing.run text .start settings.rules = .ok s ∧
      normal = ⟨s.rules, settings.adsEnabled⟩ ∧ Normalizing.Inv text settings.rules s := by
  rw [normalized] at h
  split_ifs at h with hlen
  cases hrun : Normalizing.run text .start settings.rules with
  | error => simp [hrun, bind, Except.bind] at h
  | ok s =>
    simp only [hrun, bind, Except.bind, pure, Except.pure] at h
    cases h
    exact ⟨s, rfl, rfl, Normalizing.run_inv (Normalizing.start_inv text) hrun⟩

/-- **What an accepted list of rules is normalized to.** -/
theorem normalized_spec (h : settings.normalized text = .ok normal) :
    settings.rules.length ≤ MAX_ROUTING_RULES_PER_KIND * 2 ∧ Accepts text settings.rules ∧
      Normalized text settings.rules normal.rules := by
  obtain ⟨s, -, rfl, hinv⟩ := normalized_run h
  rw [normalized] at h
  split_ifs at h with hlen
  exact ⟨not_lt.1 hlen, hinv.accepts, hinv.normalized⟩

/-- **The order of the rules does not decide whether they are accepted.** -/
theorem normalized_ok (hlen : settings.rules.length ≤ MAX_ROUTING_RULES_PER_KIND * 2)
    (hacc : Accepts text settings.rules) : ∃ normal, settings.normalized text = .ok normal := by
  obtain ⟨s, hs⟩ := Normalizing.run_ok (Normalizing.start_inv text) hacc
  refine ⟨⟨s.rules, settings.adsEnabled⟩, ?_⟩
  rw [normalized, if_neg (not_lt.2 hlen)]
  simp only [hs, bind, Except.bind, pure, Except.pure]

end RoutingSettings

end Usque.Core
