/-
  Runs of a session of live routing.
-/
import Usque.Core.Plain
import Usque.Lib.Prog
import Usque.Routing.Live

namespace Usque.Routing
open Lib Usque.Core List GeoDirectPolicy RoutingSnapshot LiveRouting Nat

variable {policy : GeoDirectPolicy} {update : PreparedRoutingUpdate} {answer : Answer}
  {h : List (Event Session Call Answer)}

theorem RoutingSnapshot.new_revision {text : Text} {settings : RoutingSettings} {revision : ℕ}
    {snapshot : RoutingSnapshot} (h : new text settings revision = .ok snapshot) :
    snapshot.revision = revision := by
  simp only [new, bindOk] at h
  obtain ⟨normal, -, tables, -, heq⟩ := h
  cases heq
  rfl

/-! ## Policies of one snapshot -/

namespace GeoDirectPolicy
variable {text : Text} {runtimes runtimes' : Runtimes} {policy : GeoDirectPolicy}

theorem routeIp_congr (h : policy.routingSnapshot runtimes = policy.routingSnapshot runtimes') :
    policy.routeIp runtimes = policy.routeIp runtimes' := by
  have hcustom : policy.customIp runtimes = policy.customIp runtimes' := by
    funext ip
    rw [customIp, customIp, h]
  funext ip
  rw [GeoDirectPolicy.routeIp, GeoDirectPolicy.routeIp, hcustom]

theorem routeHost_congr (h : policy.routingSnapshot runtimes = policy.routingSnapshot runtimes') :
    policy.routeHost text runtimes = policy.routeHost text runtimes' := by
  have hcustom : ∀ host, policy.customHost text runtimes host =
      policy.customHost text runtimes' host := by
    intro host
    rw [customHost, customHost, h]
  funext ads host
  unfold routeHost
  extract_lets host
  rw [hcustom host]

end GeoDirectPolicy

section
variable {live live' : LiveRouting} {base : ℕ} {arc : Arc RoutingSnapshot}

/-- A publication that succeeds finds the revision of its update, and leaves the
    snapshot as it is or replaces it by the next one. -/
theorem LiveRouting.publish_ok (h : live.publish base arc = .ok live') :
    live.current.value.revision = base ∧
      (live.current.id = arc.id ∧ live' = live ∨
        live.current.id ≠ arc.id ∧ base ≠ REVISION_MAX ∧ arc.value.revision = base + 1 ∧
          live' = ⟨arc⟩) := by
  unfold publish at h
  split_ifs at h with hrev hid hmax hnext
  · cases h
    exact ⟨not_not.1 hrev, .inl ⟨hid, rfl⟩⟩
  · cases h
    exact ⟨not_not.1 hrev, .inr ⟨hid, hmax, not_not.1 hnext, rfl⟩⟩

end

variable {runtime place : ℕ}

namespace Session
variable {text : Text} {s s' t : Session}

def head (s : Session) (runtime : ℕ) : Arc RoutingSnapshot := (s.runtimes runtime).current

/-! ## What a call does -/

/-- What a call that answers `answer` does to the session `s`. -/
inductive Move (text : Text) (s : Session) : Answer → Session → Prop where
  | stay {answer : Answer} (h : ∀ update result, answer ≠ .published update result) :
    Move text s answer s
  | build {policy : GeoDirectPolicy} {snapshot : RoutingSnapshot}
    (hrouting : policy.routing = s.nextRuntime) (hrevision : snapshot.revision = 1) :
    Move text s (.built policy)
      { s with
        runtimes := Function.update s.runtimes s.nextRuntime ⟨⟨s.nextArc, snapshot⟩⟩
        nextRuntime := s.nextRuntime + 1
        nextArc := s.nextArc + 1
        policies := s.policies ++ [policy] }
  | freeze {policy : GeoDirectPolicy} (h : policy ∈ s.policies) :
    Move text s (.frozen (policy.freezeRouting s.runtimes))
      { s with policies := s.policies ++ [policy.freezeRouting s.runtimes] }
  | prepare {policy : GeoDirectPolicy} {profile : Profile} {update : PreparedRoutingUpdate}
    (h : policy ∈ s.policies)
    (hupdate : policy.prepareRoutingUpdate text s.runtimes profile s.nextArc = .ok update) :
    Move text s (.prepared update)
      { s with nextArc := s.nextArc + 1, updates := s.updates ++ [some update] }
  | refuse {update : PreparedRoutingUpdate} {place : ℕ} {error : RoutingUpdateError}
    (h : some update ∈ s.updates) :
    Move text s (.published update (.error error)) { s with updates := s.updates.set place none }
  | publish {update : PreparedRoutingUpdate} {place : ℕ} {live : LiveRouting}
    (h : some update ∈ s.updates) (hfree : s.readLocked update.owner = false)
    (hlive : (s.runtimes update.owner).publish update.baseRevision update.next = .ok live) :
    Move text s (.published update (.ok ()))
      { s with
        updates := s.updates.set place none
        runtimes := Function.update s.runtimes update.owner live }
  | enter {policy : GeoDirectPolicy} {revision : ℕ} (h : policy ∈ s.policies)
    (hrevision : (s.head policy.routing).value.revision = revision) :
    Move text s (.entered (some ⟨policy.routing, revision⟩))
      { s with guards := s.guards ++ [some ⟨policy.routing, revision⟩] }
  | leave {place : ℕ} : Move text s .left { s with guards := s.guards.set place none }

theorem publishUpdate_move (h : some update ∈ s.updates) :
    Move text s (s.publishUpdate policy place update).2 (s.publishUpdate policy place update).1 := by
  unfold publishUpdate
  split_ifs with hwaits
  · exact .stay (by simp)
  · generalize hpubl : policy.publishRoutingUpdate s.runtimes update = result
    cases result with
    | error => exact .refuse h
    | ok =>
      unfold publishRoutingUpdate at hpubl
      split_ifs at hpubl with howner
      rw [not_not] at howner
      rw [howner] at hpubl hwaits
      have hfree : s.readLocked update.owner = false := by simpa using hwaits
      rw [howner]
      exact .publish h hfree hpubl

theorem perform_move (h : policy ∈ s.policies) (operation : Operation) :
    Move text s (s.perform text policy operation).2 (s.perform text policy operation).1 := by
  cases operation with
  | withCustomRules =>
    simp only [perform]
    split
    · exact .stay (by simp)
    · rename_i built snapshot heq
      simp only [withCustomRules, bindOk] at heq
      obtain ⟨domains, -, snapshot', hsnap, hpair⟩ := heq
      cases hpair
      exact .build rfl (new_revision hsnap)
  | freezeRouting => exact .freeze h
  | prepareRoutingUpdate =>
    simp only [perform]
    split
    · exact .stay (by simp)
    · rename_i update heq
      exact .prepare h heq
  | publishRoutingUpdate =>
    simp only [perform]
    split
    · exact .stay (by simp)
    · rename_i update heq
      exact publishUpdate_move (mem_of_getElem? (Option.join_eq_some_iff.1 heq))
  | enterCurrent revision =>
    simp only [perform, withCurrentRouting, withCurrent]
    by_cases hrev : (s.runtimes policy.routing).current.value.revision = revision
    · simp only [hrev, if_true]
      exact .enter h hrev
    · simp only [hrev, if_false]
      exact .stay (by simp)

/-- **A call makes one of the moves.** -/
theorem next_move (call : Call) : Move text s (next text s call).2 (next text s call).1 := by
  cases call with
  | on _ operation =>
    simp only [next]
    split
    · exact .stay (by simp)
    · rename_i policy heq
      exact perform_move (mem_of_getElem? heq) operation
  | leaveCurrent => exact .leave

/-! ## The order of the states of a run -/

/-- No runtime of `s` has gone back in `s'`. -/
structure Later (s s' : Session) : Prop where
  runtimes : s.nextRuntime ≤ s'.nextRuntime
  arcs : s.nextArc ≤ s'.nextArc
  heads : ∀ runtime < s.nextRuntime, s'.head runtime = s.head runtime ∨
    (s.head runtime).value.revision < (s'.head runtime).value.revision

theorem Later.refl (s : Session) : Later s s := ⟨le_rfl, le_rfl, fun _ _ => .inl rfl⟩

theorem Later.revision_le (h : Later s s') (hlt : runtime < s.nextRuntime) :
    (s.head runtime).value.revision ≤ (s'.head runtime).value.revision := by
  rcases h.heads runtime hlt with heq | hless
  · rw [heq]
  · exact hless.le

theorem Later.same (hruntimes : s'.runtimes = s.runtimes) (hnext : s.nextRuntime ≤ s'.nextRuntime)
    (harc : s.nextArc ≤ s'.nextArc) : Later s s' :=
  ⟨hnext, harc, fun runtime _ => .inl (by rw [head, hruntimes]; rfl)⟩

theorem Move.later (h : Move text s answer s') : Later s s' := by
  cases h with
  | stay => exact .refl s
  | build =>
    refine ⟨le_succ _, le_succ _, fun runtime hlt => .inl ?_⟩
    simp only [head]
    rw [Function.update_of_ne hlt.ne]
  | prepare => exact .same rfl le_rfl (le_succ _)
  | @publish update place live h hfree hlive =>
    refine ⟨le_rfl, le_rfl, fun runtime hlt => ?_⟩
    simp only [head]
    by_cases howner : runtime = update.owner
    · subst howner
      rw [Function.update_self]
      obtain ⟨hbase, ⟨hid, rfl⟩ | ⟨hid, hmax, hnext, rfl⟩⟩ := publish_ok hlive
      · exact .inl rfl
      · dsimp only
        omega
    · rw [Function.update_of_ne howner]
      exact .inl rfl
  | _ => exact .same rfl le_rfl le_rfl

/-! ## Invariants -/

/-- What holds of an update that was not published yet. -/
structure Pending (text : Text) (s : Session) (update : PreparedRoutingUpdate) : Prop where
  owner_lt : update.owner < s.nextRuntime
  base_le : update.baseRevision ≤ (s.head update.owner).value.revision
  unchanged : update.changesRules = false →
    (s.head update.owner).value.revision = update.baseRevision → update.next = s.head update.owner
  changed : update.changesRules = true →
    (s.head update.owner).value.revision = update.baseRevision →
    update.next.id ≠ (s.head update.owner).id ∧
      update.next.value.settings.rules ≠ (s.head update.owner).value.settings.rules
  id_lt : update.changesRules = true → update.next.id < s.nextArc
  source : update.changesRules = true → ∃ profile : Profile,
    new text profile.routing (successor update.baseRevision) = .ok update.next.value

/-- An update whose base was left behind by its runtime has nothing to keep. -/
theorem Pending.later (h : Pending text s update) (hlat : Later s s') :
    Pending text s' update := by
  have hrev := hlat.revision_le h.owner_lt
  have hsame : (s'.head update.owner).value.revision = update.baseRevision →
      s'.head update.owner = s.head update.owner := by
    intro hbase
    rcases hlat.heads update.owner h.owner_lt with heq | hless
    · exact heq
    · have := h.base_le
      omega
  refine ⟨h.owner_lt.trans_le hlat.runtimes, h.base_le.trans hrev, ?_, ?_,
    fun hchgs => (h.id_lt hchgs).trans_le hlat.arcs, h.source⟩
  · intro hchgs hbase
    have heq := hsame hbase
    rw [heq] at hbase ⊢
    exact h.unchanged hchgs hbase
  · intro hchgs hbase
    have heq := hsame hbase
    rw [heq] at hbase ⊢
    exact h.changed hchgs hbase

structure Inv (text : Text) (s : Session) : Prop where
  policies : ∀ policy ∈ s.policies, policy.routing < s.nextRuntime
  heads : ∀ runtime < s.nextRuntime,
    (s.head runtime).id < s.nextArc ∧ (s.head runtime).value.revision ≤ REVISION_MAX
  updates : ∀ update, some update ∈ s.updates → Pending text s update
  guards : ∀ guard, some guard ∈ s.guards → guard.runtime < s.nextRuntime ∧
    (s.head guard.runtime).value.revision = guard.revision

theorem Start.inv (h : Start s) : Inv text s := by
  refine ⟨fun policy hpol => ?_, fun runtime hlt => ?_, ?_, ?_⟩
  · rw [h.policies policy hpol, h.one]
    exact Nat.one_pos
  · rw [h.one] at hlt
    obtain rfl : runtime = 0 := by omega
    exact ⟨h.id_lt, h.revision_le⟩
  · rw [h.updates]
    simp
  · rw [h.guards]
    simp

theorem Inv.prepare (h : Inv text s) {profile : Profile} (hpol : policy ∈ s.policies)
    (hupd : policy.prepareRoutingUpdate text s.runtimes profile s.nextArc = .ok update)
    (hruntimes : s'.runtimes = s.runtimes) (hnext : s'.nextRuntime = s.nextRuntime)
    (harc : s'.nextArc = s.nextArc + 1) : Pending text s' update := by
  simp only [prepareRoutingUpdate, bindOk] at hupd
  obtain ⟨snapshot, hsnap, heq⟩ := hupd
  have hhead : s'.head = s.head := by
    funext runtime
    rw [head, hruntimes]
    rfl
  have hid := (h.heads _ (h.policies policy hpol)).1
  cases heq
  refine ⟨by rw [hnext]; exact h.policies policy hpol, by rw [hhead]; exact le_rfl, ?_, ?_, ?_, ?_⟩
  · intro hchgs _
    dsimp only at hchgs ⊢
    rw [hchgs, hhead]
    rfl
  · intro hchgs _
    dsimp only at hchgs ⊢
    rw [hchgs, hhead]
    exact ⟨by simpa using hid.ne', of_decide_eq_true hchgs⟩
  · intro hchgs
    dsimp only at hchgs ⊢
    rw [hchgs, harc]
    exact lt_succ_self _
  · intro hchgs
    dsimp only at hchgs ⊢
    rw [hchgs]
    exact ⟨profile, hsnap⟩

/-- What the updates and guards need to stay when the session moves on. -/
theorem Inv.later (h : Inv text s) (hlat : Later s s')
    (hpolicies : ∀ policy ∈ s'.policies, policy.routing < s'.nextRuntime)
    (hheads : ∀ runtime < s'.nextRuntime,
      (s'.head runtime).id < s'.nextArc ∧ (s'.head runtime).value.revision ≤ REVISION_MAX)
    (hupdates : ∀ update, some update ∈ s'.updates →
      some update ∈ s.updates ∨ Pending text s' update)
    (hguards : ∀ guard, some guard ∈ s'.guards → guard.runtime < s'.nextRuntime ∧
      (s'.head guard.runtime).value.revision = guard.revision) : Inv text s' := by
  refine ⟨hpolicies, hheads, fun update hupd => ?_, hguards⟩
  rcases hupdates update hupd with hold | hnew
  · exact (h.updates update hold).later hlat
  · exact hnew

theorem mem_of_mem_set {α : Type} {l : List (Option α)} {a : α} (h : some a ∈ l.set place none) :
    some a ∈ l := by
  rcases mem_or_eq_of_mem_set h with hl | hnone
  · exact hl
  · cases hnone

theorem Inv.published (h : Inv text s) {live : LiveRouting} (hupd : some update ∈ s.updates)
    (hlive : (s.runtimes update.owner).publish update.baseRevision update.next = .ok live) :
    live.current.id < s.nextArc ∧ live.current.value.revision ≤ REVISION_MAX := by
  have hpend := h.updates update hupd
  have hhead := h.heads update.owner hpend.owner_lt
  obtain ⟨hbase, ⟨hid, rfl⟩ | ⟨hid, hmax, hnext, rfl⟩⟩ := publish_ok hlive
  · exact hhead
  · have hchgs : update.changesRules := by
      by_contra hno
      rw [hpend.unchanged (by simpa using hno) hbase] at hid
      exact hid rfl
    refine ⟨hpend.id_lt hchgs, ?_⟩
    have hrev : (s.head update.owner).value.revision = update.baseRevision := hbase
    dsimp only
    omega

theorem Move.inv (hmove : Move text s answer s') (h : Inv text s) : Inv text s' := by
  have hlat := hmove.later
  cases hmove with
  | stay => exact h
  | @build policy snapshot hrouting hrvn =>
    refine h.later hlat ?_ ?_ (fun update hupd => .inl hupd) ?_
    · intro p hp
      rcases mem_append.1 hp with hp | hp
      · exact (h.policies p hp).trans (lt_succ_self _)
      · obtain rfl := mem_singleton.1 hp
        rw [hrouting]
        exact lt_succ_self _
    · intro runtime hlt
      simp only [head]
      by_cases hnew : runtime = s.nextRuntime
      · subst hnew
        rw [Function.update_self]
        refine ⟨lt_succ_self _, ?_⟩
        rw [hrvn]
        decide
      · rw [Function.update_of_ne hnew]
        have hold := h.heads runtime (by dsimp only at hlt; omega)
        exact ⟨hold.1.trans (lt_succ_self _), hold.2⟩
    · intro guard hgrd
      obtain ⟨hlt, hrev⟩ := h.guards guard hgrd
      refine ⟨hlt.trans (lt_succ_self _), ?_⟩
      simp only [head]
      rw [Function.update_of_ne hlt.ne]
      exact hrev
  | @freeze policy hpol =>
    refine h.later hlat ?_ h.heads (fun update hupd => .inl hupd) h.guards
    intro p hp
    rcases mem_append.1 hp with hp | hp
    · exact h.policies p hp
    · obtain rfl := mem_singleton.1 hp
      exact h.policies policy hpol
  | @prepare policy profile update hpol hupd =>
    refine h.later hlat h.policies
      (fun runtime hlt => ⟨(h.heads runtime hlt).1.trans (lt_succ_self _),
        (h.heads runtime hlt).2⟩) ?_ h.guards
    intro u hu
    rcases mem_append.1 hu with hu | hu
    · exact .inl hu
    · cases mem_singleton.1 hu
      exact .inr (h.prepare hpol hupd rfl rfl rfl)
  | refuse =>
    exact h.later hlat h.policies h.heads (fun u hu => .inl (mem_of_mem_set hu)) h.guards
  | @publish update place live hupd hfree hlive =>
    refine h.later hlat h.policies ?_ (fun u hu => .inl (mem_of_mem_set hu)) ?_
    · intro runtime hlt
      simp only [head]
      by_cases howner : runtime = update.owner
      · subst howner
        rw [Function.update_self]
        exact h.published hupd hlive
      · rw [Function.update_of_ne howner]
        exact h.heads runtime hlt
    · intro guard hgrd
      obtain ⟨hlt, hrev⟩ := h.guards guard hgrd
      -- the write lock was free, so no closure runs under the runtime's read lock
      have hoth : guard.runtime ≠ update.owner := by
        intro heq
        simp only [readLocked, any_eq_false] at hfree
        exact hfree _ hgrd (by simpa using heq)
      refine ⟨hlt, ?_⟩
      simp only [head]
      rw [Function.update_of_ne hoth]
      exact hrev
  | @enter policy revision hpol hrvn =>
    refine h.later hlat h.policies h.heads (fun u hu => .inl hu) ?_
    intro guard hgrd
    rcases mem_append.1 hgrd with hgrd | hgrd
    · exact h.guards guard hgrd
    · cases mem_singleton.1 hgrd
      exact ⟨h.policies policy hpol, hrvn⟩
  | leave =>
    exact h.later hlat h.policies h.heads (fun u hu => .inl hu)
      fun guard hgrd => h.guards guard (mem_of_mem_set hgrd)

theorem Reachable.sessionInv (h : Reachable (next text) Start s) : Inv text s :=
  Lib.Reachable.inv h (fun _ hs => hs.inv) fun _ call hs => (next_move call).inv hs

/-! ## Runs -/

def after (text : Text) (e : Event Session Call Answer) : Session :=
  (next text e.before e.input).1

def RuleChange (e : Event Session Call Answer) (update : PreparedRoutingUpdate) : Prop :=
  e.output = .published update (.ok ()) ∧ update.changesRules = true

theorem Move.ruleChange (hinv : Inv text s) (h : Move text s (.published update (.ok ())) s')
    (hchgs : update.changesRules) :
    (s.head update.owner).value.revision = update.baseRevision ∧
      s'.head update.owner = update.next ∧
      update.next.value.revision = update.baseRevision + 1 ∧ Pending text s update := by
  cases h with
  | stay hno => exact absurd rfl (hno update (.ok ()))
  | @publish _ place live hupd hfree hlive =>
    have hpend := hinv.updates update hupd
    obtain ⟨hbase, ⟨hid, -⟩ | ⟨-, -, hnext, rfl⟩⟩ := publish_ok hlive
    · exact absurd hid.symm (hpend.changed hchgs hbase).1
    · exact ⟨hbase, by simp [head], hnext, hpend⟩

/-- At the last revision a change of the rules is refused. -/
theorem Move.exhausted {result : Except RoutingUpdateError Unit} (hinv : Inv text s)
    (h : Move text s (.published update result) s') (hchgs : update.changesRules)
    (hmax : (s.head update.owner).value.revision = REVISION_MAX) :
    (∃ error, result = .error error) ∧ s'.runtimes = s.runtimes := by
  cases h with
  | stay hno => exact absurd rfl (hno update result)
  | refuse => exact ⟨⟨_, rfl⟩, rfl⟩
  | publish hupd _ hlive =>
    have hpend := hinv.updates update hupd
    obtain ⟨hbase, ⟨hid, -⟩ | ⟨-, hlast, -⟩⟩ := publish_ok hlive
    · exact absurd hid.symm (hpend.changed hchgs hbase).1
    · rw [← hbase] at hlast
      exact absurd hmax hlast

theorem Move.head_eq (hinv : Inv text s) (h : Move text s answer s') (hlt : runtime < s.nextRuntime) :
    s'.head runtime = s.head runtime ∨ ∃ update, answer = .published update (.ok ()) ∧
      update.changesRules ∧ update.owner = runtime := by
  cases h with
  | build =>
    left
    simp only [head]
    rw [Function.update_of_ne hlt.ne]
  | @publish update place live hupd hfree hlive =>
    by_cases howner : update.owner = runtime
    · by_cases hchgs : update.changesRules
      · exact .inr ⟨update, rfl, hchgs, howner⟩
      · have hpend := hinv.updates update hupd
        obtain ⟨hbase, ⟨-, rfl⟩ | ⟨hid, -⟩⟩ := publish_ok hlive
        · simp [head]
        · rw [hpend.unchanged (by simpa using hchgs) hbase] at hid
          exact absurd rfl hid
    · left
      simp only [head]
      rw [Function.update_of_ne (Ne.symm howner)]
  | _ => exact .inl rfl

theorem Move.policies (h : Move text s answer s') : s.policies <+: s'.policies := by
  cases h with
  | build => exact prefix_append _ _
  | freeze => exact prefix_append _ _
  | _ => exact prefix_rfl

theorem Steps.policies (run : Steps (next text) s h t) : s.policies <+: t.policies :=
  run.inv (P := fun _ t => s.policies <+: t.policies) prefix_rfl
    fun _ _ call _ ih => ih.trans (next_move call).policies

/-- Every change of the rules so far is behind its runtime, and no two of them had
    one base. -/
structure Past (h : List (Event Session Call Answer)) (t : Session) : Prop where
  behind : ∀ e ∈ h, ∀ update, RuleChange e update → update.owner < t.nextRuntime ∧
    update.baseRevision < (t.head update.owner).value.revision
  once : h.Pairwise fun e e' => ∀ update update', RuleChange e update → RuleChange e' update' →
    update.owner = update'.owner → update.baseRevision ≠ update'.baseRevision

theorem Past.next (hpast : Past h t) (hinv : Inv text t) (call : Call) :
    Past (⟨t, call, (next text t call).2⟩ :: h) (Session.next text t call).1 := by
  have hmove : Move text t _ _ := next_move call
  have hlat := hmove.later
  constructor
  · intro e he update hchg
    rcases mem_cons.1 he with rfl | he
    · obtain ⟨houtp, hchgs⟩ := hchg
      dsimp only at houtp
      rw [houtp] at hmove
      obtain ⟨hbase, hhead, hnext, hpend⟩ := hmove.ruleChange hinv hchgs
      refine ⟨hpend.owner_lt.trans_le hlat.runtimes, ?_⟩
      rw [hhead, hnext]
      exact lt_succ_self _
    · obtain ⟨hlt, hless⟩ := hpast.behind e he update hchg
      exact ⟨hlt.trans_le hlat.runtimes, hless.trans_le (hlat.revision_le hlt)⟩
  · refine pairwise_cons.2 ⟨?_, hpast.once⟩
    rintro e' he' update update' ⟨houtp, hchgs⟩ hchg' howner
    dsimp only at houtp
    rw [houtp] at hmove
    obtain ⟨hbase, -⟩ := hmove.ruleChange hinv hchgs
    obtain ⟨-, hless⟩ := hpast.behind e' he' update' hchg'
    rw [← howner] at hless
    omega

theorem Reachable.past (hs : Reachable (next text) Start s) (run : Steps (next text) s h t) :
    Past h t := by
  have hall : Past h t ∧ Reachable (Session.next text) Start t := by
    refine run.inv (P := fun h t => Past h t ∧ Reachable (Session.next text) Start t)
      ⟨⟨by simp, .nil⟩, hs⟩ ?_
    rintro h t call - ⟨hpast, ht⟩
    exact ⟨hpast.next (Reachable.sessionInv ht) call, ht.step call⟩
  exact hall.1

/-- **Live routing updates are never lost or mixed.** In every run, from any state
    that calls can lead to:
    * a change of the rules finds the revision that its update was prepared for,
      publishes the rules of that update, and raises the revision by one;
    * of the updates of one runtime and one revision at most one changes the rules,
      and nothing else replaces what a runtime publishes;
    * a frozen policy keeps the snapshot that it captured, and routes by it;
    * while a closure of `with_current` runs, its revision is the published one;
    * at the last revision a change of the rules is refused, and what is published
      stays. -/
theorem live_updates_never_lost_or_mixed (text : Text) {s t : Session}
    {h : List (Event Session Call Answer)} (hs : Reachable (Session.next text) Start s)
    (run : Steps (Session.next text) s h t) :
    (∀ e ∈ h, ∀ update, RuleChange e update →
      (e.before.head update.owner).value.revision = update.baseRevision ∧
      (after text e).head update.owner = update.next ∧
      ((after text e).head update.owner).value.revision =
        (e.before.head update.owner).value.revision + 1 ∧
      update.next.value.settings.rules ≠ (e.before.head update.owner).value.settings.rules ∧
      ∃ profile : Profile, new text profile.routing (update.baseRevision + 1) =
        .ok update.next.value) ∧
    (h.Pairwise fun e e' => ∀ update update', RuleChange e update → RuleChange e' update' →
      update.owner = update'.owner → update.baseRevision ≠ update'.baseRevision) ∧
    (∀ e ∈ h, ∀ runtime < e.before.nextRuntime,
      (after text e).head runtime = e.before.head runtime ∨
        ∃ update, RuleChange e update ∧ update.owner = runtime) ∧
    (∀ (place : ℕ) (policy : GeoDirectPolicy) (snapshot : Arc RoutingSnapshot),
      s.policies[place]? = some policy → policy.frozenRouting = some snapshot →
      t.policies[place]? = some policy ∧ policy.routingSnapshot t.runtimes = snapshot ∧
      policy.routeIp t.runtimes = policy.routeIp s.runtimes ∧
      policy.routeHost text t.runtimes = policy.routeHost text s.runtimes) ∧
    (∀ guard, some guard ∈ t.guards → (t.head guard.runtime).value.revision = guard.revision) ∧
    (∀ e ∈ h, ∀ update result, e.output = .published update result →
      update.changesRules = true →
      (e.before.head update.owner).value.revision = REVISION_MAX →
      (∃ error, result = .error error) ∧ (after text e).runtimes = e.before.runtimes) := by
  have hevent : ∀ e ∈ h, Inv text e.before ∧ Move text e.before e.output (after text e) := by
    intro e he
    obtain ⟨h', run', houtput⟩ := run.event he
    refine ⟨Reachable.sessionInv (hs.steps run'), ?_⟩
    rw [houtput]
    exact next_move e.input
  refine ⟨?_, (Reachable.past hs run).once, ?_, ?_, ?_, ?_⟩
  · rintro e he update ⟨houtput, hchanges⟩
    obtain ⟨hinv, hmove⟩ := hevent e he
    rw [houtput] at hmove
    obtain ⟨hbase, hhead, hnext, hpending⟩ := hmove.ruleChange hinv hchanges
    obtain ⟨profile, hprofile⟩ := hpending.source hchanges
    refine ⟨hbase, hhead, by rw [hhead, hnext, hbase], (hpending.changed hchanges hbase).2, profile,
      ?_⟩
    rwa [← new_revision hprofile, hnext] at hprofile
  · intro e he runtime hlt
    obtain ⟨hinv, hmove⟩ := hevent e he
    rcases hmove.head_eq hinv hlt with heq | ⟨update, houtput, hchanges, howner⟩
    · exact .inl heq
    · exact .inr ⟨update, ⟨houtput, hchanges⟩, howner⟩
  · intro place policy snapshot hplace hfrozen
    obtain ⟨more, hmore⟩ := Steps.policies run
    have hsnapshot : ∀ runtimes, policy.routingSnapshot runtimes = snapshot := by
      intro runtimes
      rw [routingSnapshot, hfrozen]
      rfl
    have hsame : policy.routingSnapshot t.runtimes = policy.routingSnapshot s.runtimes := by
      rw [hsnapshot, hsnapshot]
    refine ⟨?_, hsnapshot _, routeIp_congr hsame, routeHost_congr hsame⟩
    rw [← hmore, List.getElem?_append_left (List.getElem?_eq_some_iff.1 hplace).1, hplace]
  · intro guard hguard
    exact ((Reachable.sessionInv (hs.steps run)).guards guard hguard).2
  · intro e he update result houtput hchanges hmax
    obtain ⟨hinv, hmove⟩ := hevent e he
    rw [houtput] at hmove
    exact hmove.exhausted hinv hchanges hmax

def sampleSession : Session where
  runtimes := fun _ => ⟨⟨0, ⟨1, ⟨[], false⟩, [], []⟩⟩⟩
  nextRuntime := 1
  nextArc := 1
  policies := [.disabled 0]
  updates := []
  guards := []

def ruleProfile : Profile :=
  { Profile.default with routing := ⟨[⟨1, .domain, ['a', '.', 'b'], .reject⟩], false⟩ }

def preparedSession : Session :=
  (next plainText sampleSession (.on 0 (.prepareRoutingUpdate ruleProfile))).1

theorem preparedSession_publish :
    (match (next plainText preparedSession (.on 0 (.publishRoutingUpdate 0))).2 with
      | .published update (.ok ()) => update.changesRules && update.baseRevision == 1
      | _ => false) = true := by
  decide +kernel

theorem live_updates_sample :
    ∃ update, (next plainText preparedSession (.on 0 (.publishRoutingUpdate 0))).2 =
        .published update (.ok ()) ∧ update.changesRules = true ∧
      (((next plainText preparedSession (.on 0 (.publishRoutingUpdate 0))).1).head
        update.owner).value.revision = 2 := by
  have hstart : Start sampleSession :=
    ⟨rfl, by simp [sampleSession, disabled], Nat.one_pos, by decide, rfl, rfl⟩
  have run : Steps (next plainText) sampleSession _
      (next plainText preparedSession (.on 0 (.publishRoutingUpdate 0))).1 :=
    (Steps.nil.snoc (Call.on 0 (.prepareRoutingUpdate ruleProfile))).snoc
      (Call.on 0 (.publishRoutingUpdate 0))
  obtain ⟨hchange, -⟩ := live_updates_never_lost_or_mixed plainText (.init hstart) run
  have hpublish := preparedSession_publish
  split at hpublish
  · rename_i update houtput
    rw [Bool.and_eq_true, beq_iff_eq] at hpublish
    obtain ⟨hbase, -, hrevision, -⟩ :=
      hchange _ (mem_cons_self ..) update ⟨houtput, hpublish.1⟩
    refine ⟨update, houtput, hpublish.1, hrevision.trans ?_⟩
    rw [hbase, hpublish.2]
  · cases hpublish

end Session

end Usque.Routing
