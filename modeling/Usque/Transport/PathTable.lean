/-
  The table of paths of the PMTU controller.

  * A call on a path activates it and changes its state only (`next_cases`), in a
    table of at most three paths (`Table`).
-/
import Usque.Transport.Pmtu

namespace Usque.Transport.PmtuController
open Lib List PathPmtuState

variable {controller : PmtuController} {key : PmtuPathKey} {call : Call}

def tracks (controller : PmtuController) (key : PmtuPathKey) : Bool :=
  controller.paths.any (·.key = key)

theorem tracks_iff : controller.tracks key ↔ ∃ state ∈ controller.paths, state.key = key := by
  simp [tracks]

/-- A controller between two calls. -/
structure Table (controller : PmtuController) : Prop where
  few : controller.paths.length ≤ MAX_TRACKED_PATHS
  active : ∃ key, controller.active = some key ∧ controller.tracks key = true
  keys : (controller.paths.map (·.key)).Nodup

theorem table_withAutomatic (initialPath : PmtuPathKey) (automatic : Bool) :
    (withAutomatic initialPath automatic).Table where
  few := by simp [withAutomatic, MAX_TRACKED_PATHS]
  active := ⟨initialPath, rfl, by simp [tracks, withAutomatic, new]⟩
  keys := nodup_singleton _

/-- A full table has a path to evict, and it is not the active one. -/
theorem exists_removable (htab : controller.Table)
    (hfull : controller.paths.length = MAX_TRACKED_PATHS) :
    ∃ i, ∃ hi : i < controller.paths.length,
      (controller.paths.findIdx? fun path => some path.key ≠ controller.active) = some i ∧
        some controller.paths[i].key ≠ controller.active := by
  cases hfind : controller.paths.findIdx? fun path => some path.key ≠ controller.active with
  | some i =>
    obtain ⟨hi, hne, -⟩ := findIdx?_eq_some_iff_getElem.1 hfind
    exact ⟨i, hi, rfl, of_decide_eq_true hne⟩
  | none =>
    -- otherwise the keys of three paths would all be the active one
    obtain ⟨active, hact, -⟩ := htab.active
    have hsame : controller.paths.map (·.key) = replicate MAX_TRACKED_PATHS active := by
      refine eq_replicate_iff.2 ⟨by rw [length_map, hfull], ?_⟩
      intro key hkey
      obtain ⟨state, hst, rfl⟩ := mem_map.1 hkey
      have := findIdx?_eq_none_iff.1 hfind state hst
      simpa [hact] using this
    have hkeys := htab.keys
    rw [hsame, nodup_replicate] at hkeys
    exact absurd hkeys (by decide)

/-- **Activating a path** adds it if it is not tracked, and never evicts the path that was
    active. -/
theorem activatePath_spec (htab : controller.Table) (key : PmtuPathKey) :
    (controller.activatePath key).Table ∧ (controller.activatePath key).active = some key ∧
      (∀ state ∈ (controller.activatePath key).paths, state ∈ controller.paths ∨
        (state = .new key ∧ controller.tracks key = false)) ∧
      ∀ state ∈ controller.paths, controller.active = some state.key →
        state ∈ (controller.activatePath key).paths := by
  rw [activatePath, ← tracks]
  by_cases htrk : controller.tracks key
  · rw [if_pos htrk]
    exact ⟨⟨htab.few, ⟨key, rfl, htrk⟩, htab.keys⟩, rfl, fun _ hst => .inl hst, fun _ hst _ => hst⟩
  · rw [if_neg htrk]
    -- the paths that stay are some of the tracked ones
    obtain ⟨kept, hkept, hsub, hroom, hact⟩ : ∃ kept,
        (if controller.paths.length = MAX_TRACKED_PATHS then
          controller.paths.eraseIdx
            ((controller.paths.findIdx? fun path => some path.key ≠ controller.active).getD 0)
          else controller.paths) = kept ∧ kept.Sublist controller.paths ∧
        kept.length < MAX_TRACKED_PATHS ∧
        ∀ state ∈ controller.paths, controller.active = some state.key → state ∈ kept := by
      refine ⟨_, rfl, ?_⟩
      split
      · rename_i hfull
        obtain ⟨i, hi, hfind, hne⟩ := exists_removable htab hfull
        rw [hfind, Option.getD_some]
        refine ⟨eraseIdx_sublist _ _, by rw [length_eraseIdx_of_lt hi]; omega, ?_⟩
        intro state hst hact
        obtain ⟨j, hj, rfl⟩ := mem_iff_getElem.1 hst
        refine mem_eraseIdx_iff_getElem.2 ⟨j, hj, ?_, rfl⟩
        rintro rfl
        exact hne hact.symm
      · have := htab.few
        exact ⟨Sublist.refl _, by omega, fun _ hst _ => hst⟩
    simp only [hkept]
    have hnew : key ∉ kept.map (·.key) := by
      intro hmem
      obtain ⟨state, hst, hkey⟩ := mem_map.1 hmem
      exact htrk (tracks_iff.2 ⟨state, hsub.subset hst, hkey⟩)
    refine ⟨⟨?_, ⟨key, rfl, ?_⟩, ?_⟩, trivial, ?_, ?_⟩
    · rw [length_append]
      exact hroom
    · simp [tracks, new]
    · rw [map_append]
      refine (htab.keys.sublist (hsub.map _)).append (nodup_singleton _) ?_
      simpa [disjoint_singleton, new] using hnew
    · intro state hst
      rcases mem_append.1 hst with hst | hst
      · exact .inl (hsub.subset hst)
      · exact .inr ⟨mem_singleton.1 hst, by simpa using htrk⟩
    · exact fun state hst hold => mem_append_left _ (hact state hst hold)

/-- `active_state_mut` finds the state of the active path, and a change of it leaves the
    others as they are. -/
theorem modifyActive_spec {α : Type} (htab : controller.Table)
    (hact : controller.active = some key) (change : PathPmtuState → Option (PathPmtuState × α)) :
    ∃ state ∈ controller.paths, state.key = key ∧
      (change state = none → controller.modifyActive change = none) ∧
      ∀ state' answer, change state = some (state', answer) → state'.key = key →
        ∃ paths, controller.modifyActive change = some ({ controller with paths := paths }, answer) ∧
          { controller with paths := paths }.Table ∧
          ∀ other ∈ paths, other = state' ∨ (other ∈ controller.paths ∧ other.key ≠ key) := by
  obtain ⟨key', hact', htrk⟩ := htab.active
  cases hact.symm.trans hact'
  obtain ⟨i, hi⟩ : ∃ i, controller.paths.findIdx? (fun path => decide (path.key = key)) = some i := by
    refine Option.isSome_iff_exists.1 ?_
    rwa [findIdx?_isSome]
  obtain ⟨hlt, hkey, -⟩ := findIdx?_eq_some_iff_getElem.1 hi
  replace hkey := of_decide_eq_true hkey
  refine ⟨controller.paths[i], getElem_mem hlt, hkey, ?_, ?_⟩
  · intro hnone
    simp [modifyActive, hact, hi, getElem?_eq_getElem hlt, hnone]
  intro state' answer hrun hkey'
  have hkeys : (controller.paths.set i state').map (·.key) = controller.paths.map (·.key) := by
    refine ext_getElem (by simp) fun j hj hj' => ?_
    rw [getElem_map, getElem_map, getElem_set]
    split
    · rename_i hsame
      subst hsame
      rw [hkey', hkey]
    · rfl
  refine ⟨controller.paths.set i state', ?_, ⟨?_, ⟨key, hact, ?_⟩, ?_⟩, ?_⟩
  · simp [modifyActive, hact, hi, getElem?_eq_getElem hlt, hrun]
  · simpa using htab.few
  · exact tracks_iff.2 ⟨state', mem_set hlt state', hkey'⟩
  · rw [hkeys]
    exact htab.keys
  · intro other hoth
    obtain ⟨j, hj, rfl⟩ := mem_iff_getElem.1 hoth
    rw [getElem_set]
    split
    · exact .inl rfl
    · rename_i hne
      rw [length_set] at hj
      refine .inr ⟨getElem_mem hj, fun hsame => hne ?_⟩
      have hnodup := htab.keys.of_map
      exact hnodup.getElem_inj_iff.1
        (inj_on_of_nodup_map htab.keys (getElem_mem hlt) (getElem_mem hj) (hkey.trans hsame.symm))

/-! ## Calls -/

def Call.change (automatic reliableStreams : Bool) (state : PathPmtuState) :
    Call → Option (PathPmtuState × Answer)
  | .observeActivePath _ completed _ effective =>
    (state.observeActivePath automatic completed effective).map (.map id .observation)
  | .onSendTooLarge _ completed now =>
    some (.map id .action (state.onSendError automatic completed now false))
  | .onProbeSendTooLarge _ now => some (.map id .action (state.onSendError automatic none now true))
  | .onLossSample _ completed sample now =>
    some (.map id .loss (state.onLossSample automatic reliableStreams completed sample now))
  | .onPathPromoted _ => some (.map id .action (state.onPathPromoted automatic))
  | .setReliableStreamMode => some (state, .done)

theorem apply_eq (hcall : call.key = some key) :
    controller.apply call = (controller.activatePath key).modifyActive
      (call.change controller.automatic controller.reliableStreams) := by
  cases call <;> cases hcall <;>
    simp [apply, observeActivePath, onSendTooLarge, onProbeSendTooLarge, onSendError,
      onLossSample, onPathPromoted, modifyActive, Call.change, Option.map_bind, Option.bind_map]

theorem onSendError_key (automatic : Bool) (completed : Option ℕ) (now : ℕ) (probeOnly : Bool)
    (state : PathPmtuState) :
    (state.onSendError automatic completed now probeOnly).1.key = state.key := by
  simp only [PathPmtuState.onSendError, PathPmtuState.failDiscovery, PathPmtuState.failCompleted]
  repeat' split
  all_goals rfl

theorem change_key {automatic reliableStreams : Bool} {state state' : PathPmtuState}
    {answer : Answer} (h : call.change automatic reliableStreams state = some (state', answer)) :
    state'.key = state.key := by
  cases call with
  | observeActivePath =>
    simp only [Call.change, PathPmtuState.observeActivePath] at h
    split at h
    · cases h; rfl
    split at h
    · cases h; rfl
    split at h
    · cases h; rfl
    · rw [Option.map_map, Option.map_eq_some_iff] at h
      obtain ⟨phase, -, h⟩ := h
      cases h; rfl
  | onSendTooLarge =>
    obtain rfl : _ = state' := congrArg Prod.fst (Option.some.inj h)
    exact onSendError_key ..
  | onProbeSendTooLarge _ now =>
    obtain rfl : _ = state' := congrArg Prod.fst (Option.some.inj h)
    exact onSendError_key automatic none now true state
  | onLossSample =>
    obtain rfl : _ = state' := congrArg Prod.fst (Option.some.inj h)
    simp only [PathPmtuState.onLossSample, Prod.map_fst, id]
    repeat' split
    all_goals rfl
  | onPathPromoted => cases h; rfl
  | setReliableStreamMode => cases h; rfl

/-- **A call on a path** changes the state of that path only. -/
theorem next_cases (htab : controller.Table) (hcall : call.key = some key) :
    ∃ state, state.key = key ∧
      (state ∈ controller.paths ∨ (state = .new key ∧ controller.tracks key = false)) ∧
      ((call.change controller.automatic controller.reliableStreams state = none ∧
          controller.next call = (controller, none)) ∨
        ∃ state' answer controller',
          call.change controller.automatic controller.reliableStreams state =
            some (state', answer) ∧
          controller.next call = (controller', some answer) ∧ controller'.Table ∧
          controller'.automatic = controller.automatic ∧
          ∀ other ∈ controller'.paths,
            other = state' ∨ (other ∈ controller.paths ∧ other.key ≠ key)) := by
  obtain ⟨htab', hact, hpaths, -⟩ := activatePath_spec htab key
  obtain ⟨state, hmem, hkey, hnone, hsome⟩ := modifyActive_spec htab' hact
    (call.change controller.automatic controller.reliableStreams)
  refine ⟨state, hkey, hpaths state hmem, ?_⟩
  cases hchg : call.change controller.automatic controller.reliableStreams state with
  | none => exact .inl ⟨rfl, by rw [next, apply_eq hcall, hnone hchg]⟩
  | some result =>
    obtain ⟨state', answer⟩ := result
    obtain ⟨paths, hrun, htab'', hoths⟩ :=
      hsome state' answer hchg ((change_key hchg).trans hkey)
    refine .inr ⟨state', answer, _, rfl, by rw [next, apply_eq hcall, hrun], htab'', ?_, ?_⟩
    · rw [activatePath]
      split <;> rfl
    · intro other hoth
      refine (hoths other hoth).imp_right ?_
      rintro ⟨hmem, hne⟩
      rcases hpaths other hmem with hmem | ⟨rfl, -⟩
      · exact ⟨hmem, hne⟩
      · exact absurd rfl hne

/-! ## Runs -/

abbrev CallEvent := Event PmtuController Call (Option Answer)

variable {initialPath : PmtuPathKey} {automatic : Bool} {h : List CallEvent}

theorem table_next (htab : controller.Table) (call : Call) : (controller.next call).1.Table := by
  cases hcall : call.key with
  | none =>
    cases call <;> cases hcall
    exact ⟨htab.few, htab.active, htab.keys⟩
  | some =>
    obtain ⟨-, -, -, ⟨-, hnext⟩ | ⟨_, _, controller', -, hnext, htab', -⟩⟩ :=
      next_cases htab hcall
    · rw [hnext]
      exact htab
    · rw [hnext]
      exact htab'

theorem table_run (run : Steps next (withAutomatic initialPath automatic) h controller) :
    controller.Table :=
  run.inv (P := fun _ controller => controller.Table) (table_withAutomatic initialPath automatic)
    fun _ _ call _ htab => table_next htab call

/-- **The path table.**  At most three paths are tracked, each once, and the active one is among
    them, so that `active_state_mut` finds its state in every call. Activating a path does
    not evict the one that was active, and a call on a path leaves the states of the other
    paths that stay tracked as they are. -/
theorem path_table_bounded (initialPath : PmtuPathKey) (automatic : Bool) (h : List CallEvent)
    (controller : PmtuController)
    (run : Steps next (withAutomatic initialPath automatic) h controller) :
    controller.paths.length ≤ 3 ∧ (controller.paths.map (·.key)).Nodup ∧
      (∃ state ∈ controller.paths, controller.active = some state.key) ∧
      (∀ key, ∃ active state, (controller.activatePath key).active = some active ∧
        (controller.activatePath key).paths.find? (·.key = active) = some state) ∧
      (∀ key, ∀ state ∈ controller.paths, controller.active = some state.key →
        state ∈ (controller.activatePath key).paths) ∧
      ∀ call, ∀ state ∈ (controller.next call).1.paths, call.key ≠ some state.key →
        state ∈ controller.paths := by
  have htable := table_run run
  refine ⟨htable.few, htable.keys, ?_, ?_, fun key => (activatePath_spec htable key).2.2.2, ?_⟩
  · obtain ⟨key, hactive, htracks⟩ := htable.active
    obtain ⟨state, hstate, rfl⟩ := tracks_iff.1 htracks
    exact ⟨state, hstate, hactive⟩
  · intro key
    obtain ⟨active, hactive, htracks⟩ := (activatePath_spec htable key).1.active
    obtain ⟨state, hstate⟩ := Option.isSome_iff_exists.1 (find?_isSome.2 (any_eq_true.1 htracks))
    exact ⟨active, state, hactive, hstate⟩
  · intro call state hstate hother
    cases hcall : call.key with
    | none =>
      cases call <;> cases hcall
      exact hstate
    | some =>
      obtain ⟨old, hkey, -, ⟨-, hnext⟩ | ⟨state', answer, controller', hchange, hnext, -, -, hothers⟩⟩ :=
        next_cases htable hcall
      · rwa [hnext] at hstate
      · rw [hnext] at hstate
        rcases hothers state hstate with rfl | ⟨hmem, -⟩
        · exact absurd (hcall.trans (by rw [change_key hchange, hkey])) hother
        · exact hmem

/-- A fourth path takes the place of the first, which is not the active one. -/
theorem path_table_bounded_fourth :
    let path := fun port => (⟨.v4 10 port, .v4 20 443⟩ : PmtuPathKey)
    ∃ h controller, Steps next (withAutomatic (path 1) true) h controller ∧
      controller.paths.map (·.key) = [path 2, path 3, path 4] ∧ controller.paths.length ≤ 3 := by
  intro path
  let calls : List Call := [.onPathPromoted (path 4), .onPathPromoted (path 3),
    .onPathPromoted (path 2)]
  have run : Steps next _ _ _ := steps_replay (withAutomatic (path 1) true) calls
  exact ⟨_, _, run, by decide, (path_table_bounded _ _ _ _ run).1⟩

end Usque.Transport.PmtuController
