/-
  What the PMTU controller publishes.
-/
import Usque.Transport.PathTable

namespace Usque.Transport
open Lib List Option

variable {state : PathPmtuState} {controller : PmtuController} {key : PmtuPathKey}

/-! ## One path -/

namespace PathPmtuState
open PmtuController (Call Answer)

/-- A path publishes a size only while it counts as measured. -/
structure Sound (state : PathPmtuState) : Prop where
  supported : state.phase ≠ .unsupported
  measured : ∀ x, state.publishedOuterPayload = some x →
    state.phase = .stable ∨ state.phase = .degraded

theorem sound_new (key : PmtuPathKey) : (new key).Sound :=
  ⟨by simp [new], by simp [new]⟩

/-- What a call may do to the state of its path. -/
structure Change (call : Call) (state state' : PathPmtuState) (answer : Answer) : Prop where
  key : state'.key = state.key
  sound : state'.Sound
  published : ∀ x, state'.publishedOuterPayload = some x →
    (∃ estimated effective, call = .observeActivePath state.key (some x) estimated effective ∧
      state.phase ≠ .unknown ∧ answer ≠ .loss none) ∨
    (answer = .loss none ∧ call ≠ .onPathPromoted state.key ∧ state.publishedOuterPayload = some x)
  observed : ∀ seen, answer.observed = some seen →
    answer ≠ .loss none ∧ seen.outerPayloadBytes = state'.publishedOuterPayload

theorem measuredPhase_cases (effective : Option ℕ) :
    measuredPhase effective = .stable ∨ measuredPhase effective = .degraded := by
  unfold measuredPhase
  split
  · exact .inr rfl
  · exact .inl rfl

theorem searchedPhase_spec {phase : PmtuPhase} (hsupp : phase ≠ .unsupported)
    (hknown : phase ≠ .unknown) :
    ∃ phase', searchedPhase phase = some phase' ∧ phase' ≠ .unsupported := by
  cases phase <;> simp_all [searchedPhase]

theorem Change.silent {call : Call} {state' : PathPmtuState} {answer : Answer}
    (hkey : state'.key = state.key) (hph : state'.phase ≠ .unsupported)
    (hnone : state'.publishedOuterPayload = none) (hseen : ∀ seen, answer.observed = some seen →
      answer ≠ .loss none ∧ seen.outerPayloadBytes = state'.publishedOuterPayload) :
    Change call state state' answer :=
  ⟨hkey, ⟨hph, by simp [hnone]⟩, by simp [hnone], hseen⟩

theorem observeActivePath_spec (hsnd : state.Sound) (completed effective : Option ℕ)
    (estimated : ℕ) :
    ∃ state' seen, state.observeActivePath true completed effective = some (state', seen) ∧
      Change (.observeActivePath state.key completed estimated effective) state state'
        (.observation seen) := by
  simp only [observeActivePath, Bool.true_eq_false, if_false]
  split
  · refine ⟨_, _, rfl, .silent rfl (by simp) rfl ?_⟩
    simp [Answer.observed, observation]
  · rename_i hknown
    cases completed with
    | some =>
      refine ⟨_, _, rfl, rfl, ⟨?_, fun y _ => measuredPhase_cases effective⟩, ?_, ?_⟩
      · rcases measuredPhase_cases effective with h | h <;> simp [h]
      · rintro y ⟨⟩
        exact .inl ⟨estimated, effective, rfl, hknown, by simp⟩
      · simp [Answer.observed, observation]
    | none =>
      obtain ⟨phase', hph, hsupp⟩ := searchedPhase_spec hsnd.supported hknown
      simp only [hph, map_some]
      refine ⟨_, _, rfl, .silent rfl hsupp rfl ?_⟩
      simp [Answer.observed, observation]

theorem failDiscovery_spec (call : Call) {start : PathPmtuState} (previous : Option ℕ)
    (hkey : state.key = start.key) (hnone : state.publishedOuterPayload = none) :
    Change call start (state.failDiscovery previous).1
      (.action (state.failDiscovery previous).2) := by
  unfold failDiscovery
  dsimp only
  split_ifs
  all_goals
    refine .silent hkey (by simp) hnone ?_
    simp [Answer.observed, observation]

theorem failCompleted_spec (call : Call) {start : PathPmtuState} (previous : Option ℕ) (now : ℕ)
    (hkey : state.key = start.key) (hnone : state.publishedOuterPayload = none) :
    Change call start (state.failCompleted previous now).1
      (.action (state.failCompleted previous now).2) := by
  unfold failCompleted
  dsimp only
  split
  all_goals
    refine .silent hkey (by simp) hnone ?_
    simp [Answer.observed, observation]

theorem onSendError_spec (call : Call) (state : PathPmtuState) (completed : Option ℕ) (now : ℕ)
    (probeOnly : Bool) :
    Change call state (state.onSendError true completed now probeOnly).1
      (.action (state.onSendError true completed now probeOnly).2) := by
  cases completed with
  | none => exact failDiscovery_spec call _ rfl rfl
  | some => exact failCompleted_spec call _ now rfl rfl

theorem onLossSample_spec (hsnd : state.Sound) (key : PmtuPathKey) (reliableStreams : Bool)
    (completed : Option ℕ) (sample : PmtuLossSample) (now : ℕ) :
    Change (.onLossSample key completed sample now) state
      (state.onLossSample true reliableStreams completed sample now).1
      (.loss (state.onLossSample true reliableStreams completed sample now).2) := by
  have hquiet : ∀ window, Change (.onLossSample key completed sample now) state
      { state with lossWindow := window } (.loss none) :=
    fun window => ⟨rfl, ⟨hsnd.supported, hsnd.measured⟩, fun x hx => .inr ⟨rfl, by simp, hx⟩,
      by simp [Answer.observed]⟩
  unfold onLossSample
  repeat
    split
    · exact hquiet _
  refine .silent rfl (by simp) rfl ?_
  simp [Answer.observed, observation]

theorem onPathPromoted_spec (call : Call) (state : PathPmtuState) :
    Change call state (state.onPathPromoted true).1 (.action (state.onPathPromoted true).2) := by
  refine .silent rfl (by simp [onPathPromoted]) rfl ?_
  simp [onPathPromoted, Answer.observed, observation]

/-- **What a call does to the state of its path**; it does not panic. -/
theorem change_spec (hsnd : state.Sound) (reliableStreams : Bool) (call : Call)
    (hcall : call.key = some state.key) :
    ∃ state' answer, call.change true reliableStreams state = some (state', answer) ∧
      Change call state state' answer := by
  cases call with
  | observeActivePath _ completed estimated effective =>
    cases hcall
    obtain ⟨state', seen, hrun, hchg⟩ :=
      observeActivePath_spec hsnd completed effective estimated
    exact ⟨state', .observation seen, by rw [Call.change, hrun]; rfl, hchg⟩
  | onSendTooLarge _ completed now =>
    exact ⟨_, _, rfl, onSendError_spec _ state completed now false⟩
  | onProbeSendTooLarge _ now => exact ⟨_, _, rfl, onSendError_spec _ state none now true⟩
  | onLossSample key completed sample now =>
    exact ⟨_, _, rfl, onLossSample_spec hsnd key reliableStreams completed sample now⟩
  | onPathPromoted => exact ⟨_, _, rfl, onPathPromoted_spec _ state⟩
  | setReliableStreamMode => cases hcall

end PathPmtuState

/-! ## The controller -/

namespace PmtuController
open PathPmtuState (Change)

/-- A controller in automatic mode between two calls. -/
structure Valid (controller : PmtuController) : Prop where
  automatic : controller.automatic = true
  active : ∃ key, controller.active = some key ∧ controller.tracks key = true
  keys : (controller.paths.map (·.key)).Nodup
  sound : ∀ state ∈ controller.paths, state.Sound

theorem valid_withAutomatic (initialPath : PmtuPathKey) :
    (withAutomatic initialPath true).Valid := by
  have htab := table_withAutomatic initialPath true
  refine ⟨rfl, htab.active, htab.keys, ?_⟩
  intro state hst
  cases mem_singleton.1 hst
  exact PathPmtuState.sound_new initialPath

/-- What a call on a path leaves: the changed state of the path, and states of others. -/
def Applied (controller : PmtuController) (call : Call) (key : PmtuPathKey)
    (controller' : PmtuController) (answer : Answer) : Prop :=
  ∃ state state', state.key = key ∧
    (state ∈ controller.paths ∨ (state = .new key ∧ controller.tracks key = false)) ∧
    Change call state state' answer ∧
    ∀ other ∈ controller'.paths, other = state' ∨ (other ∈ controller.paths ∧ other.key ≠ key)

/-- **A call does not panic**, and changes the state of the path it is made on. -/
theorem next_spec (htab : controller.Table) (hval : controller.Valid) (call : Call) :
    ∃ controller' answer, controller.next call = (controller', some answer) ∧
      controller'.Valid ∧
      match call.key with
      | some key => controller.Applied call key controller' answer
      | none => controller'.paths = controller.paths ∧ answer.observed = none := by
  cases hcall : call.key with
  | none =>
    cases call <;> cases hcall
    exact ⟨_, _, rfl, ⟨hval.automatic, hval.active, hval.keys, hval.sound⟩, rfl, rfl⟩
  | some =>
    obtain ⟨state, rfl, hst, hnext⟩ := next_cases htab hcall
    have hsnd : state.Sound := by
      rcases hst with hmem | ⟨hnew, -⟩
      · exact hval.sound state hmem
      · rw [hnew]
        exact PathPmtuState.sound_new _
    obtain ⟨state', answer, hrun, hchg⟩ :=
      PathPmtuState.change_spec hsnd controller.reliableStreams call hcall
    rw [hval.automatic, hrun] at hnext
    obtain ⟨hnone, -⟩ | ⟨_, _, controller', hsame, hnext, htab', hmode, hoths⟩ := hnext
    · cases hnone
    cases hsame
    refine ⟨controller', answer, hnext, ⟨hmode, htab'.active, htab'.keys, ?_⟩,
      state, state', rfl, hst, hchg, hoths⟩
    intro other hoth
    rcases hoths other hoth with rfl | ⟨hmem, -⟩
    · exact hchg.sound
    · exact hval.sound other hmem

/-! ## Runs -/

variable {h : List CallEvent}

/-- The events since the state of a path was created or promoted, the last one first. -/
def since (key : PmtuPathKey) (h : List CallEvent) : List CallEvent :=
  h.takeWhile fun e => e.before.tracks key && e.input != .onPathPromoted key

/-- A call on a path that is not a loss sample without a consequence. -/
def Counts (key : PmtuPathKey) (e : CallEvent) : Prop :=
  e.input.key = some key ∧ e.output ≠ some (.loss none)

/-- The latest call that counts, since the path is tracked or promoted, observed `x`. -/
def Observed (key : PmtuPathKey) (h : List CallEvent) (x : ℕ) : Prop :=
  ∃ e estimated effective, Latest (Counts key) (since key h) e ∧
    e.input = .observeActivePath key (some x) estimated effective

theorem Observed.skip {x : ℕ} {e : CallEvent} (hobs : Observed key h x)
    (htrk : e.before.tracks key) (hprom : e.input ≠ .onPathPromoted key)
    (hcounts : ¬ Counts key e) : Observed key (e :: h) x := by
  obtain ⟨e', estimated, effective, hlatest, hinput⟩ := hobs
  refine ⟨e', estimated, effective, ?_, hinput⟩
  rw [since, takeWhile_cons_of_pos (by simp [htrk, hprom])]
  exact latest_cons.2 (.inr ⟨hcounts, hlatest⟩)

def Publishes (h : List CallEvent) (controller : PmtuController) : Prop :=
  ∀ state ∈ controller.paths, ∀ x, state.publishedOuterPayload = some x → Observed state.key h x

/-- A size is handed out by the call that observes it, on a path that was tracked before. -/
def HandsOut (e : CallEvent) : Prop :=
  ∀ answer seen x, e.output = some answer → answer.observed = some seen →
    seen.outerPayloadBytes = some x →
    ∃ key estimated effective, e.before.tracks key = true ∧
      e.input = .observeActivePath key (some x) estimated effective

section
variable {controller controller' : PmtuController} {call : Call} {key : PmtuPathKey}
  {answer : Answer}

theorem tracks_of_known (hkey : state.key = key)
    (hst : state ∈ controller.paths ∨ (state = .new key ∧ controller.tracks key = false))
    (hnew : state ≠ .new key) : state ∈ controller.paths ∧ controller.tracks key := by
  rcases hst with hmem | ⟨rfl, -⟩
  · exact ⟨hmem, tracks_iff.2 ⟨state, hmem, hkey⟩⟩
  · exact absurd rfl hnew

theorem Applied.publishes (hpublishes : Publishes h controller)
    (happ : controller.Applied call key controller' answer) (hcall : call.key = some key) :
    Publishes (⟨controller, call, some answer⟩ :: h) controller' := by
  obtain ⟨state, state', rfl, hst, hchg, hoths⟩ := happ
  intro other hoth x hx
  rcases hoths other hoth with rfl | ⟨hmem, hne⟩
  · rw [hchg.key]
    rcases hchg.published x hx with
      ⟨estimated, effective, rfl, hknown, hans⟩ | ⟨rfl, hprom, hpub⟩
    · obtain ⟨-, htrk⟩ := tracks_of_known rfl hst fun hnew => hknown (hnew ▸ rfl)
      refine ⟨⟨controller, _, some answer⟩, estimated, effective, ?_, rfl⟩
      rw [since, takeWhile_cons_of_pos (by simp [htrk])]
      exact latest_cons.2 (.inl ⟨⟨hcall, by simpa using hans⟩, rfl⟩)
    · obtain ⟨hmem, htrk⟩ := tracks_of_known rfl hst fun hnew => by
        rw [hnew] at hpub
        cases hpub
      exact (hpublishes state hmem x hpub).skip htrk hprom fun hcounts => hcounts.2 rfl
  · refine (hpublishes other hmem x hx).skip (tracks_iff.2 ⟨other, hmem, rfl⟩) ?_ ?_
    · rintro rfl
      exact hne (some.inj hcall)
    · rintro ⟨hcall', -⟩
      exact hne (some.inj (hcall'.symm.trans hcall))

theorem Applied.handsOut (happ : controller.Applied call key controller' answer) :
    HandsOut ⟨controller, call, some answer⟩ := by
  obtain ⟨state, state', rfl, hst, hchg, -⟩ := happ
  rintro _ seen x ⟨⟩ hseen hx
  obtain ⟨hans, hpub⟩ := hchg.observed seen hseen
  rcases hchg.published x (hpub.symm.trans hx) with
    ⟨estimated, effective, hcall, hknown, -⟩ | ⟨hloss, -⟩
  · obtain ⟨-, htrk⟩ := tracks_of_known rfl hst fun hnew => hknown (hnew ▸ rfl)
    exact ⟨state.key, estimated, effective, htrk, hcall⟩
  · exact absurd hloss hans

end

theorem Publishes.skip {controller' : PmtuController} {e : CallEvent}
    (hpub : Publishes h controller) (hpaths : controller'.paths = controller.paths)
    (hbef : e.before = controller) (hcall : e.input.key = none) :
    Publishes (e :: h) controller' := by
  intro state hst x hx
  rw [hpaths] at hst
  refine (hpub state hst x hx).skip ?_ ?_ ?_
  · exact hbef ▸ tracks_iff.2 ⟨state, hst, rfl⟩
  · intro hinput
    simp [hinput, Call.key] at hcall
  · rintro ⟨hkey, -⟩
    cases hcall.symm.trans hkey

/-- **PMTU publication fails safe.**  In a run of a controller in automatic mode no call
    panics, and a path publishes a size only while it is stable or degraded, and only
    the size that the latest call on it observed since its state was created or
    promoted; loss samples without a consequence apart. The same holds of the sizes in
    the answers. -/
theorem published_only_observed {initialPath : PmtuPathKey} {h : List CallEvent}
    {controller : PmtuController} (run : Steps next (withAutomatic initialPath true) h controller) :
    (∀ e ∈ h, e.output ≠ none ∧ HandsOut e) ∧ (controller.paths.map (·.key)).Nodup ∧
      ∀ state ∈ controller.paths, ∀ x, state.publishedOuterPayload = some x →
        (state.phase = .stable ∨ state.phase = .degraded) ∧ Observed state.key h x := by
  suffices hinv : controller.Valid ∧ Publishes h controller ∧
      ∀ e ∈ h, e.output ≠ none ∧ HandsOut e by
    obtain ⟨hvalid, hpublishes, hevents⟩ := hinv
    refine ⟨hevents, hvalid.keys, fun state hstate x hx => ⟨?_, hpublishes state hstate x hx⟩⟩
    exact (hvalid.sound state hstate).measured x hx
  refine run.inv (P := fun h controller => controller.Valid ∧ Publishes h controller ∧
    ∀ e ∈ h, e.output ≠ none ∧ HandsOut e) ⟨valid_withAutomatic initialPath, ?_, by simp⟩ ?_
  · intro state hstate x hx
    cases mem_singleton.1 hstate
    cases hx
  · rintro h controller call run ⟨hvalid, hpublishes, hevents⟩
    obtain ⟨controller', answer, hnext, hvalid', hstep⟩ := next_spec (table_run run) hvalid call
    rw [hnext]
    cases hkey : call.key with
    | some =>
      rw [hkey] at hstep
      refine ⟨hvalid', hstep.publishes hpublishes hkey, forall_mem_cons.2 ⟨?_, hevents⟩⟩
      exact ⟨by simp, hstep.handsOut⟩
    | none =>
      rw [hkey] at hstep
      refine ⟨hvalid', hpublishes.skip hstep.1 rfl hkey, forall_mem_cons.2 ⟨?_, hevents⟩⟩
      refine ⟨by simp, ?_⟩
      rintro _ seen x ⟨⟩ hseen
      cases hstep.2.symm.trans hseen

/-- A path that is observed twice publishes the second size. -/
theorem published_only_observed_twice : let path : PmtuPathKey := ⟨.v4 10 1000, .v4 20 443⟩
    let first : Call := .observeActivePath path (some 1472) 1350 (some 1400)
    let second : Call := .observeActivePath path (some 1460) 1350 (some 1390)
    ∃ h controller, Steps next (withAutomatic path true) h controller ∧
      h.map (·.input) = [second, first] ∧
      (∃ state ∈ controller.paths, state.publishedOuterPayload = some 1460) ∧
      ∀ state ∈ controller.paths, ∀ x, state.publishedOuterPayload = some x →
        (state.phase = .stable ∨ state.phase = .degraded) ∧ Observed state.key h x := by
  intro path first second
  have run : Steps next (withAutomatic path true) _ _ := .snoc second (.snoc first .nil)
  exact ⟨_, _, run, rfl, by decide, (published_only_observed run).2.2⟩

end PmtuController

end Usque.Transport
