/-
  The replacement of a tunnel and its abort keep the invariant.
-/
import Usque.Agent.Devices

namespace Usque.Agent
open Lib RecoveryJournal Option

variable {receipt : MutationReceipt} {replacement : TunnelReplacement} {agent : AgentCoordinator}
  {sourceOperationId : Uuid} {expectedGeneration : Nat} {plan : ValidatedTunnelPlan}

variable {Q : Unit → AgentCoordinator → Prop} {current : RecoveryJournal}

section
variable {platform : Platform} {q : Turn} {s s' : AgentCoordinator} {operationId : Uuid}
  {caller : AuthenticatedCaller}

/-! ## Cleaning up the source -/

/-- The source is cleaned up: no step is left, and each was restored or went with
    its adapter. -/
def CleanedUp (q : Turn) (s s' : AgentCoordinator) : Prop :=
  Steady q s s' ∧ s'.journal.steps = [] ∧
    ∀ step ∈ s.journal.steps, step.state ≠ .restored →
      Settled s'.trace s.journal.steps step.receipt

theorem storePhase_ends {phase : RecoveryPhase} (h : Serving q s) (hp : phase ≠ .clean)
    (hl : phase.live = false)
    (k : ∀ s', Steady q s s' → s'.journal.steps = s.journal.steps →
      s'.journal.phase.live = false → Q () s') :
    Ends (storeOrReturn platform) Q (fun _ => Halted q)
      { s with journal := { s.journal with phase := phase } } := by
  have hno : phase.live → s.journal.phase.live := fun ht =>
    absurd (hl.symm.trans ht) Bool.false_ne_true
  refine (h.harmless (.phase phase hp hno)).storeOrReturn (fun s1 h1 hk _ => ?_)
    fun _ s1 h1 _ => h1.halted
  refine k s1 ⟨h1, Frame.trans ?_ hk.frame⟩ hk.steps (hk.phase ▸ hl)
  exact ⟨rfl, rfl, rfl, ⟨fun hc => absurd hc hp, hno⟩, rfl, id, .refl _⟩

theorem restoreReplacementNormalLocked_ends (h : Serving q s)
    (ha : RestoreAllowed .replacement (some q.request) s.journal s.trace) :
    Ends (restoreReplacementNormalLocked platform) (fun _ => CleanedUp q s) (fun _ => Halted q) s := by
  refine .bind (.updateWith (P := fun s1 => Steady q s s1 ∧ s1.journal.steps = s.journal.steps)
    ⟨⟨h, .refl s⟩, rfl⟩ fun s1 ⟨h1, hs1⟩ => ?_)
  refine .bind (.update (.bind (storePhase_ends h1.1 nofun rfl fun s2 h2 hs2 hl2 => ?_)))
  have hf2 := h1.2.trans h2.2
  refine .bind ((restoreStepsLocked_ends h2.1 (ha.frame hf2) hl2).mono (fun failures s3 h3 => ?_)
    fun _ _ he => he)
  obtain ⟨h3, hall⟩ := h3
  refine .bind (.update (.bind (storePhase_ends h3.1 nofun rfl fun s4 h4 hs4 _ => ?_)))
  refine .bind (.ensure (fun hnone => ?_) fun _ => h4.1.halted)
  obtain ⟨hrest, hsettled⟩ := hall hnone
  have hempty : Serving q { s4 with journal := { s4.journal with steps := [] } } := by
    refine h4.1.edit (h4.1.sound.sublist (List.nil_sublist _) fun step hin => .inr (.inl ?_))
    exact hrest step (hs4 ▸ hin)
  refine .bind (.update (hempty.storeOrReturn (fun s5 h5 hk _ => ?_) fun _ s5 h5 _ => h5.halted))
  refine ⟨⟨h5, (hf2.trans (h3.2.trans h4.2)).trans hk.frame⟩, hk.steps, fun step hin hs => ?_⟩
  rw [hs2.trans hs1] at hsettled
  exact (h4.2.grown.trans hk.frame.grown).settled (hsettled step hin hs)

/-! ## The device of the replacement -/

theorem RestoreAllowed.aside (h : RestoreAllowed .replacement (some q.request) s.journal s.trace)
    (ha : Aside s s') : RestoreAllowed .replacement (some q.request) s'.journal s'.trace := by
  refine ⟨fun hp => (nomatch hp), h.replacement, fun hr => ?_⟩
  obtain ⟨replacement, heq, hc⟩ := h.guarded hr
  exact ⟨replacement, ha.2.1.trans heq, ha.2.2.2.guardConfirmed hc⟩

theorem dropDevice_ends (h : Serving q s)
    (ha : RestoreAllowed .replacement (some q.request) s.journal s.trace)
    (hd : s.journal.device.map (·.receipt) = some receipt) :
    Ends (dropDevice platform receipt)
      (fun _ s' => Serving q s' ∧ Aside s s' ∧ s'.journal.device = none) (fun _ => Halted q) s := by
  have hh := Harmless.deviceState .recoveryRequired s.journal
  refine .bind (.update (.bind ((h.harmless hh).storeOrReturn (fun s1 h1 hk1 _ => ?_)
    fun _ s1 h1 _ => h1.halted)))
  have hreceipt : s1.journal.device.map (·.receipt) = some receipt := by
    rw [hk1.frame.device]
    exact hh.device.trans hd
  have ha1 : RestoreAllowed .replacement (some q.request) s1.journal s1.trace := ha.aside hk1.aside
  refine .bind (h1.askOrReturn (fun _ => .restore h1 ha1) (fun u s2 h2 ha2 => ?_)
    fun _ s2 h2 _ => h2.halted)
  have hnone := h1.none_outstanding hreceipt ha2
  have h3 := h2.setDevice none none fun m hm ht => absurd ht (hnone m hm)
  refine .bind (.update (h3.storeOrReturn (fun s3 h3 hk3 _ => ?_) fun _ s3 h3 _ => h3.halted))
  exact ⟨h3, (hk1.aside.trans (ha2.aside rfl)).trans hk3.aside, hk3.frame.device⟩

theorem createReplacementDevice_ends (h : Serving q s) (hd : s.journal.device = none)
    (hr : s.deviceRetirementResult = none) :
    Ends (createReplacementDevice platform caller)
      (fun _ s' => Serving q s' ∧ Aside s s' ∧ s'.journal.device.isSome)
      (fun _ => Halted q) s := by
  refine .bind (.read (.bind (.update (.bind ?_))))
  refine Serving.storeOrReturn (h.intendDevice hd _ _) (fun s1 h1 hk hl => ?_)
    fun _ _ h1 _ => h1.halted
  refine .bind (.bind (createDevice_issue h hd hr rfl hk h1 hl fun answer s2 hc => ?_))
  cases answer with
  | error error => exact hc.serving.halted
  | ok receipt =>
    refine .check (fun a ha => ?_) fun e he => nomatch he
    cases ha
    refine .bind (.ensure (fun hid => ?_) fun _ => hc.serving.halted)
    refine .bind (.update (Serving.storeOrReturn (hc.updateDevice hid) (fun s3 h3 hk3 _ => ?_)
      fun _ s3 h3 _ => h3.halted))
    refine ⟨h3, hc.aside.trans hk3.aside, ?_⟩
    rw [hk3.frame.device]
    exact isSome_map.trans hc.device

structure Consulted (q : Turn) (s s' : AgentCoordinator) : Prop where
  steady : Steady q s s'
  journal : s'.journal = s.journal
  saved : lastSaved s'.trace = lastSaved s.trace

theorem Consulted.refl (h : Serving q s) : Consulted q s s := ⟨⟨h, .refl s⟩, rfl, rfl⟩

theorem Consulted.trans {s'' : AgentCoordinator} (h : Consulted q s s') (h' : Consulted q s' s'') :
    Consulted q s s'' :=
  ⟨⟨h'.steady.1, h.steady.2.trans h'.steady.2⟩, h'.journal.trans h.journal, h'.saved.trans h.saved⟩

theorem Asked.consulted {call : Call} (h : Asked call s s') (h' : Serving q s')
    (hq : call.isQuiet) : Consulted q s s' :=
  ⟨⟨h', h.frame (Call.isPlain_of_isQuiet hq)⟩, h.journal, h.lastSaved_quiet hq⟩

theorem deviceUsable_ends {device : ManagedDevice} (h : Serving q s) :
    Ends (deviceUsable platform device) (fun _ => Consulted q s) (fun _ => Halted q) s :=
  .bind (.read (.ite
    (fun _ => h.askOrReturn (fun _ => .quiet rfl) (fun _ _ h1 ha => ha.consulted h1 rfl)
      fun _ _ h1 _ => h1.halted)
    fun _ => .pure (.refl h)))

theorem Consulted.aside (h : Consulted q s s') : Aside s s' :=
  ⟨congrArg _ h.journal, congrArg _ h.journal, h.steady.2.result, h.steady.2.grown⟩

theorem prepareReplacementDeviceLocked_ends (h : Serving q s)
    (ha : RestoreAllowed .replacement (some q.request) s.journal s.trace)
    (hr : s.deviceRetirementResult = none) :
    Ends (prepareReplacementDeviceLocked platform caller)
      (fun _ s' => Serving q s' ∧ Aside s s' ∧ s'.journal.device.isSome)
      (fun _ => Halted q) s := by
  refine .bind (.read ?_)
  cases hd : s.journal.device with
  | none => exact createReplacementDevice_ends h hd hr
  | some device =>
    refine .bind ((deviceUsable_ends h).mono (fun usable s1 h1 => ?_) fun _ _ he => he)
    have hd1 : s1.journal.device = some device := h1.steady.2.device.trans hd
    refine .ite (fun _ => .pure ⟨h1.1.1, h1.aside, ?_⟩) fun _ => ?_
    · rw [hd1]
      rfl
    · have hreceipt : s1.journal.device.map (·.receipt) = some device.receipt := by
        rw [hd1, map_some]
      refine .bind ((dropDevice_ends h1.1.1 (ha.frame h1.1.2) hreceipt).mono
        (fun _ s2 h2 => ?_) fun _ _ he => he)
      obtain ⟨h2, ha2, hnone⟩ := h2
      have hr2 := (h1.aside.trans ha2).2.2.1.trans hr
      refine (createReplacementDevice_ends h2 hnone hr2).mono (fun _ s3 h3 => ?_) fun _ _ he => he
      exact ⟨h3.1, (h1.aside.trans ha2).trans h3.2.1, h3.2.2⟩

/-! ## Starting a replacement -/

/-- `replace_tunnel` is in progress, on a device that was not retired. -/
def Replacing (q : Turn) (s : AgentCoordinator) : Prop :=
  Serving q s ∧ q.isReplace = true ∧ s.deviceRetirementResult = none ∧
    s.journal.replacementPending = true

section
variable (h : Serving q s)
include h

theorem inspectReplacementGuard_ends :
    Ends (inspectReplacementGuard platform receipt)
      (fun active s' => Consulted q s s' ∧ (active → guardConfirmed receipt s'.trace))
      (fun _ => Halted q) s := by
  refine h.askOrReturn (fun _ => .quiet rfl) (fun active s1 h1 ha => ?_) fun _ _ h1 _ => h1.halted
  refine ⟨ha.consulted h1 rfl, fun hact => ?_⟩
  rw [ha.trace, hact]
  simp [guardConfirmed]

theorem inspectGuardPolicy_ends {persistent : Bool} :
    Ends (inspectGuardPolicy platform receipt persistent) (fun _ => Consulted q s)
      (fun _ => Halted q) s :=
  h.askOrReturn (fun _ => .quiet rfl) (fun _ _ h1 ha => ha.consulted h1 rfl)
    fun _ _ h1 _ => h1.halted

theorem sourceStillProtected_ends :
    Ends (sourceStillProtected platform current replacement) (fun _ => Consulted q s)
      (fun _ => Halted q) s := by
  unfold sourceStillProtected
  split
  · exact .ite (fun _ => inspectGuardPolicy_ends h) fun _ => .pure (.refl h)
  · exact .pure (.refl h)

theorem retargetSource_ends :
    Ends (retargetSource platform agent replacement sourceOperationId operationId caller)
      (fun _ => Consulted q s) (fun _ => Halted q) s := by
  refine .bind (.ensure (fun _ => ?_) fun _ => h.halted)
  refine .bind ((inspectReplacementGuard_ends h).mono (fun guarded s1 h1 => ?_) fun _ _ he => he)
  refine .bind (.when (fun _ => ?_) fun _ => .pure h1.1)
  refine .bind ((sourceStillProtected_ends h1.1.1.1).mono (fun _ s2 h2 => ?_) fun _ _ he => he)
  exact .ensure (fun _ => .pure (h1.1.trans h2)) fun _ => h2.1.1.halted

theorem tunnelSource_ends :
    Ends (tunnelSource platform current sourceOperationId caller) (fun _ => Consulted q s)
      (fun _ => Halted q) s := by
  refine .bind (.check (fun _ _ => ?_) fun _ _ => h.halted)
  refine .bind (.check (fun _ _ => ?_) fun _ _ => h.halted)
  refine .bind (.check (fun _ _ => ?_) fun _ _ => h.halted)
  refine .bind (.ensure (fun _ => ?_) fun _ => h.halted)
  refine .bind (.check (fun _ _ => ?_) fun _ _ => h.halted)
  refine .bind ((inspectGuardPolicy_ends h).mono (fun _ s1 h1 => ?_) fun _ _ he => he)
  exact .bind (.ensure (fun _ => .pure h1) fun _ => h1.1.1.halted)

theorem replacementSource_ends :
    Ends (replacementSource platform agent sourceOperationId operationId caller)
      (fun _ => Consulted q s) (fun _ => Halted q) s := by
  unfold replacementSource
  split
  · exact retargetSource_ends h
  · exact tunnelSource_ends h

/-- A replacement whose guard is still to be installed takes the place of the
    current one, if the journal has an operation. -/
theorem Serving.intendReplacement {cleanup : Uuid} (hid : s.journal.operationId = some cleanup)
    (hp : replacement.pending) (hg : replacement.guard.state = .intended) (processId : Option Nat) :
    Serving q { s with
      journal := { s.journal with ownerProcessId := processId, replacement := some replacement } } := by
  have hne : replacement.guard.state ≠ .restored := fun hr => nomatch hg.symm.trans hr
  have htrk := h.sound.tracks
  refine h.edit (h.sound.edit ⟨fun m hm => ?_, htrk.kinds, htrk.agree,
    htrk.ordered.subset (fun _ hin => hin) id, fun r hr _ => ?_, fun hc => ?_⟩ id (fun r hr _ hs => ?_) le_rfl)
  · cases ht : m.target with
    | step => exact (h.sound.recorded_step hm ht).imp_right (records_step ht).2
    | device =>
      refine (htrk.recorded m hm).imp_right fun hr => ?_
      obtain hr := (records_device ht).1 hr
      exact (records_device ht).2 hr
    | guard => exact .inr ((records_guard ht).2 ⟨replacement, rfl, hp, hne⟩)
  · cases hr
    exact hne
  · exact absurd ((htrk.clean hc).1.symm.trans hid) nofun
  · cases hr
    cases hg.symm.trans hs

theorem startReplacement_ends (hq : q.isReplace) (hr : s.deviceRetirementResult = none) :
    Ends (startReplacement platform s sourceOperationId expectedGeneration operationId plan caller)
      (fun _ => Replacing q) (fun _ => Halted q) s := by
  refine .bind (.ensure (fun _ => ?_) fun _ => h.halted)
  refine .bind ((replacementSource_ends h).mono (fun source s1 h1 => ?_) fun _ _ he => he)
  refine .bind (h1.1.1.askOrReturn (fun _ => .quiet rfl) (fun receipt s2 h2 ha => ?_)
    fun _ s2 h2 _ => h2.halted)
  have h2 := h1.trans (ha.consulted h2 rfl)
  refine .bind (.check (fun cleanup hid => ?_) fun _ _ => h2.1.1.halted)
  refine .bind (.check (fun _ _ => ?_) fun _ _ => h2.1.1.halted)
  have hid2 : s2.journal.operationId = some cleanup := by
    rw [h2.journal]
    exact okOr_eq_ok hid
  refine .bind (.update (Serving.storeOrReturn (h2.1.1.intendReplacement hid2 ?_ ?_ _)
    (fun s3 h3 hk _ => ?_) fun _ s3 h3 _ => h3.halted))
  · rfl
  · rfl
  · refine ⟨h3, hq, hk.frame.result.trans (h2.1.2.result.trans hr), ?_⟩
    rw [hk.frame.pending_eq]
    rfl

end

theorem Harmless.setOwner (processId : Nat) (journal : RecoveryJournal) :
    Harmless journal (journal.setOwner processId) := by
  refine ⟨rfl, ?_, ?_, rfl, id, id, le_rfl⟩
  · show (journal.device.map _).map _ = _
    rw [map_map]
    rfl
  · show (journal.replacement.map _).map _ = _
    rw [map_map]
    rfl

theorem resumeReplacement_ends (h : Serving q s) :
    Ends (resumeReplacement platform agent replacement expectedGeneration caller)
      (fun _ s' => Serving q s' ∧ replacement.phase ≠ .aborted ∧
        s'.deviceRetirementResult = s.deviceRetirementResult ∧
        s'.journal.replacementPending = s.journal.replacementPending)
      (fun _ => Halted q) s := by
  refine .bind (.ensure (fun _ => ?_) fun _ => h.halted)
  refine .bind (.ensure (fun haborted => ?_) fun _ => h.halted)
  refine .when (fun _ => ?_) fun _ => ⟨h, haborted, rfl, rfl⟩
  have hh := Harmless.setOwner caller.processId s.journal
  refine .bind (.ensure (fun _ => ?_) fun _ => h.halted)
  refine .bind (.update ((h.harmless hh).storeOrReturn (fun s1 h1 hk _ => ?_)
    fun _ s1 h1 _ => h1.halted))
  exact ⟨h1, haborted, hk.frame.result, hk.frame.pending_eq.trans hh.pending_eq⟩

/-! ## The guard -/

def Intended (q : Turn) (s : AgentCoordinator) : Prop :=
  Replacing q s ∧ (lastSaved s.trace).replacementPending = true

theorem Replacing.frame (h : Replacing q s) (hs : Steady q s s') : Replacing q s' :=
  ⟨hs.1, h.2.1, hs.2.result.trans h.2.2.1, hs.2.pending_eq.trans h.2.2.2⟩

theorem records_pending {journal : RecoveryJournal} {m : Mutation} (ht : m.target = .guard)
    (hp : journal.replacementPending)
    (hg : ∀ replacement, journal.replacement = some replacement → replacement.pending →
      replacement.guard.state ≠ .restored) : journal.records m := by
  obtain ⟨replacement, heq, hpend⟩ := (any_eq_true ..).1 hp
  exact (records_guard ht).2 ⟨replacement, heq, hpend, hg replacement heq hpend⟩

theorem Intended.applied (h : Intended q s) (receipt : MutationReceipt) :
    Replacing q { s with
      journal := s.journal.mapReplacement fun replacement =>
        { replacement with
          guard := { replacement.guard with receipt := receipt, state := .applied }
          phase := .sourceCleanup } } := by
  obtain ⟨⟨hs, hq, hr, hp⟩, hl⟩ := h
  obtain ⟨replacement, heq, -⟩ := (any_eq_true ..).1 hp
  have hmap : ∀ f, (s.journal.mapReplacement f).replacement = some (f replacement) := fun f =>
    congrArg (Option.map f) heq
  have htrk := hs.sound.tracks
  refine ⟨hs.edit (hs.sound.edit ⟨fun m hm => ?_, htrk.kinds, htrk.agree,
    htrk.ordered.subset (fun _ hin => hin) id, fun r hr _ => ?_, fun hc => ?_⟩ id (fun _ _ _ _ => hl) le_rfl), hq, hr, ?_⟩
  · by_cases ht : m.target = .guard
    · exact .inr ((records_guard ht).2 ⟨_, hmap _, rfl, nofun⟩)
    · exact (htrk.recorded m hm).imp_right (records_replacement ht _).trans
  · cases (hmap _).symm.trans hr
    exact nofun
  · exact absurd ((htrk.clean hc).2.2.symm.trans hp) Bool.false_ne_true
  · exact (any_eq_true ..).2 ⟨_, hmap _, rfl⟩

theorem installGuard_ends (h : Intended q s) :
    Ends (installGuard platform receipt) (fun _ => Intended q) (fun _ => Halted q) s := by
  obtain ⟨⟨hs, hq, hr, hp⟩, hl⟩ := h
  have hc : ∀ answer, Callable (.applyReplacementGuard receipt answer) s := fun answer =>
    .issue rfl (records_pending rfl hl fun _ => guard_state hs.sound.legal.valid) nofun
      ⟨records_pending rfl hp hs.sound.tracks.guarded, nofun, fun ht => (nomatch ht), nofun⟩
  refine .bind (hs.askOrReturn hc (fun receipt s1 h1 ha => ?_) fun _ s1 h1 _ => h1.halted)
  have hi1 : Intended q s1 := by
    refine ⟨Replacing.frame ⟨hs, hq, hr, hp⟩ ⟨h1, ha.frame rfl⟩, ?_⟩
    rw [ha.trace]
    exact hl
  have happ := hi1.applied receipt
  refine .bind (.update (happ.1.storeOrReturn (fun s2 h2 hk hl2 => ?_) fun _ s2 h2 _ => h2.halted))
  have hr2 := happ.frame ⟨h2, hk.frame⟩
  refine ⟨hr2, ?_⟩
  rw [hl2]
  exact hr2.2.2.2

theorem confirmGuard_ends (h : Intended q s) :
    Ends (confirmGuard platform)
      (fun _ s' => Replacing q s' ∧ GuardConfirmed s'.journal s'.trace) (fun _ => Halted q) s := by
  refine .bind (.read (.bind (.check (fun replacement hr => ?_) fun _ _ => h.1.1.halted)))
  have hr := okOr_eq_ok hr
  refine .bind ((inspectReplacementGuard_ends h.1.1).mono (fun active s1 h1 => ?_) fun _ _ he => he)
  obtain ⟨h1, hconf⟩ := h1
  have hr1 : Replacing q s1 := h.1.frame h1.1
  refine .when (fun _ => ?_) fun hact =>
    ⟨hr1, replacement, h1.1.2.replacement.trans hr, hconf (Bool.not_eq_false _ ▸ hact)⟩
  have hi1 : Intended q s1 := ⟨hr1, h1.saved ▸ h.2⟩
  refine .bind (.ensure (fun _ => ?_) fun _ => h1.1.1.halted)
  refine .bind ((installGuard_ends hi1).mono (fun _ s2 h2 => ?_) fun _ _ he => he)
  refine .bind (.read (.bind (.check (fun installed hi => ?_) fun _ _ => h2.1.1.halted)))
  refine .bind ((inspectReplacementGuard_ends h2.1.1).mono (fun active s3 h3 => ?_) fun _ _ he => he)
  refine .ensure (fun hact => ?_) fun _ => h3.1.1.1.halted
  exact ⟨h2.1.frame h3.1.1, installed, h3.1.1.2.replacement.trans (okOr_eq_ok hi), h3.2 hact⟩

/-! ## The replacement -/

theorem storeReplacementPhase_ends {phase : ReplacementPhase} (h : Serving q s)
    (hj : s.journal.replacementPending) (hp : phase.pending)
    (k : ∀ s', Serving q s' → Aside { s with
      journal := s.journal.mapReplacement fun replacement => { replacement with phase := phase } } s' →
      s'.journal.replacementPending → s'.journal.device = s.journal.device → Q () s') :
    Ends (storeOrReturn platform) Q (fun _ => Halted q)
      { s with
        journal := s.journal.mapReplacement fun replacement =>
          { replacement with phase := phase } } := by
  have hh := Harmless.replacementPhase hj hp
  refine (h.harmless hh).storeOrReturn (fun s1 h1 hk _ => ?_) fun _ s1 h1 _ => h1.halted
  exact k s1 h1 hk.aside (hk.frame.pending_eq.trans (hh.pending_eq.trans hj)) hk.frame.device

/-- A replacement whose guard is confirmed: the source is cleaned up and the target
    prepared. -/
theorem retarget_safe (h : Replacing q s) (hg : GuardConfirmed s.journal s.trace) :
    Safe q (do
      restoreReplacementNormalLocked platform
      prepareReplacementDeviceLocked platform caller
      setReplacementPhase .preparingTarget
      storeOrReturn platform
      let _ ← prepareLocked platform operationId plan caller
      setReplacementPhase .prepared
      storeOrReturn platform
      journal) s := by
  obtain ⟨hs, hq, hr, hp⟩ := h
  have hallow : RestoreAllowed .replacement (some q.request) s.journal s.trace :=
    ⟨fun hp => (nomatch hp), fun _ => .inl hq, fun _ => hg⟩
  refine .bind ((restoreReplacementNormalLocked_ends hs hallow).mono (fun _ s1 h1 => ?_)
    fun _ _ he => he)
  obtain ⟨⟨h1, hf1⟩, hstp1, -⟩ := h1
  refine .bind ((prepareReplacementDeviceLocked_ends h1 (hallow.frame hf1)
    (hf1.result.trans hr)).mono (fun _ s2 h2 => ?_) fun _ _ he => he)
  obtain ⟨h2, ha2, hd2⟩ := h2
  have hp2 : s2.journal.replacementPending := by
    unfold replacementPending
    rw [ha2.2.1, hf1.replacement]
    exact hp
  refine .bind (.update (.bind (storeReplacementPhase_ends h2 hp2 rfl fun s3 h3 ha3 hp3 hd3 => ?_)))
  have hstp3 : s3.journal.steps = [] := ha3.1.trans (ha2.1.trans hstp1)
  refine .bind ((prepareLocked_ends h3 hstp3 (hd3 ▸ hd2) fun _ => hp3).mono (fun _ s4 h4 => ?_)
    fun _ _ he => he)
  refine .bind (.update (.bind (storeReplacementPhase_ends h4.1 (h4.2 hq) rfl
    fun s5 h5 _ _ _ => ?_)))
  exact .read h5

theorem runReplacement_safe (h : Replacing q s) :
    Safe q (runReplacement platform operationId plan caller) s := by
  refine .bind (.read (h.1.check fun replacement hr => ?_))
  have hr : s.journal.replacement = some replacement := okOr_eq_ok hr
  have hpend : replacement.pending := by
    have hp := h.2.2.2
    rwa [replacementPending, hr] at hp
  refine .ite (fun _ => .bind ((completeReplacementLocked_ends h.1).mono
    (fun _ s1 h1 => .read h1) fun _ _ he => he.halted)) fun _ => h.1.ensure fun _ => ?_
  have hinst : Ends (Prog.when (replacement.guard.state = .intended) do
      storeOrReturn platform
      installGuard platform replacement.guard.receipt)
      (fun _ => Intended q) (fun _ => Halted q) s := by
    refine .when (fun _ => .bind (h.1.storeOrReturn (fun s1 h1 hk hl => ?_)
      fun _ s1 h1 _ => h1.halted)) fun hs => ⟨h, h.1.sound.installed replacement hr hpend ?_⟩
    · have hr1 := h.frame ⟨h1, hk.frame⟩
      exact installGuard_ends ⟨hr1, hl ▸ hr1.2.2.2⟩
    · have hne := h.1.sound.tracks.guarded replacement hr hpend
      cases hst : replacement.guard.state <;> simp_all
  refine .bind (hinst.mono (fun _ s1 h1 => ?_) fun _ _ he => he)
  refine .bind ((confirmGuard_ends h1).mono (fun _ s2 h2 => ?_) fun _ _ he => he)
  exact .bind (.read (.ite (fun _ => .read h2.1.1) fun _ => retarget_safe h2.1 h2.2))

/-- **The replacement of a tunnel.** -/
theorem replaceTunnel_safe {key : DeviceLeaseKey} (h : Serving q s) (hq : q.isReplace) :
    Safe q (replaceTunnel platform sourceOperationId expectedGeneration operationId plan caller key)
      s := by
  refine h.check fun _ _ => h.check fun _ _ => h.ensure fun _ => .bind (.read (h.check fun _ ho => ?_))
  have hr := h.result_eq_none ho
  have hst : Safe q (do
      startReplacement platform s sourceOperationId expectedGeneration operationId plan caller
      runReplacement platform operationId plan caller) s :=
    .bind ((startReplacement_ends h hq hr).mono (fun _ s1 h1 => runReplacement_safe h1)
      fun _ _ he => he)
  simp only [id]
  cases heq : s.journal.replacement with
  | none => exact hst
  | some replacement =>
    refine h.ensure fun _ => h.ensure fun _ => .ite (fun _ => ?_) fun _ => hst
    refine .bind ((resumeReplacement_ends h).mono (fun _ s1 h1 => ?_) fun _ _ he => he)
    obtain ⟨h1, haborted, hr1, hp1⟩ := h1
    refine .ite (fun _ => .bind (.read (h1.ensure fun _ => .read h1))) fun hcomp => ?_
    refine runReplacement_safe ⟨h1, hq, hr1.trans hr, hp1.trans ?_⟩
    rw [replacementPending, heq]
    show replacement.phase.pending
    cases hph : replacement.phase <;> simp_all [ReplacementPhase.pending]

/-! ## The abort -/

theorem checkAbort_eq_ok (h : checkAbort agent replacement expectedGeneration = .ok ()) :
    replacement.phase ≠ .complete := by
  rw [checkAbort, rejectIf_eq_ok] at h
  intro hc
  simp [hc] at h

theorem Request.isReplace_of_isAbort {request : Request} (h : request.isAbort) :
    request.isReplace = false := by
  cases request <;> first | rfl | cases h

theorem dropForeignDevice_ends (h : Serving q s)
    (ha : RestoreAllowed .replacement (some q.request) s.journal s.trace) :
    Ends (dropForeignDevice platform) (fun _ s' => Serving q s' ∧ Aside s s')
      (fun _ => Halted q) s := by
  refine .bind (.read ?_)
  simp only [id]
  cases hd : s.journal.device with
  | none => exact .pure ⟨h, rfl, rfl, rfl, .refl _⟩
  | some =>
    refine .when (fun _ => ?_) fun _ => ⟨h, rfl, rfl, rfl, .refl _⟩
    refine (dropDevice_ends h ha ?_).mono (fun _ s1 h1 => ⟨h1.1, h1.2.1⟩) fun _ _ he => he
    rw [hd, map_some]

section
variable (h : Serving q s) (hq : q.isAbort) (hj : s.journal = q.start)
include h hq hj

theorem runAbort_safe (hp : s.journal.replacementPending) :
    Safe q (runAbort platform expectedGeneration caller) s := by
  have haborting : Harmless s.journal (s.journal.mapReplacement fun replacement =>
      { replacement with
        abortGeneration := replacement.abortGeneration.or (some expectedGeneration)
        phase := .aborting }) := by
    refine .mapReplacement (fun _ => rfl) fun r hr => ?_
    rw [replacementPending, hr] at hp
    exact hp.symm
  refine .bind (.update (.bind (.update (.bind (Serving.storeOrReturn
    ((h.harmless haborting).harmless (.setOwner caller.processId _)) (fun s1 h1 hk1 _ => ?_)
    fun _ s1 h1 _ => h1.halted)))))
  have hrep : q.isReplace = false := Request.isReplace_of_isAbort hq
  have hallow : RestoreAllowed .replacement (some q.request) s1.journal s1.trace :=
    ⟨fun hp => (by cases hp), fun _ => .inr hq, fun hr => by cases hrep.symm.trans hr⟩
  refine .bind ((restoreReplacementNormalLocked_ends h1 hallow).mono (fun _ s2 h2 => ?_)
    fun _ _ he => he)
  obtain ⟨⟨h2, hf2⟩, hstp2, hset2⟩ := h2
  refine .bind ((dropForeignDevice_ends h2 (hallow.frame hf2)).mono (fun _ s3 h3 => ?_)
    fun _ _ he => he)
  obtain ⟨h3, ha3⟩ := h3
  refine .bind (.read (h3.check fun replacement _ => ?_))
  have hstp3 : s3.journal.steps = [] := ha3.1.trans hstp2
  have hcleaned : ∀ result, AbortCleaned ⟨s3.request, s3.journal, s3.packetSessionAttached,
      .restoreReplacementGuard replacement.guard.receipt result⟩ s3.trace := by
    refine fun result => ⟨h3.1 ▸ hq, hstp3, fun step hin hs => ?_, fun m hm ht => ?_⟩
    · have hstp : s1.journal.steps = (requestJournal s3.trace).steps := by
        rw [h3.2.1.1, ← hj, hk1.steps]
        rfl
      rw [hstp] at hset2
      exact ha3.2.2.2.settled (hset2 step hin hs)
    · refine (h3.sound.recorded_step hm ht).resolve_right ?_
      rintro ⟨step, hin, -⟩
      rw [hstp3] at hin
      cases hin
  refine .bind ((removeReplacementGuard_ends h3 fun result => .inr (hcleaned result)).mono
    (fun _ s4 h4 => ?_) fun _ _ he => he.halted)
  have hstp4 : s4.journal.steps = [] := by rw [h4.journal, hstp3]
  have hrecd := h4.serving.sound.disconnected fun step hin =>
    absurd (hstp4 ▸ hin) List.not_mem_nil
  refine .bind (.read (.bind (Ends.mono (publish_ends h4.serving ?_ ?_ ?_) (fun _ s5 h5 => .read h5)
    fun _ _ he => he.halted)))
  · rfl
  · exact fun m hm => (hrecd m hm).imp_right (records_replacement (h4.outstanding m hm) _).trans
  · exact .of_nil rfl

/-- **The abort of a replacement**, at the start of its request. -/
theorem abortReplacement_safe :
    Safe q (abortReplacement platform operationId expectedGeneration caller) s := by
  refine h.check fun _ _ => .bind (.read (h.check fun replacement hr => h.ensure fun _ =>
    h.ensure fun _ => .ite (fun _ => .read h) fun haborted => h.check fun _ hc => ?_))
  refine runAbort_safe h hq hj ?_
  have hcomp := checkAbort_eq_ok hc
  have hr : s.journal.replacement = some replacement := okOr_eq_ok hr
  rw [replacementPending, hr]
  show replacement.phase.pending
  cases hph : replacement.phase <;> simp_all [ReplacementPhase.pending]

theorem abortReplacementForMaintenance_safe :
    Safe q (abortReplacementForMaintenance platform) s := by
  refine .bind (.read ?_)
  simp only [id]
  cases s.journal.replacement.filter TunnelReplacement.pending with
  | none => exact .pure h
  | some =>
    exact h.check fun _ _ => safe_bind (abortReplacement_safe h hq hj) fun _ _ h1 => .pure h1

end

end

end Usque.Agent
