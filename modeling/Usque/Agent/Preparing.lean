/-
  Applying steps, preparing a tunnel and completing a replacement keep the
  invariant.
-/
import Usque.Agent.Recovering

namespace Usque.Agent
open Lib List

variable {journal : RecoveryJournal} {vpnChain : Bool} {parameter : StepParameter} {m : Mutation}

section
variable {platform : Platform} {q : Turn} {s s' : AgentCoordinator}
  {E : CoordinatorError → AgentCoordinator → Prop}

/-! ## Issuing a step -/

theorem enriched_kind {kind : MutationKind} {answer : Except BackendError MutationReceipt} :
    ∀ receipt ∈ enriched kind answer, receipt.kind = kind := by
  intro receipt hin
  unfold enriched at hin
  split at hin
  · split at hin
    · cases mem_singleton.1 hin
      assumption
    · cases hin
  · split at hin
    · cases mem_singleton.1 hin
      assumption
    · cases hin
  · cases hin

theorem mem_enriched_ok {receipt : MutationReceipt} :
    receipt ∈ enriched receipt.kind (.ok receipt) := by
  simp [enriched]

/-- The step was added to the journal of `s₀` and saved, and its mutation `m` was
    issued. -/
structure Issued (q : Turn) (kind : MutationKind) (receipt : MutationReceipt) (m : Mutation)
    (s₀ s : AgentCoordinator) : Prop where
  serving : Serving q s
  frame : Frame s₀ s
  steps : s.journal.steps = s₀.journal.steps ++ [⟨kind, .intended, receipt⟩]
  phase : s.journal.phase = s₀.journal.phase
  outstanding : ∀ m' ∈ outstanding s.trace, m' = m ∨ m' ∈ outstanding s₀.trace
  superseded : ∀ m', m' ≠ m → superseded s₀.trace m' = true → superseded s.trace m' = true

variable {s₀ : AgentCoordinator} {kind : MutationKind} {receipt : MutationReceipt}

theorem Serving.issue {α : Type} {answer : Nat → α} {call : α → Call}
    {Q : α → AgentCoordinator → Prop} (h : Serving q s)
    (enrich : α → Except BackendError MutationReceipt)
    (hk : Kept { s₀ with journal := s₀.journal.pushStep ⟨kind, .intended, receipt⟩ } s)
    (hl : lastSaved s.trace = s.journal) (hkind : receipt.kind = kind) (hne : kind ≠ .wintunAdapter)
    (hlive : s₀.journal.phase.live)
    (hi : ∀ a, (call a).issued = some ⟨.step, receipt :: enriched receipt.kind (enrich a)⟩)
    (hp : ∀ a, (call a).isPlain)
    (k : ∀ a s', Issued q kind receipt ⟨.step, receipt :: enriched receipt.kind (enrich a)⟩ s₀ s' →
      Q a s') :
    Ends (Agent.ask platform answer call) Q E s := by
  have hstp : s.journal.steps = s₀.journal.steps ++ [⟨kind, .intended, receipt⟩] := hk.steps
  have hrec : ∀ a, s.journal.records ⟨.step, receipt :: enriched receipt.kind (enrich a)⟩ := by
    intro a
    refine (records_step rfl).2 ⟨⟨kind, .intended, receipt⟩, ?_, fun hs => (nomatch hs),
      mem_cons_self ..⟩
    rw [hstp]
    exact mem_append_right _ (mem_singleton_self _)
  have hfrs : ∀ m, Fresh s.journal s.trace m := fun m =>
    h.sound.tracks.ordered.fresh (hk.phase ▸ hlive)
  refine h.ask (fun a => .issue (hi a) (hl ▸ hrec a) (hl.symm ▸ hfrs _)
      ⟨hrec a, hfrs _, fun _ r hr => ?_, nofun⟩)
    fun a s1 h1 ha => k a s1 ⟨h1, ?_, ?_, ?_, ?_, fun m hm hsup => ?_⟩
  · rcases mem_cons.1 hr with rfl | hr
    · exact hkind ▸ hne
    · exact enriched_kind r hr ▸ hkind ▸ hne
  · exact Frame.trans hk.frame (ha.frame (hp a))
  · rw [ha.journal, hstp]
  · rw [ha.journal, hk.phase]
    rfl
  · intro m hm
    rw [ha.trace] at hm
    rcases mem_outstanding_cons.1 hm with hm | ⟨hm, -⟩
    · exact .inl (Option.some.inj (hm.symm.trans (hi a)))
    · exact .inr (hk.outstanding ▸ hm)
  · rw [ha.trace]
    refine superseded_cons (fun heq => hm ?_) (hk.superseded m hsup)
    exact Option.some.inj (heq.symm.trans (hi a))

theorem Issued.setLast (h : Issued q kind receipt m s₀ s) (h0 : Serving q s₀)
    (state : MutationState) {receipt' : MutationReceipt} (hs : state ≠ .restored)
    (hin : receipt' ∈ m.receipts) (hk : receipt'.kind = kind) (hlive : s₀.journal.phase.live) :
    Serving q { s with journal := s.journal.setLastStep ⟨kind, state, receipt'⟩ } := by
  refine h.serving.edit (h.serving.sound.setLast h.steps rfl hk.symm hs (h.phase ▸ hlive)
    fun m' hm ht => ?_)
  by_cases heq : m' = m
  · exact .inr (.inr (heq ▸ hin))
  · have hm := (h.outstanding m' hm).resolve_left heq
    exact (h0.sound.recorded_step hm ht).imp (h.superseded m' heq) .inl

/-- The request is served in the same phase. -/
def Applied (q : Turn) (s s' : AgentCoordinator) : Prop :=
  Steady q s s' ∧ s'.journal.phase = s.journal.phase

/-- **A new step** is applied only once its intent is saved. -/
theorem applyNewStep_ends (h : Serving q s) (hph : s.journal.phase.live)
    (hne : kind ≠ .wintunAdapter) :
    Ends (applyNewStep platform kind parameter) (fun _ => Applied q s) (fun _ => Steady q s) s := by
  refine .bind (.read (.bind (.ensure (fun hnew => ?_) fun _ => ⟨h, .refl s⟩)))
  refine .bind (h.askOrReturn (fun _ => .quiet rfl) (fun receipt s₀ h0 ha => ?_)
    fun _ s₀ h0 ha => ⟨h0, ha.frame rfl⟩)
  have hf := ha.frame rfl
  refine .bind (.ensure (fun hkind => ?_) fun _ => ⟨h0, hf⟩)
  have hpush := h0.edit (h0.sound.push (ha.journal ▸ hnew) hkind (ha.journal ▸ hph))
  refine .bind (.update (.bind (hpush.storeOrReturn (fun s1 h1 hk hl => ?_)
    fun _ s1 h1 hk => ⟨h1, hf.trans hk.frame⟩)))
  have hlive : s₀.journal.phase.live := ha.journal ▸ hph
  refine .bind (h1.issue (fun a => a.map Prod.fst) hk hl hkind hne hlive (fun _ => rfl)
    (fun _ => rfl) fun a s2 hi => ?_)
  have hsteady : Steady q s s2 := ⟨hi.serving, hf.trans hi.frame⟩
  -- the enriched receipt takes the place of the intended one, and is saved
  have hset : ∀ {state receipt'} {Q : Unit → AgentCoordinator → Prop},
      state ≠ MutationState.restored → receipt'.kind = kind →
      receipt' ∈ enriched receipt.kind (a.map Prod.fst) → (∀ s3, Applied q s s3 → Q () s3) →
      Ends (storeOrReturn platform) Q (fun _ => Steady q s)
        { s2 with journal := s2.journal.setLastStep ⟨kind, state, receipt'⟩ } := by
    intro state receipt' Q hs hk hin k
    have hph2 : s2.journal.phase = s.journal.phase := by rw [hi.phase, ha.journal]
    exact (hi.setLast h0 state hs (mem_cons_of_mem _ hin) hk hlive).storeOrReturn
      (fun s3 h3 hk3 _ => k s3 ⟨⟨h3, hsteady.2.trans hk3.frame⟩, hk3.phase.trans hph2⟩)
      fun _ s3 h3 hk3 => ⟨h3, hsteady.2.trans hk3.frame⟩
  cases a with
  | ok =>
    refine .bind (.ensure (fun hk => ?_) fun _ => hsteady)
    refine .bind (.update (.bind (hset nofun hk ?_ fun s3 h3 => .pure h3)))
    simp [Except.map, enriched, hk, hkind]
  | error error =>
    cases error with
    | partialApply =>
      refine .bind (.when (fun hk => .bind (.update (hset nofun hk ?_
        fun s3 h3 => h3.1))) fun _ => hsteady)
      simp [Except.map, Agent.enriched, hk, hkind]
    | _ => exact hsteady

theorem orRecover_ends {α : Type} {m : Locked α} {Q : α → AgentCoordinator → Prop}
    {P : CoordinatorError → AgentCoordinator → Prop} (hm : Ends m Q P s)
    (he : ∀ e s', P e s' → Serving q s' ∧ (q.isReplace → s'.journal.replacementPending)) :
    Ends (orRecover platform vpnChain m) Q (fun _ => Halted q) s := by
  refine .bind (.attempt (hm.mono (fun _ _ h => h) fun e s1 h1 => ?_))
  obtain ⟨h1, hq⟩ := he e s1 h1
  exact .ite (fun _ => h1.halted) fun _ => failAfterRecovery_ends h1 hq

theorem applyOrRecover_ends (h : Serving q s) (hph : s.journal.phase.live)
    (hne : kind ≠ .wintunAdapter) (hq : q.isReplace → s.journal.replacementPending) :
    Ends (orRecover platform vpnChain (applyNewStep platform kind parameter))
      (fun _ => Applied q s) (fun _ => Halted q) s :=
  orRecover_ends (applyNewStep_ends h hph hne)
    fun _ _ h1 => ⟨h1.1, fun hr => h1.2.pending_eq.trans (hq hr)⟩

theorem storeOrRecover_ends {Q : Unit → AgentCoordinator → Prop} (h : Serving q s)
    (hq : q.isReplace → s.journal.replacementPending)
    (k : ∀ s', Serving q s' → Kept s s' → Q () s') :
    Ends (storeOrRecover platform vpnChain) Q (fun _ => Halted q) s := by
  refine .bind (h.store (fun s1 h1 hk _ => k s1 h1 hk) fun error s1 h1 hk => ?_)
  exact .ite (fun _ => h1.halted) fun _ =>
    failAfterRecovery_ends h1 fun hr => hk.frame.pending_eq.trans (hq hr)

/-! ## Preparing a tunnel -/

/-- A journal without steps may be prepared for another tunnel. -/
theorem Serving.preparing (h : Serving q s) (hstp : s.journal.steps = []) (operationId : Uuid)
    (plan : ValidatedTunnelPlan) (caller : AuthenticatedCaller) :
    Serving q { s with journal := s.journal.preparing operationId plan caller } := by
  have hfil : ∀ replacement, s.journal.replacement.filter TunnelReplacement.pending =
      some replacement → s.journal.replacement = some replacement :=
    fun _ hr => (Option.filter_eq_some_iff.1 hr).1
  refine h.edit (h.sound.edit ⟨fun m hm => ?_, nodup_nil, fun _ hin => (nomatch hin),
    .of_nil rfl, fun r hr => h.sound.tracks.guarded r (hfil r hr), nofun⟩ nofun (fun r hr => h.sound.installed r (hfil r hr))
    le_rfl)
  cases ht : m.target with
  | step =>
    refine (h.sound.recorded_step hm ht).imp_right ?_
    rintro ⟨step, hin, -⟩
    rw [hstp] at hin
    cases hin
  | device =>
    refine (h.sound.tracks.recorded m hm).imp_right fun hr => ?_
    obtain ⟨device, hd, hin⟩ := (records_device ht).1 hr
    exact (records_device ht).2 ⟨_, congrArg (Option.map _) hd, hin⟩
  | guard =>
    refine (h.sound.tracks.recorded m hm).imp_right fun hr => ?_
    obtain ⟨replacement, heq, hp, hg⟩ := (records_guard ht).1 hr
    exact (records_guard ht).2 ⟨replacement, Option.filter_eq_some_iff.2 ⟨heq, hp⟩, hp, hg⟩

/-- A tunnel on the managed device is being set up. -/
structure Staging (q : Turn) (s : AgentCoordinator) : Prop where
  serving : Serving q s
  phase : s.journal.phase.live = true
  device : s.journal.device.isSome = true
  pending : q.isReplace = true → s.journal.replacementPending = true

theorem Staging.frame (h : Staging q s) (hs : Applied q s s') : Staging q s' :=
  ⟨hs.1.1, hs.2 ▸ h.phase, hs.1.2.device ▸ h.device,
    fun hr => hs.1.2.pending_eq.trans (h.pending hr)⟩

/-- **The preparation of a tunnel** on the managed device. -/
theorem prepareLocked_ends {operationId : Uuid} {plan : ValidatedTunnelPlan}
    {caller : AuthenticatedCaller} (h : Serving q s) (hstp : s.journal.steps = [])
    (hd : s.journal.device.isSome) (hq : q.isReplace → s.journal.replacementPending) :
    Ends (prepareLocked platform operationId plan caller)
      (fun _ s' => Serving q s' ∧ (q.isReplace → s'.journal.replacementPending))
      (fun _ => Halted q) s := by
  have hstage : Staging q { s with journal := s.journal.preparing operationId plan caller } := by
    refine ⟨h.preparing hstp _ _ _, rfl, Option.isSome_map.trans hd, fun hr => ?_⟩
    obtain ⟨replacement, heq, hp⟩ := (Option.any_eq_true ..).1 (hq hr)
    exact (Option.any_eq_true ..).2 ⟨replacement, Option.filter_eq_some_iff.2 ⟨heq, hp⟩, hp⟩
  refine .bind (.update (.bind (hstage.serving.storeOrReturn (fun s1 h1 hk _ => ?_)
    fun _ _ h1 _ => h1.halted)))
  refine .bind ((Ends.forM (I := Staging q) (hstage.frame ⟨⟨h1, hk.frame⟩, hk.phase⟩)
    fun kind _ s2 h2 => ?_).mono
    (fun _ s2 h2 => ?_) fun _ _ he => he)
  · refine .bind (.read (.when (fun hk => .bind ?_) fun _ => h2))
    have hne : kind ≠ .wintunAdapter := fun hkind => hk ⟨hkind, h2.device⟩
    exact (applyOrRecover_ends h2.serving h2.phase hne h2.pending).mono
      (fun _ s3 h3 => .pure (h2.frame h3)) fun _ _ he => he
  · have hh := Harmless.phase .prepared nofun fun _ => h2.phase
    have hp := fun hr => hh.pending_eq.trans (h2.pending hr)
    exact .bind (.update (.bind (storeOrRecover_ends (h2.serving.harmless hh) hp
      fun s3 h3 hk => .read ⟨h3, fun hr => hk.frame.pending_eq.trans (hp hr)⟩)))

/-! ## Completing a replacement -/

theorem publish_ends {completed : RecoveryJournal} (h : Serving q s)
    (hgen : completed.generation = s.journal.generation)
    (recorded : ∀ m ∈ outstanding s.trace, superseded s.trace m ∨ completed.records m)
    (ordered : Ordered completed s.trace) :
    Ends (publish platform completed) (fun _ => Serving q) (fun _ => Serving q) s := by
  refine .bind (h.save hgen.ge recorded ordered ?_ ?_)
  · intro saved len s1 _ h1 _
    exact .update h1
  · intro saved error s1 _ hle h1 ha
    have hh : Harmless s1.journal { s1.journal with generation := saved.generation } :=
      ⟨rfl, rfl, rfl, rfl, id, id, ha.journal ▸ hle⟩
    exact .bind (.update (h1.harmless hh))

/-- The guard is gone, with everything that the call after it kept. -/
structure Unguarded (q : Turn) (s s' : AgentCoordinator) : Prop where
  serving : Serving q s'
  journal : s'.journal = s.journal
  outstanding : ∀ m ∈ outstanding s'.trace, m.target ≠ .guard

theorem removeReplacementGuard_ends {receipt : MutationReceipt} (h : Serving q s)
    (hrule : ∀ result, TargetLive ⟨s.request, s.journal, s.packetSessionAttached,
        .restoreReplacementGuard receipt result⟩ s.trace ∨
      AbortCleaned ⟨s.request, s.journal, s.packetSessionAttached,
        .restoreReplacementGuard receipt result⟩ s.trace) :
    Ends (removeReplacementGuard platform receipt) (fun _ => Unguarded q s) (fun _ => Serving q) s := by
  have hc : ∀ result, Callable (.restoreReplacementGuard receipt result) s := fun result =>
    ⟨rfl, rfl, fun _ _ hc => (nomatch hc), hrule result, fun _ hm => nomatch hm⟩
  refine .bind (h.askOrReturn hc (fun u s1 h1 ha1 => ?_) fun _ s1 h1 _ => h1)
  refine .bind (h1.askOrReturn (fun _ => .quiet rfl) (fun active s2 h2 ha2 => ?_)
    fun _ s2 h2 _ => h2)
  refine .ensure (fun _ => ⟨h2, ha2.journal.trans ha1.journal, fun m hm ht => ?_⟩) fun _ => h2
  · rw [ha2.outstanding_quiet rfl, ha1.trace] at hm
    rcases mem_outstanding_cons.1 hm with hm | ⟨-, hu⟩
    · cases hm
    · simp [Call.undoes, ht] at hu

theorem records_replacement (h : m.target ≠ .guard) (replacement : Option TunnelReplacement) :
    { journal with replacement := replacement }.records m = journal.records m := by
  cases ht : m.target with
  | step | device => simp only [RecoveryJournal.records, ht]
  | guard => exact absurd ht h

theorem Harmless.mapReplacement {f : TunnelReplacement → TunnelReplacement}
    (hg : ∀ r, (f r).guard = r.guard)
    (hp : ∀ r, journal.replacement = some r → (f r).pending = r.pending) :
    Harmless journal (journal.mapReplacement f) := by
  refine ⟨rfl, rfl, ?_, rfl, id, id, le_rfl⟩
  show (journal.replacement.map f).map _ = _
  cases hr : journal.replacement with
  | none => rfl
  | some r => simp only [Option.map_some, hg, hp r hr]

theorem Harmless.replacementPhase {phase : ReplacementPhase}
    (hj : journal.replacementPending) (hp : phase.pending) :
    Harmless journal (journal.mapReplacement fun replacement =>
      { replacement with phase := phase }) := by
  refine .mapReplacement (fun _ => rfl) fun r hr => ?_
  rw [RecoveryJournal.replacementPending, hr] at hj
  exact hp.trans hj.symm

/-- **The completion of a replacement.** -/
theorem completeReplacementLocked_ends (h : Serving q s) :
    Ends (completeReplacementLocked platform) (fun _ => Serving q) (fun _ => Serving q) s := by
  refine .bind (.read ?_)
  simp only [id]
  cases hf : s.journal.replacement.filter TunnelReplacement.pending with
  | none => exact .pure h
  | some replacement =>
    obtain ⟨hr, hp⟩ := Option.filter_eq_some_iff.1 hf
    refine .bind (.ensure (fun htgt => ?_) fun _ => h)
    refine .bind (h.askOrReturn (fun _ => .quiet rfl) (fun inspection s1 h1 ha1 => ?_)
      fun _ s1 h1 _ => h1)
    refine .bind (.ensure (fun hlive => ?_) fun _ => h1)
    have hpend : s1.journal.replacementPending := by
      rw [ha1.journal, RecoveryJournal.replacementPending, hr]
      exact hp
    have hh := h1.harmless (.replacementPhase hpend (rfl : ReplacementPhase.committing.pending = _))
    refine .bind (.update (.bind (hh.storeOrReturn (fun s2 h2 hk _ => ?_) fun _ s2 h2 _ => h2)))
    have hrule : ∀ result, TargetLive ⟨s2.request, s2.journal, s2.packetSessionAttached,
        .restoreReplacementGuard replacement.guard.receipt result⟩ s2.trace := by
      intro result
      have hr2 : s2.journal.replacement = some { replacement with phase := .committing } := by
        refine hk.frame.replacement.trans (?_ : s1.journal.replacement.map _ = _)
        rw [ha1.journal, hr]
        rfl
      have hid : s2.journal.operationId = s.journal.operationId := by
        refine hk.frame.operationId.trans (?_ : s1.journal.operationId = _)
        rw [ha1.journal]
      have hin : ⟨s.request, s.journal, s.packetSessionAttached, .inspectTunnel (.ok inspection)⟩ ∈
          sinceRequest s1.trace := by
        rw [ha1.trace]
        exact mem_cons_self ..
      refine ⟨⟨_, hr2, hid.trans htgt.1⟩, hk.session.trans (ha1.session.trans htgt.2), _,
        hk.frame.grown.mem_sinceRequest hin, ?_, hid.symm⟩
      rw [hlive]
    refine .bind ((removeReplacementGuard_ends h2 fun result => .inl (hrule result)).mono
      (fun _ s3 h3 => ?_) fun _ _ he => he)
    refine .bind (.read (publish_ends h3.serving rfl (fun m hm => ?_) ?_))
    · have hrec := h3.serving.sound.tracks.recorded m hm
      exact hrec.imp_right (records_replacement (h3.outstanding m hm) _).trans
    · exact h3.serving.sound.tracks.ordered.subset (fun _ hin => hin) id

/-! ## The system proxy -/

theorem restoreProxyAttempts_ends {Q : Except BackendError Unit → AgentCoordinator → Prop}
    (attempts : Nat) (s : AgentCoordinator) (h : Serving q s) (hq : q.isReplace = false)
    (k : ∀ r s', Serving q s' → Frame s s' → s'.journal = s.journal →
      (r = .ok () → Done s'.trace receipt) → Q r s') :
    Ends (restoreProxyAttempts platform receipt attempts) Q E s := by
  have hallow : ∀ s : AgentCoordinator, RestoreAllowed .direct (some q.request) s.journal s.trace :=
    fun s => .other hq nofun nofun
  induction attempts generalizing s with
  | zero =>
    refine h.ask (fun _ => .restore h (hallow s)) fun r s1 h1 ha => ?_
    refine k r s1 h1 (ha.frame rfl) ha.journal fun hr => ?_
    subst hr
    exact ha.trace ▸ done_restored
  | succ _ ih =>
    refine .bind (h.ask (fun _ => .restore h (hallow s)) fun r s1 h1 ha => ?_)
    cases r with
    | ok => exact .pure (k _ s1 h1 (ha.frame rfl) ha.journal fun _ => ha.trace ▸ done_restored)
    | error =>
      refine ih s1 h1 fun r s2 h2 hf hj => ?_
      exact k r s2 h2 ((ha.frame rfl).trans hf) (hj.trans ha.journal)

/-- The proxy that was added last is restored and dropped. -/
theorem rollbackAppendedSystemProxy_ends {α : Type} {apply : String} {step : MutationRecord}
    {steps : List MutationRecord} {Q : α → AgentCoordinator → Prop} (h : Serving q s)
    (hq : q.isReplace = false) (hstp : s.journal.steps = steps ++ [step]) :
    Ends (rollbackAppendedSystemProxy platform step.receipt apply) Q (fun _ => Serving q) s := by
  refine .bind (restoreProxyAttempts_ends _ s h hq fun r s1 h1 hf hj hdone => ?_)
  cases r with
  | error => exact h1
  | ok =>
    have hstp1 : s1.journal.steps = steps ++ [step] := hj ▸ hstp
    have hdrop : Serving q { s1 with journal := s1.journal.dropLastStep } := by
      refine h1.edit (h1.sound.sublist (dropLast_sublist _) fun step' hin => ?_)
      rw [hstp1, mem_append, mem_singleton] at hin
      rw [hstp1, dropLast_concat]
      rcases hin with hin | rfl
      · exact .inl hin
      · exact .inr (.inr (hdone rfl))
    refine .bind (.update (.bind (hdrop.store (fun s2 h2 _ _ => ?_) fun _ s2 h2 _ => ?_)))
    all_goals exact h2

end

end Usque.Agent
