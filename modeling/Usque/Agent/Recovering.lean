/-
  Retiring the device and recovery keep the invariant.
-/
import Usque.Agent.Restoring

namespace Usque.Agent
open Lib Bool

variable {journal : RecoveryJournal} {result : Option DeviceRetirement} {device : ManagedDevice}
  {trace : List Entry} {attached : Bool}

section
variable {platform : Platform} {q : Turn} {s s' : AgentCoordinator} {path : RestorePath}

/-! ## Retirement of the device -/

theorem Serving.setResult (h : Serving q s) (hl : s.deviceLeaseAttached = false)
    (result : DeviceRetirement)
    (hr : result = .complete → ∀ m ∈ outstanding s.trace, m.target ≠ .device) :
    Serving q { s with deviceRetirementResult := some result } :=
  ⟨h.1, h.2.1, h.sound.legal, h.sound.tracks, h.sound.adapters, h.sound.durable, h.sound.installed,
    h.sound.generation, h.sound.since, fun ha => absurd (ha.symm.trans hl) (by decide),
    fun hc => hr (Option.some.inj hc)⟩

theorem RestoreAllowed.other (hq : q.isReplace = false)
    (hrecovery : path = .recovery → s.journal.replacementPending = false)
    (hrepl : path ≠ .replacement) : RestoreAllowed path (some q.request) s.journal s.trace := by
  refine ⟨hrecovery, fun hp => absurd hp hrepl, fun hr => ?_⟩
  cases hq.symm.trans hr

theorem Harmless.deviceState (state : DeviceState) (journal : RecoveryJournal) :
    Harmless journal
      { journal with device := journal.device.map fun device => { device with state := state } } := by
  refine ⟨rfl, ?_, rfl, rfl, id, id, le_rfl⟩
  rw [Option.map_map]
  rfl

/-- What is outstanding in the phase `Clean` is the device, unless it went with its
    adapter. -/
theorem Sound.clean_superseded (h : Sound trace journal attached result)
    (hc : journal.phase = .clean) {m : Mutation} (hm : m ∈ outstanding trace)
    (hd : m.target ≠ .device) : superseded trace m := by
  obtain ⟨-, hstp, hp⟩ := h.tracks.clean hc
  refine (h.tracks.recorded m hm).resolve_right fun hr => ?_
  cases ht : m.target with
  | step =>
    obtain ⟨step, hin, -⟩ := (records_step ht).1 hr
    rw [hstp] at hin
    cases hin
  | device => exact hd ht
  | guard =>
    obtain ⟨replacement, heq, hpend, -⟩ := (records_guard ht).1 hr
    rw [RecoveryJournal.replacementPending, heq, Option.any_some, hpend] at hp
    cases hp

structure Retiring (q : Turn) (s s' : AgentCoordinator) : Prop where
  serving : Serving q s'
  phase : s'.journal.phase = s.journal.phase
  receipt : s'.journal.device.map (·.receipt) = s.journal.device.map (·.receipt)
  attached : s'.deviceLeaseAttached = true → s.deviceLeaseAttached = true
  grown : Grown s.trace s'.trace

theorem Retiring.trans {s'' : AgentCoordinator} (h : Retiring q s s') (h' : Retiring q s' s'') :
    Retiring q s s'' :=
  ⟨h'.serving, h'.phase.trans h.phase, h'.receipt.trans h.receipt,
    fun ha => h.attached (h'.attached ha), h.grown.trans h'.grown⟩

theorem Retiring.detached (h : Retiring q s s') (hl : s.deviceLeaseAttached = false) :
    s'.deviceLeaseAttached = false :=
  eq_false_iff.2 fun ha => Bool.false_ne_true (hl.symm.trans (h.attached ha))

theorem Retiring.isSome (h : Retiring q s s') (hd : s.journal.device = some device) :
    s'.journal.device.isSome := by
  have hr := congrArg Option.isSome h.receipt
  rw [Option.isSome_map, hd] at hr
  exact hr

theorem Retiring.edit (h : Retiring q s s') (hh : Harmless s'.journal journal)
    (hp : journal.phase = s'.journal.phase) : Retiring q s { s' with journal := journal } :=
  ⟨h.serving.harmless hh, hp.trans h.phase, hh.device.trans h.receipt, h.attached, h.grown⟩

theorem Retiring.of_kept (h : Serving q s') (hh : Harmless s.journal journal)
    (hp : journal.phase = s.journal.phase) (hk : Kept { s with journal := journal } s') :
    Retiring q s s' := by
  refine ⟨h, hk.phase.trans hp, ?_, hk.frame.attached, hk.frame.grown⟩
  rw [hk.frame.device]
  exact hh.device

/-- A failed retirement leaves the journal `Clean` with its device. -/
def RetiringFailed (q : Turn) (s : AgentCoordinator) (error : CoordinatorError)
    (s' : AgentCoordinator) : Prop :=
  Serving q s' ∧ s'.deviceLeaseAttached = false ∧
    (s.journal.phase = .clean → s'.journal.phase = .clean ∧ s'.journal.device.isSome = true) ∧
    Grown s.trace s'.trace ∧ (error = .recoveryBusy ∨ ∃ failure, error = .journal failure)

theorem Retiring.failed {error : JournalError} (h : Retiring q s s')
    (hl : s.deviceLeaseAttached = false) (hd : s.journal.device = some device) :
    RetiringFailed q s (.journal error) s' :=
  ⟨h.serving, h.detached hl, fun hp => ⟨h.phase.trans hp, h.isSome hd⟩, h.grown, .inr ⟨error, rfl⟩⟩

/-- The restore of the device restores every device that is outstanding. -/
theorem Serving.none_outstanding (h : Serving q s) {receipt : MutationReceipt}
    {adapter : Option MutationReceipt} (hd : s.journal.device.map (·.receipt) = some receipt)
    (ha : Asked (.restoreStep path receipt adapter (.ok ())) s s') :
    ∀ m ∈ outstanding s'.trace, m.target ≠ .device := by
  intro m hm ht
  rw [ha.trace] at hm
  rcases mem_outstanding_cons.1 hm with hm | ⟨hm, hu⟩
  · cases hm
  · have hrec := (h.sound.tracks.recorded m hm).resolve_left fun hsup =>
      nomatch (target_of_superseded hsup).symm.trans ht
    obtain ⟨device, hdevice, hin⟩ := (records_device ht).1 hrec
    rw [hdevice, Option.map_some, Option.some.injEq] at hd
    simp [Call.undoes, ht, ← hd, hin] at hu

section
variable (h : Serving q s) (hq : q.isReplace = false) (hl : s.deviceLeaseAttached = false)
include h hq hl

theorem removeDevice_ends (hd : s.journal.device = some device) :
    Ends (removeDevice platform device.receipt)
      (fun r s' => Retiring q s s' ∧ (r = .complete → ∀ m ∈ outstanding s'.trace, m.target ≠ .device))
      (fun error s' => Retiring q s s' ∧ ∃ failure, error = .journal failure) s := by
  refine .bind (.read ?_)
  cases hres : s.deviceRetirementResult with
  | some => exact .pure ⟨⟨h, rfl, rfl, id, .refl _⟩, fun hc => h.sound.retired (hc ▸ hres)⟩
  | none =>
    have hh := Harmless.deviceState .retiring s.journal
    refine .bind (.update (.bind ((h.harmless hh).store (fun s1 h1 hk _ => ?_)
      fun error s1 h1 hk => ?_)))
    · have hr1 := Retiring.of_kept h1 hh rfl hk
      refine .bind (.update (.bind (.check (fun _ _ => ?_) fun e he => nomatch he)))
      refine .bind (.updateWith (P := Retiring q s) ⟨h1.setResult (hr1.detached hl) .deferred
        nofun, hr1.phase, hr1.receipt, hr1.attached, hr1.grown⟩ fun s2 hr2 => ?_)
      have hallow : RestoreAllowed .device (some q.request) s2.journal s2.trace :=
        .other hq nofun nofun
      refine .bind (hr2.serving.ask (fun _ => .restore hr2.serving hallow) fun r s3 h3 ha => ?_)
      have hr3 : Retiring q s s3 := hr2.trans ⟨h3, congrArg _ ha.journal, by rw [ha.journal],
        ha.attached, (ha.frame rfl).grown⟩
      cases r with
      | error =>
        have h4 := h3.setResult (hr3.detached hl) .deferred nofun
        exact .bind (.update (.pure ⟨⟨h4, hr3.phase, hr3.receipt, hr3.attached, hr3.grown⟩, nofun⟩))
      | ok =>
        have hreceipt : s2.journal.device.map (·.receipt) = some device.receipt := by
          rw [hr2.receipt, hd, Option.map_some]
        have hnone := hr2.serving.none_outstanding hreceipt ha
        have h4 := h3.setResult (hr3.detached hl) .complete fun _ => hnone
        exact .bind (.update (.pure ⟨⟨h4, hr3.phase, hr3.receipt, hr3.attached, hr3.grown⟩,
          fun _ => hnone⟩))
    · have hr1 := Retiring.of_kept h1 hh rfl hk
      refine .bind (.update (.bind (.check (fun _ he => nomatch he) fun e he => ?_)))
      cases he
      exact ⟨⟨hr1.serving, hr1.phase, hr1.receipt, hr1.attached, hr1.grown⟩, error, rfl⟩

/-- **The retirement of the device.** -/
theorem retireDeviceLocked_ends :
    Ends (retireDeviceLocked platform)
      (fun _ s' => Serving q s' ∧ s'.deviceLeaseAttached = false)
      (RetiringFailed q s) s := by
  refine .bind (.read (.ite (fun _ => .pure ⟨h, hl⟩) fun _ => .bind (.read ?_)))
  cases hd : s.journal.device with
  | none => exact .pure ⟨h, hl⟩
  | some =>
    refine .bind (.read (.bind (.ensure (fun hc => ?_) fun _ =>
      ⟨h, hl, fun hp => ⟨hp, by simp only [hd, Option.isSome_some]⟩, .refl _, .inl rfl⟩)))
    refine .bind ((removeDevice_ends h hq hl hd).mono ?_ ?_)
    on_goal 2 =>
      rintro _ s1 ⟨hr1, failure, rfl⟩
      exact hr1.failed hl hd
    rintro retirement s1 ⟨hr1, hnone⟩
    have hcln : s1.journal.phase = .clean := hr1.phase.trans hc.1
    have hl1 := hr1.detached hl
    cases retirement with
    | deferred =>
      have hh := Harmless.deviceState .recoveryRequired s1.journal
      refine .bind (.update (.bind ((hr1.serving.harmless hh).store (fun s2 h2 hk _ => ?_)
        fun error s2 h2 hk => ?_)))
      · have hr2 := hr1.trans (.of_kept h2 hh rfl hk)
        refine .bind (.update (.bind (.check (fun _ _ => ?_) fun e he => nomatch he)))
        exact .bind (.update (.pure ⟨h2, hr2.detached hl⟩))
      · have hr2 := hr1.trans (.of_kept h2 hh rfl hk)
        refine .bind (.update (.bind (.check (fun _ he => nomatch he) fun e he => ?_)))
        cases he
        exact Retiring.failed ⟨h2, hr2.phase, hr2.receipt, hr2.attached, hr2.grown⟩ hl hd
    | complete =>
      refine .bind (.read (.bind (hr1.serving.save le_rfl (fun m hm => .inl ?_) ?_ ?_ ?_)))
      · exact hr1.serving.sound.clean_superseded hcln hm (hnone rfl m hm)
      · exact .of_nil rfl
      · intro saved len s2 _ h2 ha
        refine .bind (.update (.bind (.update (.bind (.update (.pure ⟨h2, ?_⟩))))))
        exact eq_false_iff.2 fun ht => Bool.false_ne_true (hl1.symm.trans (ha.attached ht))
      · intro saved error s2 _ hle h2 ha
        have hr2 : Retiring q s s2 := hr1.trans ⟨h2, congrArg _ ha.journal, by rw [ha.journal],
          ha.attached, (ha.frame rfl).grown⟩
        refine .bind (.updateWith (P := fun s3 => Retiring q s s3 ∧ s3.journal = s2.journal)
          ⟨⟨h2, hr2.phase, hr2.receipt, hr2.attached, hr2.grown⟩, rfl⟩ fun s3 ⟨hr3, hj3⟩ => ?_)
        have hgen : Harmless s3.journal { s3.journal with generation := saved.generation } :=
          ⟨rfl, rfl, rfl, rfl, id, id, (hj3.trans ha.journal) ▸ hle⟩
        refine .bind (.updateWith (P := Retiring q s) (hr3.edit hgen rfl) fun s4 hr4 => ?_)
        have hr5 := hr4.edit (Harmless.deviceState .recoveryRequired s4.journal) rfl
        exact .bind (.update (hr5.failed hl hd))

end

/-! ## Recovery -/

/-- The journal without its steps records what is outstanding, once nothing needs
    them. -/
theorem Sound.disconnected (h : Sound trace journal attached result)
    (hdone : ∀ step ∈ journal.steps, step.state = .restored ∨ Done trace step.receipt) :
    ∀ m ∈ outstanding trace, superseded trace m ∨ journal.disconnected.records m := by
  intro m hm
  cases ht : m.target with
  | step =>
    rcases h.recorded_step hm ht with hsup | ⟨step, hin, hs, hr⟩
    · exact .inl hsup
    · exact .inl ((hdone step hin).resolve_left hs m hm ht hr)
  | device =>
    refine (h.tracks.recorded m hm).imp_right fun hr => ?_
    obtain ⟨device, hd, hin⟩ := (records_device ht).1 hr
    refine (records_device ht).2 ⟨_, congrArg (Option.map _) hd, ?_⟩
    dsimp only
    split <;> exact hin
  | guard =>
    refine (h.tracks.recorded m hm).imp_right fun hr => ?_
    obtain hr := (records_guard ht).1 hr
    exact (records_guard ht).2 hr

theorem Harmless.phase (phase : RecoveryPhase) (hp : phase ≠ .clean)
    (hl : phase.live → journal.phase.live) : Harmless journal { journal with phase := phase } :=
  ⟨rfl, rfl, rfl, rfl, fun hc => absurd hc hp, hl, le_rfl⟩

def Recovered (q : Turn) (s s' : AgentCoordinator) : Prop :=
  Serving q s' ∧ (s'.deviceLeaseAttached = true → s.deviceLeaseAttached = true)

def FailedRecovery (q : Turn) (s : AgentCoordinator) (error : CoordinatorError)
    (s' : AgentCoordinator) : Prop :=
  Serving q s' ∧ FailedPhase s.journal error s'.journal s'.trace

theorem FailedPhase.cons {before : RecoveryJournal} {error : CoordinatorError} {entry : Entry}
    (h : FailedPhase before error journal trace) (hb : entry.call.isBoundary = false) :
    FailedPhase before error journal (entry :: trace) := by
  refine h.imp_right (Or.imp_right fun h => ?_)
  have hmem : ∀ e ∈ sinceRequest trace, e ∈ sinceRequest (entry :: trace) := by
    intro e hin
    rw [sinceRequest_cons hb]
    exact List.mem_cons_of_mem _ hin
  have hsince : ∀ {receipt}, RestoredSince trace receipt → RestoredSince (entry :: trace) receipt := by
    rintro receipt ⟨e, hin, hcall⟩
    exact ⟨e, hmem e hin, hcall⟩
  obtain ⟨e, hin, hsvd⟩ := h.saved
  refine ⟨h.phase, h.device, fun step hstep hs => ?_, ⟨e, hmem e hin, hsvd⟩, h.error⟩
  rcases h.restored step hstep hs with hres | ⟨adapter, hadapter, hw, hres⟩
  · exact .inl (hsince hres)
  · exact .inr ⟨adapter, hadapter, hw, hres.imp_right hsince⟩

theorem failRecovery_ends {failures : List RecoveryFailure} {Q : Unit → AgentCoordinator → Prop}
    (h : Serving q s') (hp : s'.journal.phase = .recoveryRequired) :
    Ends (failRecovery platform failures) Q (FailedRecovery q s) s' := by
  refine .bind (h.store (fun s1 h1 hk _ => ?_) fun _ s1 h1 hk => ?_)
  all_goals exact ⟨h1, .inl (hk.phase.trans hp)⟩

theorem finishRecovery_ends (h : Steady q s s') (hq : q.isReplace = false)
    (hall : ∀ step ∈ s'.journal.steps, step.state = .restored)
    (hset : ∀ step ∈ s.journal.steps, step.state ≠ .restored →
      Settled s'.trace s.journal.steps step.receipt) :
    Ends (finishRecovery platform) (fun _ => Recovered q s) (FailedRecovery q s) s' := by
  have hdone := h.1.sound.disconnected fun step hin => .inl (hall step hin)
  refine .bind (.read (.bind (h.1.save le_rfl hdone (.of_nil rfl) ?_ ?_)))
  · intro saved len s1 hsvd h1 ha
    have hin : ⟨s'.request, s'.journal, s'.packetSessionAttached, .save saved (.ok len)⟩ ∈
        sinceRequest s1.trace := by
      rw [ha.trace]
      exact List.mem_cons_self ..
    refine .bind (.updateWith (P := fun s2 => Recovered q s s2 ∧ s2.journal.phase = .clean ∧
      s2.trace = s1.trace) ⟨⟨h1, fun ht => h.2.attached (ha.attached ht)⟩, hsvd ▸ rfl, rfl⟩
      fun s2 ⟨h2, hcln, htrace⟩ => ?_)
    refine .bind (.read (.when (fun hc => ?_) fun _ => h2))
    refine .bind ((retireDeviceLocked_ends h2.1 hq hc.2).mono (fun _ s3 h3 => ?_) fun _ s3 h3 => ?_)
    · exact .pure ⟨h3.1, fun ht => absurd (h3.2.symm.trans ht) Bool.false_ne_true⟩
    · obtain ⟨h3, -, hfailed, hgrown, herror⟩ := h3
      rw [htrace] at hgrown
      have hgrown' : Grown s'.trace s3.trace := (ha.trace ▸ Grown.cons rfl).trans hgrown
      exact ⟨h3, .inr (.inr ⟨(hfailed hcln).1, (hfailed hcln).2,
        fun step hstep hs => hgrown'.settled (hset step hstep hs),
        ⟨_, hgrown.mem_sinceRequest hin, saved, len, rfl, hsvd ▸ rfl⟩, herror⟩)⟩
  · intro saved error s1 _ hle h1 ha
    have hh : Harmless s1.journal
        { s1.journal with generation := saved.generation, phase := .recoveryRequired } :=
      ⟨rfl, rfl, rfl, rfl, fun hc => (nomatch hc), fun hl => (nomatch hl), ha.journal ▸ hle⟩
    exact .bind (.update (failRecovery_ends (h1.harmless hh) rfl))

theorem recoverSteps_ends {recoveringSaved : Except JournalError Unit} (h : Steady q s s')
    (hq : q.isReplace = false) (hp : s'.journal.replacementPending = false)
    (hlive : s'.journal.phase.live = false) (hstp : s'.journal.steps = s.journal.steps) :
    Ends (recoverSteps platform recoveringSaved) (fun _ => Recovered q s) (FailedRecovery q s) s' := by
  have hallow : RestoreAllowed .recovery (some q.request) s'.journal s'.trace :=
    .other hq (fun _ => hp) nofun
  refine .bind ((restoreStepsLocked_ends h.1 hallow hlive).mono ?_ fun _ _ he => he)
  rintro failures s1 ⟨h1, hall⟩
  refine .ite (fun _ => ?_) fun hf => ?_
  · exact .bind (.update (failRecovery_ends (h1.1.harmless (.phase _ nofun nofun)) rfl))
  · obtain ⟨hrest, hset⟩ := hall (not_not.1 hf)
    exact finishRecovery_ends ⟨h1.1, h.2.trans h1.2⟩ hq hrest (hstp ▸ hset)

section
variable (h : Serving q s) (hq : q.isReplace → s.journal.replacementPending)
include h hq

theorem recoverJournal_ends :
    Ends (recoverJournal platform) (fun _ => Recovered q s) (FailedRecovery q s) s := by
  refine .bind (.read (.bind (.ensure (fun hp => ?_) fun hp => ?_)))
  · have hq : q.isReplace = false :=
      eq_false_iff.2 fun hr => Bool.false_ne_true (hp.symm.trans (hq hr))
    have hh : Harmless s.journal
        { s.journal with phase := .recovering, pauseDeadlineUnixSeconds := none } :=
      ⟨rfl, rfl, rfl, rfl, fun hc => (nomatch hc), fun hl => (nomatch hl), le_rfl⟩
    refine .bind (.update (.bind (.updateWith (P := fun s1 => Steady q s s1 ∧
      s1.journal.phase = .recovering ∧ s1.journal.steps = s.journal.steps)
      ⟨⟨h.harmless hh, ?_⟩, rfl, rfl⟩ fun s1 ⟨h1, hph, hstp⟩ => ?_)))
    · exact ⟨rfl, rfl, rfl, ⟨fun hc => (nomatch hc), fun hl => (nomatch hl)⟩, rfl, id, .refl _⟩
    -- the recovery goes on whether or not its phase was saved
    · refine .bind (h1.1.store (fun s2 h2 hk _ => ?_) fun _ s2 h2 hk => ?_)
      all_goals
        have hf := h1.2.trans hk.frame
        refine recoverSteps_ends ⟨h2, hf⟩ hq (hf.pending_eq.trans hp) ?_ (hk.steps.trans hstp)
        rw [hk.phase, hph]
        rfl
  · exact ⟨h, .inr (.inl ⟨rfl, not_eq_false _ ▸ hp, rfl⟩)⟩

/-- **Recovery.** -/
theorem recoverLocked_ends :
    Ends (recoverLocked platform) (fun _ => Recovered q s) (fun _ => Halted q) s := by
  refine .bind (.read (.bind (.attempt ((recoverJournal_ends h hq).mono ?_ ?_))))
  · intro u s1 ⟨h1, hl⟩
    have hc : Callable (.recovered s.journal (.ok u)) s1 :=
      ⟨rfl, rfl, fun _ _ hc => (nomatch hc), fun _ hm => (nomatch hm), fun _ hm => nomatch hm⟩
    refine .bind (h1.ask (fun _ => hc) fun _ s2 h2 ha => ?_)
    exact ⟨h2, fun ht => hl (ha.attached ht)⟩
  · intro error s1 ⟨h1, hph⟩
    have ha : Asked (.recovered s.journal (.error error)) s1
      (s1.record platform (.recovered s.journal (.error error))) := .record
    refine ⟨h1.1, h1.2.1.1, fun entry hin before e hcall => ?_, h1.sound.record rfl rfl
      (fun _ hm => nomatch hm) (fun _ hm => nomatch hm) ha.attached⟩
    rcases List.mem_cons.1 hin with rfl | hin
    · cases hcall
      exact hph.cons rfl
    · exact absurd hcall (h1.2.1.2 entry hin before e)

theorem failAfterRecovery_ends {α : Type} {error : CoordinatorError} {apply : String}
    {Q : α → AgentCoordinator → Prop} :
    Ends (failAfterRecovery platform error apply) Q (fun _ => Halted q) s := by
  refine .bind (.attempt ((recoverLocked_ends h hq).mono ?_ ?_))
  · exact fun _ s1 h1 => h1.1.halted
  · exact fun _ s1 h1 => h1

end

end

end Usque.Agent
