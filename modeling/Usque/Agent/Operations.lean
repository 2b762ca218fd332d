/-
  The operations on tunnels, the system proxy and the device keep the invariant:
  for each operation, with a value it ends serving its request, and with an error
  it ends as a failed recovery may.
-/
import Usque.Agent.Preparing

namespace Usque.Agent
open Lib List Bool

variable {expectedGeneration : Nat} {journal : RecoveryJournal} {kind : MutationKind}
  {step : MutationRecord}

variable {Q : Except CoordinatorError MutationReceipt → AgentCoordinator → Prop}
  {E : CoordinatorError → AgentCoordinator → Prop} {adapter : Option MutationReceipt}
  {plan : ValidatedTunnelPlan} {leaseEpoch : Nat}

section
variable {platform : Platform} {q : Turn} {s s' : AgentCoordinator} {operationId : Uuid}
  {caller : AuthenticatedCaller}

abbrev Safe {α : Type} (q : Turn) (m : Locked α) (s : AgentCoordinator) : Prop :=
  Ends m (fun _ => Serving q) (fun _ => Halted q) s

theorem Serving.check {α β : Type} {r : Except CoordinatorError β} {f : β → Locked α}
    (h : Serving q s) (k : ∀ b, r = .ok b → Safe q (f b) s) : Safe q (Prog.check r >>= f) s :=
  .bind (.check k fun _ _ => h.halted)

theorem Serving.ensure {α : Type} {c : Prop} [Decidable c] {e : CoordinatorError}
    {f : Unit → Locked α} (h : Serving q s) (k : c → Safe q (f ()) s) :
    Safe q (Prog.ensure c e >>= f) s :=
  .bind (.ensure k fun _ => h.halted)

theorem safe_bind {α β : Type} {m : Locked β} {f : β → Locked α} (hm : Safe q m s)
    (k : ∀ b s', Serving q s' → Safe q (f b) s') : Safe q (m >>= f) s :=
  .bind (hm.mono (fun b s' h' => k b s' h') fun _ _ he => he)

/-! ## Recovery requests -/

section
variable (h : Serving q s)
include h

theorem Serving.satisfied :
    List.Forall₂ (Marked s.trace s.journal) s.journal.steps (s.journal.steps.map fun step =>
      if dependencySatisfiedByRestoredWintun s.journal.steps step then
        { step with state := .restored } else step) := by
  refine forall₂_map_right_iff.2 (forall₂_same.2 fun step hin => ?_)
  split
  · obtain ⟨hdone, hkind, -⟩ := h.sound.gone hin ‹_›
    exact .inr ⟨rfl, hdone, fun hk => absurd hk hkind⟩
  · exact .inl rfl

theorem reconcileRemovedAdapterDependencies_safe :
    Safe q (reconcileRemovedAdapterDependencies platform) s := by
  refine .bind (.read (.ite (fun _ => .pure h) fun _ => .ite (fun _ => .pure h) fun _ => ?_))
  have hm := h.satisfied
  have hsnd := h.sound.marked hm
  refine .bind (h.save ?_ ?_ ?_ (fun saved len s1 _ h1 _ => .bind (.update (.pure h1)))
    fun _ _ s1 _ _ h1 _ => h1.halted)
  · split <;> exact le_rfl
  · split
    · rename_i hall
      refine hsnd.disconnected fun step hin => .inl ?_
      simpa using all_eq_true.1 hall step hin
    · exact hsnd.tracks.recorded
  · split
    · exact .of_nil rfl
    · exact hsnd.tracks.ordered

theorem recoverStale_safe (hq : q.isReplace = false) : Safe q (recoverStale platform) s :=
  .bind (.read (.when
    (fun _ => (recoverLocked_ends h fun hr => nomatch hq.symm.trans hr).mono (fun _ _ h1 => h1.1)
      fun _ _ he => he) fun _ => h))

theorem inspectStartupTunnel_safe : Safe q (inspectStartupTunnel platform) s := by
  refine .bind (.read (h.ensure fun _ => .bind (h.ask (fun _ => .quiet rfl) fun r s1 h1 _ => ?_)))
  cases r with
  | ok => exact .pure h1
  | error =>
    exact .bind (.update (.bind ((h1.harmless (.phase .recoveryRequired nofun nofun)).storeOrReturn (fun _ h2 _ _ => h2.halted)
      fun _ _ h2 _ => h2.halted)))

theorem Serving.recover {α : Type} {f : Unit → Locked α} (hq : q.isReplace = false)
    (k : ∀ s', Recovered q s s' → Safe q (f ()) s') : Safe q (recoverLocked platform >>= f) s :=
  .bind ((recoverLocked_ends h fun hr => nomatch hq.symm.trans hr).mono (fun _ s' h' => k s' h')
    fun _ _ he => he)

theorem inspectAdapters_ends {Q : Unit → AgentCoordinator → Prop} (k : ∀ s', Serving q s' → Q () s') :
    Ends (inspectAdapters platform) Q (fun _ => Halted q) s := by
  refine .bind (.read ((Ends.forM (I := Serving q) h fun step _ s1 h1 => ?_).mono
    (fun _ s' h' => k s' h') fun _ _ he => he))
  refine .when (fun _ => .bind ?_) fun _ => h1
  exact h1.askOrReturn (fun _ => .quiet rfl) (fun _ s2 h2 _ => .pure h2) fun _ _ h2 _ => h2.halted

theorem recoverInspected_safe (hq : q.isReplace = false) :
    Safe q (recoverInspected platform) s := by
  refine .bind (inspectAdapters_ends h fun s1 h1 => ?_)
  refine .bind (h1.ask (fun _ => .quiet rfl) fun _ s2 h2 _ => ?_)
  exact h2.recover hq fun s3 h3 => .read h3.1

theorem recoverOrphaned_safe (hq : q.isReplace = false) :
    Safe q (recoverOrphaned platform operationId expectedGeneration caller) s :=
  h.check fun _ _ => .bind (.read (h.ensure fun _ => h.ensure fun _ => h.ensure fun _ =>
    recoverInspected_safe h hq))

theorem recoverAutomatic_safe (hq : q.isReplace = false) :
    Safe q (recoverAutomatic platform operationId expectedGeneration) s :=
  .bind (.read (h.ensure fun _ => h.ensure fun _ => h.ensure fun _ => recoverInspected_safe h hq))

theorem reconcileAbsentAdapterOnRetry_safe :
    Safe q (reconcileAbsentAdapterOnRetry platform operationId expectedGeneration caller) s := by
  refine .bind (.read (h.check fun _ _ => ?_))
  simp only [id]
  split
  · rename_i unresolved hfil
    refine .ite (fun _ => .pure h) fun hkind => ?_
    refine .bind (h.askOrReturn (fun _ => .quiet rfl) (fun present s1 h1 ha => ?_)
      fun _ _ h1 _ => h1.halted)
    refine .ite (fun _ => .pure h1) fun _ => ?_
    have hdone : ∀ step ∈ s1.journal.steps, step.state = .restored ∨ Done s1.trace step.receipt := by
      intro step hin
      by_cases hs : step.state = .restored
      · exact .inl hs
      · have hmem : step ∈ s.journal.steps.filter fun step => step.state != .restored :=
          mem_filter.2 ⟨ha.journal ▸ hin, by simpa using hs⟩
        rw [hfil, mem_singleton] at hmem
        subst hmem
        refine .inr fun m hm ht hr => ?_
        obtain ⟨entry, hent, hissued⟩ := exists_issued hm
        refine absurd ?_ (h1.sound.adapters entry hent m hissued ht _ hr)
        rw [← h1.sound.tracks.agree _ hin]
        exact not_not.1 hkind
    have hrec := h1.sound.disconnected hdone
    rw [← ha.journal]
    refine .bind (h1.save le_rfl hrec (.of_nil rfl) (fun saved len s2 _ h2 _ => ?_)
      fun _ _ s2 _ _ h2 _ => .bind h2.halted)
    exact .bind (.bind (.update (.pure h2)))
  · exact .pure h

end

/-! ## Chains -/

theorem Harmless.ownerProcess (processId : Option Nat) (journal : RecoveryJournal) :
    Harmless journal { journal with ownerProcessId := processId } :=
  ⟨rfl, rfl, rfl, rfl, id, id, le_rfl⟩

theorem beginChainTransition_safe (h : Serving q s) :
    Safe q (beginChainTransition platform operationId caller) s := by
  refine h.check fun _ _ => .bind (.read (h.check fun _ _ => safe_bind (.when (fun _ => ?_)
    fun _ => h) fun _ s1 h1 => ?_))
  · refine h.ensure fun _ => .bind (h.askOrReturn (fun _ => .quiet rfl) (fun _ s1 h1 _ => ?_)
      fun _ _ h1 _ => h1.halted)
    exact h1.ensure fun _ => .update (h1.harmless (.ownerProcess _ _))
  · refine .bind (.read (h1.check fun _ _ => h1.check fun _ _ => h1.ensure fun hph =>
      h1.check fun plan _ => ?_))
    have hlive : s1.journal.phase.live := by
      rcases hph with hp | hp <;> rw [hp] <;> rfl
    have hh : Harmless s1.journal { s1.journal with plan := some { plan with vpnChain := true } } :=
      ⟨rfl, rfl, rfl, rfl, id, id, le_rfl⟩
    refine .bind (.update (.bind ((h1.harmless hh).storeOrReturn (fun s2 h2 hk _ => ?_)
      fun _ _ h2 _ => h2.halted)))
    refine .bind (.updateWith (P := fun s3 => Serving q s3 ∧ s3.journal.phase.live) ?_
      fun s3 ⟨h3, hlive3⟩ => ?_)
    · have hlive2 : s2.journal.phase.live := hk.phase ▸ hlive
      split
      · exact ⟨h2, hlive2⟩
      · exact ⟨h2, hlive2⟩
    · refine .bind (.read (safe_bind (.when (fun _ => ?_) fun _ => h3) fun _ s4 h4 => .read h4))
      refine .bind (.read (h3.ensure fun _ => .bind ?_))
      have hne : MutationKind.killSwitch ≠ .wintunAdapter := nofun
      exact (applyNewStep_ends h3 hlive3 hne).mono (fun _ _ h4 => .pure h4.1.1)
        fun _ _ h4 => h4.1.halted

theorem mem_stepOf (h : journal.stepOf kind = some step) :
    step ∈ journal.steps ∧ step.kind = kind :=
  ⟨mem_of_find?_eq_some h, by simpa using find?_some h⟩

theorem Serving.removeStep (h : Serving q s) (hstep : s.journal.stepOf kind = some step)
    (hdone : step.state = .restored ∨ Done s.trace step.receipt) :
    Serving q { s with journal := s.journal.removeStep kind } := by
  obtain ⟨hin, hkind⟩ := mem_stepOf hstep
  refine h.edit (h.sound.sublist eraseP_sublist fun step' hin' => ?_)
  by_cases hk : step'.kind = kind
  · obtain ⟨i, hi⟩ := mem_iff_getElem?.1 hin
    obtain ⟨j, hj⟩ := mem_iff_getElem?.1 hin'
    cases kind_injective h.sound.tracks.kinds hi hj (hkind.trans hk.symm)
    cases hi.symm.trans hj
    exact .inr hdone
  · exact .inl ((mem_eraseP_of_neg (by simpa using hk)).2 hin')

theorem restoreDirect_ends {Q : Unit → AgentCoordinator → Prop} (h : Serving q s)
    (hq : q.isReplace = false) (k : ∀ s', Serving q s' → Frame s s' → s'.journal = s.journal →
      (step.state = .restored ∨ Done s'.trace step.receipt) → Q () s') :
    Ends (Prog.when (step.state ≠ .restored)
      (orReturn (restoreStep platform .direct step.receipt adapter))) Q (fun _ => Halted q) s := by
  refine .when (fun _ => ?_) fun hs => k s h (.refl s) rfl (.inl (not_not.1 hs))
  have hallow : RestoreAllowed .direct (some q.request) s.journal s.trace :=
    .other hq nofun nofun
  refine h.askOrReturn (fun _ => .restore h hallow) (fun u s1 h1 ha => ?_) fun _ _ h1 _ => h1.halted
  exact k s1 h1 (ha.frame rfl) ha.journal (.inr (ha.trace ▸ done_restored))

/-- An operation on a tunnel in a phase in which steps are applied. -/
def Connected (q : Turn) (s : AgentCoordinator) : Prop :=
  Serving q s ∧ s.journal.phase.live = true

theorem retireStep_ends (h : Connected q s) (hq : q.isReplace = false) :
    Ends (retireStep platform adapter kind) (fun _ => Connected q) (fun _ => Halted q) s := by
  refine .bind (.read ?_)
  cases hstep : s.journal.stepOf kind with
  | none => exact .pure h
  | some =>
    refine .bind (restoreDirect_ends h.1 hq fun s1 h1 hf hj hdone => ?_)
    have h2 := h1.removeStep (hj ▸ hstep) hdone
    refine .bind (.update (h2.storeOrReturn (fun s2 h2 hk _ => ?_) fun _ _ h2 _ => h2.halted))
    refine ⟨h2, ?_⟩
    rw [hk.phase]
    exact (congrArg (·.phase.live) hj).trans h.2

theorem finalizeTunnel_safe (h : Serving q s) (hq : q.isReplace = false) :
    Safe q (finalizeTunnel platform operationId plan caller) s := by
  refine h.check fun _ _ => h.check fun _ _ => .bind (.read (h.check fun _ _ => h.check fun _ _ =>
    h.ensure fun _ => h.check fun _ _ => h.check fun _ _ => h.ensure fun _ => h.ensure fun hph =>
    ?_))
  have hcln : Connected q s := by
    refine ⟨h, ?_⟩
    rcases hph with hp | hp <;> exact congrArg RecoveryPhase.live hp
  refine .bind (Ends.mono (Q := fun _ => Connected q) (.when (fun _ => ?_) fun _ => hcln)
    (fun _ s1 h1 => ?_) fun _ _ he => he)
  · refine .bind (.ensure (fun _ => ?_) fun _ => h.halted)
    refine .bind (h.askOrReturn (fun _ => .quiet rfl) (fun _ s1 h1 ha => ?_) fun _ _ h1 _ => h1.halted)
    refine .bind (.ensure (fun _ => ?_) fun _ => h1.halted)
    have h2 := h1.harmless (.ownerProcess (some caller.processId) s1.journal)
    refine .bind (.update (h2.storeOrReturn (fun s2 h2 hk _ => ?_) fun _ _ h2 _ => h2.halted))
    refine ⟨h2, ?_⟩
    rw [hk.phase]
    exact (congrArg (·.phase.live) ha.journal).trans hcln.2
  · refine .bind (.read (h1.1.check fun _ _ => h1.1.ensure fun _ => ?_))
    refine .bind ((Ends.forM (I := Connected q) h1 fun kind _ s2 h2 => retireStep_ends h2 hq).mono
      (fun _ s2 h2 => ?_) fun _ _ he => he)
    have hh : Harmless s2.journal { s2.journal with phase := .prepared, plan := some plan } :=
      ⟨rfl, rfl, rfl, rfl, fun hc => (nomatch hc), fun _ => h2.2, le_rfl⟩
    refine .bind (.update (.bind ((h2.1.harmless hh).storeOrReturn (fun s3 h3 hk _ => ?_)
      fun _ _ h3 _ => h3.halted)))
    have hlive3 : s3.journal.phase.live := by
      rw [hk.phase]
      rfl
    refine .bind ((Ends.forM (I := Connected q) ⟨h3, hlive3⟩ fun kind hin s4 h4 => .bind ?_).mono
      (fun _ s4 h4 => .read h4.1) fun _ _ he => he)
    have hne : kind ≠ .wintunAdapter := by
      rintro rfl
      simp at hin
    exact (applyNewStep_ends h4.1 h4.2 hne).mono
      (fun _ _ h5 => .pure ⟨h5.1.1, h5.2 ▸ h4.2⟩) fun _ _ h5 => h5.1.halted

/-! ## Packet sessions and leases -/

theorem Serving.forgetRestored (h : Serving q s) (kind : MutationKind) :
    Serving q { s with journal := s.journal.forgetRestored kind } := by
  refine h.edit (h.sound.sublist filter_sublist fun step hin => ?_)
  by_cases hs : step.state = .restored
  · exact .inr (.inl hs)
  · exact .inl (mem_filter.2 ⟨hin, by simp [hs]⟩)

theorem openPacketSession_safe {capacity : Nat} (h : Serving q s) (hq : q.isReplace = false) :
    Safe q (openPacketSession platform operationId capacity caller) s := by
  refine h.ensure fun _ => .bind (.read (h.check fun _ _ => h.ensure fun hph => ?_))
  have hlive : s.journal.phase.live := hph ▸ rfl
  refine .bind (.updateWith (P := Connected q) ⟨h.forgetRestored .packetSession, hlive⟩
    fun s1 h1 => ?_)
  refine .bind (.read (h1.1.ensure fun _ => h1.1.check fun _ _ => h1.1.ensure fun _ => .bind ?_))
  have hne : MutationKind.packetSession ≠ .wintunAdapter := nofun
  refine (applyOrRecover_ends h1.1 h1.2 hne fun hr => nomatch hq.symm.trans hr).mono
    (fun _ s2 h2 => ?_) fun _ _ he => he
  exact h2.1.1.check fun _ _ => .bind (.update (.pure h2.1.1))

theorem closePacketSession_safe (h : Serving q s) (hq : q.isReplace = false) :
    Safe q (closePacketSession platform operationId caller) s := by
  refine .bind (.read (h.check fun _ _ => h.check fun _ _ => h.ensure fun _ => ?_))
  cases hstep : s.journal.stepOf .packetSession with
  | none => exact .bind (.update (.read h))
  | some =>
    refine .bind (restoreDirect_ends h hq fun s1 h1 _ hj hdone => ?_)
    refine safe_bind (.when (fun _ => .update (h1.removeStep (hj ▸ hstep) hdone)) fun _ => h1)
      fun _ s2 h2 => ?_
    refine .bind (.updateWith (P := Serving q) h2 fun s3 h3 => ?_)
    exact .bind (h3.storeOrReturn (fun s4 h4 _ _ => .read h4) fun _ _ h4 _ => h4.halted)

theorem mem_appliedStepOf (h : journal.appliedStepOf kind = some step) :
    step ∈ journal.steps ∧ step.kind = kind ∧ step.state = .applied := by
  have hp := find?_some h
  simp only [and_eq_true, beq_iff_eq] at hp
  exact ⟨mem_of_find?_eq_some h, hp⟩

theorem okOr_eq_ok {ε α : Type} {e : ε} {o : Option α} {a : α} (h : okOr e o = .ok a) :
    o = some a := by
  cases o with
  | none => cases h
  | some =>
    cases h
    rfl

section
variable (h : Serving q s)
include h

/-- A session that is resumed is an applied step of the saved journal. -/
theorem resumeTunnel_safe {profileId : Uuid} :
    Safe q (resumeTunnel platform operationId profileId caller) s := by
  refine h.check fun _ _ => .bind (.read (h.check fun _ _ => h.ensure fun _ => h.check fun _ _ =>
    h.ensure fun hph => h.ensure fun _ => h.ensure fun _ => h.check fun _ _ => h.ensure fun _ =>
    h.check fun adapter _ => h.check fun session hsession => ?_))
  obtain ⟨hin, hkind, hst⟩ := mem_appliedStepOf (okOr_eq_ok hsession)
  have hh : Harmless s.journal
      { s.journal with
        ownerProcessId := some caller.processId
        device := s.journal.device.map fun device =>
          { device with ownerProcessId := caller.processId, agentInstance := s.agentInstance } } := by
    refine ⟨rfl, ?_, rfl, rfl, id, id, le_rfl⟩
    rw [Option.map_map]
    rfl
  refine .bind (.update (.bind ((h.harmless hh).storeOrReturn (fun s1 h1 hk hl => ?_)
    fun _ _ h1 _ => h1.halted)))
  have hrec : s1.journal.records ⟨.step, [session.receipt]⟩ := by
    refine (records_step rfl).2 ⟨session, ?_, ?_, mem_singleton_self _⟩
    · rw [hk.steps]
      exact hin
    · exact fun hs => nomatch hst.symm.trans hs
  have hfrs : Fresh s1.journal s1.trace ⟨.step, [session.receipt]⟩ := by
    refine h1.sound.tracks.ordered.fresh ?_
    rw [hk.phase]
    exact congrArg RecoveryPhase.live hph
  have hr : Recordable s1.trace s1.journal s1.deviceRetirementResult ⟨.step, [session.receipt]⟩ := by
    refine ⟨hrec, hfrs, fun _ r hr => ?_, nofun⟩
    rw [mem_singleton.1 hr, ← h.sound.tracks.agree session hin, hkind]
    exact nofun
  refine .bind (h1.askOrReturn (fun _ => .issue rfl (hl ▸ hrec) (hl.symm ▸ hfrs) hr)
    (fun _ s2 h2 _ => ?_)
    fun _ _ h2 _ => h2.halted)
  exact .bind (.update (.pure h2))

theorem acquireTunnelLease_safe : Safe q (acquireTunnelLease operationId caller) s := by
  refine .bind (.read (h.check fun _ _ => h.ensure fun _ => h.ensure fun _ => ?_))
  refine .bind (.updateWith (P := Serving q) h fun s1 h1 => h1.ensure fun _ => ?_)
  exact .bind (.update (.read h1))

theorem releaseStartupTunnelLease_safe : Safe q (releaseStartupTunnelLease operationId caller) s :=
  h.check fun _ _ => .bind (.read (.ite (fun _ => .bind (.update (.pure h))) fun _ => .pure h))

theorem releaseTunnelLease_safe (hq : q.isReplace = false) :
    Safe q (releaseTunnelLease platform operationId caller) s := by
  refine h.check fun _ _ => .bind (.read (.ite (fun _ => ?_) fun _ => .pure h))
  have hallow : RestoreAllowed .direct (some q.request) s.journal s.trace :=
    .other hq nofun nofun
  refine safe_bind (.when (fun _ => h.check fun step _ => ?_) fun _ => h) fun _ s1 h1 => ?_
  · exact h.askOrReturn (fun _ => .restore h hallow) (fun _ _ h1 _ => h1) fun _ _ h1 _ => h1.halted
  · refine .bind (.updateWith (P := Serving q) h1 fun s2 h2 => ?_)
    exact .bind (h2.storeOrReturn (fun s3 h3 _ _ => .bind (.update (.pure h3)))
      fun _ _ h3 _ => h3.halted)

theorem recoverOrphanedStartupTunnel_safe (hq : q.isReplace = false) :
    Safe q (recoverOrphanedStartupTunnel platform operationId leaseEpoch) s :=
  .bind (.read (.ite (fun _ => h.recover hq fun _ h1 => .pure h1.1) fun _ => .pure h))

theorem recoverOrphanedTunnel_safe (hq : q.isReplace = false) :
    Safe q (recoverOrphanedTunnel platform operationId leaseEpoch) s :=
  .bind (.read (.ite (fun _ => h.recover hq fun _ h1 => .pure h1.1) fun _ => .pure h))

end

/-! ## Commit and rollback -/

theorem complete_safe {α : Type} {f : Unit → Locked α} (h : Serving q s)
    (k : ∀ s', Serving q s' → Safe q (f ()) s') :
    Safe q (completeReplacementLocked platform >>= f) s :=
  .bind ((completeReplacementLocked_ends h).mono (fun _ s' h' => k s' h') fun _ _ h' => h'.halted)

theorem commitSteps_ne (h : kind ∈ commitSteps journal plan) : kind ≠ .wintunAdapter := by
  rintro rfl
  rcases mem_append.1 h with h | h
  · split at h <;> simp at h
  · split at h <;> simp at h

theorem commit_safe (h : Serving q s) (hq : q.isReplace = false) :
    Safe q (commit platform operationId caller) s := by
  refine .bind (.read (h.check fun _ _ => .ite (fun _ => ?_) fun _ => h.ensure fun hph => ?_))
  · exact complete_safe h fun _ h1 => .read h1
  · have hcln : Connected q s := ⟨h, hph ▸ rfl⟩
    refine h.ensure fun _ => h.check fun plan _ => h.ensure fun _ => ?_
    refine .bind (Ends.mono (Q := fun _ => Connected q) (.when (fun hp => ?_) fun _ => hcln)
      (fun _ s1 h1 => ?_) fun _ _ he => he)
    · have hh := h.harmless (.replacementPhase hp (rfl : ReplacementPhase.committing.pending = _))
      refine .bind (.update (hh.storeOrReturn (fun s1 h1 hk _ => ?_) fun _ _ h1 _ => h1.halted))
      refine ⟨h1, ?_⟩
      rw [hk.phase]
      exact hcln.2
    · refine .bind (.read (h1.1.check fun _ _ => .bind (.read (.bind ?_))))
      refine (Ends.forM (I := Connected q) h1 fun kind hin s2 h2 => .bind ?_).mono
        (fun _ s2 h2 => ?_) fun _ _ he => he
      · exact (applyOrRecover_ends h2.1 h2.2 (commitSteps_ne hin) fun hr =>
          nomatch hq.symm.trans hr).mono
          (fun _ s3 h3 => .pure ⟨h3.1.1, h3.2 ▸ h2.2⟩) fun _ _ he => he
      · have hh := Harmless.phase .active nofun fun _ => h2.2
        refine .bind (.update (.bind (storeOrRecover_ends (h2.1.harmless hh)
          (fun hr => nomatch hq.symm.trans hr) fun s3 h3 _ => ?_)))
        exact complete_safe h3 fun _ h4 => .read h4

theorem rollback_safe (h : Serving q s) (hq : q.isReplace = false) :
    Safe q (rollback platform operationId caller) s :=
  .bind (.read (h.check fun _ _ => h.recover hq fun _ h1 => .read h1.1))

/-! ## The system proxy -/

section
variable (h : Serving q s)
include h

theorem planSystemProxy_ends
    (k : ∀ r s', Serving q s' → s'.journal = s.journal →
      (∀ receipt, r = .ok receipt → receipt.kind = .systemProxy) → Q r s') :
    Ends (planSystemProxy platform) Q E s := by
  refine .bind (h.ask (fun _ => .quiet rfl) fun r s1 h1 ha => ?_)
  cases r with
  | error => exact .pure (k _ s1 h1 ha.journal nofun)
  | ok =>
    refine .ite (fun hk => .pure (k _ s1 h1 ha.journal ?_)) fun _ =>
      .pure (k _ s1 h1 ha.journal nofun)
    rintro _ ⟨⟩
    exact hk

theorem applyProxyReceipt_ends {s0 : AgentCoordinator} {receipt : MutationReceipt}
    (hk : Kept { s0 with journal := s0.journal.pushStep ⟨.systemProxy, .intended, receipt⟩ } s)
    (hl : lastSaved s.trace = s.journal) (hkind : receipt.kind = .systemProxy)
    (hlive : s0.journal.phase.live)
    (k : ∀ r s' m, Issued q .systemProxy receipt m s0 s' →
      (∀ applied, r = .ok applied → applied ∈ m.receipts ∧ applied.kind = .systemProxy) → Q r s') :
    Ends (applyProxyReceipt platform receipt) Q E s := by
  refine .bind (h.issue id hk hl hkind nofun hlive (fun _ => rfl) (fun _ => rfl) fun r s1 hi => ?_)
  cases r with
  | error => exact .pure (k _ s1 _ hi nofun)
  | ok =>
    refine .ite (fun hk => .pure (k _ s1 _ hi ?_)) fun _ => .pure (k _ s1 _ hi nofun)
    rintro _ ⟨⟩
    refine ⟨mem_cons_of_mem _ ?_, hk⟩
    rw [hkind, ← hk]
    exact mem_enriched_ok

theorem applyTunnelProxy_safe (hq : q.isReplace = false) (hph : s.journal.phase = .active) :
    Safe q (applyTunnelProxy platform operationId caller) s := by
  refine .bind (.read (h.check fun _ _ => ?_))
  have hlive : s.journal.phase.live := hph ▸ rfl
  refine .bind (.updateWith (P := Connected q) ⟨h.forgetRestored .systemProxy, hlive⟩
    fun s1 h1 => ?_)
  refine .bind (.read (h1.1.ensure fun hnew => ?_))
  refine .bind (planSystemProxy_ends h1.1 fun planned s2 h2 hj hplan => ?_)
  refine h2.check fun receipt hr => ?_
  have hlive2 : s2.journal.phase.live := hj ▸ h1.2
  have hpush := h2.edit (h2.sound.push (hj ▸ hnew) (hplan receipt hr) hlive2)
  refine .bind (.update (.bind (hpush.storeOrReturn (fun s3 h3 hk hl => ?_)
    fun _ _ h3 _ => h3.halted)))
  refine .bind (applyProxyReceipt_ends h3 hk hl (hplan receipt hr) hlive2 fun r s4 m hi happ => ?_)
  cases r with
  | error =>
    exact (rollbackAppendedSystemProxy_ends hi.serving hq hi.steps).mono (fun _ _ he => he)
      fun _ _ h5 => h5.halted
  | ok applied =>
    obtain ⟨hin, hkind⟩ := happ applied rfl
    have h5 := hi.setLast h2 .applied nofun hin hkind hlive2
    refine .bind (.update (.bind (h5.store (fun s5 h5 _ _ => .read h5) fun _ s5 h5 hk5 => ?_)))
    have hstp : s5.journal.steps = s2.journal.steps ++ [⟨.systemProxy, .applied, applied⟩] := by
      rw [hk5.steps]
      show s4.journal.steps.dropLast ++ _ = _
      rw [hi.steps, dropLast_concat]
    exact (rollbackAppendedSystemProxy_ends h5 hq hstp).mono (fun _ _ he => he)
      fun _ _ h6 => h6.halted

theorem Serving.preparingProxy (hc : s.journal.phase = .clean) :
    Serving q { s with journal := s.journal.preparingProxy operationId caller } := by
  refine h.edit (h.sound.edit ⟨fun m hm => ?_, nodup_nil, fun _ hin => (nomatch hin),
    .of_nil rfl, fun _ hr => (nomatch hr), nofun⟩ nofun
    (fun _ hr => nomatch hr) le_rfl)
  by_cases ht : m.target = .device
  · refine (h.sound.tracks.recorded m hm).imp_right fun hr => ?_
    obtain hr := (records_device ht).1 hr
    exact (records_device ht).2 hr
  · exact .inl (h.sound.clean_superseded hc hm ht)

section
variable (hq : q.isReplace = false)
include hq

theorem applyProxyClean_safe (hc : s.journal.phase = .clean) :
    Safe q (applyProxyClean platform operationId caller) s := by
  have hno : ∀ {s : AgentCoordinator}, q.isReplace → s.journal.replacementPending :=
    fun hr => nomatch hq.symm.trans hr
  have h1 : Serving q { s with journal := s.journal.preparingProxy operationId caller } :=
    h.preparingProxy hc
  refine .bind (.update (.bind (h1.storeOrReturn (fun s1 h1 hk1 _ => ?_) fun _ _ h1 _ => h1.halted)))
  refine .bind (planSystemProxy_ends h1 fun planned s2 h2 hj hplan => ?_)
  cases planned with
  | error => exact h2.recover hq fun _ h3 => h3.1.halted
  | ok receipt =>
    have hnew : s2.journal.hasStep .systemProxy = false := by
      rw [hj, hk1.journal]
      rfl
    have hlive : s2.journal.phase.live := by
      rw [hj, hk1.phase]
      rfl
    have hpush := h2.edit (h2.sound.push hnew (hplan receipt rfl) hlive)
    refine .bind (.update (.bind (hpush.storeOrReturn (fun s3 h3 hk hl => ?_)
      fun _ _ h3 _ => h3.halted)))
    refine .bind (applyProxyReceipt_ends h3 hk hl (hplan receipt rfl) hlive fun r s4 m hi happ => ?_)
    cases r with
    | error => exact failAfterRecovery_ends hi.serving hno
    | ok applied =>
      obtain ⟨hin, hkind⟩ := happ applied rfl
      refine .bind (.updateWith (P := Connected q) ⟨hi.setLast h2 .applied nofun hin hkind hlive,
        (congrArg RecoveryPhase.live hi.phase).trans hlive⟩ fun s5 h5 => ?_)
      have hh := h5.1.harmless (.phase .active nofun fun _ => h5.2)
      exact .bind (.update (.bind (storeOrRecover_ends hh hno fun _ h6 _ => .read h6)))

theorem applyProxyOnly_safe : Safe q (applyProxyOnly platform operationId caller) s := by
  refine .bind (.read ?_)
  simp only [id]
  cases hd : s.journal.device with
  | none =>
    refine h.check fun _ hcln => applyProxyClean_safe h hq ?_
    rw [ensureClean, rejectIf_eq_ok] at hcln
    simp only [not_eq_true', not_eq_false, RecoveryJournal.isFullyClean, and_eq_true,
      beq_iff_eq] at hcln
    exact hcln.1.1
  | some => exact h.check fun _ _ => h.ensure fun hc => applyProxyClean_safe h hq hc.1

theorem applySystemProxy_safe {settings : SystemProxySettings} :
    Safe q (applySystemProxy platform operationId settings caller) s :=
  h.check fun _ _ => .bind (.read (h.check fun _ _ => .ite
    (fun hph => applyTunnelProxy_safe h hq hph.1) fun _ => applyProxyOnly_safe h hq))

theorem restoreSystemProxy_safe : Safe q (restoreSystemProxy platform operationId caller) s := by
  refine .bind (.read (h.check fun _ _ => .ite (fun _ => h.ensure fun _ => ?_) fun _ =>
    h.check fun _ _ => h.recover hq fun _ h1 => .read h1.1))
  cases hstep : s.journal.stepOf .systemProxy with
  | none => exact .read h
  | some step =>
    refine .bind (Ends.mono (Q := fun _ s1 => Serving q s1 ∧ s1.journal = s.journal ∧
      (step.state = .restored ∨ Done s1.trace step.receipt)) (.when (fun _ => .bind ?_) fun hs => ?_)
      (fun _ s1 ⟨h1, hj, hdone⟩ => ?_) fun _ _ he => he)
    · refine restoreProxyAttempts_ends _ s h hq fun r s1 h1 _ hj hdone => ?_
      cases r with
      | error => exact h1.halted
      | ok => exact ⟨h1, hj, .inr (hdone rfl)⟩
    · exact ⟨h, rfl, .inl (not_not.1 hs)⟩
    · exact .bind (.update (.bind ((h1.removeStep (hj ▸ hstep) hdone).storeOrReturn
        (fun _ h2 _ _ => .read h2) fun _ _ h2 _ => h2.halted)))

end

end

end

end Usque.Agent
