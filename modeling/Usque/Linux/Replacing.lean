/-
  What the coordinator of the Linux agent keeps while it replaces an operation.
-/
import Usque.Linux.Applying

namespace Usque.Linux
open Agent (ValidatedTunnelPlan)
open Lib Fallible World List

variable {replacement : Replacement} {log : List NativeCall}

section
variable {guarded : Prop} {allowed : World → Resources → Prop} {journal : Journal} {world : World}

/-- If the replacement resumes one that is not complete, its target being the operation of the
    journal or the pending replacement that is recorded as applied, then the target is guarded. -/
def Resumes (world : World) (source operationId : Uuid) (generation : ℕ)
    (plan : ValidatedTunnelPlan) : Prop :=
  world.journal.generation = generation →
  world.journal.operationId = some operationId ∧ world.journal.replacementOrigin = some source ∧
      world.journal.replacementInitialPlan = some plan ∧ world.journal.isReady = false ∨
    world.journal.operationId = some source ∧ world.journal.replacement.any (fun replacement =>
      replacement.operationId = operationId ∧ replacement.plan = plan ∧
        replacement.state = .applied) →
  installed (guardTable operationId) world.log = true

instance (source operationId : Uuid) (generation : ℕ) (plan : ValidatedTunnelPlan) :
    Decidable (Resumes world source operationId generation plan) :=
  inferInstanceAs (Decidable (_ → _ → _))

theorem prepareTargetSteps_spec (plan : ValidatedTunnelPlan) (h : At guarded journal world)
    (harmed : Armed guarded journal world.log) (hrecs : Records allowed journal) :
    Sustains guarded allowed (prepareTargetSteps plan) world := by
  refine stepsReady_spec _ .prepared h ?_ harmed hrecs
  intro step hmem
  have := mem_of_mem_take hmem
  rintro rfl
  revert this
  decide

/-! ## A retry -/

theorem retryReplacement_spec (owner : Owner) (source operationId : Uuid) (generation : ℕ)
    (plan : ValidatedTunnelPlan) (h : Inv guarded world)
    (hresumes : guarded → Resumes world source operationId generation plan) :
    Sustains guarded allowed (retryReplacement owner source operationId generation plan) world := by
  refine .andThen (checkOwner_spec h owner operationId) ?_
  rintro _ w ⟨rfl, hat, hid⟩
  unfold Resumes at hresumes
  generalize w.journal = journal at hat hid hresumes
  refine state_at hat (deny_bind h fun horig => ?_)
  obtain ⟨hsrc, hplan⟩ : journal.replacementOrigin = some source ∧
      journal.replacementInitialPlan = some plan := by
    simpa only [Bool.or_eq_false_iff, bne_eq_false_iff_eq] using horig
  split_ifs with hrdy
  · exact .pure h
  refine deny_bind h fun hph => ?_
  have hinst : guarded → installed (guardTable operationId) w.log := by
    intro hg
    simp only [Bool.or_eq_false_iff, bne_eq_false_iff_eq] at hph
    exact hresumes hg hph.1.symm (.inl ⟨hid, hsrc, hplan, Bool.eq_false_of_not_eq_true hrdy⟩)
  have hcln : journal.phase ≠ .clean := by
    intro heq
    simp [heq] at hph
  obtain ⟨id, resources, plan', hid', hres, hplan, htab⟩ :=
    hat.sound.valid.operation hcln
  obtain rfl : id = operationId := Option.some.inj (hid'.symm.trans hid)
  refine expect_bind hres ?_
  refine .andThen (invalidateNetwork_spec h _) ?_
  rintro _ w rfl
  refine .andThen (persistPhase_at (by decide) hat) ?_
  rintro _ w1 ⟨hat1, hlog⟩
  refine .andThen (restoreRecords_spec false 1 hat1 nofun) ?_
  rintro _ w2 ⟨generation', records, hat2, hswp, hkeeps⟩
  refine state_at hat2 (expect_bind hres ?_)
  refine .andThen (initializeResources_spec hat2.inv _) ?_
  rintro current w rfl
  refine .andThen (nextGeneration_spec hat2.inv _) ?_
  rintro networkGeneration w rfl
  refine .andThen ((persist_at hat2 fun hval => ?_).mono (fun _ _ hw => hw) fun _ _ hw => hw.1) ?_
  · refine hat2.sound.truncate one_ne_zero hswp.restored rfl hval rfl (fun _ => rfl) rfl ?_
    exact fun _ hrdy => absurd hrdy (not_ready_of_preparing rfl)
  rintro _ w3 ⟨hval, hat3, hlog3⟩
  refine prepareTargetSteps_spec plan hat3 ?_ (.inl ?_)
  · intro hg resources' hres'
    have hsame := table_eq hat.sound.valid hval rfl hres hres'
    rw [hsame, htab, hlog3]
    refine hkeeps _ nofun ?_
    rw [hlog]
    exact hinst hg
  · simp [hsrc]

/-! ## The bridge -/

def Pending (operationId : Uuid) (plan : ValidatedTunnelPlan) (journal : Journal) : Prop :=
  ∃ replacement, journal.replacement = some replacement ∧
    replacement.operationId = operationId ∧ replacement.plan = plan

theorem intendReplacement_spec (operationId : Uuid) (plan : ValidatedTunnelPlan)
    (h : At guarded journal world) :
    Holds guarded allowed (intendReplacement operationId plan) (fun _ w =>
      ∃ after, At guarded after w ∧ w.log = world.log ∧ Pending operationId plan after ∧
        after.operationId = journal.operationId ∧
        (after.replacement = journal.replacement ∨
          ∃ replacement, after.replacement = some replacement ∧
            replacement.state = .intended)) world := by
  refine state_at h ?_
  rcases hreplacement : journal.replacement with _ | replacement
  · refine deny_bind h.inv fun hrdy => ?_
    have hrdy : journal.Ready := ready_of_isReady (by simpa using hrdy)
    refine .andThen (initializeGuard_spec h.inv _) ?_
    rintro resources w rfl
    obtain ⟨id, current, -, -, hcur, -, -⟩ := h.sound.valid.operation hrdy.not_clean
    refine expect_bind hcur ?_
    refine .andThen (nextGeneration_spec h.inv _) ?_
    rintro networkGeneration w rfl
    refine (persist_at h fun hval => ?_).mono ?_ fun _ _ hw => hw.1
    · refine ⟨hval, ?_, ?_, ?_, ?_⟩
      · intro effect hmem
        rcases h.sound.covers effect hmem with hrec | ⟨_, hsome, -⟩
        · exact .inl hrec
        · rw [hreplacement] at hsome
          cases hsome
      · rintro replacement ⟨⟩ ⟨⟩
      · intro _
        -- a ready journal records its guard
        obtain ⟨hlen, -⟩ := h.sound.valid.ready hrdy
        have hzero : journal.records[0]? = some journal.records[0] :=
          List.getElem?_eq_getElem (by omega)
        refine ⟨_, mem_of_getElem? hzero, ?_⟩
        exact (Option.some.inj (h.sound.valid.steps 0 _ hzero)).symm
      · rintro - (heq | heq)
        · cases heq
        · cases heq
    · rintro _ w' ⟨-, hat, hlog⟩
      exact ⟨_, hat, hlog, ⟨_, rfl, rfl, rfl⟩, rfl, .inr ⟨_, rfl, rfl⟩⟩
  · dsimp only
    unfold deny
    split_ifs with hoth
    · exact .throw h.inv
    · simp only [Bool.or_eq_true, not_or, bne_iff_ne, ne_eq, not_not] at hoth
      exact .pure ⟨journal, h, rfl, ⟨replacement, hreplacement, hoth.1, hoth.2⟩, rfl,
        .inl hreplacement⟩

section
variable (h : Sound guarded log journal) (hreplacement : journal.replacement = some replacement)
include h hreplacement

theorem Sound.installBridge (hst : replacement.state ≠ .applied) (ok : Bool) :
    Sound guarded (.installBridge replacement.resources.nftTable ok :: log) journal where
  valid := h.valid
  covers := by
    intro effect hmem
    rcases outstanding_installBridge.mp hmem with rfl | hmem
    · exact .inr ⟨replacement, hreplacement, rfl, rfl⟩
    · exact h.covers effect hmem
  bridged := by
    intro replacement' hsome happ
    cases hreplacement.symm.trans hsome
    exact absurd happ hst
  opened := h.opened
  ready := fun hg hrdy resources hres =>
    installed_installBridge (h.ready hg hrdy resources hres)

theorem Sound.saveBridge {resources : Resources}
    (hlast : lastGuardCall replacement.resources.nftTable log =
      some (.installBridge replacement.resources.nftTable true))
    (hval : Journal.Valid { journal with
      replacement := some { replacement with resources, state := .applied } }) :
    Sound guarded log { journal with
      replacement := some { replacement with resources, state := .applied } } := by
  have htab : resources.nftTable = replacement.resources.nftTable :=
    (hval.replacement _ rfl).1.trans (h.valid.replacement _ hreplacement).1.symm
  refine ⟨hval, ?_, ?_, ?_, h.ready⟩
  · intro effect hmem
    rcases h.covers effect hmem with hrec | ⟨replacement', hsome, htab', hstep⟩
    · exact .inl hrec
    · cases hreplacement.symm.trans hsome
      exact .inr ⟨_, rfl, htab.trans htab', hstep⟩
  · rintro replacement' ⟨⟩ - -
    rw [htab]
    exact hlast
  · intro _
    exact h.opened (by rw [hreplacement]; rfl)

end

theorem bridge_spec {operationId : Uuid} {plan : ValidatedTunnelPlan}
    (h : At guarded journal world) (hpend : Pending operationId plan journal)
    (hinst : guarded → ∀ replacement, journal.replacement = some replacement →
      replacement.state = .applied → installed (guardTable operationId) world.log) :
    Holds guarded allowed bridge (fun replacement w => ∃ after, At guarded after w ∧
      after.operationId = journal.operationId ∧ after.replacement = some replacement ∧
      replacement.operationId = operationId ∧ replacement.state = .applied ∧
      (guarded → installed (guardTable operationId) w.log)) world := by
  obtain ⟨replacement, hreplacement, rfl, rfl⟩ := hpend
  have htab := (h.sound.valid.replacement _ hreplacement).1
  refine state_at h (expect_bind hreplacement ?_)
  by_cases happ : replacement.state = .applied
  · rw [if_pos happ]
    exact .pure ⟨journal, h, rfl, hreplacement, rfl, happ,
      fun hg => hinst hg replacement hreplacement happ⟩
  rw [if_neg happ]
  refine .andThen (R := fun _ w =>
    w = world.logged (.installBridge replacement.resources.nftTable true))
    ⟨h.inv.point (by rintro _ _ ⟨⟩), ?_⟩ ?_
  · rintro (e | _) after hdoes
    · obtain rfl : after = _ := hdoes
      exact At.inv ⟨h.coordinator, h.disk, h.sound.installBridge hreplacement happ false⟩
    · exact hdoes
  rintro resources w rfl
  have hat : At guarded journal
      (world.logged (.installBridge replacement.resources.nftTable true)) :=
    ⟨h.coordinator, h.disk, h.sound.installBridge hreplacement happ true⟩
  have hlast : lastGuardCall replacement.resources.nftTable
      (.installBridge replacement.resources.nftTable true :: world.log) =
      some (.installBridge replacement.resources.nftTable true) := by
    rw [lastGuardCall]
    simp [NativeCall.concerns]
  refine .andThen ((persist_at hat fun hval =>
    hat.sound.saveBridge hreplacement hlast hval).mono (fun _ _ hw => hw) fun _ _ hw => hw.1) ?_
  rintro _ w ⟨-, hat', hlog⟩
  refine .pure ⟨_, hat', rfl, rfl, rfl, rfl, fun _ => ?_⟩
  rw [hlog, ← htab]
  exact installed_of_lastGuardCall hlast

/-! ## A replacement -/

/-- What `replace` has established when it removes a guard: it is that of the source, the
    bridge is saved as applied, and its installation is the last call about it. -/
structure ReplaceGuard (source operationId : Uuid) (world : World) (resources : Resources) :
    Prop where
  others : world.disk.OthersRestored
  differ : source ≠ operationId
  source : world.disk.resources = some resources ∧ resources.nftTable = guardTable source
  saved : ∃ replacement, world.disk.replacement = some replacement ∧
    replacement.operationId = operationId ∧ replacement.state = .applied
  last : lastGuardCall (guardTable operationId) world.log =
    some (.installBridge (guardTable operationId) true)

theorem invalidateSource_spec (h : At guarded journal world) :
    Holds guarded allowed invalidateSource (fun _ w => w = world) world := by
  refine state_at h ?_
  rcases journal.resources with _ | resources
  · exact .pure rfl
  · exact invalidateNetwork_spec h.inv resources

/-- **`replace` from any point of a run.** -/
theorem replace_spec (owner : Owner) (source operationId : Uuid) (generation : ℕ)
    (plan : ValidatedTunnelPlan) (h : Inv guarded world)
    (hresumes : guarded → Resumes world source operationId generation plan)
    (hall : ∀ w resources, ReplaceGuard source operationId w resources → allowed w resources) :
    Sustains guarded allowed (replace owner source operationId generation plan) world := by
  refine state_inv h ?_
  by_cases hretry : world.coordinator.journal.operationId = some operationId
  · rw [if_pos hretry]
    exact retryReplacement_spec owner source operationId generation plan h hresumes
  rw [if_neg hretry]
  refine .andThen (checkOwner_spec h owner source) ?_
  rintro _ w ⟨rfl, hat, hid⟩
  refine deny_bind h fun hstale => deny_bind h fun _ => ?_
  have hdiffer : source ≠ operationId := by
    simp only [Bool.or_eq_false_iff, beq_eq_false_iff_ne] at hstale
    exact fun heq => hstale.1.2 heq.symm
  refine .andThen (wrapped_of (preflight_spec h plan)) ?_
  rintro _ w rfl
  refine .andThen (intendReplacement_spec operationId plan hat) ?_
  rintro _ w1 ⟨j1, hat1, hlog1, hpend, hid1, hcase⟩
  refine .andThen (bridge_spec hat1 hpend ?_) ?_
  · intro hg replacement hsome happ
    rw [hlog1]
    obtain ⟨replacement', hsome', hpending⟩ := hpend
    cases hsome.symm.trans hsome'
    have hgeneration : w.journal.generation = generation := by
      simp only [Bool.or_eq_false_iff, bne_eq_false_iff_eq] at hstale
      exact hstale.2.symm
    refine hresumes hg hgeneration (.inr ⟨hid, ?_⟩)
    rcases hcase with hsame | ⟨replacement', hsome', hint⟩
    · rw [← hsame, hsome]
      simp [hpending, happ]
    · cases hsome.symm.trans hsome'
      rw [happ] at hint
      cases hint
  rintro replacement w2 ⟨j2, hat2, hid2, hreplacement, hop, happ, hinst⟩
  have hsrc : j2.operationId = some source := hid2.trans (hid1.trans hid)
  have hbr := (hat2.sound.valid.replacement _ hreplacement).1
  rw [hop] at hbr
  -- the table of the source is not that of the bridge
  have htab : ∀ resources, j2.resources = some resources →
      resources.nftTable = guardTable source := by
    intro resources hres
    have hcln : j2.phase ≠ .clean := by
      intro hcln
      rw [(hat2.sound.valid.clean hcln).1] at hres
      cases hres
    obtain ⟨id, resources', -, hid', hres', -, htab⟩ := hat2.sound.valid.operation hcln
    cases hres.symm.trans hres'
    cases hsrc.symm.trans hid'
    exact htab
  refine .andThen (invalidateSource_spec hat2) ?_
  rintro _ w rfl
  refine .andThen (restoreRecords_spec true 0 hat2 ?_) ?_
  · intro _ w' generation' records hat' hlive hoths resources hres
    refine hall w' resources ⟨?_, hdiffer, ⟨?_, htab resources hres⟩,
      ⟨replacement, ?_, hop, happ⟩, ?_⟩
    · rw [hat'.disk]
      exact hoths
    · rw [hat'.disk]
      exact hres
    · rw [hat'.disk]
      exact hreplacement
    · rw [← hbr]
      exact hat'.sound.bridged replacement hreplacement happ hlive
  rintro _ w3 ⟨generation', records, hat3, hswp, hkeeps⟩
  refine .andThen (initializeResources_spec hat3.inv _) ?_
  rintro resources w rfl
  refine state_at hat3 ?_
  refine .andThen ((persist_at hat3 fun hval => ?_).mono (fun _ _ hw => hw) fun _ _ hw => hw.1) ?_
  · refine ⟨hval, ?_, ?_, ?_, ?_⟩
    · intro effect hmem
      rcases hat3.sound.covers effect hmem with
        ⟨_, record, -, -, hmem', -, hlive⟩ | ⟨replacement', hsome, htab', hstep⟩
      · exact absurd (hswp.allRestored record hmem') hlive
      · cases hreplacement.symm.trans hsome
        obtain ⟨id, resources', -, hid', hres', -, htab''⟩ :=
          hval.operation (by rintro ⟨⟩)
        cases hid'
        cases hres'
        refine .inl ⟨resources, ⟨.protection, .applied⟩, rfl, ?_, mem_singleton_self _,
          hstep.symm, by rintro ⟨⟩⟩
        rw [htab'', ← hbr, htab']
    · rintro replacement' ⟨⟩
    · intro hsome
      cases hsome
    · exact fun _ hrdy => absurd hrdy (not_ready_of_preparing rfl)
  rintro _ w4 ⟨hval, hat4, hlog4⟩
  refine prepareTargetSteps_spec plan hat4 ?_ (.inl rfl)
  intro hg resources' hres'
  obtain ⟨id, resources'', -, hid', hres'', -, htab'⟩ := hval.operation (by rintro ⟨⟩)
  cases hid'
  cases hres'
  cases hres''
  rw [htab', hlog4]
  refine hkeeps _ (fun _ resources'' hres'' heq => ?_) (hinst hg)
  rw [htab resources'' hres'', guardTable_inj] at heq
  exact hdiffer heq.symm

end

end Usque.Linux
