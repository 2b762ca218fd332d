/-
  What the coordinator of the Linux agent keeps while it applies steps: `apply`, the
  failure of a step, and the requests that are made of them.
-/
import Usque.Linux.Restoring

namespace Usque.Linux
open List Option
open Agent (ValidatedTunnelPlan)
open Lib Fallible World

variable {log : List NativeCall} {resources : Resources} {steps : List Step} {step : Step}
  {start : ℕ}

section
variable {guarded : Prop} {allowed : World → Resources → Prop} {journal next : Journal}
  {world : World}

/-! ## A failed step -/

theorem recordFailure_spec (primary : IoError) (h : Inv guarded world)
    (hcase : (world.journal.replacementOrigin.isSome || world.journal.replacement.isSome) ∨
      RecoverGuard ≤ allowed) :
    Sustains guarded allowed (recordFailure primary) world := by
  refine state_inv h ?_
  refine .andThen (R := fun _ => Inv guarded) (.attempt ?_) ?_
  · split_ifs with hrep
    · exact persistPhase_inv (by decide) h
    · exact recover_spec h (hcase.resolve_left hrep)
  · rintro (e | _) w hw
    · exact .pure hw
    · exact .pure hw

/-! ## A step -/

/-- The guard of the operation is installed, if that is asked for. -/
def Armed (guarded : Prop) (journal : Journal) (log : List NativeCall) : Prop :=
  guarded → ∀ resources, journal.resources = some resources →
    installed resources.nftTable log = true

/-- What the application of steps does to a journal. -/
structure Grown (before : Journal) (steps : List Step) (after : Journal) : Prop where
  operationId : after.operationId = before.operationId
  plan : after.plan = before.plan
  replacement : after.replacement = before.replacement
  origin : after.replacementOrigin = before.replacementOrigin
  records : after.records = before.records ++ steps.map (⟨·, .applied⟩)

theorem Grown.trans {j1 j2 j3 : Journal} {steps' : List Step} (h : Grown j1 steps j2)
    (h' : Grown j2 steps' j3) : Grown j1 (steps ++ steps') j3 where
  operationId := h'.operationId.trans h.operationId
  plan := h'.plan.trans h.plan
  replacement := h'.replacement.trans h.replacement
  origin := h'.origin.trans h.origin
  records := by rw [h'.records, h.records, map_append, append_assoc]

theorem table_eq {resources' : Resources} (hval : journal.Valid) (hval' : next.Valid)
    (hid : next.operationId = journal.operationId) (hres : journal.resources = some resources)
    (hres' : next.resources = some resources') : resources'.nftTable = resources.nftTable := by
  have hph : ∀ {j : Journal} {r : Resources}, j.Valid → j.resources = some r →
      j.phase ≠ .clean := by
    intro j r hv hr hcln
    rw [(hv.clean hcln).1] at hr
    cases hr
  obtain ⟨id, r, -, hsome, hr, -, htab⟩ := hval.operation (hph hval hres)
  obtain ⟨id', r', -, hsome', hr', -, htab'⟩ := hval'.operation (hph hval' hres')
  cases hres.symm.trans hr
  cases hres'.symm.trans hr'
  rw [hid, hsome] at hsome'
  cases hsome'
  rw [htab, htab']

theorem Sound.apply (h : Sound guarded log journal) (hres : journal.resources = some resources)
    (hrec : (⟨step, .intended⟩ : Record) ∈ journal.records) (hrdy : ¬journal.Ready) (ok : Bool) :
    Sound guarded (.apply step resources.nftTable ok :: log) journal where
  valid := h.valid
  covers := by
    intro effect hmem
    rcases outstanding_apply.mp hmem with rfl | hmem
    · exact .inl ⟨resources, _, hres, rfl, hrec, rfl, by rintro ⟨⟩⟩
    · exact h.covers effect hmem
  bridged := by
    intro replacement hsome happ hlive
    have hne := h.replacement_table hsome hres
    rw [lastGuardCall_other (by simp [NativeCall.concerns, hne])]
    exact h.bridged replacement hsome happ hlive
  opened := h.opened
  ready := fun _ hrdy' => absurd hrdy' hrdy

theorem Sound.lastRecord {state : StepState} {before : List Record} (h : Sound guarded log journal)
    (hrecs : journal.records = before ∨ journal.records = before ++ [⟨step, .intended⟩])
    (hnext : next.records = before ++ [⟨step, state⟩]) (hst : state ≠ .restored)
    (hval : next.Valid) (hid : next.operationId = journal.operationId)
    (hres : journal.resources.isSome → next.resources.isSome)
    (hrepl : next.replacement = journal.replacement) (hrdy : ¬next.Ready)
    (hstep : step = .protection → journal.replacement = none) : Sound guarded log next := by
  have hbef : ∀ record ∈ before, record ∈ journal.records := by
    intro record hmem
    rcases hrecs with heq | heq
    · rwa [heq]
    · rw [heq]
      exact mem_append_left _ hmem
  refine h.change hval ?_ hrepl ?_ ?_ fun _ hrdy' => absurd hrdy' hrdy
  · rintro effect - (⟨resources, record, hsome, htab, hmem, hstep', hlive⟩ | hbr)
    · obtain ⟨resources', hsome'⟩ :=
        isSome_iff_exists.mp (hres (by rw [hsome]; rfl))
      have hsame := table_eq h.valid hval hid hsome hsome'
      have hin : ∃ record' ∈ next.records, record'.step = effect.step ∧
          record'.state ≠ .restored := by
        rw [hnext]
        rcases hrecs with heq | heq
        · rw [heq] at hmem
          exact ⟨record, mem_append_left _ hmem, hstep', hlive⟩
        · rw [heq] at hmem
          rcases mem_append.mp hmem with hmem | hmem
          · exact ⟨record, mem_append_left _ hmem, hstep', hlive⟩
          · obtain rfl := mem_singleton.mp hmem
            exact ⟨⟨step, state⟩, by simp, hstep', hst⟩
      obtain ⟨record', hmem', hstep'', hlive'⟩ := hin
      exact .inl ⟨resources', record', hsome', hsame.trans htab, hmem', hstep'', hlive'⟩
    · right
      rwa [hrepl]
  · rintro hsome ⟨record, hmem, hprot, hlive⟩
    rw [hnext] at hmem
    rcases mem_append.mp hmem with hmem | hmem
    · exact ⟨record, hbef record hmem, hprot, hlive⟩
    · obtain rfl := mem_singleton.mp hmem
      rw [hrepl, hstep hprot] at hsome
      cases hsome
  · intro record hmem hprot
    rw [hnext]
    rcases hrecs with heq | heq
    · rw [heq] at hmem
      exact ⟨record, mem_append_left _ hmem, hprot⟩
    · rw [heq] at hmem
      rcases mem_append.mp hmem with hmem | hmem
      · exact ⟨record, mem_append_left _ hmem, hprot⟩
      · obtain rfl := mem_singleton.mp hmem
        exact ⟨⟨step, state⟩, by simp, hprot⟩

theorem not_ready_of_preparing (h : journal.phase = .preparing) : ¬journal.Ready := by
  rintro (hrdy | hrdy)
  · rw [h] at hrdy
    cases hrdy
  · rw [h] at hrdy
    cases hrdy

/-- **A step.** If it fails, the journal in memory still names what is replaced. -/
theorem apply_spec (step : Step) (h : At guarded journal world)
    (hstep : step = .protection → journal.replacement = none)
    (harmed : step = .protection ∨ Armed guarded journal world.log) :
    Ensures Does (Point guarded allowed) (apply step)
      (fun _ w => ∃ after, At guarded after w ∧ Grown journal [step] after ∧
        Armed guarded after w.log)
      (fun _ w => Inv guarded w ∧ w.journal.replacement = journal.replacement ∧
        w.journal.replacementOrigin = journal.replacementOrigin) world := by
  refine state_at h ?_
  refine .andThen ((persist_at h fun hval => ?_).mono (fun _ _ hw => hw) ?_) ?_
  · exact h.sound.lastRecord (.inl rfl) rfl (by rintro ⟨⟩) hval rfl id rfl
      (not_ready_of_preparing rfl) hstep
  · rintro _ w ⟨hinv, hjour, -⟩
    exact ⟨hinv, by rw [hjour], by rw [hjour]⟩
  rintro _ w1 ⟨hval, hat, hlog⟩
  refine state_at hat ?_
  obtain ⟨id, resources, plan, hid, hres, hplan, htab⟩ :=
    hval.operation (by rintro ⟨⟩)
  refine expect_bind hres (expect_bind hplan ?_)
  have happ : ∀ ok, Sound guarded (.apply step resources.nftTable ok :: w1.log) _ := fun ok =>
    hat.sound.apply hres (mem_append_right _ (mem_singleton_self _)) (not_ready_of_preparing rfl) ok
  refine .andThen (R := fun _ w => w = w1.logged (.apply step resources.nftTable true))
    (wrapped_of ⟨hat.inv.point (by rintro _ _ ⟨⟩), ?_⟩) ?_
  · rintro (e | resources') after hdoes
    · obtain rfl : after = _ := hdoes
      have hat' : At guarded _ (w1.logged (.apply step resources.nftTable false)) :=
        ⟨hat.coordinator, hat.disk, happ false⟩
      refine ⟨hat'.inv, ?_, ?_⟩
      · change w1.journal.replacement = _
        rw [hat.journal_eq]
      · change w1.journal.replacementOrigin = _
        rw [hat.journal_eq]
    · exact hdoes
  rintro resources' w2 rfl
  have hat2 : At guarded _ (w1.logged (.apply step resources.nftTable true)) :=
    ⟨hat.coordinator, hat.disk, happ true⟩
  refine expect_bind (b := ⟨step, .intended⟩) (by simp) ?_
  refine (persist_at hat2 fun hval' => ?_).mono ?_ ?_
  · have hrecs : (journal.records ++ [(⟨step, .intended⟩ : Record)]).dropLast ++
        [(⟨step, .applied⟩ : Record)] = journal.records ++ [⟨step, .applied⟩] := by
      rw [dropLast_concat]
    exact hat2.sound.lastRecord (.inr rfl) hrecs (by rintro ⟨⟩) hval' rfl (fun _ => rfl) rfl
      (not_ready_of_preparing rfl) hstep
  · rintro _ w3 ⟨hval', hat3, hlog3⟩
    refine ⟨_, hat3, ⟨rfl, rfl, rfl, rfl, by simp⟩, ?_⟩
    intro hg resources'' hres''
    rw [hlog3]
    have hsame : resources''.nftTable = resources.nftTable :=
      table_eq hval hval' rfl hres hres''
    rw [hsame]
    rcases harmed with rfl | harmed
    · simp [World.logged, installed, NativeCall.guard]
    · refine installed_apply ?_
      rw [hlog]
      exact harmed hg resources hres
  · rintro _ w ⟨hinv, hjour, -⟩
    exact ⟨hinv, by rw [hjour], by rw [hjour]⟩

/-- Either the failure of a step of this journal is recorded without recovery, or `allowed`
    lets `recover` remove guards. -/
def Records (allowed : World → Resources → Prop) (journal : Journal) : Prop :=
  (journal.replacementOrigin.isSome || journal.replacement.isSome) = true ∨
    ∀ w resources, RecoverGuard w resources → allowed w resources

theorem Grown.records_iff {after : Journal} (h : Grown journal steps after) :
    Records allowed after ↔ Records allowed journal := by
  unfold Records
  rw [h.origin, h.replacement]

theorem applyOrRecord_spec (step : Step) (h : At guarded journal world)
    (hstep : step = .protection → journal.replacement = none)
    (harmed : step = .protection ∨ Armed guarded journal world.log)
    (hrecs : Records allowed journal) :
    Holds guarded allowed (applyOrRecord step)
      (fun _ w => ∃ after, At guarded after w ∧ Grown journal [step] after ∧
        Armed guarded after w.log) world := by
  refine .andThen (R := fun r w => match r with
    | .ok _ => ∃ after, At guarded after w ∧ Grown journal [step] after ∧ Armed guarded after w.log
    | .error _ => Inv guarded w ∧ w.journal.replacement = journal.replacement ∧
      w.journal.replacementOrigin = journal.replacementOrigin)
    (.attempt (apply_spec step h hstep harmed)) ?_
  rintro (e | _) w hw
  · obtain ⟨hinv, hrepl, horig⟩ := hw
    refine .andThen (recordFailure_spec e hinv ?_) fun _ w' hw' => .throw hw'
    rw [horig, hrepl]
    exact hrecs
  · exact .pure hw

theorem steps_spec (steps : List Step) (h : At guarded journal world)
    (hstp : ∀ step ∈ steps, step ≠ .protection)
    (harmed : Armed guarded journal world.log) (hrecs : Records allowed journal) :
    Holds guarded allowed (steps.forM applyOrRecord)
      (fun _ w => ∃ after, At guarded after w ∧ Grown journal steps after ∧
        Armed guarded after w.log) world := by
  induction steps generalizing journal world with
  | nil => exact .pure ⟨journal, h, ⟨rfl, rfl, rfl, rfl, by simp⟩, harmed⟩
  | cons step _ ih =>
    have hstep := hstp step mem_cons_self
    refine .andThen (applyOrRecord_spec step h (fun heq => absurd heq hstep) (.inr harmed) hrecs) ?_
    rintro _ w ⟨after, hat, hgrown, harmed'⟩
    refine (ih hat (fun s hs => hstp s (mem_cons_of_mem _ hs)) harmed'
      (hgrown.records_iff.mpr hrecs)).mono ?_ fun _ _ hw => hw
    rintro _ w' ⟨after', hat', hgrown', harmed''⟩
    exact ⟨after', hat', hgrown.trans hgrown', harmed''⟩

theorem guardedSteps_spec (steps : List Step) (h : At guarded journal world)
    (hrepl : journal.replacement = none)
    (hstp : ∀ step ∈ steps, step ≠ .protection) (hrecs : Records allowed journal) :
    Holds guarded allowed ((Step.protection :: steps).forM applyOrRecord)
      (fun _ w => ∃ after, At guarded after w ∧ Armed guarded after w.log) world := by
  refine .andThen (applyOrRecord_spec .protection h (fun _ => hrepl) (.inl rfl) hrecs) ?_
  rintro _ w ⟨after, hat, hgrown, harmed⟩
  refine (steps_spec steps hat hstp harmed (hgrown.records_iff.mpr hrecs)).mono
    ?_ fun _ _ hw => hw
  rintro _ w' ⟨after', hat', -, harmed'⟩
  exact ⟨after', hat', harmed'⟩

theorem persistReady_at (phase : Phase) (h : At guarded journal world)
    (harmed : Armed guarded journal world.log) :
    Sustains guarded allowed (persistPhase phase) world := by
  refine state_at h ?_
  refine (persist_at h fun hval => ?_).mono (fun _ _ hw => hw.2.1.inv) fun _ _ hw => hw.1
  refine h.sound.bookkeeping hval (fun resources hsome => ⟨resources, hsome, rfl⟩) rfl rfl ?_
  intro hg _ resources hres
  exact harmed hg resources hres

theorem stepsReady_spec (steps : List Step) (phase : Phase) (h : At guarded journal world)
    (hstp : ∀ step ∈ steps, step ≠ .protection)
    (harmed : Armed guarded journal world.log) (hrecs : Records allowed journal) :
    Sustains guarded allowed (do steps.forM applyOrRecord; persistPhase phase) world := by
  refine .andThen (steps_spec steps h hstp harmed hrecs) ?_
  rintro _ w ⟨after, hat, -, harmed'⟩
  exact persistReady_at phase hat harmed'

/-! ## Requests -/

theorem checkOwner_spec (h : Inv guarded world) (owner : Owner) (operationId : Uuid) :
    Holds guarded allowed (checkOwner owner operationId) (fun _ w => w = world ∧
      At guarded world.journal world ∧ world.journal.operationId = some operationId) world := by
  refine state_inv h ?_
  unfold deny
  split_ifs with hdeny
  · exact .throw h
  · simp only [Bool.or_eq_true, not_or, Bool.not_eq_true, bne_eq_false_iff_eq] at hdeny
    exact .pure ⟨rfl, h.at hdeny.1.1, hdeny.2⟩

theorem prepare_spec (owner : Owner) (operationId : Uuid) (generation : ℕ)
    (plan : ValidatedTunnelPlan) (h : Inv guarded world) (hall : RecoverGuard ≤ allowed) :
    Sustains guarded allowed (prepare owner operationId generation plan) world := by
  refine state_inv h (deny_bind h fun hstale => deny_bind h fun hcln => deny_bind h fun _ => ?_)
  have hcert : world.coordinator.persistenceUncertain = false := by
    simp only [Bool.or_eq_false_iff] at hstale
    exact hstale.1.1
  have hat := h.at hcert
  have hph : world.journal.phase = .clean := by simpa [World.journal] using hcln
  -- a clean journal leaves nothing outstanding
  have hnone : ∀ effect, effect ∉ outstanding world.log := by
    intro effect hmem
    obtain ⟨hres, -, hrepl⟩ := hat.sound.valid.clean hph
    rcases hat.sound.covers effect hmem with ⟨_, _, hsome, -⟩ | ⟨_, hsome, -⟩
    · rw [hres] at hsome
      cases hsome
    · rw [hrepl] at hsome
      cases hsome
  refine .andThen (wrapped_of (preflight_spec h plan)) ?_
  rintro _ w rfl
  refine .andThen (nextGeneration_spec h _) ?_
  rintro networkGeneration w rfl
  refine .andThen (initializeGuard_spec h _) ?_
  rintro resources w rfl
  refine .andThen (wrapped_of (initializeResources_spec h _)) ?_
  rintro resources' w rfl
  refine .andThen ((persist_at hat fun hval => ?_).mono (fun _ _ hw => hw) fun _ _ hw => hw.1) ?_
  · refine ⟨hval, fun effect hmem => absurd hmem (hnone effect), ?_, ?_, ?_⟩
    · rintro replacement ⟨⟩
    · intro hsome
      cases hsome
    · intro _ hrdy
      exact absurd hrdy (not_ready_of_preparing rfl)
  rintro _ w1 ⟨hval, hat1, -⟩
  refine state_at hat1 (expect_bind rfl ?_)
  have hspl : ∃ steps, (∀ step ∈ steps, step ≠ Step.protection) ∧
      [Step.protection, .tun, .addresses, .dns].take
        (if plan.deferNetworkConfiguration then 2 else 4) = .protection :: steps := by
    split_ifs
    · exact ⟨[.tun], by decide, rfl⟩
    · exact ⟨[.tun, .addresses, .dns], by decide, rfl⟩
  obtain ⟨steps, hstp, heq⟩ := hspl
  rw [heq]
  refine .andThen (guardedSteps_spec steps hat1 rfl hstp (.inr hall)) ?_
  rintro _ w2 ⟨after, hat2, harmed⟩
  exact persistReady_at .prepared hat2 harmed

theorem At.armed (h : At guarded journal world) (hrdy : journal.Ready) :
    Armed guarded journal world.log :=
  fun hg resources hres => h.sound.ready hg hrdy resources hres

theorem commit_spec (owner : Owner) (operationId : Uuid) (h : Inv guarded world)
    (hall : RecoverGuard ≤ allowed) :
    Sustains guarded allowed (commit owner operationId) world := by
  refine .andThen (checkOwner_spec h owner operationId) ?_
  rintro _ w ⟨rfl, hat, -⟩
  generalize w.journal = journal at hat
  refine state_at hat ?_
  by_cases hact : journal.phase = .active
  · rw [if_pos hact]
    exact .pure h
  rw [if_neg hact]
  refine deny_bind h fun hprep => deny_bind h fun _ => ?_
  have hph : journal.phase = .prepared := by simpa using hprep
  refine .andThen (applyOrRecord_spec .routes hat (by rintro ⟨⟩)
    (.inr (hat.armed (.inl hph))) (.inr hall)) ?_
  rintro _ w1 ⟨after, hat1, -, harmed⟩
  exact persistReady_at .active hat1 harmed

theorem finalize_spec (owner : Owner) (operationId : Uuid) (plan : ValidatedTunnelPlan)
    (h : Inv guarded world) (hall : RecoverGuard ≤ allowed) :
    Sustains guarded allowed (finalize owner operationId plan) world := by
  refine .andThen (checkOwner_spec h owner operationId) ?_
  rintro _ w ⟨rfl, hat, -⟩
  generalize w.journal = journal at hat
  refine deny_bind h fun _ => state_at hat (deny_bind h fun hprep => ?_)
  have hph : journal.phase = .prepared := by simpa using hprep
  have hcln : journal.phase ≠ .clean := by
    rw [hph]
    rintro ⟨⟩
  obtain ⟨id, resources, bootstrap, hid, hres, hplan, htab⟩ :=
    hat.sound.valid.operation hcln
  refine expect_bind hplan ?_
  split_ifs with hfinal
  · unfold deny
    split_ifs
    · exact .throw h
    · exact .pure h
  refine deny_bind h fun _ => ?_
  refine .andThen ((persist_at hat fun hval => ?_).mono (fun _ _ hw => hw) fun _ _ hw => hw.1) ?_
  · refine hat.sound.bookkeeping hval (fun resources hsome => ⟨resources, hsome, rfl⟩) rfl rfl ?_
    exact fun _ hrdy => absurd hrdy (not_ready_of_preparing rfl)
  rintro _ w1 ⟨-, hat1, hlog⟩
  refine stepsReady_spec [.addresses, .dns] .prepared hat1 (by decide) ?_ (.inr hall)
  rw [hlog]
  exact hat.armed (.inl hph)

theorem rollback_spec (owner : Owner) (operationId : Uuid) (h : Inv guarded world)
    (hall : RecoverGuard ≤ allowed) :
    Sustains guarded allowed (rollback owner operationId) world := by
  refine .andThen (checkOwner_spec h owner operationId) ?_
  rintro _ w ⟨rfl, -⟩
  exact recover_spec h hall

/-! ## The chain -/

theorem Sound.truncate (h : Sound guarded log journal) (hst : start ≠ 0)
    (hrest : ∀ j record, start ≤ j → journal.records[j]? = some record → record.state = .restored)
    (hrecs : next.records = journal.records.take start) (hval : next.Valid)
    (hid : next.operationId = journal.operationId)
    (hres : journal.resources.isSome → next.resources.isSome)
    (hrepl : next.replacement = journal.replacement)
    (hrdy : guarded → next.Ready → ∀ resources, next.resources = some resources →
      installed resources.nftTable log) :
    Sound guarded log next := by
  have hbef : ∀ j record, j < start → journal.records[j]? = some record →
      record ∈ next.records := by
    intro j record hj hrec
    rw [hrecs]
    refine mem_iff_getElem?.mpr ⟨j, ?_⟩
    rw [getElem?_take_of_lt hj]
    exact hrec
  refine h.change hval ?_ hrepl ?_ ?_ hrdy
  · rintro effect - (⟨resources, record, hsome, htab, hmem, hstep, hlive⟩ | hbr)
    · obtain ⟨resources', hsome'⟩ :=
        isSome_iff_exists.mp (hres (by rw [hsome]; rfl))
      have hsame := table_eq h.valid hval hid hsome hsome'
      obtain ⟨j, hj⟩ := mem_iff_getElem?.mp hmem
      have hlt : j < start := by
        by_contra hge
        exact hlive (hrest j record (Nat.le_of_not_lt hge) hj)
      exact .inl ⟨resources', record, hsome', hsame.trans htab, hbef j record hlt hj, hstep, hlive⟩
    · right
      rwa [hrepl]
  · rintro - ⟨record, hmem, hstep, hlive⟩
    rw [hrecs] at hmem
    exact ⟨record, mem_of_mem_take hmem, hstep, hlive⟩
  · intro record hmem hstep
    obtain ⟨j, hj⟩ := mem_iff_getElem?.mp hmem
    have hzero := order_protection (hstep ▸ h.valid.steps j record hj)
    exact ⟨record, hbef j record (by omega) hj, hstep⟩

theorem Armed.keeps {log' : List NativeCall} (h : Armed guarded journal log) (hst : start ≠ 0)
    (hkeeps : Keeps journal start log log') : Armed guarded journal log' :=
  fun hg resources hres =>
    hkeeps _ (fun hzero => absurd hzero hst) (h hg resources hres)

theorem chainPrepared_spec (resources : Resources) (h : At guarded journal world)
    (hnext : ∀ current, Journal.Valid { next with resources := some current } →
      Sound guarded world.log { next with resources := some current }) :
    Sustains guarded allowed (chainPrepared next resources) world := by
  refine .andThen (initializeResources_spec h.inv _) ?_
  rintro current w rfl
  split_ifs
  · refine .andThen (invalidateNetwork_spec h.inv _) ?_
    rintro _ w rfl
    refine .andThen (nextGeneration_spec h.inv _) ?_
    rintro networkGeneration w rfl
    exact (persist_at h (hnext _)).mono (fun _ _ hw => hw.2.1.inv) fun _ _ hw => hw.1
  · exact (persist_at h (hnext _)).mono (fun _ _ hw => hw.2.1.inv) fun _ _ hw => hw.1

theorem Journal.Ready.not_clean (h : journal.Ready) : journal.phase ≠ .clean := by
  intro hcln
  rcases h with heq | heq
  · rw [hcln] at heq
    cases heq
  · rw [hcln] at heq
    cases heq

theorem ready_of_isReady (h : journal.isReady) : journal.Ready := by
  simpa [Journal.isReady, Journal.Ready] using h

theorem beginChainTransition_spec (owner : Owner) (operationId : Uuid) (h : Inv guarded world) :
    Sustains guarded allowed (beginChainTransition owner operationId) world := by
  refine .andThen (checkOwner_spec h owner operationId) ?_
  rintro _ w ⟨rfl, hat, hid⟩
  generalize w.journal = journal at hat hid
  refine state_at hat (deny_bind h fun hdeny => ?_)
  simp only [Bool.or_eq_false_iff, Bool.not_eq_false'] at hdeny
  have hrdy := ready_of_isReady hdeny.1
  split_ifs
  · exact .pure h
  refine .andThen (persistPhase_at (by decide) hat) ?_
  rintro _ w1 ⟨hat1, hlog⟩
  refine .andThen (restoreRecords_spec true 2 hat1 nofun) ?_
  rintro _ w2 ⟨generation, records, hat2, hswp, hkeeps⟩
  have harmed : Armed guarded journal w2.log := by
    refine Armed.keeps ?_ two_ne_zero hkeeps
    rw [hlog]
    exact hat.armed hrdy
  obtain ⟨id, resources, plan, -, hres, hplan, -⟩ :=
    hat2.sound.valid.operation (by rintro ⟨⟩)
  refine state_at hat2 (expect_bind hplan (expect_bind hres ?_))
  refine chainPrepared_spec resources hat2 fun current hval => ?_
  refine hat2.sound.truncate two_ne_zero hswp.restored rfl hval rfl (fun _ => rfl) rfl ?_
  intro hg _ current' hcur
  have hsame := table_eq hat2.sound.valid hval rfl hres hcur
  rw [hsame]
  exact harmed hg resources hres

/-! ## Bookkeeping -/

/-- A save of the coordinator that only changes fields the calls are not about. -/
theorem bookkeeping_at (h : At guarded journal world)
    (hres : journal.resources.isSome → next.resources.isSome)
    (hid : next.operationId = journal.operationId) (hrecs : next.records = journal.records)
    (hrepl : next.replacement = journal.replacement)
    (hph : next.phase = journal.phase ∨ ¬next.Ready) :
    Sustains guarded allowed (persist next) world := by
  refine (persist_at h fun hval => ?_).mono (fun _ _ hw => hw.2.1.inv) fun _ _ hw => hw.1
  have htab : ∀ resources, journal.resources = some resources →
      ∃ resources', next.resources = some resources' ∧
        resources'.nftTable = resources.nftTable := by
    intro resources hsome
    obtain ⟨resources', hsome'⟩ := isSome_iff_exists.mp (hres (by rw [hsome]; rfl))
    exact ⟨resources', hsome', table_eq h.sound.valid hval hid hsome hsome'⟩
  refine h.sound.bookkeeping hval htab hrecs hrepl ?_
  intro hg hrdy resources' hsome'
  rcases hph with hph | hnot
  · have hrdy' : journal.Ready := by
      unfold Journal.Ready at hrdy ⊢
      rwa [hph] at hrdy
    obtain ⟨id, resources, -, -, hsome, -, -⟩ := h.sound.valid.operation hrdy'.not_clean
    rw [table_eq h.sound.valid hval hid hsome hsome']
    exact h.sound.ready hg hrdy' resources hsome
  · exact absurd hrdy hnot

theorem requireRecovery_spec (h : Inv guarded world) :
    Sustains guarded allowed requireRecovery world :=
  persistPhase_inv (by decide) h

theorem invalidatePhysicalNetwork_spec (h : Inv guarded world) :
    Sustains guarded allowed invalidatePhysicalNetwork world := by
  refine state_inv h (deny_bind h fun hcert => ?_)
  have hat := h.at hcert
  rcases hres : world.coordinator.journal.resources with _ | resources
  · exact .throw h
  · refine .andThen (invalidateNetwork_spec h _) ?_
    rintro _ w rfl
    refine .andThen (nextGeneration_spec h _) ?_
    rintro networkGeneration w rfl
    exact bookkeeping_at hat (fun _ => rfl) rfl rfl rfl (.inl rfl)

theorem updatePhysicalSnapshotWithRouting_spec (interfaces : List PhysicalInterface)
    (routingChanged : Bool) (h : Inv guarded world) :
    Sustains guarded allowed (updatePhysicalSnapshotWithRouting interfaces routingChanged)
      world := by
  refine state_inv h (deny_bind h fun hcert => ?_)
  have hat := h.at hcert
  rcases hres : world.coordinator.journal.resources with _ | resources
  · exact .pure h
  · dsimp only
    split_ifs
    · exact .pure h
    refine .andThen (invalidateNetwork_spec h _) ?_
    rintro _ w rfl
    refine .andThen (nextGeneration_spec h _) ?_
    rintro networkGeneration w rfl
    exact bookkeeping_at hat (fun _ => rfl) rfl rfl rfl (.inl rfl)

theorem observePhysicalNetwork_spec (observation : PhysicalObservation)
    (snapshot : Except IoError (List PhysicalInterface × List (List UInt8)))
    (h : Inv guarded world) :
    Sustains guarded allowed (observePhysicalNetwork observation snapshot) world := by
  -- a failed change is followed by `require_recovery`, whose result is dropped
  have hfail : ∀ (w : World) (r : PhysicalObservation × Except IoError Unit), Inv guarded w →
      Holds guarded allowed (do let _ ← attempt requireRecovery; pure r) (fun _ => Inv guarded)
        w := by
    intro w r hw
    refine .andThen (R := fun _ => Inv guarded) (.attempt ?_) fun _ _ hw' => .pure hw'
    exact requireRecovery_spec hw
  rcases snapshot with e | ⟨interfaces, routing⟩
  · unfold observePhysicalNetwork
    split_ifs
    · exact .pure h
    refine .andThen (R := fun _ => Inv guarded) (.attempt (invalidatePhysicalNetwork_spec h)) ?_
    rintro (e' | _) w hw
    · exact hfail w _ hw
    · exact .pure hw
  · refine .andThen (R := fun _ => Inv guarded)
      (.attempt (updatePhysicalSnapshotWithRouting_spec _ _ h)) ?_
    rintro (e' | _) w hw
    · exact hfail w _ hw
    · exact .pure hw

end

end Usque.Linux
