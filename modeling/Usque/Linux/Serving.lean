/-
  The Linux agent as a service: every request and every start of the process keeps the
  invariant, at each of its calls.
-/
import Usque.Linux.Replacing

namespace Usque.Linux
open Agent (ValidatedTunnelPlan)
open Lib Fallible World

variable {code : Code LinuxOp LinuxOp.Answer Unit} {admits : Request → World → Prop}
  {resources : Resources}

section
variable {guarded : Prop} {allowed : World → Resources → Prop} {journal : Journal} {world : World}

/-! ## The other requests -/

theorem abortReplacement_spec (owner : Owner) (target : Uuid) (generation : ℕ)
    (h : Inv guarded world) (hall : RecoverGuard ≤ allowed) :
    Sustains guarded allowed (abortReplacement owner target generation) world := by
  refine state_inv h ?_
  rcases world.coordinator.journal.operationId with _ | operation
  · exact .throw h
  · refine .andThen (checkOwner_spec h owner operation) ?_
    rintro _ w ⟨rfl, -⟩
    exact deny_bind h fun _ => recover_spec h hall

theorem reserveEgressMark_spec (owner : Owner) (operationId : Uuid) (generation : ℕ)
    (h : Inv guarded world) :
    Sustains guarded allowed (reserveEgressMark owner operationId generation) world := by
  refine .andThen (checkOwner_spec h owner operationId) ?_
  rintro _ w ⟨rfl, hat, -⟩
  generalize w.journal = journal at hat
  refine state_at hat (deny_bind h fun hdeny => ?_)
  simp only [Bool.or_eq_false_iff, Bool.not_eq_false'] at hdeny
  have hrdy := ready_of_isReady hdeny.2
  obtain ⟨id, resources, -, -, hres, -, -⟩ :=
    hat.sound.valid.operation hrdy.not_clean
  refine expect_bind hres ?_
  refine .andThen (R := fun _ w' => w' = w) (.perform (h.point (by rintro _ _ ⟨⟩)) ?_) ?_
  · exact fun _ _ hdoes => hdoes
  rintro (_ | slot) w' rfl
  · split_ifs
    · refine .andThen (bookkeeping_at hat (fun _ => rfl) rfl rfl rfl (.inl rfl)) ?_
      exact fun _ _ hw => .pure hw
    · exact .throw h
  · exact deny_bind h fun _ => .pure h

theorem armAutomaticRecovery_spec (h : Inv guarded world) :
    Sustains guarded allowed armAutomaticRecovery world := by
  refine state_inv h ?_
  split_ifs with hcert
  · exact .pure h
  · exact .pure h
  have hat : At guarded world.journal world := by
    refine h.at ?_
    simp only [Bool.or_eq_true, not_or, Bool.not_eq_true] at hcert
    exact hcert.1
  refine .andThen (R := fun _ => Inv guarded) ?_ fun _ w hw => state_inv hw (.pure hw)
  refine state_at hat ?_
  split_ifs
  · exact .pure h
  · exact bookkeeping_at hat id rfl rfl rfl (.inl rfl)

theorem recordAttempt_spec (error : IoError) (h : Inv guarded world) :
    Sustains guarded allowed (recordAttempt error) world := by
  refine state_inv h ?_
  cases hcert : world.coordinator.persistenceUncertain with
  | true => exact .pure h
  | false =>
    refine .andThen (R := fun _ => Inv guarded) (.attempt ?_) fun _ _ hw => .pure hw
    refine bookkeeping_at (h.at hcert) id rfl rfl rfl (.inr ?_)
    rintro (hrdy | hrdy)
    · cases hrdy
    · cases hrdy

theorem automaticRecover_spec (operation : Uuid) (generation : ℕ) (h : Inv guarded world)
    (hall : RecoverGuard ≤ allowed) :
    Sustains guarded allowed (automaticRecover operation generation) world := by
  refine state_inv h (deny_bind h fun hdeny => ?_)
  simp only [Bool.or_eq_false_iff] at hdeny
  have hat := h.at hdeny.1.1.1.1.1
  refine .andThen (bookkeeping_at hat id rfl rfl rfl (.inl rfl)) ?_
  intro _ w hw
  refine .andThen (R := fun _ => Inv guarded) (.attempt (recover_spec hw hall)) ?_
  rintro (e | _) w' hw'
  · exact .andThen (recordAttempt_spec e hw') fun _ _ hw'' => .throw hw''
  · exact .pure hw'

theorem restartAutomaticRecovery_spec (uid : ℕ) (operation : Uuid) (generation : ℕ)
    (ownerAlive : Bool) (h : Inv guarded world) :
    Sustains guarded allowed (restartAutomaticRecovery uid operation generation ownerAlive)
      world := by
  refine state_inv h (deny_bind h fun hdeny => ?_)
  simp only [Bool.or_eq_false_iff] at hdeny
  have hat := h.at hdeny.1.1.1.1.1
  exact bookkeeping_at hat id rfl rfl rfl (.inl rfl)

theorem recoverOrphaned_spec (uid : ℕ) (operationId : Uuid) (generation : ℕ) (ownerAlive : Bool)
    (h : Inv guarded world) (hall : RecoverGuard ≤ allowed) :
    Sustains guarded allowed (recoverOrphaned uid operationId generation ownerAlive) world :=
  state_inv h (deny_bind h fun _ => recover_spec h hall)

/-! ## The service -/

/-- What a request has established when it removes a guard. The requests of the last case
    never do, and the ones before it only in `recover`. -/
def Request.Removes : Request → World → Resources → Prop
  | .replace _ source operationId _ _ => ReplaceGuard source operationId
  | .prepare .. | .commit .. | .finalize .. | .rollback .. | .abortReplacement .. => RecoverGuard
  | .automaticRecover .. | .recoverOrphaned .. | .recover => RecoverGuard
  | _ => fun _ _ => False

def Request.FindsGuard : Request → World → Prop
  | .replace _ source operationId generation plan, world =>
    Resumes world source operationId generation plan
  | _, _ => True

/-- **Every request keeps the invariant.** -/
theorem serve_spec (r : Request) (h : Inv guarded world) (hfinds : guarded → r.FindsGuard world) :
    r.code.Wp Does (Point guarded r.Removes) (fun _ => Inv guarded) world := by
  cases r with
  | prepare owner operationId generation plan =>
    exact Ensures.ignore (prepare_spec owner operationId generation plan h fun _ _ hg => hg)
  | commit owner operationId => exact Ensures.ignore (commit_spec owner operationId h fun _ _ hg => hg)
  | finalize owner operationId plan =>
    exact Ensures.ignore (finalize_spec owner operationId plan h fun _ _ hg => hg)
  | rollback owner operationId =>
    exact Ensures.ignore (rollback_spec owner operationId h fun _ _ hg => hg)
  | beginChainTransition owner operationId =>
    exact Ensures.ignore (beginChainTransition_spec owner operationId h)
  | replace owner source operationId generation plan =>
    exact Ensures.ignore (replace_spec owner source operationId generation plan h hfinds fun _ _ hg => hg)
  | abortReplacement owner target generation =>
    exact Ensures.ignore (abortReplacement_spec owner target generation h fun _ _ hg => hg)
  | invalidatePhysicalNetwork => exact Ensures.ignore (invalidatePhysicalNetwork_spec h)
  | observePhysicalNetwork observation snapshot =>
    exact Ensures.ignore (observePhysicalNetwork_spec observation snapshot h)
  | reserveEgressMark owner operationId generation =>
    exact Ensures.ignore (reserveEgressMark_spec owner operationId generation h)
  | requireRecovery => exact Ensures.ignore (requireRecovery_spec h)
  | armAutomaticRecovery => exact Ensures.ignore (armAutomaticRecovery_spec h)
  | automaticRecover operation generation =>
    exact Ensures.ignore (automaticRecover_spec operation generation h fun _ _ hg => hg)
  | restartAutomaticRecovery uid operation generation ownerAlive =>
    exact Ensures.ignore (restartAutomaticRecovery_spec uid operation generation ownerAlive h)
  | recoverOrphaned uid operationId generation ownerAlive =>
    exact Ensures.ignore (recoverOrphaned_spec uid operationId generation ownerAlive h fun _ _ hg => hg)
  | recover => exact Ensures.ignore (recover_spec h fun _ _ hg => hg)

theorem ReplaceGuard.recoverGuard {source operationId : Uuid}
    (h : ReplaceGuard source operationId world resources) : RecoverGuard world resources :=
  ⟨h.others, .inl h.source.1⟩

theorem Request.Removes.recoverGuard {r : Request} (h : r.Removes world resources) :
    RecoverGuard world resources := by
  cases r with
  | replace => exact ReplaceGuard.recoverGuard h
  | beginChainTransition | invalidatePhysicalNetwork | observePhysicalNetwork
  | reserveEgressMark | requireRecovery | armAutomaticRecovery | restartAutomaticRecovery =>
    exact h.elim
  | _ => exact h

theorem World.Fresh.inv (h : world.Fresh) : Inv guarded world := by
  obtain ⟨hdisk, hcoord, hlog⟩ := h
  have hsnd : Sound guarded world.log world.disk := by
    rw [hdisk, hlog]
    refine ⟨Journal.valid_of_validate rfl, ?_, ?_, ?_, ?_⟩
    · intro effect hmem
      cases hmem
    · rintro replacement ⟨⟩
    · intro hsome
      cases hsome
    · rintro - (hrdy | hrdy)
      · cases hrdy
      · cases hrdy
  exact At.inv ⟨hcoord, rfl, hsnd⟩

section
variable (h : linuxService.Reaches World.Fresh admits world code)
  (hadmits : ∀ r w, admits r w → guarded → r.FindsGuard w)
include h hadmits

/-- **The invariant holds at every point of every run**; it includes that a ready tunnel is
    guarded if the requests find their guards. -/
theorem reaches_wp : code.Wp Does (Point guarded RecoverGuard) (fun _ => Inv guarded) world := by
  refine h.wp (fun _ hfrs => hfrs.inv) ?_ (fun _ _ hpoint => hpoint.1) ?_
  · intro r w hinv hr
    refine (serve_spec r hinv (hadmits r w hr)).weaken ?_
    rintro op w' ⟨hinv', hremoves⟩
    exact ⟨hinv', fun resources plan heq => (hremoves resources plan heq).recoverGuard⟩
  · rintro w w' code' hinv ⟨rfl, rfl | ⟨-, rfl⟩⟩
    · have hinv' : Inv guarded { w with coordinator := ⟨w.disk, false⟩ } :=
        ⟨hinv.disk, hinv.disk, fun _ => rfl⟩
      exact Ensures.ignore (recover_spec hinv' fun _ _ hg => hg)
    · exact ⟨hinv.disk, hinv.disk, fun _ => rfl⟩

theorem reaches_inv : Inv guarded world := by
  have hwp := reaches_wp h hadmits
  cases code with
  | done => exact hwp
  | panicked => exact hwp.elim
  | act => exact hwp.1.1

end

/-- **Write-ahead coverage.** At every point of every run, each step or bridge that a call
    was issued for and that no successful restore has followed is, on disk, a record that is
    not restored or the pending replacement; and a guard is restored only when every other
    record on disk is restored. No request panics. -/
theorem write_ahead_coverage {code : Code LinuxOp LinuxOp.Answer Unit}
    (h : linuxService.Reaches World.Fresh (fun _ _ => True) world code) :
    code ≠ .panicked ∧
    (∀ effect ∈ outstanding world.log, world.disk.Covers effect) ∧
    (∀ resources plan k, code = .act (.restore .protection resources plan) k →
      (world.disk.resources = some resources ∨
        ∃ replacement, world.disk.replacement = some replacement ∧
          replacement.resources = resources) ∧
      ∀ record ∈ world.disk.records, record.step ≠ .protection → record.state = .restored) := by
  have hwp : code.Wp Does (Point False RecoverGuard) (fun _ => Inv False) world :=
    reaches_wp h fun _ _ _ hfalse => hfalse.elim
  have hinv : Inv False world := reaches_inv h fun _ _ _ hfalse => hfalse.elim
  refine ⟨?_, hinv.disk.covers, ?_⟩
  · rintro rfl
    exact hwp
  · rintro resources plan k rfl
    obtain ⟨hothers, hresources⟩ := hwp.1.2 resources plan rfl
    exact ⟨hresources.imp_right fun ⟨_, _, hreplacement⟩ => hreplacement, hothers⟩

/-- **Clean means undone**, at every point of every run: while the journal in memory or
    the one on disk is clean, nothing is in force that the agent installed. -/
theorem clean_nothing_outstanding {code : Code LinuxOp LinuxOp.Answer Unit}
    (h : linuxService.Reaches World.Fresh (fun _ _ => True) world code)
    (hcln : world.journal.phase = .clean ∨ world.disk.phase = .clean) :
    outstanding world.log = [] := by
  have hinv : Inv False world := reaches_inv h fun _ _ _ hfls => hfls.elim
  have hnone : ∀ journal : Journal, Sound False world.log journal → journal.phase = .clean →
      outstanding world.log = [] := by
    intro journal hsnd hph
    obtain ⟨hres, -, hrepl⟩ := hsnd.valid.clean hph
    refine List.eq_nil_iff_forall_not_mem.2 fun effect hmem => ?_
    rcases hsnd.covers effect hmem with ⟨_, _, hsome, -⟩ | ⟨_, hsome, -⟩
    · cases hres.symm.trans hsome
    · cases hrepl.symm.trans hsome
  exact hcln.elim (hnone _ hinv.memory) (hnone _ hinv.disk)

end

theorem bridge_outstanding :
    (linuxService.replay World.choose World.reopen
      [preparing, .request (.replace sampleOwner 1 2 6 samplePlan) (failsAt 10)]
      sampleFresh).map (fun world =>
        decide ((⟨guardTable 2, .protection⟩ : Effect) ∈ outstanding world.log)) =
      some true := by decide +kernel

theorem write_ahead_coverage_sample : ∃ world : World,
    (⟨guardTable 2, .protection⟩ : Effect) ∈ outstanding world.log ∧
      world.disk.Covers ⟨guardTable 2, .protection⟩ := by
  obtain ⟨world, hreplay, hmem⟩ := Option.map_eq_some_iff.mp bridge_outstanding
  have hmem := of_decide_eq_true hmem
  obtain ⟨-, hcovers, -⟩ :=
    write_ahead_coverage (replay_reaches (.of_forall (fun _ _ => trivial) _ _) hreplay)
  exact ⟨world, hmem, hcovers _ hmem⟩

/-- The tunnel of the sample is rolled back. -/
theorem clean_nothing_outstanding_rollback : ∃ world : World,
    world.log ≠ [] ∧ outstanding world.log = [] := by
  have hreplay : (linuxService.replay World.choose World.reopen
      [preparing, .request (.rollback sampleOwner 1) (List.replicate 40 true)] sampleFresh).map
        (fun world => decide (world.journal.phase = .clean ∧ world.log ≠ [])) = some true := by
    decide +kernel
  obtain ⟨world, hreplay, hworld⟩ := Option.map_eq_some_iff.mp hreplay
  obtain ⟨hcln, hlog⟩ := of_decide_eq_true hworld
  exact ⟨world, hlog,
    clean_nothing_outstanding (replay_reaches (.of_forall (fun _ _ => trivial) _ _) hreplay) (.inl hcln)⟩

end Usque.Linux
