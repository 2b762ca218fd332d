/-
  The guards of the Linux agent over whole runs.
-/
import Usque.Linux.Serving

namespace Usque.Linux
open Agent (ValidatedTunnelPlan)
open Lib Fallible World

section
variable {world after : World} {code : Code LinuxOp LinuxOp.Answer Unit}

/-! ## The overlap of the guards -/

def Request.recovers : Request → Bool
  | .prepare .. | .commit .. | .finalize .. | .rollback .. | .abortReplacement .. => true
  | .automaticRecover .. | .recoverOrphaned .. | .recover => true
  | _ => false

theorem installed_of_does {op : LinuxOp} {answer : op.Answer} {table : String}
    (hdoes : Does op world answer after)
    (hop : ∀ resources plan, op = .restore .protection resources plan → resources.nftTable ≠ table)
    (h : installed table world.log) : installed table after.log := by
  cases op with
  | state =>
    obtain ⟨-, rfl⟩ := hdoes
    exact h
  | persist next =>
    change Persists world next answer after at hdoes
    unfold Persists at hdoes
    rcases hsave : next.save with e | saved
    · rw [hsave] at hdoes
      obtain ⟨-, rfl⟩ := hdoes
      exact h
    · rw [hsave] at hdoes
      rcases hdoes with ⟨-, rfl⟩ | ⟨-, disk, -, rfl⟩
      · exact h
      · exact h
  | load =>
    rcases hdoes with ⟨-, rfl⟩ | ⟨-, rfl⟩
    · exact h
    · exact h
  | apply =>
    obtain rfl : after = _ := hdoes
    exact installed_apply h
  | installBridge =>
    obtain rfl : after = _ := hdoes
    exact installed_installBridge h
  | restore step resources plan =>
    obtain rfl : after = _ := hdoes
    change installed table (.restore step resources.nftTable _ :: world.log)
    rw [installed_other ?_]
    · exact h
    · by_cases hstep : step = .protection
      · subst hstep
        simp [NativeCall.concerns, hop resources plan rfl]
      · simp [NativeCall.concerns, hstep]
  | _ =>
    obtain rfl : after = _ := hdoes
    exact h

/-- A replacement that begins under the guard of the source stays under a guard. -/
theorem replace_overlap {owner : Owner} {source operationId : Uuid} {generation : ℕ}
    {plan : ValidatedTunnelPlan} (hinv : Inv False world)
    (run : Code.Runs Does (Request.replace owner source operationId generation plan).code world
      code after)
    (h : installed (guardTable source) world.log) :
    installed (guardTable source) after.log ∨ installed (guardTable operationId) after.log := by
  have hwp := serve_spec (.replace owner source operationId generation plan) hinv False.elim
  induction run with
  | refl => exact .inl h
  | @step op k t u answer run hdoes ih =>
    obtain ⟨-, hremoves⟩ := (hwp.runs run).1
    by_cases hgrd : ∃ resources p, op = .restore .protection resources p
    · -- the guard of the source goes under the bridge
      obtain ⟨resources, p, rfl⟩ := hgrd
      have hrep : ReplaceGuard source operationId t resources := hremoves resources p rfl
      right
      refine installed_of_does hdoes ?_ (installed_of_lastGuardCall hrep.last)
      rintro _ _ ⟨⟩ heq
      rw [hrep.source.2, guardTable_inj] at heq
      exact hrep.differ heq
    · have hoth : ∀ table resources p, op = .restore .protection resources p →
          resources.nftTable ≠ table := fun _ resources p heq => absurd ⟨resources, p, heq⟩ hgrd
      exact ih.imp (installed_of_does hdoes (hoth _)) (installed_of_does hdoes (hoth _))

theorem RecoverGuard.bridge {resources : Resources} {replacement : Replacement}
    (hinv : Inv False world) (h : RecoverGuard world resources)
    (hrepl : world.disk.replacement = some replacement)
    (htab : resources.nftTable = replacement.resources.nftTable) :
    (⟨.protection, .restored⟩ : Record) ∈ world.disk.records ∧
      ∀ record ∈ world.disk.records, record.state = .restored := by
  rcases h.2 with hown | ⟨hall, hgrd, -⟩
  · exact absurd htab (hinv.disk.replacement_table hrepl hown)
  · exact ⟨hgrd, hall⟩

/-- **No gap during a replacement.** In a run of any request:
    * a replacement removes no guard but that of its source, after the bridge of the target
      was installed and saved as applied, as the last call about that bridge;
    * the bridge that is pending on disk is only removed in `recover`, when the guard of the
      source is journaled as restored; this also holds where a process starts;
    * a replacement that began under the guard of its source is under that guard or the
      bridge at every point. -/
theorem no_gap_during_replacement
    (h : linuxService.Reaches Fresh (fun _ _ => True) world (pure ())) (r : Request)
    (run : Code.Runs Does r.code world code after) :
    (∀ owner source operationId generation plan,
      r = .replace owner source operationId generation plan →
      (∀ resources p k, code = .act (.restore .protection resources p) k →
        resources.nftTable = guardTable source ∧
        (∃ replacement, after.disk.replacement = some replacement ∧
          replacement.operationId = operationId ∧ replacement.state = .applied) ∧
        lastGuardCall (guardTable operationId) after.log =
          some (.installBridge (guardTable operationId) true)) ∧
      (installed (guardTable source) world.log = true →
        installed (guardTable source) after.log = true ∨
          installed (guardTable operationId) after.log = true)) ∧
    (∀ resources p k replacement, code = .act (.restore .protection resources p) k →
      after.disk.replacement = some replacement →
      resources.nftTable = replacement.resources.nftTable →
      r.recovers = true ∧ (⟨.protection, .restored⟩ : Record) ∈ after.disk.records) ∧
    (∀ world' resources p k replacement,
      linuxService.Reaches Fresh (fun _ _ => True) world'
        (.act (.restore .protection resources p) k) →
      world'.disk.replacement = some replacement →
      resources.nftTable = replacement.resources.nftTable →
      (⟨.protection, .restored⟩ : Record) ∈ world'.disk.records) := by
  have hinv : Inv False world := reaches_inv h fun _ _ _ hfalse => hfalse.elim
  have hwp := serve_spec r hinv False.elim
  refine ⟨?_, ?_, ?_⟩
  · rintro owner source operationId generation plan rfl
    refine ⟨?_, replace_overlap hinv run⟩
    rintro resources p k rfl
    have hreplace : ReplaceGuard source operationId after resources :=
      (hwp.runs run).1.2 resources p rfl
    exact ⟨hreplace.source.2, hreplace.saved, hreplace.last⟩
  · rintro resources p k replacement rfl hreplacement htable
    obtain ⟨hinv', hremoves⟩ := (hwp.runs run).1
    have hguard := hremoves resources p rfl
    refine ⟨?_, (hguard.recoverGuard.bridge hinv' hreplacement htable).1⟩
    cases r with
    | replace _ source operationId =>
      have hreplace : ReplaceGuard source operationId after resources := hguard
      exact absurd htable (hinv'.disk.replacement_table hreplacement hreplace.source.1)
    | beginChainTransition | invalidatePhysicalNetwork | observePhysicalNetwork
    | reserveEgressMark | requireRecovery | armAutomaticRecovery | restartAutomaticRecovery =>
      exact hguard.elim
    | _ => rfl
  · intro world' resources p k replacement hreach hreplacement htable
    have hwp' : Code.Wp Does (Point False RecoverGuard) _ _ world' :=
      reaches_wp hreach fun _ _ _ hfalse => hfalse.elim
    obtain ⟨hinv', hguard⟩ := hwp'.1
    exact ((hguard resources p rfl).bridge hinv' hreplacement htable).1

/-! ## A ready tunnel -/

/-- **A ready tunnel is guarded** at every point of every run whose replacements find the
    guards that they rely on, whether or not the persistence is certain. -/
theorem ready_tunnel_guarded
    (h : linuxService.Reaches Fresh Request.FindsGuard world code)
    (hready : world.journal.phase = .prepared ∨ world.journal.phase = .active) :
    ∃ id, world.journal.operationId = some id ∧ installed (guardTable id) world.log = true := by
  have hinv : Inv True world := reaches_inv h fun _ _ hfinds _ => hfinds
  have hready : world.journal.Ready := hready
  obtain ⟨id, resources, -, hid, hresources, -, htable⟩ :=
    hinv.memory.valid.operation hready.not_clean
  refine ⟨id, hid, ?_⟩
  rw [← htable]
  exact hinv.memory.ready trivial hready resources hresources

end

/-! ## Samples -/

/-- The network of the source cannot be invalidated; the save behind a rollback fails; the
    next process cannot restore the bridge again; the replacement is repeated. -/
def sampleStimuli : List (Service.Stimulus Request Bool) :=
  [preparing, .request (.replace sampleOwner 1 2 6 samplePlan) (failsAt 10),
    .request (.rollback sampleOwner 1) (failsAt 15), .restart (failsAt 8),
    .request (.replace sampleOwner 1 2 12 samplePlan) (List.replicate 40 true)]

theorem sampleStimuli_unguarded :
    (linuxService.replay choose reopen sampleStimuli sampleFresh).map (fun world =>
      (world.journal.phase, world.coordinator.persistenceUncertain, world.journal.operationId,
        installed (guardTable 2) world.log)) =
      some (.prepared, false, some 2, false) := by decide +kernel

/-- **A ready tunnel that is not guarded.** -/
theorem ready_tunnel_unguarded : ∃ world : World,
    linuxService.Reaches Fresh (fun _ _ => True) world (pure ()) ∧
    world.journal.phase = .prepared ∧ world.coordinator.persistenceUncertain = false ∧
    world.journal.operationId = some 2 ∧ installed (guardTable 2) world.log = false := by
  obtain ⟨world, hreplay, hunguarded⟩ := Option.map_eq_some_iff.mp sampleStimuli_unguarded
  simp only [Prod.mk.injEq] at hunguarded
  exact ⟨world, replay_reaches (.of_forall (fun _ _ => trivial) _ _) hreplay, hunguarded⟩

/-- The network of the source cannot be invalidated; the replacement is repeated and finds
    its bridge. -/
def resumingStimuli : List (Service.Stimulus Request Bool) :=
  [preparing, .request (.replace sampleOwner 1 2 6 samplePlan) (failsAt 10),
    .request (.replace sampleOwner 1 2 8 samplePlan) (List.replicate 40 true)]

theorem resumingStimuli_ready :
    (linuxService.replay choose reopen resumingStimuli sampleFresh).map (fun world =>
      (world.journal.phase, world.journal.operationId)) = some (.prepared, some 2) := by
  decide +kernel

theorem resumingStimuli_admitted :
    linuxService.Admitted choose reopen Request.FindsGuard resumingStimuli sampleFresh := by
  refine ⟨trivial, ?_, ?_, trivial⟩
  · show Resumes _ 1 2 6 samplePlan
    decide +kernel
  · show Resumes _ 1 2 8 samplePlan
    decide +kernel

theorem ready_tunnel_guarded_resumed : ∃ world : World, world.journal.phase = .prepared ∧
    world.journal.operationId = some 2 ∧ installed (guardTable 2) world.log = true := by
  obtain ⟨world, hreplay, hready⟩ := Option.map_eq_some_iff.mp resumingStimuli_ready
  simp only [Prod.mk.injEq] at hready
  obtain ⟨id, hid, hinstalled⟩ :=
    ready_tunnel_guarded (replay_reaches resumingStimuli_admitted hreplay) (.inl hready.1)
  cases hready.2.symm.trans hid
  exact ⟨world, hready.1, hid, hinstalled⟩

theorem replacing_source :
    (linuxService.replay choose reopen [preparing] sampleFresh).map (fun world =>
      (installed (guardTable 1) world.log,
        installed (guardTable 1) ((Request.replace sampleOwner 1 2 6 samplePlan).code.follow
          choose (List.replicate 40 true) world).1.log)) = some (true, false) := by
  decide +kernel

theorem no_gap_during_replacement_sample : ∃ world after : World,
    installed (guardTable 1) world.log = true ∧ installed (guardTable 1) after.log = false ∧
      installed (guardTable 2) after.log = true := by
  obtain ⟨world, hreplay, hsource⟩ := Option.map_eq_some_iff.mp replacing_source
  simp only [Prod.mk.injEq] at hsource
  have run : Code.Runs Does (Request.replace sampleOwner 1 2 6 samplePlan).code world
      ((Request.replace sampleOwner 1 2 6 samplePlan).code.follow choose
        (List.replicate 40 true) world).2 _ := .follow choose_does .refl
  have hgap := no_gap_during_replacement (replay_reaches (.of_forall (fun _ _ => trivial) _ _) hreplay)
    (.replace sampleOwner 1 2 6 samplePlan) run
  refine ⟨world, _, hsource.1, hsource.2, ?_⟩
  refine ((hgap.1 _ _ _ _ _ rfl).2 hsource.1).resolve_left ?_
  rw [hsource.2]
  exact Bool.false_ne_true

end Usque.Linux
