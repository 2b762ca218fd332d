/-
  Every run of the agent keeps the invariant, and what follows from it.
-/
import Usque.Agent.Replacing

namespace Usque.Agent
open Lib List

def Stable (s : AgentCoordinator) : Prop :=
  Sound s.trace s.journal s.deviceLeaseAttached s.deviceRetirementResult

variable {trace : List Entry} {journal : RecoveryJournal} {file : Option JournalFile}

section
variable {platform : Platform} {q : Turn} {s s' : AgentCoordinator}

/-! ## Requests -/

/-- **Every operation keeps the invariant.** -/
theorem dispatch_safe (h : Serving q s) (hj : s.journal = q.start) :
    Safe q (dispatch platform q.request) s := by
  have hunit : ∀ {α : Type} {m : Locked α}, Safe q m s → Safe q (do let _ ← m; pure ()) s :=
    fun hm => safe_bind hm fun _ _ h1 => .pure h1
  obtain ⟨request, start⟩ := q
  cases request with
  | reconcileRemovedAdapterDependencies => exact hunit (reconcileRemovedAdapterDependencies_safe h)
  | recoverStale => exact recoverStale_safe h rfl
  | inspectStartupTunnel => exact hunit (inspectStartupTunnel_safe h)
  | recoverOrphaned => exact hunit (recoverOrphaned_safe h rfl)
  | recoverAutomatic => exact hunit (recoverAutomatic_safe h rfl)
  | beginChainTransition => exact hunit (beginChainTransition_safe h)
  | finalizeTunnel => exact hunit (finalizeTunnel_safe h rfl)
  | openPacketSession => exact hunit (openPacketSession_safe h rfl)
  | closePacketSession => exact hunit (closePacketSession_safe h rfl)
  | resumeTunnel => exact hunit (resumeTunnel_safe h)
  | acquireTunnelLease => exact hunit (acquireTunnelLease_safe h)
  | releaseStartupTunnelLease => exact hunit (releaseStartupTunnelLease_safe h)
  | releaseTunnelLease => exact hunit (releaseTunnelLease_safe h rfl)
  | recoverOrphanedStartupTunnel => exact hunit (recoverOrphanedStartupTunnel_safe h rfl)
  | recoverOrphanedTunnel => exact hunit (recoverOrphanedTunnel_safe h rfl)
  | commit => exact hunit (commit_safe h rfl)
  | rollback => exact hunit (rollback_safe h rfl)
  | reconcileAbsentAdapterOnRetry => exact hunit (reconcileAbsentAdapterOnRetry_safe h)
  | applySystemProxy => exact hunit (applySystemProxy_safe h rfl)
  | restoreSystemProxy => exact hunit (restoreSystemProxy_safe h rfl)
  | retryDeviceRetirementPersistence => exact retryDeviceRetirementPersistence_safe h rfl
  | recoverForProcessExit => exact hunit (recoverForProcessExit_safe h rfl)
  | acquireDeviceLease => exact hunit (acquireDeviceLease_safe h)
  | detachDeviceLease => exact hunit (detachDeviceLease_safe h)
  | prepareManaged => exact hunit (prepareManaged_safe h rfl)
  | releaseDeviceLease => exact hunit (releaseDeviceLease_safe h rfl)
  | retireOrphanedDevice => exact hunit (retireOrphanedDevice_safe h rfl)
  | retireDevice => exact hunit (retireDevice_safe h rfl)
  | replaceTunnel => exact hunit (replaceTunnel_safe h rfl)
  | abortReplacement => exact hunit (abortReplacement_safe h rfl hj)
  | abortReplacementForMaintenance => exact abortReplacementForMaintenance_safe h rfl hj

theorem Sound.requested {attached attached' : Bool} {result : Option DeviceRetirement}
    {request : Option Request} {session : Bool} (h : Sound trace journal attached result)
    (hl : attached' → attached) :
    Sound (⟨request, journal, session, .requested⟩ :: trace) journal attached' result := by
  have hout : outstanding (⟨request, journal, session, .requested⟩ :: trace) = outstanding trace := by
    simp [outstanding, WriteAhead.outstanding, ledger, Call.issued, Call.undoes]
  refine ⟨⟨fun _ hm => (by cases hm), h.legal⟩, ⟨?_, h.tracks.kinds, h.tracks.agree,
    h.tracks.ordered.cons fun _ hm => (by cases hm), h.tracks.guarded, h.tracks.clean⟩, forall_mem_cons.2 ⟨fun _ hm => (by cases hm), h.adapters⟩,
    h.durable, h.installed, h.generation,
    le_rfl, fun ha => h.leased (hl ha), hout ▸ h.retired⟩
  exact fun m hm => (h.tracks.recorded m (hout ▸ hm)).imp_left (superseded_cons (by rintro ⟨⟩))

theorem serve_safe (h : Stable s) (request : Request) :
    Safe ⟨request, s.journal⟩ (serve platform request) s := by
  refine .bind (.update (.bind ?_))
  refine dispatch_safe (q := ⟨request, s.journal⟩) ⟨rfl, ⟨rfl, fun entry hin => ?_⟩,
    Sound.requested h ?_⟩ rfl
  · exact absurd hin not_mem_nil
  · exact Asked.record.attached

/-! ## Restarts -/

theorem Legal.loadOrClean_eq (h : Legal trace) (hl : loadOrClean (storedFile trace) = .ok journal) :
    journal = lastSaved trace := by
  induction trace with
  | nil => exact (Except.ok.inj hl).symm
  | cons entry _ ih =>
    obtain ⟨request, memory, attached, call⟩ := entry
    cases call with
    | opened => exact Except.ok.inj (hl.symm.trans h.1.1)
    | save _ answer =>
      cases answer with
      | error => exact ih h.2 hl
      | ok => exact loadOrClean_written h.1.1 hl
    | _ => exact ih h.2 hl

/-- **A new process starts with the invariant**, after a legal trace or with the
    file of its first start. -/
theorem stable_open (hl : Legal trace)
    (ha : ∀ entry ∈ trace, ∀ m, entry.call.issued = some m → m.target = .step →
      ∀ receipt ∈ m.receipts, receipt.kind ≠ .wintunAdapter)
    (hf : trace = [] ∨ file = storedFile trace)
    (ho : AgentCoordinator.open platform trace file = .ok s) : Stable s := by
  obtain ⟨journal, hj, hs⟩ := bindOk.1 ho
  obtain hj : loadOrClean file = .ok journal := mapErrorOk.1 hj
  cases hs
  have hout : ∀ m, m ∈ outstanding (⟨none, journal, false, .opened file⟩ :: trace) ↔
      m ∈ outstanding trace := fun m => by
    simp [mem_outstanding_cons, Call.issued, Call.undoes]
  have hsvd : trace = [] ∨ journal = lastSaved trace := by
    refine hf.imp_right fun heq => hl.loadOrClean_eq ?_
    rw [← heq, hj]
  have hlegal : Legal (⟨none, journal, false, .opened file⟩ :: trace) := ⟨⟨hj, hsvd⟩, hl⟩
  refine ⟨hlegal, .of_valid (loadOrClean_valid hj) (fun m hm => ?_) hlegal.ordered,
    forall_mem_cons.2 ⟨fun _ hm => (by cases hm), ha⟩, id, fun r hr hp _ => ?_, le_rfl, le_rfl,
    fun hl => (by cases hl), fun hr => by cases hr⟩
  · rcases hsvd with rfl | heq
    · exact absurd ((hout m).1 hm) not_mem_nil
    · exact (hl.covered m ((hout m).1 hm)).imp (superseded_cons (by rintro ⟨⟩)) (heq ▸ ·)
  · show journal.replacementPending
    rw [RecoveryJournal.replacementPending, hr]
    exact hp

/-! ## Runs -/

/-- A request that ended; no recovery failed in it unless it ends with an error. -/
theorem halted_next (h : Stable s) (request : Request) :
    Halted ⟨request, s.journal⟩ (next platform s (.request request)).1 ∧
      ((next platform s (.request request)).2 = .ok () →
        Calm (next platform s (.request request)).1.trace) := by
  rw [next]
  have hsafe : Safe ⟨request, s.journal⟩ (serve platform request) s := serve_safe h request
  obtain ⟨_, s', hr, hs⟩ | ⟨_, s', hr, hs⟩ := hsafe.run
  · rw [hr]
    exact ⟨hs.halted, fun _ => hs.2.1.2⟩
  · rw [hr]
    exact ⟨hs, nofun⟩

theorem stable_next (h : Stable s) (stimulus : Stimulus) : Stable (next platform s stimulus).1 := by
  cases stimulus with
  | request request => exact (halted_next h request).1.2.2.2
  | crash lost =>
    simp only [next]
    cases ho : AgentCoordinator.open platform (s.trace.drop lost) (storedFile (s.trace.drop lost)) with
    | error => exact h
    | ok =>
      have hdrop := drop_suffix lost s.trace
      refine stable_open (h.legal.suffix hdrop) (fun entry hin => ?_) (.inr rfl) ho
      exact h.adapters entry (hdrop.subset hin)

/-- **The invariant holds in every reachable state.** -/
theorem reachable_stable (h : Reachable (next platform) (Started platform) s) : Stable s := by
  refine h.inv (fun s hs => ?_) fun s i hs => stable_next hs i
  obtain ⟨file, ho⟩ := hs
  exact stable_open (show Legal [] from trivial) (fun _ hin => nomatch hin) (.inl rfl) ho

/-- The state after the stimuli, if the first process opens the file. -/
def runFrom (platform : Platform) (file : Option JournalFile) (stimuli : List Stimulus) :
    Option AgentCoordinator :=
  (AgentCoordinator.open platform [] file).toOption.map fun agent =>
    stimuli.foldl (fun agent stimulus => (next platform agent stimulus).1) agent

theorem reachable_runFrom {stimuli : List Stimulus} (h : runFrom platform file stimuli = some s) :
    Reachable (next platform) (Started platform) s := by
  obtain ⟨agent, ho, rfl⟩ := Option.map_eq_some_iff.1 h
  have hreach : Reachable (next platform) (Started platform) agent :=
    .init ⟨file, toOptionOk.1 ho⟩
  clear ho h
  induction stimuli generalizing agent with
  | nil => exact hreach
  | cons stimulus _ ih => exact ih _ (hreach.step stimulus)

end

end Usque.Agent
