/-
  The rules of the calls of the coordinator, for an agent that serves a request.
-/
import Usque.Agent.Invariant

namespace Usque.Agent
open Lib Option

/-! ## Serving a request -/

/-- A request, with the journal in memory when it started. -/
structure Turn where
  request : Request
  start : RecoveryJournal

namespace Turn

def isReplace (q : Turn) : Bool := q.request.isReplace
def isAbort (q : Turn) : Bool := q.request.isAbort

end Turn

/-- The request is served, and no recovery failed in it. -/
def Serving (q : Turn) (s : AgentCoordinator) : Prop :=
  s.request = some q.request ∧ (requestJournal s.trace = q.start ∧ Calm s.trace) ∧
    Sound s.trace s.journal s.deviceLeaseAttached s.deviceRetirementResult

/-- A recovery that began with the journal `before` failed in the retirement of the device
    only: every step was restored and `Clean` was saved before it. -/
structure RetirementFailed (before : RecoveryJournal) (error : CoordinatorError)
    (journal : RecoveryJournal) (trace : List Entry) : Prop where
  phase : journal.phase = .clean
  device : journal.device.isSome = true
  restored : ∀ step ∈ before.steps, step.state ≠ .restored → Settled trace before.steps step.receipt
  saved : ∃ entry ∈ sinceRequest trace, ∃ clean len,
    entry.call = .save clean (.ok len) ∧ clean.phase = .clean
  error : error = .recoveryBusy ∨ ∃ failure, error = .journal failure

/-- The phase that a failed recovery leaves: recovery is required, or it was
    refused, or only the retirement of the device failed. -/
def FailedPhase (before : RecoveryJournal) (error : CoordinatorError) (journal : RecoveryJournal)
    (trace : List Entry) : Prop :=
  journal.phase = .recoveryRequired ∨
  error = .replacementPending ∧ journal.replacementPending = true ∧ journal.phase = before.phase ∨
  RetirementFailed before error journal trace

/-- The request ended; a recovery that failed in it left its phase. -/
def Halted (q : Turn) (s : AgentCoordinator) : Prop :=
  s.request = some q.request ∧ requestJournal s.trace = q.start ∧
  (∀ entry ∈ sinceRequest s.trace, ∀ before error,
    entry.call = .recovered before (.error error) → FailedPhase before error s.journal s.trace) ∧
  Sound s.trace s.journal s.deviceLeaseAttached s.deviceRetirementResult

variable {journal : RecoveryJournal}

section
variable {q : Turn} {s : AgentCoordinator}

theorem Serving.sound (h : Serving q s) :
    Sound s.trace s.journal s.deviceLeaseAttached s.deviceRetirementResult := h.2.2

theorem Serving.halted (h : Serving q s) : Halted q s :=
  ⟨h.1, h.2.1.1, fun entry hin before error hcall => absurd hcall (h.2.1.2 entry hin before error),
    h.2.2⟩

theorem Serving.edit (h : Serving q s)
    (hs : Sound s.trace journal s.deviceLeaseAttached s.deviceRetirementResult) :
    Serving q { s with journal := journal } := ⟨h.1, h.2.1, hs⟩

theorem Serving.harmless (h : Serving q s) (hh : Harmless s.journal journal) :
    Serving q { s with journal := journal } :=
  h.edit (h.sound.harmless hh)

end

/-! ## Frames -/

/-- What is kept from the one state to the other: the device, the replacement and
    the operation of the journal, and that no process has attached a lease, retired
    the device, removed the guard or made the journal `Clean`. -/
def Frame (s s' : AgentCoordinator) : Prop :=
  s'.journal.device = s.journal.device ∧ s'.journal.replacement = s.journal.replacement ∧
  s'.journal.operationId = s.journal.operationId ∧
  ((s'.journal.phase = .clean → s.journal.phase = .clean) ∧
    (s'.journal.phase.live = true → s.journal.phase.live = true)) ∧
  s'.deviceRetirementResult = s.deviceRetirementResult ∧
  (s'.deviceLeaseAttached = true → s.deviceLeaseAttached = true) ∧ Grown s.trace s'.trace

namespace Frame
variable {s s' s'' : AgentCoordinator}

section
variable (h : Frame s s')
include h

theorem device : s'.journal.device = s.journal.device := h.1
theorem replacement : s'.journal.replacement = s.journal.replacement := h.2.1
theorem operationId : s'.journal.operationId = s.journal.operationId := h.2.2.1
theorem clean : s'.journal.phase = .clean → s.journal.phase = .clean := h.2.2.2.1.1
theorem live : s'.journal.phase.live → s.journal.phase.live := h.2.2.2.1.2
theorem result : s'.deviceRetirementResult = s.deviceRetirementResult :=
  h.2.2.2.2.1
theorem attached : s'.deviceLeaseAttached → s.deviceLeaseAttached :=
  h.2.2.2.2.2.1
theorem grown : Grown s.trace s'.trace := h.2.2.2.2.2.2

end

theorem refl (s : AgentCoordinator) : Frame s s := ⟨rfl, rfl, rfl, ⟨id, id⟩, rfl, id, .refl _⟩

theorem trans (h : Frame s s') (h' : Frame s' s'') : Frame s s'' :=
  ⟨h'.device.trans h.device, h'.replacement.trans h.replacement,
    h'.operationId.trans h.operationId,
    ⟨fun hc => h.clean (h'.clean hc), fun hl => h.live (h'.live hl)⟩,
    h'.result.trans h.result, fun ha => h.attached (h'.attached ha), h.grown.trans h'.grown⟩

theorem pending_eq (h : Frame s s') :
    s'.journal.replacementPending = s.journal.replacementPending := by
  unfold RecoveryJournal.replacementPending
  rw [h.replacement]

theorem guardConfirmed (h : Frame s s') (hg : GuardConfirmed s.journal s.trace) :
    GuardConfirmed s'.journal s'.trace := by
  obtain ⟨replacement, hr, hc⟩ := hg
  exact ⟨replacement, h.replacement.trans hr, h.grown.guardConfirmed hc⟩

end Frame

/-- The request is still served, within a frame. -/
def Steady (q : Turn) (s s' : AgentCoordinator) : Prop := Serving q s' ∧ Frame s s'

/-! ## Calls -/

/-- A call that starts nothing, restores nothing and saves nothing. -/
def Call.isQuiet : Call → Bool
  | .planReplacementGuard _ | .inspectReplacementGuard .. | .inspectGuardPolicy ..
  | .inspectIdleDevice .. | .planStep .. | .inspectAdapter .. | .inspectTunnel _
  | .planSystemProxy _ | .revokeEgress | .save _ (.error _) => true
  | _ => false

/-- The call keeps the invariant in the state. -/
structure Callable (call : Call) (s : AgentCoordinator) : Prop where
  saved : Entry.saved ⟨s.request, s.journal, s.packetSessionAttached, call⟩ = none
  boundary : call.isBoundary = false
  calm : ∀ before error, call ≠ .recovered before (.error error)
  allowed : Allowed ⟨s.request, s.journal, s.packetSessionAttached, call⟩ s.trace
  recordable : ∀ m, call.issued = some m →
    Recordable s.trace s.journal s.deviceRetirementResult m

structure Asked (call : Call) (s s' : AgentCoordinator) : Prop where
  journal : s'.journal = s.journal
  session : s'.packetSessionAttached = s.packetSessionAttached
  result : s'.deviceRetirementResult = s.deviceRetirementResult
  attached : s'.deviceLeaseAttached = true → s.deviceLeaseAttached = true
  trace : s'.trace = ⟨s.request, s.journal, s.packetSessionAttached, call⟩ :: s.trace

section
variable {q : Turn} {s s' : AgentCoordinator} {call : Call} {platform : Platform} {α : Type}

theorem Asked.frame (h : Asked call s s') (hp : call.isPlain) : Frame s s' :=
  ⟨congrArg _ h.journal, congrArg _ h.journal, congrArg _ h.journal,
    ⟨fun hc => h.journal ▸ hc, fun hl => h.journal ▸ hl⟩, h.result, h.attached,
    h.trace ▸ Grown.cons hp⟩

theorem Asked.record : Asked call s (s.record platform call) := by
  refine ⟨rfl, rfl, rfl, fun h => ?_, rfl⟩
  unfold AgentCoordinator.deviceLeaseAttached AgentCoordinator.record at h
  split at h
  · cases hl : s.deviceLease <;> simp [hl] at h
  · exact h

theorem calm_cons {entry : Entry} {trace : List Entry} (hb : entry.call.isBoundary = false)
    (hc : ∀ before error, entry.call ≠ .recovered before (.error error)) (h : Calm trace) :
    Calm (entry :: trace) := by
  intro e hin
  rw [sinceRequest_cons hb] at hin
  rcases List.mem_cons.1 hin with rfl | hin
  · exact hc
  · exact h e hin

theorem Serving.record (h : Serving q s) (hc : Callable call s) :
    Serving q (s.record platform call) := by
  exact ⟨h.1, ⟨(requestJournal_cons hc.boundary).trans h.2.1.1, calm_cons hc.boundary hc.calm h.2.1.2⟩,
    h.sound.record hc.saved hc.boundary hc.allowed hc.recordable Asked.record.attached⟩

variable {E : CoordinatorError → AgentCoordinator → Prop}

/-- **The rule of a call.** -/
theorem Serving.ask (h : Serving q s) {answer : Nat → α} {call : α → Call}
    {Q : α → AgentCoordinator → Prop} (hc : ∀ a, Callable (call a) s)
    (k : ∀ a s', Serving q s' → Asked (call a) s s' → Q a s') :
    Ends (Agent.ask platform answer call) Q E s :=
  k _ _ (h.record (hc _)) .record

theorem Serving.askOrReturn (h : Serving q s) {answer : Nat → Except BackendError α}
    {call : Except BackendError α → Call} {Q : α → AgentCoordinator → Prop}
    (hc : ∀ a, Callable (call a) s) (k : ∀ a s', Serving q s' → Asked (call (.ok a)) s s' → Q a s')
    (he : ∀ e s', Serving q s' → Asked (call (.error e)) s s' → E (.backend e) s') :
    Ends (orReturn (Agent.ask platform answer call)) Q E s := by
  refine .bind (h.ask hc fun a s' h' ha => ?_)
  cases a with
  | error e => exact he e s' h' ha
  | ok a => exact k a s' h' ha

theorem Callable.quiet (h : call.isQuiet) : Callable call s := by
  unfold Call.isQuiet at h
  split at h
  all_goals first
    | exact ⟨rfl, rfl, fun _ _ hc => (nomatch hc), fun _ hm => (nomatch hm),
        fun _ hm => nomatch hm⟩
    | cases h

theorem Callable.restore {path : RestorePath} {receipt : MutationReceipt}
    {adapter : Option MutationReceipt} {answer : Except BackendError Unit}
    (h : Serving q s) (ha : RestoreAllowed path (some q.request) s.journal s.trace) :
    Callable (.restoreStep path receipt adapter answer) s :=
  ⟨rfl, rfl, fun _ _ hc => (nomatch hc), h.1.symm ▸ ha, fun _ hm => nomatch hm⟩

theorem Callable.issue {m : Mutation} (hi : call.issued = some m)
    (hl : (lastSaved s.trace).records m) (hf : Fresh (lastSaved s.trace) s.trace m)
    (hr : Recordable s.trace s.journal s.deviceRetirementResult m) : Callable call s := by
  cases call <;> first
    | cases hi; done
    | exact ⟨rfl, rfl, fun _ _ hc => (nomatch hc),
        fun _ hm => some.inj (hi.symm.trans hm) ▸ ⟨hl, hf⟩,
        fun _ hm => some.inj (hi.symm.trans hm) ▸ hr⟩

theorem Call.isPlain_of_isQuiet (h : call.isQuiet) : call.isPlain := by
  cases call <;> first | rfl | cases h

theorem Asked.outstanding_quiet (h : Asked call s s') (hq : call.isQuiet) :
    outstanding s'.trace = outstanding s.trace := by
  rw [h.trace]
  cases call <;> first
    | cases hq; done
    | simp [outstanding, WriteAhead.outstanding, ledger, Call.issued, Call.undoes]

theorem Asked.lastSaved_quiet (h : Asked call s s') (hq : call.isQuiet) :
    lastSaved s'.trace = lastSaved s.trace := by
  rw [h.trace, lastSaved_cons, (Callable.quiet hq).saved, getD_none]

end

/-! ## Saves -/

/-- Only the generation of the journal changed. -/
structure Kept (s s' : AgentCoordinator) : Prop where
  journal : s'.journal = { s.journal with generation := s'.journal.generation }
  session : s'.packetSessionAttached = s.packetSessionAttached
  outstanding : outstanding s'.trace = outstanding s.trace
  superseded : ∀ m, superseded s.trace m = true → superseded s'.trace m = true
  frame : Frame s s'

section
variable {q : Turn} {s s' : AgentCoordinator} {platform : Platform}
  {E : CoordinatorError → AgentCoordinator → Prop}

theorem Kept.steps (h : Kept s s') : s'.journal.steps = s.journal.steps := by rw [h.journal]
theorem Kept.phase (h : Kept s s') : s'.journal.phase = s.journal.phase := by rw [h.journal]

/-- The journal that is saved has the next generation, unless the save fails. -/
theorem beforeWrite_cases (journal : RecoveryJournal) :
    (∃ saved, journal.beforeWrite = (saved, .ok ()) ∧ saved.validate = .ok () ∧
      saved = { journal with generation := journal.generation + 1 }) ∨
    ∃ saved error, journal.beforeWrite = (saved, .error error) ∧
      saved = { journal with generation := saved.generation } ∧
      journal.generation ≤ saved.generation := by
  unfold RecoveryJournal.beforeWrite
  split
  · cases hv : RecoveryJournal.validate { journal with generation := journal.generation + 1 } with
    | ok _ => exact .inl ⟨_, Prod.ext rfl hv, hv, rfl⟩
    | error error =>
      exact .inr ⟨{ journal with generation := journal.generation + 1 }, error, Prod.ext rfl hv,
        rfl, Nat.le_succ _⟩
  · exact .inr ⟨journal, _, rfl, rfl, le_rfl⟩

/-- **The rule of a save** of a journal that takes the place of the one in memory. -/
theorem Serving.save (h : Serving q s)
    {Q : RecoveryJournal × Except JournalError Unit → AgentCoordinator → Prop}
    (hgen : s.journal.generation ≤ journal.generation)
    (recorded : ∀ m ∈ outstanding s.trace, superseded s.trace m ∨ journal.records m)
    (ordered : Ordered journal s.trace)
    (k : ∀ saved len s', saved = { journal with generation := journal.generation + 1 } →
      Serving q { s' with journal := saved } → Asked (.save saved (.ok len)) s s' →
      Q (saved, .ok ()) s')
    (he : ∀ saved error s', saved = { journal with generation := saved.generation } →
      s.journal.generation ≤ saved.generation → Serving q s' →
      Asked (.save saved (.error error)) s s' → Q (saved, .error error) s') :
    Ends (Agent.save platform journal) Q E s := by
  unfold Agent.save
  rcases beforeWrite_cases journal with ⟨saved, hb, hv, hsvd⟩ | ⟨saved, error, hb, hsvd, hle⟩
  · simp only [hb]
    refine .bind ?_
    show Ends (pure (saved, _)) Q E (s.record platform _)
    refine .pure ?_
    cases hw : platform.write s.trace.length with
    | error error =>
      refine he saved error _ (hsvd ▸ rfl) ?_ (h.record (.quiet rfl)) .record
      rw [hsvd]
      exact hgen.trans (Nat.le_succ _)
    | ok len =>
      have ha : Asked (.save saved (.ok len)) s (s.record platform (.save saved (.ok len))) := .record
      refine k saved len _ hsvd ⟨h.1, ⟨h.2.1.1, calm_cons rfl (fun _ _ hc => nomatch hc) h.2.1.2⟩,
        ?_⟩ ha
      refine h.sound.saved hv ?_ (hsvd ▸ recorded)
        (ordered.subset (hsvd ▸ fun _ hin => hin) (hsvd ▸ id)) ha.attached
      rw [hsvd]
      exact Nat.lt_succ_of_le hgen
  · simp only [hb]
    exact .bind (he saved error _ hsvd (hgen.trans hle) (h.record (.quiet rfl)) .record)

theorem Serving.store (h : Serving q s) {Q : Except JournalError Unit → AgentCoordinator → Prop}
    (k : ∀ s', Serving q s' → Kept s s' → lastSaved s'.trace = s'.journal → Q (.ok ()) s')
    (he : ∀ error s', Serving q s' → Kept s s' → Q (.error error) s') :
    Ends (Agent.store platform) Q E s := by
  have hfr : ∀ {saved answer s1}, saved = { s.journal with generation := saved.generation } →
      Asked (.save saved answer) s s1 → Kept s { s1 with journal := saved } := by
    intro saved answer s1 heq ha
    refine ⟨heq, ha.session, ?_, fun m hm => ?_, ?_⟩
    · rw [ha.trace]
      simp [outstanding, WriteAhead.outstanding, ledger, Call.issued, Call.undoes]
    · rw [ha.trace]
      exact superseded_cons (by rintro ⟨⟩) hm
    · rw [heq]
      exact ⟨rfl, rfl, rfl, ⟨id, id⟩, ha.result, ha.attached, ha.trace ▸ Grown.cons rfl⟩
  refine .bind (.read (.bind (h.save le_rfl h.sound.tracks.recorded h.sound.tracks.ordered ?_ ?_)))
  · intro saved len s1 hs h1 ha
    refine k _ h1 (hfr (hs ▸ rfl) ha) ?_
    rw [ha.trace]
    rfl
  · intro saved error s1 hs hle h1 ha
    refine he error _ (h1.harmless ?_) (hfr hs ha)
    rw [hs, ha.journal]
    exact ⟨rfl, rfl, rfl, rfl, id, id, hle⟩

theorem Serving.storeOrReturn (h : Serving q s) {Q : Unit → AgentCoordinator → Prop}
    (k : ∀ s', Serving q s' → Kept s s' → lastSaved s'.trace = s'.journal → Q () s')
    (he : ∀ error s', Serving q s' → Kept s s' → E error s') :
    Ends (Agent.storeOrReturn platform) Q E s :=
  .bind (h.store k fun error s' => he (.journal error) s')

end

end Usque.Agent
