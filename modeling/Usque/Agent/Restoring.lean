/-
  Restoring the steps of the journal keeps the invariant.
-/
import Usque.Agent.Calls

namespace Usque.Agent
open Lib List Option

variable {trace : List Entry} {steps first : List MutationRecord} {index : Nat}
  {step : MutationRecord} {adapter : Option MutationReceipt}

variable {failures : List RecoveryFailure} {order : List Nat} {i : Nat}

section
variable {platform : Platform} {q : Turn} {s s' : AgentCoordinator} {path : RestorePath}
  {E : CoordinatorError → AgentCoordinator → Prop}

theorem RestoreAllowed.frame (h : RestoreAllowed path (some q.request) s.journal s.trace)
    (hf : Frame s s') : RestoreAllowed path (some q.request) s'.journal s'.trace :=
  ⟨fun hp => hf.pending_eq.trans (h.recovery hp), h.replacement,
    fun hr => hf.guardConfirmed (h.guarded hr)⟩

/-! ## One step -/

theorem markRestored_marked {journal : RecoveryJournal} (hi : journal.steps[index]? = some step)
    (hd : Done trace step.receipt)
    (hk : step.receipt.kind = .wintunAdapter → journal.phase.live = false ∧
      ∀ other ∈ journal.steps, removedWith other.receipt step.receipt → Done trace other.receipt) :
    List.Forall₂ (Marked trace journal) journal.steps (markRestored index journal.steps) := by
  have hsame : List.Forall₂ Eq journal.steps journal.steps := forall₂_same.2 fun _ _ => rfl
  refine forall₂_modify hsame (fun a b h => .inl h.symm) fun a b hb h => ?_
  cases h
  cases hi.symm.trans hb
  exact .inr ⟨rfl, hd, hk⟩

theorem restoredSince_restored {request : Option Request} {journal : RecoveryJournal}
    {session : Bool} {receipt : MutationReceipt} :
    RestoredSince (⟨request, journal, session, .restoreStep path receipt adapter (.ok ())⟩ :: trace)
      receipt := by
  refine ⟨⟨request, journal, session, .restoreStep path receipt adapter (.ok ())⟩, ?_, path,
    adapter, rfl⟩
  exact mem_cons_self ..

/-- The outcome of the restore of a step: it is restored, or reported. -/
def StepOutcome (first : List MutationRecord) (index : Nat) (step : MutationRecord)
    (s : AgentCoordinator) (r : List RecoveryFailure × Bool) (s' : AgentCoordinator) : Prop :=
  s'.journal.steps = markRestored index s.journal.steps ∧ Settled s'.trace first step.receipt ∧
    r.2 = false ∨
  s'.journal.steps = s.journal.steps ∧ ∃ error, r.1 = [.restore step.kind error]

theorem storeMarked_ends (h : Serving q s') (hf : Frame s s')
    (hstp : s'.journal.steps = markRestored index s.journal.steps)
    (hset : Settled s'.trace first step.receipt) :
    Ends (store platform >>= fun saved => pure (persistFailure (some step.kind) saved, false))
      (fun r s' => Steady q s s' ∧ StepOutcome first index step s r s') E s' := by
  refine .bind (h.store (fun s1 h1 hs1 _ => ?_) fun _ s1 h1 hs1 => ?_)
  all_goals exact ⟨⟨h1, hf.trans hs1.frame⟩,
    .inl ⟨hs1.steps.trans hstp, hs1.frame.grown.settled hset, rfl⟩⟩

theorem restoreIndex_ends (h : Serving q s)
    (ha : RestoreAllowed path (some q.request) s.journal s.trace)
    (hi : s.journal.steps[index]? = some step) (hlive : s.journal.phase.live = false)
    (hgone : ∀ adapter ∈ s.journal.steps, adapter.state = .restored →
      ∀ receipt, removedWith receipt adapter.receipt → Settled s.trace first receipt) :
    Ends (restoreIndex platform path adapter index step)
      (fun r s' => Steady q s s' ∧ StepOutcome first index step s r s') E s := by
  have hin := mem_of_getElem? hi
  refine .bind (.read (.ite (fun hs => ?_) fun _ => ?_))
  · obtain ⟨hdone, hkind, adapter, hadapter, hres, hw⟩ := h.sound.gone hin hs
    have hm := markRestored_marked hi hdone fun hk => absurd hk hkind
    have h1 := h.edit (h.sound.marked hm)
    exact .bind (.update (storeMarked_ends h1 (.refl s) rfl (hgone adapter hadapter hres _ hw)))
  · refine .bind (h.ask (fun _ => .restore h ha) fun r s1 h1 ha1 => ?_)
    have hf := ha1.frame rfl
    cases r with
    | error error =>
      exact .pure ⟨⟨h1, hf⟩, .inr ⟨congrArg _ ha1.journal, error, rfl⟩⟩
    | ok =>
      have hdone : Done s1.trace step.receipt := ha1.trace ▸ done_restored
      have hset : Settled s1.trace first step.receipt :=
        .inl (ha1.trace ▸ restoredSince_restored)
      have hm := markRestored_marked (ha1.journal ▸ hi) hdone fun _ =>
        ⟨ha1.journal ▸ hlive, fun other hoth hw =>
          ha1.trace ▸ done_removed hin (ha1.journal ▸ hoth) hw⟩
      have h2 := h1.edit (h1.sound.marked hm)
      have hstp : markRestored index s1.journal.steps = markRestored index s.journal.steps := by
        rw [ha1.journal]
      refine .bind (.update (.bind (.when (fun _ => .update ?_) fun _ => ?_)))
      · exact storeMarked_ends h2 hf hstp hset
      · exact storeMarked_ends h2 hf hstp hset

/-! ## The loops -/

/-- The second step is the first one, perhaps restored in the request. -/
def Since (trace : List Entry) (first : List MutationRecord) (step step' : MutationRecord) : Prop :=
  step' = step ∨ step' = { step with state := .restored } ∧ Settled trace first step.receipt

/-- The restores that started in `s₀` are at `s`. -/
structure Restoring (q : Turn) (s₀ s : AgentCoordinator) : Prop where
  serving : Serving q s
  frame : Frame s₀ s
  steps : List.Forall₂ (Since s.trace s₀.journal.steps) s₀.journal.steps s.journal.steps
  recovering : s₀.journal.phase.live = false

/-- Every step that is not restored is still to come or has been reported. -/
def Explained (order : List Nat) (failures : List RecoveryFailure)
    (steps : List MutationRecord) : Prop :=
  ∀ i step, steps[i]? = some step → step.state ≠ .restored →
    i ∈ order ∨ ∃ error, .restore step.kind error ∈ failures

variable {s₀ : AgentCoordinator} {index : Nat} {step : MutationRecord}

theorem Since.grown {trace' : List Entry} (hg : Grown trace trace') {step' : MutationRecord}
    (h : Since trace first step step') : Since trace' first step step' :=
  h.imp_right fun h => ⟨h.1, hg.settled h.2⟩

theorem Restoring.live_eq (h : Restoring q s₀ s) : s.journal.phase.live = false :=
  Bool.eq_false_iff.2 fun hlive =>
    Bool.false_ne_true (h.recovering.symm.trans (h.frame.live hlive))

/-- What goes with a restored adapter is settled. -/
theorem Restoring.gone (h : Restoring q s₀ s) {adapter : MutationRecord}
    (ha : adapter ∈ s.journal.steps) (hres : adapter.state = .restored) {receipt : MutationReceipt}
    (hw : removedWith receipt adapter.receipt) : Settled s.trace s₀.journal.steps receipt := by
  obtain ⟨adapter₀, h₀, rfl | ⟨rfl, hset | ⟨other, -, hoth, -⟩⟩⟩ := exists_mem_left h.steps ha
  · exact .inr ⟨adapter, h₀, hw, .inl hres⟩
  · exact .inr ⟨adapter₀, h₀, hw, .inr hset⟩
  · exact absurd (adapter_of_removedWith hw) (kind_of_removedWith hoth)

theorem Restoring.keep (h : Restoring q s₀ s) (hs : Steady q s s')
    (hstp : s'.journal.steps = s.journal.steps) : Restoring q s₀ s' := by
  refine ⟨hs.1, h.frame.trans hs.2, ?_, h.recovering⟩
  rw [hstp]
  exact h.steps.imp fun _ _ => Since.grown hs.2.grown

theorem Restoring.mark (h : Restoring q s₀ s) (hs : Steady q s s')
    (hstp : s'.journal.steps = markRestored index s.journal.steps)
    (hi : s.journal.steps[index]? = some step)
    (hset : Settled s'.trace s₀.journal.steps step.receipt) : Restoring q s₀ s' := by
  refine ⟨hs.1, h.frame.trans hs.2, ?_, h.recovering⟩
  rw [hstp]
  refine forall₂_modify h.steps (fun _ _ => Since.grown hs.2.grown) fun a b hb hab => ?_
  cases hi.symm.trans hb
  rcases hab with rfl | ⟨rfl, -⟩
  · exact .inr ⟨rfl, hset⟩
  · exact .inr ⟨rfl, hset⟩

theorem Explained.mark
    (h : ∀ i step, i ≠ index → steps[i]? = some step → step.state ≠ .restored →
      i ∈ order ∨ ∃ error, .restore step.kind error ∈ failures) :
    Explained order failures (markRestored index steps) := by
  intro i step hi hs
  rw [markRestored, getElem?_modify] at hi
  obtain ⟨first, hfst, heq⟩ := map_eq_some_iff.1 hi
  split at heq
  · rw [← heq] at hs
    exact absurd rfl hs
  · cases heq
    exact h i _ (fun h => ‹index ≠ i› h.symm) hfst hs

theorem StepOutcome.restoring {r : List RecoveryFailure × Bool}
    (h : StepOutcome s₀.journal.steps index step s r s')
    (hr : Restoring q s₀ s) (hs : Steady q s s') (hi : s.journal.steps[index]? = some step) :
    Restoring q s₀ s' := by
  rcases h with ⟨hstp, hset, -⟩ | ⟨hstp, -⟩
  · exact hr.mark hs hstp hi hset
  · exact hr.keep hs hstp

/-- One round of the restores: the step is restored, or its failure is reported. -/
theorem Explained.round {steps' : List MutationRecord} {failed : List RecoveryFailure}
    (h : steps' = markRestored index steps ∨
      steps' = steps ∧ ∃ error, failed = [.restore step.kind error])
    (hi : steps[index]? = some step) (hx : Explained (index :: order) failures steps) :
    Explained order (failures ++ failed) steps' := by
  have hoth : ∀ i other, i ≠ index → steps[i]? = some other → other.state ≠ .restored →
      i ∈ order ∨ ∃ error, .restore other.kind error ∈ failures ++ failed := by
    intro i other hne hi' hs
    rcases hx i other hi' hs with hin | ⟨error, hin⟩
    · exact .inl ((mem_cons.1 hin).resolve_left hne)
    · exact .inr ⟨error, mem_append_left _ hin⟩
  rcases h with rfl | ⟨rfl, error, rfl⟩
  · exact .mark hoth
  · intro i other hi' hs
    by_cases hne : i = index
    · subst hne
      cases hi.symm.trans hi'
      exact .inr ⟨error, by simp⟩
    · exact hoth i other hne hi' hs

theorem Explained.skip (h : Explained (index :: order) failures steps)
    (hdone : ∀ step, steps[index]? = some step → step.state = .restored) :
    Explained order failures steps := by
  intro i step hi hs
  rcases h i step hi hs with hin | hf
  · rcases mem_cons.1 hin with rfl | hin
    · exact absurd (hdone step hi) hs
    · exact .inl hin
  · exact .inr hf

theorem kind_injective {j : Nat} {a b : MutationRecord} (h : (steps.map (·.kind)).Nodup)
    (hi : steps[i]? = some a) (hj : steps[j]? = some b) (hk : a.kind = b.kind) : i = j := by
  refine (getElem?_inj ?_ h).1 ?_
  · rw [length_map]
    exact (List.getElem?_eq_some_iff.1 hi).1
  · rw [List.getElem?_map, List.getElem?_map, hi, hj, map_some, map_some, hk]

/-- The second pass drops the failures of the one kind only, and kinds differ. -/
theorem Explained.reconciled (h : Explained [] failures steps) (hn : (steps.map (·.kind)).Nodup)
    (hi : steps[index]? = some step) (more : List RecoveryFailure) :
    Explained [] ((failures.filter fun failure =>
        match failure with
        | .restore failed _ => failed != step.kind
        | .persist .. => true) ++ more) (markRestored index steps) := by
  refine .mark fun i other hne hi' hs' => ?_
  obtain hin | ⟨error, hin⟩ := h i other hi' hs'
  · cases hin
  · refine .inr ⟨error, mem_append_left _ (mem_filter.2 ⟨hin, ?_⟩)⟩
    simpa using fun hk => hne (kind_injective hn hi' hi hk)

theorem revokeDue_ends {due : Bool} {Q : Bool → AgentCoordinator → Prop} (h : Serving q s)
    (k : ∀ b s', Serving q s' → Frame s s' → s'.journal = s.journal → Q b s') :
    Ends (revokeDue platform due) Q E s := by
  refine .ite (fun _ => ?_) fun _ => .pure (k true s h (.refl s) rfl)
  refine .bind (.read (.ite (fun _ => .pure (k false s h (.refl s) rfl)) fun _ => ?_))
  refine .bind (h.ask (fun _ => .quiet rfl) fun _ s1 h1 ha => ?_)
  exact .pure (k true s1 h1 (ha.frame rfl) ha.journal)

theorem restoreIndices_ends (ha : RestoreAllowed path (some q.request) s₀.journal s₀.trace)
    (order : List Nat) (revoke : Bool) (failures : List RecoveryFailure) (s : AgentCoordinator)
    (h : Restoring q s₀ s) (hx : Explained order failures s.journal.steps) :
    Ends (restoreIndices platform path adapter order revoke failures)
      (fun r s' => Restoring q s₀ s' ∧
        match r.1 with
        | none => r.2 ≠ []
        | some _ => Explained [] r.2 s'.journal.steps) E s := by
  induction order generalizing revoke failures s with
  | nil => exact .pure ⟨h, hx⟩
  | cons index _ ih =>
    refine .bind (.read ?_)
    cases hi : s.journal.steps[index]? with
    | none => exact ih revoke failures s h (hx.skip fun step h => nomatch hi.symm.trans h)
    | some step =>
      refine .ite (fun hs => ?_) fun hs => ?_
      · exact ih revoke failures s h (hx.skip fun step' h => by cases hi.symm.trans h; exact hs)
      · refine .bind (revokeDue_ends h.serving fun due s1 h1 hf1 hj1 => ?_)
        have hr1 := h.keep ⟨h1, hf1⟩ (congrArg _ hj1)
        refine .ite (fun _ => ?_) fun _ => .pure ⟨hr1, cons_ne_nil _ _⟩
        have hi1 : s1.journal.steps[index]? = some step := hj1 ▸ hi
        refine .bind ((restoreIndex_ends h1 (ha.frame hr1.frame) hi1 hr1.live_eq
          fun _ hadapter hres _ hw => hr1.gone hadapter hres hw).mono ?_ fun _ _ he => he)
        rintro ⟨failed, stop⟩ s2 ⟨hs2, hout⟩
        have hr2 := hout.restoring hr1 hs2 hi1
        refine .ite (fun hstop => .pure ⟨hr2, ?_⟩) fun _ => ?_
        · rcases hout with ⟨-, -, hno⟩ | ⟨-, error, hfail⟩
          · exact absurd (hno.symm.trans hstop) Bool.false_ne_true
          · cases hfail
            exact append_ne_nil_of_right_ne_nil _ (cons_ne_nil _ _)
        · exact ih _ _ s2 hr2 (.round (hout.imp_left (·.1)) hi1 (hj1 ▸ hx))

theorem reconcileIndices_ends (indices : List Nat) (failures : List RecoveryFailure)
    (s : AgentCoordinator) (h : Restoring q s₀ s) (hx : Explained [] failures s.journal.steps) :
    Ends (reconcileIndices platform indices failures)
      (fun r s' => Restoring q s₀ s' ∧ Explained [] r s'.journal.steps) E s := by
  induction indices generalizing failures s with
  | nil => exact .pure ⟨h, hx⟩
  | cons index _ ih =>
    refine .bind (.read ?_)
    cases hi : s.journal.steps[index]? with
    | none => exact ih failures s h hx
    | some step =>
      refine .ite (fun hs => ?_) fun _ => ih failures s h hx
      have hsnd := h.serving.sound
      obtain ⟨hdone, hkind, adapter, hadapter, hres, hw⟩ := hsnd.gone (mem_of_getElem? hi) hs
      have hm := markRestored_marked hi hdone fun hk => absurd hk hkind
      have h1 := h.serving.edit (hsnd.marked hm)
      refine .bind (.update (.bind (h1.store (fun s2 h2 hs2 _ => ?_) fun error s2 h2 hs2 => ?_)))
      all_goals
        refine ih _ s2 (h.mark ⟨h2, hs2.frame⟩ hs2.steps hi ?_)
          (hs2.steps ▸ hx.reconciled hsnd.tracks.kinds hi _)
        exact hs2.frame.grown.settled (h.gone hadapter hres hw)

theorem mem_restoreOrder (hi : steps[i]? = some step) (hs : step.state ≠ .restored) :
    i ∈ restoreOrder steps := by
  have hlt := (List.getElem?_eq_some_iff.1 hi).1
  unfold restoreOrder
  simp only [mem_append, mem_filter, mem_range, mem_reverse, hi, any_some,
    Bool.and_eq_true, beq_iff_eq, bne_iff_ne, ne_eq, hlt, hs, not_false_eq_true, and_true, true_and]
  tauto

/-- **The restores**: without failures, every step is restored by the request or
    went with its adapter. -/
theorem restoreStepsLocked_ends (h : Serving q s)
    (ha : RestoreAllowed path (some q.request) s.journal s.trace)
    (hlive : s.journal.phase.live = false) :
    Ends (restoreStepsLocked platform path)
      (fun failures s' => Steady q s s' ∧ (failures = [] →
        (∀ step ∈ s'.journal.steps, step.state = .restored) ∧
        ∀ step ∈ s.journal.steps, step.state ≠ .restored →
          Settled s'.trace s.journal.steps step.receipt)) E s := by
  have h0 : Restoring q s s := ⟨h, .refl s, forall₂_same.2 fun _ _ => .inl rfl, hlive⟩
  have hx : Explained (restoreOrder s.journal.steps) [] s.journal.steps :=
    fun i step hi hs => .inl (mem_restoreOrder hi hs)
  refine .bind (.read (.bind ((restoreIndices_ends ha _ true [] s h0 hx).mono ?_ fun _ _ he => he)))
  rintro ⟨revoke, failures⟩ s1 ⟨h1, hr⟩
  cases revoke with
  | none => exact .pure ⟨⟨h1.serving, h1.frame⟩, fun hf => absurd hf hr⟩
  | some =>
    refine .bind (revokeDue_ends h1.serving fun due s2 h2 hf2 hj2 => ?_)
    have hr2 := h1.keep ⟨h2, hf2⟩ (congrArg _ hj2)
    refine .ite (fun _ => ?_) fun _ =>
      .pure ⟨⟨h2, hr2.frame⟩, fun hf => absurd hf (cons_ne_nil _ _)⟩
    refine (reconcileIndices_ends _ failures s2 hr2 (hj2 ▸ hr)).mono ?_ fun _ _ he => he
    rintro failures s3 ⟨h3, hx3⟩
    refine ⟨⟨h3.serving, h3.frame⟩, fun hf => ?_⟩
    have hall : ∀ step ∈ s3.journal.steps, step.state = .restored := by
      intro step hin
      obtain ⟨i, hi⟩ := mem_iff_getElem?.1 hin
      by_contra hs
      rcases hx3 i step hi hs with hin | ⟨error, hin⟩
      · cases hin
      · rw [hf] at hin
        cases hin
    refine ⟨hall, fun step hin hs => ?_⟩
    obtain ⟨step', hin', rfl | ⟨-, hset⟩⟩ := exists_mem_right h3.steps hin
    · exact absurd (hall step' hin') hs
    · exact hset

end

end Usque.Agent
