/-
  What the trace of a run says about native mutations, and the rules that the
  calls of the coordinator follow.  In a legal trace the last saved journal records
  every outstanding mutation, unless it went with the adapter it depends on
  (`Legal.covered`).
-/
import Usque.Agent.Machine
import Usque.Lib.History

namespace Usque.Agent
open Lib List

/-! ## Mutations -/

/-- Where a mutation is recorded: as a step, as the device, or as the guard. -/
inductive Target where
  | step
  | device
  | guard
deriving DecidableEq

/-- A native mutation, with the receipts under which it may be restored: the one
    it was issued with, and the enriched one that the backend returned. -/
structure Mutation where
  target : Target
  receipts : List MutationReceipt
deriving DecidableEq

/-- The receipt that an answer returns for a mutation of the kind. -/
def enriched (kind : MutationKind) : Except BackendError MutationReceipt → List MutationReceipt
  | .ok receipt => if receipt.kind = kind then [receipt] else []
  | .error (.partialApply _ receipt) => if receipt.kind = kind then [receipt] else []
  | .error _ => []

def Call.issued : Call → Option Mutation
  | .applyStep receipt result =>
    some ⟨.step, receipt :: enriched receipt.kind (result.map Prod.fst)⟩
  | .applySystemProxy receipt result => some ⟨.step, receipt :: enriched receipt.kind result⟩
  | .resumePacketSession _ session _ => some ⟨.step, [session]⟩
  | .createDevice receipt result => some ⟨.device, receipt :: enriched receipt.kind result⟩
  | .applyReplacementGuard receipt result => some ⟨.guard, receipt :: enriched receipt.kind result⟩
  | _ => none

/-- Whether a call is a successful restore of the mutation. The filters of the
    replacement guard have fixed keys, so that every guard is the same resource. -/
def Call.undoes : Call → Mutation → Bool
  | .restoreStep _ receipt _ (.ok ()), mutation =>
    mutation.target != .guard && mutation.receipts.contains receipt
  | .restoreReplacementGuard _ (.ok ()), mutation => mutation.target == .guard
  | _, _ => false

section
variable (journal : RecoveryJournal) (entry : Entry) (trace : List Entry)

def Entry.saved : Option RecoveryJournal :=
  match entry.call with
  | .opened _ => some entry.journal
  | .save journal (.ok _) => some journal
  | _ => none

def ledger : WriteAhead Entry Mutation RecoveryJournal where
  issued entry := entry.call.issued
  undoes entry := entry.call.undoes
  saved := Entry.saved

/-- The mutations that are issued and not restored since. -/
def outstanding (trace : List Entry) : List Mutation := ledger.outstanding trace

/-- The journal that was saved last; the absent file counts as clean. -/
def lastSaved (trace : List Entry) : RecoveryJournal :=
  ledger.lastSaved (RecoveryJournal.clean 0) trace

/-- Whether the journal records the mutation: as a step that is not restored, as
    its device, or as the guard of its pending replacement. -/
def RecoveryJournal.records (mutation : Mutation) : Bool :=
  match mutation.target with
  | .step => journal.steps.any fun step =>
      step.state != .restored && mutation.receipts.contains step.receipt
  | .device => journal.device.any fun device => mutation.receipts.contains device.receipt
  | .guard => journal.replacement.any fun replacement =>
      replacement.pending && replacement.guard.state != .restored

/-! ## Mutations that go with their adapter -/

/-- Steps are applied in this phase. -/
def RecoveryPhase.live : RecoveryPhase → Bool
  | .preparing | .prepared | .active => true
  | _ => false

/-- The journal that the first process opened. -/
def firstJournal : List Entry → RecoveryJournal
  | [] => RecoveryJournal.clean 0
  | [entry] => entry.journal
  | _ :: trace => firstJournal trace

/-- What the first journal has as restored outside a recovery. No journal that the
    coordinator saves has an adapter so. -/
def staleReceipts : List MutationReceipt :=
  if (firstJournal trace).phase.live then
    ((firstJournal trace).steps.filter fun step => step.state == .restored).map (·.receipt)
  else []

/-- Whether the entry restores an adapter that is a step of the journal, and the
    mutation has a step of the same journal that goes with it. -/
def Entry.removes (mutation : Mutation) : Bool :=
  match entry.call with
  | .restoreStep _ adapter _ (.ok ()) =>
    (entry.journal.steps.any fun step => step.receipt == adapter) &&
      entry.journal.steps.any fun step =>
        mutation.receipts.contains step.receipt && removedWith step.receipt adapter
  | _ => false

/-- Whether the adapter of the mutation was removed after the mutation was issued. -/
def adapterRemoved (mutation : Mutation) : List Entry → Bool
  | [] => false
  | entry :: trace => entry.call.issued != some mutation &&
      (entry.removes mutation || adapterRemoved mutation trace)

/-- Whether the mutation is an interface configuration or DNS setting that went with
    its own adapter, or whose adapter was stale from the beginning. -/
def superseded (mutation : Mutation) : Bool :=
  mutation.target == .step && (adapterRemoved mutation trace ||
    mutation.receipts.any fun receipt => (staleReceipts trace).any (removedWith receipt))

/-- No mutation that is outstanding and did not go with its adapter needs a step
    with the receipt. -/
def Done (receipt : MutationReceipt) : Prop :=
  ∀ m ∈ outstanding trace, m.target = .step → receipt ∈ m.receipts → superseded trace m = true

/-- Nothing needs the steps that go with a restored adapter of the journal; and
    outside a recovery only stale adapters are restored. -/
structure Ordered : Prop where
  removed : ∀ adapter ∈ journal.steps, adapter.state = .restored → ∀ step ∈ journal.steps,
    removedWith step.receipt adapter.receipt = true → Done trace step.receipt
  intact : journal.phase.live = true → ∀ adapter ∈ journal.steps, adapter.state = .restored →
    adapter.receipt.kind = .wintunAdapter → adapter.receipt ∈ staleReceipts trace

/-- The journal has no restored adapter for the mutation but stale ones. -/
def Fresh (mutation : Mutation) : Prop :=
  mutation.target = .step → ∀ adapter ∈ journal.steps, adapter.state = .restored →
    ∀ receipt ∈ mutation.receipts, removedWith receipt adapter.receipt = true →
    adapter.receipt ∈ staleReceipts trace

/-! ## Requests in the trace -/

/-- Whether an entry starts a process or a request. -/
def Call.isBoundary : Call → Bool
  | .opened _ | .requested => true
  | _ => false

def sinceRequest : List Entry :=
  trace.takeWhile fun entry => !entry.call.isBoundary

/-- The journal in memory when the request in progress started. -/
def requestJournal : List Entry → RecoveryJournal
  | [] => RecoveryJournal.clean 0
  | entry :: trace => if entry.call.isBoundary then entry.journal else requestJournal trace

def Request.isReplace : Request → Bool
  | .replaceTunnel .. => true
  | _ => false

def Request.isAbort : Request → Bool
  | .abortReplacement .. | .abortReplacementForMaintenance => true
  | _ => false

/-- The guard with the receipt was read back as active in the request in
    progress, and no guard was removed since. -/
def guardConfirmed (receipt : MutationReceipt) : List Entry → Bool
  | [] => false
  | entry :: trace =>
    match entry.call with
    | .opened _ | .requested | .restoreReplacementGuard .. => false
    | .inspectReplacementGuard inspected (.ok true) =>
      inspected == receipt || guardConfirmed receipt trace
    | _ => guardConfirmed receipt trace

def GuardConfirmed : Prop :=
  ∃ replacement, journal.replacement = some replacement ∧
    guardConfirmed replacement.guard.receipt trace = true

/-- What the receipt describes was restored in the request in progress. -/
def RestoredSince (receipt : MutationReceipt) : Prop :=
  ∃ entry ∈ sinceRequest trace, ∃ path adapter,
    entry.call = .restoreStep path receipt adapter (.ok ())

/-- What the receipt describes was restored in the request in progress, or it goes with
    an adapter among the steps that was restored, then or before. -/
def Settled (steps : List MutationRecord) (receipt : MutationReceipt) : Prop :=
  RestoredSince trace receipt ∨ ∃ adapter ∈ steps, removedWith receipt adapter.receipt = true ∧
    (adapter.state = .restored ∨ RestoredSince trace adapter.receipt)

def Calm : Prop :=
  ∀ entry ∈ sinceRequest trace, ∀ before error, entry.call ≠ .recovered before (.error error)

/-! ## The rules -/

/-- The target of the replacement is the journal's operation, its packet session
    is attached, and the request in progress found its tunnel reattachable. -/
def TargetLive : Prop :=
  (∃ replacement, entry.journal.replacement = some replacement ∧
    entry.journal.operationId = some replacement.operationId) ∧
  entry.sessionAttached = true ∧
  ∃ inspected ∈ sinceRequest trace, inspected.call = .inspectTunnel (.ok .reattachable) ∧
    inspected.journal.operationId = entry.journal.operationId

/-- An abort is in progress, every step that the journal had when it started is
    restored, and nothing is outstanding but what went with its adapter. -/
def AbortCleaned : Prop :=
  entry.request.any Request.isAbort = true ∧ entry.journal.steps = [] ∧
  (∀ step ∈ (requestJournal trace).steps, step.state ≠ .restored →
    Settled trace (requestJournal trace).steps step.receipt) ∧
  ∀ m ∈ outstanding trace, m.target = .step → superseded trace m = true

/-- The rule of a restore on the path: recovery is refused while a replacement is
    pending, and `replace_tunnel` restores only under its confirmed guard. -/
structure RestoreAllowed (path : RestorePath) (request : Option Request)
    (journal : RecoveryJournal) (trace : List Entry) : Prop where
  recovery : path = .recovery → journal.replacementPending = false
  replacement : path = .replacement →
    request.any Request.isReplace = true ∨ request.any Request.isAbort = true
  guarded : request.any Request.isReplace = true → GuardConfirmed journal trace

/-- The rule of a call, given the trace before it. -/
def Allowed : Prop :=
  match entry.call with
  | .opened file =>
    loadOrClean file = .ok entry.journal ∧ (trace = [] ∨ entry.journal = lastSaved trace)
  | .save journal (.ok _) =>
    journal.validate = .ok () ∧ (lastSaved trace).generation < journal.generation ∧
      (∀ m ∈ outstanding trace, superseded trace m = true ∨ journal.records m = true) ∧
      Ordered journal trace
  | .restoreStep path .. => RestoreAllowed path entry.request entry.journal trace
  | .restoreReplacementGuard .. => TargetLive entry trace ∨ AbortCleaned entry trace
  | call => ∀ m, call.issued = some m →
      (lastSaved trace).records m = true ∧ Fresh (lastSaved trace) trace m

/-- Every call of the trace follows its rule. -/
def Legal : Prop := Always Allowed trace

end

/-! ## Coverage -/

variable {trace : List Entry} {entry : Entry} {receipt : MutationReceipt}

theorem mem_staleReceipts_cons (h : receipt ∈ staleReceipts trace) :
    receipt ∈ staleReceipts (entry :: trace) := by
  cases trace with
  | nil => cases h
  | cons => exact h

theorem superseded_of_stale {m : Mutation} {adapter : MutationReceipt} (ht : m.target = .step)
    (hr : receipt ∈ m.receipts) (hw : removedWith receipt adapter)
    (hs : adapter ∈ staleReceipts trace) : superseded trace m := by
  have hany : m.receipts.any fun receipt => (staleReceipts trace).any (removedWith receipt) :=
    any_eq_true.2 ⟨receipt, hr, any_eq_true.2 ⟨adapter, hs, hw⟩⟩
  simp [superseded, ht, hany]

theorem superseded_cons {m : Mutation} (hi : entry.call.issued ≠ some m)
    (h : superseded trace m) : superseded (entry :: trace) m := by
  simp only [superseded, Bool.and_eq_true, Bool.or_eq_true, any_eq_true] at h ⊢
  obtain ⟨ht, hrem | ⟨receipt, hr, adapter, hs, hw⟩⟩ := h
  · refine ⟨ht, .inl ?_⟩
    simp [adapterRemoved, hi, hrem]
  · exact ⟨ht, .inr ⟨receipt, hr, adapter, mem_staleReceipts_cons hs, hw⟩⟩

/-- A legal call is disciplined, if the calls before it are covered. -/
theorem Allowed.disciplined (h : Allowed entry trace)
    (hc : ∀ m ∈ outstanding trace, superseded trace m ∨ (lastSaved trace).records m) :
    ledger.Disciplined (RecoveryJournal.clean 0) (fun j m => j.records m)
      (fun t m => superseded t m) entry trace := by
  obtain ⟨request, journal, attached, call⟩ := entry
  constructor
  · intro m hm
    cases call <;> simp only [ledger, Call.issued, reduceCtorEq] at hm
    all_goals exact ⟨rfl, (h m hm).1⟩
  · intro j hj m hm
    simp only [ledger, Entry.saved] at hj
    split at hj
    · cases hj
      rcases h.2 with rfl | heq
      · cases hm
      · have heq : journal = lastSaved trace := heq
        rw [heq]
        exact hc m hm
    · cases hj
      exact h.2.2.1 m hm
    · cases hj

/-- **Coverage**: in a legal trace the last saved journal records every outstanding
    mutation that did not go with its adapter. -/
theorem Legal.covered (h : Legal trace) :
    ∀ m ∈ outstanding trace, superseded trace m ∨ (lastSaved trace).records m := by
  have hd : Always (ledger.Disciplined (RecoveryJournal.clean 0) (fun j m => j.records m)
      (fun t m => superseded t m)) trace := by
    induction trace with
    | nil => trivial
    | cons _ _ ih =>
      have hd := ih h.2
      exact ⟨h.1.disciplined (WriteAhead.covered (fun _ _ _ => superseded_cons) hd), hd⟩
  exact WriteAhead.covered (fun _ _ _ => superseded_cons) hd

end Usque.Agent
