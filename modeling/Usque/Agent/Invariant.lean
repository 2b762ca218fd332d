/-
  The invariant of the coordinator.
-/
import Usque.Agent.Ledger
import Usque.Lib.Pointwise

namespace Usque.Agent
open Lib List RecoveryJournal

variable {entry : Entry} {trace : List Entry} {m : Mutation} {receipt : MutationReceipt}
  {journal' : RecoveryJournal} {step step' : MutationRecord}

/-! ## Growing traces -/

theorem mem_outstanding_cons :
    m ∈ outstanding (entry :: trace) ↔
      entry.call.issued = some m ∨ m ∈ outstanding trace ∧ entry.call.undoes m = false := by
  simp [outstanding, WriteAhead.outstanding, ledger]

theorem exists_issued (h : m ∈ outstanding trace) :
    ∃ entry ∈ trace, entry.call.issued = some m := by
  induction trace with
  | nil => cases h
  | cons entry _ ih =>
    rcases mem_outstanding_cons.1 h with hm | ⟨hm, -⟩
    · exact ⟨entry, mem_cons_self .., hm⟩
    · exact exists_mem_cons_of_exists (ih hm)

theorem lastSaved_cons (entry : Entry) (trace : List Entry) :
    lastSaved (entry :: trace) = entry.saved.getD (lastSaved trace) := rfl

theorem sinceRequest_cons (h : entry.call.isBoundary = false) :
    sinceRequest (entry :: trace) = entry :: sinceRequest trace := by
  rw [sinceRequest, takeWhile_cons_of_pos (by simp [h])]
  rfl

theorem requestJournal_cons (h : entry.call.isBoundary = false) :
    requestJournal (entry :: trace) = requestJournal trace := by
  rw [requestJournal, h]
  rfl

/-- A call that starts no process or request, removes no guard and ends no
    recovery. -/
def Call.isPlain : Call → Bool
  | .opened _ | .requested | .restoreReplacementGuard .. | .recovered .. => false
  | _ => true

theorem Call.isBoundary_of_isPlain {call : Call} (h : call.isPlain) : call.isBoundary = false := by
  cases call <;> first | rfl | cases h

def Grown (trace trace' : List Entry) : Prop :=
  ∃ calls, trace' = calls ++ trace ∧ ∀ entry ∈ calls, entry.call.isPlain = true

namespace Grown
variable {trace trace' trace'' : List Entry}

theorem refl (trace : List Entry) : Grown trace trace := ⟨[], rfl, fun _ h => nomatch h⟩

theorem trans (h : Grown trace trace') (h' : Grown trace' trace'') : Grown trace trace'' := by
  obtain ⟨calls, rfl, hc⟩ := h
  obtain ⟨calls', rfl, hc'⟩ := h'
  refine ⟨calls' ++ calls, (append_assoc ..).symm, fun entry hin => ?_⟩
  exact (mem_append.1 hin).elim (hc' entry) (hc entry)

theorem cons (h : entry.call.isPlain) : Grown trace (entry :: trace) :=
  ⟨[entry], rfl, fun _ hin => (mem_singleton.1 hin) ▸ h⟩

section
variable (h : Grown trace trace')
include h

theorem keeps {P : List Entry → Prop} (h0 : P trace)
    (hs : ∀ entry trace, entry.call.isPlain → P trace → P (entry :: trace)) : P trace' := by
  obtain ⟨calls, rfl, hc⟩ := h
  induction calls with
  | nil => exact h0
  | cons entry _ ih =>
    refine hs _ _ (hc entry (mem_cons_self ..)) (ih fun e he => ?_)
    exact hc e (mem_cons_of_mem _ he)

theorem guardConfirmed (hg : Agent.guardConfirmed receipt trace) :
    Agent.guardConfirmed receipt trace' := by
  refine h.keeps (P := fun t => Agent.guardConfirmed receipt t) hg fun entry t hp ht => ?_
  unfold Agent.guardConfirmed
  cases hc : entry.call <;> simp_all [Call.isPlain]
  split <;> simp_all

theorem mem_sinceRequest (hin : entry ∈ sinceRequest trace) : entry ∈ sinceRequest trace' := by
  refine h.keeps (P := fun t => entry ∈ sinceRequest t) hin fun e t hp ht => ?_
  rw [sinceRequest_cons (Call.isBoundary_of_isPlain hp)]
  exact mem_cons_of_mem _ ht

theorem restoredSince (hs : RestoredSince trace receipt) : RestoredSince trace' receipt := by
  obtain ⟨entry, hin, hcall⟩ := hs
  exact ⟨entry, h.mem_sinceRequest hin, hcall⟩

theorem settled {steps : List MutationRecord} (hs : Settled trace steps receipt) :
    Settled trace' steps receipt := by
  rcases hs with hs | ⟨adapter, hin, hw, hres⟩
  · exact .inl (h.restoredSince hs)
  · exact .inr ⟨adapter, hin, hw, hres.imp_right h.restoredSince⟩

end

end Grown

/-! ## Journals and traces -/

section
variable {journal : RecoveryJournal} {m : Mutation}

theorem records_step (h : m.target = .step) :
    journal.records m ↔
      ∃ step ∈ journal.steps, step.state ≠ .restored ∧ step.receipt ∈ m.receipts := by
  simp [records, h]

theorem records_steps (h : m.target ≠ .step) (steps : List MutationRecord) :
    { journal with steps := steps }.records m = journal.records m := by
  cases ht : m.target with
  | step => exact absurd ht h
  | device => simp only [records, ht]
  | guard => simp only [records, ht]

theorem records_device (h : m.target = .device) :
    journal.records m ↔ ∃ device, journal.device = some device ∧ device.receipt ∈ m.receipts := by
  simp [records, h, Option.any_eq_true]

theorem records_guard (h : m.target = .guard) :
    journal.records m ↔ ∃ replacement, journal.replacement = some replacement ∧
      replacement.pending ∧ replacement.guard.state ≠ .restored := by
  simp [records, h, Option.any_eq_true]

end

theorem target_of_superseded (h : superseded trace m) : m.target = .step := by
  simp only [superseded, Bool.and_eq_true, beq_iff_eq] at h
  exact h.1

theorem done_restored {request : Option Request} {journal : RecoveryJournal} {session : Bool}
    {path : RestorePath} {adapter : Option MutationReceipt} :
    Done (⟨request, journal, session, .restoreStep path receipt adapter (.ok ())⟩ :: trace)
      receipt := by
  intro m hm ht hr
  rcases mem_outstanding_cons.1 hm with hm | ⟨-, hm⟩
  · cases hm
  · simp [Call.undoes, ht, hr] at hm

theorem kind_of_removedWith {dependency adapter : MutationReceipt}
    (h : removedWith dependency adapter) : dependency.kind ≠ .wintunAdapter := by
  cases dependency <;> first | (intro hk; cases hk; done) | (cases adapter <;> cases h)

theorem adapter_of_removedWith {dependency adapter : MutationReceipt}
    (h : removedWith dependency adapter) : adapter.kind = .wintunAdapter := by
  cases adapter <;> first | rfl | (cases dependency <;> cases h)

/-- What goes with an adapter is done once the adapter's step is restored. -/
theorem done_removed {request : Option Request} {journal : RecoveryJournal} {session : Bool}
    {path : RestorePath} {adapter : MutationRecord} {with' : Option MutationReceipt}
    (ha : adapter ∈ journal.steps) (hin : step ∈ journal.steps)
    (hw : removedWith step.receipt adapter.receipt) :
    Done (⟨request, journal, session, .restoreStep path adapter.receipt with' (.ok ())⟩ :: trace)
      step.receipt := by
  intro m _ ht hr
  have hadapter : ∃ other ∈ journal.steps, other.receipt = adapter.receipt := ⟨adapter, ha, rfl⟩
  have hstep : ∃ other ∈ journal.steps, other.receipt ∈ m.receipts ∧
      removedWith other.receipt adapter.receipt := ⟨step, hin, hr, hw⟩
  simp [superseded, ht, adapterRemoved, Entry.removes, Call.issued, hadapter, hstep]

/-! ## Adapters and what goes with them -/

namespace Ordered
variable {journal : RecoveryJournal}

theorem of_nil (h : journal.steps = []) : Ordered journal trace :=
  ⟨fun adapter hin => by simp [h] at hin, fun _ adapter hin => by simp [h] at hin⟩

section
variable (h : Ordered journal trace)
include h

/-- Another journal with some of the steps. -/
theorem subset (hsub : journal'.steps ⊆ journal.steps)
    (hlive : journal'.phase.live → journal.phase.live) : Ordered journal' trace :=
  ⟨fun adapter ha hres step hin => h.removed adapter (hsub ha) hres step (hsub hin),
    fun hl adapter ha => h.intact (hlive hl) adapter (hsub ha)⟩

theorem fresh (hlive : journal.phase.live) : Fresh journal trace m := by
  intro _ adapter ha hres receipt _ hw
  exact h.intact hlive adapter ha hres (adapter_of_removedWith hw)

theorem cons (hf : ∀ m, entry.call.issued = some m → Fresh journal trace m) :
    Ordered journal (entry :: trace) := by
  constructor
  · intro adapter ha hres step hin hw m hm ht hr
    by_cases hi : entry.call.issued = some m
    · exact superseded_of_stale ht hr hw
        (mem_staleReceipts_cons (hf m hi ht adapter ha hres step.receipt hr hw))
    · have hm := ((mem_outstanding_cons.1 hm).resolve_left hi).1
      exact superseded_cons hi (h.removed adapter ha hres step hin hw m hm ht hr)
  · intro hlive adapter ha hres hkind
    exact mem_staleReceipts_cons (h.intact hlive adapter ha hres hkind)

/-- A step that is not restored joins the journal or takes the place of another. -/
theorem join {steps : List MutationRecord} (hlive : journal.phase.live)
    (hstp : ∀ other ∈ steps, other ∈ journal.steps) (hs : step.state ≠ .restored) :
    Ordered { journal with steps := steps ++ [step] } trace := by
  have hmem : ∀ adapter ∈ steps ++ [step], adapter.state = .restored → adapter ∈ journal.steps := by
    intro adapter ha hres
    rcases mem_append.1 ha with ha | ha
    · exact hstp adapter ha
    · exact absurd (mem_singleton.1 ha ▸ hres) hs
  refine ⟨fun adapter ha hres other hin hw m hm ht hr => ?_, fun _ adapter ha hres => ?_⟩
  · exact superseded_of_stale ht hr hw
      (h.intact hlive adapter (hmem adapter ha hres) hres (adapter_of_removedWith hw))
  · exact h.intact hlive adapter (hmem adapter ha hres) hres

end

end Ordered

theorem Legal.ordered (h : Legal trace) : Ordered (lastSaved trace) trace := by
  induction trace with
  | nil => exact .of_nil rfl
  | cons entry trace ih =>
    obtain ⟨request, journal, attached, call⟩ := entry
    have ha := h.1
    have ih := ih h.2
    cases call with
    | opened file =>
      rcases ha.2 with rfl | heq
      · refine ⟨fun adapter _ _ step _ _ m hm => ?_, fun hlive adapter hin hres _ => ?_⟩
        · rcases mem_outstanding_cons.1 hm with hm | ⟨hm, -⟩ <;> cases hm
        · have hlive : journal.phase.live := hlive
          simp only [staleReceipts, firstJournal, hlive, if_true]
          exact mem_map.2 ⟨adapter, mem_filter.2 ⟨hin, by simp [hres]⟩, rfl⟩
      · have heq : journal = lastSaved trace := heq
        exact Ordered.cons (heq ▸ ih) fun m hm => by cases hm
    | save saved answer =>
      cases answer with
      | error => exact ih.cons fun m hm => by cases hm
      | ok => exact Ordered.cons ha.2.2.2 fun m hm => by cases hm
    | createDevice | applyStep | applySystemProxy | resumePacketSession | applyReplacementGuard =>
      exact ih.cons fun m hm => (ha m hm).2
    | _ => exact ih.cons fun m hm => by cases hm

/-- The journal records what is outstanding and is shaped as a valid one. -/
structure Tracks (trace : List Entry) (journal : RecoveryJournal) : Prop where
  recorded : ∀ m ∈ outstanding trace, superseded trace m = true ∨ journal.records m = true
  kinds : (journal.steps.map (·.kind)).Nodup
  agree : ∀ step ∈ journal.steps, step.kind = step.receipt.kind
  ordered : Ordered journal trace
  guarded : ∀ replacement, journal.replacement = some replacement → replacement.pending = true →
    replacement.guard.state ≠ .restored
  clean : journal.phase = .clean →
    journal.operationId = none ∧ journal.steps = [] ∧ journal.replacementPending = false

/-- The invariant between two calls: `attached` says whether the device is leased
    and `result` what became of its retirement. -/
structure Sound (trace : List Entry) (journal : RecoveryJournal) (attached : Bool)
    (result : Option DeviceRetirement) : Prop where
  legal : Legal trace
  tracks : Tracks trace journal
  -- adapters are created as the managed device, never as a step
  adapters : ∀ entry ∈ trace, ∀ m, entry.call.issued = some m → m.target = .step →
    ∀ receipt ∈ m.receipts, receipt.kind ≠ .wintunAdapter
  durable : journal.phase = .clean → (lastSaved trace).phase = .clean
  installed : ∀ replacement, journal.replacement = some replacement → replacement.pending = true →
    replacement.guard.state = .applied → (lastSaved trace).replacementPending = true
  generation : (lastSaved trace).generation ≤ journal.generation
  since : (requestJournal trace).generation ≤ journal.generation
  leased : attached = true → result = none
  retired : result = some .complete → ∀ m ∈ outstanding trace, m.target ≠ .device

/-- What a mutation must be so that its start keeps the invariant. -/
structure Recordable (trace : List Entry) (journal : RecoveryJournal)
    (result : Option DeviceRetirement) (m : Mutation) : Prop where
  recorded : journal.records m = true
  fresh : Fresh journal trace m
  adapter : m.target = .step → ∀ receipt ∈ m.receipts, receipt.kind ≠ .wintunAdapter
  device : m.target = .device → result = none

theorem Tracks.of_valid {journal : RecoveryJournal} (hv : journal.validate = .ok ())
    (recorded : ∀ m ∈ outstanding trace, superseded trace m ∨ journal.records m)
    (ordered : Ordered journal trace) : Tracks trace journal where
  recorded := recorded
  kinds := nodup_kinds hv
  agree := kind_eq hv
  ordered := ordered
  guarded _ hr hp := guard_state hv hr hp
  clean hc :=
    let h := operation_eq_none hv hc
    ⟨h.1, h.2, not_pending hv hc⟩

theorem Legal.valid (h : Legal trace) : (lastSaved trace).validate = .ok () := by
  induction trace with
  | nil => exact clean_valid 0
  | cons entry trace ih =>
    rw [lastSaved_cons]
    have ha := h.1
    unfold Allowed at ha
    unfold Entry.saved
    split
    · simp only [‹entry.call = _›] at ha
      exact loadOrClean_valid ha.1
    · simp only [‹entry.call = _›] at ha
      exact ha.1
    · exact ih h.2

/-! ## Calls -/

section
variable {trace : List Entry} {journal : RecoveryJournal} {attached attached' : Bool}
  {result : Option DeviceRetirement} {request : Option Request} {session : Bool} {call : Call}

/-- A call that follows its rule keeps the invariant. -/
theorem Sound.record (h : Sound trace journal attached result)
    (hsvd : Entry.saved ⟨request, journal, session, call⟩ = none)
    (hboundary : call.isBoundary = false) (hall : Allowed ⟨request, journal, session, call⟩ trace)
    (hissued : ∀ m, call.issued = some m → Recordable trace journal result m)
    (hlease : attached' → attached) :
    Sound (⟨request, journal, session, call⟩ :: trace) journal attached' result := by
  have hlast : lastSaved (⟨request, journal, session, call⟩ :: trace) = lastSaved trace := by
    rw [lastSaved_cons, hsvd]
    rfl
  have hreq : requestJournal (⟨request, journal, session, call⟩ :: trace) =
      requestJournal trace := requestJournal_cons hboundary
  refine ⟨⟨hall, h.legal⟩, ⟨?_, h.tracks.kinds, h.tracks.agree, ?_, h.tracks.guarded,
    h.tracks.clean⟩, ?_, hlast ▸ h.durable, hlast ▸ h.installed, hlast ▸ h.generation,
    hreq ▸ h.since, fun ha => h.leased (hlease ha), ?_⟩
  · intro m hm
    by_cases hi : call.issued = some m
    · exact .inr (hissued m hi).recorded
    · have hm := ((mem_outstanding_cons.1 hm).resolve_left hi).1
      exact (h.tracks.recorded m hm).imp_left (superseded_cons hi)
  · exact h.tracks.ordered.cons fun m hm => (hissued m hm).fresh
  · intro entry hin m hm
    rcases mem_cons.1 hin with rfl | hin
    · exact (hissued m hm).adapter
    · exact h.adapters entry hin m hm
  · intro hr m hm ht
    rcases mem_outstanding_cons.1 hm with hm | ⟨hm, -⟩
    · rw [(hissued m hm).device ht] at hr
      cases hr
    · exact h.retired hr m hm ht

theorem Sound.saved (h : Sound trace journal attached result) {saved : RecoveryJournal} {len : Nat}
    (hval : saved.validate = .ok ()) (hgen : journal.generation < saved.generation)
    (recorded : ∀ m ∈ outstanding trace, superseded trace m ∨ saved.records m)
    (ordered : Ordered saved trace)
    (hlease : attached' → attached) :
    Sound (⟨request, journal, session, .save saved (.ok len)⟩ :: trace) saved attached' result := by
  have hout : outstanding (⟨request, journal, session, .save saved (.ok len)⟩ :: trace) =
      outstanding trace := by
    simp [outstanding, WriteAhead.outstanding, ledger, Call.issued, Call.undoes]
  refine ⟨⟨⟨hval, h.generation.trans_lt hgen, recorded, ordered⟩, h.legal⟩, .of_valid hval ?_ ?_,
    forall_mem_cons.2 ⟨fun _ hm => (by cases hm), h.adapters⟩, fun hc => hc,
    fun r hr hp _ => ?_, le_refl _, h.since.trans hgen.le, fun ha => h.leased (hlease ha),
    hout ▸ h.retired⟩
  · exact fun m hm => (recorded m (hout ▸ hm)).imp_left (superseded_cons (by rintro ⟨⟩))
  · exact ordered.cons fun m hm => by cases hm
  · rw [lastSaved_cons]
    simp [Entry.saved, replacementPending, hr, hp]

/-! ## Changes of the journal in memory -/

/-- A change of the journal that is not `Clean` after it unless it was before. -/
theorem Sound.edit (h : Sound trace journal attached result) (tracks : Tracks trace journal')
    (hcln : journal'.phase = .clean → journal.phase = .clean)
    (installed : ∀ replacement, journal'.replacement = some replacement →
      replacement.pending → replacement.guard.state = .applied →
      (lastSaved trace).replacementPending) (hgen : journal.generation ≤ journal'.generation) :
    Sound trace journal' attached result :=
  ⟨h.legal, tracks, h.adapters, fun hc => h.durable (hcln hc), installed,
    h.generation.trans hgen, h.since.trans hgen, h.leased, h.retired⟩

/-- The journals differ in nothing that records a mutation. -/
structure Harmless (journal journal' : RecoveryJournal) : Prop where
  steps : journal'.steps = journal.steps
  device : journal'.device.map (·.receipt) = journal.device.map (·.receipt)
  replacement : (journal'.replacement.map fun r => (r.guard, r.pending)) =
    journal.replacement.map fun r => (r.guard, r.pending)
  operationId : journal'.operationId = journal.operationId
  clean : journal'.phase = .clean → journal.phase = .clean
  live : journal'.phase.live = true → journal.phase.live = true
  generation : journal.generation ≤ journal'.generation

theorem exists_guard {a b : Option TunnelReplacement}
    (h : (a.map fun r => (r.guard, r.pending)) = b.map fun r => (r.guard, r.pending))
    {replacement : TunnelReplacement} (hb : b = some replacement) :
    ∃ r, a = some r ∧ r.guard = replacement.guard ∧ r.pending = replacement.pending := by
  rw [hb] at h
  obtain ⟨r, heq, hpair⟩ := Option.map_eq_some_iff.1 h
  exact ⟨r, heq, congrArg Prod.fst hpair, congrArg Prod.snd hpair⟩

theorem Harmless.pending_eq (h : Harmless journal journal') :
    journal'.replacementPending = journal.replacementPending := by
  unfold replacementPending
  cases hr : journal'.replacement with
  | none =>
    have hm := h.replacement
    rw [hr, Option.map_none, eq_comm, Option.map_eq_none_iff] at hm
    rw [hm]
  | some =>
    obtain ⟨r, heq, -, hp⟩ := exists_guard h.replacement.symm hr
    rw [heq, Option.any_some, Option.any_some, hp]

theorem Harmless.records (h : Harmless journal journal') (hm : journal.records m) :
    journal'.records m := by
  cases ht : m.target with
  | step => rwa [records_step ht, h.steps, ← records_step ht]
  | device =>
    obtain ⟨device, hd, hin⟩ := (records_device ht).1 hm
    have hmap := h.device
    rw [hd] at hmap
    obtain ⟨device', hd', heq⟩ := Option.map_eq_some_iff.1 hmap
    exact (records_device ht).2 ⟨device', hd', heq ▸ hin⟩
  | guard =>
    obtain ⟨replacement, hr, hp, hg⟩ := (records_guard ht).1 hm
    obtain ⟨r, heq, hgrd, hpend⟩ := exists_guard h.replacement hr
    exact (records_guard ht).2 ⟨r, heq, hpend ▸ hp, hgrd ▸ hg⟩

section
variable (h : Sound trace journal attached result)
include h

theorem Sound.harmless (hh : Harmless journal journal') : Sound trace journal' attached result := by
  refine h.edit ⟨?_, hh.steps ▸ h.tracks.kinds, hh.steps ▸ h.tracks.agree,
    h.tracks.ordered.subset (hh.steps ▸ fun _ hin => hin) hh.live, ?_, ?_⟩ hh.clean ?_ hh.generation
  · exact fun m hm => (h.tracks.recorded m hm).imp_right hh.records
  · intro replacement hr hp
    obtain ⟨r, heq, hg, hpend⟩ := exists_guard hh.replacement.symm hr
    exact hg ▸ h.tracks.guarded r heq (hpend.trans hp)
  · intro hc
    obtain ⟨hid, hstp, hp⟩ := h.tracks.clean (hh.clean hc)
    exact ⟨hh.operationId.trans hid, hh.steps.trans hstp, hh.pending_eq.trans hp⟩
  · intro replacement hr hp hs
    obtain ⟨r, heq, hg, hpend⟩ := exists_guard hh.replacement.symm hr
    exact h.installed r heq (hpend.trans hp) (hg ▸ hs)

theorem Sound.steps {steps : List MutationRecord}
    (recorded : ∀ m ∈ outstanding trace, m.target = .step → superseded trace m ∨
      ∃ step ∈ steps, step.state ≠ .restored ∧ step.receipt ∈ m.receipts)
    (kinds : (steps.map (·.kind)).Nodup) (agree : ∀ step ∈ steps, step.kind = step.receipt.kind)
    (ordered : Ordered { journal with steps := steps } trace)
    (hcln : journal.phase = .clean → steps = []) :
    Sound trace { journal with steps := steps } attached result := by
  refine h.edit ⟨fun m hm => ?_, kinds, agree, ordered, h.tracks.guarded, fun hc => ?_⟩ id
    h.installed le_rfl
  · by_cases ht : m.target = .step
    · exact (recorded m hm ht).imp_right (records_step ht).2
    · exact (h.tracks.recorded m hm).imp_right (records_steps ht steps).trans
  · exact ⟨(h.tracks.clean hc).1, hcln hc, (h.tracks.clean hc).2.2⟩

theorem Sound.recorded_step (hm : m ∈ outstanding trace) (ht : m.target = .step) :
    superseded trace m ∨
      ∃ step ∈ journal.steps, step.state ≠ .restored ∧ step.receipt ∈ m.receipts :=
  (h.tracks.recorded m hm).imp_right (records_step ht).1

/-- Steps are dropped that are restored or that nothing needs. -/
theorem Sound.sublist {steps : List MutationRecord} (hsub : steps.Sublist journal.steps)
    (hdrop : ∀ step ∈ journal.steps, step ∈ steps ∨ step.state = .restored ∨
      Done trace step.receipt) :
    Sound trace { journal with steps := steps } attached result := by
  refine h.steps (fun m hm ht => ?_) (h.tracks.kinds.sublist (hsub.map _))
    (fun step hin => h.tracks.agree step (hsub.subset hin))
    (h.tracks.ordered.subset hsub.subset id) fun hc => ?_
  · rcases h.recorded_step hm ht with hsup | ⟨step, hin, hs, hr⟩
    · exact .inl hsup
    · rcases hdrop step hin with hk | hres | hdone
      · exact .inr ⟨step, hk, hs, hr⟩
      · exact absurd hres hs
      · exact .inl (hdone m hm ht hr)
  · have hnil := (h.tracks.clean hc).2.1
    rw [hnil] at hsub
    exact sublist_nil.1 hsub

end

/-- The second step is the first one, perhaps marked as restored where nothing
    needs it any more; an adapter only in a recovery, with what goes with it. -/
def Marked (trace : List Entry) (journal : RecoveryJournal) (step step' : MutationRecord) : Prop :=
  step' = step ∨ step' = { step with state := .restored } ∧ Done trace step.receipt ∧
    (step.receipt.kind = .wintunAdapter → journal.phase.live = false ∧
      ∀ other ∈ journal.steps, removedWith other.receipt step.receipt = true →
        Done trace other.receipt)

theorem Marked.kind_eq (h : Marked trace journal step step') : step'.kind = step.kind := by
  rcases h with rfl | ⟨rfl, -⟩ <;> rfl

theorem Marked.receipt_eq (h : Marked trace journal step step') : step'.receipt = step.receipt := by
  rcases h with rfl | ⟨rfl, -⟩ <;> rfl

section
variable (h : Sound trace journal attached result)
include h

theorem Sound.push {kind : MutationKind} (hnew : journal.hasStep kind = false)
    (hkind : receipt.kind = kind) (hlive : journal.phase.live) :
    Sound trace (journal.pushStep ⟨kind, .intended, receipt⟩) attached result := by
  refine h.steps (fun m hm ht => ?_) ?_ ?_ (h.tracks.ordered.join hlive (fun _ hin => hin) nofun)
    fun hc => by simp [hc, RecoveryPhase.live] at hlive
  · refine (h.recorded_step hm ht).imp_right ?_
    rintro ⟨step, hin, hs⟩
    exact ⟨step, mem_append_left _ hin, hs⟩
  · rw [map_append, nodup_append]
    refine ⟨h.tracks.kinds, nodup_singleton _, ?_⟩
    simpa [hasStep] using hnew
  · intro step hin
    rcases mem_append.1 hin with hin | hin
    · exact h.tracks.agree step hin
    · cases mem_singleton.1 hin
      exact hkind.symm

/-- The last step gets another receipt, under which its mutation is known. -/
theorem Sound.setLast {steps : List MutationRecord} (hstp : journal.steps = steps ++ [step])
    (hkind : step'.kind = step.kind) (hagree : step'.kind = step'.receipt.kind)
    (hst : step'.state ≠ .restored) (hlive : journal.phase.live)
    (recorded : ∀ m ∈ outstanding trace, m.target = .step → superseded trace m ∨
      (∃ step ∈ steps, step.state ≠ .restored ∧ step.receipt ∈ m.receipts) ∨
        step'.receipt ∈ m.receipts) :
    Sound trace (journal.setLastStep step') attached result := by
  have heq : journal.setLastStep step' = { journal with steps := steps ++ [step'] } := by
    rw [setLastStep, hstp, dropLast_concat]
  rw [heq]
  have hkinds := h.tracks.kinds
  have hold := h.tracks.agree
  rw [hstp] at hkinds hold
  refine h.steps (fun m hm ht => ?_) ?_ ?_ (h.tracks.ordered.join hlive (fun other hin => ?_) hst)
    fun hc => ?_
  · rcases recorded m hm ht with hsup | ⟨s, hin, hs⟩ | hr
    · exact .inl hsup
    · exact .inr ⟨s, mem_append_left _ hin, hs⟩
    · exact .inr ⟨step', mem_append_right _ (mem_singleton_self _), hst, hr⟩
  · simpa [hkind] using hkinds
  · intro s hin
    rcases mem_append.1 hin with hin | hin
    · exact hold s (mem_append_left _ hin)
    · rw [mem_singleton.1 hin]
      exact hagree
  · rw [hstp]
    exact mem_append_left _ hin
  · have hnil := (h.tracks.clean hc).2.1
    simp [hstp] at hnil

theorem Sound.no_device (hn : journal.device = none) :
    ∀ m ∈ outstanding trace, m.target ≠ .device := by
  intro m hm ht
  rcases h.tracks.recorded m hm with hsup | hr
  · cases (target_of_superseded hsup).symm.trans ht
  · obtain ⟨device, hd, -⟩ := (records_device ht).1 hr
    cases hn.symm.trans hd

theorem Sound.device {device : Option ManagedDevice} (binding : Option DeviceBinding)
    (recorded : ∀ m ∈ outstanding trace, m.target = .device →
      ∃ d, device = some d ∧ d.receipt ∈ m.receipts) :
    Sound trace { journal with device := device, deviceBinding := binding } attached result := by
  refine h.edit ⟨fun m hm => ?_, h.tracks.kinds, h.tracks.agree,
    h.tracks.ordered.subset (fun _ hin => hin) id, h.tracks.guarded, h.tracks.clean⟩ id h.installed
    le_rfl
  cases ht : m.target with
  | step => exact (h.recorded_step hm ht).imp_right (records_step ht).2
  | device => exact .inr ((records_device ht).2 (recorded m hm ht))
  | guard =>
    refine (h.tracks.recorded m hm).imp_right fun hr => ?_
    obtain hr := (records_guard ht).1 hr
    exact (records_guard ht).2 hr

end

section
variable {steps steps' : List MutationRecord}

theorem marked_kinds (hm : List.Forall₂ (Marked trace journal) steps steps') :
    steps'.map (·.kind) = steps.map (·.kind) := by
  induction hm with
  | nil => rfl
  | cons hhead _ ih => rw [map_cons, map_cons, ih, hhead.kind_eq]

section
variable (h : Sound trace journal attached result)
  (hm : List.Forall₂ (Marked trace journal) journal.steps steps)
include h hm

theorem Sound.marked_recorded (hout : m ∈ outstanding trace) (ht : m.target = .step) :
    superseded trace m ∨ ∃ step ∈ steps, step.state ≠ .restored ∧ step.receipt ∈ m.receipts := by
  rcases h.recorded_step hout ht with hsup | ⟨step, hin, hs, hr⟩
  · exact .inl hsup
  · obtain ⟨step', hin', rfl | ⟨-, hdone, -⟩⟩ := exists_mem_right hm hin
    · exact .inr ⟨step', hin', hs, hr⟩
    · exact .inl (hdone m hout ht hr)

theorem Sound.marked_ordered : Ordered { journal with steps := steps } trace := by
  have hord := h.tracks.ordered
  constructor
  · intro adapter' ha hres step' hin hw
    obtain ⟨adapter, hadapter, hmark⟩ := exists_mem_left hm ha
    obtain ⟨step, hstep, hmark'⟩ := exists_mem_left hm hin
    rw [hmark'.receipt_eq, hmark.receipt_eq] at hw
    rw [hmark'.receipt_eq]
    rcases hmark with rfl | ⟨-, -, hgone⟩
    · exact hord.removed adapter' hadapter hres step hstep hw
    · exact (hgone (adapter_of_removedWith hw)).2 step hstep hw
  · intro hlive adapter' ha hres hkind
    obtain ⟨adapter, hadapter, hmark⟩ := exists_mem_left hm ha
    rw [hmark.receipt_eq] at hkind ⊢
    rcases hmark with rfl | ⟨-, -, hgone⟩
    · exact hord.intact hlive adapter' hadapter hres hkind
    · exact absurd ((hgone hkind).1.symm.trans hlive) Bool.false_ne_true

theorem Sound.marked : Sound trace { journal with steps := steps } attached result := by
  refine h.steps (fun m => h.marked_recorded hm) (marked_kinds hm ▸ h.tracks.kinds) ?_
    (h.marked_ordered hm) fun hc => ?_
  · intro step' hin
    obtain ⟨step, hstep, hmark⟩ := exists_mem_left hm hin
    rw [hmark.kind_eq, hmark.receipt_eq]
    exact h.tracks.agree step hstep
  · rw [(h.tracks.clean hc).2.1] at hm
    exact forall₂_nil_left_iff.1 hm

end

/-- What a restored adapter satisfies went with it. -/
theorem Sound.gone (h : Sound trace journal attached result) (hin : step ∈ journal.steps)
    (hs : dependencySatisfiedByRestoredWintun journal.steps step) :
    Done trace step.receipt ∧ step.receipt.kind ≠ .wintunAdapter ∧
      ∃ adapter ∈ journal.steps, adapter.state = .restored ∧
        removedWith step.receipt adapter.receipt := by
  simp only [dependencySatisfiedByRestoredWintun, Bool.and_eq_true, bne_iff_ne, ne_eq,
    any_eq_true, beq_iff_eq] at hs
  obtain ⟨-, adapter, ha, ⟨-, hres⟩, hw⟩ := hs
  exact ⟨h.tracks.ordered.removed adapter ha hres step hin hw, kind_of_removedWith hw, adapter, ha,
    hres, hw⟩

end

end

end Usque.Agent
