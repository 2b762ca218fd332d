/-
  What the journal of the Linux agent records of the calls that reached the host.
-/
import Usque.Linux.Machine

namespace Usque.Linux
open Agent (ValidatedTunnelPlan)
open Lib Fallible World List

/-! ## The log -/

variable {call : NativeCall}

section
variable {log : List NativeCall} {effect : Effect} {step : Step} {table t : String} {ok : Bool}

theorem outstanding_apply : effect ∈ outstanding (.apply step table ok :: log) ↔
    effect = ⟨table, step⟩ ∨ effect ∈ outstanding log := by
  simp [outstanding, WriteAhead.outstanding, nativeEffects]

theorem outstanding_installBridge : effect ∈ outstanding (.installBridge table ok :: log) ↔
    effect = ⟨table, .protection⟩ ∨ effect ∈ outstanding log := by
  simp [outstanding, WriteAhead.outstanding, nativeEffects]

theorem outstanding_restore : effect ∈ outstanding (.restore step table ok :: log) ↔
    effect ∈ outstanding log ∧ ¬(ok ∧ effect = ⟨table, step⟩) := by
  cases ok <;> simp [outstanding, WriteAhead.outstanding, nativeEffects]

theorem installed_other (h : call.concerns t = false) :
    installed t (call :: log) = installed t log := by
  have hnone : call.guard t = none := by
    cases call with
    | apply | restore =>
      refine if_neg ?_
      rintro ⟨rfl, rfl, -⟩
      simp [NativeCall.concerns] at h
    | installBridge =>
      refine if_neg ?_
      rintro ⟨rfl, -⟩
      simp [NativeCall.concerns] at h
  rw [installed, hnone, Option.getD_none]

theorem lastGuardCall_other (h : call.concerns t = false) :
    lastGuardCall t (call :: log) = lastGuardCall t log := by
  rw [lastGuardCall, find?_cons_of_neg (by simp [h]), lastGuardCall]

theorem installed_apply (h : installed t log) : installed t (.apply step table ok :: log) := by
  simp only [installed, NativeCall.guard]
  split_ifs
  · rfl
  · exact h

theorem installed_installBridge (h : installed t log) :
    installed t (.installBridge table ok :: log) := by
  simp only [installed, NativeCall.guard]
  split_ifs
  · rfl
  · exact h

theorem installed_of_lastGuardCall
    (h : lastGuardCall t log = some (.installBridge t true)) : installed t log := by
  induction log with
  | nil => cases h
  | cons call _ ih =>
    by_cases hconcerns : call.concerns t
    · rw [lastGuardCall, find?_cons_of_pos hconcerns] at h
      cases h
      simp [installed, NativeCall.guard]
    · rw [Bool.not_eq_true] at hconcerns
      rw [lastGuardCall_other hconcerns] at h
      rw [installed_other hconcerns]
      exact ih h

end

/-! ## Sound journals -/

namespace Journal

/-- The effect is a record that is not restored, or the pending replacement. -/
def Covers (journal : Journal) (effect : Effect) : Prop :=
  (∃ resources record, journal.resources = some resources ∧ resources.nftTable = effect.table ∧
    record ∈ journal.records ∧ record.step = effect.step ∧ record.state ≠ .restored) ∨
  ∃ replacement, journal.replacement = some replacement ∧
    replacement.resources.nftTable = effect.table ∧ effect.step = .protection

def GuardLive (journal : Journal) : Prop :=
  ∃ record ∈ journal.records, record.step = .protection ∧ record.state ≠ .restored

def AllRestored (journal : Journal) : Prop := ∀ record ∈ journal.records, record.state = .restored

variable {journal : Journal}

theorem AllRestored.not_guardLive (h : journal.AllRestored) : ¬journal.GuardLive := by
  rintro ⟨record, hmem, -, hlive⟩
  exact hlive (h record hmem)

theorem AllRestored.not_ready (h : journal.AllRestored) (hval : journal.Valid) :
    ¬journal.Ready := by
  intro hrdy
  obtain ⟨hlen, happ⟩ := hval.ready hrdy
  obtain ⟨record, hmem⟩ := exists_mem_of_length_pos (Nat.lt_of_lt_of_le Nat.zero_lt_two hlen)
  have := happ record hmem
  rw [h record hmem] at this
  cases this

end Journal

/-- The journal may stand after the calls of the log. -/
structure Sound (guarded : Prop) (log : List NativeCall) (journal : Journal) : Prop where
  valid : journal.Valid
  covers : ∀ effect ∈ outstanding log, journal.Covers effect
  bridged : ∀ replacement, journal.replacement = some replacement →
    replacement.state = .applied → journal.GuardLive →
    lastGuardCall replacement.resources.nftTable log =
      some (.installBridge replacement.resources.nftTable true)
  opened : journal.replacement.isSome = true → ∃ record ∈ journal.records, record.step = .protection
  ready : guarded → journal.Ready → ∀ resources, journal.resources = some resources →
    installed resources.nftTable log = true

section
variable {guarded : Prop} {log : List NativeCall} {journal next : Journal}

section
variable (h : Sound guarded log journal)
include h

theorem Sound.generation (generation : ℕ) : Sound guarded log { journal with generation } :=
  ⟨⟨h.valid.clean, h.valid.operation, h.valid.replacement, h.valid.steps, h.valid.ready,
    h.valid.guard⟩, h.covers, h.bridged, h.opened, h.ready⟩

theorem Sound.change (hval : next.Valid)
    (hcovers : ∀ effect ∈ outstanding log, journal.Covers effect → next.Covers effect)
    (hrepl : next.replacement = journal.replacement)
    (hlive : next.replacement.isSome → next.GuardLive → journal.GuardLive)
    (hopened : ∀ record ∈ journal.records, record.step = .protection →
      ∃ record' ∈ next.records, record'.step = .protection)
    (hrdy : guarded → next.Ready → ∀ resources, next.resources = some resources →
      installed resources.nftTable log) :
    Sound guarded log next where
  valid := hval
  covers := fun effect hmem => hcovers effect hmem (h.covers effect hmem)
  bridged := by
    intro replacement hsome happ hgrd
    refine h.bridged replacement (hrepl ▸ hsome) happ (hlive ?_ hgrd)
    rw [hsome]
    rfl
  opened := by
    intro hsome
    obtain ⟨record, hmem, hstep⟩ := h.opened (hrepl ▸ hsome)
    exact hopened record hmem hstep
  ready := hrdy

/-- A change of fields that the calls are not about, to a journal that is not ready. -/
theorem Sound.bookkeeping (hval : next.Valid)
    (hres : ∀ resources, journal.resources = some resources →
      ∃ resources', next.resources = some resources' ∧ resources'.nftTable = resources.nftTable)
    (hrecs : next.records = journal.records) (hrepl : next.replacement = journal.replacement)
    (hrdy : guarded → next.Ready → ∀ resources, next.resources = some resources →
      installed resources.nftTable log) :
    Sound guarded log next := by
  refine h.change hval ?_ hrepl ?_ ?_ hrdy
  · rintro effect - (⟨resources, record, hsome, htab, hmem, hstep, hlive⟩ | hbr)
    · obtain ⟨resources', hsome', htab'⟩ := hres resources hsome
      refine .inl ⟨resources', record, hsome', htab'.trans htab, ?_, hstep, hlive⟩
      rwa [hrecs]
    · right
      rwa [hrepl]
  · intro _ hlive
    unfold Journal.GuardLive at hlive
    rwa [hrecs] at hlive
  · intro record hmem hstep
    exact ⟨record, hrecs ▸ hmem, hstep⟩

theorem Sound.replacement_table {replacement : Replacement} {resources : Resources}
    (hrepl : journal.replacement = some replacement) (hres : journal.resources = some resources) :
    resources.nftTable ≠ replacement.resources.nftTable := by
  obtain ⟨htab, hid⟩ := h.valid.replacement replacement hrepl
  have hph : journal.phase ≠ .clean := by
    intro hcln
    rw [(h.valid.clean hcln).1] at hres
    cases hres
  obtain ⟨id, resources', -, hsome, hres', -, htab'⟩ := h.valid.operation hph
  cases hres.symm.trans hres'
  rw [htab, htab', Ne, guardTable_inj]
  rintro rfl
  exact hid hsome

end

end

/-! ## Points of a run -/

structure Inv (guarded : Prop) (world : World) : Prop where
  memory : Sound guarded world.log world.journal
  disk : Sound guarded world.log world.disk
  certain : world.coordinator.persistenceUncertain = false → world.disk = world.journal

/-- The coordinator works with this journal, which is also on disk. -/
structure At (guarded : Prop) (journal : Journal) (world : World) : Prop where
  coordinator : world.coordinator = ⟨journal, false⟩
  disk : world.disk = journal
  sound : Sound guarded world.log journal

/-- What holds where an operation is due: `allowed` is asked of a restore of a guard. -/
def Point (guarded : Prop) (allowed : World → Resources → Prop) (op : LinuxOp) (world : World) :
    Prop :=
  Inv guarded world ∧
    ∀ resources plan, op = .restore .protection resources plan → allowed world resources

section
variable {guarded : Prop} {allowed : World → Resources → Prop} {journal : Journal} {world : World}

theorem At.journal_eq (h : At guarded journal world) : world.journal = journal := by
  rw [World.journal, h.coordinator]

theorem At.inv (h : At guarded journal world) : Inv guarded world := by
  refine ⟨?_, ?_, ?_⟩
  · rw [h.journal_eq]
    exact h.sound
  · rw [h.disk]
    exact h.sound
  · intro _
    rw [h.disk, h.journal_eq]

theorem Inv.at (h : Inv guarded world) (hcert : world.coordinator.persistenceUncertain = false) :
    At guarded world.journal world := by
  refine ⟨?_, h.certain hcert, h.memory⟩
  rw [← hcert]
  rfl

/-- An operation other than the restore of a guard. -/
theorem Inv.point (h : Inv guarded world) {op : LinuxOp}
    (hop : ∀ resources plan, op ≠ .restore .protection resources plan) :
    Point guarded allowed op world :=
  ⟨h, fun resources plan heq => absurd heq (hop resources plan)⟩

end

end Usque.Linux
