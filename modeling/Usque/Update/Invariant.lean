/-
  What holds of the service files and the journal at every point of a run.

  * `Inv given disk`: files that only the helper has changed are at a recorded version, a
    terminal decision has been carried out, and the flags of the journal are true. `given` is
    the journal that the run began with, if there was one.
  * `Point recovering given op disk`: what holds when `op` is about to be done, with more of it
    in a recovery.
-/
import Usque.Update.Disk

namespace Usque.Update
open Lib Fallible List

variable [Sha256]

section
variable (recovering : Bool) (given : Option Journal) (journal : Journal) (disk : Disk)

/-- The changes are those that the run began with. -/
def Kept (changes : List Change) : Prop := ∀ first, given = some first → changes = first.changes

structure Inv : Prop where
  saved : ∀ journal, disk.journal = some journal → .saved journal ∈ disk.log ∨ given = some journal
  recorded : ∀ journal, disk.journal = some journal → ∀ change ∈ journal.changes,
    change.name ∉ disk.edited →
    disk.identity change.name = change.prior ∨ disk.identity change.name = change.candidate
  committed : ∀ journal, disk.journal = some journal → journal.complete = true →
    journal.rolledBack = false → ∀ change ∈ journal.changes, change.name ∉ disk.editedLate →
    disk.identity change.name = change.candidate
  rolledBack : ∀ journal, disk.journal = some journal → journal.complete = true →
    journal.rolledBack = true → ∀ change ∈ journal.changes, change.name ∉ disk.editedLate →
    disk.identity change.name = change.prior
  stopped : ∀ journal, disk.journal = some journal → journal.candidateStopped = true →
    .stopped true ∈ disk.log ∨ given.any (·.candidateStopped) = true
  reverted : ∀ journal, disk.journal = some journal → journal.enablementReverted = true →
    .enabled false true ∈ disk.log ∨ given.any (·.enablementReverted) = true
  kept : ∀ journal, disk.journal = some journal → Kept given journal.changes

/-- A candidate that may have been started is stopped, and an enablement that was not there
    is reverted. -/
structure Quiesced (log : List Event) : Prop where
  stopped : journal.startAttempted = true → journal.candidateStopped = true ∧
    (.stopped true ∈ log ∨ given.any (·.candidateStopped) = true)
  reverted : journal.enablementAttempted = true → journal.previousEnabled = false →
    journal.enablementReverted = true ∧
    (.enabled false true ∈ log ∨ given.any (·.enablementReverted) = true)

/-- Every file is at its prior version, and in this call the service manager has been reloaded
    and the service enabled again. -/
structure Restored : Prop where
  files : ∀ change ∈ journal.changes, disk.identity change.name = change.prior
  reloaded : .reloaded true ∈ thisCall disk.log
  enabled : journal.enablementAttempted = true → journal.previousEnabled = true →
    .enabled true true ∈ thisCall disk.log

/-- The file may be changed: a journal without a decision records it, and it is at a recorded
    version. -/
def Guarded (name : String) : Prop :=
  ∃ journal change, disk.journal = some journal ∧ journal.complete = false ∧
    change ∈ journal.changes ∧ change.name = name ∧
    (disk.identity name = change.prior ∨ disk.identity name = change.candidate)

/-- The prior versions that the journal adds are those of the files. -/
def Honest (next : Journal) : Prop :=
  ∀ change ∈ next.changes,
    (∀ journal, disk.journal = some journal → change ∉ journal.changes) →
    disk.identity change.name = change.prior

/-- No recorded change is lost. -/
def Keeps (next : Journal) : Prop :=
  ∀ journal, disk.journal = some journal → journal.changes <+: next.changes

/-- A journal with this decision about the changes has been saved. -/
def Decided (rolledBack : Bool) (changes : List Change) : Prop :=
  ∃ journal, (.saved journal ∈ disk.log ∨ given = some journal) ∧ journal.complete = true ∧
    journal.rolledBack = rolledBack ∧ journal.changes = changes

/-- The rollback is complete but for its last save. -/
structure RolledBack : Prop where
  restored : Restored journal disk
  quiesced : Quiesced given journal disk.log
  started : journal.previousActive = true → .started true ∈ thisCall disk.log

/-- What holds besides `Inv` when an operation is about to be done. -/
def Before : UpdateOp → Prop
  | .publish name _ | .removeFile name => Guarded disk name ∧ (recovering = true →
      ∃ journal, disk.journal = some journal ∧ Quiesced given journal disk.log)
  | .save next => Honest disk next ∧ Keeps disk next ∧ (recovering = true →
      Kept given next.changes ∧
      (next.complete = true → next.rolledBack = true ∧ RolledBack given next disk))
  | .removeJournal => ∃ journal, disk.journal = some journal ∧ journal.complete = true
  | .stopCandidate => ∃ journal, disk.journal = some journal ∧ journal.candidateStopped = false
  | .startPrevious => ∃ journal, disk.journal = some journal ∧ Restored journal disk
  | .report .rolledBack changes => Kept given changes ∧ Decided given disk true changes ∧
      ∀ change ∈ changes, change.name ∉ disk.editedLate → disk.identity change.name = change.prior
  | .report .committed changes => Decided given disk false changes ∧
      ∀ change ∈ changes, change.name ∉ disk.editedLate →
        disk.identity change.name = change.candidate
  | .finished succeeded => (succeeded = true ↔
      callSucceeded disk.log = true ∨ .reported .committed ∈ thisCall disk.log)
  | _ => True

def Point (op : UpdateOp) (disk : Disk) : Prop :=
  Inv given disk ∧ Before recovering given disk op

end

/-! ## Changes of the disk -/

section
variable {given : Option Journal} {disk : Disk} {journal next : Journal} {name : String}

@[simp]
theorem identity_put (disk : Disk) (name : String) (file : Option ServiceFile) :
    (disk.put name file).identity name = file.map ServiceFile.identity := by
  simp [Disk.identity, Disk.put]

theorem identity_put_ne {other : String} (h : other ≠ name) (disk : Disk)
    (file : Option ServiceFile) : (disk.put name file).identity other = disk.identity other := by
  simp [Disk.identity, Disk.put, h]

theorem Inv.put (h : Inv given disk) (hjour : disk.journal = some journal)
    (hopen : journal.complete = false) {file : Option ServiceFile}
    (hfile : ∀ change ∈ journal.changes, change.name = name →
      file.map ServiceFile.identity = change.prior ∨
      file.map ServiceFile.identity = change.candidate) : Inv given (disk.put name file) := by
  refine ⟨h.saved, ?_, ?_, ?_, h.stopped, h.reverted, h.kept⟩
  · intro j hj change hchg hedited
    cases hjour.symm.trans hj
    by_cases hname : change.name = name
    · rw [hname, identity_put]
      exact hfile change hchg hname
    · rw [identity_put_ne hname]
      exact h.recorded journal hjour change hchg hedited
  · intro j hj hcomp
    cases hjour.symm.trans hj
    cases hopen.symm.trans hcomp
  · intro j hj hcomp
    cases hjour.symm.trans hj
    cases hopen.symm.trans hcomp

/-- Events of an operation or a recovery, other than saves. -/
theorem Inv.logged (h : Inv given disk) {event : Event}
    (hedited : ∀ p, editedSince p (event :: disk.log) = editedSince p disk.log) :
    Inv given (disk.logged event) := by
  have hmem : ∀ e ∈ disk.log, e ∈ (disk.logged event).log :=
    fun e he => mem_cons_of_mem event he
  refine ⟨?_, ?_, ?_, ?_, ?_, ?_, ?_⟩
  · intro j hj
    exact (h.saved j hj).imp_left (hmem _)
  · intro j hj change hchg hnot
    refine h.recorded j hj change hchg ?_
    unfold Disk.edited at hnot ⊢
    rwa [Disk.logged, hedited] at hnot
  · intro j hj hcomp hroll change hchg hnot
    refine h.committed j hj hcomp hroll change hchg ?_
    unfold Disk.editedLate at hnot ⊢
    rwa [Disk.logged, hedited] at hnot
  · intro j hj hcomp hroll change hchg hnot
    refine h.rolledBack j hj hcomp hroll change hchg ?_
    unfold Disk.editedLate at hnot ⊢
    rwa [Disk.logged, hedited] at hnot
  · intro j hj hstop
    exact (h.stopped j hj hstop).imp_left (hmem _)
  · intro j hj hrevt
    exact (h.reverted j hj hrevt).imp_left (hmem _)
  · exact h.kept

theorem Inv.edit (h : Inv given disk) (name : String) (file : Option ServiceFile) :
    Inv given ((disk.put name file).logged (.edited name)) := by
  have hmem : ∀ e ∈ disk.log, e ∈ ((disk.put name file).logged (.edited name)).log :=
    fun e he => mem_cons_of_mem _ he
  have hoth : ∀ p other, other ∉ editedSince p (.edited name :: disk.log) →
      ((disk.put name file).logged (.edited name)).identity other = disk.identity other ∧
        other ∉ editedSince p disk.log := by
    intro p other hnot
    rw [editedSince, mem_cons, not_or] at hnot
    obtain ⟨hne, hnot⟩ := hnot
    exact ⟨identity_put_ne hne disk file, hnot⟩
  refine ⟨?_, ?_, ?_, ?_, ?_, ?_, ?_⟩
  · intro j hj
    exact (h.saved j hj).imp_left (hmem _)
  · intro j hj change hchg hnot
    obtain ⟨heq, hnot⟩ := hoth _ _ hnot
    rw [heq]
    exact h.recorded j hj change hchg hnot
  · intro j hj hcomp hroll change hchg hnot
    obtain ⟨heq, hnot⟩ := hoth _ _ hnot
    rw [heq]
    exact h.committed j hj hcomp hroll change hchg hnot
  · intro j hj hcomp hroll change hchg hnot
    obtain ⟨heq, hnot⟩ := hoth _ _ hnot
    rw [heq]
    exact h.rolledBack j hj hcomp hroll change hchg hnot
  · intro j hj hstop
    exact (h.stopped j hj hstop).imp_left (hmem _)
  · intro j hj hrevt
    exact (h.reverted j hj hrevt).imp_left (hmem _)
  · exact h.kept

theorem Inv.of_none (h : disk.journal = none) : Inv given disk := by
  refine ⟨?_, ?_, ?_, ?_, ?_, ?_, ?_⟩ <;> intro j hj <;> cases h.symm.trans hj

theorem Inv.save (hrecd : next.changes ≠ [] → ∀ change ∈ next.changes,
      change.name ∉ disk.edited →
      disk.identity change.name = change.prior ∨ disk.identity change.name = change.candidate)
    (hcomm : next.complete → next.rolledBack = false → ∀ change ∈ next.changes,
      disk.identity change.name = change.candidate)
    (hrolledBack : next.complete → next.rolledBack → ∀ change ∈ next.changes,
      disk.identity change.name = change.prior)
    (hstop : next.candidateStopped → .stopped true ∈ disk.log ∨ given.any (·.candidateStopped))
    (hrevt : next.enablementReverted →
      .enabled false true ∈ disk.log ∨ given.any (·.enablementReverted))
    (hkept : Kept given next.changes) : Inv given (disk.saved next) := by
  refine ⟨?_, ?_, ?_, ?_, ?_, ?_, ?_⟩ <;> rintro j ⟨⟩
  · exact .inl mem_cons_self
  · intro change hchg hnot
    have hne : next.changes ≠ [] := ne_nil_of_mem hchg
    refine hrecd hne change hchg ?_
    unfold Disk.edited at hnot ⊢
    simpa [Disk.saved, editedSince, hne] using hnot
  · exact fun hcomp hroll change hchg _ => hcomm hcomp hroll change hchg
  · exact fun hcomp hroll change hchg _ => hrolledBack hcomp hroll change hchg
  · exact fun h => (hstop h).imp_left (mem_cons_of_mem _)
  · exact fun h => (hrevt h).imp_left (mem_cons_of_mem _)
  · exact hkept

end

end Usque.Update
