/-
  Runs of the maintenance helper: what its calls do to the service files and the journal, and
  how it can be cut off between any two of them.

  * Renames and removals are atomic. A save that fails leaves the old journal or the new one;
    everything else that fails leaves the files as they are.
  * The log holds the saves, the calls of the service manager with their results, what is
    noted of a recovery, and the files that others have changed, the last event first. Others
    change files between the runs of the helper.
-/
import Usque.Update.Transaction

namespace Usque.Update
open Lib Fallible List

variable [Sha256]

inductive Event where
  | saved (journal : Journal)
  | stopped (ok : Bool)
  | reloaded (ok : Bool)
  | enabled (enabled ok : Bool)
  | started (ok : Bool)
  | called (succeeded : Bool)
  | reported (recovery : Recovery)
  | finished (succeeded : Bool)
  | edited (name : String)
deriving DecidableEq

structure Disk where
  files : String → Option ServiceFile
  journal : Option Journal
  log : List Event

/-- `Store::existing_identity`, when it succeeds. -/
def Disk.identity (disk : Disk) (name : String) : Option Identity :=
  (disk.files name).map ServiceFile.identity

namespace Disk

def logged (disk : Disk) (event : Event) : Disk := { disk with log := event :: disk.log }

def saved (disk : Disk) (journal : Journal) : Disk :=
  { disk with journal := some journal, log := .saved journal :: disk.log }

def put (disk : Disk) (name : String) (file : Option ServiceFile) : Disk :=
  { disk with files := Function.update disk.files name file }

def Does : (op : UpdateOp) → Disk → op.Answer → Disk → Prop
  | .readJournal, disk, answer, after =>
    (answer = .ok disk.journal ∨ ∃ e, answer = .error e) ∧ after = disk
  | .save journal, disk, answer, after =>
    after = disk.saved journal ∨ (∃ e, answer = .error e) ∧ after = disk
  | .removeJournal, disk, answer, after =>
    answer = .ok () ∧ after = { disk with journal := none } ∨
      (∃ e, answer = .error e) ∧ after = disk
  | .existingIdentity name, disk, answer, after =>
    (answer = .ok (disk.identity name) ∨ ∃ e, answer = .error e) ∧ after = disk
  | .exists name, disk, answer, after => answer = (disk.files name).isSome ∧ after = disk
  | .publish name file, disk, answer, after =>
    answer = .ok () ∧ after = disk.put name (some file) ∨ (∃ e, answer = .error e) ∧ after = disk
  | .removeFile name, disk, answer, after =>
    answer = .ok () ∧ after = disk.put name none ∨ (∃ e, answer = .error e) ∧ after = disk
  | .stopCandidate, disk, answer, after => after = disk.logged (.stopped answer.isOk)
  | .reload, disk, answer, after => after = disk.logged (.reloaded answer.isOk)
  | .enable enabled, disk, answer, after => after = disk.logged (.enabled enabled answer.isOk)
  | .startPrevious, disk, answer, after => after = disk.logged (.started answer.isOk)
  | .call succeeded, disk, _, after => after = disk.logged (.called succeeded)
  | .report recovery _, disk, _, after => after = disk.logged (.reported recovery)
  | .finished succeeded, disk, _, after => after = disk.logged (.finished succeeded)
  | .edit name file, disk, _, after => after = (disk.put name file).logged (.edited name)
  | _, disk, _, after => after = disk

end Disk

/-- A new process does nothing by itself. -/
def Restarts (disk after : Disk) (code : Code UpdateOp UpdateOp.Answer Unit) : Prop :=
  after = disk ∧ code = pure ()

/-- The files that others have changed since a journal in `p` was saved. -/
def editedSince (p : Journal → Bool) : List Event → List String
  | [] => []
  | .edited name :: log => name :: editedSince p log
  | .saved journal :: log => if p journal then [] else editedSince p log
  | _ :: log => editedSince p log

/-- Changed by others since the journal has recorded changes. -/
def Disk.edited (disk : Disk) : List String :=
  editedSince (fun journal => journal.changes.isEmpty) disk.log

/-- Changed by others since a terminal decision was saved. -/
def Disk.editedLate (disk : Disk) : List String :=
  editedSince (fun journal => journal.complete) disk.log

def Event.isCall : Event → Bool
  | .called _ => true
  | _ => false

/-- What has happened since the last recovery began. -/
def thisCall (log : List Event) : List Event := log.takeWhile fun event => !event.isCall

/-- The result that the last recovery was called for. -/
def callSucceeded : List Event → Bool
  | [] => false
  | .called succeeded :: _ => succeeded
  | _ :: log => callSucceeded log

/-- The event is one of the course of an operation or a recovery. -/
def Event.isInner : Event → Bool
  | .saved _ | .stopped _ | .reloaded _ | .enabled .. | .started _ => true
  | _ => false

/-- Only such events have happened since. -/
def Later (disk after : Disk) : Prop :=
  ∃ events, (∀ event ∈ events, event.isInner = true) ∧ after.log = events ++ disk.log

variable {event : Event}

namespace Later
variable {disk after last : Disk}

theorem refl (disk : Disk) : Later disk disk := ⟨[], by simp, rfl⟩

theorem of_eq (h : after.log = disk.log) : Later disk after := ⟨[], by simp, h⟩

theorem trans (h : Later disk after) (h' : Later after last) : Later disk last := by
  obtain ⟨events, hevs, hlog⟩ := h
  obtain ⟨events', hevs', hlog'⟩ := h'
  refine ⟨events' ++ events, ?_, by rw [hlog', hlog, append_assoc]⟩
  intro event hevent
  rcases mem_append.mp hevent with hevent | hevent
  · exact hevs' event hevent
  · exact hevs event hevent

theorem cons (hevent : event.isInner) (h : after.log = event :: disk.log) : Later disk after :=
  ⟨[event], by simpa using hevent, h⟩

section
variable (h : Later disk after)
include h

theorem mem (hevent : event ∈ disk.log) : event ∈ after.log := by
  obtain ⟨events, -, hlog⟩ := h
  rw [hlog]
  exact mem_append_right events hevent

theorem thisCall_eq :
    ∃ events, (∀ event ∈ events, event.isInner) ∧
      thisCall after.log = events ++ thisCall disk.log := by
  obtain ⟨events, hevs, hlog⟩ := h
  refine ⟨events, hevs, ?_⟩
  unfold thisCall
  rw [hlog, takeWhile_append_of_pos]
  intro event hevent
  have := hevs event hevent
  cases event <;> simp_all [Event.isInner, Event.isCall]

theorem mem_thisCall (hevent : event ∈ thisCall disk.log) : event ∈ thisCall after.log := by
  obtain ⟨events, -, heq⟩ := h.thisCall_eq
  rw [heq]
  exact mem_append_right events hevent

theorem reported (recovery : Recovery) :
    .reported recovery ∈ thisCall after.log ↔ .reported recovery ∈ thisCall disk.log := by
  obtain ⟨events, hevs, heq⟩ := h.thisCall_eq
  rw [heq, mem_append]
  constructor
  · rintro (hmem | hmem)
    · cases hevs _ hmem
    · exact hmem
  · exact .inr

theorem callSucceeded_eq : callSucceeded after.log = callSucceeded disk.log := by
  obtain ⟨events, hevs, hlog⟩ := h
  rw [hlog]
  clear hlog
  induction events with
  | nil => rfl
  | cons event _ ih =>
    have hinner := hevs event mem_cons_self
    have ih := ih fun e he => hevs e (mem_cons_of_mem event he)
    cases event <;> first | exact ih | cases hinner

end

end Later

/-! ## Runs by choices -/

def answerOf {α : Type} (ok : Bool) (a : α) : Except Error α := if ok then .ok a else .error (.io 5)

/-- What the staging directory holds in the runs below. -/
def Source.sample : Source → Bytes
  | .staged _ => [1, 2, 3]
  | .backup _ => [7, 8]

def Disk.choose (ok : Bool) : (op : UpdateOp) → Disk → Disk × op.Answer
  | .system _, disk => (disk, answerOf ok ())
  | .stageMode, disk => (disk, answerOf ok 0o700)
  | .stageExists, disk => (disk, ok)
  | .readJournal, disk => (disk, answerOf ok disk.journal)
  | .save journal, disk => (if ok then disk.saved journal else disk, answerOf ok ())
  | .removeJournal, disk => (if ok then { disk with journal := none } else disk, answerOf ok ())
  | .existingIdentity name, disk => (disk, answerOf ok (disk.identity name))
  | .exists name, disk => (disk, (disk.files name).isSome)
  | .identity source, disk =>
    (disk, answerOf ok ⟨source.sample.length, Sha256.digest source.sample, 0o600⟩)
  | .read source _, disk => (disk, answerOf ok source.sample)
  | .publish name file, disk => (if ok then disk.put name (some file) else disk, answerOf ok ())
  | .removeFile name, disk => (if ok then disk.put name none else disk, answerOf ok ())
  | .stopCandidate, disk => (disk.logged (.stopped ok), answerOf ok ())
  | .reload, disk => (disk.logged (.reloaded ok), answerOf ok ())
  | .enable enabled, disk => (disk.logged (.enabled enabled ok), answerOf ok ())
  | .startPrevious, disk => (disk.logged (.started ok), answerOf ok ())
  | .call succeeded, disk => (disk.logged (.called succeeded), ())
  | .report recovery _, disk => (disk.logged (.reported recovery), ())
  | .finished succeeded, disk => (disk.logged (.finished succeeded), ())
  | .edit name file, disk => ((disk.put name file).logged (.edited name), ())

theorem Disk.choose_does (ok : Bool) (op : UpdateOp) (disk : Disk) :
    Does op disk (choose ok op disk).2 (choose ok op disk).1 := by
  cases op with
  | readJournal | existingIdentity name =>
    cases ok with
    | true => exact ⟨.inl rfl, rfl⟩
    | false => exact ⟨.inr ⟨_, rfl⟩, rfl⟩
  | save =>
    cases ok with
    | true => exact .inl rfl
    | false => exact .inr ⟨⟨_, rfl⟩, rfl⟩
  | removeJournal | publish name file | removeFile name =>
    cases ok with
    | true => exact .inl ⟨rfl, rfl⟩
    | false => exact .inr ⟨⟨_, rfl⟩, rfl⟩
  | «exists» name => exact ⟨rfl, rfl⟩
  | stopCandidate | reload | enable enabled | startPrevious => cases ok <;> rfl
  | _ => rfl

/-- A new process that does nothing. -/
def Disk.reopen (disk : Disk) : Disk × Code UpdateOp UpdateOp.Answer Unit := (disk, pure ())

theorem Disk.reopen_restarts (disk : Disk) : Restarts disk disk.reopen.1 disk.reopen.2 := ⟨rfl, rfl⟩

end Usque.Update
