/-
  Service updates are atomic across crashes, and a rollback never runs mixed versions.

  * The results are about every state that the helper reaches, with the operation that it is
    about to do.
-/
import Usque.Update.Recovering

namespace Usque.Update
open Lib Fallible List

section
variable [Sha256] {recovering : Bool} {next : Journal}

section
variable {given : Option Journal} {disk after last : Disk} {journal : Journal}

/-! ## Operations -/

structure Progress (journal : Journal) (disk : Disk) : Prop where
  inv : Inv none disk
  journal_eq : disk.journal = some journal
  undecided : journal.complete = false ∧ journal.rolledBack = false
  flags : journal.candidateStopped = false ∧ journal.enablementReverted = false
  names : (journal.changes.map Change.name).Nodup
  done : ∀ change ∈ journal.changes, disk.identity change.name = change.candidate

theorem Progress.save (hflags : next.candidateStopped = false ∧ next.enablementReverted = false)
    (hroll : next.rolledBack = false) (hcomm : next.complete → ∀ change ∈ next.changes,
      disk.identity change.name = change.candidate)
    (hrecd : ∀ change ∈ next.changes, disk.identity change.name = change.prior ∨
      disk.identity change.name = change.candidate) :
    Inv none (disk.saved next) := by
  refine Inv.save (fun _ change hchg _ => hrecd change hchg) (fun hcomp _ => hcomm hcomp) ?_ ?_ ?_ ?_
  · intro _ hrolledBack
    cases hroll.symm.trans hrolledBack
  · intro hstop
    cases hflags.1.symm.trans hstop
  · intro hrevt
    cases hflags.2.symm.trans hrevt
  · rintro first ⟨⟩

theorem beginTransaction_spec (h : Inv none disk) (stage : Option String)
    (replacing previousActive previousEnabled : Bool) :
    Does false none (beginTransaction stage replacing previousActive previousEnabled)
      (fun journal after => Progress journal after) (fun _ => Inv none) disk := by
  have hE : ∀ _ : Error, Inv none disk := fun _ => h
  refine .andThen (load_spec h hE) ?_
  rintro loaded disk ⟨rfl, rfl, -⟩
  refine refuse_bind hE fun hnone => ?_
  simp only [Bool.or_eq_false_iff, Option.isSome_eq_false_iff, Option.isNone_iff_eq_none] at hnone
  refine system_bind h hE ?_
  refine .andThen (stageMode_spec h hE) ?_
  rintro mode disk rfl
  refine refuse_bind hE fun _ => ?_
  refine system_bind h hE ?_
  set journal : Journal := { stage := stage.getD "", replacing, previousActive, previousEnabled }
  have hsvd : Inv none (disk.saved journal) :=
    Progress.save ⟨rfl, rfl⟩ rfl (fun hc => by cases hc) (by rintro change ⟨⟩)
  refine .andThen ((save_spec h ⟨?_, ?_, fun hc => by cases hc⟩).mono (fun _ _ hq => hq) ?_) ?_
  · rintro change ⟨⟩
  · intro other hoth
    cases hnone.1.symm.trans hoth
  · rintro _ after (rfl | rfl)
    · exact h
    · exact hsvd
  · rintro _ after rfl
    refine .pure ⟨hsvd, rfl, ⟨rfl, rfl⟩, ⟨rfl, rfl⟩, nodup_nil, ?_⟩
    rintro change ⟨⟩

theorem backUp_spec (h : Inv none disk) (index : ℕ) (name : String) (prior : Identity) :
    Does false none (backUp index name prior) (fun _ after => after = disk)
      (fun _ => Inv none) disk := by
  have hE : ∀ _ : Error, Inv none disk := fun _ => h
  refine system_bind h hE ?_
  refine system_bind h hE ?_
  refine system_bind h hE ?_
  refine system_bind h hE ?_
  refine .andThen (R := fun _ after => after = disk)
    (quiet_spec h hE trivial fun _ _ hdoes => hdoes) ?_
  rintro found disk rfl
  refine refuse_bind hE fun _ => ?_
  exact system_spec h hE _

/-- The change is recorded, and the file is still as it was. -/
structure Intended (journal : Journal) (change : Change) (disk : Disk) :
    Prop where
  inv : Inv none disk
  journal_eq : disk.journal = some { journal with changes := journal.changes ++ [change] }
  fresh : change.name ∉ journal.changes.map Change.name
  prior : disk.identity change.name = change.prior
  candidate : change.candidate.all Identity.validate = true
  done : ∀ other ∈ journal.changes, disk.identity other.name = other.candidate

theorem intent_spec (h : Progress journal disk) (name : String)
    (candidate : Option Identity) :
    Does false none (intent journal name candidate)
      (fun next after => ∃ prior,
        next = { journal with changes := journal.changes ++ [⟨name, prior, candidate⟩] } ∧
        Intended journal ⟨name, prior, candidate⟩ after)
      (fun _ => Inv none) disk := by
  have hE : ∀ _ : Error, Inv none disk := fun _ => h.inv
  refine refuse_bind hE fun hc => ?_
  simp only [Bool.or_eq_false_iff, any_eq_false, beq_iff_eq] at hc
  obtain ⟨⟨-, hfrs⟩, hcand⟩ := hc
  refine system_bind h.inv hE ?_
  refine .andThen (existingIdentity_spec h.inv hE name) ?_
  rintro prior disk ⟨rfl, rfl⟩
  refine refuse_bind hE fun _ => ?_
  refine .andThen (R := fun _ after => after = disk) ?_ ?_
  · split
    · exact backUp_spec h.inv _ _ _
    · exact .pure rfl
  rintro _ disk rfl
  -- the new journal: the old changes are done, the new one has only been noted
  have hrecd : ∀ change ∈ journal.changes ++ [⟨name, disk.identity name, candidate⟩],
      disk.identity change.name = change.prior ∨
      disk.identity change.name = change.candidate := by
    intro change hchg
    rcases mem_append.mp hchg with hchg | hchg
    · exact .inr (h.done change hchg)
    · cases mem_singleton.mp hchg
      exact .inl rfl
  have hhonest : Honest disk { journal with
      changes := journal.changes ++ [⟨name, disk.identity name, candidate⟩] } := by
    intro change hchg hnew
    rcases mem_append.mp hchg with hchg | hchg
    · exact absurd hchg (hnew journal h.journal_eq)
    · cases mem_singleton.mp hchg
      rfl
  have hsvd : Inv none (disk.saved { journal with
      changes := journal.changes ++ [⟨name, disk.identity name, candidate⟩] }) := by
    refine Progress.save h.flags h.undecided.2 ?_ hrecd
    intro hcomp
    cases h.undecided.1.symm.trans hcomp
  have hkeeps : Keeps disk { journal with
      changes := journal.changes ++ [⟨name, disk.identity name, candidate⟩] } := by
    intro other hoth
    cases h.journal_eq.symm.trans hoth
    exact prefix_append _ _
  refine .andThen ((save_spec h.inv ⟨hhonest, hkeeps, fun hc => by cases hc⟩).mono
    (fun _ _ hq => hq) ?_) ?_
  · rintro _ after (rfl | rfl)
    · exact h.inv
    · exact hsvd
  · rintro _ after rfl
    refine .pure ⟨disk.identity name, rfl, hsvd, rfl, ?_, rfl, ?_, h.done⟩
    · intro hmem
      obtain ⟨change, hchg, hname⟩ := mem_map.mp hmem
      exact hfrs change hchg hname
    · cases candidate with
      | none => rfl
      | some => simpa using hcand

namespace Intended
variable {change : Change}

section
variable (h : Intended journal change disk)
include h

theorem guarded (hopen : journal.complete = false) : Guarded disk change.name :=
  ⟨_, change, h.journal_eq, hopen, mem_append_right _ mem_cons_self, rfl, .inl h.prior⟩

theorem put (hopen : journal.complete = false) {file : Option ServiceFile}
    (hfile : file.map ServiceFile.identity = change.candidate) :
    Inv none (disk.put change.name file) := by
  refine h.inv.put h.journal_eq hopen fun other hoth hname => .inr ?_
  rcases mem_append.mp hoth with hoth | hoth
  · exact absurd (hname ▸ mem_map_of_mem hoth) h.fresh
  · cases mem_singleton.mp hoth
    exact hfile

theorem progress (hprog : Progress journal last) (haft : Inv none after)
    (htouch : Touches change.name disk after)
    (hident : after.identity change.name = change.candidate) :
    Progress { journal with changes := journal.changes ++ [change] } after := by
  refine ⟨haft, htouch.journal.trans h.journal_eq, hprog.undecided, hprog.flags, ?_, ?_⟩
  · rw [map_append, map_singleton, ← concat_eq_append]
    exact hprog.names.concat h.fresh
  · intro other hoth
    rcases mem_append.mp hoth with hoth | hoth
    · have hne : other.name ≠ change.name := by
        intro heq
        exact h.fresh (heq ▸ mem_map_of_mem hoth)
      rw [htouch.others other.name hne]
      exact h.done other hoth
    · cases mem_singleton.mp hoth
      exact hident

end

end Intended

section
variable (h : Progress journal disk)
include h

theorem replace_spec (name source : String) (mode : ℕ) :
    Does false none (replace journal name source mode)
      (fun next after => Progress next after) (fun _ => Inv none) disk := by
  refine .andThen (R := fun _ after => after = disk)
    (quiet_spec h.inv (fun _ => h.inv) trivial fun _ _ hdoes => hdoes) ?_
  rintro found disk rfl
  refine .andThen (intent_spec h name _) ?_
  rintro _ after ⟨prior, rfl, hint⟩
  have hval : mode < 0o1000 := by
    have := hint.candidate
    simp only [Option.all_some, Identity.validate, Bool.and_eq_true, decide_eq_true_eq] at this
    exact this.1.2
  refine .andThen ((atomicCopy_spec hint.inv hval
    (fun _ => ⟨hint.guarded h.undecided.1, fun hc => by cases hc⟩)
    (fun file hfile => hint.put h.undecided.1 (by rw [Option.map_some, hfile])) _).mono
    (fun _ _ hq => hq) fun _ _ he => he.1) ?_
  rintro _ last ⟨hlast, htouch, hident⟩
  exact .pure (hint.progress h hlast htouch hident)

theorem remove_spec (name : String) :
    Does false none (remove journal name)
      (fun next after => Progress next after) (fun _ => Inv none) disk := by
  refine .andThen (intent_spec h name none) ?_
  rintro _ after ⟨prior, rfl, hint⟩
  refine .andThen (R := fun _ last => Inv none last ∧ Touches name after last ∧
    last.identity name = none) ?_ ?_
  · refine .andThen (R := fun found last => last = after ∧ found = (after.files name).isSome)
      (.perform ⟨hint.inv, trivial⟩ fun _ _ hdoes => ⟨hdoes.2, hdoes.1⟩) ?_
    rintro found last ⟨rfl, rfl⟩
    split_ifs with hfnd
    · exact (removeFile_spec hint.inv
        ⟨hint.guarded h.undecided.1, fun hc => by cases hc⟩
        (hint.put h.undecided.1 rfl)).mono (fun _ _ hq => hq) fun _ _ he => he.1
    · refine .pure ⟨hint.inv, .refl name _, ?_⟩
      have hnone : last.files name = none := by simpa using hfnd
      simp [Disk.identity, hnone]
  · rintro _ last ⟨hlast, htouch, hident⟩
    exact .pure (hint.progress h hlast htouch hident)

theorem flag_spec (hchgs : next.changes = journal.changes)
    (hcomp : next.complete = journal.complete) (hroll : next.rolledBack = journal.rolledBack)
    (hflags : next.candidateStopped = journal.candidateStopped ∧
      next.enablementReverted = journal.enablementReverted) :
    Does false none (do
        save next
        pure next)
      (fun result after => Progress result after) (fun _ => Inv none) disk := by
  have hdone : ∀ change ∈ next.changes, disk.identity change.name = change.candidate := by
    rw [hchgs]
    exact h.done
  have hundec := h.undecided
  rw [← hcomp, ← hroll] at hundec
  have hclear : next.candidateStopped = false ∧ next.enablementReverted = false := by
    rw [hflags.1, hflags.2]
    exact h.flags
  have hsvd : Inv none (disk.saved next) :=
    Progress.save hclear hundec.2 (fun _ => hdone) fun change hchg =>
      .inr (hdone change hchg)
  refine .andThen ((save_spec h.inv ⟨honest_of_eq h.journal_eq hchgs,
    keeps_of_eq h.journal_eq hchgs, fun hc => by cases hc⟩).mono (fun _ _ hq => hq) ?_) ?_
  · rintro _ after (rfl | rfl)
    · exact h.inv
    · exact hsvd
  · rintro _ after rfl
    exact .pure ⟨hsvd, rfl, hundec, hclear, hchgs ▸ h.names, hdone⟩

theorem step_spec (step : Step) :
    Does false none (step.code journal) (fun next after => Progress next after)
      (fun _ => Inv none) disk := by
  cases step with
  | replace name source mode => exact replace_spec h name source mode
  | remove name => exact remove_spec h name
  | beforeStart | beforeEnablement => exact flag_spec h rfl rfl rfl ⟨rfl, rfl⟩
  | command =>
    refine system_bind h.inv (fun _ => h.inv) ?_
    exact .pure h

theorem commit_spec :
    Does false none (commit journal) (fun _ => Inv none) (fun _ => Inv none) disk := by
  have hsvd : Inv none (disk.saved { journal with complete := true }) :=
    Progress.save h.flags h.undecided.2 (fun _ => h.done) fun change hchg =>
      .inr (h.done change hchg)
  have hbef : Before false none disk (.save { journal with complete := true }) :=
    ⟨honest_of_eq h.journal_eq rfl, keeps_of_eq h.journal_eq rfl, fun hc => by cases hc⟩
  refine .andThen ((save_spec h.inv hbef).mono (fun _ _ hq => hq) ?_) ?_
  · rintro _ after (rfl | rfl)
    · exact h.inv
    · exact hsvd
  · rintro _ after rfl
    exact (finishCommitted_spec hsvd rfl rfl).mono (fun _ _ hq => hq.1) fun _ _ he => he

theorem runSteps_spec (steps : List Step) :
    Does false none (runSteps steps journal) (fun _ => Inv none) (fun _ => Inv none) disk := by
  induction steps generalizing journal disk with
  | nil => exact commit_spec h
  | cons step _ ih => exact .andThen (step_spec h step) fun _ _ hnext => ih hnext

end

/-! ## Requests -/

theorem recoverRequest_spec (h : Inv given disk) :
    (Request.recover).code.Wp Disk.Does (Point recovering given) (fun _ => Inv given) disk := by
  refine Ensures.ignore ?_
  refine .andThen (R := fun _ after => Inv given after) (.perform ⟨h, trivial⟩ ?_) ?_
  · rintro _ after rfl
    exact h.logged fun _ => rfl
  · intro _ after haft
    exact (recover_spec haft).mono (fun _ _ hq => hq.1) fun _ _ he => he.1

theorem editRequest_spec (h : Inv given disk) (name : String) (file : Option ServiceFile) :
    (Request.edit name file).code.Wp Disk.Does (Point recovering given) (fun _ => Inv given)
      disk := by
  refine Ensures.ignore (.perform ⟨h, trivial⟩ ?_)
  rintro _ after rfl
  exact h.edit name file

/-- **Each request keeps the invariant.** -/
theorem serve_spec (h : Inv none disk) (request : Request) :
    request.code.Wp Disk.Does (Point false none) (fun _ => Inv none) disk := by
  cases request with
  | operate stage replacing previousActive previousEnabled steps =>
    refine Ensures.ignore ?_
    refine .andThen (beginTransaction_spec h stage replacing previousActive previousEnabled) ?_
    intro journal after hprog
    refine .andThen (R := fun _ => Inv none) (.attempt (runSteps_spec hprog steps)) ?_
    exact fun result last hlast => finishNoted_spec hlast result
  | finishOperation result => exact Ensures.ignore (finishNoted_spec h result)
  | recover => exact recoverRequest_spec h
  | edit name file => exact editRequest_spec h name file

end

/-! ## Atomic updates -/

/-- No update has begun. -/
def Disk.Fresh (disk : Disk) : Prop := disk.journal = none ∧ disk.log = []

end

/-- Every content is its own digest. -/
@[reducible]
def plainSha256 : Sha256 where
  Digest := Bytes
  decEq := inferInstance
  digest bytes := bytes

section
attribute [local instance] plainSha256

end

/-! ## Rollbacks -/

section
variable [Sha256]

/-- A process begins with the journal `given`, which the store accepts; what its files are is
    not known. -/
def Disk.Holds (given : Journal) (disk : Disk) : Prop :=
  disk.journal = some given ∧ given.accepted = true ∧
    disk.log = given.changes.map fun change => .edited change.name

theorem editedSince_edited (p : Journal → Bool) (changes : List Change) :
    editedSince p (changes.map fun change => .edited change.name) = changes.map Change.name := by
  induction changes with
  | nil => rfl
  | cons change _ ih => exact congrArg (change.name :: ·) ih

theorem Disk.Holds.inv {given : Journal} {disk : Disk} (h : disk.Holds given) :
    Inv (some given) disk := by
  obtain ⟨hjour, -, hlog⟩ := h
  have hedited : ∀ p, ∀ change ∈ given.changes, change.name ∈ editedSince p disk.log := by
    intro p change hchg
    rw [hlog, editedSince_edited]
    exact mem_map_of_mem hchg
  refine ⟨?_, ?_, ?_, ?_, ?_, ?_, ?_⟩ <;> intro j hj <;> cases hjour.symm.trans hj
  · exact .inr rfl
  · exact fun change hchg hnot => absurd (hedited _ change hchg) hnot
  · exact fun _ _ change hchg hnot => absurd (hedited _ change hchg) hnot
  · exact fun _ _ change hchg hnot => absurd (hedited _ change hchg) hnot
  · exact .inr
  · exact .inr
  · rintro first ⟨⟩
    rfl

/-- The helper only recovers; others may change files between its runs. -/
def Request.recovers : Request → Bool
  | .operate .. => false
  | _ => true

end

section
attribute [local instance] plainSha256

end

end Usque.Update
