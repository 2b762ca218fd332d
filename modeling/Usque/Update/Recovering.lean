/-
  Recovery keeps the invariant, whatever its calls answer, and decides only when everything
  is restored.
-/
import Usque.Update.Invariant

namespace Usque.Update
open Lib Fallible List

variable [Sha256]

/-- The judgement about code of the helper. -/
abbrev Does {α : Type} (recovering : Bool) (given : Option Journal) (x : UpdateCode α)
    (Q : α → Disk → Prop) (E : Error → Disk → Prop) (disk : Disk) : Prop :=
  Ensures Disk.Does (Point recovering given) x Q E disk

variable {failed : Bool} {expected : Identity} {name : String}

section
variable {given : Option Journal} {recovering : Bool} {disk after last : Disk}
  {E : Error → Disk → Prop} {journal next : Journal} {α : Type} {Q : α → Disk → Prop}

/-! ## Calls -/

section
variable (h : Inv given disk) (hE : ∀ e, E e disk)
include h hE

/-- A call that changes nothing, and before which nothing more has to hold. -/
theorem quiet_spec {op : UpdateOp} {result : op.Answer → Except Error α}
    (hbef : Before recovering given disk op)
    (hquiet : ∀ answer after, Disk.Does op disk answer after → after = disk) :
    Does recovering given (ExceptT.mk (Code.act op fun answer => Code.done (result answer)))
      (fun _ after => after = disk) E disk := by
  refine ⟨⟨h, hbef⟩, ?_⟩
  intro answer after hdoes
  obtain rfl := hquiet answer after hdoes
  rcases hresl : result answer with e | a
  · change Outcome _ _ (result answer) _
    rw [hresl]
    exact hE e
  · change Outcome _ _ (result answer) _
    rw [hresl]
    rfl

theorem system_spec (call : SystemCall) :
    Does recovering given (system call) (fun _ after => after = disk) E disk :=
  quiet_spec h hE trivial fun _ _ hdoes => hdoes

theorem system_bind {call : SystemCall} {f : Unit → UpdateCode α}
    (hf : Does recovering given (f ()) Q E disk) :
    Does recovering given (system call >>= f) Q E disk := by
  refine .andThen (system_spec h hE call) ?_
  rintro _ _ rfl
  exact hf

theorem stageMode_spec : Does recovering given stageMode (fun _ after => after = disk) E disk :=
  quiet_spec h hE trivial fun _ _ hdoes => hdoes

theorem read_spec (source : Source) (limit : ℕ) :
    Does recovering given (read source limit) (fun _ after => after = disk) E disk :=
  quiet_spec h hE trivial fun _ _ hdoes => hdoes

end

theorem refuse_bind (hE : ∀ e, E e disk) {c : Bool} {error : Error} {f : Unit → UpdateCode α}
    (hf : c = false → Does recovering given (f ()) Q E disk) :
    Does recovering given (refuse c error >>= f) Q E disk := by
  cases c with
  | true => exact hE error
  | false => exact hf rfl

theorem existingIdentity_spec (h : Inv given disk) (hE : ∀ e, E e disk) (name : String) :
    Does recovering given (existingIdentity name)
      (fun found after => after = disk ∧ found = disk.identity name) E disk := by
  refine ⟨⟨h, trivial⟩, ?_⟩
  rintro answer after ⟨rfl | ⟨e, rfl⟩, rfl⟩
  · exact ⟨rfl, rfl⟩
  · exact hE e

/-- `save`: a failure leaves the old journal or the new one. -/
theorem save_spec (h : Inv given disk) (hbef : Before recovering given disk (.save next)) :
    Does recovering given (save next) (fun _ after => after = disk.saved next)
      (fun _ after => after = disk ∨ after = disk.saved next) disk := by
  refine ⟨⟨h, hbef⟩, ?_⟩
  rintro (e | _) after hdoes
  · rcases hdoes with rfl | ⟨-, rfl⟩
    · exact .inr rfl
    · exact .inl rfl
  · rcases hdoes with rfl | ⟨⟨e, he⟩, -⟩
    · rfl
    · cases he

theorem load_spec (h : Inv given disk) (hE : ∀ e, E e disk) :
    Does recovering given load
      (fun loaded after => after = disk ∧ loaded = disk.journal ∧
        ∀ journal, loaded = some journal → journal.accepted) E disk := by
  refine .andThen (R := fun loaded after => after = disk ∧ loaded = disk.journal) ?_ ?_
  · refine ⟨⟨h, trivial⟩, ?_⟩
    rintro answer after ⟨rfl | ⟨e, rfl⟩, rfl⟩
    · exact ⟨rfl, rfl⟩
    · exact hE e
  rintro loaded disk ⟨rfl, rfl⟩
  split
  · rename_i hnone
    refine .pure ⟨rfl, hnone.symm, ?_⟩
    rintro journal ⟨⟩
  · rename_i journal hsome
    split_ifs with hacc
    · refine .pure ⟨rfl, hsome.symm, ?_⟩
      rintro _ ⟨⟩
      exact hacc
    · exact .throw (hE _)

/-! ## Restoring a file -/

/-- No other file has changed. -/
structure Touches (name : String) (disk after : Disk) : Prop where
  journal : after.journal = disk.journal
  log : after.log = disk.log
  others : ∀ other, other ≠ name → after.identity other = disk.identity other

theorem Touches.refl (name : String) (disk : Disk) : Touches name disk disk :=
  ⟨rfl, rfl, fun _ _ => rfl⟩

theorem touches_put (disk : Disk) (name : String) (file : Option ServiceFile) :
    Touches name disk (disk.put name file) :=
  ⟨rfl, rfl, fun _ hne => identity_put_ne hne disk file⟩

theorem identity_of_sameBytes {bytes : Bytes}
    (hsame : (Identity.mk bytes.length (Sha256.digest bytes) 0).sameBytes expected)
    (hmode : expected.mode < 0o1000) : ServiceFile.identity ⟨bytes, expected.mode⟩ = expected := by
  obtain ⟨size, sha256, mode⟩ := expected
  simp only [Identity.sameBytes, Bool.and_eq_true, beq_iff_eq] at hsame
  obtain ⟨rfl, rfl⟩ := hsame
  have hmask : mode &&& 0o777 = mode := by
    rw [Nat.and_two_pow_sub_one_eq_mod _ 9]
    exact Nat.mod_eq_of_lt hmode
  simp [ServiceFile.identity, hmask]

theorem atomicCopy_spec (h : Inv given disk) (hmode : expected.mode < 0o1000)
    (hbef : ∀ file, Before recovering given disk (.publish name file))
    (hinv : ∀ file, file.identity = expected → Inv given (disk.put name (some file)))
    (source : Source) :
    Does recovering given (atomicCopy source name expected)
      (fun _ after => Inv given after ∧ Touches name disk after ∧
        after.identity name = some expected)
      (fun _ after => Inv given after ∧ Touches name disk after) disk := by
  have hst : Inv given disk ∧ Touches name disk disk := ⟨h, .refl name disk⟩
  have hE : ∀ _ : Error, Inv given disk ∧ Touches name disk disk := fun _ => hst
  refine system_bind h hE ?_
  refine .andThen (read_spec h hE source _) ?_
  rintro bytes disk rfl
  refine system_bind h hE ?_
  refine refuse_bind hE fun hsame => ?_
  refine system_bind h hE ?_
  refine system_bind h hE ?_
  have hident := identity_of_sameBytes (by simpa using hsame) hmode
  have hput := hinv _ hident
  have htouch := touches_put disk name (some ⟨bytes, expected.mode⟩)
  refine .andThen (R := fun _ after => after = disk.put name (some ⟨bytes, expected.mode⟩)) ?_ ?_
  · refine ⟨⟨h, hbef _⟩, ?_⟩
    rintro answer after (⟨rfl, rfl⟩ | ⟨⟨e, rfl⟩, rfl⟩)
    · rfl
    · exact hst
  rintro _ after rfl
  refine (system_spec hput (fun _ => ⟨hput, htouch⟩) _).mono ?_ fun _ _ he => he
  rintro _ after rfl
  exact ⟨hput, htouch, by rw [identity_put, Option.map_some, hident]⟩

theorem removeFile_spec (h : Inv given disk)
    (hbef : Before recovering given disk (.removeFile name))
    (hinv : Inv given (disk.put name none)) :
    Does recovering given (do
        removeFile name
        system .syncDirectory)
      (fun _ after => Inv given after ∧ Touches name disk after ∧ after.identity name = none)
      (fun _ after => Inv given after ∧ Touches name disk after) disk := by
  have htouch := touches_put disk name none
  refine .andThen (R := fun _ after => after = disk.put name none) ?_ ?_
  · refine ⟨⟨h, hbef⟩, ?_⟩
    rintro answer after (⟨rfl, rfl⟩ | ⟨⟨e, rfl⟩, rfl⟩)
    · rfl
    · exact ⟨h, .refl name _⟩
  rintro _ after rfl
  refine (system_spec hinv (fun _ => ⟨hinv, htouch⟩) _).mono ?_ fun _ _ he => he
  rintro _ after rfl
  exact ⟨hinv, htouch, by rw [identity_put]; rfl⟩

/-! ## Restoring all files -/

/-- A recovery works with the journal. -/
structure Recovers (given : Option Journal) (journal : Journal) (disk : Disk) : Prop where
  inv : Inv given disk
  journal_eq : disk.journal = some journal
  undecided : journal.complete = false
  accepted : journal.accepted = true

/-- What the checks of `load` say about the changes. -/
theorem Journal.changes_of_accepted (h : journal.accepted) :
    (journal.changes.map Change.name).Nodup ∧
      ∀ change ∈ journal.changes, ∀ prior, change.prior = some prior → prior.mode < 0o1000 := by
  simp only [Journal.accepted, Bool.and_eq_true, all_eq_true, decide_eq_true_eq] at h
  obtain ⟨⟨-, hchgs⟩, hnodup⟩ := h
  refine ⟨hnodup, fun change hchg prior hprior => ?_⟩
  have hval := (hchgs change hchg).1.2
  simp only [hprior, Option.all_some, Identity.validate, Bool.and_eq_true,
    decide_eq_true_eq] at hval
  exact hval.1.2

theorem restoreChange_spec (h : Recovers given journal disk)
    (hqui : Quiesced given journal disk.log) {change : Change}
    (hchg : change ∈ journal.changes) (index : ℕ) :
    Does recovering given (restoreChange change index)
      (fun _ after => Inv given after ∧ Touches change.name disk after ∧
        after.identity change.name = change.prior)
      (fun _ after => Inv given after ∧ Touches change.name disk after) disk := by
  obtain ⟨hnodup, hmode⟩ := Journal.changes_of_accepted h.accepted
  -- a file may be put to its prior version
  have hput : ∀ file : Option ServiceFile, file.map ServiceFile.identity = change.prior →
      Inv given (disk.put change.name file) := by
    intro file hfile
    refine h.inv.put h.journal_eq h.undecided fun other hoth hname => .inl ?_
    rw [hfile, inj_on_of_nodup_map hnodup hoth hchg hname]
  have hst : Inv given disk ∧ Touches change.name disk disk := ⟨h.inv, .refl _ disk⟩
  refine .andThen (existingIdentity_spec h.inv (fun _ => hst) change.name) ?_
  rintro current disk ⟨rfl, rfl⟩
  split_ifs with hprior hcand
  · refine (system_spec h.inv (fun _ => hst) _).mono ?_ fun _ _ he => he
    rintro _ disk rfl
    exact ⟨h.inv, .refl _ disk, hprior⟩
  · exact .throw hst
  have hguarded : Guarded disk change.name ∧ (recovering →
      ∃ journal, disk.journal = some journal ∧ Quiesced given journal disk.log) :=
    ⟨⟨journal, change, h.journal_eq, h.undecided, hchg, rfl, .inr (not_not.mp hcand)⟩,
      fun _ => ⟨journal, h.journal_eq, hqui⟩⟩
  rcases hcase : change.prior with _ | prior
  · refine (removeFile_spec h.inv hguarded (hput none hcase.symm)).mono ?_ fun _ _ he => he
    rintro _ after ⟨hinv, htouch, hident⟩
    exact ⟨hinv, htouch, hident⟩
  · refine (atomicCopy_spec h.inv (hmode change hchg prior hcase) (fun _ => hguarded)
      (fun file hfile => hput (some file) ?_) _).mono ?_ fun _ _ he => he
    · rw [Option.map_some, hfile, hcase]
    · rintro _ after ⟨hinv, htouch, hident⟩
      exact ⟨hinv, htouch, hident⟩

/-- The loop over the changes: without a failure every file is at its prior version. -/
theorem restoreChanges_spec (h : Recovers given journal disk)
    (hqui : Quiesced given journal disk.log) {changes : List (Change × ℕ)}
    (hchgs : ∀ change ∈ changes, change.1 ∈ journal.changes)
    (hnodup : (changes.map fun change => change.1.name).Nodup) (failed : Bool) :
    Does recovering given (restoreChanges changes failed)
      (fun result after => Recovers given journal after ∧ after.log = disk.log ∧
        (∀ other ∉ changes.map fun change => change.1.name,
          after.identity other = disk.identity other) ∧
        (result = false → failed = false ∧
          ∀ change ∈ changes, after.identity change.1.name = change.1.prior))
      (fun _ _ => False) disk := by
  induction changes generalizing disk failed with
  | nil =>
    refine .pure ⟨h, rfl, fun _ _ => rfl, fun hresl => ⟨hresl, ?_⟩⟩
    rintro change ⟨⟩
  | cons change _ ih =>
    obtain ⟨change, index⟩ := change
    obtain ⟨hnotMem, hnodup⟩ := nodup_cons.mp hnodup
    have hchg := hchgs (change, index) mem_cons_self
    refine .andThen (R := fun result after => Inv given after ∧ Touches change.name disk after ∧
      (result.isOk → after.identity change.name = change.prior)) (.attempt ?_) ?_
    · refine (restoreChange_spec h hqui hchg index).mono ?_ ?_
      · exact fun _ after haft => ⟨haft.1, haft.2.1, fun _ => haft.2.2⟩
      · exact fun _ after haft => ⟨haft.1, haft.2, nofun⟩
    rintro restored after ⟨hinv, htouch, hrest⟩
    have haft : Recovers given journal after :=
      ⟨hinv, htouch.journal.trans h.journal_eq, h.undecided, h.accepted⟩
    refine (ih haft (htouch.log ▸ hqui)
      (fun other hoth => hchgs other (mem_cons_of_mem _ hoth)) hnodup _).mono ?_
      fun _ _ he => he
    rintro result last ⟨hlast, hlog, hoths, hresl⟩
    refine ⟨hlast, hlog.trans htouch.log, ?_, ?_⟩
    · intro other hoth
      rw [map_cons, mem_cons, not_or] at hoth
      exact (hoths other hoth.2).trans (htouch.others other hoth.1)
    · intro hfls
      obtain ⟨hfail, hfiles⟩ := hresl hfls
      simp only [Bool.or_eq_false_iff, Bool.not_eq_false'] at hfail
      refine ⟨hfail.1, forall_mem_cons.mpr ⟨?_, hfiles⟩⟩
      exact (hoths change.name hnotMem).trans (hrest hfail.2)

/-! ## The service -/

theorem Recovers.logged (h : Recovers given journal disk) (event : Event)
    (hedited : ∀ p, editedSince p (event :: disk.log) = editedSince p disk.log) :
    Recovers given journal (disk.logged event) :=
  ⟨h.inv.logged hedited, h.journal_eq, h.undecided, h.accepted⟩

theorem Recovers.reflag (h : Recovers given journal disk) (hchgs : next.changes = journal.changes)
    (hundec : next.complete = false) (hacc : next.accepted)
    (hstop : next.candidateStopped → .stopped true ∈ disk.log ∨ given.any (·.candidateStopped))
    (hrevt : next.enablementReverted →
      .enabled false true ∈ disk.log ∨ given.any (·.enablementReverted)) :
    Recovers given next (disk.saved next) := by
  refine ⟨Inv.save ?_ ?_ ?_ hstop hrevt (hchgs ▸ h.inv.kept journal h.journal_eq), rfl, hundec,
    hacc⟩
  · rw [hchgs]
    exact fun _ => h.inv.recorded journal h.journal_eq
  · intro hcomp
    cases hundec.symm.trans hcomp
  · intro hcomp
    cases hundec.symm.trans hcomp

theorem honest_of_eq (hjour : disk.journal = some journal)
    (hchgs : next.changes = journal.changes) : Honest disk next := by
  intro change hchg hnew
  rw [hchgs] at hchg
  exact absurd hchg (hnew journal hjour)

theorem keeps_of_eq (hjour : disk.journal = some journal)
    (hchgs : next.changes = journal.changes) : Keeps disk next := by
  intro other hoth
  cases hjour.symm.trans hoth
  rw [hchgs]

theorem reflag_spec (h : Recovers given journal disk) (hnext : Recovers given next (disk.saved next))
    (hchgs : next.changes = journal.changes) :
    Does recovering given (do
        save next
        pure next)
      (fun result after => result = next ∧ Recovers given next after ∧ Later disk after)
      (fun _ after => Inv given after ∧ Later disk after) disk := by
  have hlat : Later disk (disk.saved next) := .cons rfl rfl
  have hbef : Before recovering given disk (.save next) :=
    ⟨honest_of_eq h.journal_eq hchgs, keeps_of_eq h.journal_eq hchgs, fun _ =>
      ⟨hnext.inv.kept next rfl, fun hcomp => by cases hnext.undecided.symm.trans hcomp⟩⟩
  refine .andThen ((save_spec h.inv hbef).mono (fun _ _ hq => hq) ?_) ?_
  · rintro _ after (rfl | rfl)
    · exact ⟨h.inv, .refl _⟩
    · exact ⟨hnext.inv, hlat⟩
  · rintro _ after rfl
    exact .pure ⟨rfl, hnext, hlat⟩

theorem orElseError_spec {x : UpdateCode Unit} {Q : Unit → Disk → Prop} {error : Error}
    (h : Does recovering given x Q (fun _ => E error) disk) :
    Does recovering given (orElseError error x) Q E disk := by
  refine .andThen (.attempt ?_) fun _ _ hresl => hresl
  exact h.mono (fun _ _ hresl => .pure hresl) fun _ _ hresl => .throw hresl

theorem stopFirst_spec (h : Recovers given journal disk) :
    Does recovering given (stopFirst journal)
      (fun result after =>
        (result = journal ∨ result = { journal with candidateStopped := true }) ∧
        (journal.startAttempted → result.candidateStopped) ∧
        Recovers given result after ∧ Later disk after)
      (fun _ after => Inv given after ∧ Later disk after) disk := by
  unfold stopFirst
  split_ifs with hc
  · simp only [Bool.and_eq_true, Bool.not_eq_true'] at hc
    refine .andThen (R := fun _ after => after = disk.logged (.stopped true))
      (orElseError_spec ?_) ?_
    · refine ⟨⟨h.inv, journal, h.journal_eq, hc.2⟩, ?_⟩
      rintro (e | _) after rfl
      · exact ⟨h.inv.logged fun _ => rfl, .cons rfl rfl⟩
      · rfl
    rintro _ after rfl
    have hlogged : Later disk (disk.logged (.stopped true)) := .cons rfl rfl
    have haft := h.logged (.stopped true) fun _ => rfl
    have hnext : Recovers given { journal with candidateStopped := true } (.saved _ _) :=
      haft.reflag rfl h.undecided h.accepted (fun _ => .inl mem_cons_self)
        (haft.inv.reverted journal haft.journal_eq)
    refine (reflag_spec haft hnext rfl).mono ?_ ?_
    · rintro result last ⟨rfl, hlast, hlat⟩
      exact ⟨.inr rfl, fun _ => rfl, hlast, hlogged.trans hlat⟩
    · rintro _ last ⟨hlast, hlat⟩
      exact ⟨hlast, hlogged.trans hlat⟩
  · refine .pure ⟨.inl rfl, fun hst => ?_, h, .refl disk⟩
    simpa [hst] using hc

theorem disableFirst_spec (h : Recovers given journal disk) :
    Does recovering given (disableFirst journal)
      (fun result after =>
        (result = journal ∨ result = { journal with enablementReverted := true }) ∧
        (journal.enablementAttempted → journal.previousEnabled = false →
          result.enablementReverted) ∧
        Recovers given result after ∧ Later disk after)
      (fun _ after => Inv given after ∧ Later disk after) disk := by
  unfold disableFirst
  split_ifs with hc
  · refine .andThen (R := fun _ after => after = disk.logged (.enabled false true))
      (orElseError_spec ?_) ?_
    · refine ⟨⟨h.inv, trivial⟩, ?_⟩
      rintro (e | _) after rfl
      · exact ⟨h.inv.logged fun _ => rfl, .cons rfl rfl⟩
      · rfl
    rintro _ after rfl
    have hlogged : Later disk (disk.logged (.enabled false true)) := .cons rfl rfl
    have haft := h.logged (.enabled false true) fun _ => rfl
    have hnext : Recovers given { journal with enablementReverted := true } (.saved _ _) :=
      haft.reflag rfl h.undecided h.accepted (haft.inv.stopped journal haft.journal_eq)
        (fun _ => .inl mem_cons_self)
    refine (reflag_spec haft hnext rfl).mono ?_ ?_
    · rintro result last ⟨rfl, hlast, hlat⟩
      exact ⟨.inr rfl, fun _ _ => rfl, hlast, hlogged.trans hlat⟩
    · rintro _ last ⟨hlast, hlat⟩
      exact ⟨hlast, hlogged.trans hlat⟩
  · refine .pure ⟨.inl rfl, fun hatt hprev => ?_, h, .refl disk⟩
    simpa [hatt, hprev] using hc

/-- The state of a recovery whose files are restored, up to the flag of a failure. -/
structure Restoring (given : Option Journal) (journal : Journal) (failed : Bool) (disk : Disk) :
    Prop where
  recovers : Recovers given journal disk
  quiesced : Quiesced given journal disk.log
  files : failed = false → ∀ change ∈ journal.changes, disk.identity change.name = change.prior

theorem Quiesced.later (h : Quiesced given journal disk.log) (hlat : Later disk after) :
    Quiesced given journal after.log :=
  ⟨fun hst => (h.stopped hst).imp_right (Or.imp_left hlat.mem),
    fun hatt hprev => (h.reverted hatt hprev).imp_right (Or.imp_left hlat.mem)⟩

theorem Restoring.logged (h : Restoring given journal failed disk) (event : Event)
    (hedited : ∀ p, editedSince p (event :: disk.log) = editedSince p disk.log)
    (hinner : event.isInner) (ok : Bool) :
    Restoring given journal (failed || !ok) (disk.logged event) := by
  refine ⟨h.recovers.logged event hedited, h.quiesced.later (.cons hinner rfl), ?_⟩
  intro hfail
  exact h.files (Bool.or_eq_false_iff.mp hfail).1

/-- The flags that are set say what has been done. -/
theorem Recovers.quiesced (h : Recovers given journal disk)
    (hst : journal.startAttempted → journal.candidateStopped)
    (hdisable : journal.enablementAttempted → journal.previousEnabled = false →
      journal.enablementReverted) : Quiesced given journal disk.log := by
  constructor
  · intro hatt
    exact ⟨hst hatt, h.inv.stopped journal h.journal_eq (hst hatt)⟩
  · intro hatt hprev
    have hrevt := hdisable hatt hprev
    exact ⟨hrevt, h.inv.reverted journal h.journal_eq hrevt⟩

/-- The loop of `recover`, over the changes from the last one to the first. -/
theorem restoreAll_spec (h : Recovers given journal disk) (hqui : Quiesced given journal disk.log) :
    Does recovering given (restoreChanges journal.changes.zipIdx.reverse false)
      (fun failed after => Restoring given journal failed after ∧ after.log = disk.log) E disk := by
  have hmap := zipIdx_map_fst 0 journal.changes
  have hchgs : ∀ change ∈ journal.changes.zipIdx.reverse, change.1 ∈ journal.changes := by
    intro change hchg
    exact fst_mem_of_mem_zipIdx (mem_reverse.mp hchg)
  have hnodup : (journal.changes.zipIdx.reverse.map fun change => change.1.name).Nodup := by
    have hnames := (Journal.changes_of_accepted h.accepted).1
    rw [← hmap, map_map] at hnames
    rw [map_reverse, nodup_reverse]
    exact hnames
  refine (restoreChanges_spec h hqui hchgs hnodup false).mono ?_ fun _ _ he => he.elim
  rintro failed after ⟨haft, hlog, -, hfiles⟩
  refine ⟨⟨haft, hlog ▸ hqui, fun hfail change hchg => ?_⟩, hlog⟩
  rw [← hmap] at hchg
  obtain ⟨indexed, hindexed, rfl⟩ := mem_map.mp hchg
  exact (hfiles hfail).2 indexed (mem_reverse.mpr hindexed)

section
variable (h : Restoring given journal failed disk)
include h

theorem reload_spec :
    Does recovering given (attempt reload)
      (fun result after => Restoring given journal (failed || !result.isOk) after ∧
        Later disk after ∧ (result.isOk → .reloaded true ∈ thisCall after.log)) E disk := by
  refine .attempt ⟨⟨h.recovers.inv, trivial⟩, ?_⟩
  rintro (e | _) after rfl
  · exact ⟨h.logged _ (fun _ => rfl) rfl false, .cons rfl rfl, nofun⟩
  · exact ⟨h.logged _ (fun _ => rfl) rfl true, .cons rfl rfl, fun _ => mem_cons_self⟩

theorem enableAgain_spec :
    Does recovering given (enableAgain journal failed)
      (fun result after => Restoring given journal result after ∧ Later disk after ∧
        (result = false → failed = false ∧ (journal.enablementAttempted →
          journal.previousEnabled → .enabled true true ∈ thisCall after.log))) E disk := by
  unfold enableAgain
  split_ifs with hc
  · refine .andThen (R := fun result after =>
      Restoring given journal (failed || !result.isOk) after ∧ Later disk after ∧
        (result.isOk → .enabled true true ∈ thisCall after.log)) ?_ ?_
    · refine .attempt ⟨⟨h.recovers.inv, trivial⟩, ?_⟩
      rintro (e | _) after rfl
      · exact ⟨h.logged _ (fun _ => rfl) rfl false, .cons rfl rfl, nofun⟩
      · exact ⟨h.logged _ (fun _ => rfl) rfl true, .cons rfl rfl, fun _ => mem_cons_self⟩
    rintro result after ⟨haft, hlat, henabled⟩
    refine .pure ⟨haft, hlat, fun hfls => ?_⟩
    simp only [Bool.or_eq_false_iff, Bool.not_eq_false'] at hfls
    exact ⟨hfls.1, fun _ _ => henabled hfls.2⟩
  · refine .pure ⟨h, .refl disk, fun hfls => ⟨hfls, fun hatt hprev => ?_⟩⟩
    simp [hatt, hprev] at hc

theorem startAgain_spec (hrdy : failed = false → Restored journal disk) :
    Does recovering given (startAgain journal failed)
      (fun result after => Restoring given journal result after ∧ Later disk after ∧
        (result = false → failed = false ∧ (journal.previousActive →
          .started true ∈ thisCall after.log))) E disk := by
  unfold startAgain
  split_ifs with hc
  · simp only [Bool.and_eq_true, Bool.not_eq_true'] at hc
    refine .andThen (R := fun result after =>
      Restoring given journal (failed || !result.isOk) after ∧ Later disk after ∧
        (result.isOk → .started true ∈ thisCall after.log)) ?_ ?_
    · refine .attempt ⟨⟨h.recovers.inv, journal, h.recovers.journal_eq, hrdy hc.1⟩, ?_⟩
      rintro (e | _) after rfl
      · exact ⟨h.logged _ (fun _ => rfl) rfl false, .cons rfl rfl, nofun⟩
      · exact ⟨h.logged _ (fun _ => rfl) rfl true, .cons rfl rfl, fun _ => mem_cons_self⟩
    rintro result after ⟨haft, hlat, hst⟩
    refine .pure ⟨haft, hlat, fun hfls => ?_⟩
    simp only [Bool.or_eq_false_iff, Bool.not_eq_false'] at hfls
    exact ⟨hfls.1, fun _ => hst hfls.2⟩
  · refine .pure ⟨h, .refl disk, fun hfls => ⟨hfls, fun hact => ?_⟩⟩
    simp [hfls, hact] at hc

end

/-! ## The decision -/

def Removed (disk after : Disk) : Prop := after = disk ∨ after = { disk with journal := none }

theorem removeStage_spec (h : Inv given disk) (hE : ∀ e, E e disk) :
    Does recovering given removeStage (fun _ after => after = disk) E disk := by
  refine .andThen (R := fun _ after => after = disk) (.perform ⟨h, trivial⟩ fun _ _ hdoes => hdoes) ?_
  rintro present disk rfl
  split_ifs
  · refine system_bind h hE ?_
    refine .andThen (stageMode_spec h hE) ?_
    rintro mode disk rfl
    refine refuse_bind hE fun _ => ?_
    exact system_spec h hE _
  · exact .pure rfl

theorem finishCommitted_spec (h : Inv given disk) (hjour : disk.journal = some journal)
    (hcomp : journal.complete = true) :
    Does recovering given finishCommitted
      (fun _ after => Inv given after ∧ Removed disk after) E disk := by
  have hst : Inv given disk ∧ Removed disk disk := ⟨h, .inl rfl⟩
  refine .andThen (R := fun _ after => Inv given after ∧ Removed disk after) (.attempt ?_)
    fun _ _ haft => .pure haft
  refine .andThen (removeStage_spec h fun _ => hst) ?_
  rintro _ disk rfl
  refine .andThen (R := fun _ after => Inv given after ∧ Removed disk after) ?_ ?_
  · refine ⟨⟨h, journal, hjour, hcomp⟩, ?_⟩
    rintro answer after (⟨rfl, rfl⟩ | ⟨⟨e, rfl⟩, rfl⟩)
    · exact ⟨.of_none rfl, .inr rfl⟩
    · exact hst
  intro _ after haft
  refine (system_spec haft.1 (fun _ => haft) _).mono ?_ fun _ _ he => he
  rintro _ after rfl
  exact haft

structure Reports (recovery : Recovery) (disk after : Disk) : Prop where
  reported : ∀ other, .reported other ∈ thisCall after.log ↔
    other = recovery ∨ .reported other ∈ thisCall disk.log
  called : callSucceeded after.log = callSucceeded disk.log

theorem reports_logged (hlat : Later disk after) (recovery : Recovery) :
    Reports recovery disk (after.logged (.reported recovery)) := by
  refine ⟨fun other => ?_, hlat.callSucceeded_eq⟩
  rw [← hlat.reported other]
  change Event.reported other ∈ Event.reported recovery :: thisCall after.log ↔ _
  simp

theorem report_spec (h : Inv given after) {recovery : Recovery} {changes : List Change}
    (hbef : Before recovering given after (.report recovery changes)) (hlat : Later disk after) :
    Does recovering given (do
        perform (UpdateOp.report recovery changes)
        pure recovery)
      (fun result last => Inv given last ∧ Reports result disk last) E after := by
  refine .andThen (R := fun _ last => last = after.logged (.reported recovery))
    (.perform ⟨h, hbef⟩ fun _ _ hdoes => hdoes) ?_
  rintro _ last rfl
  exact .pure ⟨h.logged fun _ => rfl, reports_logged hlat recovery⟩

theorem commit_rollback_spec (h : Recovers given journal disk)
    (hroll : RolledBack given { journal with rolledBack := true, complete := true } disk) :
    Does recovering given (commit { journal with rolledBack := true })
      (fun _ after => Inv given after ∧ Removed
        (disk.saved { journal with rolledBack := true, complete := true }) after)
      (fun _ after => Inv given after ∧ Later disk after) disk := by
  have hsvd : Inv given (disk.saved { journal with rolledBack := true, complete := true }) := by
    refine Inv.save (fun _ => h.inv.recorded journal h.journal_eq) ?_ ?_
      (h.inv.stopped journal h.journal_eq) (h.inv.reverted journal h.journal_eq)
      (h.inv.kept journal h.journal_eq)
    · rintro - ⟨⟩
    · exact fun _ _ => hroll.restored.files
  have hbef : Before recovering given disk
      (.save { journal with rolledBack := true, complete := true }) :=
    ⟨honest_of_eq h.journal_eq rfl, keeps_of_eq h.journal_eq rfl, fun _ =>
      ⟨h.inv.kept journal h.journal_eq, fun _ => ⟨rfl, hroll⟩⟩⟩
  refine .andThen ((save_spec h.inv hbef).mono (fun _ _ hq => hq) ?_) ?_
  · rintro _ after (rfl | rfl)
    · exact ⟨h.inv, .refl _⟩
    · exact ⟨hsvd, .cons rfl rfl⟩
  · rintro _ after rfl
    exact finishCommitted_spec hsvd rfl rfl

theorem removed_later (h : Removed disk after) : Later disk after := by
  rcases h with rfl | rfl
  · exact .refl _
  · exact .of_eq rfl

theorem rollBack_spec (h : Recovers given journal disk) :
    Does recovering given (rollBack journal)
      (fun result after => Inv given after ∧ Reports result disk after)
      (fun _ after => Inv given after ∧ Later disk after) disk := by
  have hE : ∀ _ : Error, Inv given disk ∧ Later disk disk := fun _ => ⟨h.inv, .refl disk⟩
  refine system_bind h.inv hE ?_
  refine .andThen (stageMode_spec h.inv hE) ?_
  rintro mode disk rfl
  refine refuse_bind hE fun _ => ?_
  refine .andThen (stopFirst_spec h) ?_
  rintro stopped after ⟨hstopped, hstop, haft, hlat⟩
  refine .andThen ((disableFirst_spec haft).mono (fun _ _ hq => hq) ?_) ?_
  · exact fun _ last hlast => ⟨hlast.1, hlat.trans hlast.2⟩
  rintro current last ⟨hcur, hrevert, hlast, hlat'⟩
  have hlat := hlat.trans hlat'
  have hst : current.startAttempted → current.candidateStopped := by
    rcases hcur with rfl | rfl <;> rcases hstopped with rfl | rfl <;> exact hstop
  have hdisable : current.enablementAttempted → current.previousEnabled = false →
      current.enablementReverted := by
    rcases hcur with rfl | rfl <;> exact hrevert
  refine .andThen (restoreAll_spec hlast (hlast.quiesced hst hdisable)) ?_
  rintro failed disk1 ⟨hrest, hlog⟩
  have hlat := hlat.trans (.of_eq hlog)
  refine .andThen (reload_spec hrest) ?_
  rintro reloaded disk2 ⟨h2, hlat2, hreloaded⟩
  refine .andThen (enableAgain_spec h2) ?_
  rintro failed' disk3 ⟨h3, hlat3, henabled⟩
  have hrdy : failed' = false → Restored current disk3 := by
    intro hfls
    obtain ⟨hor, henabled⟩ := henabled hfls
    simp only [Bool.or_eq_false_iff, Bool.not_eq_false'] at hor
    exact ⟨h3.files hfls, hlat3.mem_thisCall (hreloaded hor.2), henabled⟩
  refine .andThen (startAgain_spec h3 hrdy) ?_
  rintro failed'' disk4 ⟨h4, hlat4, hstarted⟩
  have hlat := ((hlat.trans hlat2).trans hlat3).trans hlat4
  refine refuse_bind (fun _ => ⟨h4.recovers.inv, hlat⟩) ?_
  rintro rfl
  obtain ⟨hfls, hstarted⟩ := hstarted rfl
  have hrestored := hrdy hfls
  have hroll : RolledBack given { current with rolledBack := true, complete := true } disk4 :=
    ⟨⟨h4.files rfl, hlat4.mem_thisCall hrestored.reloaded,
      fun hatt hprev => hlat4.mem_thisCall (hrestored.enabled hatt hprev)⟩,
      ⟨h4.quiesced.stopped, h4.quiesced.reverted⟩, hstarted⟩
  refine .andThen ((commit_rollback_spec h4.recovers hroll).mono (fun _ _ hq => hq) ?_) ?_
  · exact fun _ after haft => ⟨haft.1, hlat.trans haft.2⟩
  rintro _ disk5 ⟨h5, hrem⟩
  have hlog5 : disk5.log = .saved { current with rolledBack := true, complete := true } ::
      disk4.log := by
    rcases hrem with rfl | rfl <;> rfl
  have hfiles5 : ∀ name, disk5.identity name = disk4.identity name := by
    rcases hrem with rfl | rfl <;> exact fun _ => rfl
  refine report_spec h5 ⟨h4.recovers.inv.kept current h4.recovers.journal_eq, ⟨{ current with rolledBack := true, complete := true }, .inl ?_, rfl, rfl,
    rfl⟩, ?_⟩ (hlat.trans (.cons rfl hlog5))
  · rw [hlog5]
    exact mem_cons_self
  · intro change hchg _
    rw [hfiles5]
    exact h4.files rfl change hchg

/-- **A recovery keeps the invariant**, and reports what it returns. -/
theorem recover_spec (h : Inv given disk) :
    Does recovering given recover (fun result after => Inv given after ∧ Reports result disk after)
      (fun _ after => Inv given after ∧ Later disk after) disk := by
  have hE : ∀ _ : Error, Inv given disk ∧ Later disk disk := fun _ => ⟨h, .refl disk⟩
  refine .andThen (load_spec h hE) ?_
  rintro loaded disk ⟨rfl, hloaded, hacc⟩
  rcases loaded with _ | journal
  · exact report_spec h trivial (.refl _)
  dsimp only
  split_ifs with hcomp
  · refine system_bind h hE ?_
    refine .andThen (finishCommitted_spec h hloaded.symm hcomp) ?_
    rintro _ after ⟨haft, hrem⟩
    have hlat := removed_later hrem
    have hfiles : ∀ name, after.identity name = disk.identity name := by
      rcases hrem with rfl | rfl <;> exact fun _ => rfl
    have hlog : after.log = disk.log := by rcases hrem with rfl | rfl <;> rfl
    have hlate : after.editedLate = disk.editedLate := by
      unfold Disk.editedLate
      rw [hlog]
    have hdecided : Decided given after journal.rolledBack journal.changes :=
      ⟨journal, hlog ▸ h.saved journal hloaded.symm, hcomp, rfl, rfl⟩
    refine report_spec haft ?_ hlat
    unfold Journal.decision
    rcases hroll : journal.rolledBack with _ | _
    · refine ⟨hroll ▸ hdecided, fun change hchg hnot => ?_⟩
      rw [hfiles]
      rw [hlate] at hnot
      exact h.committed journal hloaded.symm hcomp hroll change hchg hnot
    · refine ⟨h.kept journal hloaded.symm, hroll ▸ hdecided, fun change hchg hnot => ?_⟩
      rw [hfiles]
      rw [hlate] at hnot
      exact h.rolledBack journal hloaded.symm hcomp hroll change hchg hnot
  · exact rollBack_spec ⟨h, hloaded.symm, by simpa using hcomp, hacc journal rfl⟩

/-- `finish_operation` succeeds if the operation did or the recovery found a commit. -/
theorem finishNoted_spec (h : Inv given disk) (result : Except Error Unit) :
    Does recovering given (finishNoted result) (fun _ => Inv given) (fun _ => Inv given) disk := by
  refine .andThen (R := fun _ after => after = disk.logged (.called result.isOk))
    (.perform ⟨h, trivial⟩ fun _ _ hdoes => hdoes) ?_
  rintro _ after rfl
  have hcalled : Inv given (disk.logged (.called result.isOk)) := h.logged fun _ => rfl
  have hnone : ∀ recovery, .reported recovery ∉ thisCall (disk.logged (.called result.isOk)).log := by
    rintro recovery ⟨⟩
  refine .andThen (R := fun outcome after => Inv given after ∧ (outcome.isOk ↔
    callSucceeded after.log ∨ .reported .committed ∈ thisCall after.log)) (.attempt ?_) ?_
  · rcases result with e | _
    · refine .andThen (R := fun recovery after => Inv given after ∧
        callSucceeded after.log = false ∧
        (.reported .committed ∈ thisCall after.log ↔ recovery = .ok .committed))
        (.attempt ((recover_spec hcalled).mono ?_ ?_)) ?_
      · rintro recovery after ⟨haft, hreports⟩
        refine ⟨haft, hreports.called, ?_⟩
        rw [hreports.reported]
        simp [hnone, eq_comm]
      · rintro e after ⟨haft, hlat⟩
        refine ⟨haft, hlat.callSucceeded_eq, ?_⟩
        rw [hlat.reported]
        simp [hnone]
      rintro recovery after ⟨haft, hsucc, hrep⟩
      have hthrow : recovery ≠ .ok .committed → ∀ error : Error, Inv given after ∧
          ((Except.error error : Except Error Unit).isOk ↔
            callSucceeded after.log ∨ .reported .committed ∈ thisCall after.log) := by
        intro hne error
        refine ⟨haft, nofun, ?_⟩
        rintro (hc | hc)
        · cases hsucc.symm.trans hc
        · exact absurd (hrep.mp hc) hne
      rcases recovery with e | _ | _ | _
      · exact .throw (hthrow (by simp) _)
      · exact .throw (hthrow (by simp) _)
      · exact .pure ⟨haft, fun _ => .inr (hrep.mpr rfl), fun _ => rfl⟩
      · exact .throw (hthrow (by simp) _)
    · exact .pure ⟨hcalled, fun _ => .inl rfl, fun _ => rfl⟩
  rintro outcome after ⟨haft, hiff⟩
  refine .perform ⟨haft, hiff⟩ ?_
  rintro _ last rfl
  exact haft.logged fun _ => rfl

end

end Usque.Update
