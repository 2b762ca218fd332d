/-
  What the coordinator of the Linux agent keeps while it restores: the rules for its
  calls, the loop over the records, and `recover`.
-/
import Usque.Linux.Sound

namespace Usque.Linux
open List Journal
open Agent (ValidatedTunnelPlan)
open Lib Fallible World

variable {log : List NativeCall}

section
variable {α : Type} {guarded : Prop} {allowed : World → Resources → Prop}
  {journal next : Journal} {world : World} {Q : α → World → Prop} {E : IoError → World → Prop}

/-- A code that keeps the invariant and ends in `Q` unless it fails. -/
abbrev Holds (guarded : Prop) (allowed : World → Resources → Prop) (x : LinuxCode α)
    (Q : α → World → Prop) (world : World) : Prop :=
  Ensures Does (Point guarded allowed) x Q (fun _ => Inv guarded) world

abbrev Sustains (guarded : Prop) (allowed : World → Resources → Prop) (x : LinuxCode α)
    (world : World) : Prop :=
  Holds guarded allowed x (fun _ => Inv guarded) world

/-! ## Calls -/

theorem state_inv (h : Inv guarded world) {f : Coordinator → LinuxCode α}
    (hf : Ensures Does (Point guarded allowed) (f world.coordinator) Q E world) :
    Ensures Does (Point guarded allowed) (state >>= f) Q E world := by
  refine .andThen (R := fun self w => self = world.coordinator ∧ w = world) ?_ ?_
  · exact .perform (h.point (by rintro _ _ ⟨⟩)) fun answer after hdoes => hdoes
  · rintro self w ⟨rfl, rfl⟩
    exact hf

theorem state_at (h : At guarded journal world) {f : Coordinator → LinuxCode α}
    (hf : Ensures Does (Point guarded allowed) (f ⟨journal, false⟩) Q E world) :
    Ensures Does (Point guarded allowed) (state >>= f) Q E world := by
  refine state_inv h.inv ?_
  rwa [h.coordinator]

theorem deny_bind {c : Bool} {message : String} {f : Unit → LinuxCode α} (h : E (.denied message) world)
    (hf : c = false → Ensures Does (Point guarded allowed) (f ()) Q E world) :
    Ensures Does (Point guarded allowed) (deny c message >>= f) Q E world := by
  cases c with
  | true => exact h
  | false => exact hf rfl

theorem wrapped_of {stage : FailureStage} {x : LinuxCode α}
    (h : Ensures Does (Point guarded allowed) x Q (fun e => E (.wrap stage e)) world) :
    Ensures Does (Point guarded allowed) (wrapped stage x) Q E world := by
  refine .andThen (.attempt ?_) fun _ _ hr => hr
  exact h.mono (fun _ _ hr => .pure hr) fun _ _ hr => .throw hr

theorem persist_inv (h : Inv guarded world) (hnext : next.Valid → Sound guarded world.log next) :
    Ensures Does (Point guarded allowed) (persist next)
      (fun _ w => Inv guarded w ∧ w.log = world.log)
      (fun _ w => Inv guarded w ∧ w.journal = world.journal ∧ w.log = world.log) world := by
  refine ⟨h.point (by rintro _ _ ⟨⟩), ?_⟩
  intro answer after hdoes
  change Persists world next answer after at hdoes
  unfold Persists at hdoes
  rcases hsave : next.save with e | saved
  · rw [hsave] at hdoes
    obtain ⟨rfl, rfl⟩ := hdoes
    exact ⟨⟨h.memory, h.disk, nofun⟩, rfl, rfl⟩
  · rw [hsave] at hdoes
    have hsnd : Sound guarded world.log saved := by
      unfold save at hsave
      rw [seqOk] at hsave
      obtain ⟨hval, hsave⟩ := hsave
      split_ifs at hsave
      cases hsave
      exact (hnext (valid_of_validate hval)).generation _
    rcases hdoes with ⟨rfl, rfl⟩ | ⟨⟨e, rfl⟩, disk, hdisk, rfl⟩
    · exact ⟨⟨hsnd, hsnd, fun _ => rfl⟩, rfl⟩
    · refine ⟨⟨h.memory, ?_, nofun⟩, rfl, rfl⟩
      rcases hdisk with rfl | rfl
      · exact h.disk
      · exact hsnd

theorem persist_at (h : At guarded journal world)
    (hnext : next.Valid → Sound guarded world.log next) :
    Ensures Does (Point guarded allowed) (persist next)
      (fun _ w => next.Valid ∧ At guarded { next with generation := next.generation + 1 } w ∧
        w.log = world.log)
      (fun _ w => Inv guarded w ∧ w.journal = journal ∧ w.log = world.log) world := by
  refine ⟨h.inv.point (by rintro _ _ ⟨⟩), ?_⟩
  intro answer after hdoes
  change Persists world next answer after at hdoes
  have hinv : Ensures Does (Point guarded allowed) (persist next) _ _ world :=
    persist_inv h.inv hnext
  have herror := hinv.2 answer after hdoes
  unfold Persists at hdoes
  rcases answer with e | _
  · obtain ⟨hinv, hjour, hlog⟩ := herror
    exact ⟨hinv, hjour.trans h.journal_eq, hlog⟩
  rcases hsave : next.save with e | saved
  · rw [hsave] at hdoes
    cases hdoes.1
  rw [hsave] at hdoes
  rcases hdoes with ⟨-, rfl⟩ | ⟨⟨e, he⟩, -⟩
  · unfold save at hsave
    rw [seqOk] at hsave
    obtain ⟨hval, hsave⟩ := hsave
    split_ifs at hsave
    cases hsave
    have hval := valid_of_validate hval
    refine ⟨hval, ⟨?_, rfl, (hnext hval).generation _⟩, rfl⟩
    simp [h.coordinator]
  · cases he

section
variable (h : Inv guarded world)
include h

/-- A call that changes neither the host nor the journal. -/
theorem quiet_of {op : LinuxOp} {k : op.Answer → Code LinuxOp LinuxOp.Answer (Except IoError α)}
    (hop : ∀ resources plan, op ≠ .restore .protection resources plan)
    (hquiet : ∀ answer after, Does op world answer after → after = world)
    (hk : ∀ answer, (k answer).Wp Does (Point guarded allowed) (Outcome Q E) world) :
    (Code.act op k).Wp Does (Point guarded allowed) (Outcome Q E) world := by
  refine ⟨h.point hop, ?_⟩
  intro answer after hdoes
  obtain rfl := hquiet answer after hdoes
  exact hk answer

theorem preflight_spec (plan : ValidatedTunnelPlan) :
    Holds guarded allowed (preflight plan) (fun _ w => w = world) world := by
  refine quiet_of h (by rintro _ _ ⟨⟩) (fun _ _ hdoes => hdoes) ?_
  rintro (e | _)
  · exact h
  · rfl

theorem initializeGuard_spec (resources : Resources) :
    Holds guarded allowed (initializeGuard resources) (fun _ w => w = world) world := by
  refine quiet_of h (by rintro _ _ ⟨⟩) (fun _ _ hdoes => hdoes) ?_
  rintro (e | _)
  · exact h
  · rfl

theorem initializeResources_spec (resources : Resources) :
    Holds guarded allowed (initializeResources resources) (fun _ w => w = world) world := by
  refine quiet_of h (by rintro _ _ ⟨⟩) (fun _ _ hdoes => hdoes) ?_
  rintro (e | _)
  · exact h
  · rfl

theorem invalidateNetwork_spec (resources : Resources) :
    Holds guarded allowed (invalidateNetwork resources) (fun _ w => w = world) world := by
  refine quiet_of h (by rintro _ _ ⟨⟩) (fun _ _ hdoes => hdoes) ?_
  rintro (e | _)
  · exact h
  · rfl

theorem nextGeneration_spec (generation : ℕ) :
    Holds guarded allowed (nextGeneration generation) (fun _ w => w = world) world := by
  unfold nextGeneration
  split_ifs
  · exact .pure rfl
  · exact .throw h

end

theorem persistPhase_inv {phase : Phase} (hph : phase ≠ .prepared ∧ phase ≠ .active)
    (h : Inv guarded world) : Sustains guarded allowed (persistPhase phase) world := by
  refine state_inv h ?_
  refine (persist_inv h fun hval => ?_).mono (fun _ _ h' => h'.1) (fun _ _ h' => h'.1)
  refine h.memory.bookkeeping hval (fun resources hsome => ⟨resources, hsome, rfl⟩) rfl rfl ?_
  rintro - (hrdy | hrdy)
  · exact absurd hrdy hph.1
  · exact absurd hrdy hph.2

theorem persistPhase_at {phase : Phase} (hph : phase ≠ .prepared ∧ phase ≠ .active)
    (h : At guarded journal world) :
    Holds guarded allowed (persistPhase phase)
      (fun _ w => At guarded { journal with phase, generation := journal.generation + 1 } w ∧
        w.log = world.log) world := by
  refine state_at h ?_
  refine (persist_at h fun hval => ?_).mono (fun _ _ h' => h'.2) (fun _ _ h' => h'.1)
  refine h.sound.bookkeeping hval (fun resources hsome => ⟨resources, hsome, rfl⟩) rfl rfl ?_
  rintro - (hrdy | hrdy)
  · exact absurd hrdy hph.1
  · exact absurd hrdy hph.2

/-! ## Restoring a record -/

theorem order_protection {index : ℕ} (h : order[index]? = some Step.protection) : index = 0 := by
  rcases index with _ | _ | _ | _ | _ | index
  · rfl
  all_goals cases h

def Journal.OthersRestored (journal : Journal) : Prop :=
  ∀ record ∈ journal.records, record.step ≠ .protection → record.state = .restored

/-- The calls about the records of a journal leave other guards installed; those about the
    records from `start` on, with `start ≠ 0`, leave its own guard installed too. -/
def Keeps (journal : Journal) (start : ℕ) (log log' : List NativeCall) : Prop :=
  ∀ t, (start = 0 → ∀ resources, journal.resources = some resources → t ≠ resources.nftTable) →
    installed t log = true → installed t log' = true

theorem Keeps.refl (journal : Journal) (start : ℕ) (log : List NativeCall) :
    Keeps journal start log log := fun _ _ h => h

theorem Sound.restore (h : Sound guarded log journal) {step : Step} {resources : Resources}
    (hres : journal.resources = some resources) (ok : Bool)
    (hgrd : step = .protection → ¬journal.Ready) :
    Sound guarded (.restore step resources.nftTable ok :: log) journal where
  valid := h.valid
  covers := fun effect hmem => h.covers effect (outstanding_restore.mp hmem).1
  bridged := by
    intro replacement hsome happ hlive
    have hne := h.replacement_table hsome hres
    rw [lastGuardCall_other (by simp [NativeCall.concerns, hne])]
    exact h.bridged replacement hsome happ hlive
  opened := h.opened
  ready := by
    intro hg hrdy resources' hres'
    have hstep : step ≠ .protection := fun heq => hgrd heq hrdy
    rw [installed_other (by simp [NativeCall.concerns, hstep])]
    exact h.ready hg hrdy resources' hres'

theorem Sound.markRestored {index : ℕ} {record : Record} {resources : Resources}
    (h : Sound guarded log journal) (hrec : journal.records[index]? = some record)
    (hres : journal.resources = some resources)
    (hgone : (⟨resources.nftTable, record.step⟩ : Effect) ∉ outstanding log)
    (hval : Valid { journal with
      records := journal.records.set index { record with state := .restored } }) :
    Sound guarded log { journal with
      records := journal.records.set index { record with state := .restored } } := by
  have hlt := (List.getElem?_eq_some_iff.mp hrec).1
  have hset : ({ record with state := .restored } : Record) ∈
      journal.records.set index { record with state := .restored } :=
    mem_set hlt _
  -- a record that is not restored is not the one at `index`
  have hoth : ∀ record' ∈ journal.records, record' ≠ record →
      record' ∈ journal.records.set index { record with state := .restored } := by
    intro record' hmem hne
    obtain ⟨j, hj⟩ := mem_iff_getElem?.mp hmem
    refine mem_iff_getElem?.mpr ⟨j, ?_⟩
    rw [getElem?_set_ne ?_]
    · exact hj
    · rintro rfl
      exact hne (Option.some.inj (hj.symm.trans hrec))
  refine h.change hval ?_ rfl ?_ ?_ ?_
  · rintro effect hmem (⟨resources', record', hsome, htab, hmem', hstep, hlive⟩ | hbr)
    · cases hres.symm.trans hsome
      refine .inl ⟨resources, record', hres, htab, hoth record' hmem' ?_, hstep, hlive⟩
      rintro rfl
      refine hgone ?_
      rw [htab, hstep]
      exact hmem
    · exact .inr hbr
  · rintro - ⟨record', hmem, hstep, hlive⟩
    rcases mem_or_eq_of_mem_set hmem with hmem | rfl
    · exact ⟨record', hmem, hstep, hlive⟩
    · exact absurd rfl hlive
  · intro record' hmem hstep
    by_cases heq : record' = record
    · exact ⟨_, hset, heq ▸ hstep⟩
    · exact ⟨record', hoth record' hmem heq, hstep⟩
  · intro _ hrdy
    have := (hval.ready hrdy).2 _ hset
    cases this

/-- One round of the loop. `hallowed` is asked for the guard only. -/
theorem restoreRecord_spec (retain : Bool) {index : ℕ} {record : Record}
    (h : At guarded journal world) (hrec : journal.records[index]? = some record)
    (habove : ∀ j r, index < j → journal.records[j]? = some r → r.state = .restored)
    (hall : index = 0 → journal.GuardLive → journal.OthersRestored → ∀ resources,
      journal.resources = some resources → allowed world resources) :
    Holds guarded allowed (restoreRecord retain index) (fun _ w =>
      (∃ generation, At guarded { journal with
        generation, records := journal.records.set index { record with state := .restored } } w) ∧
      Keeps journal index world.log w.log) world := by
  refine state_at h (expect_bind hrec ?_)
  by_cases hrest : record.state = .restored
  · rw [if_pos hrest]
    refine .pure ⟨⟨journal.generation, ?_⟩, Keeps.refl _ _ _⟩
    have hsame : journal.records.set index { record with state := .restored } = journal.records := by
      rw [← hrest, ← (List.getElem?_eq_some_iff.mp hrec).2]
      exact set_getElem_self _
    rw [hsame]
    exact h
  rw [if_neg hrest]
  have hph : journal.phase ≠ .clean := by
    intro hcln
    rw [(h.sound.valid.clean hcln).2.1] at hrec
    cases hrec
  obtain ⟨id, resources, plan, hid, hres, hplan, htab⟩ := h.sound.valid.operation hph
  refine expect_bind hres (expect_bind hplan ?_)
  have hstep := h.sound.valid.steps index record hrec
  -- the guard is the first record, so all others are restored before it
  have hgrd : record.step = .protection → index = 0 ∧ journal.OthersRestored := by
    intro heq
    have hzero := order_protection (heq ▸ hstep)
    refine ⟨hzero, fun record' hmem hne => ?_⟩
    obtain ⟨j, hj⟩ := mem_iff_getElem?.mp hmem
    refine habove j record' ?_ hj
    rw [hzero]
    refine Nat.pos_of_ne_zero ?_
    rintro rfl
    rw [hzero] at hrec
    cases hj.symm.trans hrec
    exact hne heq
  have hrdy : record.step = .protection → ¬journal.Ready := by
    intro heq hrdy
    obtain ⟨hlen, happ⟩ := h.sound.valid.ready hrdy
    have hone : journal.records[1]? = some journal.records[1] := getElem?_eq_getElem _
    have := habove 1 _ (by rw [(hgrd heq).1]; exact Nat.one_pos) hone
    rw [happ _ (mem_of_getElem? hone)] at this
    cases this
  refine .andThen (R := fun r w =>
    w = world.logged (.restore record.step resources.nftTable r.isOk)) (.attempt ?_) ?_
  · refine ⟨⟨h.inv, ?_⟩, ?_⟩
    · intro resources' plan' heq
      obtain ⟨hprot, rfl, rfl⟩ := LinuxOp.restore.inj heq
      obtain ⟨hzero, hoths⟩ := hgrd hprot
      exact hall hzero ⟨record, mem_of_getElem? hrec, hprot, hrest⟩ hoths resources hres
    · rintro (e | _) after hdoes
      · exact hdoes
      · exact hdoes
  rintro (e | _) w rfl
  · -- the failure is recorded, or returned as it is
    have hat : At guarded journal (world.logged (.restore record.step resources.nftTable false)) :=
      ⟨h.coordinator, h.disk, h.sound.restore hres false hrdy⟩
    cases retain with
    | false => exact .throw hat.inv
    | true =>
      refine .andThen (R := fun _ => Inv guarded) (.attempt ?_) fun _ w hw => .throw hw
      exact (persistPhase_inv (by decide) hat.inv).mono (fun _ _ hw => hw) fun _ _ hw => hw
  · have hat : At guarded journal (world.logged (.restore record.step resources.nftTable true)) :=
      ⟨h.coordinator, h.disk, h.sound.restore hres true hrdy⟩
    refine (persist_at hat fun hval => ?_).mono ?_ fun _ _ hw => hw.1
    · refine hat.sound.markRestored hrec hres ?_ hval
      intro hmem
      exact (outstanding_restore.mp hmem).2 ⟨rfl, rfl⟩
    · rintro _ w ⟨-, hat', hlog⟩
      refine ⟨⟨_, hat'⟩, fun t ht hinst => ?_⟩
      rw [hlog]
      change installed t (.restore record.step resources.nftTable true :: world.log)
      rw [installed_other ?_]
      · exact hinst
      · by_cases hprot : record.step = .protection
        · have hne := ht (hgrd hprot).1 resources hres
          simp [NativeCall.concerns, hprot, hne.symm]
        · simp [NativeCall.concerns, hprot]

/-! ## The loop over the records -/

/-- The records from `start` on are restored, the others are as before. -/
structure Swept (start : ℕ) (before after : List Record) : Prop where
  steps : after.map Record.step = before.map Record.step
  same : ∀ j < start, after[j]? = before[j]?
  restored : ∀ j record, start ≤ j → after[j]? = some record → record.state = .restored

theorem restoreDown_spec (retain : Bool) (start n : ℕ) (h : At guarded journal world)
    (hn : n ≤ journal.records.length)
    (habove : ∀ j record, n ≤ j → journal.records[j]? = some record → record.state = .restored)
    (hall : start = 0 → ∀ w generation records,
      At guarded { journal with generation, records } w →
      GuardLive { journal with generation, records } →
      OthersRestored { journal with generation, records } → ∀ resources,
      journal.resources = some resources → allowed w resources) :
    Holds guarded allowed (restoreDown retain start n) (fun _ w => ∃ generation records,
      At guarded { journal with generation, records } w ∧ Swept start journal.records records ∧
      Keeps journal start world.log w.log) world := by
  -- the rounds that are left keep what is already restored
  induction n generalizing journal world with
  | zero =>
    exact .pure ⟨_, _, h, ⟨rfl, fun _ _ => rfl, fun j record _ => habove j record (Nat.zero_le _)⟩,
      Keeps.refl _ _ _⟩
  | succ index ih =>
    unfold restoreDown
    by_cases hst : index < start
    · rw [if_pos hst]
      exact .pure ⟨_, _, h,
        ⟨rfl, fun _ _ => rfl, fun j record hj => habove j record (by omega)⟩, Keeps.refl _ _ _⟩
    rw [if_neg hst]
    have hrec : journal.records[index]? = some journal.records[index] :=
      getElem?_eq_getElem hn
    refine .andThen (restoreRecord_spec retain h hrec (fun j r hj => habove j r hj) ?_) ?_
    · intro hzero hlive hoths resources hres
      exact hall (by omega) world _ _ h hlive hoths resources hres
    rintro _ w ⟨⟨generation, hat⟩, hkeeps⟩
    refine (ih hat ?_ ?_ ?_).mono ?_ fun _ _ hw => hw
    · simp only [length_set]
      omega
    · intro j record hj hj'
      by_cases heq : j = index
      · subst heq
        rw [getElem?_set_self hn] at hj'
        cases hj'
        rfl
      · rw [getElem?_set_ne (Ne.symm heq)] at hj'
        exact habove j record (by omega) hj'
    · exact hall
    · rintro _ w' ⟨generation', records, hat', hswp, hkeeps'⟩
      refine ⟨generation', records, hat', ⟨?_, fun j hj => ?_, hswp.restored⟩, ?_⟩
      · rw [hswp.steps]
        have hlt : index < (journal.records.map Record.step).length := by
          rw [length_map]
          exact hn
        have hstep : journal.records[index].step = (journal.records.map Record.step)[index] := by
          simp
        rw [map_set, hstep]
        exact set_getElem_self _
      · rw [hswp.same j hj, getElem?_set_ne (by omega)]
      · intro t ht hinst
        exact hkeeps' t ht (hkeeps t (fun hzero => ht (by omega)) hinst)

theorem restoreRecords_spec (retain : Bool) (start : ℕ) (h : At guarded journal world)
    (hall : start = 0 → ∀ w generation records,
      At guarded { journal with generation, records } w →
      GuardLive { journal with generation, records } →
      OthersRestored { journal with generation, records } → ∀ resources,
      journal.resources = some resources → allowed w resources) :
    Holds guarded allowed (restoreRecords retain start) (fun _ w => ∃ generation records,
      At guarded { journal with generation, records } w ∧ Swept start journal.records records ∧
      Keeps journal start world.log w.log) world := by
  refine state_at h ?_
  refine restoreDown_spec retain start _ h le_rfl (fun j record hj hrec => ?_) hall
  exact absurd (List.getElem?_eq_some_iff.mp hrec).1 (Nat.not_lt.mpr hj)

theorem Swept.allRestored {before after : List Record} (h : Swept 0 before after) :
    ∀ record ∈ after, record.state = .restored := by
  intro record hmem
  obtain ⟨j, hj⟩ := mem_iff_getElem?.mp hmem
  exact h.restored j record (Nat.zero_le _) hj

/-! ## Recovery -/

/-- What `recover` has established when it removes a guard: the other records are journaled
    as restored, and before the bridge all are, that of the source guard included. -/
def RecoverGuard (world : World) (resources : Resources) : Prop :=
  world.disk.OthersRestored ∧
    (world.disk.resources = some resources ∨
      world.disk.AllRestored ∧ (⟨.protection, .restored⟩ : Record) ∈ world.disk.records ∧
        ∃ replacement, world.disk.replacement = some replacement ∧
          replacement.resources = resources)

theorem Sound.restoreBridge (h : Sound guarded log journal) (hall : journal.AllRestored)
    (table : String) (ok : Bool) :
    Sound guarded (.restore .protection table ok :: log) journal where
  valid := h.valid
  covers := fun effect hmem => h.covers effect (outstanding_restore.mp hmem).1
  bridged := fun _ _ _ hlive => absurd hlive hall.not_guardLive
  opened := h.opened
  ready := fun _ hrdy => absurd hrdy (hall.not_ready h.valid)

theorem restoreReplacement_spec (h : At guarded journal world) (hall : journal.AllRestored)
    (hallowed : RecoverGuard ≤ allowed) :
    Holds guarded allowed restoreReplacement
      (fun _ w => At guarded journal w ∧ ∀ effect, effect ∉ outstanding w.log) world := by
  refine state_at h ?_
  -- only the bridge can still be outstanding
  have hbr : ∀ effect ∈ outstanding world.log, ∃ replacement,
      journal.replacement = some replacement ∧
      replacement.resources.nftTable = effect.table ∧ effect.step = .protection := by
    intro effect hmem
    rcases h.sound.covers effect hmem with ⟨_, record, -, -, hmem', -, hlive⟩ | hbr
    · exact absurd (hall record hmem') hlive
    · exact hbr
  rcases hrepl : journal.replacement with _ | replacement
  · refine .pure ⟨h, fun effect hmem => ?_⟩
    obtain ⟨_, hsome, -⟩ := hbr effect hmem
    rw [hrepl] at hsome
    cases hsome
  · refine ⟨⟨h.inv, ?_⟩, ?_⟩
    · rintro resources plan ⟨⟩
      refine hallowed world _ ⟨fun record hmem _ => ?_, .inr ⟨?_, ?_, replacement, ?_, rfl⟩⟩
      · rw [h.disk] at hmem
        exact hall record hmem
      · rw [h.disk]
        exact hall
      · obtain ⟨⟨step, state⟩, hmem, rfl⟩ := h.sound.opened (by rw [hrepl]; rfl)
        obtain rfl : state = .restored := hall _ hmem
        rw [h.disk]
        exact hmem
      · rw [h.disk, hrepl]
    · rintro (e | _) after hdoes
      · obtain rfl : after = _ := hdoes
        exact At.inv ⟨h.coordinator, h.disk, h.sound.restoreBridge hall _ false⟩
      · obtain rfl : after = _ := hdoes
        refine ⟨⟨h.coordinator, h.disk, h.sound.restoreBridge hall _ true⟩, fun effect hmem => ?_⟩
        obtain ⟨hmem, hgone⟩ := outstanding_restore.mp hmem
        obtain ⟨_, hsome, htab, hstep⟩ := hbr effect hmem
        cases hrepl.symm.trans hsome
        refine hgone ⟨rfl, ?_⟩
        rw [htab, ← hstep]

theorem reload_spec (h : Inv guarded world) :
    Holds guarded allowed reload (fun _ w => At guarded w.journal w) world := by
  refine state_inv h ?_
  cases hunc : world.coordinator.persistenceUncertain with
  | false => exact .pure (h.at hunc)
  | true =>
    refine ⟨h.point (by rintro _ _ ⟨⟩), ?_⟩
    rintro answer after (⟨rfl, rfl⟩ | ⟨⟨e, rfl⟩, rfl⟩)
    · exact ⟨rfl, rfl, h.disk⟩
    · exact h

/-- **`recover` from any point of a run.** -/
theorem recover_spec (h : Inv guarded world) (hall : RecoverGuard ≤ allowed) :
    Sustains guarded allowed recover world := by
  refine .andThen (reload_spec h) fun _ w hat => ?_
  generalize w.journal = journal at hat
  refine state_at hat ?_
  by_cases hcln : journal.phase = .clean
  · rw [if_pos hcln]
    exact .pure hat.inv
  rw [if_neg hcln]
  refine .andThen (persistPhase_at (by decide) hat) ?_
  rintro _ w1 ⟨hat1, -⟩
  refine .andThen (restoreRecords_spec true 0 hat1 ?_) ?_
  · intro _ w' generation records hat' hlive hoths resources hres
    refine hall w' resources ⟨?_, .inl ?_⟩
    · rw [hat'.disk]
      exact hoths
    · rw [hat'.disk]
      exact hres
  rintro _ w2 ⟨generation, records, hat2, hswp, -⟩
  refine .andThen (restoreReplacement_spec hat2 hswp.allRestored hall) ?_
  rintro _ w3 ⟨hat3, hnone⟩
  refine state_at hat3 ?_
  refine (persist_at hat3 fun hval => ?_).mono (fun _ _ hw => hw.2.1.inv) fun _ _ hw => hw.1
  refine ⟨hval, fun effect hmem => absurd hmem (hnone effect), ?_, ?_, ?_⟩
  · rintro replacement ⟨⟩
  · intro hsome
    cases hsome
  · rintro - (hrdy | hrdy)
    · cases hrdy
    · cases hrdy

end

end Usque.Linux
