/-
  What the handlers of an H3 task do to it.

  Each handler keeps the task in agreement with its trace (`Inv`), and `Failed` is what
  it leaves if it ends the task. The handlers leave the barrier open; between
  `beginBarrier` and `finishBarrier` it is closed.
-/
import Usque.Transport.Attempt

namespace Usque.Transport.H3
open Lib Option

/-- The error of a barrier that is set twice. -/
def reentered : H3Error := .http3 "migration transmit barrier was re-entered"

/-- A trace that began with `base`; if the task is `gone`, no attempt is under way. -/
structure Closed (first : PathSocket) (base : List Entry) (gone : Prop) (trace : List Entry) :
    Prop where
  grown : base <:+ trace
  promotions : Always (Promotion first) trace
  sends : Always Sending trace
  answered : Answered trace
  finished : gone → attemptAfter trace = none

/-- A handler ended the task: the state agrees with the trace, and the barrier was not set
    twice. If the task was aborted inside `abort`, the attempt is lost without an answer. -/
def Failed (first : PathSocket) (base : List Entry) (error : H3Error) (actor : H3Actor) : Prop :=
  ((∃ n, Inv first base n actor) ∨ error = .aborted .clearCandidate ∧
    actor.migration.pending = none ∧ Closed first base False actor.trace) ∧ error ≠ reentered

variable {prepared : PreparedPathSocket} {attempt : PendingMigration} {preparation : Preparation}
  {path : PathSocket} {view : Attempt} {target : ℕ}

section
variable {first : PathSocket} {base : List Entry} {n : ℕ} {actor : H3Actor} {env : Environment} {α : Type}

theorem Inv.log {entry : Entry} (h : Inv first base n actor) (hplain : entry.Plain) :
    Inv first base n (actor.log entry) := Agrees.plain h hplain

theorem Inv.failed {error : H3Error} (h : Inv first base n actor) (herr : error ≠ reentered) :
    Failed first base error actor := ⟨.inl ⟨n, h⟩, herr⟩

theorem Inv.observed (h : Inv first base n actor) : Inv first base n (actor.log .observed) :=
  h.log trivial

/-! ## Questions -/

section
variable {E : H3Error → H3Actor → Prop}

theorem ends_ask {answer : ℕ → α} {Q : α → H3Actor → Prop}
    (h : Q (answer actor.trace.length) (actor.log .observed)) : Ends (ask answer) Q E actor := h

theorem ends_now {Q : ℕ → H3Actor → Prop} (h : ∀ time, Q time (actor.log .observed)) :
    Ends (now env) Q E actor := h _

theorem ends_networkGeneration {Q : Option ℕ → H3Actor → Prop}
    (h : ∀ current, Q current (actor.log (.generation current))) :
    Ends (networkGeneration env) Q E actor := h _

theorem ends_pathEventNext {Q : Option PathEvent → H3Actor → Prop}
    (h : ∀ event : Option PathEvent, Q event (actor.log (event.elim .observed .pathEvent))) :
    Ends (pathEventNext env) Q E actor := h _

theorem ends_awaits {place : Await} {Q : Unit → H3Actor → Prop} (h : Q () actor)
    (habort : E (.aborted place) actor) : Ends (awaits env place) Q E actor :=
  .bind (.read (.ensure (fun _ => h) fun _ => habort))

theorem ends_modifyMigration {change : MigrationActor → MigrationActor} {Q : Unit → H3Actor → Prop}
    (h : Q () { actor with migration := change actor.migration }) :
    Ends (modifyMigration change) Q E actor := h

/-- What a question leaves: the same state with a longer trace. -/
structure Asked (actor actor' : H3Actor) : Prop where
  migration : actor'.migration = actor.migration
  paths : actor'.paths = actor.paths
  wire : actor'.wireDatagrams = actor.wireDatagrams
  requests : actor'.requests = actor.requests
  inv : ∀ first base n, Inv first base n actor → Inv first base n actor'
  drained : ∀ path, drained path actor.trace = true → drained path actor'.trace = true

theorem Asked.refl (actor : H3Actor) : Asked actor actor :=
  ⟨rfl, rfl, rfl, rfl, fun _ _ _ => id, fun _ => id⟩

theorem Asked.trans {actor1 actor2 actor3 : H3Actor} (h : Asked actor1 actor2)
    (h' : Asked actor2 actor3) : Asked actor1 actor3 :=
  ⟨h'.migration.trans h.migration, h'.paths.trans h.paths, h'.wire.trans h.wire,
    h'.requests.trans h.requests, fun first base n hinv => h'.inv first base n (h.inv first base n hinv),
    fun path hdrn => h'.drained path (h.drained path hdrn)⟩

theorem Asked.observed (actor : H3Actor) : Asked actor (actor.log .observed) :=
  ⟨rfl, rfl, rfl, rfl, fun _ _ _ h => h.log trivial, fun _ => id⟩

theorem Asked.generation (actor : H3Actor) (current : Option ℕ) :
    Asked actor (actor.log (.generation current)) :=
  ⟨rfl, rfl, rfl, rfl, fun _ _ _ h => h.log trivial, fun _ => id⟩

/-- `invalid_attempt_reason` asks; it finds a pending attempt valid only if the network
    generation is that of the attempt. -/
theorem invalidAttemptReason_spec (time : ℕ) :
    Ends (invalidAttemptReason env time) (fun reason actor' => Asked actor actor' ∧
      (reason = none → ∀ attempt, actor.migration.pending = some attempt →
        ∃ trace, actor'.trace = .generation (some attempt.targetGeneration) :: trace ∧
          attemptAfter trace = attemptAfter actor.trace)) E actor := by
  refine .bind (.read ?_)
  cases hpend : actor.migration.pending with
  | none => exact .pure ⟨.refl actor, fun _ attempt hatt => by cases hatt⟩
  | some attempt =>
    refine .ite (fun _ => .pure ⟨.refl actor, nofun⟩) fun _ => ?_
    -- whether or not the reply was asked about, the attempt is the same
    have hclosed : Ends (replyClosed env attempt)
        (fun _ actor' => Asked actor actor' ∧ attemptAfter actor'.trace = attemptAfter actor.trace)
        E actor := by
      refine .ite (fun _ => .pure ⟨.refl actor, rfl⟩) fun _ => ?_
      exact ends_ask ⟨.observed actor, rfl⟩
    refine hclosed.andThen fun closed actor1 hactor1 => ?_
    refine .ite (fun _ => .pure ⟨hactor1.1, nofun⟩) fun _ => ?_
    refine .bind (ends_networkGeneration fun current => ?_)
    have hask := hactor1.1.trans (.generation actor1 current)
    refine .ite (fun hcur => .pure ⟨hask, ?_⟩) fun _ => ?_
    · rintro - _ ⟨⟩
      exact ⟨actor1.trace, by rw [← hcur]; rfl, hactor1.2⟩
    · refine .ite (fun _ => .pure ⟨hask, nofun⟩) fun _ => ?_
      refine .ite (fun _ => .pure ⟨hask, nofun⟩) fun _ => ?_
      exact .pure ⟨hask, nofun⟩

/-! ## Attempts -/

/-- What is the same before and after a handler that ends an attempt. -/
structure Over (actor actor' : H3Actor) : Prop where
  pending : actor'.migration.pending = none
  barrier : actor'.migration.barrier = .finished
  requests : actor'.requests = actor.requests
  highest : actor'.migration.highestGeneration = actor.migration.highestGeneration

theorem abort_spec (h : Inv first base n actor) (reason : MigrationReasonCode) :
    Ends (abort env reason) (fun _ actor' => Inv first base n actor' ∧ Over actor actor')
      (Failed first base) actor := by
  refine .bind (ends_modifyMigration (.bind (.read ?_)))
  cases hpend : actor.migration.pending with
  | none =>
    exact .pure ⟨hpend ▸ h, rfl, rfl, rfl, rfl⟩
  | some attempt =>
    obtain ⟨-, -, view, -, his⟩ := Agrees.busy h attempt hpend
    dsimp only
    rw [his.reply]
    refine .bind (ends_modifyMigration (.bind (.bind (.read ?_))))
    cases hcand : actor.paths.candidate with
    | none => exact .pure (.update ⟨Agrees.fail h hpend hcand his.reply reason, rfl, rfl, rfl, rfl⟩)
    | some =>
      have hrel := Agrees.releaseCandidate h hcand
      refine .bind (.update (ends_awaits (.update ?_) ⟨.inr ⟨rfl, rfl, ?_⟩, by decide⟩))
      · exact ⟨hrel.fail hpend rfl his.reply reason, rfl, rfl, rfl, rfl⟩
      · exact ⟨hrel.grown, hrel.promotions, hrel.sends, hrel.answered, False.elim⟩

/-- What holds after a handler that does not end the task. -/
def Done (first : PathSocket) (base : List Entry) (n : ℕ) (actor : H3Actor) : Prop :=
  Inv first base n actor ∧ actor.migration.barrier = .finished

abbrev Finishes (first : PathSocket) (base : List Entry) (n : ℕ) {α : Type} (m : Handler α)
    (actor : H3Actor) : Prop :=
  Ends m (fun _ => Done first base n) (Failed first base) actor

theorem abort_done (h : Inv first base n actor) (reason : MigrationReasonCode) :
    Finishes first base n (abort env reason) actor :=
  (abort_spec h reason).mono (fun _ _ h => ⟨h.1, h.2.barrier⟩) fun _ _ => id

theorem clearRetiring_spec (h : Inv first base n actor) :
    Ends (clearRetiring env) (fun _ actor' => Inv first base n actor' ∧
      actor'.migration = { actor.migration with retiringDeadline := none } ∧
      actor'.requests = actor.requests ∧ actor'.paths.candidate = actor.paths.candidate)
      (Failed first base) actor := by
  refine .bind (.read ?_)
  cases hret : actor.paths.retiring with
  | none => exact ends_modifyMigration ⟨h, rfl, rfl, rfl⟩
  | some =>
    have hrel := Agrees.releaseRetiring h hret
    refine .bind (.update (.bind (ends_awaits (ends_modifyMigration ⟨hrel, rfl, rfl, rfl⟩) ?_)))
    exact Inv.failed (n := n) hrel (by decide)

/-- A change of the time of the next probe. -/
theorem Inv.modifyPending {change : PendingMigration → PendingMigration}
    (h : Inv first base n actor) (hchg : ∀ attempt, actor.migration.pending = some attempt →
      (change attempt).targetGeneration = attempt.targetGeneration ∧
      ∀ view, attemptAfter actor.trace = some view →
        IsAttempt attempt actor.paths.candidate view →
        IsAttempt (change attempt) actor.paths.candidate view) :
    Inv first base n { actor with
      migration := { actor.migration with pending := actor.migration.pending.map change } } := by
  cases hpend : actor.migration.pending with
  | none =>
    unfold Inv at h ⊢
    rw [hpend] at h
    exact h
  | some attempt =>
    obtain ⟨htgt, his⟩ := hchg attempt hpend
    unfold Inv at h ⊢
    rw [hpend] at h
    exact h.revise htgt his

theorem deferProbe_spec (h : Inv first base n actor) :
    Ends (deferProbe env) (fun _ actor' => Inv first base n actor' ∧
      actor'.migration.barrier = actor.migration.barrier) E actor := by
  refine .bind (ends_now fun time => ends_modifyMigration ⟨?_, rfl⟩)
  refine h.observed.modifyPending fun attempt _ => ⟨rfl, fun view _ his => ?_⟩
  exact ⟨his.reply, his.target, his.candidate_eq, his.unpromoted, his.confirmed, his.preparing⟩

theorem abortIfInvalid_spec (h : Inv first base n actor) (time : ℕ)
    (hbar : actor.migration.barrier = .finished) :
    Finishes first base n (abortIfInvalid env time) actor := by
  refine (invalidAttemptReason_spec time).andThen fun reason actor1 hask => ?_
  have hinv := hask.1.inv first base n h
  cases reason with
  | some reason => exact abort_done hinv reason
  | none => exact .pure ⟨hinv, hask.1.migration ▸ hbar⟩

/-! ## Commands -/

theorem migrationSupported_spec :
    Ends (migrationSupported env) (fun _ actor' => Asked actor actor') E actor := by
  refine .ite (fun _ => ?_) fun _ => .pure (.refl actor)
  exact .bind (ends_networkGeneration fun current => .pure (.generation actor current))

theorem refusal_spec (time : ℕ) :
    Ends (refusal env time) (fun _ actor' => Asked actor actor') E actor := by
  refine migrationSupported_spec.andThen fun supported actor1 hactor1 => ?_
  refine .ite (fun _ => .pure hactor1) fun _ => .bind (ends_ask ?_)
  have hactor2 := hactor1.trans (.observed actor1)
  refine .ite (fun _ => .pure hactor2) fun _ => .bind (ends_ask (.bind (ends_ask ?_)))
  have hactor3 := hactor2.trans ((Asked.observed _).trans (.observed _))
  refine .ite (fun _ => .pure hactor3) fun _ => ?_
  exact (invalidAttemptReason_spec time).mono (fun _ _ h => hactor3.trans h.1) fun _ _ => id

theorem isStale_spec (target : ℕ) :
    Ends (isStale env target) (fun stale actor' => Asked actor actor' ∧
      (stale = false → actor.migration.highestGeneration < target)) E actor := by
  refine .bind (.read (.ite (fun _ => .pure ⟨.refl actor, nofun⟩) fun hlt => ?_))
  refine .bind (ends_networkGeneration fun current => ?_)
  exact .pure ⟨.generation actor current, fun _ => Nat.lt_of_not_le hlt⟩

/-- A request starts with no preparation. -/
def Fresh (target : ℕ) (actor : H3Actor) : Prop :=
  ∃ attempt, actor.migration.pending = some attempt ∧ attempt.targetGeneration = target ∧
    attempt.phase = .preparingSocket

theorem startAttempt_spec {request : ℕ} (deadline : ℕ) (h : Inv first base n actor)
    (hidle : actor.migration.pending = none) (hreq : n ≤ request)
    (hreqs : request < actor.requests) (htgt : actor.migration.highestGeneration < target) :
    Ends (startAttempt env request target deadline) (fun _ actor' =>
      Inv first base (request + 1) actor' ∧ Fresh target actor' ∧
      actor'.migration.barrier = actor.migration.barrier) E actor := by
  refine .bind (ends_now fun time => .bind (.update (.pure ⟨?_, ⟨_, rfl, rfl, rfl⟩, rfl⟩)))
  exact Agrees.accept h.observed hidle hreq hreqs htgt rfl rfl rfl

theorem beginPreparation_spec (time : ℕ) (h : Inv first base n actor)
    (hfrs : Fresh target actor) (hbar : actor.migration.barrier = .finished) :
    Finishes first base n (beginPreparation env target time) actor := by
  refine .bind (.read ?_)
  cases actor.paths.active with
  | none => exact abort_done h _
  | some =>
    refine (refusal_spec time).andThen fun reason actor1 hask => ?_
    have hinv := hask.inv first base n h
    cases reason with
    | some reason => exact abort_done hinv reason
    | none =>
      refine .bind (ends_ask ?_)
      cases cidRefusal _ with
      | some reason => exact abort_done hinv.observed reason
      | none =>
        refine ends_modifyMigration ⟨?_, hask.migration ▸ hbar⟩
        refine hinv.observed.modifyPending fun attempt hpend => ⟨rfl, fun view _ his => ?_⟩
        obtain ⟨attempt', hpend', htgt, hph⟩ := hfrs
        rw [← hask.migration] at hpend'
        cases hpend'.symm.trans hpend
        refine ⟨his.reply, his.target, his.candidate_eq, his.unpromoted, his.confirmed, ?_⟩
        rintro _ ⟨⟩
        exact ⟨hph, htgt.symm⟩

theorem handleCommand_spec (target deadline : ℕ) (h : Inv first base actor.requests actor)
    (hbar : actor.migration.barrier = .finished) :
    Ends (handleCommand env target deadline) (fun _ actor' => ∃ n, Done first base n actor')
      (Failed first base) actor := by
  have hinv : Inv first base actor.requests { actor with requests := actor.requests + 1 } :=
    { h with bound_le := Nat.le_succ _ }
  refine .bind (.read (.bind (.update (.bind (ends_ask ?_)))))
  refine .ite (fun _ => .pure ⟨_, hinv.observed, hbar⟩) fun _ => ?_
  refine (isStale_spec target).andThen fun stale actor1 ⟨hask, hlt⟩ => ?_
  have hinv1 := hask.inv first base _ hinv.observed
  have hreqs : actor1.requests = actor.requests + 1 := hask.requests
  refine .ite (fun _ => ?_) fun hfrs => ?_
  · refine .update ⟨_, Agrees.refuse hinv1 le_rfl ?_, ?_⟩
    · exact lt_of_lt_of_eq (Nat.lt_succ_self _) hreqs.symm
    · exact (congrArg MigrationActor.barrier hask.migration).trans hbar
  · refine (abort_spec hinv1 .superseded).andThen fun _ actor2 ⟨hinv2, hover⟩ => ?_
    refine (clearRetiring_spec hinv2).andThen fun _ actor3 ⟨hinv3, hmig, hreqs3, _⟩ => ?_
    have hhigh : actor3.migration.highestGeneration < target := by
      rw [hmig]
      exact lt_of_eq_of_lt (hover.highest.trans (congrArg _ hask.migration)) (hlt (by simpa using hfrs))
    refine (startAttempt_spec deadline hinv3 (by rw [hmig]; exact hover.pending) le_rfl
      (by rw [hreqs3, hover.requests, hreqs]; exact Nat.lt_succ_self _) hhigh).andThen
      fun time actor4 ⟨hinv4, hfrs4, hbar4⟩ => ?_
    refine (beginPreparation_spec time hinv4 hfrs4 ?_).mono (fun _ _ h => ⟨_, h⟩) fun _ _ => id
    rw [hbar4, hmig]
    exact hover.barrier

/-! ## Preparation -/

theorem prepareUdpForGeneration_generation {target : SocketAddr} {expected : ℕ}
    {answers : PrepareAnswers} (h : prepareUdpForGeneration target expected answers = .ok prepared) :
    prepared.networkGeneration = expected := by
  unfold prepareUdpForGeneration at h
  repeat
    split at h
    · cases h
  cases h
  rfl

theorem prepare_generation {answers : ℕ → PrepareAnswers} {rounds : ℕ}
    (h : prepare preparation answers rounds = .ok prepared) :
    prepared.networkGeneration = preparation.targetGeneration := by
  induction rounds with
  | zero => cases h
  | succ _ ih =>
    unfold prepare at h
    split at h
    · split at h
      · exact ih h
      · cases h
    · exact prepareUdpForGeneration_generation h

theorem insert_eq_ok {paths paths' : PathSocketSet} (hrole : path.role = .candidate)
    (h : paths.insert path = .ok paths') : paths' = { paths with candidate := some path } := by
  unfold PathSocketSet.insert at h
  repeat
    split at h
    · cases h
  cases h
  simp [PathSocketSet.fill, hrole]

theorem spawn_eq_some {path' : PathSocket} {socketAddr : Option SocketAddr} {io : Bool}
    (h : path.spawn socketAddr io = some path') : path' = path := by
  unfold PathSocket.spawn at h
  split at h
  · cases h
  split at h
  · cases h
  split at h
  · cases h
    rfl
  · cases h

theorem addCandidate_spec (h : Inv first base n actor)
    (hpend : actor.migration.pending = some attempt) (hph : attempt.phase = .preparingSocket)
    (hprep : attempt.preparation = none)
    (hgen : prepared.networkGeneration = attempt.targetGeneration)
    (hbar : actor.migration.barrier = .finished) :
    Finishes first base n (addCandidate env prepared) actor := by
  refine .bind (.read (.ite (fun _ => ?_) fun _ => ?_))
  · exact abort_done h _
  refine .bind (ends_ask (.bind (ends_ask (.bind (.read (.bind (ends_modifyMigration ?_)))))))
  have hinv := h.observed.observed
  dsimp only
  generalize hpath : candidateOf prepared actor.migration.nextPathId
    ((actor.log .observed).log .observed).paths.receivePool = path
  have hrole : path.role = .candidate := by rw [← hpath]; rfl
  split
  · rename_i paths hins
    obtain ⟨path', hspawn, hinsert⟩ := map_eq_some_iff.1 hins
    cases spawn_eq_some hspawn
    cases insert_eq_ok hrole hinsert
    refine .bind (.update (.bind (ends_now fun time => ends_modifyMigration ⟨?_, hbar⟩)))
    have hcand := Agrees.insert hinv hpend hph hrole (by rw [← hpath]; exact hgen)
    refine Inv.modifyPending (hcand.plain trivial) fun attempt' hpend' => ⟨rfl, ?_⟩
    rintro view - his
    refine ⟨his.reply, his.target, his.candidate_eq, his.unpromoted, ?_, ?_⟩
    · rintro ⟨⟩
    · cases hpend.symm.trans hpend'
      rw [hprep]
      rintro _ ⟨⟩
  · refine abort_done ?_ _
    exact hinv

theorem onPrepared_spec {prepared : Except SocketPrepareError PreparedPathSocket}
    (h : Inv first base n actor) (hpend : actor.migration.pending = some attempt)
    (hprep : attempt.preparation = some preparation) (hprepared : ∀ socket, prepared = .ok socket →
      socket.networkGeneration = preparation.targetGeneration)
    (hbar : actor.migration.barrier = .finished) :
    Finishes first base n (onPrepared env prepared) actor := by
  obtain ⟨-, -, view, -, his⟩ := Agrees.busy h attempt hpend
  obtain ⟨hph, htgt⟩ := his.preparing preparation hprep
  refine .bind (.read ?_)
  rw [hpend]
  refine .bind (ends_modifyMigration (.bind (ends_now fun time => ?_)))
  have hinv : Inv first base n { actor with migration := { actor.migration with
      pending := actor.migration.pending.map fun attempt => { attempt with preparation := none } } } := by
    refine h.modifyPending fun attempt _ => ⟨rfl, fun view _ his => ?_⟩
    refine ⟨his.reply, his.target, his.candidate_eq, his.unpromoted, his.confirmed, ?_⟩
    rintro _ ⟨⟩
  refine (invalidAttemptReason_spec time).andThen fun reason actor1 hask => ?_
  have hinv1 := hask.1.inv first base n hinv.observed
  have hpend1 : actor1.migration.pending = some { attempt with preparation := none } := by
    rw [hask.1.migration]
    simp [H3Actor.log, hpend]
  cases reason with
  | some reason => exact abort_done hinv1 reason
  | none =>
    cases prepared with
    | error error => cases error <;> exact abort_done hinv1 _
    | ok socket =>
      refine addCandidate_spec hinv1 hpend1 hph rfl ((hprepared socket rfl).trans htgt) ?_
      rw [hask.1.migration]
      exact hbar

theorem handlePrepared_spec (answers : ℕ → PrepareAnswers) (h : Done first base n actor) :
    Finishes first base n (handlePrepared env answers) actor := by
  refine .bind (.read ?_)
  cases hprep : actor.migration.pending.bind (·.preparation) with
  | none => exact .pure h
  | some =>
    obtain ⟨attempt, hpend, hprep'⟩ := bind_eq_some_iff.1 hprep
    exact onPrepared_spec h.1 hpend hprep' (fun _ hsocket => prepare_generation hsocket) h.2

theorem handleReceiveFailure_spec (pathId : ℕ) (h : Done first base n actor) :
    Finishes first base n (handleReceiveFailure env pathId) actor := by
  refine .bind (.read ?_)
  refine .ite (fun _ => .pure h) fun _ => ?_
  refine .ite (fun _ => abort_done h.1 _) fun _ => ?_
  refine .ite (fun _ => ?_) fun _ => .fail (h.1.failed (by decide))
  refine (clearRetiring_spec h.1).mono (fun _ actor' hclear => ⟨hclear.1, ?_⟩) fun _ _ => id
  rw [hclear.2.1]
  exact h.2

/-! ## Path events -/

theorem onEvent_validated {localAddr peerAddr : SocketAddr}
    (hcand : view.candidate.any (PathSocket.matches · localAddr peerAddr)) :
    (view.onEvent (.validated localAddr peerAddr)).validation ≠ .awaited := by
  simp only [Attempt.onEvent, hcand, true_and]
  split
  · simp
  · assumption

theorem onGeneration_confirmed (hrep : view.validation ≠ .awaited) :
    (view.onGeneration (some view.targetGeneration)).validation = .confirmed := by
  unfold Attempt.onGeneration
  cases hvalidation : view.validation with
  | awaited => exact absurd hvalidation hrep
  | reported => simp
  | confirmed => simpa using hvalidation

theorem onValidated_spec (h : Done first base n actor)
    (hrep : ∀ view, attemptAfter actor.trace = some view → view.validation ≠ .awaited) :
    Finishes first base n (onValidated env) actor := by
  refine .bind (ends_now fun time => ?_)
  refine (invalidAttemptReason_spec time).andThen fun reason actor1 ⟨hask, hval⟩ => ?_
  have hinv := hask.inv first base n h.1.observed
  cases reason with
  | some reason => exact abort_done hinv reason
  | none =>
    refine .bind (ends_ask (.bind (ends_ask (.bind (ends_ask (.bind (.read ?_)))))))
    have hinv2 := hinv.observed.observed.observed
    refine .ite (fun _ => abort_done hinv2 _) fun _ => .bind (ends_now fun time' => ?_)
    refine ends_modifyMigration ⟨hinv2.observed.modifyPending fun attempt hpend => ?_, ?_⟩
    · -- the generation was read after the report, and is that of the attempt
      have hpend' : (actor.log .observed).migration.pending = some attempt := by
        rw [← hask.migration]
        exact hpend
      obtain ⟨trace, htrace, hatt⟩ := hval rfl attempt hpend'
      refine ⟨by split <;> rfl, fun view hview his => ?_⟩
      have hconf : view.validation = .confirmed := by
        change attemptAfter actor1.trace = some view at hview
        rw [htrace, attemptAfter, hatt] at hview
        obtain ⟨view', hview', rfl⟩ := map_eq_some_iff.1 hview
        have htgt : attempt.targetGeneration = view'.targetGeneration :=
          his.target.trans (Attempt.similar_onGeneration _ view').target
        rw [htgt]
        exact onGeneration_confirmed (hrep view' hview')
      split
      · refine ⟨his.reply, his.target, his.candidate_eq, his.unpromoted, fun _ => hconf, ?_⟩
        intro preparation hprep
        have := (his.preparing preparation hprep).1
        simp_all
      · exact his
    · exact (congrArg MigrationActor.barrier hask.migration).trans h.2

theorem processPathEvent_spec {event : PathEvent} {trace : List Entry} (h : Done first base n actor)
    (htrace : actor.trace = .pathEvent event :: trace) :
    Finishes first base n (processPathEvent env event) actor := by
  refine .bind (.read ?_)
  cases event with
  | validated =>
    refine .when (fun hmatch => onValidated_spec h ?_) fun _ => h
    intro view hview
    have hcand : actor.paths.candidate = view.candidate := by
      cases hpend : actor.migration.pending with
      | none => cases (Agrees.idle h.1 hpend).1.symm.trans hview
      | some attempt =>
        obtain ⟨-, -, view', hview', his⟩ := Agrees.busy h.1 attempt hpend
        cases hview.symm.trans hview'
        exact his.candidate_eq
    rw [hcand] at hmatch
    rw [htrace] at hview
    obtain ⟨view', -, rfl⟩ := map_eq_some_iff.1 hview
    refine onEvent_validated ?_
    rwa [(Attempt.similar_onEvent _ view').candidate] at hmatch
  | failedValidation => exact .when (fun _ => abort_done h.1 _) fun _ => h
  | closed localAddr peerAddr =>
    have haborted : Ends (Prog.when (actor.paths.candidate.any
        (PathSocket.matches · localAddr peerAddr)) (abort env .pathProbeRejected))
        (fun _ => Done first base n) (Failed first base) actor := .when (fun _ => abort_done h.1 _) fun _ => h
    refine haborted.andThen fun _ actor1 hdone => .when (fun _ => ?_) fun _ => hdone
    refine (clearRetiring_spec hdone.1).mono (fun _ _ hclear => ⟨hclear.1, ?_⟩) fun _ _ => id
    rw [hclear.2.1]
    exact hdone.2
  | new _ _ | reusedSourceConnectionId | peerMigrated _ _ => exact .pure h

theorem processPathEvents_spec (rounds : ℕ) (h : Done first base n actor) :
    Finishes first base n (processPathEvents env rounds) actor := by
  induction rounds generalizing actor with
  | zero => exact .pure h
  | succ rounds ih =>
    refine .bind (ends_pathEventNext fun event => ?_)
    cases event with
    | none => exact .pure ⟨h.1.observed, h.2⟩
    | some event =>
      have hlogged : Done first base n (actor.log (.pathEvent event)) := ⟨h.1.log trivial, h.2⟩
      exact (processPathEvent_spec hlogged rfl).andThen fun _ _ hdone => ih hdone

end

end

end Usque.Transport.H3
