/-
  Runs of an H3 task: what is promoted, what is sent, and what is answered.
-/
import Usque.Transport.Probing

namespace Usque.Transport.H3
open Lib List

variable {session : Session} {pmtu : PmtuController} {trace : List Entry} {gone : Prop}

section
variable {first : PathSocket} {base : List Entry} {n : ℕ} {actor : H3Actor} {env : Environment}

/-! ## The end of the task -/

def Ended (first : PathSocket) (base : List Entry) (gone : Prop) (actor : H3Actor) : Prop :=
  Closed first base gone actor.trace ∧ actor.paths.iter = []

theorem dropMigration_spec {E : H3Error → H3Actor → Prop} (h : Inv first base n actor) :
    Ends dropMigration (fun _ actor' => Closed first base gone actor'.trace) E actor := by
  refine .bind (.read ?_)
  cases hpend : actor.migration.pending with
  | none => exact .pure ⟨h.grown, h.promotions, h.sends, h.answered, fun _ => (Agrees.idle h hpend).1⟩
  | some attempt =>
    obtain ⟨-, -, view, hview, his⟩ := Agrees.busy h attempt hpend
    dsimp only
    rw [his.reply]
    refine .bind (ends_modifyMigration (.update ⟨h.grown.trans (suffix_cons _ _),
      ⟨?_, h.promotions⟩, ⟨trivial, h.sends⟩, ?_, fun _ => ?_⟩))
    · exact ⟨view, hview, rfl, his.unpromoted⟩
    · exact Answered.reply h.answered hview _
    · change attemptAfter (.replied view.request _ :: actor.trace) = none
      simp [attemptAfter, hview]

theorem Closed.released (h : Closed first base gone trace) (paths : List PathSocket) :
    Closed first base gone (paths.map .released ++ trace) := by
  induction paths with
  | nil => exact h
  | cons path paths ih =>
    refine ⟨ih.grown.trans (suffix_cons _ _), ⟨trivial, ih.promotions⟩, ⟨trivial, ih.sends⟩, ?_,
      fun hover => ?_⟩
    · refine ih.answered.cons ⟨rfl, rfl⟩ fun request => ?_
      rw [attemptAfter, Option.any_map]
      have hreq : ∀ view : Attempt, (view.onReleased path).request = view.request := by
        intro view
        unfold Attempt.onReleased
        split <;> rfl
      simp only [hreq]
    · change (attemptAfter (paths.map .released ++ trace)).map _ = none
      rw [ih.finished hover]
      rfl

theorem stop_spec (h : Ends dropMigration (fun _ actor' => Closed first base gone actor'.trace)
    (fun _ => Ended first base gone) actor) : Ended first base gone (stop actor).2 := by
  have hstop : Ends stop (fun _ => Ended first base gone) (fun _ => Ended first base gone) actor := by
    refine h.andThen fun _ actor1 hclosed => .update ⟨?_, rfl⟩
    have hrel := hclosed.released actor1.paths.iter.reverse
    rwa [map_reverse] at hrel
  unfold Ends at hstop
  split at hstop
  · rename_i heq
    rw [heq]
    exact hstop
  · rename_i heq
    rw [heq]
    exact hstop

/-- **An attempt is lost only in `abort`**, which takes it from the actor before it waits. -/
theorem Failed.stopped {error : H3Error} (h : Failed first base error actor) :
    Ended first base (error ≠ .aborted .clearCandidate) (stop actor).2 := by
  obtain ⟨⟨n, hinv⟩ | ⟨herror, hpend, hclosed⟩, -⟩ := h
  · exact stop_spec (dropMigration_spec hinv)
  · refine stop_spec (.bind (.read ?_))
    rw [hpend]
    exact .pure { hclosed with finished := fun hne => absurd herror hne }

/-! ## Steps -/

/-- The task was aborted inside `abort`. -/
def Outcome.lost : Outcome := .ended (some (.aborted .clearCandidate))

def SessionInv (first : PathSocket) (base : List Entry) (gone : Prop) (session : Session) : Prop :=
  if session.running then ∃ n, Done first base n session.actor
  else Ended first base gone session.actor

theorem start_spec (h : start first pmtu = .ok session) : SessionInv first [] gone session := by
  unfold start PathSocketSet.withActive at h
  by_cases hrole : first.role = .active
  · simp only [hrole, ne_eq, not_true_eq_false, if_false] at h
    cases h
    refine ⟨0, ⟨nil_suffix, rfl, hrole, ?_, ?_, ?_, ?_, le_rfl, ?_, Nat.zero_le _, ?_, ?_, ?_,
      trivial, trivial⟩, rfl⟩
    · rintro _ ⟨⟩
    · rintro _ ⟨⟩
    · exact fun _ => ⟨rfl, rfl⟩
    · rintro _ ⟨⟩
    · rintro _ ⟨⟩
    · rintro _ ⟨⟩
    · rintro _ ⟨_, ⟨⟩, _⟩
    · rintro _ ⟨⟩
  · simp only [ne_eq, hrole, not_false_eq_true, if_true] at h
    cases h

/-- What holds now, from now on. -/
theorem SessionInv.rebase (h : SessionInv first base gone session) :
    SessionInv first session.actor.trace gone session := by
  unfold SessionInv at h ⊢
  split
  · rename_i hrun
    rw [if_pos hrun] at h
    obtain ⟨n, hinv, hbar⟩ := h
    exact ⟨n, { hinv with grown := suffix_refl _ }, hbar⟩
  · rename_i hended
    rw [if_neg hended] at h
    exact ⟨{ h.1 with grown := suffix_refl _ }, h.2⟩

theorem SessionInv.mono {gone' : Prop} (h : SessionInv first base gone session)
    (hover : gone' → gone) : SessionInv first base gone' session := by
  unfold SessionInv at h ⊢
  split
  · rename_i hrun
    rwa [if_pos hrun] at h
  · rename_i hended
    rw [if_neg hended] at h
    exact ⟨{ h.1 with finished := fun h' => h.1.finished (hover h') }, h.2⟩

theorem SessionInv.grown (h : SessionInv first base gone session) : base <:+ session.actor.trace := by
  unfold SessionInv at h
  split at h
  · obtain ⟨n, hinv, -⟩ := h
    exact hinv.grown
  · exact h.1.grown

theorem SessionInv.rules (h : SessionInv first base gone session) :
    Always (Promotion first) session.actor.trace ∧ Always Sending session.actor.trace ∧
      Answered session.actor.trace := by
  unfold SessionInv at h
  split at h
  · obtain ⟨n, hinv, -⟩ := h
    exact ⟨hinv.promotions, hinv.sends, hinv.answered⟩
  · exact ⟨h.1.promotions, h.1.sends, h.1.answered⟩

theorem Inv.weaken (h : Inv first base n actor) : Inv first base actor.requests actor :=
  { h with
    bound_le := le_rfl
    numbers := fun entry hent request hreq =>
      lt_of_lt_of_le (h.numbers entry hent request hreq) h.bound_le }

/-- **A handler keeps the task in agreement with its trace**, and the barrier open. -/
theorem handle_spec (input : Input) (h : Done first base n actor) :
    Ends (handle env input) (fun _ actor' => ∃ n, Done first base n actor')
      (Failed first base) actor := by
  have hkeep : ∀ m : Handler Unit,
      Finishes first base n m actor →
      Ends m (fun _ actor' => ∃ n, Done first base n actor') (Failed first base) actor :=
    fun m hm => hm.mono (fun _ _ hdone => ⟨n, hdone⟩) fun _ _ => id
  cases input with
  | command => exact handleCommand_spec _ _ h.1.weaken h.2
  | prepared answers => exact hkeep _ (handlePrepared_spec answers h)
  | receiveFailed pathId => exact hkeep _ (handleReceiveFailure_spec pathId h)
  | tick => exact hkeep _ (tick_spec h)
  | inject => exact hkeep _ (injectApplicationData_spec h)
  | generate capacity => exact hkeep _ (generateWireDatagrams_spec capacity h)
  | send quantum => exact hkeep _ (handleWire_spec quantum h)
  | stop => exact .pure ⟨n, h⟩

theorem next_spec (input : Input) (h : SessionInv first base gone session) :
    SessionInv first base ((next env session input).2 ≠ .lost ∧ gone) (next env session input).1 ∧
      (next env session input).2 ≠ .ended (some reentered) := by
  unfold next
  cases hrunning : session.running with
  | false => exact ⟨h.mono And.right, by simp⟩
  | true =>
    rw [SessionInv, hrunning] at h
    obtain ⟨n, hdone⟩ := h
    have hhandled : Ends (handle env input) _ _ session.actor := handle_spec input hdone
    unfold Ends at hhandled
    split at hhandled
    · rename_i hrun
      rw [hrun]
      obtain ⟨n', hdone'⟩ := hhandled
      cases input with
      | stop => exact ⟨stop_spec (dropMigration_spec hdone'.1), by simp⟩
      | _ => exact ⟨⟨n', hdone'⟩, by simp⟩
    · rename_i error actor hrun
      rw [hrun]
      have hstopped := hhandled.stopped
      refine ⟨⟨{ hstopped.1 with finished := fun hover => hstopped.1.finished ?_ }, hstopped.2⟩, ?_⟩
      · rintro rfl
        exact hover.1 rfl
      · simpa using hhandled.2

/-! ## Runs -/

theorem run_spec {session0 : Session} {h : List (Event Session Input Outcome)}
    (hst : start first pmtu = .ok session0) (run : Steps (next env) session0 h session) :
    SessionInv first [] (∀ e ∈ h, e.output ≠ .lost) session ∧
      ∀ e ∈ h, e.output ≠ .ended (some reentered) := by
  refine run.inv (P := fun h session => SessionInv first [] (∀ e ∈ h, e.output ≠ .lost) session ∧
    ∀ e ∈ h, e.output ≠ .ended (some reentered)) ⟨start_spec hst, by simp⟩ ?_
  rintro h session input - ⟨hinv, hevs⟩
  obtain ⟨hinv', houtp⟩ := next_spec input hinv
  exact ⟨hinv'.mono forall_mem_cons.1, forall_mem_cons.2 ⟨houtp, hevs⟩⟩

theorem activeAfter_append {added : List Entry}
    (h : ∀ previous next, .promoted previous next ∉ added) :
    activeAfter first (added ++ trace) = activeAfter first trace := by
  induction added with
  | nil => rfl
  | cons entry _ ih =>
    have hadded := ih fun previous next hmem => h previous next (mem_cons_of_mem _ hmem)
    cases entry with
    | promoted previous next => exact absurd (mem_cons_self ..) (h previous next)
    | _ => exact hadded

/-- One path is active, the one that the trace tells. A candidate belongs to the attempt that
    is under way. -/
structure OneActive (first : PathSocket) (actor : H3Actor) : Prop where
  active : actor.paths.active = some (activeAfter first actor.trace)
  activeRole : (activeAfter first actor.trace).role = .active
  candidate : ∀ path, actor.paths.candidate = some path → path.role = .candidate ∧
    ∃ attempt, attemptAfter actor.trace = some attempt ∧ attempt.candidate = some path
  retiring : ∀ path, actor.paths.retiring = some path → path.role = .retiring

theorem Inv.oneActive (h : Inv first base n actor) : OneActive first actor where
  active := h.active
  activeRole := h.activeRole
  candidate := by
    intro path hpath
    refine ⟨(h.candidateRole path hpath).1, ?_⟩
    cases hpend : actor.migration.pending with
    | none => cases hpath.symm.trans (Agrees.idle h hpend).2
    | some attempt =>
      obtain ⟨-, -, view, hview, his⟩ := Agrees.busy h attempt hpend
      exact ⟨view, hview, his.candidate_eq.symm.trans hpath⟩
  retiring := h.retiringRole

def samplePath : PathSocket where
  pathId := 0
  localAddr := .v4 10 5000
  peerAddr := .v4 99 443
  networkGeneration := 1
  role := .active
  socket := 7
  egressLease := ⟨1, some 1⟩
  receivePool := 0

/-- An environment that lets a migration to the generation 2 succeed. quiche has one packet
    for the candidate, and reports its validation later. -/
def sampleEnvironment : Environment where
  quicMigration := true
  automaticPmtu := true
  now _ := 0
  networkGeneration _ := some 2
  replyClosed _ := false
  endpointFamilyAvailable _ := none
  established _ := true
  stopping _ := false
  maintainConnectionIds _ := some .ready
  pathEventNext time :=
    if time = 44 then some (.validated (.v4 11 5001) (.v4 99 443)) else none
  pathValidated _ := true
  activePaths _ := [(.v4 10 5000, .v4 99 443)]
  migrateSource _ := true
  probePath _ := none
  availableDcids _ := 1
  sendOnPath time := if time = 34 then .ok ⟨1200, 0⟩ else .error .done
  sendBatch _ := .sent 1
  sendQuantum _ := 10000
  expires _ := false
  receiverRunning _ := true
  socketAddr _ := some (.v4 11 5001)
  batchIo _ := true
  completedPmtu _ := none
  probeSendError _ := false
  aborted _ _ := false

def sampleAnswers : PrepareAnswers where
  generationBefore := some 2
  bound := true
  lease := .ok ⟨2, some 2⟩
  generationProtected := some 2
  socket := some (8, .v4 11 5001)
  generationAfter := some 2
  generationRetry := some 2

def after (env : Environment) (session : Session) (inputs : List Input) : Session :=
  inputs.foldl (fun session input => (next env session input).1) session

theorem steps_after (env : Environment) (session : Session) (inputs : List Input) :
    ∃ h, Steps (next env) session h (after env session inputs) := by
  induction inputs using reverseRecOn with
  | nil => exact ⟨[], .nil⟩
  | append_singleton _ input ih =>
    obtain ⟨h, run⟩ := ih
    rw [after, foldl_append]
    exact ⟨_, run.snoc input⟩

def sampleInputs : List Input :=
  [.command 2 10000000000, .prepared fun _ => sampleAnswers, .tick, .tick]

def sampleStart : Session where
  actor := {
    migration := .new 1
    paths := ⟨some samplePath, none, none, 0⟩
    wireDatagrams := []
    pmtu := .withAutomatic ⟨.v4 10 5000, .v4 99 443⟩ true
    requests := 0
    trace := [] }
  running := true

theorem sampleStart_eq : start samplePath (.withAutomatic ⟨.v4 10 5000, .v4 99 443⟩ true) =
    .ok sampleStart := rfl

/-- The sample run: the candidate's socket sends, the candidate is promoted, and the request
    is answered. -/
theorem sample_run : ∃ h session, Steps (next sampleEnvironment) sampleStart h session ∧
    session.actor.paths.active.map (·.networkGeneration) = some 2 ∧
    (∃ path active barrier queued, .sent path active barrier queued ∈ session.actor.trace ∧
      path.role = .candidate) ∧
    replies 0 session.actor.trace = 1 := by
  obtain ⟨h, run⟩ := steps_after sampleEnvironment sampleStart sampleInputs
  refine ⟨h, _, run, by decide +kernel, ?_, by decide +kernel⟩
  exact ⟨candidateOf ⟨8, .v4 11 5001, .v4 99 443, 2, ⟨2, some 2⟩⟩ 1 0, some samplePath,
    ⟨some 0, true⟩, 0, by decide +kernel, rfl⟩

/-- **Migration promotes only a validated current candidate.**  In every run `promote` is
    called, and a path takes the place of the active one, only if it is the validated
    candidate of the attempt that is under way, the network generation read last is that of
    the attempt, and the generation increases. While the task runs one path is active, and a
    step without a promotion leaves it as it is. Failed attempts have not promoted their
    candidate, and no candidate is left of an attempt that is over. -/
theorem promotes_only_validated_candidate {pmtu : PmtuController} {session₀ session : Session}
    {h : List (Event Session Input Outcome)} (hstart : start first pmtu = .ok session₀)
    (run : Steps (next env) session₀ h session) :
    Always (Promotion first) session.actor.trace ∧
      (session.running = true → OneActive first session.actor) ∧
      (session.running = false → session.actor.paths.iter = []) ∧
      ∀ input, ∃ added, (next env session input).1.actor.trace = added ++ session.actor.trace ∧
        ((next env session input).1.running = true →
          (∀ previous next, .promoted previous next ∉ added) →
          (next env session input).1.actor.paths.active = session.actor.paths.active) := by
  have hinv := (run_spec hstart run).1
  have hone : ∀ {base : List Entry} {gone : Prop} {session : Session},
      SessionInv first base gone session → session.running = true → OneActive first session.actor := by
    intro base gone session hinv hrunning
    rw [SessionInv, if_pos hrunning] at hinv
    obtain ⟨n, hdone⟩ := hinv
    exact hdone.1.oneActive
  refine ⟨hinv.rules.1, hone hinv, fun hended => ?_, fun input => ?_⟩
  · rw [SessionInv, hended] at hinv
    exact hinv.2
  · have hnext : SessionInv first session.actor.trace _ (next env session input).1 :=
      (next_spec input hinv.rebase).1
    obtain ⟨added, hadded⟩ := hnext.grown
    refine ⟨added, hadded.symm, fun hrunning hnone => ?_⟩
    rw [(hone hnext hrunning).active, ← hadded, activeAfter_append hnone]
    have hbefore : session.running = true := by
      by_contra hended
      rw [Bool.not_eq_true] at hended
      rw [next, if_pos hended] at hrunning
      cases hended.symm.trans hrunning
    exact (hone hinv hbefore).active.symm

/-- A run in which the candidate is promoted. -/
theorem promotes_only_validated_candidate_sample :
    ∃ h session, Steps (next sampleEnvironment) sampleStart h session ∧
      session.actor.paths.active.map (·.networkGeneration) = some 2 ∧
      Always (Promotion samplePath) session.actor.trace := by
  obtain ⟨h, session, run, hpromoted, -⟩ := sample_run
  exact ⟨h, session, run, hpromoted, (promotes_only_validated_candidate sampleStart_eq run).1⟩

/-- **The queue follows the active path.**  While the task runs every queued datagram is one
    of the active path, so none of the path before is sent after a promotion. A candidate is
    open only for the attempt under way, and of a later generation than the active path. -/
theorem queue_follows_active {pmtu : PmtuController} {session₀ session : Session}
    {h : List (Event Session Input Outcome)} (hst : start first pmtu = .ok session₀)
    (run : Steps (next env) session₀ h session) (hrunning : session.running = true) :
    ∃ active, session.actor.paths.active = some active ∧
      active.networkGeneration ≤ session.actor.migration.highestGeneration ∧
      (∀ datagram ∈ session.actor.wireDatagrams,
        PathSocket.matches active datagram.source datagram.destination = true) ∧
      ∀ path, session.actor.paths.candidate = some path →
        active.networkGeneration < path.networkGeneration ∧
        ∃ attempt, session.actor.migration.pending = some attempt ∧
          attempt.targetGeneration = path.networkGeneration := by
  have hinv := (run_spec hst run).1
  rw [SessionInv, if_pos hrunning] at hinv
  obtain ⟨n, hagrees, -⟩ := hinv
  refine ⟨_, hagrees.active, hagrees.highest, hagrees.wire, fun path hpath => ?_⟩
  obtain ⟨-, hgen⟩ := hagrees.candidateRole path hpath
  cases hpend : session.actor.migration.pending with
  | none => cases (hagrees.idle hpend).2.symm.trans hpath
  | some attempt =>
    obtain ⟨htgt, hlt, -⟩ := hagrees.busy attempt hpend
    rw [hgen]
    exact ⟨hlt, attempt, rfl, htgt⟩

theorem queue_follows_active_sample :
    ∃ h session active, Steps (next sampleEnvironment) sampleStart h session ∧
      session.actor.paths.active = some active ∧
      active.networkGeneration ≤ session.actor.migration.highestGeneration := by
  obtain ⟨h, run⟩ := steps_after sampleEnvironment sampleStart sampleInputs
  obtain ⟨active, hactive, hle, -⟩ := queue_follows_active sampleStart_eq run (by decide +kernel)
  exact ⟨h, _, active, run, hactive, hle⟩

end

end Usque.Transport.H3
