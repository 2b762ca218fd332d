/-
  What the output of packets and the probe cycle of `tick` do to an H3 task.

  The queue holds packets of the active path only, so the task sends from the active
  socket. The candidate's socket is used by `sendCandidateControl` alone, while the
  barrier is closed and the active path is drained.
-/
import Usque.Transport.Migrating
import Usque.Transport.Publication

namespace Usque.Transport
open List

variable {E : H3Error → H3Actor → Prop} {destination source : SocketAddr}
  {active candidate path : PathSocket} {attempt : PendingMigration}

namespace PmtuController

theorem onPathPromoted_revalidates (controller : PmtuController) (key : PmtuPathKey) :
    ∃ controller' seen, controller.onPathPromoted key = some (controller', .revalidate seen) := by
  have hact : (controller.activatePath key).active = some key := by
    unfold activatePath
    split <;> rfl
  have htrk : ((controller.activatePath key).paths.any fun path => decide (path.key = key)) := by
    unfold activatePath
    split
    · assumption
    · simp [PathPmtuState.new]
  obtain ⟨i, hi⟩ : ∃ i, (controller.activatePath key).paths.findIdx?
      (fun path => decide (path.key = key)) = some i := by
    refine Option.isSome_iff_exists.1 ?_
    rwa [findIdx?_isSome]
  obtain ⟨hlt, -⟩ := findIdx?_eq_some_iff_getElem.1 hi
  simp only [onPathPromoted, modifyActive, hact, hi, getElem?_eq_getElem hlt,
    Option.bind_eq_bind, Option.bind_some, Option.pure_def]
  exact ⟨_, _, rfl⟩

end PmtuController

namespace H3
open Lib

section
variable {first : PathSocket} {base : List Entry} {n : ℕ} {actor : H3Actor} {env : Environment}

/-! ## Sending -/

/-- The migration and the paths are as they were. -/
structure Unmoved (actor actor' : H3Actor) : Prop where
  migration : actor'.migration = actor.migration
  paths : actor'.paths = actor.paths

theorem Unmoved.refl (actor : H3Actor) : Unmoved actor actor := ⟨rfl, rfl⟩

theorem Unmoved.trans {actor1 actor2 actor3 : H3Actor} (h : Unmoved actor1 actor2)
    (h' : Unmoved actor2 actor3) : Unmoved actor1 actor3 :=
  ⟨h'.migration.trans h.migration, h'.paths.trans h.paths⟩

/-- What is sent changes neither the migration nor the paths. -/
abbrev Stays (first : PathSocket) (base : List Entry) (n : ℕ) {α : Type} (m : Handler α)
    (actor : H3Actor) : Prop :=
  Ends m (fun _ actor' => Inv first base n actor' ∧ Unmoved actor actor') (Failed first base) actor

theorem ends_sendOnPath {Q : Except QuicheError WireDatagram → H3Actor → Prop}
    (h : ∀ result : Except QuicheError Output,
      Q (result.map fun output => ⟨output.length, source, destination, output.at⟩)
        (actor.log (.output source destination result))) :
    Ends (sendOnPath env source destination) Q E actor := h _

theorem ends_sendBatch {Q : SendResult → H3Actor → Prop}
    (habort : E (.aborted .sendBatch) (actor.log (.sent path actor.paths.active
      actor.migration.barrier actor.wireDatagrams.length)))
    (h : ∀ result, Q result (actor.log (.sent path actor.paths.active actor.migration.barrier
      actor.wireDatagrams.length))) :
    Ends (sendBatch env path) Q E actor := .bind (.bind (ends_awaits (.pure (h _)) habort))

theorem matches_iff {localAddr peerAddr : SocketAddr} :
    PathSocket.matches path localAddr peerAddr ↔
      path.localAddr = localAddr ∧ path.peerAddr = peerAddr := by
  simp [PathSocket.matches]

theorem ioForSend_active (h : Inv first base n actor)
    (hmatch : PathSocket.matches (activeAfter first actor.trace) source destination) :
    actor.paths.ioForSend source destination = .ok (activeAfter first actor.trace) := by
  obtain ⟨hlocal, hpeer⟩ := matches_iff.1 hmatch
  have hrole := Agrees.activeRole h
  simp [PathSocketSet.ioForSend, PathSocketSet.iter, Agrees.active h, hlocal, hpeer, hrole]

/-- The socket of a packet is not a retiring one. If it is the candidate's, the active path
    has another local address. -/
theorem ioForSend_spec (h : Inv first base n actor)
    (hpath : actor.paths.ioForSend source destination = .ok path) :
    path.role ≠ .retiring ∧
      (path.role = .candidate → (activeAfter first actor.trace).localAddr ≠ source) := by
  unfold PathSocketSet.ioForSend at hpath
  split at hpath
  · cases hpath
  · rename_i path' hfind
    split at hpath
    · cases hpath
    split at hpath
    · cases hpath
    · rename_i hrole
      cases hpath
      refine ⟨hrole, fun hcand hlocal => ?_⟩
      -- the active path is looked at first
      simp only [PathSocketSet.iter, Agrees.active h, Option.toList_some, cons_append,
        nil_append, find?_cons, hlocal, decide_true] at hfind
      cases hfind
      cases hcand.symm.trans (Agrees.activeRole h)

theorem sendDueWireDatagrams_spec (quantum : ℕ) (h : Inv first base n actor) :
    Stays first base n (sendDueWireDatagrams env quantum) actor := by
  refine .bind (.read ?_)
  cases hwire : actor.wireDatagrams with
  | nil => exact .pure ⟨h, .refl actor⟩
  | cons datagram rest =>
    have hinv := h.observed
    refine .bind (ends_now fun time => .ite (fun _ => .pure ⟨hinv, rfl, rfl⟩) fun _ => ?_)
    refine .bind (.read ?_)
    have hmatch := Agrees.wire hinv datagram (hwire ▸ mem_cons_self ..)
    rw [ioForSend_active hinv hmatch]
    refine .ite (fun _ => .pure ⟨hinv, rfl, rfl⟩) fun _ => ?_
    have hrole := Agrees.activeRole hinv
    have hsent : Inv first base n ((actor.log .observed).log (.sent
        (activeAfter first (actor.log .observed).trace) (actor.log .observed).paths.active
        (actor.log .observed).migration.barrier (actor.log .observed).wireDatagrams.length)) :=
      Agrees.sent hinv ⟨by simp [hrole], by simp [hrole]⟩
    have hdrop : ∀ count, Inv first base n { (actor.log .observed).log (.sent
        (activeAfter first (actor.log .observed).trace) (actor.log .observed).paths.active
        (actor.log .observed).migration.barrier (actor.log .observed).wireDatagrams.length) with
        wireDatagrams := actor.wireDatagrams.drop count } :=
      fun count => Agrees.requeue hsent fun datagram hmem => .inl (mem_of_mem_drop hmem)
    refine .bind (ends_sendBatch (hsent.failed (by decide)) fun result => ?_)
    cases result with
    | cancelled => exact .pure ⟨hsent, rfl, rfl⟩
    | tooLarge => exact .bind (.update (.pure ⟨hdrop 1, rfl, rfl⟩))
    | failed => exact .fail (hsent.failed (by decide))
    | sent count =>
      refine .bind (.ensure (fun _ => .bind (.update (.pure ⟨hdrop count, rfl, rfl⟩))) fun _ => ?_)
      exact hsent.failed (by decide)

theorem Inv.push (h : Inv first base n actor) {datagram : WireDatagram}
    (hmatch : PathSocket.matches (activeAfter first actor.trace) datagram.source
      datagram.destination) :
    Inv first base n { actor with wireDatagrams := actor.wireDatagrams ++ [datagram] } := by
  refine Agrees.requeue h fun datagram' hdatagram => ?_
  rcases mem_append.1 hdatagram with hmem | hmem
  · exact .inl hmem
  · cases mem_singleton.1 hmem
    exact .inr hmatch

theorem generateLoop_spec (quantum capacity room generated : ℕ) (h : Inv first base n actor)
    (hact : actor.paths.active = some active) :
    Stays first base n (generateLoop env active.binding quantum capacity room generated) actor := by
  induction room generalizing actor generated with
  | zero => exact .pure ⟨h, .refl actor⟩
  | succ room ih =>
    refine .ite (fun _ => .pure ⟨h, .refl actor⟩) fun _ => .bind (ends_sendOnPath fun result => ?_)
    have hinv : Inv first base n (actor.log (.output active.localAddr active.peerAddr result)) :=
      h.log trivial
    cases result with
    | ok =>
      refine .bind (.update ?_)
      refine (ih _ (hinv.push ?_) hact).mono (fun _ _ h => ⟨h.1, h.2.1, h.2.2⟩) fun _ _ => id
      cases hact.symm.trans (Agrees.active h)
      exact matches_iff.2 ⟨rfl, rfl⟩
    | error error => cases error <;> first | exact .pure ⟨hinv, rfl, rfl⟩ | exact .fail (hinv.failed (by decide))

theorem generateWireDatagrams_spec (capacity : ℕ) (h : Done first base n actor) :
    Finishes first base n (generateWireDatagrams env capacity) actor := by
  refine .bind (ends_ask (.bind (ends_now fun time => .bind (.read (.when (fun _ => ?_) fun _ => ?_)))))
  · refine .bind (.read ?_)
    have hinv := h.1.observed.observed
    cases hact : ((actor.log .observed).log .observed).paths.active with
    | none => exact .fail (hinv.failed (by decide))
    | some =>
      refine .bind (.read ((generateLoop_spec _ _ _ _ hinv hact).mono (fun _ _ hmoved => ?_)
        fun _ _ => id))
      exact ⟨hmoved.1, (congrArg _ hmoved.2.migration).trans h.2⟩
  · exact ⟨h.1.observed.observed, h.2⟩

theorem handlePmtuSendTooLarge_spec (probeOnly : Bool) (h : Inv first base n actor) :
    Stays first base n (handlePmtuSendTooLarge env probeOnly) actor := by
  refine .bind (ends_ask ?_)
  split
  · exact .fail (h.observed.failed (by decide))
  · refine .bind (ends_ask (.bind (ends_now fun time => .bind (.read ?_))))
    have hinv := h.observed.observed.observed
    dsimp only
    split
    · exact .fail (hinv.failed (by decide))
    · refine .bind (.update ?_)
      split
      · exact .fail (hinv.failed (by decide))
      · exact .pure ⟨hinv, rfl, rfl⟩

theorem handleWire_spec (quantum : ℕ) (h : Done first base n actor) :
    Finishes first base n (handleWire env quantum) actor := by
  refine (sendDueWireDatagrams_spec quantum h.1).andThen fun outcome actor1 ⟨hinv, hmoved⟩ => ?_
  have hbar : actor1.migration.barrier = .finished := hmoved.migration ▸ h.2
  split
  · refine .bind (ends_ask ?_)
    have hdiscard : Finishes first base n (Prog.when
        (env.probeSendError actor1.trace.length = false) discardPendingWireDatagrams)
        (actor1.log .observed) := by
      refine .when (fun _ => .update ⟨Agrees.requeue hinv.observed fun _ hmem => ?_, hbar⟩)
        fun _ => ⟨hinv.observed, hbar⟩
      cases hmem
    refine hdiscard.andThen fun _ actor2 hdone => ?_
    refine (handlePmtuSendTooLarge_spec _ hdone.1).mono (fun _ _ hpmtu => ⟨hpmtu.1, ?_⟩) fun _ _ => id
    rw [hpmtu.2.migration]
    exact hdone.2
  · exact .pure ⟨hinv, hbar⟩

theorem injectApplicationData_spec (h : Done first base n actor) :
    Ends injectApplicationData (fun _ => Done first base n) E actor := by
  refine .update ?_
  split
  · exact ⟨h.1.log trivial, h.2⟩
  · exact h

/-! ## The drain -/

theorem nextActiveOutput_spec (h : Inv first base n actor)
    (hact : actor.paths.active = some active) :
    Ends (nextActiveOutput env active.binding) (fun packet actor' => Inv first base n actor' ∧
      Unmoved actor actor' ∧
      (packet = none → actor'.wireDatagrams = [] ∧ drained active actor'.trace))
      (Failed first base) actor := by
  refine .bind (.read ?_)
  cases hwire : actor.wireDatagrams with
  | cons => exact .pure ⟨h, .refl actor, nofun⟩
  | nil =>
    refine .bind (ends_sendOnPath fun result => ?_)
    have hinv : Inv first base n (actor.log (.output active.localAddr active.peerAddr result)) :=
      h.log trivial
    cases result with
    | ok =>
      refine .bind (.update (.pure ⟨hinv.push ?_, ⟨rfl, rfl⟩, nofun⟩))
      cases hact.symm.trans (Agrees.active h)
      exact matches_iff.2 ⟨rfl, rfl⟩
    | error error =>
      cases error with
      | done =>
        refine .pure ⟨hinv, ⟨rfl, rfl⟩, fun _ => ⟨hwire, ?_⟩⟩
        simp [H3Actor.log, drained, PathSocket.matches, PathSocket.binding]
      | outOfIdentifiers | idLimit | other => exact .fail (hinv.failed (by decide))

theorem waitUntilDue_spec (due : ℕ) (h : Inv first base n actor) :
    Ends (waitUntilDue env due) (fun _ actor' => Asked actor actor') (Failed first base) actor := by
  refine .bind (ends_now fun time => .ite (fun _ => ?_) fun _ => .pure (.observed actor))
  refine .bind (ends_awaits (ends_ask ?_) (h.observed.failed (by decide)))
  exact (Asked.observed actor).trans (.observed _)

/-- **The drain ends with the active path drained**, or it does not say so. -/
theorem drainActiveOutput_spec (rounds packets : ℕ) (h : Inv first base n actor)
    (hact : actor.paths.active = some active) :
    Ends (drainActiveOutput env active.binding rounds packets) (fun result actor' =>
      Inv first base n actor' ∧ Unmoved actor actor' ∧
      ∀ count, result = .drained count → actor'.wireDatagrams = [] ∧ drained active actor'.trace)
      (Failed first base) actor := by
  induction rounds generalizing actor packets with
  | zero => exact .pure ⟨h, .refl actor, nofun⟩
  | succ rounds ih =>
    refine .ite (fun _ => .pure ⟨h, .refl actor, nofun⟩) fun _ => ?_
    refine (nextActiveOutput_spec h hact).andThen fun packet actor1 ⟨hinv1, hmoved1, hnone⟩ => ?_
    cases packet with
    | none => exact .pure ⟨hinv1, hmoved1, fun _ _ => hnone rfl⟩
    | some datagram =>
      refine .bind (.ensure (fun _ => ?_) fun _ => hinv1.failed (by decide))
      refine (waitUntilDue_spec _ hinv1).andThen fun late actor2 hask => ?_
      have hinv2 := hask.inv first base n hinv1
      have hmoved2 : Unmoved actor actor2 := hmoved1.trans ⟨hask.migration, hask.paths⟩
      refine .ite (fun _ => .pure ⟨hinv2, hmoved2, nofun⟩) fun _ => ?_
      refine .bind (.read (.bind (ends_ask ?_)))
      refine (sendDueWireDatagrams_spec _ hinv2.observed).andThen fun outcome actor3 ⟨hinv3, hsent⟩ => ?_
      have hmoved3 : Unmoved actor actor3 := hmoved2.trans ⟨hsent.migration, hsent.paths⟩
      cases outcome with
      | cancelled => exact .pure ⟨hinv3, hmoved3, nofun⟩
      | messageTooLarge =>
        refine .bind (.update (.pure ⟨Agrees.requeue hinv3 fun _ hmem => ?_, ⟨hmoved3.1, hmoved3.2⟩,
          nofun⟩))
        cases hmem
      | sent =>
        refine .bind (.read (.ite (fun _ => ?_) fun _ => ?_))
        · exact .pure ⟨hinv3, hmoved3, nofun⟩
        · refine (ih _ hinv3 (hmoved3.paths ▸ hact)).mono (fun _ _ hdrain => ?_) fun _ _ => id
          exact ⟨hdrain.1, hmoved3.trans hdrain.2.1, hdrain.2.2⟩

/-! ## The candidate -/

/-- The barrier is closed and the active path is drained. -/
structure Blocked (active candidate : PathSocket) (actor : H3Actor) : Prop where
  active_eq : actor.paths.active = some active
  barrier : actor.migration.barrier.candidateSendAllowed = true
  wire : actor.wireDatagrams = []
  drained : PathSocket.matches active candidate.localAddr candidate.peerAddr = false →
    drained active actor.trace = true

section
variable (h : Blocked active candidate actor)
include h

theorem Blocked.asked {actor' : H3Actor} (hask : Asked actor actor') :
    Blocked active candidate actor' where
  active_eq := hask.paths ▸ h.active_eq
  barrier := hask.migration ▸ h.barrier
  wire := hask.wire ▸ h.wire
  drained := fun hmatch => hask.drained _ (h.drained hmatch)

theorem Blocked.output (result : Except QuicheError Output) :
    Blocked active candidate
      (actor.log (.output candidate.localAddr candidate.peerAddr result)) where
  active_eq := h.active_eq
  barrier := h.barrier
  wire := h.wire
  drained := by
    intro hmatch
    simp only [H3Actor.log, H3.drained, hmatch, Bool.false_eq_true, if_false]
    exact h.drained hmatch

/-- **The candidate's socket sends only while the barrier is closed and the active path is
    drained.** -/
theorem Blocked.sending (hinv : Inv first base n actor)
    (hpath : actor.paths.ioForSend candidate.localAddr candidate.peerAddr = .ok path) :
    Sending (.sent path actor.paths.active actor.migration.barrier actor.wireDatagrams.length)
      actor.trace := by
  obtain ⟨hret, hlocal⟩ := ioForSend_spec hinv hpath
  refine ⟨hret, fun hrole => ?_⟩
  have hact : active = activeAfter first actor.trace :=
    Option.some.inj (h.active_eq.symm.trans (Agrees.active hinv))
  have hmatch : PathSocket.matches active candidate.localAddr candidate.peerAddr = false := by
    rw [Bool.eq_false_iff]
    intro hmatch
    rw [hact] at hmatch
    exact hlocal hrole (matches_iff.1 hmatch).1
  have hbar := h.barrier
  refine ⟨?_, hbar, by rw [h.wire]; rfl, active, h.active_eq, h.drained hmatch⟩
  cases hst : actor.migration.barrier.startedAt with
  | none => simp [MigrationTxBarrier.candidateSendAllowed, hst] at hbar
  | some => simp [MigrationTxBarrier.allowsApplicationInjection, hst]

end

theorem sendCandidateControl_spec (deadline budget : ℕ) (h : Inv first base n actor)
    (hblocked : Blocked active candidate actor) :
    Stays first base n (sendCandidateControl env candidate.binding deadline budget) actor := by
  induction budget generalizing actor with
  | zero => exact .pure ⟨h, .refl actor⟩
  | succ budget ih =>
    refine .bind (ends_now fun time => .ite (fun _ => .pure ⟨h.observed, rfl, rfl⟩) fun _ => ?_)
    refine .bind (ends_sendOnPath fun result => ?_)
    have hinv : Inv first base n ((actor.log .observed).log
        (.output candidate.localAddr candidate.peerAddr result)) := h.observed.log trivial
    have hblocked1 := (hblocked.asked (.observed actor)).output result
    cases result with
    | error error =>
      cases error with
      | done => exact .pure ⟨hinv, rfl, rfl⟩
      | outOfIdentifiers | idLimit | other =>
        exact .bind (ends_ask (.pure ⟨hinv.observed, rfl, rfl⟩))
    | ok =>
      refine .ite (fun _ => .pure ⟨hinv, rfl, rfl⟩) fun _ => ?_
      refine (waitUntilDue_spec _ hinv).andThen fun late actor1 hask => ?_
      have hinv1 := hask.inv first base n hinv
      have hblocked2 := hblocked1.asked hask
      have hmoved : Unmoved actor actor1 := ⟨hask.migration, hask.paths⟩
      refine .ite (fun _ => .pure ⟨hinv1, hmoved⟩) fun _ => .bind (.read ?_)
      split
      · exact .pure ⟨hinv1, hmoved⟩
      · rename_i path hpath
        have hsent : Inv first base n (actor1.log (.sent path actor1.paths.active
            actor1.migration.barrier actor1.wireDatagrams.length)) :=
          Agrees.sent hinv1 (hblocked2.sending hinv1 hpath)
        refine .bind (ends_sendBatch (hsent.failed (by decide)) fun result => ?_)
        split
        · have hblocked3 : Blocked active candidate (actor1.log (.sent path actor1.paths.active
              actor1.migration.barrier actor1.wireDatagrams.length)) :=
            ⟨hblocked2.active_eq, hblocked2.barrier, hblocked2.wire, hblocked2.drained⟩
          refine (ih hsent hblocked3).mono (fun _ _ hctl => ?_) fun _ _ => id
          exact ⟨hctl.1, hmoved.trans ⟨hctl.2.migration, hctl.2.paths⟩⟩
        · exact .pure ⟨hsent, hmoved.migration, hmoved.paths⟩
        · exact .pure ⟨hsent, hmoved.migration, hmoved.paths⟩

/-! ## Promotion -/

theorem promoteCandidate_eq_ok {paths paths' : PathSocketSet} {binding : PathBinding}
    {running : Bool} (h : paths.promoteCandidate running = .ok (paths', binding)) :
    ∃ previous next, paths.active = some previous ∧ paths.candidate = some next ∧
      binding = next.binding ∧
      paths' = { paths with
        active := some { next with role := .active }
        candidate := none
        retiring := some { previous with role := .retiring } } := by
  unfold PathSocketSet.promoteCandidate at h
  split at h
  · cases h
  split at h
  · rename_i next previous hnext hprev
    cases h
    exact ⟨previous, next, hprev, hnext, rfl, rfl⟩
  · cases h

/-- What `promote` knows when it swaps the paths. -/
structure Promotable (candidate : PathSocket) (actor : H3Actor) : Prop where
  pending : ∃ attempt, actor.migration.pending = some attempt ∧ attempt.phase = .validated
  candidate_eq : actor.paths.candidate = some candidate
  generation : lastGeneration actor.trace = some candidate.networkGeneration
  wire : actor.wireDatagrams = []

/-- **The swap of the paths and the answer to the request.** -/
theorem swap_spec (h : Inv first base n actor) (hpromotable : Promotable candidate actor) :
    Ends (do finishPromotion env (← promoteCandidate env))
      (fun _ => Inv first base n) (Failed first base) actor := by
  obtain ⟨attempt, hpend, hph⟩ := hpromotable.pending
  obtain ⟨-, -, view, -, his⟩ := Agrees.busy h attempt hpend
  refine .bind (.bind (ends_ask (.bind (.read ?_))))
  have hact := Agrees.active h.observed
  have hcand : (actor.log .observed).paths.candidate = some candidate :=
    hpromotable.candidate_eq
  split
  · exact .fail (h.observed.failed (by decide))
  · rename_i paths' binding hprom
    obtain ⟨previous, next, hprev, hnext, rfl, rfl⟩ := promoteCandidate_eq_ok hprom
    cases hact.symm.trans hprev
    cases hcand.symm.trans hnext
    rw [hact, hcand]
    refine .bind (.update (.pure (.bind (.read ?_))))
    generalize (actor.log .observed).pmtu = controller
    obtain ⟨controller', seen, hrevalidate⟩ := controller.onPathPromoted_revalidates
      ⟨candidate.binding.localAddr, candidate.binding.peerAddr⟩
    rw [hrevalidate]
    refine .bind (ends_now fun time => .bind (.read (.bind (.update ?_))))
    dsimp only [H3Actor.log]
    rw [hpend]
    dsimp only
    rw [his.reply]
    refine .update ?_
    have hwire := hpromotable.wire
    have hobs := h.observed
    dsimp only [H3Actor.log] at hobs ⊢
    rw [hwire] at hobs ⊢
    exact hobs.promote hpend his.reply hph hcand hpromotable.generation

theorem promote_spec (h : Inv first base n actor)
    (hpend : actor.migration.pending = some attempt) (hph : attempt.phase = .validated)
    (hcand : actor.paths.candidate = some candidate)
    (hgen : lastGeneration actor.trace = some attempt.targetGeneration) :
    Ends (promote env candidate.binding) (fun _ => Inv first base n) (Failed first base) actor := by
  have hgiveUp : ∀ actor', Inv first base n actor' → ∀ reason, Ends (abort env reason)
      (fun _ => Inv first base n) (Failed first base) actor' :=
    fun actor' hinv reason => (abort_done hinv reason).mono (fun _ _ h => h.1) fun _ _ => id
  have htgt : attempt.targetGeneration = candidate.networkGeneration :=
    (Agrees.busy h attempt hpend).1.trans (Agrees.candidateRole h candidate hcand).2.symm
  have hpromoting : Inv first base n (actor.log (.promoting candidate.binding)) :=
    Agrees.promoting h (Agrees.validated h hpend hph hcand (hgen.trans (congrArg some htgt)))
  refine .bind (.update (.bind (ends_ask (.bind (ends_ask ?_)))))
  refine .bind (ends_networkGeneration fun current => .bind (ends_ask (.bind (.read ?_))))
  have hinv : Inv first base n ((((((actor.log (.promoting candidate.binding)).log .observed).log
      .observed).log (.generation current)).log .observed)) :=
    Inv.observed (hpromoting.observed.observed.log trivial)
  refine .ite (fun _ => hgiveUp _ hinv _) fun hrdy => .bind (ends_ask ?_)
  refine .ite (fun _ => hgiveUp _ hinv.observed _) fun _ => ?_
  push Not at hrdy
  exact swap_spec hinv.observed ⟨⟨attempt, hpend, hph⟩, hcand, hrdy.2.2.1, hrdy.2.2.2.2⟩

/-! ## The cycle -/

theorem finishBarrier_spec (h : Inv first base n actor) :
    Ends finishBarrier (fun _ => Done first base n) E actor := ends_modifyMigration ⟨h, rfl⟩

theorem deferProbe_done (h : Done first base n actor) :
    Ends (deferProbe env) (fun _ => Done first base n) E actor :=
  (deferProbe_spec h.1).mono (fun _ _ hdefer => ⟨hdefer.1, hdefer.2.trans h.2⟩) fun _ _ => id

theorem probeOrPromote_spec (cycleDeadline packets : ℕ) (h : Inv first base n actor)
    (hpend : actor.migration.pending = some attempt)
    (hcand : actor.paths.candidate = some candidate) (hblocked : Blocked active candidate actor) :
    Finishes first base n
      (probeOrPromote env attempt.phase candidate.binding cycleDeadline packets) actor := by
  refine .bind (ends_now fun time => ?_)
  refine (invalidAttemptReason_spec time).andThen fun reason actor1 ⟨hask, hval⟩ => ?_
  have hinv := hask.inv first base n h.observed
  have hpend1 : actor1.migration.pending = some attempt := hask.migration ▸ hpend
  have hcand1 : actor1.paths.candidate = some candidate := hask.paths ▸ hcand
  cases reason with
  | some reason =>
    exact (finishBarrier_spec hinv).andThen fun _ _ hdone => abort_done hdone.1 reason
  | none =>
    refine .ite (fun hph => ?_) fun _ => .bind (ends_ask ?_)
    · obtain ⟨trace, htrace, -⟩ := hval rfl attempt hpend
      refine (promote_spec hinv hpend1 hph hcand1 ?_).andThen
        fun _ _ hinv' => finishBarrier_spec hinv'
      rw [htrace]
      rfl
    · split
      · refine .bind (ends_ask ?_)
        exact (finishBarrier_spec hinv.observed.observed).andThen
          fun _ _ hdone => abort_done hdone.1 _
      · have hblocked1 := (hblocked.asked (.observed actor)).asked (hask.trans (.observed actor1))
        refine (sendCandidateControl_spec _ _ hinv.observed hblocked1).andThen
          fun sent actor2 ⟨hinv2, _⟩ => ?_
        refine (finishBarrier_spec hinv2).andThen fun _ actor3 hdone => ?_
        cases sent with
        | none => exact deferProbe_done hdone
        | some reason => exact abort_done hdone.1 reason

theorem beginBarrier_spec (h : Done first base n actor) :
    Ends (beginBarrier env) (fun _ actor' => Inv first base n actor' ∧
      actor'.migration.pending = actor.migration.pending ∧ actor'.paths = actor.paths ∧
      actor'.migration.barrier.startedAt.isSome) (Failed first base) actor := by
  refine .bind (ends_now fun time => .bind (.read ?_))
  rw [show (actor.log .observed).migration.barrier = .finished from h.2]
  exact .update ⟨Agrees.plain h.1.observed trivial, rfl, rfl, rfl⟩

theorem completeActiveDrain_barrier {barrier : MigrationTxBarrier} (time packets : ℕ)
    (hst : barrier.startedAt.isSome) :
    ((barrier.completeActiveDrain time packets true).1 ∧
      (barrier.completeActiveDrain time packets true).2.candidateSendAllowed) ∨
    ((barrier.completeActiveDrain time packets true).1 = false ∧
      (barrier.completeActiveDrain time packets true).2 = .finished) := by
  obtain ⟨started, hst⟩ := Option.isSome_iff_exists.1 hst
  simp only [MigrationTxBarrier.completeActiveDrain, hst]
  split
  · exact .inr ⟨rfl, rfl⟩
  · exact .inl ⟨rfl, rfl⟩

theorem completeActiveDrain_spec (candidate : PathSocket) (packets : ℕ)
    (h : Inv first base n actor) (hst : actor.migration.barrier.startedAt.isSome)
    (hact : actor.paths.active = some active) (hwire : actor.wireDatagrams = [])
    (hdrn : drained active actor.trace) :
    Ends (completeActiveDrain env packets) (fun complete actor' => Inv first base n actor' ∧
      actor'.migration.pending = actor.migration.pending ∧ actor'.paths = actor.paths ∧
      (complete = false → actor'.migration.barrier = .finished) ∧
      (complete → Blocked active candidate actor')) E actor := by
  refine .bind (ends_now fun time => .bind (.read (.bind (ends_modifyMigration (.pure ?_)))))
  refine ⟨h.observed, rfl, rfl, ?_⟩
  have hbar : (actor.log .observed).migration.barrier.startedAt.isSome := hst
  rcases completeActiveDrain_barrier time packets hbar with ⟨htrue, hall⟩ | ⟨hfls, hopen⟩
  · refine ⟨fun hfls => ?_, fun _ => ⟨hact, hall, hwire, fun _ => hdrn⟩⟩
    cases htrue.symm.trans hfls
  · refine ⟨fun _ => hopen, fun htrue => ?_⟩
    cases hfls.symm.trans htrue

theorem probeCycle_spec (cycleDeadline : ℕ) (h : Done first base n actor)
    (hpend : actor.migration.pending = some attempt) :
    Finishes first base n (probeCycle env attempt.phase cycleDeadline) actor := by
  refine .bind (.read ?_)
  cases hact : actor.paths.active with
  | none => exact abort_done h.1 _
  | some active =>
    refine .bind (.read ?_)
    cases hcand : actor.paths.candidate with
    | none => exact abort_done h.1 _
    | some candidate =>
      refine (beginBarrier_spec h).andThen fun _ actor1 ⟨hinv1, hpend1, hpaths1, hst⟩ => ?_
      have hact1 : actor1.paths.active = some active := hpaths1 ▸ hact
      refine .bind (.attempt ((drainActiveOutput_spec _ _ hinv1 hact1).mono ?_ ?_))
      · rintro result actor2 ⟨hinv2, hmoved, hdrn⟩
        have hpend2 : actor2.migration.pending = some attempt := by
          rw [hmoved.migration, hpend1, hpend]
        have hpaths2 : actor2.paths = actor.paths := hmoved.paths.trans hpaths1
        cases result with
        | messageTooLarge =>
          refine (finishBarrier_spec hinv2).andThen fun _ actor3 hdone => ?_
          refine (handlePmtuSendTooLarge_spec false hdone.1).andThen fun _ actor4 ⟨hinv4, hmoved4⟩ => ?_
          exact deferProbe_done ⟨hinv4, hmoved4.migration ▸ hdone.2⟩
        | deferred | timedOut =>
          exact (finishBarrier_spec hinv2).andThen fun _ _ hdone => deferProbe_done hdone
        | drained packets =>
          obtain ⟨hwire, hdrn⟩ := hdrn packets rfl
          refine (completeActiveDrain_spec candidate packets hinv2 (hmoved.migration ▸ hst)
            (hpaths2 ▸ hact) hwire hdrn).andThen
            fun complete actor3 ⟨hinv3, hpend3, hpaths3, hopen, hblocked⟩ => ?_
          refine .ite (fun hcomp => ?_) fun hcomp => ?_
          · exact deferProbe_done ⟨hinv3, hopen hcomp⟩
          · refine probeOrPromote_spec _ _ hinv3 (hpend3.trans hpend2) ?_
              (hblocked (by simpa using hcomp))
            rw [hpaths3, hpaths2, hcand]
      · exact fun error actor2 hfail => .bind (ends_modifyMigration (.fail hfail))

theorem verifyActiveBinding_spec (h : Done first base n actor) :
    Finishes first base n (verifyActiveBinding env) actor := by
  refine .bind (.read ?_)
  cases actor.paths.active with
  | none => exact .fail (h.1.failed (by decide))
  | some active =>
    have hdone : Done first base n (actor.log .observed) := ⟨h.1.observed, h.2⟩
    exact .bind (ends_ask (.ensure (fun _ => hdone) fun _ => hdone.1.failed (by decide)))

/-- **`tick` keeps the task in agreement with its trace**, leaves the barrier open, and does
    not set it twice. -/
theorem tick_spec (h : Done first base n actor) :
    Finishes first base n (tick env) actor := by
  refine .bind (ends_now fun time => .bind (.read ?_))
  have hobs : Done first base n (actor.log .observed) := ⟨h.1.observed, h.2⟩
  have hret : Finishes first base n (Prog.when
      ((actor.log .observed).migration.retiringDeadline.any (time ≥ ·)) (clearRetiring env))
      (actor.log .observed) := by
    refine .when (fun _ => ?_) fun _ => hobs
    refine (clearRetiring_spec hobs.1).mono (fun _ _ hclear => ⟨hclear.1, ?_⟩) fun _ _ => id
    rw [hclear.2.1]
    exact hobs.2
  refine hret.andThen fun _ actor1 hdone1 => .bind (ends_ask ?_)
  refine .ite (fun _ => abort_done hdone1.1.observed _) fun _ => ?_
  refine (abortIfInvalid_spec hdone1.1.observed time hdone1.2).andThen fun _ actor2 hdone2 => ?_
  refine (processPathEvents_spec _ hdone2).andThen fun _ actor3 hdone3 => ?_
  refine (verifyActiveBinding_spec hdone3).andThen fun _ actor4 hdone4 => .bind (.read ?_)
  cases hpend : actor4.migration.pending with
  | none => exact .pure hdone4
  | some =>
    refine .ite (fun _ => .pure hdone4) fun _ => .bind (ends_now fun later => .bind (.read ?_))
    have hdone5 : Done first base n (actor4.log .observed) := ⟨hdone4.1.observed, hdone4.2⟩
    exact .when (fun _ => probeCycle_spec _ hdone5 hpend) fun _ => hdone5

end

end H3

end Usque.Transport
