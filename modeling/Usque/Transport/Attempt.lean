/-
  The trace of an H3 task, and how the state of the task agrees with it.
-/
import Mathlib.Data.List.Count
import Usque.Lib.History
import Usque.Transport.MigrationActor

namespace Usque.Transport.H3
open Lib List

variable {attempt : PendingMigration} {path : PathSocket} {request : ℕ}

/-! ## Reading the trace -/

/-- How far the validation of a candidate is: quiche has reported it, and the network
    generation was current when the report was handled. -/
inductive Validation where
  | awaited
  | reported
  | confirmed
deriving DecidableEq

/-- A migration attempt, as the trace tells it. -/
structure Attempt where
  request : ℕ
  targetGeneration : ℕ
  candidate : Option PathSocket
  validation : Validation
  promoted : Bool

namespace Attempt

def onEvent (event : PathEvent) (attempt : Attempt) : Attempt :=
  match event with
  | .validated localAddr peerAddr =>
    if attempt.candidate.any (PathSocket.matches · localAddr peerAddr) = true ∧
        attempt.validation = .awaited then
      { attempt with validation := .reported }
    else attempt
  | _ => attempt

/-- A network generation read during the attempt. -/
def onGeneration (current : Option ℕ) (attempt : Attempt) : Attempt :=
  if attempt.validation = .reported then
    { attempt with
      validation := if current = some attempt.targetGeneration then .confirmed else .awaited }
  else attempt

def onReleased (path : PathSocket) (attempt : Attempt) : Attempt :=
  if path.role = .candidate then { attempt with candidate := none } else attempt

end Attempt

def attemptAfter : List Entry → Option Attempt
  | [] => none
  | .accepted request targetGeneration :: _ =>
    some ⟨request, targetGeneration, none, .awaited, false⟩
  | .replied request _ :: trace => (attemptAfter trace).filter (·.request ≠ request)
  | .inserted path :: trace =>
    (attemptAfter trace).map fun attempt =>
      { attempt with candidate := some path, validation := .awaited }
  | .pathEvent event :: trace => (attemptAfter trace).map (.onEvent event)
  | .generation current :: trace => (attemptAfter trace).map (.onGeneration current)
  | .released path :: trace => (attemptAfter trace).map (.onReleased path)
  | .promoted _ _ :: trace =>
    (attemptAfter trace).map fun attempt => { attempt with candidate := none, promoted := true }
  | _ :: trace => attemptAfter trace

/-- The active path after a trace; `first` is the one that the task started with. -/
def activeAfter (first : PathSocket) : List Entry → PathSocket
  | [] => first
  | .promoted _ next :: _ => { next with role := .active }
  | _ :: trace => activeAfter first trace

def lastGeneration : List Entry → Option ℕ
  | [] => none
  | .generation current :: _ => current
  | _ :: trace => lastGeneration trace

/-- Whether quiche has no more packets for a path, since the barrier was set and without
    application data since then. -/
def drained (active : PathSocket) : List Entry → Bool
  | [] => false
  | .output source destination result :: trace =>
    if PathSocket.matches active source destination then decide (result = .error .done)
    else drained active trace
  | .injected :: _ | .begun :: _ | .promoted _ _ :: _ => false
  | _ :: trace => drained active trace

def Entry.answers : Entry → Option ℕ
  | .replied request _ => some request
  | _ => none

def Entry.accepts : Entry → Option ℕ
  | .accepted request _ => some request
  | _ => none

def replies (request : ℕ) (trace : List Entry) : ℕ := trace.countP (·.answers = some request)

/-- Every accepted request was answered once, but the one that is under way. -/
def Answered (trace : List Entry) : Prop :=
  ∀ request, (∃ entry ∈ trace, entry.accepts = some request) →
    replies request trace = if (attemptAfter trace).any (·.request = request) then 0 else 1

/-! ## The rules of the trace -/

/-- After the entries `trace`, `path` is the candidate of the attempt that is under way. It
    has been validated, and the network generation is still that of the attempt. -/
def Validated (path : PathSocket) (trace : List Entry) : Prop :=
  ∃ attempt, attemptAfter trace = some attempt ∧ attempt.promoted = false ∧
    attempt.candidate = some path ∧ attempt.validation = .confirmed ∧
    path.networkGeneration = attempt.targetGeneration ∧
    lastGeneration trace = some attempt.targetGeneration

/-- What holds when `promote` is called, when a path is promoted and when a request is
    answered, after the entries `trace`. -/
def Promotion (first : PathSocket) (entry : Entry) (trace : List Entry) : Prop :=
  match entry with
  | .promoting candidate => ∃ path, path.binding = candidate ∧ Validated path trace
  | .promoted previous next =>
    previous = activeAfter first trace ∧ Validated next trace ∧
      previous.networkGeneration < next.networkGeneration
  | .replied request (.failed _) =>
    ∃ attempt, attemptAfter trace = some attempt ∧ attempt.request = request ∧
      attempt.promoted = false
  | .replied request (.promoted networkGeneration) =>
    ∃ attempt, attemptAfter trace = some attempt ∧ attempt.request = request ∧
      attempt.promoted = true ∧ networkGeneration = attempt.targetGeneration
  | _ => True

/-- What holds when packets are given to a socket, after the entries `trace`. -/
def Sending (entry : Entry) (trace : List Entry) : Prop :=
  match entry with
  | .sent path active barrier queued =>
    path.role ≠ .retiring ∧
      (path.role = .candidate →
        barrier.allowsApplicationInjection = false ∧ barrier.candidateSendAllowed = true ∧
        queued = 0 ∧ ∃ path', active = some path' ∧ drained path' trace = true)
  | _ => True

/-- An entry that leaves paths, requests and sockets alone. -/
def Entry.Plain : Entry → Prop
  | .observed | .generation _ | .pathEvent _ | .output _ _ _ | .injected | .begun => True
  | _ => False

/-! ## The state and the trace -/

/-- A pending migration is the attempt of the trace. -/
structure IsAttempt (pending : PendingMigration) (candidate : Option PathSocket)
    (attempt : Attempt) : Prop where
  reply : pending.reply = some attempt.request
  target : pending.targetGeneration = attempt.targetGeneration
  candidate_eq : candidate = attempt.candidate
  unpromoted : attempt.promoted = false
  confirmed : pending.phase = .validated → attempt.validation = .confirmed
  preparing : ∀ preparation, pending.preparation = some preparation →
    pending.phase = .preparingSocket ∧ preparation.targetGeneration = pending.targetGeneration

/-- The state of a task agrees with its trace, which began with `base`. The numbers of the
    requests in the trace are below `n`. -/
structure Agrees (first : PathSocket) (base : List Entry) (n : ℕ)
    (pending : Option PendingMigration) (highest : ℕ) (paths : PathSocketSet)
    (wire : List WireDatagram) (requests : ℕ) (trace : List Entry) : Prop where
  grown : base <:+ trace
  active : paths.active = some (activeAfter first trace)
  activeRole : (activeAfter first trace).role = .active
  candidateRole : ∀ path, paths.candidate = some path →
    path.role = .candidate ∧ path.networkGeneration = highest
  retiringRole : ∀ path, paths.retiring = some path → path.role = .retiring
  idle : pending = none → attemptAfter trace = none ∧ paths.candidate = none
  busy : ∀ attempt, pending = some attempt →
    attempt.targetGeneration = highest ∧ (activeAfter first trace).networkGeneration < highest ∧
    ∃ attempt', attemptAfter trace = some attempt' ∧ IsAttempt attempt paths.candidate attempt'
  highest : (activeAfter first trace).networkGeneration ≤ highest
  wire : ∀ datagram ∈ wire,
    PathSocket.matches (activeAfter first trace) datagram.source datagram.destination = true
  bound_le : n ≤ requests
  numbers : ∀ entry ∈ trace, ∀ request,
    entry.accepts = some request ∨ entry.answers = some request → request < n
  answered : Answered trace
  current : ∀ attempt, attemptAfter trace = some attempt →
    ∃ entry ∈ trace, entry.accepts = some attempt.request
  promotions : Always (Promotion first) trace
  sends : Always Sending trace

/-! ## Entries that change nothing -/

/-- Two views of an attempt, of which the second may know more of the validation. -/
structure Attempt.Similar (attempt attempt' : Attempt) : Prop where
  request : attempt'.request = attempt.request
  target : attempt'.targetGeneration = attempt.targetGeneration
  candidate : attempt'.candidate = attempt.candidate
  promoted : attempt'.promoted = attempt.promoted
  confirmed : attempt.validation = .confirmed → attempt'.validation = .confirmed

theorem Attempt.similar_onEvent (event : PathEvent) (attempt : Attempt) :
    attempt.Similar (attempt.onEvent event) := by
  unfold onEvent
  split
  · split
    · rename_i hif
      exact ⟨rfl, rfl, rfl, rfl, fun h => by simp [h] at hif⟩
    · exact ⟨rfl, rfl, rfl, rfl, id⟩
  · exact ⟨rfl, rfl, rfl, rfl, id⟩

theorem Attempt.similar_onGeneration (current : Option ℕ) (attempt : Attempt) :
    attempt.Similar (attempt.onGeneration current) := by
  unfold onGeneration
  split
  · rename_i hif
    exact ⟨rfl, rfl, rfl, rfl, fun h => by simp [h] at hif⟩
  · exact ⟨rfl, rfl, rfl, rfl, id⟩

section
variable {first : PathSocket} {base : List Entry} {n highest requests : ℕ} {pending : Option PendingMigration}
  {paths : PathSocketSet} {wire : List WireDatagram} {trace : List Entry} {entry : Entry}

theorem activeAfter_plain (hplain : entry.Plain) :
    activeAfter first (entry :: trace) = activeAfter first trace := by
  cases entry <;> first | rfl | exact absurd hplain id

theorem attemptAfter_plain (hplain : entry.Plain) :
    ∃ change : Attempt → Attempt, (∀ attempt, Attempt.Similar attempt (change attempt)) ∧
      attemptAfter (entry :: trace) = (attemptAfter trace).map change := by
  cases entry with
  | generation current => exact ⟨_, Attempt.similar_onGeneration current, rfl⟩
  | pathEvent event => exact ⟨_, Attempt.similar_onEvent event, rfl⟩
  | observed | output _ _ _ | injected | begun =>
    exact ⟨id, fun _ => ⟨rfl, rfl, rfl, rfl, id⟩, by rw [Option.map_id]; rfl⟩
  | _ => exact absurd hplain id

theorem plain_numbers (hplain : entry.Plain) : entry.accepts = none ∧ entry.answers = none := by
  cases entry <;> first | exact ⟨rfl, rfl⟩ | exact absurd hplain id

theorem replies_cons_of_none (hans : entry.answers = none) (request : ℕ) :
    replies request (entry :: trace) = replies request trace := by
  simp [replies, hans]

theorem IsAttempt.similar {candidate : Option PathSocket} {view view' : Attempt}
    (h : IsAttempt attempt candidate view) (hsim : view.Similar view') :
    IsAttempt attempt candidate view' where
  reply := h.reply.trans (congrArg some hsim.request.symm)
  target := h.target.trans hsim.target.symm
  candidate_eq := h.candidate_eq.trans hsim.candidate.symm
  unpromoted := hsim.promoted.trans h.unpromoted
  confirmed := fun hph => hsim.confirmed (h.confirmed hph)
  preparing := h.preparing

theorem numbers_cons (h : ∀ entry ∈ trace, ∀ request,
      entry.accepts = some request ∨ entry.answers = some request → request < n)
    (hent : entry.accepts = none ∧ entry.answers = none) :
    ∀ entry' ∈ entry :: trace, ∀ request,
      entry'.accepts = some request ∨ entry'.answers = some request → request < n := by
  refine forall_mem_cons.2 ⟨fun request hreq => ?_, h⟩
  simp [hent.1, hent.2] at hreq

theorem Answered.cons (h : Answered trace) (hnumbers : entry.accepts = none ∧ entry.answers = none)
    (hatt : ∀ request, (attemptAfter (entry :: trace)).any (·.request = request) =
      (attemptAfter trace).any (·.request = request)) :
    Answered (entry :: trace) := by
  intro request haccepted
  rcases or_exists_of_exists_mem_cons haccepted with hacc | hmem
  · cases hnumbers.1.symm.trans hacc
  rw [replies_cons_of_none hnumbers.2, h request hmem, hatt request]

theorem Answered.reply (h : Answered trace) {view : Attempt}
    (hview : attemptAfter trace = some view) (result : H3MigrationResult) :
    Answered (.replied view.request result :: trace) := by
  intro request haccepted
  rcases or_exists_of_exists_mem_cons haccepted with hacc | hmem
  · cases hacc
  have hcount := h request hmem
  simp only [replies, countP_cons, Entry.answers, attemptAfter, hview] at hcount ⊢
  by_cases hreq : view.request = request
  · simp [hreq] at hcount ⊢
    exact hcount
  · simp [hreq] at hcount ⊢
    exact hcount

theorem Agrees.cons (h : Agrees first base n pending highest paths wire requests trace)
    (hact : activeAfter first (entry :: trace) = activeAfter first trace)
    (hatt : ∃ change : Attempt → Attempt, (∀ attempt, Attempt.Similar attempt (change attempt)) ∧
      attemptAfter (entry :: trace) = (attemptAfter trace).map change)
    (hnumbers : entry.accepts = none ∧ entry.answers = none)
    (hpromotion : Promotion first entry trace) (hsend : Sending entry trace) :
    Agrees first base n pending highest paths wire requests (entry :: trace) := by
  obtain ⟨change, hsim, hchg⟩ := hatt
  refine ⟨h.grown.trans (suffix_cons _ _), ?_, ?_, h.candidateRole, h.retiringRole, ?_, ?_,
    ?_, ?_, h.bound_le, ?_, ?_, ?_, ⟨hpromotion, h.promotions⟩,
    ⟨hsend, h.sends⟩⟩
  · rw [hact, h.active]
  · rw [hact, h.activeRole]
  · intro hidle
    rw [hchg, (h.idle hidle).1]
    exact ⟨rfl, (h.idle hidle).2⟩
  · intro attempt hbusy
    obtain ⟨htgt, hlt, view, hview, his⟩ := h.busy attempt hbusy
    rw [hact, hchg, hview]
    exact ⟨htgt, hlt, change view, rfl, his.similar (hsim view)⟩
  · rw [hact]
    exact h.highest
  · rw [hact]
    exact h.wire
  · exact numbers_cons h.numbers hnumbers
  · refine h.answered.cons hnumbers fun request => ?_
    rw [hchg]
    cases attemptAfter trace with
    | none => rfl
    | some view => simp [(hsim view).request]
  · intro view hview
    rw [hchg] at hview
    obtain ⟨view', hview', rfl⟩ := Option.map_eq_some_iff.1 hview
    obtain ⟨entry', hent, hacc⟩ := h.current view' hview'
    exact ⟨entry', mem_cons_of_mem _ hent, by rw [hacc, (hsim view').request]⟩

theorem Agrees.plain (h : Agrees first base n pending highest paths wire requests trace)
    (hplain : entry.Plain) :
    Agrees first base n pending highest paths wire requests (entry :: trace) := by
  refine h.cons (activeAfter_plain hplain) (attemptAfter_plain hplain) (plain_numbers hplain) ?_ ?_
  · cases entry <;> trivial
  · cases entry <;> trivial

/-! ## The ways of the handlers -/

theorem Agrees.sent (h : Agrees first base n pending highest paths wire requests trace)
    {active : Option PathSocket} {barrier : MigrationTxBarrier} {queued : ℕ}
    (hsend : Sending (.sent path active barrier queued) trace) :
    Agrees first base n pending highest paths wire requests
      (.sent path active barrier queued :: trace) :=
  h.cons rfl ⟨id, fun _ => ⟨rfl, rfl, rfl, rfl, id⟩, by rw [Option.map_id]; rfl⟩ ⟨rfl, rfl⟩ trivial
    hsend

/-- The queue may lose packets, and get packets of the active path. -/
theorem Agrees.requeue {wire' : List WireDatagram}
    (h : Agrees first base n pending highest paths wire requests trace)
    (hwire : ∀ datagram ∈ wire', datagram ∈ wire ∨
      PathSocket.matches (activeAfter first trace) datagram.source datagram.destination) :
    Agrees first base n pending highest paths wire' requests trace :=
  { h with wire := fun datagram hdatagram => (hwire datagram hdatagram).elim (h.wire datagram) id }

/-- A change of the pending migration that keeps what the trace tells of it. -/
theorem Agrees.revise {attempt' : PendingMigration}
    (h : Agrees first base n (some attempt) highest paths wire requests trace)
    (htgt : attempt'.targetGeneration = attempt.targetGeneration)
    (his : ∀ view, attemptAfter trace = some view → IsAttempt attempt paths.candidate view →
      IsAttempt attempt' paths.candidate view) :
    Agrees first base n (some attempt') highest paths wire requests trace := by
  refine { h with idle := ?_, busy := ?_ }
  · intro hidle
    cases hidle
  · rintro _ ⟨⟩
    obtain ⟨hatt, hlt, view, hview, hview'⟩ := h.busy attempt rfl
    exact ⟨htgt.trans hatt, hlt, view, hview, his view hview hview'⟩

section
variable (h : Agrees first base n pending highest paths wire requests trace)
include h

theorem Agrees.releaseRetiring (hret : paths.retiring = some path) :
    Agrees first base n pending highest { paths with retiring := none } wire requests
      (.released path :: trace) := by
  have hrole := h.retiringRole path hret
  have hrel : Agrees first base n pending highest paths wire requests (.released path :: trace) := by
    refine h.cons rfl ⟨Attempt.onReleased path, fun view => ?_, rfl⟩ ⟨rfl, rfl⟩ trivial trivial
    simp only [Attempt.onReleased, hrole, reduceCtorEq, if_false]
    exact ⟨rfl, rfl, rfl, rfl, id⟩
  exact { hrel with retiringRole := fun _ hnone => by cases hnone }

theorem Agrees.releaseCandidate (hcand : paths.candidate = some path) :
    Agrees first base n pending highest { paths with candidate := none } wire requests
      (.released path :: trace) := by
  have hrole := (h.candidateRole path hcand).1
  have hview : attemptAfter (.released path :: trace) =
      (attemptAfter trace).map fun view => { view with candidate := none } := by
    have hchg : Attempt.onReleased path = fun view => { view with candidate := none } := by
      funext view
      simp [Attempt.onReleased, hrole]
    rw [attemptAfter, hchg]
  refine { h with
    grown := h.grown.trans (suffix_cons _ _)
    candidateRole := ?_
    idle := ?_
    busy := ?_
    numbers := numbers_cons h.numbers ⟨rfl, rfl⟩
    answered := ?_
    current := ?_
    promotions := ⟨trivial, h.promotions⟩
    sends := ⟨trivial, h.sends⟩ }
  · intro _ hnone
    cases hnone
  · intro hidle
    cases hcand.symm.trans (h.idle hidle).2
  · intro attempt hbusy
    obtain ⟨htgt, hlt, view, hview', his⟩ := h.busy attempt hbusy
    rw [hview, hview']
    exact ⟨htgt, hlt, _, rfl, his.reply, his.target, rfl, his.unpromoted, his.confirmed,
      his.preparing⟩
  · refine h.answered.cons ⟨rfl, rfl⟩ fun request => ?_
    rw [hview]
    cases attemptAfter trace <;> rfl
  · intro view hview'
    rw [hview] at hview'
    obtain ⟨view', hview'', rfl⟩ := Option.map_eq_some_iff.1 hview'
    exact exists_mem_cons_of_exists (h.current view' hview'')

theorem Agrees.fail (hpend : pending = some attempt) (hcand : paths.candidate = none)
    (hreply : attempt.reply = some request) (reason : MigrationReasonCode) :
    Agrees first base n none highest paths wire requests
      (.replied request (.failed reason) :: trace) := by
  subst hpend
  obtain ⟨-, -, view, hview, his⟩ := h.busy attempt rfl
  cases his.reply.symm.trans hreply
  obtain ⟨entry, hent, hacc⟩ := h.current view hview
  have hover : attemptAfter (.replied view.request (.failed reason) :: trace) = none := by
    simp [attemptAfter, hview]
  refine { h with
    grown := h.grown.trans (suffix_cons _ _)
    idle := fun _ => ⟨hover, hcand⟩
    busy := ?_
    numbers := ?_
    answered := h.answered.reply hview _
    current := ?_
    promotions := ⟨⟨view, hview, rfl, his.unpromoted⟩, h.promotions⟩
    sends := ⟨trivial, h.sends⟩ }
  · rintro _ ⟨⟩
  · refine forall_mem_cons.2 ⟨?_, h.numbers⟩
    rintro _ (⟨⟨⟩⟩ | ⟨⟨⟩⟩)
    exact h.numbers entry hent _ (.inl hacc)
  · intro view' hview'
    cases hover.symm.trans hview'

theorem Agrees.refuse (hreq : n ≤ request) (hreqs : request < requests) :
    Agrees first base (request + 1) pending highest paths wire requests
      (.replied request .staleRequest :: trace) := by
  have hoth : ∀ view, attemptAfter trace = some view → view.request ≠ request := by
    intro view hview
    obtain ⟨entry, hent, hacc⟩ := h.current view hview
    have := h.numbers entry hent _ (.inl hacc)
    omega
  have hatt : attemptAfter (.replied request .staleRequest :: trace) = attemptAfter trace := by
    cases hview : attemptAfter trace with
    | none => simp [attemptAfter, hview]
    | some view => simp [attemptAfter, hview, hoth view hview]
  refine { h with
    grown := h.grown.trans (suffix_cons _ _)
    idle := ?_
    busy := ?_
    bound_le := hreqs
    numbers := ?_
    answered := ?_
    current := ?_
    promotions := ⟨trivial, h.promotions⟩
    sends := ⟨trivial, h.sends⟩ }
  · rw [hatt]
    exact h.idle
  · rw [hatt]
    exact h.busy
  · refine forall_mem_cons.2 ⟨?_, fun entry hent request' hreq' => ?_⟩
    · rintro _ (⟨⟨⟩⟩ | ⟨⟨⟩⟩)
      exact Nat.lt_succ_self _
    · have := h.numbers entry hent request' hreq'
      omega
  · rintro request' ⟨entry, hent, hacc⟩
    rcases mem_cons.1 hent with rfl | hent
    · cases hacc
    have hlt := h.numbers entry hent request' (.inl hacc)
    have hne : request ≠ request' := by omega
    rw [hatt, ← h.answered request' ⟨entry, hent, hacc⟩]
    simp [replies, Entry.answers, hne]
  · rw [hatt]
    exact fun view hview => exists_mem_cons_of_exists (h.current view hview)

theorem Agrees.accept (hidle : pending = none) (hreq : n ≤ request)
    (hreqs : request < requests) (htgt : highest < attempt.targetGeneration)
    (hreply : attempt.reply = some request) (hph : attempt.phase = .preparingSocket)
    (hprep : attempt.preparation = none) :
    Agrees first base (request + 1) (some attempt) attempt.targetGeneration paths wire requests
      (.accepted request attempt.targetGeneration :: trace) := by
  obtain ⟨hover, hcand⟩ := h.idle hidle
  have hhigh := h.highest
  refine { h with
    grown := h.grown.trans (suffix_cons _ _)
    candidateRole := ?_
    idle := ?_
    busy := ?_
    highest := le_trans h.highest (Nat.le_of_lt htgt)
    bound_le := hreqs
    numbers := ?_
    answered := ?_
    current := ?_
    promotions := ⟨trivial, h.promotions⟩
    sends := ⟨trivial, h.sends⟩ }
  · intro path hpath
    cases hcand.symm.trans hpath
  · intro hidle
    cases hidle
  · rintro _ ⟨⟩
    refine ⟨rfl, lt_of_le_of_lt hhigh htgt, _, rfl, hreply, rfl, hcand, rfl, ?_, ?_⟩
    · rw [hph]
      intro hvalidated
      cases hvalidated
    · rw [hprep]
      rintro _ ⟨⟩
  · refine forall_mem_cons.2 ⟨?_, fun entry hent request' hreq' => ?_⟩
    · rintro _ (⟨⟨⟩⟩ | ⟨⟨⟩⟩)
      exact Nat.lt_succ_self _
    · have := h.numbers entry hent request' hreq'
      omega
  · rintro request' ⟨entry, hent, hacc⟩
    rcases mem_cons.1 hent with rfl | hent
    · cases hacc
      -- a new request has no answers yet
      have hnone : replies request trace = 0 := by
        refine countP_eq_zero.2 fun entry hent hans => ?_
        have := h.numbers entry hent request (.inr (by simpa using hans))
        omega
      rw [replies_cons_of_none rfl, hnone]
      simp [attemptAfter]
    · have hlt := h.numbers entry hent request' (.inl hacc)
      have hne : request ≠ request' := by omega
      rw [replies_cons_of_none rfl, h.answered request' ⟨entry, hent, hacc⟩, hover]
      simp [attemptAfter, hne]
  · rintro _ ⟨⟩
    exact ⟨_, mem_cons_self .., rfl⟩

theorem Agrees.insert (hpend : pending = some attempt)
    (hph : attempt.phase = .preparingSocket) (hrole : path.role = .candidate)
    (hgen : path.networkGeneration = attempt.targetGeneration) :
    Agrees first base n pending highest { paths with candidate := some path } wire requests
      (.inserted path :: trace) := by
  subst hpend
  obtain ⟨htgt, hlt, view, hview, his⟩ := h.busy attempt rfl
  have hins : attemptAfter (.inserted path :: trace) =
      some { view with candidate := some path, validation := .awaited } := by
    simp [attemptAfter, hview]
  refine { h with
    grown := h.grown.trans (suffix_cons _ _)
    candidateRole := ?_
    idle := ?_
    busy := ?_
    numbers := numbers_cons h.numbers ⟨rfl, rfl⟩
    answered := ?_
    current := ?_
    promotions := ⟨trivial, h.promotions⟩
    sends := ⟨trivial, h.sends⟩ }
  · rintro _ ⟨⟩
    exact ⟨hrole, hgen.trans htgt⟩
  · intro hidle
    cases hidle
  · rintro _ ⟨⟩
    refine ⟨htgt, hlt, _, hins, his.reply, his.target, rfl, his.unpromoted, ?_, his.preparing⟩
    rw [hph]
    intro hvalidated
    cases hvalidated
  · refine h.answered.cons ⟨rfl, rfl⟩ fun request => ?_
    rw [hins, hview]
    rfl
  · intro view' hview'
    cases hins.symm.trans hview'
    exact exists_mem_cons_of_exists (h.current view hview)

theorem Agrees.validated (hpend : pending = some attempt) (hph : attempt.phase = .validated)
    (hcand : paths.candidate = some path)
    (hgen : lastGeneration trace = some path.networkGeneration) : Validated path trace := by
  obtain ⟨htgt, -, view, hview, his⟩ := h.busy attempt hpend
  have hpath : path.networkGeneration = view.targetGeneration :=
    (h.candidateRole path hcand).2.trans (htgt.symm.trans his.target)
  exact ⟨view, hview, his.unpromoted, his.candidate_eq.symm.trans hcand, his.confirmed hph,
    hpath, hgen.trans (congrArg some hpath)⟩

theorem Agrees.promoting (hvalidated : Validated path trace) :
    Agrees first base n pending highest paths wire requests (.promoting path.binding :: trace) :=
  h.cons rfl ⟨id, fun _ => ⟨rfl, rfl, rfl, rfl, id⟩, by rw [Option.map_id]; rfl⟩ ⟨rfl, rfl⟩
    ⟨path, rfl, hvalidated⟩ trivial

end

/-- **The candidate takes the place of the active path**, and the request is answered. -/
theorem Agrees.promote (h : Agrees first base n pending highest paths [] requests trace)
    (hpend : pending = some attempt) (hreply : attempt.reply = some request)
    (hph : attempt.phase = .validated) (hcand : paths.candidate = some path)
    (hgen : lastGeneration trace = some path.networkGeneration) :
    Agrees first base n none highest
      { paths with
        active := some { path with role := .active }
        candidate := none
        retiring := some { activeAfter first trace with role := .retiring } } [] requests
      (.replied request (.promoted path.networkGeneration) :: .observed ::
        .promoted (activeAfter first trace) path :: trace) := by
  subst hpend
  obtain ⟨htgt, hlt, view, hview, his⟩ := h.busy attempt rfl
  obtain ⟨hrole, hhigh⟩ := h.candidateRole path hcand
  cases his.reply.symm.trans hreply
  have hpath : path.networkGeneration = view.targetGeneration :=
    hhigh.trans (htgt.symm.trans his.target)
  have hswap : attemptAfter (.observed :: .promoted (activeAfter first trace) path :: trace) =
      some { view with candidate := none, promoted := true } := by
    simp [attemptAfter, hview]
  have hover : attemptAfter (.replied view.request (.promoted path.networkGeneration) :: .observed ::
      .promoted (activeAfter first trace) path :: trace) = none := by
    rw [attemptAfter, hswap]
    simp
  obtain ⟨entry, hent, hacc⟩ := h.current view hview
  refine {
    grown := h.grown.trans ((suffix_cons _ _).trans ((suffix_cons _ _).trans (suffix_cons _ _)))
    active := rfl
    activeRole := rfl
    candidateRole := ?_
    retiringRole := ?_
    idle := fun _ => ⟨hover, rfl⟩
    busy := ?_
    highest := le_of_eq hhigh
    wire := ?_
    bound_le := h.bound_le
    numbers := ?_
    answered := ?_
    current := ?_
    promotions := ⟨?_, trivial, ?_, h.promotions⟩
    sends := ⟨trivial, trivial, trivial, h.sends⟩ }
  · rintro _ ⟨⟩
  · rintro _ ⟨⟩
    rfl
  · rintro _ ⟨⟩
  · intro _ hnone
    cases hnone
  · refine forall_mem_cons.2 ⟨?_, numbers_cons (numbers_cons h.numbers ⟨rfl, rfl⟩) ⟨rfl, rfl⟩⟩
    rintro _ (⟨⟨⟩⟩ | ⟨⟨⟩⟩)
    exact h.numbers entry hent _ (.inl hacc)
  · have hanswered : Answered (.observed :: .promoted (activeAfter first trace) path :: trace) := by
      refine (h.answered.cons ⟨rfl, rfl⟩ fun request => ?_).cons ⟨rfl, rfl⟩ fun request => rfl
      rw [attemptAfter, hview]
      rfl
    exact hanswered.reply hswap _
  · intro view' hview'
    cases hover.symm.trans hview'
  · exact ⟨_, hswap, rfl, rfl, hpath⟩
  · refine ⟨rfl, h.validated rfl hph hcand hgen, ?_⟩
    rw [hhigh]
    exact hlt

end

/-- A task agrees with its trace. -/
def Inv (first : PathSocket) (base : List Entry) (n : ℕ) (actor : H3Actor) : Prop :=
  Agrees first base n actor.migration.pending actor.migration.highestGeneration actor.paths
    actor.wireDatagrams actor.requests actor.trace

end Usque.Transport.H3
