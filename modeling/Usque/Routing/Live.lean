/-
  Live routing updates (`usque-transport/src/live_routing.rs`, and the update
  methods of `geo_direct.rs`).

  * A `Session` is what callers share: the runtimes, the policies and updates they
    hold, and the closures of `with_current` that are running. A closure holds the
    read lock of its runtime, so a publication there waits for it.
  * The calls of all callers interleave in `Session.next`; a call names what it
    works on by its place in the session.
-/
import Usque.Lib.Run
import Usque.Routing.Policy

namespace Usque.Routing
open Lib Usque.Core

/-- `u64::MAX`. -/
def REVISION_MAX : ℕ := 2 ^ 64 - 1

/-- `revision.checked_add(1).unwrap_or(revision)`. -/
def successor (revision : ℕ) : ℕ := if revision = REVISION_MAX then revision else revision + 1

inductive RoutingUpdateError where
  | ownerChanged
  | revisionChanged
  | revisionExhausted

structure PreparedRoutingUpdate where
  owner : ℕ
  baseRevision : ℕ
  next : Arc RoutingSnapshot
  changesRules : Bool
  directRoutes : Bool
  directDns : Bool

namespace LiveRouting

def publish (live : LiveRouting) (baseRevision : ℕ) (next : Arc RoutingSnapshot) :
    Except RoutingUpdateError LiveRouting :=
  if live.current.value.revision ≠ baseRevision then .error .revisionChanged
  else if live.current.id = next.id then .ok live
  else if baseRevision = REVISION_MAX then .error .revisionExhausted
  else if next.value.revision ≠ baseRevision + 1 then .error .revisionChanged
  else .ok { current := next }

def withCurrent {α : Type} (live : LiveRouting) (revision : ℕ) (operation : α) : Option α :=
  if live.current.value.revision = revision then some operation else none

end LiveRouting

namespace GeoDirectPolicy
variable (text : Text) (runtimes : Runtimes) (policy : GeoDirectPolicy)

def withCurrentRouting {α : Type} (revision : ℕ) (operation : α) : Option α :=
  (runtimes policy.routing).withCurrent revision operation

/-- `GeoDirectPolicy::prepare_routing_update`; `fresh` is the allocation of the new
    snapshot. -/
def prepareRoutingUpdate (profile : Profile) (fresh : ℕ) :
    Except ConfigError PreparedRoutingUpdate := do
  let current := (runtimes policy.routing).current
  let baseRevision := current.value.revision
  let snapshot ← RoutingSnapshot.new text profile.routing (successor baseRevision)
  let changesRules := decide (snapshot.settings.rules ≠ current.value.settings.rules)
  let next := if changesRules then ⟨fresh, snapshot⟩ else current
  let candidate := { policy with frozenRouting := some next }
  pure
    { owner := policy.routing
      baseRevision
      next
      changesRules
      directRoutes := candidate.hasDirectRoutes runtimes
      directDns := candidate.needsDirectDns runtimes }

/-- `GeoDirectPolicy::publish_routing_update`: what becomes of the policy's runtime. -/
def publishRoutingUpdate (prepared : PreparedRoutingUpdate) :
    Except RoutingUpdateError LiveRouting :=
  if policy.routing ≠ prepared.owner then .error .ownerChanged
  else (runtimes policy.routing).publish prepared.baseRevision prepared.next

end GeoDirectPolicy

/-! ## Sessions -/

/-- A running closure of `with_current`. -/
structure Guard where
  runtime : ℕ
  revision : ℕ

/-- What the callers share. An update that was published and a guard that was
    released leave an empty place. -/
structure Session where
  runtimes : Runtimes
  nextRuntime : ℕ
  nextArc : ℕ
  policies : List GeoDirectPolicy
  updates : List (Option PreparedRoutingUpdate)
  guards : List (Option Guard)

/-- The methods of a policy. -/
inductive Operation where
  | withCustomRules (profile : Profile)
  | freezeRouting
  | prepareRoutingUpdate (profile : Profile)
  | publishRoutingUpdate (update : ℕ)
  /-- `with_current` up to the start of its closure. -/
  | enterCurrent (revision : ℕ)

inductive Call where
  | on (policy : ℕ) (operation : Operation)
  /-- The end of a closure of `with_current`. -/
  | leaveCurrent (guard : ℕ)

inductive Answer where
  /-- There is nothing at the place that the call names. -/
  | missing
  | rejected (error : ConfigError)
  | built (policy : GeoDirectPolicy)
  | frozen (policy : GeoDirectPolicy)
  | prepared (update : PreparedRoutingUpdate)
  | published (update : PreparedRoutingUpdate) (result : Except RoutingUpdateError Unit)
  /-- The writer waits for the closures that run. -/
  | waits
  | entered (guard : Option Guard)
  | left

namespace Session

/-- A closure runs under the read lock of the runtime. -/
def readLocked (s : Session) (runtime : ℕ) : Bool :=
  s.guards.any fun guard => guard.any fun guard => guard.runtime = runtime

/-- A publication of an update at its place, which consumes it. -/
def publishUpdate (s : Session) (policy : GeoDirectPolicy) (place : ℕ)
    (update : PreparedRoutingUpdate) : Session × Answer :=
  if policy.routing = update.owner ∧ s.readLocked policy.routing then (s, .waits)
  else
    match policy.publishRoutingUpdate s.runtimes update with
    | .error error =>
      ({ s with updates := s.updates.set place none }, .published update (.error error))
    | .ok live =>
      ({ s with
          updates := s.updates.set place none
          runtimes := Function.update s.runtimes policy.routing live },
        .published update (.ok ()))

def perform (text : Text) (s : Session) (policy : GeoDirectPolicy) : Operation → Session × Answer
  | .withCustomRules profile =>
    match policy.withCustomRules text profile s.nextRuntime with
    | .error error => (s, .rejected error)
    | .ok (built, snapshot) =>
      ({ s with
          runtimes := Function.update s.runtimes s.nextRuntime ⟨⟨s.nextArc, snapshot⟩⟩
          nextRuntime := s.nextRuntime + 1
          nextArc := s.nextArc + 1
          policies := s.policies ++ [built] },
        .built built)
  | .freezeRouting =>
    let frozen := policy.freezeRouting s.runtimes
    ({ s with policies := s.policies ++ [frozen] }, .frozen frozen)
  | .prepareRoutingUpdate profile =>
    match policy.prepareRoutingUpdate text s.runtimes profile s.nextArc with
    | .error error => (s, .rejected error)
    | .ok update =>
      ({ s with nextArc := s.nextArc + 1, updates := s.updates ++ [some update] }, .prepared update)
  | .publishRoutingUpdate place =>
    match s.updates[place]?.join with
    | none => (s, .missing)
    | some update => s.publishUpdate policy place update
  | .enterCurrent revision =>
    match policy.withCurrentRouting s.runtimes revision (Guard.mk policy.routing revision) with
    | none => (s, .entered none)
    | some guard => ({ s with guards := s.guards ++ [some guard] }, .entered (some guard))

def next (text : Text) (s : Session) : Call → Session × Answer
  | .on place operation =>
    match s.policies[place]? with
    | none => (s, .missing)
    | some policy => s.perform text policy operation
  | .leaveCurrent guard => ({ s with guards := s.guards.set guard none }, .left)

/-- One policy with a runtime of any revision. -/
structure Start (s : Session) : Prop where
  one : s.nextRuntime = 1
  policies : ∀ policy ∈ s.policies, policy.routing = 0
  id_lt : (s.runtimes 0).current.id < s.nextArc
  revision_le : (s.runtimes 0).current.value.revision ≤ REVISION_MAX
  updates : s.updates = []
  guards : s.guards = []

end Session

end Usque.Routing
