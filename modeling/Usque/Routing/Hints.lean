/-
  DNS route hints (`usque-transport/src/split_dns.rs`, `DnsRouteCache`).

  * A hint records until when an address was seen in answers that went around the
    tunnel or through it, and in answers for names with an explicit rule.
  * `observeRecords` writes hints and `routeIpCurrent` reads them; both first bring
    the table to their network generation and routing revision (`syncGeneration`).
  * Every call comes with what it saw of the routing (`View`): the runtimes when it
    captured its policy, and those when it asked whether that revision is current.
    Times are in nanoseconds, and a response is what `response_hints` makes of it.
-/
import Mathlib.Data.List.MinMax
import Usque.Routing.Live

namespace Usque.Routing
open Lib Usque.Core

def MAX_HINTS : ℕ := 8192
def SECOND : ℕ := 1000000000
def MAX_HINT_TTL : ℕ := 60 * 60 * SECOND
def HINT_PRUNE_INTERVAL : ℕ := 30 * SECOND

inductive QueryRoute where
  | direct
  | tunnel
deriving DecidableEq

structure HintState where
  directUntil : Option ℕ
  tunnelUntil : Option ℕ
  explicitProxyUntil : Option ℕ
  explicitDirectUntil : Option ℕ
  lastSeen : ℕ

structure HintTable where
  generation : Option ℕ
  routingRevision : ℕ
  hints : HashMap IpAddr HintState
  nextPrune : ℕ

section
variable (deadline : Option ℕ) (table : HintTable) (now : ℕ) (order : Iteration IpAddr HintState)

/-- `HintTable::default`, at the time `now`. -/
def HintTable.default : HintTable where
  generation := none
  routingRevision := 1
  hints := ∅
  nextPrune := now + HINT_PRUNE_INTERVAL

/-- `until.is_some_and(|until| until > now)`. -/
def holds : Bool := deadline.any fun time => now < time

/-- `until.max(Some(time))`. -/
def extend (time : ℕ) : Option ℕ :=
  match deadline with
  | none => some time
  | some old => some (max old time)

/-! ## Generations and pruning -/

/-- `sync_generation`: the table, and whether the caller may use it. -/
def syncGeneration (generation : Option ℕ) (routingRevision now : ℕ) : HintTable × Bool :=
  let older : Bool := match table.generation, generation with
    | some previous, some next => next < previous
    | _, _ => false
  if routingRevision < table.routingRevision ∨ older ∨
      (table.generation.isSome ∧ generation = none) then (table, false)
  else if table.generation ≠ generation ∨ table.routingRevision ≠ routingRevision then
    ({ generation
       routingRevision
       hints := ∅
       nextPrune := now + HINT_PRUNE_INTERVAL }, true)
  else (table, true)

def pruneHints : HintTable :=
  { table with
    hints := table.hints.retain fun _ hint =>
      holds hint.directUntil now || holds hint.tunnelUntil now ||
        holds hint.explicitProxyUntil now || holds hint.explicitDirectUntil now }

def pruneHintsIfNeeded (force : Bool) : HintTable :=
  if !force && now < table.nextPrune then table
  else { pruneHints table now with nextPrune := now + HINT_PRUNE_INTERVAL }

/-! ## Observations -/

/-- The hint of an address that has none yet. -/
def HintState.unseen : HintState := ⟨none, none, none, none, now⟩

def HintState.observe (hint : HintState) (route : QueryRoute) (direct proxy : Bool)
    (time now : ℕ) : HintState :=
  let hint := match route with
    | .direct => { hint with directUntil := extend hint.directUntil time }
    | .tunnel => { hint with tunnelUntil := extend hint.tunnelUntil time }
  let hint := if proxy then
      { hint with explicitProxyUntil := extend hint.explicitProxyUntil time } else hint
  let hint := if direct then
      { hint with explicitDirectUntil := extend hint.explicitDirectUntil time } else hint
  { hint with lastSeen := now }

/-- Make room for an address: the hint that was seen first goes. -/
def evictOldest (hints : HashMap IpAddr HintState) (ip : IpAddr) : HashMap IpAddr HintState :=
  if MAX_HINTS ≤ hints.len ∧ hints.lookup ip = none then
    match (order.iter hints).argmin fun entry => entry.2.lastSeen with
    | some (oldest, _) => hints.erase oldest
    | none => hints
  else hints

/-- One round of the loop of `observe_records`. -/
def observeRecord (route : QueryRoute) (direct proxy : Bool) (now : ℕ)
    (hints : HashMap IpAddr HintState) (record : IpAddr × ℕ) : HashMap IpAddr HintState :=
  if record.2 = 0 then hints
  else
    let hints := evictOldest order hints record.1
    let hint := (hints.lookup record.1).getD (.unseen now)
    hints.insert record.1
      (hint.observe route direct proxy (now + min (record.2 * SECOND) MAX_HINT_TTL) now)

def observeRecords (records : List (IpAddr × ℕ)) (route : QueryRoute) (generation : Option ℕ)
    (revision : ℕ) (direct proxy : Bool) (now : ℕ) : HintTable × Bool :=
  match syncGeneration table generation revision now with
  | (table, false) => (table, false)
  | (table, true) =>
    let table := pruneHintsIfNeeded table now (MAX_HINTS ≤ table.hints.len)
    ({ table with hints := records.foldl (observeRecord order route direct proxy now) table.hints },
      true)

end

/-! ## Calls -/

/-- What a call sees of the routing, the network and the time. -/
structure View where
  policy : GeoDirectPolicy
  captured : Runtimes
  runtimes : Runtimes
  generation : Option ℕ
  now : ℕ

namespace View

def frozen (view : View) : GeoDirectPolicy := view.policy.freezeRouting view.captured

/-- The revision that is published while the call uses the table. -/
def published (view : View) : ℕ := (view.runtimes view.policy.routing).current.value.revision

end View

/-- A decision for an address, and what it was derived from. -/
inductive Decision where
  | byHint (route : GeoRoute)
  | byPolicy (route : GeoRoute)

def Decision.route : Decision → GeoRoute
  | .byHint route | .byPolicy route => route

/-- The decision of a table for the caller's generation and revision. -/
def HintTable.decide (table : HintTable) (ip : IpAddr) (policy : GeoDirectPolicy)
    (runtimes : Runtimes) (now : ℕ) : Decision :=
  if policy.rejectsIp runtimes ip then .byPolicy .reject
  else
    let hint := table.hints.lookup ip
    if hint.any fun hint => holds hint.explicitProxyUntil now then .byHint .tunnel
    else if hint.any fun hint => holds hint.explicitDirectUntil now then .byHint .direct
    else
      match policy.customIp runtimes ip with
      | some route => .byPolicy route
      | none =>
        if hint.any fun hint => holds hint.directUntil now && holds hint.tunnelUntil now then
          .byHint .tunnel
        else if hint.any fun hint => holds hint.directUntil now && !holds hint.tunnelUntil now then
          .byHint .direct
        else .byPolicy (policy.routeIp runtimes ip)

def routeIpCurrent (table : HintTable) (ip : IpAddr) (generation : Option ℕ)
    (policy : GeoDirectPolicy) (runtimes : Runtimes) (now : ℕ) : HintTable × Decision :=
  match syncGeneration table generation (policy.routingRevision runtimes) now with
  | (table, false) => (table, .byPolicy (policy.routeIp runtimes ip))
  | (table, true) =>
    let table := pruneHintsIfNeeded table now false
    (table, table.decide ip policy runtimes now)

def routeIp (table : HintTable) (view : View) (ip : IpAddr) : HintTable × Decision :=
  let policy := view.frozen
  (policy.withCurrentRouting view.runtimes (policy.routingRevision view.runtimes)
    (routeIpCurrent table ip view.generation policy view.runtimes view.now)).getD
    (table, .byPolicy (policy.routeIp view.runtimes ip))

def observePolicy (text : Text) (table : HintTable) (view : View)
    (order : Iteration IpAddr HintState) (records : Option (List (IpAddr × ℕ)))
    (questions : List Str) (route : QueryRoute) : HintTable × Bool :=
  let policy := view.frozen
  match records with
  | none => (table, false)
  | some records =>
    let direct := questions.any fun name =>
      policy.customHost text view.runtimes name == some .direct
    let proxy := questions.any fun name =>
      policy.customHost text view.runtimes name == some .tunnel
    let revision := policy.routingRevision view.runtimes
    (policy.withCurrentRouting view.runtimes revision
      (observeRecords table order records route view.generation revision direct proxy
        view.now)).getD (table, false)

namespace HintTable

inductive Call where
  | observePolicy (view : View) (order : Iteration IpAddr HintState)
    (records : Option (List (IpAddr × ℕ))) (questions : List Str) (route : QueryRoute)
  | routeIp (view : View) (ip : IpAddr)

inductive Answer where
  | observed (accepted : Bool)
  | routed (decision : Decision)

def next (text : Text) (table : HintTable) : Call → HintTable × Answer
  | .observePolicy view order records questions route =>
    let (table, accepted) := Routing.observePolicy text table view order records questions route
    (table, .observed accepted)
  | .routeIp view ip =>
    let (table, decision) := Routing.routeIp table view ip
    (table, .routed decision)

end HintTable

end Usque.Routing
