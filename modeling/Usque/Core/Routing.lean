/-
  The routing rules of a profile (`usque-core/src/config/routing.rs`).

  * `RoutingSettings.normalized` checks the rules, writes their targets in one
    form and merges rules of one target; `Normalizing` is the state of its loop.
-/
import Usque.Core.Names
import Usque.Lib.Longest
import Usque.Lib.Map

namespace Usque.Core
open Lib

def MAX_ROUTING_RULES_PER_KIND : ℕ := 256

inductive RoutingAction where
  | direct
  | reject
  | proxy
deriving DecidableEq

inductive RoutingMatch where
  | domain
  | cidr
deriving DecidableEq

structure RoutingRule where
  id : Uuid
  kind : RoutingMatch
  target : Str
  action : RoutingAction
deriving DecidableEq

structure RoutingSettings where
  rules : List RoutingRule
  adsEnabled : Bool
deriving DecidableEq

/-- The key of a rule among the rules with a normal target. -/
def RoutingRule.key (rule : RoutingRule) : RoutingMatch × Str := (rule.kind, rule.target)

/-- The target of a rule in the form that `normalized` stores. -/
def canonicalTarget (text : Text) (rule : RoutingRule) : Option Str :=
  match rule.kind with
  | .domain => canonicalBypassDomain text rule.target
  | .cidr =>
    ((text.parseNet rule.target.trim).or ((text.parseAddr rule.target.trim).map IpNet.ofAddr)).map
      fun net => text.showNet net.canonicalNetwork

/-- The variables of the loop of `normalized`; `targets` leads to the rule itself
    where the source keeps its index. -/
structure Normalizing where
  rules : List RoutingRule
  ids : List Uuid
  targets : HashMap (RoutingMatch × Str) RoutingRule
  domains : ℕ
  cidrs : ℕ

namespace Normalizing

def start : Normalizing := ⟨[], [], ∅, 0, 0⟩

/-- `counts`, by the kind of the rules. -/
def counts (s : Normalizing) : RoutingMatch → ℕ
  | .domain => s.domains
  | .cidr => s.cidrs

def push (s : Normalizing) (rule : RoutingRule) : Normalizing :=
  { s with
    rules := s.rules ++ [rule]
    targets := s.targets.insert rule.key rule
    domains := s.domains + if rule.kind = .domain then 1 else 0
    cidrs := s.cidrs + if rule.kind = .cidr then 1 else 0 }

def step (text : Text) (s : Normalizing) (rule : RoutingRule) : Except ConfigError Normalizing :=
  if rule.id.isNil ∨ rule.id ∈ s.ids then .error (.invalidRoutingRule rule.id)
  else
    let s := { s with ids := rule.id :: s.ids }
    match canonicalTarget text rule with
    | none => .error (.invalidRoutingRule rule.id)
    | some target =>
      match s.targets.lookup (rule.kind, target) with
      | some existing =>
        if existing.action ≠ rule.action then .error (.routingConflict existing.id rule.id)
        else .ok s
      | none =>
        if MAX_ROUTING_RULES_PER_KIND < s.counts rule.kind + 1 then .error .routingLimit
        else .ok (s.push { rule with target := target })

def run (text : Text) : Normalizing → List RoutingRule → Except ConfigError Normalizing
  | s, [] => .ok s
  | s, rule :: rules => do run text (← step text s rule) rules

end Normalizing

def domainMatches (host domain : Str) : Bool :=
  host == domain || (host.stripSuffix domain).any fun front => front.getLast? == some '.'

namespace RoutingSettings

def normalized (text : Text) (settings : RoutingSettings) : Except ConfigError RoutingSettings :=
  if MAX_ROUTING_RULES_PER_KIND * 2 < settings.rules.length then .error .routingLimit
  else do
    let s ← Normalizing.run text .start settings.rules
    pure ⟨s.rules, settings.adsEnabled⟩

def domainAction (text : Text) (settings : RoutingSettings) (host : Str) :
    Option RoutingAction := do
  let host ← canonicalBypassDomain text host
  let rule ← maxByKey (fun rule => rule.target.len)
    (settings.rules.filter fun rule => rule.kind = .domain ∧ domainMatches host rule.target = true)
  pure rule.action

def ipAction (text : Text) (settings : RoutingSettings) (ip : IpAddr) : Option RoutingAction :=
  let ip := ip.toCanonical
  let found := (settings.rules.filter fun rule => rule.kind = .cidr).filterMap fun rule =>
    ((text.parseNet rule.target).filter fun net => net.contains ip).map fun net =>
      (net.prefixLen, rule.action)
  (maxByKey Prod.fst found).map Prod.snd

def hasDirectDomains (settings : RoutingSettings) : Bool :=
  settings.rules.any fun rule => rule.kind == .domain && rule.action == .direct

def hasDirectRules (settings : RoutingSettings) : Bool :=
  settings.rules.any fun rule => rule.action == .direct

end RoutingSettings

end Usque.Core
