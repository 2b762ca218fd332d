/-
  Packets of the client at the direct gateway (`DirectGatewayRouter::route_outgoing`
  in `usque-transport/src/direct_gateway.rs`, `destination` in `routing_reject.rs`).

  * `routeOutgoing` is code over the flow table, which other tasks use at the same
    time, the protector, the stack, and the queue of rejections; it answers whether it
    consumed the packet, with the packet.
  * An operation that awaits names the reservation that is released if the future is
    dropped there (`GatewayOp.guard`); a return releases it by an operation of its own.
  * What the protector, the hints of the split DNS and the workers answer is arbitrary.
-/
import Usque.Gateway.NatTable
import Usque.Lib.Code
import Usque.Routing.Policy

namespace Usque.Gateway
open Lib Routing

/-- `routing_reject::destination`: the destination in the base header. -/
def destination (packet : Bytes) : Option IpAddr := do
  let first : UInt8 ← packet[0]?
  if first >>> 4 = 4 ∧ 20 ≤ packet.length then some (.ofV4 (slice packet 16 4))
  else if first >>> 4 = 6 ∧ 40 ≤ packet.length then some (.ofV6 (slice packet 24 16))
  else none

/-- `is_split_dns_client_packet`; the internal DNS has the address of the gateway. -/
def isSplitDnsClientPacket (packet : NatPacket) : Bool :=
  packet.destinationPort == 53 &&
    (packet.destination == .v4 0xc6120001 ||
      packet.destination == .v6 0xfd000000000000000000000000000001)

inductive DirectFallbackReason where
  | unsupportedTarget
  | workerFailed
  | unavailable
  | flowCapacity
  | setupFailed
  | rewriteFailed

/-- A `NatReservation` that is not committed. -/
structure NatReservation where
  flow : FlowKey
  id : UInt64
deriving DecidableEq

inductive GatewayOp where
  | existing (flow : FlowKey) (generation : Option UInt64)
  | reserve (flow : FlowKey) (generation : Option UInt64)
  | current (flow : FlowKey)
  | removeIf (flow : FlowKey) (id : UInt64)
  | remove (flow : FlowKey)
  | networkGeneration
  | endpointFamilyAvailable (remote : SocketAddr)
  | tunDirectAvailable
  | routeIp (ip : IpAddr) (generation : Option UInt64)
  | workerFailed
  | tokenCancelled (token : ℕ)
  | cancelled
  | reject (packet : Bytes)
  | fallback (reason : DirectFallbackReason)
  | spawnFlow (flow : FlowKey) (mapping : Mapping)
  | bindTcp (guard : NatReservation) (gateway : SocketAddr)
  | setupUdp (guard : NatReservation) (remote gateway : SocketAddr)
  | send (guard : Option NatReservation) (packet : Bytes)

abbrev GatewayOp.Answer : GatewayOp → Type
  | .existing .. | .reserve .. | .current _ => Option Mapping
  | .networkGeneration => Option UInt64
  | .endpointFamilyAvailable _ => Option Bool
  | .routeIp .. => GeoRoute
  | .tunDirectAvailable | .workerFailed | .tokenCancelled _ | .cancelled => Bool
  | .bindTcp .. | .setupUdp .. => Bool
  | .removeIf .. | .remove _ | .reject _ | .fallback _ | .spawnFlow .. | .send .. => Unit

/-- The future can be dropped here, and what it then releases. -/
def GatewayOp.guard : GatewayOp → Option (Option NatReservation)
  | .bindTcp guard _ | .setupUdp guard _ _ => some (some guard)
  | .send guard _ => some guard
  | _ => none

abbrev GatewayCode := Code GatewayOp GatewayOp.Answer

def call (op : GatewayOp) : GatewayCode op.Answer := Code.perform op

/-- The parts of the router that a call does not change. -/
structure DirectGatewayRouter where
  policy : GeoDirectPolicy
  channel : Bool
  stackIncoming : Bool
  splitDns : Bool

def directFamilyAvailable (remote : SocketAddr) : GatewayCode Bool :=
  let ip := remote.ip.toCanonical
  if ip.isLoopback || isLanBypassAddress ip then pure true
  else do
    let available ← call (.endpointFamilyAvailable (.new ip remote.port))
    pure (available != some false)

def fallback (reason : DirectFallbackReason) (packet : Bytes) : GatewayCode (Bool × Bytes) := do
  call (.fallback reason)
  pure (false, packet)

/-- A reply of the rejector, if it makes one; the packet is consumed. -/
def consume (packet : Bytes) : GatewayCode (Bool × Bytes) := do
  call (.reject packet)
  pure (true, packet)

/-- `Drop for NatReservation`. -/
def release : Option NatReservation → GatewayCode Unit
  | none => pure ()
  | some reservation => call (.removeIf reservation.flow reservation.id)

namespace DirectGatewayRouter

/-- The mapping may carry the packet: the test after setup. -/
def stillCurrent (flow : FlowKey) (mapping : Mapping) : GatewayCode Bool := do
  if ← call (.tokenCancelled mapping.cancel) then pure false
  else if ← call .cancelled then pure false
  else if mapping.networkGeneration != (← call .networkGeneration) then pure false
  else do
    let current ← call (.current flow)
    pure (current.any (·.id == mapping.id))

section
variable (router : DirectGatewayRouter) (generation : Option UInt64) (packet : Bytes)
  (parsed : NatPacket)

/-- The end of `route_outgoing`, with a mapping: the test, the rewrite and the send. -/
def handOver (mapping : Mapping) (reservation : Option NatReservation) :
    GatewayCode (Bool × Bytes) := do
  let admittedFlow := reservation.isNone
  let flow := parsed.flow
  if ← stillCurrent flow mapping then
    match rewriteDestination packet parsed mapping.gateway with
    | (false, packet) =>
      if admittedFlow then do
        call (.removeIf flow mapping.id)
        consume packet
      else do
        let answer ← fallback .rewriteFailed packet
        release reservation
        pure answer
    | (true, packet) => do
      if reservation.isSome then call (.spawnFlow flow mapping) else pure ()
      call (.send reservation packet)
      -- the reservation is committed
      pure (true, packet)
  else do
    call (.removeIf flow mapping.id)
    if admittedFlow then consume packet
    else do
      let answer ← fallback .setupFailed packet
      release reservation
      pure answer

/-- `route_outgoing` of a packet of a new flow that goes around the tunnel. -/
def admitFlow : GatewayCode (Bool × Bytes) := do
  let flow := parsed.flow
  match ← call (.reserve flow generation) with
  | none => fallback .flowCapacity packet
  | some mapping => do
    let reservation : NatReservation := ⟨flow, mapping.id⟩
    let setup ←
      if parsed.protocol = 6 then call (.bindTcp reservation mapping.gateway)
      else if parsed.protocol = 17 then
        call (.setupUdp reservation flow.remote mapping.gateway)
      else Code.panicked
    if setup then handOver packet parsed mapping (some reservation)
    else do
      let answer ← fallback .setupFailed packet
      release (some reservation)
      pure answer

/-- `route_outgoing` behind the checks of the route. -/
def forward (existing : Option Mapping) (route : GeoRoute) (workerFailed : Bool) :
    GatewayCode (Bool × Bytes) := do
  let splitDnsClient := router.splitDns && isSplitDnsClientPacket parsed
  let direct := !splitDnsClient && route == .direct
  if workerFailed then
    if existing.isSome then do
      call (.remove parsed.flow)
      consume packet
    else do
      if direct then call (.fallback .workerFailed) else pure ()
      pure (splitDnsClient, packet)
  else if !router.channel || !router.stackIncoming then do
    if direct then call (.fallback .unavailable) else pure ()
    pure (false, packet)
  else if splitDnsClient then do
    call (.send none packet)
    pure (true, packet)
  else if route != .direct then pure (false, packet)
  else if ← call .tunDirectAvailable then
    match existing with
    | some mapping => handOver packet parsed mapping none
    | none => admitFlow generation packet parsed
  else fallback .unavailable packet

/-- `route_outgoing` of a packet that parses. -/
def routeParsed (existing : Option Mapping) (workerFailed : Bool) : GatewayCode (Bool × Bytes) := do
  if ¬(parsed.protocol = 6 ∨ parsed.protocol = 17) ∨
      parsed.source.isIpv4 ≠ parsed.destination.isIpv4 then pure (false, packet)
  else do
    let splitDnsClient := router.splitDns && isSplitDnsClientPacket parsed
    let route ←
      if existing.isSome then pure .direct
      else do
        let current ← call .networkGeneration
        call (.routeIp parsed.destination current)
    if !splitDnsClient && route == .reject then consume packet
    else do
      let available ←
        if !splitDnsClient && route == .direct then directFamilyAvailable parsed.flow.remote
        else pure true
      let target := parsed.destination.toCanonical
      if !available then consume packet
      else if (!splitDnsClient && route == .direct) &&
          (parsed.destinationPort == 0 || target.isUnspecified || target.isMulticast) then
        fallback .unsupportedTarget packet
      else router.forward generation packet parsed existing route workerFailed

/-- `route_outgoing`, where `generation` is the network generation and `captured` the
    routing that it reads at its start. -/
def routeOutgoing (captured : Runtimes) (generation : Option UInt64) (packet : Bytes) :
    GatewayCode (Bool × Bytes) := do
  let parsed := NatPacket.parse packet
  let routing := router.policy.freezeRouting captured
  let existing ←
    match parsed with
    | none => pure none
    | some parsed => call (.existing parsed.flow generation)
  let internalDns := router.splitDns && parsed.any isSplitDnsClientPacket
  if existing.isNone && !internalDns &&
      (destination packet).any (fun ip => routing.rejectsIp captured ip) then consume packet
  else do
    let workerFailed ← call .workerFailed
    match parsed with
    | none => pure (false, packet)
    | some parsed => router.routeParsed generation packet parsed existing workerFailed

end

end DirectGatewayRouter

/-! ## The world around a call -/

/-- What a call shares with others: the flow table, whose lock may be poisoned, and the
    packets that were sent into the stack, the last one first. -/
structure GatewayWorld where
  table : NatTable
  poisoned : Bool
  sent : List Bytes

/-- What the other tasks do to the table: replies of the stack look flows up, and the
    tasks of flows remove them. -/
inductive Others : NatTable → NatTable → Prop where
  | refl {table : NatTable} : Others table table
  | reverse {table table' : NatTable} (order : Order) (packet : NatPacket) (now seen : ℕ)
    (h : Others table table') : Others table (table'.reverseFlow order packet now seen).1
  | removeIf {table table' : NatTable} (flow : FlowKey) (id : UInt64) (h : Others table table') :
    Others table (table'.removeIf flow id)

namespace GatewayWorld

def locked (world : GatewayWorld) (f : NatTable → NatTable) : GatewayWorld :=
  if world.poisoned then world else { world with table := f world.table }

def Acts (world : GatewayWorld) : (op : GatewayOp) → op.Answer → GatewayWorld → Prop
  | .existing flow generation, answer, after =>
    if world.poisoned then answer = none ∧ after = world
    else ∃ order now seen,
      (after, answer) = ({ world with table :=
        (world.table.existing order flow generation now seen).1 },
        (world.table.existing order flow generation now seen).2)
  | .reserve flow generation, answer, after =>
    if world.poisoned then answer = none ∧ after = world
    else ∃ order now seen,
      (after, answer) = ({ world with table :=
        (world.table.reserve order flow generation now seen).1 },
        (world.table.reserve order flow generation now seen).2)
  | .current flow, answer, after =>
    answer = (if world.poisoned then none else world.table.forward.lookup flow) ∧ after = world
  | .removeIf flow id, _, after => after = world.locked (·.removeIf flow id)
  | .remove flow, _, after => after = world.locked (·.remove flow)
  | .send _ packet, _, after => after = world ∨ after = { world with sent := packet :: world.sent }
  | _, _, after => after = world

/-- What an operation may do, after what the others did. -/
def Does (op : GatewayOp) (world : GatewayWorld) (answer : op.Answer) (after : GatewayWorld) :
    Prop :=
  ∃ table, Others world.table table ∧ Acts { world with table } op answer after

/-- The future is dropped: its reservation is released. -/
def dropped (world : GatewayWorld) (guard : Option NatReservation) : GatewayWorld :=
  match guard with
  | none => world
  | some reservation => world.locked (·.removeIf reservation.flow reservation.id)

end GatewayWorld

end Usque.Gateway
