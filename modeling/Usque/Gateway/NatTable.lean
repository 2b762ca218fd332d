/-
  The flow table of the direct gateway (`NatTable` in
  `usque-transport/src/direct_gateway.rs`).

  * `forward` maps a flow to its mapping, `reverse` the endpoints of a reply to the
    flow, and `ports` each gateway port in use to the id of the mapping that owns it.
  * Every reading of the clock is an argument: `now` for the idle sweep and `seen` for
    `last_seen`.  Times are in nanoseconds; `duration_since` saturates at zero.
  * A cancellation token is a number; the table records how many were made and which
    were cancelled.
-/
import Usque.Gateway.Packet
import Usque.Lib.Derived
import Usque.Lib.Run

namespace Usque
open Lib

def SocketAddr.new (ip : IpAddr) (port : UInt16) : SocketAddr :=
  match ip with
  | .v4 addr => .v4 addr port
  | .v6 addr => .v6 addr port 0 0

def SocketAddr.isIpv6 : SocketAddr → Bool
  | .v4 .. => false
  | .v6 .. => true

namespace Gateway

/-- `GATEWAY_IPV4` and `GATEWAY_IPV6`, `gateway_ip`. -/
def gatewayIp (ipv6 : Bool) : IpAddr :=
  if ipv6 then .v6 0xfd000000000000000000000000000001 else .v4 0xc6120001

def FIRST_DYNAMIC_PORT : UInt16 := 49152
def LAST_DYNAMIC_PORT : UInt16 := 65534
def MAX_DIRECT_FLOWS : ℕ := 4096
def MAX_DIRECT_UDP_FLOWS : ℕ := 256
def FLOW_IDLE_TIMEOUT : ℕ := 5 * 60 * 10 ^ 9
def SWEEP_INTERVAL : ℕ := 30 * 10 ^ 9

structure FlowKey where
  protocol : UInt8
  client : SocketAddr
  remote : SocketAddr
deriving DecidableEq

structure PortKey where
  protocol : UInt8
  ipv6 : Bool
  port : UInt16
deriving DecidableEq

structure ReverseKey where
  protocol : UInt8
  gateway : SocketAddr
  client : SocketAddr
deriving DecidableEq

structure Mapping where
  id : UInt64
  gateway : SocketAddr
  networkGeneration : Option UInt64
  cancel : ℕ
  lastSeen : ℕ
deriving DecidableEq

def ReverseKey.of (flow : FlowKey) (mapping : Mapping) : ReverseKey :=
  ⟨flow.protocol, mapping.gateway, flow.client⟩

def PortKey.of (flow : FlowKey) (mapping : Mapping) : PortKey :=
  ⟨flow.protocol, mapping.gateway.isIpv6, mapping.gateway.port⟩

structure NatTable where
  forward : HashMap FlowKey Mapping
  reverse : HashMap ReverseKey FlowKey
  ports : HashMap PortKey UInt64
  udpFlows : ℕ
  nextPort : UInt16
  nextId : UInt64
  lastSweep : ℕ
  /-- the number of tokens made -/
  tokens : ℕ
  /-- the tokens that were cancelled -/
  cancelled : List ℕ

/-- An order in which the flows are visited. -/
abbrev Order := Iteration FlowKey Mapping

namespace NatTable

/-- `NatTable::default`, made at the time `now`. -/
def default (now : ℕ) : NatTable where
  forward := ∅
  reverse := ∅
  ports := ∅
  udpFlows := 0
  nextPort := FIRST_DYNAMIC_PORT
  nextId := 1
  lastSweep := now
  tokens := 0
  cancelled := []

section
variable (order : Order) (table : NatTable) (flow : FlowKey) (generation : Option UInt64)
  (port : UInt16)

def remove : NatTable :=
  match table.forward.lookup flow with
  | none => table
  | some mapping =>
    { table with
      forward := table.forward.erase flow
      cancelled := mapping.cancel :: table.cancelled
      reverse := table.reverse.erase (.of flow mapping)
      ports := table.ports.erase (.of flow mapping)
      udpFlows := if flow.protocol = 17 then table.udpFlows - 1 else table.udpFlows }

def removeIf (id : UInt64) : NatTable :=
  if (table.forward.lookup flow).any (·.id == id) then table.remove flow else table

/-- The flows that `sweep_if_needed` collects. -/
def stale (now : ℕ) : List FlowKey :=
  ((order.iter table.forward).filter fun entry =>
    decide (FLOW_IDLE_TIMEOUT ≤ now - entry.2.lastSeen)).map Prod.fst

def sweepIfNeeded (now : ℕ) : NatTable :=
  if now - table.lastSweep < SWEEP_INTERVAL then table
  else (stale order table now).foldl remove { table with lastSweep := now }

/-- `mapping.last_seen = Instant::now()`. -/
def touch (seen : ℕ) : NatTable :=
  { table with
    forward := table.forward.modify flow fun mapping => { mapping with lastSeen := seen } }

def existing (now seen : ℕ) : NatTable × Option Mapping :=
  let table := table.sweepIfNeeded order now
  if (table.forward.lookup flow).any (·.networkGeneration != generation) then
    (table.remove flow, none)
  else
    let table := table.touch flow seen
    (table, table.forward.lookup flow)

def portAfter : UInt16 :=
  if port = LAST_DYNAMIC_PORT then FIRST_DYNAMIC_PORT else port + 1

/-- Rounds of `allocate_port`: the first free port, and the new `next_port`. -/
def scanPorts (ports : HashMap PortKey UInt64) (protocol : UInt8) (ipv6 : Bool) :
    ℕ → UInt16 → Option UInt16 × UInt16
  | 0, nextPort => (none, nextPort)
  | rounds + 1, nextPort =>
    if (ports.lookup ⟨protocol, ipv6, nextPort⟩).isSome then
      scanPorts ports protocol ipv6 rounds (portAfter nextPort)
    else (some nextPort, portAfter nextPort)

/-- The rounds of `allocate_port`: `FIRST_DYNAMIC_PORT..=LAST_DYNAMIC_PORT`. -/
def portRounds : ℕ := LAST_DYNAMIC_PORT.toNat - FIRST_DYNAMIC_PORT.toNat + 1

def allocatePort (protocol : UInt8) (ipv6 : Bool) : NatTable × Option UInt16 :=
  let (port, nextPort) := scanPorts table.ports protocol ipv6 portRounds table.nextPort
  ({ table with nextPort }, port)

/-- One of the two limits is reached for the flow. -/
def Full : Prop :=
  MAX_DIRECT_FLOWS ≤ table.forward.len ∨
    (flow.protocol = 17 ∧ MAX_DIRECT_UDP_FLOWS ≤ table.udpFlows)

instance (table : NatTable) (flow : FlowKey) : Decidable (table.Full flow) := by
  unfold Full
  infer_instance

/-- The mapping that `reserve` makes on `port`. -/
def mappingOn (seen : ℕ) : Mapping where
  id := table.nextId
  gateway := .new (gatewayIp flow.client.isIpv6) port
  networkGeneration := generation
  cancel := table.tokens
  lastSeen := seen

/-- The entries that `reserve` makes for `mapping` on `port`. -/
def record (mapping : Mapping) : NatTable :=
  { table with
    nextId := max (table.nextId + 1) 1
    tokens := table.tokens + 1
    ports := table.ports.insert ⟨flow.protocol, flow.client.isIpv6, port⟩ mapping.id
    reverse := table.reverse.insert (.of flow mapping) flow
    forward := table.forward.insert flow mapping
    udpFlows := if flow.protocol = 17 then table.udpFlows + 1 else table.udpFlows }

def reserve (now seen : ℕ) : NatTable × Option Mapping :=
  let table := table.sweepIfNeeded order now
  if table.Full flow then (table, none)
  else
    match table.allocatePort flow.protocol flow.client.isIpv6 with
    | (table, none) => (table, none)
    | (table, some port) =>
      let mapping := table.mappingOn flow generation port seen
      (table.record flow port mapping, some mapping)

/-- The key that a packet of the stack is looked up under. -/
def replyKey (packet : NatPacket) : ReverseKey :=
  ⟨packet.protocol, .new packet.source packet.sourcePort,
    .new packet.destination packet.destinationPort⟩

/-- `NatTable::reverse`. -/
def reverseFlow (packet : NatPacket) (now seen : ℕ) : NatTable × Option FlowKey :=
  let table := table.sweepIfNeeded order now
  match table.reverse.lookup (replyKey packet) with
  | none => (table, none)
  | some flow =>
    if (table.forward.lookup flow).isSome then (table.touch flow seen, some flow)
    else (table, none)

def cancelAll : NatTable :=
  { table with
    cancelled := (order.iter table.forward).map (·.2.cancel) ++ table.cancelled
    forward := ∅
    reverse := ∅
    ports := ∅
    udpFlows := 0 }

/-- `route_incoming`: the answer and the packet. -/
def routeIncoming (packet : Bytes) (now seen : ℕ) : NatTable × (Bool × Bytes) :=
  match NatPacket.parse packet with
  | none => (table, (false, packet))
  | some parsed =>
    match table.reverseFlow order parsed now seen with
    | (table, none) => (table, (false, packet))
    | (table, some flow) => (table, rewriteSource packet parsed flow.remote)

end

end NatTable

/-- The flow of a packet of the client, as `route_outgoing` names it. -/
def NatPacket.flow (parsed : NatPacket) : FlowKey where
  protocol := parsed.protocol
  client := .new parsed.source parsed.sourcePort
  remote := .new parsed.destination parsed.destinationPort

/-! ## The table as a machine -/

inductive Call where
  | existing (order : Order) (flow : FlowKey) (generation : Option UInt64) (now seen : ℕ)
  | reserve (order : Order) (flow : FlowKey) (generation : Option UInt64) (now seen : ℕ)
  | reverse (order : Order) (packet : NatPacket) (now seen : ℕ)
  | removeIf (flow : FlowKey) (id : UInt64)
  | remove (flow : FlowKey)
  | sweep (order : Order) (now : ℕ)
  | cancelAll (order : Order)

inductive Answer where
  | mapping (mapping : Option Mapping)
  | flow (flow : Option FlowKey)
  | done

def NatTable.next (table : NatTable) : Call → NatTable × Answer
  | .existing order flow generation now seen =>
    let (table, found) := table.existing order flow generation now seen
    (table, .mapping found)
  | .reserve order flow generation now seen =>
    let (table, made) := table.reserve order flow generation now seen
    (table, .mapping made)
  | .reverse order packet now seen =>
    let (table, found) := table.reverseFlow order packet now seen
    (table, .flow found)
  | .removeIf flow id => (table.removeIf flow id, .done)
  | .remove flow => (table.remove flow, .done)
  | .sweep order now => (table.sweepIfNeeded order now, .done)
  | .cancelAll order => (table.cancelAll order, .done)

/-- A flow is only reserved while it is not mapped, as `route_outgoing` ensures. -/
def Call.Unmapped (table : NatTable) : Call → Prop
  | .reserve _ flow _ _ _ => table.forward.lookup flow = none
  | _ => True

/-- A flow is only reserved for a packet of it, as `route_outgoing` ensures. -/
def Call.OfPacket : Call → Prop
  | .reserve _ flow _ _ _ => ∃ packet parsed, NatPacket.parse packet = some parsed ∧
      flow = parsed.flow
  | _ => True

end Gateway

end Usque
