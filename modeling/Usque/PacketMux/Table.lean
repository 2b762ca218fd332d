/-
  The packet mux table (`packet_mux.rs`, lines 8–706): flows of two origins
  share one set of wire tuples, translated where they collide.

  A call of the source takes `&mut self` and `&mut [u8]`; here it returns the
  new table with the new bytes.  A clock reading (`Instant::now()`) is an
  argument.  The traffic policy is the flag `disableQuic` of the table, which
  other owners of the policy may set between two calls.
-/
import Usque.PacketMux.Packet
import Usque.Lib.Map
import Usque.Lib.Run

namespace Usque.PacketMux
open Lib

def MAX_FLOWS : ℕ := 65536
def MAX_FRAGMENTS : ℕ := 8192
def MAINTENANCE_ITEMS : ℕ := 4096

/-- A clock reading, in nanoseconds. -/
abbrev Instant := ℕ

/-- `Duration::from_secs`. -/
def secs (n : ℕ) : ℕ := n * 1000000000

def FLOW_IDLE : ℕ := secs (5 * 60)

/-! ## Keys and mappings -/

structure WireKey where
  protocol : UInt8
  localAddress : IpAddr
  localId : UInt16
  remoteAddress : IpAddr
  remoteId : UInt16
deriving DecidableEq

structure FlowKey where
  origin : PacketOrigin
  protocol : UInt8
  localAddress : IpAddr
  localId : UInt16
  remoteAddress : IpAddr
  remoteId : UInt16
deriving DecidableEq

def PacketTuple.wire (tuple : PacketTuple) : WireKey :=
  ⟨tuple.protocol, tuple.localAddress, tuple.localId, tuple.remoteAddress, tuple.remoteId⟩

def flowKey (origin : PacketOrigin) (tuple : PacketTuple) : FlowKey :=
  ⟨origin, tuple.protocol, tuple.localAddress, tuple.localId, tuple.remoteAddress, tuple.remoteId⟩

/-- The `application_quic` test of `route_parsed_outgoing`. -/
def PacketTuple.applicationQuic (tuple : PacketTuple) : Bool :=
  tuple.protocol == 17 && tuple.remoteId == 443

/-- The `application_quic` test of `inspect_incoming`. -/
def FlowKey.applicationQuic (flow : FlowKey) : Bool := flow.protocol == 17 && flow.remoteId == 443

structure TcpFlowState where
  initialSequence : Option UInt32 := none
  localFin : Bool := false
  remoteFin : Bool := false
  reset : Bool := false

def TcpFlowState.replaces (tcp : TcpFlowState) (segment : TcpSegment) : Bool :=
  segment.initialSyn &&
    (tcp.initialSequence != some segment.sequence || tcp.reset || tcp.localFin && tcp.remoteFin)

def TcpFlowState.observe (tcp : TcpFlowState) (segment : Option TcpSegment)
    (direction : Direction) : TcpFlowState :=
  match segment with
  | none => tcp
  | some segment =>
    let fin := segment.flags &&& 0x01 != 0
    { initialSequence :=
        if direction = .outgoing ∧ segment.initialSyn then some segment.sequence
        else tcp.initialSequence
      localFin := if fin ∧ direction = .outgoing then true else tcp.localFin
      remoteFin := if fin ∧ direction = .incoming then true else tcp.remoteFin
      reset := tcp.reset || segment.flags &&& 0x04 != 0 }

structure FlowMapping where
  wire : WireKey
  originalId : UInt16
  lastSeen : Instant
  tcp : TcpFlowState

structure ReverseMapping where
  flow : FlowKey

structure OriginFragmentKey where
  origin : PacketOrigin
  fragment : FragmentKey
deriving DecidableEq

structure FragmentMapping where
  wire : FragmentKey
  lastSeen : Instant
  applicationQuic : Bool

structure IncomingFragment where
  origin : PacketOrigin
  lastSeen : Instant
  applicationQuic : Bool

/-- The `rejections` counters. -/
structure Rejections where
  flows : ℕ := 0
  outgoingFragments : ℕ := 0
  incomingFragments : ℕ := 0
deriving DecidableEq

/-- `u64::saturating_add(1)`. -/
def saturatingSucc (n : ℕ) : ℕ := min (n + 1) (2 ^ 64 - 1)

structure PacketMuxTable where
  disableQuic : Bool
  forward : HashMap FlowKey FlowMapping
  reverse : HashMap WireKey ReverseMapping
  outgoingFragments : HashMap OriginFragmentKey FragmentMapping
  wireFragments : HashMap FragmentKey OriginFragmentKey
  incomingFragments : HashMap FragmentKey IncomingFragment
  nextId : UInt16
  nextFragmentId : UInt32
  flowScan : List FlowKey
  outgoingFragmentScan : List OriginFragmentKey
  incomingFragmentScan : List FragmentKey
  flowLimit : ℕ
  outgoingFragmentLimit : ℕ
  incomingFragmentLimit : ℕ
  rejections : Rejections
  reportedRejections : Rejections
  lastReport : Instant

structure OutgoingPacketInspection where
  origin : PacketOrigin
  parsed : Option ParsedPacket
  owned : Bool

inductive IncomingRewrite where
  | identifier (tuple : PacketTuple) (newId : UInt16)
  | quoted (tuple : PacketTuple) (innerOffset checksumOffset : ℕ) (newId : UInt16)

def IncomingRewrite.apply (packet : Bytes) : IncomingRewrite → Bytes
  | .identifier tuple newId => rewriteIdentifier packet tuple newId
  | .quoted tuple innerOffset checksumOffset newId =>
    rewriteEmbeddedIdentifier packet innerOffset tuple checksumOffset newId

structure RoutedPacket where
  origin : PacketOrigin
  packet : Bytes
  copiedBytes : ℕ
deriving DecidableEq

namespace PacketMuxTable

/-- `PacketMuxTable::with_traffic_policy`, and `PacketMuxTable::default` with
    the default policy; `now` is the clock reading. -/
def withTrafficPolicy (disableQuic : Bool) (now : Instant) : PacketMuxTable where
  disableQuic
  forward := ∅
  reverse := ∅
  outgoingFragments := ∅
  wireFragments := ∅
  incomingFragments := ∅
  nextId := 49152
  nextFragmentId := 0x80000000
  flowScan := []
  outgoingFragmentScan := []
  incomingFragmentScan := []
  flowLimit := MAX_FLOWS
  outgoingFragmentLimit := MAX_FRAGMENTS
  incomingFragmentLimit := MAX_FRAGMENTS
  rejections := {}
  reportedRejections := {}
  lastReport := now

section
variable (t : PacketMuxTable) (now : Instant) (origin : PacketOrigin)
  (fragment : Option FragmentKey) (packet : Bytes)

/-- `ApplicationTrafficPolicy::blocks_udp` of the table's policy. -/
def blocksUdp (remotePort : UInt16) : Bool :=
  remotePort == 443 && t.disableQuic

/-! ## Allocation -/

/-- The candidate after `id` in the dynamic range. -/
def advanceId (id : UInt16) : UInt16 := if id = 65535 then 49152 else id + 1

/-- The loop of `allocate_identifier`, with the number of rounds left. -/
def allocateIdentifierLoop (template : WireKey) :
    ℕ → PacketMuxTable → PacketMuxTable × Option UInt16
  | 0, t => (t, none)
  | rounds + 1, t =>
    let candidate := t.nextId
    let t := { t with nextId := advanceId t.nextId }
    if { template with localId := candidate } ∉ t.reverse then (t, some candidate)
    else allocateIdentifierLoop template rounds t

def allocateIdentifier (template : WireKey) : PacketMuxTable × Option UInt16 :=
  allocateIdentifierLoop template 16384 t

/-- The candidate after `id` for an identification of the given width. -/
def advanceFragmentId (width : UInt8) (id : UInt32) : UInt32 :=
  if width = 2 then (id + 1) &&& 0xffff else id + 1

/-- The loop of `allocate_fragment_identifier`, with the number of rounds left. -/
def allocateFragmentIdentifierLoop (template : FragmentKey) :
    ℕ → PacketMuxTable → PacketMuxTable × Option UInt32
  | 0, t => (t, none)
  | rounds + 1, t =>
    let candidate := advanceFragmentId template.identifierWidth t.nextFragmentId
    let t := { t with nextFragmentId := candidate }
    if { template with identifier := candidate } ∉ t.wireFragments then (t, some candidate)
    else allocateFragmentIdentifierLoop template rounds t

def allocateFragmentIdentifier (template : FragmentKey) : PacketMuxTable × Option UInt32 :=
  allocateFragmentIdentifierLoop template (if template.identifierWidth = 2 then 65535 else 65536) t

/-! ## Outgoing packets -/

def retirePreviousTcp (tuple : PacketTuple) (packet : Bytes) : PacketMuxTable :=
  match (tuple.tcpSegment packet).filter (·.initialSyn) with
  | none => t
  | some segment =>
    let key := flowKey origin tuple
    match t.forward.lookup key with
    | none => t
    | some previous =>
      if previous.tcp.replaces segment then
        { t with
          forward := t.forward.erase key
          reverse := t.reverse.erase previous.wire
          flowScan := t.flowScan.filter (· ≠ key) }
      else t

def inspectOutgoing : PacketMuxTable × OutgoingPacketInspection :=
  let parsed := ParsedPacket.parse packet .outgoing
  match parsed with
  | some (.flow tuple _) =>
    let t := t.retirePreviousTcp origin tuple packet
    (t, ⟨origin, parsed, flowKey origin tuple ∈ t.forward⟩)
  | some (.fragment fragment) => (t, ⟨origin, parsed, ⟨origin, fragment⟩ ∈ t.outgoingFragments⟩)
  | none => (t, ⟨origin, parsed, false⟩)

def prepareOutgoingFragment (fragment : FragmentKey) :
    PacketMuxTable × Option (OriginFragmentKey × FragmentKey) :=
  let key : OriginFragmentKey := ⟨origin, fragment⟩
  match t.outgoingFragments.lookup key with
  | some mapping => (t, some (key, mapping.wire))
  | none =>
    if t.outgoingFragmentLimit ≤ t.outgoingFragments.len then
      ({ t with rejections :=
          { t.rejections with
            outgoingFragments := saturatingSucc t.rejections.outgoingFragments } }, none)
    else if fragment ∈ t.wireFragments then
      match t.allocateFragmentIdentifier fragment with
      | (t, none) => (t, none)
      | (t, some identifier) => (t, some (key, { fragment with identifier }))
    else (t, some (key, fragment))

def commitOutgoingFragment (key : OriginFragmentKey) (wire : FragmentKey) (now : Instant)
    (applicationQuic : Bool) : PacketMuxTable × Bytes :=
  let packet := if wire.identifier ≠ key.fragment.identifier then
    rewriteFragmentIdentifier packet key.fragment wire.identifier else packet
  match t.outgoingFragments.lookup key with
  | some mapping =>
    ({ t with outgoingFragments :=
        t.outgoingFragments.insert key { mapping with lastSeen := now, applicationQuic } }, packet)
  | none =>
    ({ t with
      outgoingFragmentScan := t.outgoingFragmentScan ++ [key]
      outgoingFragments := t.outgoingFragments.insert key ⟨wire, now, applicationQuic⟩
      wireFragments := t.wireFragments.insert wire key }, packet)

def commitPrepared (prepared : Option (OriginFragmentKey × FragmentKey)) (now : Instant)
    (applicationQuic : Bool) : PacketMuxTable × Bytes :=
  match prepared with
  | none => (t, packet)
  | some (key, wire) => t.commitOutgoingFragment packet key wire now applicationQuic

def routeOutgoingFragment (fragment : FragmentKey) : PacketMuxTable × Bytes × Bool :=
  let key : OriginFragmentKey := ⟨origin, fragment⟩
  match t.outgoingFragments.lookup key with
  | none => (t, packet, false)
  | some mapping =>
    if origin = .tunnel ∧ mapping.applicationQuic ∧ t.blocksUdp 443 then (t, packet, false)
    else
      let t := { t with outgoingFragments :=
        t.outgoingFragments.insert key { mapping with lastSeen := now } }
      if mapping.wire.identifier ≠ fragment.identifier then
        (t, rewriteFragmentIdentifier packet fragment mapping.wire.identifier, true)
      else (t, packet, true)

/-- The branch of `route_parsed_outgoing` for a packet the policy blocks: an
    older allowed classification of its fragment key is invalidated. -/
def blockOutgoing : PacketMuxTable :=
  match fragment with
  | none => t
  | some fragment =>
    { t with outgoingFragments :=
        t.outgoingFragments.modify ⟨origin, fragment⟩ ({ · with applicationQuic := true }) }

/-- The branch of `route_parsed_outgoing` for a live flow. -/
def refreshFlow (tuple : PacketTuple) (mapping : FlowMapping)
    (prepared : Option (OriginFragmentKey × FragmentKey)) : PacketMuxTable × Bytes × Bool :=
  let tcp := mapping.tcp.observe (tuple.tcpSegment packet) .outgoing
  let t := { t with
    forward := t.forward.insert (flowKey origin tuple) { mapping with lastSeen := now, tcp } }
  let packet := if mapping.wire.localId ≠ mapping.originalId then
    rewriteIdentifier packet tuple mapping.wire.localId else packet
  let (t, packet) := t.commitPrepared packet prepared now tuple.applicationQuic
  (t, packet, true)

/-- The end of `route_parsed_outgoing`: publish a flow under its wire key. -/
def publishFlow (tuple : PacketTuple) (wire : WireKey)
    (prepared : Option (OriginFragmentKey × FragmentKey)) : PacketMuxTable × Bytes × Bool :=
  let flow := flowKey origin tuple
  let t := { t with
    flowScan := t.flowScan ++ [flow]
    forward := t.forward.insert flow
      { wire
        originalId := tuple.localId
        lastSeen := now
        tcp := ({} : TcpFlowState).observe (tuple.tcpSegment packet) .outgoing }
    reverse := t.reverse.insert wire ⟨flow⟩ }
  let (t, packet) := t.commitPrepared packet prepared now tuple.applicationQuic
  (t, packet, true)

/-- The branch of `route_parsed_outgoing` for a new flow. -/
def admitFlow (tuple : PacketTuple) (prepared : Option (OriginFragmentKey × FragmentKey)) :
    PacketMuxTable × Bytes × Bool :=
  if tuple.wire ∈ t.reverse then
    match t.allocateIdentifier tuple.wire with
    | (t, none) => (t, packet, false)
    | (t, some translated) =>
      t.publishFlow now origin (rewriteIdentifier packet tuple translated) tuple
        { tuple.wire with localId := translated } prepared
  else t.publishFlow now origin packet tuple tuple.wire prepared

/-- The preflight of `route_parsed_outgoing`: `none` for a refused fragment,
    `some none` for a packet that is no fragment. -/
def preflightFragment : PacketMuxTable × Option (Option (OriginFragmentKey × FragmentKey)) :=
  match fragment with
  | none => (t, some none)
  | some fragment =>
    match t.prepareOutgoingFragment origin fragment with
    | (t, none) => (t, none)
    | (t, some prepared) => (t, some (some prepared))

/-- The part of `route_parsed_outgoing` behind the policy and the retirement of
    an older connection. -/
def routeFlow (tuple : PacketTuple) (fragment : Option FragmentKey) :
    PacketMuxTable × Bytes × Bool :=
  let flow := flowKey origin tuple
  if flow ∉ t.forward ∧ t.flowLimit ≤ t.forward.len then
    ({ t with rejections :=
        { t.rejections with flows := saturatingSucc t.rejections.flows } }, packet, false)
  else
    match t.preflightFragment origin fragment with
    | (t, none) => (t, packet, false)
    | (t, some prepared) =>
      match t.forward.lookup flow with
      | some mapping => t.refreshFlow now origin packet tuple mapping prepared
      | none => t.admitFlow now origin packet tuple prepared

def routeParsedOutgoing : Option ParsedPacket → PacketMuxTable × Bytes × Bool
  | none => (t, packet, isOutgoingIcmpError packet)
  | some (.fragment fragment) => t.routeOutgoingFragment now origin packet fragment
  | some (.flow tuple fragment) =>
    if origin = .tunnel ∧ tuple.applicationQuic ∧ t.blocksUdp 443 then
      (t.blockOutgoing origin fragment, packet, false)
    else (t.retirePreviousTcp origin tuple packet).routeFlow now origin packet tuple fragment

def routeOutgoing : PacketMuxTable × Bytes × Bool :=
  t.routeParsedOutgoing now origin packet (ParsedPacket.parse packet .outgoing)

def routeInspectedOutgoing (inspection : OutgoingPacketInspection) :
    PacketMuxTable × Bytes × Bool :=
  t.routeParsedOutgoing now inspection.origin packet inspection.parsed

/-! ## Incoming packets -/

def admitIncomingFragment (fragment : FragmentKey) : PacketMuxTable × Bool :=
  if fragment ∉ t.incomingFragments ∧ t.incomingFragmentLimit ≤ t.incomingFragments.len then
    ({ t with rejections :=
        { t.rejections with
          incomingFragments := saturatingSucc t.rejections.incomingFragments } }, false)
  else (t, true)

/-- The flow a wire key belongs to, once a first fragment has been admitted. -/
def lookupIncoming (wire : WireKey) (fragment : Option FragmentKey) :
    PacketMuxTable × Option FlowKey :=
  match fragment with
  | none => (t, (t.reverse.lookup wire).map (·.flow))
  | some fragment =>
    if wire ∉ t.reverse then (t, none)
    else
      match t.admitIncomingFragment fragment with
      | (t, false) => (t, none)
      | (t, true) => (t, (t.reverse.lookup wire).map (·.flow))

/-- `record_incoming_fragment`, if the packet is a first fragment. -/
def recordIncomingFragment (origin : PacketOrigin) (now : Instant) (applicationQuic : Bool) :
    PacketMuxTable :=
  match fragment with
  | none => t
  | some fragment =>
    { t with
      incomingFragmentScan :=
        if fragment ∉ t.incomingFragments then t.incomingFragmentScan ++ [fragment]
        else t.incomingFragmentScan
      incomingFragments := t.incomingFragments.insert fragment ⟨origin, now, applicationQuic⟩ }

/-- The branch of `inspect_incoming` for a later fragment. -/
def inspectIncomingFragment (fragment : FragmentKey) :
    PacketMuxTable × Option (PacketOrigin × Option IncomingRewrite) :=
  match t.incomingFragments.lookup fragment with
  | none => (t, none)
  | some mapping =>
    if mapping.origin = .tunnel ∧ mapping.applicationQuic ∧ t.blocksUdp 443 then (t, none)
    else
      ({ t with incomingFragments :=
          t.incomingFragments.insert fragment { mapping with lastSeen := now } },
        some (mapping.origin, none))

/-- The branch of `inspect_incoming` for a packet the policy blocks. -/
def blockIncoming : PacketMuxTable :=
  match fragment with
  | none => t
  | some fragment =>
    { t with incomingFragments :=
        t.incomingFragments.modify fragment ({ · with origin, applicationQuic := true }) }

/-- The parse of `inspect_incoming_icmp_error`: the network packet, its
    transport offset and the tuple quoted behind the ICMP header. -/
def quotedTuple : Option (NetworkPacket × ℕ × PacketTuple) := do
  let network ← parseNetworkPacket packet
  let transportOffset ← network.transportOffset
  let messageType ← packet[transportOffset]?
  if !isIcmpErrorType network.protocol messageType then none
  else
    let innerOffset := transportOffset + 8
    if packet.length < innerOffset then none
    else
      match ← ParsedPacket.parse (packet.drop innerOffset) .outgoing with
      | .flow tuple _ => return (network, transportOffset, tuple)
      | .fragment _ => none

def inspectIncomingIcmpError (now later : Instant) (packet : Bytes) :
    PacketMuxTable × Option (PacketOrigin × Option IncomingRewrite) :=
  match quotedTuple packet with
  | none => (t, none)
  | some (network, transportOffset, tuple) =>
    match t.lookupIncoming tuple.wire network.fragment with
    | (t, none) => (t, none)
    | (t, some flow) =>
      let rewrite := if tuple.localId ≠ flow.localId then
        some (IncomingRewrite.quoted tuple (transportOffset + 8) (transportOffset + 2) flow.localId)
        else none
      let t := { t with forward := t.forward.modify flow ({ · with lastSeen := now }) }
      (t.recordIncomingFragment network.fragment flow.origin later false,
        some (flow.origin, rewrite))

def inspectIncoming (now later : Instant) (packet : Bytes) :
    PacketMuxTable × Option (PacketOrigin × Option IncomingRewrite) :=
  match ParsedPacket.parse packet .incoming with
  | none => t.inspectIncomingIcmpError now later packet
  | some (.fragment fragment) => t.inspectIncomingFragment now fragment
  | some (.flow tuple fragment) =>
    match t.lookupIncoming tuple.wire fragment with
    | (t, none) => (t, none)
    | (t, some flow) =>
      if flow.origin = .tunnel ∧ flow.applicationQuic ∧ t.blocksUdp 443 then
        (t.blockIncoming flow.origin fragment, none)
      else
        let rewrite := if tuple.localId ≠ flow.localId then
          some (IncomingRewrite.identifier tuple flow.localId) else none
        let t := { t with forward := t.forward.modify flow fun mapping =>
          { mapping with
            lastSeen := now
            tcp := mapping.tcp.observe (tuple.tcpSegment packet) .incoming } }
        (t.recordIncomingFragment fragment flow.origin later flow.applicationQuic,
          some (flow.origin, rewrite))

/-- `route_owned_incoming`; `unique` says whether the buffer could be taken over
    without a copy. -/
def routeOwnedIncoming (now later : Instant) (packet : Bytes) (unique : Bool) :
    PacketMuxTable × Option RoutedPacket :=
  match t.inspectIncoming now later packet with
  | (t, none) => (t, none)
  | (t, some (origin, none)) => (t, some ⟨origin, packet, 0⟩)
  | (t, some (origin, some rewrite)) =>
    (t, some ⟨origin, rewrite.apply packet, if unique then 0 else packet.length⟩)

/-! ## Maintenance -/

def idle (now lastSeen : Instant) : Bool := FLOW_IDLE < now - lastSeen

def maintainFlows : PacketMuxTable :=
  let (flowScan, forward, reverse) := sweep
    (fun s key => (s.1.lookup key).any (idle now ·.lastSeen))
    (retire (·.wire))
    (min t.flowScan.length MAINTENANCE_ITEMS) t.flowScan (t.forward, t.reverse)
  { t with flowScan, forward, reverse }

def maintainOutgoingFragments : PacketMuxTable :=
  let (outgoingFragmentScan, outgoingFragments, wireFragments) := sweep
    (fun s key => (s.1.lookup key).any (idle now ·.lastSeen))
    (retire (·.wire))
    (min t.outgoingFragmentScan.length MAINTENANCE_ITEMS) t.outgoingFragmentScan
    (t.outgoingFragments, t.wireFragments)
  { t with outgoingFragmentScan, outgoingFragments, wireFragments }

def maintainIncomingFragments : PacketMuxTable :=
  let (incomingFragmentScan, incomingFragments) := sweep
    (fun s key => (s.lookup key).any (idle now ·.lastSeen))
    (fun key s => s.erase key)
    (min t.incomingFragmentScan.length MAINTENANCE_ITEMS) t.incomingFragmentScan
    t.incomingFragments
  { t with incomingFragmentScan, incomingFragments }

/-- The end of `maintain`: an empty map releases its storage together with its
    indexes, and new rejections are reported at most every 30 seconds. -/
def maintainStorage : PacketMuxTable :=
  let t := if t.forward.len = 0 then { t with forward := ∅, reverse := ∅, flowScan := [] } else t
  let t := if t.outgoingFragments.len = 0 then
    { t with outgoingFragments := ∅, wireFragments := ∅, outgoingFragmentScan := [] } else t
  let t := if t.incomingFragments.len = 0 then
    { t with incomingFragments := ∅, incomingFragmentScan := [] } else t
  if t.rejections ≠ t.reportedRejections ∧ secs 30 ≤ now - t.lastReport then
    { t with reportedRejections := t.rejections, lastReport := now }
  else t

def maintain : PacketMuxTable :=
  (((t.maintainFlows now).maintainOutgoingFragments now).maintainIncomingFragments
    now).maintainStorage now

end

end PacketMuxTable

/-! ## Runs -/

/-- One call.  The inspection a packet is routed with is the one that
    `inspect_outgoing` made of the same bytes, at any earlier time. -/
inductive Op where
  | routeOutgoing (now : Instant) (origin : PacketOrigin) (packet : Bytes)
  | inspectOutgoing (origin : PacketOrigin) (packet : Bytes)
  | routeInspectedOutgoing (now : Instant) (origin : PacketOrigin) (packet : Bytes) (owned : Bool)
  | routeOwnedIncoming (now later : Instant) (packet : Bytes) (unique : Bool)
  | maintain (now : Instant)
  | setDisableQuic (value : Bool)

inductive Verdict where
  /-- An outgoing packet leaves with the given bytes. -/
  | sent (packet : Bytes)
  /-- An incoming packet is delivered. -/
  | delivered (routed : RoutedPacket)
  /-- A packet goes no further. -/
  | dropped
  | inspected (inspection : OutgoingPacketInspection)
  | done

def Verdict.ofOutgoing (r : PacketMuxTable × Bytes × Bool) : PacketMuxTable × Verdict :=
  (r.1, if r.2.2 then .sent r.2.1 else .dropped)

def Verdict.ofIncoming (r : PacketMuxTable × Option RoutedPacket) : PacketMuxTable × Verdict :=
  (r.1, match r.2 with
    | some routed => .delivered routed
    | none => .dropped)

def step (t : PacketMuxTable) : Op → PacketMuxTable × Verdict
  | .routeOutgoing now origin packet => Verdict.ofOutgoing (t.routeOutgoing now origin packet)
  | .inspectOutgoing origin packet =>
    ((t.inspectOutgoing origin packet).1, .inspected (t.inspectOutgoing origin packet).2)
  | .routeInspectedOutgoing now origin packet owned =>
    Verdict.ofOutgoing (t.routeInspectedOutgoing now packet
      ⟨origin, ParsedPacket.parse packet .outgoing, owned⟩)
  | .routeOwnedIncoming now later packet unique =>
    Verdict.ofIncoming (t.routeOwnedIncoming now later packet unique)
  | .maintain now => (t.maintain now, .done)
  | .setDisableQuic value => ({ t with disableQuic := value }, .done)

/-- One call of a run, with the table before it and its verdict. -/
abbrev MuxEvent := Event PacketMuxTable Op Verdict

def Initial (t : PacketMuxTable) : Prop :=
  ∃ disableQuic now, t = PacketMuxTable.withTrafficPolicy disableQuic now

def Reachable (t : PacketMuxTable) : Prop := Lib.Reachable step Initial t

end Usque.PacketMux
