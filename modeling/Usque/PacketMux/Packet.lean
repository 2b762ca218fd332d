/-
  Packets as the mux reads them (`packet_mux.rs`, lines 719–1123): the IPv4 and
  IPv6 headers down to the transport header, the flow or fragment a packet
  belongs to, and the in-place rewrites of its identifiers and checksums.
-/
import Usque.IpAddr

namespace Usque.PacketMux
open Lib

/-! ## Keys -/

inductive PacketOrigin where
  | tunnel
  | proxy
deriving DecidableEq

inductive Direction where
  | outgoing
  | incoming
deriving DecidableEq

/-- `FragmentKey`: the datagram a fragment belongs to, and where its
    identification stands in the header. -/
structure FragmentKey where
  source : IpAddr
  destination : IpAddr
  protocol : UInt8
  identifier : UInt32
  identifierOffset : ℕ
  identifierWidth : UInt8
deriving DecidableEq

/-- `PacketTuple`: the flow a packet belongs to, and where its local identifier
    and its checksum stand. -/
structure PacketTuple where
  protocol : UInt8
  localAddress : IpAddr
  localId : UInt16
  remoteAddress : IpAddr
  remoteId : UInt16
  identifierOffset : ℕ
  checksumOffset : ℕ
  checksumOptional : Bool
deriving DecidableEq

structure TcpSegment where
  sequence : UInt32
  flags : UInt8
deriving DecidableEq

inductive ParsedPacket where
  | flow (tuple : PacketTuple) (fragment : Option FragmentKey)
  | fragment (fragment : FragmentKey)
deriving DecidableEq

structure NetworkPacket where
  version : UInt8
  protocol : UInt8
  source : IpAddr
  destination : IpAddr
  transportOffset : Option ℕ
  fragment : Option FragmentKey
deriving DecidableEq

/-! ## Network headers -/

section
variable (packet : Bytes) (direction : Direction)

/-- `parse_ipv4`.  The byte reads stand behind the length check, so their
    default is never used. -/
def parseIpv4 : Option NetworkPacket :=
  if packet.length < 20 then none
  else
    let headerLength := (packet.getD 0 0 &&& 0x0f).toNat * 4
    if headerLength < 20 ∨ packet.length < headerLength then none
    else do
      let source := IpAddr.ofV4 (slice packet 12 4)
      let destination := IpAddr.ofV4 (slice packet 16 4)
      let flagsOffset ← readU16 packet 6
      let fragmentOffset := flagsOffset &&& 0x1fff
      let moreFragments := flagsOffset &&& 0x2000 ≠ 0
      let fragment := if fragmentOffset ≠ 0 ∨ moreFragments then
        some
          { source, destination
            protocol := packet.getD 9 0
            identifier := ((readU16 packet 4).getD 0).toUInt32
            identifierOffset := 4
            identifierWidth := 2 : FragmentKey }
        else none
      return {
        version := 4
        protocol := packet.getD 9 0
        source, destination
        transportOffset := if fragmentOffset = 0 then some headerLength else none
        fragment }

/-- The extension header loop of `parse_ipv6`, with the number of rounds left. -/
def ipv6Chain (packet : Bytes) (source destination : IpAddr) :
    ℕ → UInt8 → ℕ → Option FragmentKey → Option NetworkPacket
  | 0, protocol, offset, fragment =>
    some ⟨6, protocol, source, destination, some offset, fragment⟩
  | rounds + 1, protocol, offset, fragment =>
    if protocol = 0 ∨ protocol = 43 ∨ protocol = 60 then do
      let next ← packet[offset]?
      let length := ((← packet[offset + 1]?).toNat + 1) * 8
      if packet.length < offset + length then none
      else ipv6Chain packet source destination rounds next (offset + length) fragment
    else if protocol = 51 then do
      let next ← packet[offset]?
      let length := ((← packet[offset + 1]?).toNat + 2) * 4
      if packet.length < offset + length then none
      else ipv6Chain packet source destination rounds next (offset + length) fragment
    else if protocol = 44 then do
      let fragmentProtocol ← packet[offset]?
      let flagsOffset ← readU16 packet (offset + 2)
      let fragmentOffset := (flagsOffset &&& 0xfff8) >>> 3
      let identifier ← readU32 packet (offset + 4)
      let key : FragmentKey :=
        ⟨source, destination, fragmentProtocol, identifier, offset + 4, 4⟩
      if packet.length < offset + 8 then none
      else if fragmentOffset ≠ 0 then
        some ⟨6, fragmentProtocol, source, destination, none, some key⟩
      else ipv6Chain packet source destination rounds fragmentProtocol (offset + 8) (some key)
    else if protocol = 50 ∨ protocol = 59 then none
    else some ⟨6, protocol, source, destination, some offset, fragment⟩

def parseIpv6 : Option NetworkPacket :=
  if packet.length < 40 then none
  else ipv6Chain packet (.ofV6 (slice packet 8 16)) (.ofV6 (slice packet 24 16)) 8
    (packet.getD 6 0) 40 none

def parseNetworkPacket : Option NetworkPacket := do
  let first : UInt8 ← packet[0]?
  if first >>> 4 = 4 then parseIpv4 packet
  else if first >>> 4 = 6 then parseIpv6 packet
  else none

/-! ## Transport headers -/

/-- The identifiers `ParsedPacket::parse` reads from the transport header, with
    their places. -/
structure TransportFields where
  sourceId : UInt16
  destinationId : UInt16
  identifierOffset : ℕ
  checksumOffset : ℕ
  checksumOptional : Bool

/-- Where the port of the local end stands. -/
def portOffset (transportOffset : ℕ) : Direction → ℕ
  | .outgoing => transportOffset
  | .incoming => transportOffset + 2

/-- The transport match of `ParsedPacket::parse`. -/
def transportFields (network : NetworkPacket) (transportOffset : ℕ) : Option TransportFields :=
  if network.protocol = 6 then do
    return ⟨← readU16 packet transportOffset, ← readU16 packet (transportOffset + 2),
      portOffset transportOffset direction, transportOffset + 16, false⟩
  else if network.protocol = 17 then do
    return ⟨← readU16 packet transportOffset, ← readU16 packet (transportOffset + 2),
      portOffset transportOffset direction, transportOffset + 6, network.version == 4⟩
  else if network.protocol = 1 ∨ network.protocol = 58 then do
    let messageType ← packet[transportOffset]?
    if (network.protocol = 1 ∧ direction = .outgoing ∧ messageType = 8) ∨
        (network.protocol = 1 ∧ direction = .incoming ∧ messageType = 0) ∨
        (network.protocol = 58 ∧ direction = .outgoing ∧ messageType = 128) ∨
        (network.protocol = 58 ∧ direction = .incoming ∧ messageType = 129) then do
      let identifier ← readU16 packet (transportOffset + 4)
      return ⟨identifier, identifier, transportOffset + 4, transportOffset + 2, false⟩
    else none
  else none

/-- The tuple of a packet of `network`, seen from the local end. -/
def packetTuple (network : NetworkPacket) (fields : TransportFields) :
    PacketTuple :=
  match direction with
  | .outgoing =>
    ⟨network.protocol, network.source, fields.sourceId, network.destination,
      fields.destinationId, fields.identifierOffset, fields.checksumOffset,
      fields.checksumOptional⟩
  | .incoming =>
    ⟨network.protocol, network.destination, fields.destinationId, network.source,
      fields.sourceId, fields.identifierOffset, fields.checksumOffset, fields.checksumOptional⟩

def ParsedPacket.parse : Option ParsedPacket := do
  let network ← parseNetworkPacket packet
  match network.transportOffset with
  | none => network.fragment.map .fragment
  | some transportOffset =>
    let fields ← transportFields packet direction network transportOffset
    return .flow (packetTuple direction network fields) network.fragment

/-- `TcpSegment::initial_syn`: SYN without ACK, FIN or RST. -/
def TcpSegment.initialSyn (segment : TcpSegment) : Bool := segment.flags &&& 0x17 == 0x02

def PacketTuple.tcpSegment (tuple : PacketTuple) (packet : Bytes) : Option TcpSegment :=
  if tuple.protocol ≠ 6 ∨ tuple.checksumOffset < 16 then none
  else do
    let offset := tuple.checksumOffset - 16
    return ⟨← readU32 packet (offset + 4), ← packet[offset + 13]?⟩

def isIcmpErrorType (protocol messageType : UInt8) : Bool :=
  if protocol = 1 then messageType ∈ [3, 4, 5, 11, 12]
  else if protocol = 58 then 1 ≤ messageType ∧ messageType ≤ 4
  else false

def isOutgoingIcmpError : Bool :=
  match parseNetworkPacket packet with
  | none => false
  | some network =>
    match network.transportOffset with
    | none => false
    | some offset => packet[offset]?.any (isIcmpErrorType network.protocol)

/-! ## Rewrites -/

/-- `update_checksum`: the incremental update of a one's-complement checksum
    when the word `old` it covers becomes `new`. -/
def updateChecksum (checksum old new : UInt16) : UInt16 :=
  ~~~(UInt16.ofNat (foldCarry ((~~~checksum).toNat + (~~~old).toNat + new.toNat)))

def rewriteIdentifier (tuple : PacketTuple) (newId : UInt16) : Bytes :=
  match readU16 packet tuple.identifierOffset with
  | none => packet
  | some oldId =>
    match readU16 packet tuple.checksumOffset with
    | none => packet
    | some checksum =>
      let packet := writeU16 packet tuple.identifierOffset newId
      if tuple.checksumOptional ∧ checksum = 0 then packet
      else writeU16 packet tuple.checksumOffset (updateChecksum checksum oldId newId)

def rewriteEmbeddedIdentifier (innerOffset : ℕ) (tuple : PacketTuple) (outerChecksumOffset : ℕ)
    (newId : UInt16) : Bytes :=
  match readU16 packet (innerOffset + tuple.identifierOffset) with
  | none => packet
  | some oldId =>
    match readU16 packet outerChecksumOffset with
    | none => packet
    | some outerChecksum =>
      let packet := writeU16 packet (innerOffset + tuple.identifierOffset) newId
      let outerChecksum := updateChecksum outerChecksum oldId newId
      match readU16 packet (innerOffset + tuple.checksumOffset) with
      | none => writeU16 packet outerChecksumOffset outerChecksum
      | some oldInner =>
        if tuple.checksumOptional ∧ oldInner = 0 then
          writeU16 packet outerChecksumOffset outerChecksum
        else
          let newInner := updateChecksum oldInner oldId newId
          let packet := writeU16 packet (innerOffset + tuple.checksumOffset) newInner
          writeU16 packet outerChecksumOffset (updateChecksum outerChecksum oldInner newInner)

def rewriteFragmentIdentifier (fragment : FragmentKey) (newId : UInt32) : Bytes :=
  if fragment.identifierWidth = 2 then
    match readU16 packet fragment.identifierOffset with
    | none => packet
    | some oldId =>
      match readU16 packet 10 with
      | none => packet
      | some headerChecksum =>
        let packet := writeU16 packet fragment.identifierOffset newId.toUInt16
        writeU16 packet 10 (updateChecksum headerChecksum oldId newId.toUInt16)
  else if fragment.identifierWidth = 4 then writeU32 packet fragment.identifierOffset newId
  else packet

end

end Usque.PacketMux
