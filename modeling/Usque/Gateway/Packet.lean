/-
  Packets of the direct gateway (`usque-transport/src/direct_gateway.rs`) and the
  check of their checksums (`l4/tun_wire.rs`).

  * `rewriteEndpoint` replaces one endpoint and updates the checksums word by word;
    it answers whether it did, with the packet.
  * `validTransport` recomputes the checksums; its sums are 32-bit numbers that wrap.
-/
import Usque.Core.Settings
import Usque.PacketMux.Packet

namespace Usque.Gateway
open Lib
open PacketMux (updateChecksum)

/-! ## Packets -/

structure NatPacket where
  version : UInt8
  protocol : UInt8
  source : IpAddr
  destination : IpAddr
  sourcePort : UInt16
  destinationPort : UInt16
  transportOffset : ℕ
  checksumOffset : ℕ
  checksumOptional : Bool
deriving DecidableEq

/-- What `parse_ipv4` and `parse_ipv6` read. -/
structure IpHeader where
  version : UInt8
  protocol : UInt8
  source : IpAddr
  destination : IpAddr
  transportOffset : ℕ

section
variable (packet : Bytes) (parsed : NatPacket)

/-- `parse_ipv4`: options and fragments are refused. -/
def parseIpv4 : Option IpHeader :=
  if packet.length < 20 then none
  else do
    let first : UInt8 ← packet[0]?
    let headerLength := (first &&& 0x0f).toNat * 4
    if headerLength ≠ 20 ∨ packet.length < headerLength then none
    else do
      let flagsOffset ← readU16 packet 6
      if flagsOffset &&& 0xbfff ≠ 0 then none
      else do
        let protocol : UInt8 ← packet[9]?
        some ⟨4, protocol, .ofV4 (slice packet 12 4), .ofV4 (slice packet 16 4), headerLength⟩

/-- `parse_ipv6`: extension headers are refused. -/
def parseIpv6 : Option IpHeader :=
  if packet.length < 40 then none
  else do
    let protocol : UInt8 ← packet[6]?
    if protocol = 6 ∨ protocol = 17 then
      some ⟨6, protocol, .ofV6 (slice packet 8 16), .ofV6 (slice packet 24 16), 40⟩
    else none

def parseHeader : Option IpHeader := do
  let first : UInt8 ← packet[0]?
  if first >>> 4 = 4 then parseIpv4 packet
  else if first >>> 4 = 6 then parseIpv6 packet
  else none

def NatPacket.parse : Option NatPacket := do
  let header ← parseHeader packet
  let (checksum, checksumOptional, minimumHeader) ←
    if header.protocol = 6 then some (16, false, 20)
    else if header.protocol = 17 then some (6, header.version == 4, 8)
    else none
  if packet.length < header.transportOffset + minimumHeader then none
  else do
    let sourcePort ← readU16 packet header.transportOffset
    let destinationPort ← readU16 packet (header.transportOffset + 2)
    some
      { version := header.version
        protocol := header.protocol
        source := header.source
        destination := header.destination
        sourcePort
        destinationPort
        transportOffset := header.transportOffset
        checksumOffset := header.transportOffset + checksum
        checksumOptional }

/-! ## Rewriting -/

/-- The big-endian words of a byte string, `chunks_exact(2)`. -/
def words : Bytes → List UInt16
  | a :: b :: bytes => be16 a b :: words bytes
  | _ => []

/-- `update_checksum` for one word after the other. -/
def updateWords (checksum : UInt16) (pairs : List (UInt16 × UInt16)) : UInt16 :=
  pairs.foldl (fun checksum pair => updateChecksum checksum pair.1 pair.2) checksum

/-- `packet[offset..offset + source.len()].copy_from_slice(source)`. -/
def copyFromSlice (offset : ℕ) (source : Bytes) : Bytes :=
  packet.take offset ++ source ++ packet.drop (offset + source.length)

/-- Where the address of an endpoint stands. -/
def addressPlace (version : UInt8) (source : Bool) : Option (ℕ × ℕ) :=
  if version = 4 then some (if source then 12 else 16, 4)
  else if version = 6 then some (if source then 8 else 24, 16)
  else none

def updatedTransport (protocol : UInt8) (checksum : UInt16) (pairs : List (UInt16 × UInt16))
    (oldPort newPort : UInt16) : UInt16 :=
  let updated := updateChecksum (updateWords checksum pairs) oldPort newPort
  if protocol = 17 ∧ updated = 0 then 0xffff else updated

/-- `rewrite_endpoint`: the answer and the packet. -/
def rewriteEndpoint (oldIp newIp : IpAddr) (oldPort newPort : UInt16) (source : Bool) :
    Bool × Bytes :=
  if oldIp.isIpv4 ≠ newIp.isIpv4 then (false, packet)
  else
    match addressPlace parsed.version source with
    | none => (false, packet)
    | some (addressOffset, addressLength) =>
      let portOffset := parsed.transportOffset + if source then 0 else 2
      if packet.length < addressOffset + addressLength ∨ packet.length < portOffset + 2 ∨
          packet.length < parsed.checksumOffset + 2 ∨
          (parsed.version = 4 ∧ packet.length < 12) then (false, packet)
      else if oldIp.octets.length ≠ addressLength ∨ newIp.octets.length ≠ addressLength then
        (false, packet)
      else
        let transportChecksum := (readU16 packet parsed.checksumOffset).getD 0
        let pairs := (words oldIp.octets).zip (words newIp.octets)
        let ipv4Checksum := (readU16 packet 10).getD 0
        let packet := if parsed.checksumOptional ∧ transportChecksum = 0 then packet
          else writeU16 packet parsed.checksumOffset
            (updatedTransport parsed.protocol transportChecksum pairs oldPort newPort)
        let packet := if parsed.version = 4 then writeU16 packet 10 (updateWords ipv4Checksum pairs)
          else packet
        let packet := copyFromSlice packet addressOffset newIp.octets
        (true, writeU16 packet portOffset newPort)

def rewriteDestination (gateway : SocketAddr) : Bool × Bytes :=
  rewriteEndpoint packet parsed parsed.destination gateway.ip parsed.destinationPort gateway.port
    false

def rewriteSource (remote : SocketAddr) : Bool × Bytes :=
  rewriteEndpoint packet parsed parsed.source remote.ip parsed.sourcePort remote.port true

/-! ## Checksums -/

def u32 (value : ℕ) : ℕ := value % 2 ^ 32

def sum (bytes : Bytes) : ℕ := u32 (wordSum bytes)

def finish (value : ℕ) : UInt16 := ~~~UInt16.ofNat (foldCarry value)

def checksum (bytes : Bytes) : UInt16 := finish (sum bytes)

def pseudoChecksum (source destination : IpAddr) (protocol : UInt8) (body : Bytes) : UInt16 :=
  if source.isIpv4 = destination.isIpv4 then
    finish (u32 (sum source.octets + sum destination.octets + protocol.toNat + u32 body.length +
      sum body))
  else 1

def validTransport : Bool :=
  let body := packet.drop parsed.transportOffset
  if parsed.version = 4 ∧ checksum (packet.take 20) ≠ 0 then false
  else if parsed.protocol = 17 ∧
      (body.length < 8 ∨ ((readU16 body 4).getD 0).toNat ≠ body.length) then false
  else if parsed.protocol = 17 ∧ parsed.version = 4 ∧ readU16 body 6 = some 0 then true
  else pseudoChecksum parsed.source parsed.destination parsed.protocol body == 0

end

end Usque.Gateway
