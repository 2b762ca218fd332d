/-
  The shared-memory packet ring (`usque-platform/src/packet_ring.rs`).

  * A mapping holds a header and one data area for each direction; indices are
    32-bit counters that wrap. `attach` checks what it finds in a mapping.
  * `tryPushInner` and `tryPopInto` are code over the shared memory: every load and
    store of an index and every byte that is read or written is one operation.
    Arithmetic that would overflow panics.
-/
import Usque.Lib.Bytes
import Usque.Lib.Code

namespace Usque.Platform
open Lib

def PACKET_RING_LAYOUT_VERSION : ℕ := 1
def MIN_RING_CAPACITY : ℕ := 128 * 1024
def MAX_RING_CAPACITY : ℕ := 64 * 1024 * 1024
def MAX_PACKET_BYTES : ℕ := 0xffff
def MAGIC : Bytes := [0x55, 0x53, 0x51, 0x52, 0x49, 0x4e, 0x47, 0x31]
def RECORD_HEADER_BYTES : ℕ := 4
/-- `mem::size_of::<RingHeader>()`, which is its alignment too. -/
def HEADER_BYTES : ℕ := 64
def USIZE_MAX : ℕ := 2 ^ 64 - 1

inductive PacketRingError where
  | capacity (capacity : ℕ)
  | sizeOverflow
  | alignment
  | mappingSize (required length : ℕ)
  | magic
  | version (version : ℕ)
  | packetSize (length : ℕ)
  | corruptIndices (head tail : BitVec 32) (capacity : ℕ)
  | truncatedRecord
deriving DecidableEq

inductive PacketDirection where
  | engineToAgent
  | agentToEngine
deriving DecidableEq

/-! ## Mappings -/

/-- The fields of `RingHeader` that never change. -/
structure RingHeader where
  magic : Bytes
  layoutVersion : ℕ
  capacity : ℕ

def checkedAdd (a b : ℕ) : Option ℕ := if a + b ≤ USIZE_MAX then some (a + b) else none

def validateCapacity (capacity : ℕ) : Except PacketRingError Unit :=
  if ¬(MIN_RING_CAPACITY ≤ capacity ∧ capacity ≤ MAX_RING_CAPACITY) ∨ ¬capacity.isPowerOfTwo then
    .error (.capacity capacity)
  else .ok ()

def validateMapping (base length required : ℕ) : Except PacketRingError Unit :=
  if base % HEADER_BYTES ≠ 0 then .error .alignment
  else if length < required then .error (.mappingSize required length)
  else .ok ()

/-- A view of a mapping. The data areas follow the header. -/
structure SharedPacketRing where
  header : ℕ
  engineToAgent : ℕ
  agentToEngine : ℕ
  capacity : ℕ
  capacity_ok : validateCapacity capacity = .ok ()
  engineToAgent_eq : engineToAgent = header + HEADER_BYTES
  agentToEngine_eq : agentToEngine = engineToAgent + capacity

namespace SharedPacketRing

def mappedBytes (capacity : ℕ) : Except PacketRingError ℕ := do
  validateCapacity capacity
  match checkedAdd HEADER_BYTES (capacity * 2) with
  | none => .error .sizeOverflow
  | some bytes => .ok bytes

/-- `SharedPacketRing::attach`, where the mapping starts with `header`. -/
def attach (base length : ℕ) (header : RingHeader) : Except PacketRingError SharedPacketRing := do
  validateMapping base length HEADER_BYTES
  if header.magic ≠ MAGIC then .error .magic
  else if header.layoutVersion ≠ PACKET_RING_LAYOUT_VERSION then
    .error (.version header.layoutVersion)
  else
    match hcapacity : validateCapacity header.capacity with
    | .error error => .error error
    | .ok () => do
      let required ← mappedBytes header.capacity
      validateMapping base length required
      pure
        { header := base
          engineToAgent := base + HEADER_BYTES
          agentToEngine := base + HEADER_BYTES + header.capacity
          capacity := header.capacity
          capacity_ok := hcapacity
          engineToAgent_eq := rfl
          agentToEngine_eq := rfl }

def buffer (ring : SharedPacketRing) : PacketDirection → ℕ
  | .engineToAgent => ring.engineToAgent
  | .agentToEngine => ring.agentToEngine

end SharedPacketRing

/-! ## Shared memory -/

/-- The index that the producer of a direction publishes, and the consumer's. -/
inductive RingIndex where
  | head (direction : PacketDirection)
  | tail (direction : PacketDirection)
deriving DecidableEq

inductive RingOp where
  | load (index : RingIndex)
  | store (index : RingIndex) (value : BitVec 32)
  | addDropped (direction : PacketDirection)
  | read (address : ℕ)
  | write (address : ℕ) (byte : UInt8)

abbrev RingOp.Answer : RingOp → Type
  | .load _ => BitVec 32
  | .read _ => UInt8
  | .store _ _ | .addDropped _ | .write _ _ => Unit

abbrev RingCode := Code RingOp RingOp.Answer

def load (index : RingIndex) : RingCode (BitVec 32) := Code.perform (RingOp.load index)
def store (index : RingIndex) (value : BitVec 32) : RingCode Unit :=
  Code.perform (RingOp.store index value)

/-- `a - b`. -/
def sub (a b : ℕ) : RingCode ℕ := if b ≤ a then pure (a - b) else .panicked

/-- `ptr::copy_nonoverlapping` from the mapping. -/
def copyFrom (address : ℕ) : ℕ → RingCode Bytes
  | 0 => pure []
  | length + 1 => do
    let byte ← Code.perform (RingOp.read address)
    let bytes ← copyFrom (address + 1) length
    pure (byte :: bytes)

/-- `ptr::copy_nonoverlapping` into the mapping. -/
def copyTo (address : ℕ) : Bytes → RingCode Unit
  | [] => pure ()
  | byte :: bytes => do
    let _ ← Code.perform (RingOp.write address byte)
    copyTo (address + 1) bytes

def writeWrapped (buffer capacity : ℕ) (offset : BitVec 32) (source : Bytes) : RingCode Unit := do
  let mask ← sub capacity 1
  let start := offset.toNat &&& mask
  let room ← sub capacity start
  let first := min source.length room
  copyTo (buffer + start) (source.take first)
  if first < source.length then copyTo buffer (source.drop first) else pure ()

/-- `read_wrapped` of `length` bytes. -/
def readWrapped (buffer capacity : ℕ) (offset : BitVec 32) (length : ℕ) : RingCode Bytes := do
  let mask ← sub capacity 1
  let start := offset.toNat &&& mask
  let room ← sub capacity start
  let first := min length room
  let bytes ← copyFrom (buffer + start) first
  if first < length then do
    let more ← copyFrom buffer (length - first)
    pure (bytes ++ more)
  else pure bytes

/-! ## Records -/

def toLeBytes (value : ℕ) : Bytes := (beBytes RECORD_HEADER_BYTES value).reverse

def fromLeBytes (bytes : Bytes) : ℕ := beNat bytes.reverse

/-- `aligned_record_bytes`; `bytes & !3` is the multiple of four below `bytes`. -/
def alignedRecordBytes (packetBytes : ℕ) : Except PacketRingError ℕ :=
  match (checkedAdd RECORD_HEADER_BYTES packetBytes).bind (checkedAdd · 3) with
  | none => .error .sizeOverflow
  | some bytes => .ok (bytes / 4 * 4)

/-- `required as u32`. -/
def asU32 (value : ℕ) : ℕ := value % 2 ^ 32

/-- `u32::try_from(value).expect(..)`. -/
def tryU32 (value : ℕ) : RingCode ℕ := if value < 2 ^ 32 then pure value else .panicked

/-- The padding of a record, from `[0_u8; 3]`. -/
def writePadding (buffer capacity : ℕ) (offset : BitVec 32) (padding : ℕ) : RingCode Unit :=
  if padding = 0 then pure ()
  else if 3 < padding then .panicked
  else writeWrapped buffer capacity offset (List.replicate padding 0)

/-- A record for which there is room: its bytes, then the new head. -/
def writeRecord (ring : SharedPacketRing) (direction : PacketDirection) (packet : Bytes)
    (required : ℕ) (headValue : BitVec 32) : RingCode (Except PacketRingError Bool) := do
  let buffer := ring.buffer direction
  let length ← tryU32 packet.length
  writeWrapped buffer ring.capacity headValue (toLeBytes length)
  writeWrapped buffer ring.capacity (headValue + BitVec.ofNat 32 RECORD_HEADER_BYTES) packet
  let rest ← sub required RECORD_HEADER_BYTES
  let padding ← sub rest packet.length
  writePadding buffer ring.capacity
    (headValue + BitVec.ofNat 32 RECORD_HEADER_BYTES + BitVec.ofNat 32 length) padding
  store (.head direction) (headValue + BitVec.ofNat 32 required)
  pure (.ok true)

def refuseRecord (direction : PacketDirection) (countDrop : Bool) :
    RingCode (Except PacketRingError Bool) :=
  if countDrop then do
    let _ ← Code.perform (RingOp.addDropped direction)
    pure (.ok false)
  else pure (.ok false)

namespace SharedPacketRing

section
variable (ring : SharedPacketRing) (direction : PacketDirection) (packet : Bytes)

/-- The rest of `try_push_inner` after both indices were loaded. -/
def pushLoaded (countDrop : Bool) (required : ℕ) (headValue tailValue : BitVec 32) :
    RingCode (Except PacketRingError Bool) :=
  let used := headValue - tailValue
  if ring.capacity < used.toNat then
    pure (.error (.corruptIndices headValue tailValue ring.capacity))
  else do
    let free ← sub ring.capacity used.toNat
    if free < asU32 required then refuseRecord direction countDrop
    else writeRecord ring direction packet required headValue

/-- `SharedPacketRing::try_push_inner`; `try_push` counts a drop and
    `try_push_preserving` does not. -/
def tryPushInner (countDrop : Bool) : RingCode (Except PacketRingError Bool) :=
  if packet.isEmpty ∨ MAX_PACKET_BYTES < packet.length then
    pure (.error (.packetSize packet.length))
  else
    match alignedRecordBytes packet.length with
    | .error error => pure (.error error)
    | .ok required => do
      let headValue ← load (.head direction)
      let tailValue ← load (.tail direction)
      ring.pushLoaded direction packet countDrop required headValue tailValue

/-- The rest of `try_pop_into` after the header of the record was read. -/
def popRecord (tailValue used : BitVec 32) (header : Bytes) :
    RingCode (Except PacketRingError Bool × Bytes) :=
  let length := fromLeBytes header
  if length = 0 ∨ MAX_PACKET_BYTES < length then pure (.error (.packetSize length), packet)
  else
    match alignedRecordBytes length with
    | .error error => pure (.error error, packet)
    | .ok required =>
      if used.toNat < asU32 required ∨ ring.capacity < asU32 required then
        pure (.error .truncatedRecord, packet)
      else do
        let packet ← readWrapped (ring.buffer direction) ring.capacity
          (tailValue + BitVec.ofNat 32 RECORD_HEADER_BYTES) length
        store (.tail direction) (tailValue + BitVec.ofNat 32 required)
        pure (.ok true, packet)

/-- The rest of `try_pop_into` after both indices were loaded. -/
def popLoaded (tailValue headValue : BitVec 32) : RingCode (Except PacketRingError Bool × Bytes) :=
  let used := headValue - tailValue
  if ring.capacity < used.toNat then
    pure (.error (.corruptIndices headValue tailValue ring.capacity), packet)
  else if used.toNat = 0 then pure (.ok false, packet)
  else if used.toNat < RECORD_HEADER_BYTES then pure (.error .truncatedRecord, packet)
  else do
    let header ← readWrapped (ring.buffer direction) ring.capacity tailValue RECORD_HEADER_BYTES
    ring.popRecord direction packet tailValue used header

/-- `SharedPacketRing::try_pop_into`: the answer and the caller's buffer. -/
def tryPopInto : RingCode (Except PacketRingError Bool × Bytes) := do
  let tailValue ← load (.tail direction)
  let headValue ← load (.head direction)
  ring.popLoaded direction packet tailValue headValue

end

end SharedPacketRing

end Usque.Platform
