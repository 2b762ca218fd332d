/-
  CONNECT-IP control capsules (`usque-protocol/src/capsule.rs`): addresses and
  routes that the peer assigns, requests or advertises, in length-prefixed
  frames.
-/
import Usque.IpAddr
import Usque.Lib.Stream
import Usque.Protocol.Varint

namespace Usque.Protocol
open Lib

def ADDRESS_ASSIGN_CAPSULE_TYPE : UInt64 := 0x01
def ADDRESS_REQUEST_CAPSULE_TYPE : UInt64 := 0x02
def ROUTE_ADVERTISEMENT_CAPSULE_TYPE : UInt64 := 0x03

def MAX_CAPSULE_PAYLOAD : ℕ := 64 * 1024
def MAX_CAPSULE_ENTRIES : ℕ := 4096

structure IpPrefix where
  requestId : UInt64
  address : IpAddr
  prefixLen : UInt8
deriving DecidableEq

structure IpAddressRange where
  start : IpAddr
  «end» : IpAddr
  protocol : UInt8
deriving DecidableEq

inductive ConnectIpCapsule where
  | addressAssign (addresses : List IpPrefix)
  | addressRequest (addresses : List IpPrefix)
  | routeAdvertisement (ranges : List IpAddressRange)
  | unknown (capsuleType : UInt64) (payload : Bytes)
deriving DecidableEq

/-! ## Limits -/

def ensurePayloadSize (payloadLen : ℕ) : Except ProtocolError Unit :=
  if MAX_CAPSULE_PAYLOAD < payloadLen then .error (.capsuleTooLarge payloadLen) else .ok ()

def ensureEntryCapacity (currentLen : ℕ) : Except ProtocolError Unit :=
  if MAX_CAPSULE_ENTRIES ≤ currentLen then .error .tooManyCapsuleEntries else .ok ()

/-! ## Validation -/

def hostMask (bits : ℕ) (prefixLen : UInt8) : BitVec bits :=
  if prefixLen.toNat = bits then 0 else BitVec.allOnes bits >>> prefixLen.toNat

/-- The check of `validate_prefix` for one address family. -/
def validateFamily {bits : ℕ} (ipVersion : UInt8) (address : BitVec bits) (prefixLen : UInt8) :
    Except ProtocolError Unit :=
  if bits < prefixLen.toNat then .error (.invalidPrefixLength ipVersion prefixLen)
  else if address &&& hostMask bits prefixLen ≠ 0 then .error .nonCanonicalPrefix
  else .ok ()

def validatePrefix (p : IpPrefix) : Except ProtocolError Unit :=
  match p.address with
  | .v4 address => validateFamily 4 address p.prefixLen
  | .v6 address => validateFamily 6 address p.prefixLen

/-- The loop of `validate_address_request`, with the request IDs seen so far. -/
def validateRequestIds : List UInt64 → List IpPrefix → Except ProtocolError Unit
  | _, [] => .ok ()
  | seen, p :: prefixes =>
    if p.requestId = 0 then .error .zeroRequestId
    else if p.requestId ∈ seen then .error (.duplicateRequestId p.requestId)
    else validateRequestIds (p.requestId :: seen) prefixes

def validateAddressRequest (prefixes : List IpPrefix) : Except ProtocolError Unit :=
  if prefixes.isEmpty then .error .emptyAddressRequest else validateRequestIds [] prefixes

def addressFamily : IpAddr → UInt8
  | .v4 _ => 4
  | .v6 _ => 6

def addressNumber : IpAddr → ℕ
  | .v4 address => address.toNat
  | .v6 address => address.toNat

def rangesOverlap (left right : IpAddressRange) : Bool :=
  addressNumber left.start ≤ addressNumber right.end &&
    addressNumber right.start ≤ addressNumber left.end

/-- The first loop of `validate_routes`. -/
def validateRanges : List IpAddressRange → Except ProtocolError Unit
  | [] => .ok ()
  | range :: ranges =>
    if addressFamily range.start ≠ addressFamily range.end ∨
        addressNumber range.end < addressNumber range.start then .error .invalidRouteRange
    else validateRanges ranges

/-- The second loop of `validate_routes`, over the neighbours in the list. -/
def validateOrder : List IpAddressRange → Except ProtocolError Unit
  | previous :: current :: ranges =>
    let previousFamily := addressFamily previous.start
    let currentFamily := addressFamily current.start
    if previousFamily > currentFamily ∨
        (previousFamily = currentFamily ∧ previous.protocol > current.protocol) ∨
        (previousFamily = currentFamily ∧ previous.protocol = current.protocol ∧
          addressNumber current.start ≤ addressNumber previous.end) then
      .error .unorderedOrOverlappingRoutes
    else validateOrder (current :: ranges)
  | _ => .ok ()

/-- The inner loop of the third loop of `validate_routes`. -/
def validateAgainst (left : IpAddressRange) : List IpAddressRange → Except ProtocolError Unit
  | [] => .ok ()
  | right :: ranges =>
    if addressFamily left.start ≠ addressFamily right.start ∨ left.protocol = right.protocol ∨
        (left.protocol ≠ 0 ∧ right.protocol ≠ 0) then validateAgainst left ranges
    else if rangesOverlap left right then .error .overlappingAllProtocolRoutes
    else validateAgainst left ranges

/-- The third loop of `validate_routes`. -/
def validateOverlaps : List IpAddressRange → Except ProtocolError Unit
  | [] => .ok ()
  | left :: ranges => do
    validateAgainst left ranges
    validateOverlaps ranges

def validateRoutes (ranges : List IpAddressRange) : Except ProtocolError Unit := do
  validateRanges ranges
  validateOrder ranges
  validateOverlaps ranges

/-! ## Entries -/

/-- The address part of an entry: version byte and octets. -/
def encodeAddress (address : IpAddr) : Bytes := addressFamily address :: address.octets

/-- One round of `encode_prefixes`: the bytes it appends to the payload. -/
def encodePrefix (p : IpPrefix) : Except ProtocolError Bytes := do
  validatePrefix p
  let requestId ← encodeVarint p.requestId
  return requestId ++ encodeAddress p.address ++ [p.prefixLen]

/-- One round of `encode_routes`: the bytes it appends to the payload. -/
def encodeRange (range : IpAddressRange) : Except ProtocolError Bytes :=
  match range.start, range.end with
  | .v4 start, .v4 stop =>
    .ok (4 :: (IpAddr.v4 start).octets ++ (IpAddr.v4 stop).octets ++ [range.protocol])
  | .v6 start, .v6 stop =>
    .ok (6 :: (IpAddr.v6 start).octets ++ (IpAddr.v6 stop).octets ++ [range.protocol])
  | _, _ => .error .invalidRouteRange

/-- The loop of `encode_prefixes` and of `encode_routes` from the entry `index` on,
    with the payload so far. -/
def encodeEntries {α : Type} (entry : α → Except ProtocolError Bytes) :
    ℕ → Bytes → List α → Except ProtocolError Bytes
  | _, payload, [] => .ok payload
  | index, payload, a :: entries => do
    ensureEntryCapacity index
    let bytes ← entry a
    ensurePayloadSize (payload ++ bytes).length
    encodeEntries entry (index + 1) (payload ++ bytes) entries

def encodePrefixes (prefixes : List IpPrefix) (validateRequestIds : Bool) :
    Except ProtocolError Bytes := do
  if validateRequestIds then validateAddressRequest prefixes
  encodeEntries encodePrefix 0 [] prefixes

def encodeRoutes (ranges : List IpAddressRange) : Except ProtocolError Bytes :=
  encodeEntries encodeRange 0 [] ranges

def takeU8 : Cursor ProtocolError UInt8
  | [] => .error .truncatedCapsuleEntry
  | byte :: payload => .ok (byte, payload)

def decodeAddress (ipVersion : UInt8) : Cursor ProtocolError IpAddr := fun payload =>
  if ipVersion = 4 then
    if payload.length < 4 then .error .truncatedCapsuleEntry
    else .ok (.ofV4 (payload.take 4), payload.drop 4)
  else if ipVersion = 6 then
    if payload.length < 16 then .error .truncatedCapsuleEntry
    else .ok (.ofV6 (payload.take 16), payload.drop 16)
  else .error (.invalidIpVersion ipVersion)

/-- One round of `decode_prefixes`. -/
def decodePrefix : Cursor ProtocolError IpPrefix := do
  let requestId ← decodeVarint
  let ipVersion ← takeU8
  let address ← decodeAddress ipVersion
  let prefixLen ← takeU8
  let p : IpPrefix := { requestId, address, prefixLen }
  StateT.lift (validatePrefix p)
  return p

/-- One round of `decode_routes`. -/
def decodeRange : Cursor ProtocolError IpAddressRange := do
  let ipVersion ← takeU8
  let start ← decodeAddress ipVersion
  let stop ← decodeAddress ipVersion
  let protocol ← takeU8
  return { start, «end» := stop, protocol }

/-- The loop of `decode_prefixes` and of `decode_routes`: entries are read until
    the payload is empty, `room` of them at most. -/
def decodeEntries {α : Type} (entry : Cursor ProtocolError α) :
    ℕ → Bytes → Except ProtocolError (List α)
  | _, [] => .ok []
  | 0, _ :: _ => .error .tooManyCapsuleEntries
  | room + 1, byte :: payload => do
    let (a, payload) ← entry (byte :: payload)
    let entries ← decodeEntries entry room payload
    return a :: entries

def decodePrefixes (payload : Bytes) (validateRequestIds : Bool) :
    Except ProtocolError (List IpPrefix) := do
  let prefixes ← decodeEntries decodePrefix MAX_CAPSULE_ENTRIES payload
  if validateRequestIds then validateAddressRequest prefixes
  return prefixes

def decodeRoutes (payload : Bytes) : Except ProtocolError (List IpAddressRange) :=
  decodeEntries decodeRange MAX_CAPSULE_ENTRIES payload

/-! ## Frames -/

/-- The match of `ConnectIpCapsule::encode`: capsule type and payload. -/
def ConnectIpCapsule.body : ConnectIpCapsule → Except ProtocolError (UInt64 × Bytes)
  | .addressAssign addresses => do
    return (ADDRESS_ASSIGN_CAPSULE_TYPE, ← encodePrefixes addresses false)
  | .addressRequest addresses => do
    validateAddressRequest addresses
    return (ADDRESS_REQUEST_CAPSULE_TYPE, ← encodePrefixes addresses true)
  | .routeAdvertisement ranges => do
    validateRoutes ranges
    return (ROUTE_ADVERTISEMENT_CAPSULE_TYPE, ← encodeRoutes ranges)
  | .unknown capsuleType payload => do
    ensurePayloadSize payload.length
    return (capsuleType, payload)

def ConnectIpCapsule.encode (capsule : ConnectIpCapsule) : Except ProtocolError Bytes := do
  let (capsuleType, payload) ← capsule.body
  ensurePayloadSize payload.length
  let typeBytes ← encodeVarint capsuleType
  let lenBytes ← encodeVarint (UInt64.ofNat payload.length)
  return typeBytes ++ lenBytes ++ payload

/-- The payload match of `ConnectIpCapsule::decode`. -/
def decodePayload (capsuleType : UInt64) (payload : Bytes) :
    Except ProtocolError ConnectIpCapsule :=
  if capsuleType = ADDRESS_ASSIGN_CAPSULE_TYPE then do
    return .addressAssign (← decodePrefixes payload false)
  else if capsuleType = ADDRESS_REQUEST_CAPSULE_TYPE then do
    let addresses ← decodePrefixes payload true
    validateAddressRequest addresses
    return .addressRequest addresses
  else if capsuleType = ROUTE_ADVERTISEMENT_CAPSULE_TYPE then do
    let ranges ← decodeRoutes payload
    validateRoutes ranges
    return .routeAdvertisement ranges
  else return .unknown capsuleType payload

/-- `Bytes::split_to`, behind the length check of `ConnectIpCapsule::decode`. -/
def splitPayload (payloadLen : ℕ) : Cursor ProtocolError Bytes := fun cursor =>
  if cursor.length < payloadLen then .error .truncatedCapsule
  else .ok (cursor.take payloadLen, cursor.drop payloadLen)

/-- The body of `ConnectIpCapsule::decode`, on a copy of the input. -/
def decodeFrame : Cursor ProtocolError ConnectIpCapsule := do
  let capsuleType ← decodeVarint
  let payloadLen ← decodeVarint
  StateT.lift (ensurePayloadSize payloadLen.toNat)
  let payload ← splitPayload payloadLen.toNat
  StateT.lift (decodePayload capsuleType payload)

/-- `ConnectIpCapsule::decode`: the result, and the input it leaves. -/
def ConnectIpCapsule.decode (input : Bytes) : Except ProtocolError ConnectIpCapsule × Bytes :=
  match decodeFrame input with
  | .ok (capsule, cursor) => (.ok capsule, input.drop (input.length - cursor.length))
  | .error error => (.error error, input)

/-- `ConnectIpCapsule::decode_if_complete`: the result, and the input it leaves.
    The conversions of the payload length to `usize` and the sum of the lengths
    cannot fail below the payload limit. -/
def ConnectIpCapsule.decodeIfComplete : Reader ProtocolError ConnectIpCapsule := fun input =>
  match decodeVarint input with
  | .error .truncatedVarint => (.ok none, input)
  | .error error => (.error error, input)
  | .ok (_, header) =>
    match decodeVarint header with
    | .error .truncatedVarint => (.ok none, input)
    | .error error => (.error error, input)
    | .ok (payloadLen, header) =>
      match ensurePayloadSize payloadLen.toNat with
      | .error error => (.error error, input)
      | .ok () =>
        let headerLen := input.length - header.length
        let frameLen := headerLen + payloadLen.toNat
        if input.length < frameLen then (.ok none, input)
        else
          match (ConnectIpCapsule.decode (input.take frameLen)).1 with
          | .error error => (.error error, input)
          | .ok capsule => (.ok (some capsule), input.drop frameLen)

end Usque.Protocol
