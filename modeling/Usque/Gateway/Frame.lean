/-
  The packets that the direct gateway accepts, field by field.

  * Reading and writing a checksum, an address or a port of the bytes of a frame is
    reading and updating its field.
-/
import Usque.Gateway.Packet
import Usque.Lib.Fields

namespace Usque
open Lib List IpAddr Option

theorem IpAddr.length_octets (ip : IpAddr) : ip.octets.length = if ip.isIpv4 then 4 else 16 := by
  cases ip <;> exact length_beBytes _ _

theorem IpAddr.ofV4_isIpv4 {ip : IpAddr} (h : ip.isIpv4) : ofV4 ip.octets = ip := by
  cases ip with
  | v4 addr => exact ofV4_octets addr
  | v6 => cases h

theorem IpAddr.ofV6_isIpv6 {ip : IpAddr} (h : ip.isIpv4 = false) : ofV6 ip.octets = ip := by
  cases ip with
  | v4 => cases h
  | v6 addr => exact ofV6_octets addr

variable {packet : Bytes}

namespace Gateway

def protocolOf (tcp : Bool) : UInt8 := if tcp then 6 else 17

/-- The bytes before the header checksum of IPv4, or before the addresses of IPv6. -/
inductive Lead : Bool → Bool → Bytes → Prop where
  | v4 {tcp : Bool} {lead : Bytes} {first : UInt8} {flags : UInt16} (hlength : lead.length = 10)
    (hfirst : lead[0]? = some first) (hversion : first >>> 4 = 4)
    (hheader : (first &&& 0x0f).toNat * 4 = 20) (hflags : readU16 lead 6 = some flags)
    (hfragment : flags &&& 0xbfff = 0) (hprotocol : lead[9]? = some (protocolOf tcp)) :
    Lead false tcp lead
  | v6 {tcp : Bool} {lead : Bytes} {first : UInt8} (hlength : lead.length = 8)
    (hfirst : lead[0]? = some first) (hversion : first >>> 4 = 6)
    (hprotocol : lead[6]? = some (protocolOf tcp)) : Lead true tcp lead

/-- An accepted packet; the header checksum is a field of IPv4 only. -/
structure Frame where
  ipv6 : Bool
  tcp : Bool
  lead : Bytes
  headerChecksum : UInt16
  source : IpAddr
  destination : IpAddr
  sourcePort : UInt16
  destinationPort : UInt16
  middle : Bytes
  checksum : UInt16
  rest : Bytes
  hlead : Lead ipv6 tcp lead
  source_family : source.isIpv4 = !ipv6
  destination_family : destination.isIpv4 = !ipv6
  middle_length : middle.length = if tcp then 12 else 2
  rest_length : 2 ≤ rest.length ∨ tcp = false

namespace Frame

section
variable (f : Frame)

/-- The fields before the addresses. -/
def opening : Bytes := f.lead ++ if f.ipv6 then [] else word f.headerChecksum

def header : Bytes := f.opening ++ (f.source.octets ++ f.destination.octets)

/-- The transport header and what follows it. -/
def transport : Bytes :=
  word f.sourcePort ++ (word f.destinationPort ++ (f.middle ++ (word f.checksum ++ f.rest)))

def bytes : Bytes := f.header ++ f.transport

def width : ℕ := if f.ipv6 then 16 else 4

def start : ℕ := if f.ipv6 then 8 else 12

def transportOffset : ℕ := if f.ipv6 then 40 else 20

def checksumOffset : ℕ := f.transportOffset + if f.tcp then 16 else 6

def parsed : NatPacket where
  version := if f.ipv6 then 6 else 4
  protocol := protocolOf f.tcp
  source := f.source
  destination := f.destination
  sourcePort := f.sourcePort
  destinationPort := f.destinationPort
  transportOffset := f.transportOffset
  checksumOffset := f.checksumOffset
  checksumOptional := !f.tcp && !f.ipv6

end

variable (f : Frame)

/-! ## Lengths -/

theorem length_source : f.source.octets.length = f.width := by
  rw [length_octets, f.source_family, width]
  cases f.ipv6 <;> rfl

theorem length_destination : f.destination.octets.length = f.width := by
  rw [length_octets, f.destination_family, width]
  cases f.ipv6 <;> rfl

theorem length_opening : f.opening.length = f.start := by
  unfold opening start
  have hlead := f.hlead
  cases hipv6 : f.ipv6
  · rw [hipv6] at hlead
    cases hlead with
    | v4 hlen => simp [hlen]
  · rw [hipv6] at hlead
    cases hlead with
    | v6 hlen => simp [hlen]

theorem length_header : f.header.length = f.transportOffset := by
  rw [header, length_append, length_append, f.length_opening, f.length_source,
    f.length_destination, start, width, transportOffset]
  cases f.ipv6 <;> rfl

theorem length_transport : f.transport.length = 6 + f.middle.length + f.rest.length := by
  simp only [transport, length_append, length_word]
  omega

theorem length_bytes :
    f.bytes.length = f.transportOffset + (6 + f.middle.length + f.rest.length) := by
  rw [bytes, length_append, f.length_header, f.length_transport]

/-! ## The fields in place -/

theorem bytes_source : f.bytes = f.opening ++ (f.source.octets ++
    (f.destination.octets ++ f.transport)) := by
  simp only [bytes, header, append_assoc]

theorem bytes_destination : f.bytes = (f.opening ++ f.source.octets) ++
    (f.destination.octets ++ f.transport) := by
  simp only [bytes, header, append_assoc]

theorem bytes_destinationPort : f.bytes = (f.header ++ word f.sourcePort) ++
    (word f.destinationPort ++ (f.middle ++ (word f.checksum ++ f.rest))) := by
  simp only [bytes, transport, append_assoc]

theorem bytes_checksum : f.bytes =
    (f.header ++ (word f.sourcePort ++ (word f.destinationPort ++ f.middle))) ++
      (word f.checksum ++ f.rest) := by
  simp only [bytes, transport, append_assoc]

theorem length_before_checksum :
    (f.header ++ (word f.sourcePort ++ (word f.destinationPort ++ f.middle))).length =
      f.checksumOffset := by
  simp only [length_append, length_word, f.length_header, f.middle_length, checksumOffset]
  cases f.tcp <;> simp

theorem read_sourcePort : readU16 f.bytes f.transportOffset = some f.sourcePort :=
  readU16_field _ _ _ f.length_header

theorem read_destinationPort :
    readU16 f.bytes (f.transportOffset + 2) = some f.destinationPort := by
  rw [bytes_destinationPort]
  exact readU16_field _ _ _ (by rw [length_append, f.length_header, length_word])

theorem read_checksum : readU16 f.bytes f.checksumOffset = some f.checksum := by
  rw [bytes_checksum]
  exact readU16_field _ _ _ f.length_before_checksum

theorem slice_source : slice f.bytes f.start f.width = f.source.octets := by
  rw [bytes_source]
  exact slice_field _ _ _ f.length_opening f.length_source

theorem slice_destination : slice f.bytes (f.start + f.width) f.width = f.destination.octets := by
  rw [bytes_destination]
  refine slice_field _ _ _ ?_ f.length_destination
  rw [length_append, f.length_opening, f.length_source]

/-! ## Parsing -/

theorem bytes_lead : ∃ tail, f.bytes = f.lead ++ tail := by
  rw [bytes_source, opening, append_assoc]
  exact ⟨_, rfl⟩

theorem get_lead {i : ℕ} (h : i < f.lead.length) : f.bytes[i]? = f.lead[i]? := by
  obtain ⟨tail, htail⟩ := f.bytes_lead
  rw [htail, getElem?_append_left h]

theorem parseIpv4_bytes (hipv6 : f.ipv6 = false) :
    (∃ first : UInt8, f.bytes[0]? = some first ∧ first >>> 4 = 4) ∧
      parseIpv4 f.bytes = some ⟨4, protocolOf f.tcp, f.source, f.destination, 20⟩ := by
  have hlead := f.hlead
  rw [hipv6] at hlead
  cases hlead with
  | @v4 tcp lead first flags hlength hfst hver hhdr hflags hfrag hproto =>
    have hsrc : ofV4 (slice f.bytes 12 4) = f.source := by
      have hslice := f.slice_source
      simp only [start, width, hipv6, Bool.false_eq_true, if_false] at hslice
      rw [hslice]
      exact ofV4_isIpv4 (by rw [f.source_family, hipv6]; rfl)
    have hdst : ofV4 (slice f.bytes 16 4) = f.destination := by
      have hslice := f.slice_destination
      simp only [start, width, hipv6, Bool.false_eq_true, if_false] at hslice
      rw [hslice]
      exact ofV4_isIpv4 (by rw [f.destination_family, hipv6]; rfl)
    have hlen : 20 ≤ f.bytes.length := by
      rw [f.length_bytes, transportOffset, hipv6]
      simp
    have hget0 : f.bytes[0]? = some first := by rw [f.get_lead (by omega), hfst]
    have hget9 : f.bytes[9]? = some (protocolOf f.tcp) := by
      rw [f.get_lead (by omega), hproto]
    have hread6 : readU16 f.bytes 6 = some flags := by
      rw [← hflags]
      exact readU16_congr fun i _ hi => f.get_lead (by omega)
    refine ⟨⟨first, hget0, hver⟩, ?_⟩
    rw [parseIpv4, if_neg (by omega)]
    simp only [hget0, hhdr, hread6, hfrag, hget9, hsrc, hdst, bind,
      bind_some, ne_eq, not_true_eq_false, false_or, if_false]
    rw [if_neg (by omega)]

theorem parseIpv6_bytes (hipv6 : f.ipv6) :
    (∃ first : UInt8, f.bytes[0]? = some first ∧ first >>> 4 = 6) ∧
      parseIpv6 f.bytes = some ⟨6, protocolOf f.tcp, f.source, f.destination, 40⟩ := by
  have hlead := f.hlead
  rw [hipv6] at hlead
  cases hlead with
  | @v6 tcp lead first hlength hfst hver hproto =>
    have hsrc : ofV6 (slice f.bytes 8 16) = f.source := by
      have hslice := f.slice_source
      simp only [start, width, hipv6, if_true] at hslice
      rw [hslice]
      exact ofV6_isIpv6 (by rw [f.source_family, hipv6]; rfl)
    have hdst : ofV6 (slice f.bytes 24 16) = f.destination := by
      have hslice := f.slice_destination
      simp only [start, width, hipv6, if_true] at hslice
      rw [hslice]
      exact ofV6_isIpv6 (by rw [f.destination_family, hipv6]; rfl)
    have hlen : 40 ≤ f.bytes.length := by
      rw [f.length_bytes, transportOffset, hipv6]
      simp
    have hget0 : f.bytes[0]? = some first := by rw [f.get_lead (by omega), hfst]
    have hget6 : f.bytes[6]? = some (protocolOf f.tcp) := by
      rw [f.get_lead (by omega), hproto]
    have hknown : protocolOf f.tcp = 6 ∨ protocolOf f.tcp = 17 := by
      cases f.tcp <;> simp [protocolOf]
    refine ⟨⟨first, hget0, hver⟩, ?_⟩
    rw [parseIpv6, if_neg (by omega)]
    simp only [hget6, hsrc, hdst, bind, bind_some, if_pos hknown]

theorem parseHeader_bytes : parseHeader f.bytes =
    some ⟨if f.ipv6 then 6 else 4, protocolOf f.tcp, f.source, f.destination,
      f.transportOffset⟩ := by
  unfold parseHeader transportOffset
  cases hipv6 : f.ipv6
  · obtain ⟨⟨first, hfst, hver⟩, hprs⟩ := f.parseIpv4_bytes hipv6
    simp [hfst, hver, hprs]
  · obtain ⟨⟨first, hfst, hver⟩, hprs⟩ := f.parseIpv6_bytes hipv6
    simp [hfst, hver, hprs]

/-- **The bytes of a frame are accepted**, and parse to its fields. -/
theorem parse_bytes : NatPacket.parse f.bytes = some f.parsed := by
  have hlen := f.length_bytes
  rw [f.middle_length] at hlen
  have hrest := f.rest_length
  unfold NatPacket.parse
  rw [f.parseHeader_bytes]
  unfold parsed checksumOffset
  cases htcp : f.tcp
  · rw [htcp] at hlen
    have hroom : ¬ f.bytes.length < f.transportOffset + 8 := by
      simp only [Bool.false_eq_true, if_false] at hlen
      omega
    cases hipv6 : f.ipv6 <;>
      simp [protocolOf, hroom, f.read_sourcePort, f.read_destinationPort]
  · rw [htcp] at hlen hrest
    have hroom : ¬ f.bytes.length < f.transportOffset + 20 := by
      simp only [if_true, Bool.true_eq_false, or_false] at hlen hrest
      omega
    cases hipv6 : f.ipv6 <;>
      simp [protocolOf, hroom, f.read_sourcePort, f.read_destinationPort]

end Frame

/-- The address that an address field spells. -/
def addressOf (ipv6 : Bool) (bytes : Bytes) : IpAddr := if ipv6 then .ofV6 bytes else .ofV4 bytes

theorem addressOf_family (ipv6 : Bool) (bytes : Bytes) : (addressOf ipv6 bytes).isIpv4 = !ipv6 := by
  cases ipv6 <;> rfl

theorem octets_addressOf {ipv6 : Bool} {bytes : Bytes}
    (h : bytes.length = if ipv6 then 16 else 4) : (addressOf ipv6 bytes).octets = bytes := by
  have hback := beBytes_beNat bytes
  cases ipv6
  · have h4 : bytes.length = 4 := h
    rw [h4] at hback
    change beBytes 4 (BitVec.ofNat 32 (beNat bytes)).toNat = bytes
    rw [BitVec.toNat_ofNat, show (2 : ℕ) ^ 32 = 256 ^ 4 by norm_num,
      beBytes_mod 4 4 _ le_rfl, hback]
  · have h16 : bytes.length = 16 := h
    rw [h16] at hback
    change beBytes 16 (BitVec.ofNat 128 (beNat bytes)).toNat = bytes
    rw [BitVec.toNat_ofNat, show (2 : ℕ) ^ 128 = 256 ^ 16 by norm_num,
      beBytes_mod 16 16 _ le_rfl, hback]

theorem length_slice {p : Bytes} {off len : ℕ} (h : off + len ≤ p.length) :
    (slice p off len).length = len := by
  rw [slice, length_take, length_drop]
  omega

/-- A packet of sufficient length with an accepted lead is made of the fields of a frame. -/
theorem exists_frame {ipv6 tcp : Bool}
    (hlead : Lead ipv6 tcp (packet.take (if ipv6 then 8 else 10)))
    (hlen : (if ipv6 then 40 else 20) + (if tcp then 20 else 8) ≤ packet.length) :
    ∃ f : Frame, f.bytes = packet := by
  -- the offsets of the addresses and of the transport header, and the middle's length
  obtain ⟨L, hL⟩ : ∃ L, L = if ipv6 then 8 else 10 := ⟨_, rfl⟩
  obtain ⟨start, hst⟩ : ∃ start, start = if ipv6 then 8 else 12 := ⟨_, rfl⟩
  obtain ⟨width, hwidth⟩ : ∃ width, width = if ipv6 then 16 else 4 := ⟨_, rfl⟩
  obtain ⟨mid, hmid⟩ : ∃ mid, mid = if tcp then 12 else 2 := ⟨_, rfl⟩
  have hfits : start + width + width + 6 + mid + (if tcp then 2 else 0) ≤ packet.length := by
    subst hst hwidth hmid
    cases ipv6 <;> cases tcp <;> simp at hlen ⊢ <;> omega
  obtain ⟨sourcePort, hsourcePort⟩ := readU16_isSome
    (show start + width + width + 2 ≤ packet.length by omega)
  obtain ⟨destinationPort, hdstPort⟩ := readU16_isSome
    (show start + width + width + 2 + 2 ≤ packet.length by omega)
  obtain ⟨checksum, hck⟩ := readU16_isSome
    (show start + width + width + 2 + 2 + mid + 2 ≤ packet.length by omega)
  obtain ⟨headerChecksum, hhdr⟩ : ∃ v, packet.drop L =
      (if ipv6 then [] else word v) ++ packet.drop start := by
    cases ipv6
    · subst hL hst
      simp only [Bool.false_eq_true, if_false] at hlen ⊢
      obtain ⟨v, hv⟩ := readU16_isSome (show 10 + 2 ≤ packet.length by omega)
      exact ⟨v, by rw [drop_eq_slice packet 10 2, slice_eq_word hv]⟩
    · subst hL hst
      exact ⟨0, rfl⟩
  refine ⟨{
    ipv6, tcp, lead := packet.take L, headerChecksum
    source := addressOf ipv6 (slice packet start width)
    destination := addressOf ipv6 (slice packet (start + width) width)
    sourcePort, destinationPort
    middle := slice packet (start + width + width + 2 + 2) mid
    checksum
    rest := packet.drop (start + width + width + 2 + 2 + mid + 2)
    hlead := hL ▸ hlead
    source_family := addressOf_family _ _
    destination_family := addressOf_family _ _
    middle_length := by rw [length_slice (by omega), hmid]
    rest_length := ?_ }, ?_⟩
  · cases tcp
    · exact .inr rfl
    · rw [length_drop]
      simp only [if_true] at hfits
      omega
  · simp only [Frame.bytes, Frame.header, Frame.opening, Frame.transport, append_assoc]
    rw [octets_addressOf (by rw [length_slice (by omega), hwidth]),
      octets_addressOf (by rw [length_slice (by omega), hwidth]), ← slice_eq_word hck,
      ← drop_eq_slice, ← drop_eq_slice, ← slice_eq_word hdstPort, ← drop_eq_slice,
      ← slice_eq_word hsourcePort, ← drop_eq_slice, ← drop_eq_slice, ← drop_eq_slice, ← hhdr,
      take_append_drop]

theorem lead_ipv4 {header : IpHeader} {first : UInt8} {tcp : Bool}
    (h : parseIpv4 packet = some header) (hfst : packet[0]? = some first)
    (hver : first >>> 4 = 4) (hproto : header.protocol = protocolOf tcp) :
    Lead false tcp (packet.take 10) ∧ header.transportOffset = 20 := by
  unfold parseIpv4 at h
  split_ifs at h with hsht
  simp only [hfst, bind, bind_some] at h
  split_ifs at h with hlen
  push Not at hlen
  obtain ⟨flags, hflags, h⟩ := bind_eq_some_iff.1 h
  split_ifs at h with hfrag
  push Not at hfrag
  obtain ⟨protocol, hget, h⟩ := bind_eq_some_iff.1 h
  cases h
  have hread : readU16 (packet.take 10) 6 = some flags := by
    rw [← hflags]
    exact readU16_congr fun i _ hi => getElem?_take_of_lt (by omega)
  refine ⟨.v4 (by rw [length_take]; omega) ?_ hver hlen.1 hread hfrag ?_, hlen.1⟩
  · rw [getElem?_take_of_lt (by omega), hfst]
  · rw [getElem?_take_of_lt (by omega), hget]
    exact congrArg some hproto

theorem lead_ipv6 {header : IpHeader} {first : UInt8} {tcp : Bool}
    (h : parseIpv6 packet = some header) (hfst : packet[0]? = some first)
    (hver : first >>> 4 = 6) (hproto : header.protocol = protocolOf tcp) :
    Lead true tcp (packet.take 8) ∧ header.transportOffset = 40 := by
  unfold parseIpv6 at h
  split_ifs at h with hsht
  obtain ⟨protocol, hget, h⟩ := bind_eq_some_iff.1 h
  split_ifs at h with hknown
  cases h
  refine ⟨.v6 (by rw [length_take]; omega) ?_ hver ?_, rfl⟩
  · rw [getElem?_take_of_lt (by omega), hfst]
  · rw [getElem?_take_of_lt (by omega), hget]
    exact congrArg some hproto

/-- **An accepted packet is the bytes of a frame**, and was parsed to its fields. -/
theorem parse_frame {parsed : NatPacket} (h : NatPacket.parse packet = some parsed) :
    ∃ f : Frame, f.bytes = packet ∧ f.parsed = parsed := by
  have hprs := h
  simp only [NatPacket.parse, bind, bind_eq_some_iff] at h
  obtain ⟨header, hhdr, h⟩ := h
  obtain ⟨tcp, hproto, hroom⟩ : ∃ tcp, header.protocol = protocolOf tcp ∧
      header.transportOffset + (if tcp then 20 else 8) ≤ packet.length := by
    split_ifs at h with htcp hudp
    · simp only [bind_some] at h
      split_ifs at h with hsht
      exact ⟨true, htcp, Nat.le_of_not_lt hsht⟩
    · simp only [bind_some] at h
      split_ifs at h with hsht
      exact ⟨false, hudp, Nat.le_of_not_lt hsht⟩
    · cases h
  have hfr : ∃ f : Frame, f.bytes = packet := by
    simp only [parseHeader, bind, bind_eq_some_iff] at hhdr
    obtain ⟨first, hfst, hhdr⟩ := hhdr
    split_ifs at hhdr with hv4 hv6
    · obtain ⟨hlead, hoff⟩ := lead_ipv4 hhdr hfst hv4 hproto
      rw [hoff] at hroom
      have hlead' : Lead false tcp (packet.take (if false then 8 else 10)) := hlead
      exact exists_frame hlead' hroom
    · obtain ⟨hlead, hoff⟩ := lead_ipv6 hhdr hfst hv6 hproto
      rw [hoff] at hroom
      have hlead' : Lead true tcp (packet.take (if true then 8 else 10)) := hlead
      exact exists_frame hlead' hroom
  obtain ⟨f, rfl⟩ := hfr
  rw [f.parse_bytes] at hprs
  exact ⟨f, rfl, some.inj hprs⟩

end Gateway

end Usque
