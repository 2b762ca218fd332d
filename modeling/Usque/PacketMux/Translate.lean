/-
  The round trip of translated TCP and UDP flows.
-/
import Usque.PacketMux.Consistent
import Usque.PacketMux.Rewrite

namespace Usque.PacketMux
open Lib PacketMuxTable ParsedPacket

variable {tuple : PacketTuple} {fragment : Option FragmentKey}

/-! ## Quoted packets -/

/-- An ICMP error message `e` with its transport header at `off`, quoting `quote`. -/
structure IcmpError (e : Bytes) (n : NetworkPacket) (off : ℕ) (quote : Bytes) : Prop where
  network : parseNetworkPacket e = some n
  transport : n.transportOffset = some off
  type : ∃ ty, e[off]? = some ty ∧ isIcmpErrorType n.protocol ty = true
  header : off + 8 ≤ e.length
  quoted : e.drop (off + 8) = quote

section
variable {e quote : Bytes} {n : NetworkPacket} {off : ℕ}

theorem IcmpError.protocol {ty : UInt8} (h : isIcmpErrorType n.protocol ty) :
    (n.protocol = 1 ∧ ty ≠ 8 ∧ ty ≠ 0) ∨ (n.protocol = 58 ∧ ty ≠ 128 ∧ ty ≠ 129) := by
  rw [isIcmpErrorType] at h
  split_ifs at h with h1 h58
  · refine .inl ⟨h1, ?_, ?_⟩ <;> rintro rfl <;> exact absurd h (by decide)
  · refine .inr ⟨h58, ?_, ?_⟩ <;> rintro rfl <;> exact absurd h (by decide)

end

variable {p : Bytes}

section
variable {t : PacketMuxTable} {flow : FlowKey} {m : FlowMapping}

/-- A packet with the wire key of a live flow is delivered to its origin, under
    the flow's own identifier. -/
theorem deliver_flow (hc : Consistent t) (hm : t.forward.lookup flow = some m) {q : Bytes}
    (hq : parse q .incoming = some (.flow tuple fragment)) (hw : tuple.wire = m.wire)
    (hroom : IncomingRoom t fragment)
    (hb : ¬ (flow.origin = .tunnel ∧ flow.applicationQuic ∧ t.blocksUdp 443))
    (now later : Instant) (unique : Bool) :
    ∃ copied, (t.routeOwnedIncoming now later q unique).2 =
      some ⟨flow.origin, translate q tuple flow.localId, copied⟩ := by
  have hr : t.reverse.lookup tuple.wire = some ⟨flow⟩ := by rw [hw]; exact hc.reverse_lookup hm
  simp only [routeOwnedIncoming, inspectIncoming, hq, lookupIncoming_eq hr hroom, if_neg hb,
    translate]
  by_cases hid : tuple.localId = flow.localId
  · rw [if_neg (not_not.2 hid), if_neg (not_not.2 hid.symm)]
    exact ⟨0, rfl⟩
  · rw [if_pos hid, if_pos (Ne.symm hid)]
    exact ⟨_, rfl⟩

end

/-! ## The round trip -/

/-- The checksum of a packet is in use: IPv4 UDP may leave it out. -/
def ChecksumUsed (p : Bytes) (tuple : PacketTuple) : Prop :=
  ¬ (tuple.checksumOptional = true ∧ readU16 p tuple.checksumOffset = some 0)

/-- `p'` is the packet `p` of `tuple` with the local port `id`: the same bytes but
    for the port and the checksum, which keeps its residue. An unused one stays zero. -/
structure PortChanged (p : Bytes) (direction : Direction) (tuple : PacketTuple)
    (fragment : Option FragmentKey) (id : UInt16) (p' : Bytes) : Prop where
  parse : parse p' direction = some (.flow { tuple with localId := id } fragment)
  port : readU16 p' tuple.identifierOffset = some id
  same : SameExcept p p' [tuple.identifierOffset, tuple.checksumOffset]
  residue : ChecksumUsed p tuple → ∀ start, transportStart p = some start →
    ResidueKept p p' start [tuple.identifierOffset, tuple.checksumOffset]
  unused : ¬ ChecksumUsed p tuple → readU16 p' tuple.checksumOffset = some 0

theorem portChanged_translate {direction : Direction}
    (h : parse p direction = some (.flow tuple fragment))
    (hp : tuple.protocol = 6 ∨ tuple.protocol = 17) (hck : tuple.checksumOffset + 2 ≤ p.length)
    (id : UInt16) : PortChanged p direction tuple fragment id (translate p tuple id) := by
  rw [translate]
  by_cases hid : id = tuple.localId
  · subst hid
    rw [if_neg (not_not.2 rfl)]
    obtain ⟨off, -, -, hold, -⟩ := parse_places h
    exact ⟨h, hold, .refl p _, fun _ _ _ _ _ => rfl, fun hu => (not_not.1 hu).2⟩
  · rw [if_pos hid]
    refine ⟨?_, readU16_rewriteIdentifier h hck id, rewriteIdentifier_same p tuple id,
      fun hu start hs => rewriteIdentifier_residue h hck hu id hs, fun hu => ?_⟩
    · rw [parse_rewriteIdentifier h hck id, PacketTuple.renamed, if_pos hp]
    · obtain ⟨hopt, hzero⟩ := not_not.1 hu
      obtain ⟨off, -, -, hold, i, j, hij, hi, hj⟩ := parse_places h
      rw [rewriteIdentifier, hold, hzero]
      simp only [hopt, and_self, if_true]
      rw [readU16_writeU16_ne _ _ (by omega), hzero]

def udpSampleTuple : PacketTuple := ⟨17, .v4 0x0a000002, 4000, .v4 0x0a000001, 53, 20, 26, true⟩

def udpSampleTable : PacketMuxTable :=
  (step (.withTrafficPolicy false 0) (.routeOutgoing 1 .tunnel udpSample)).1

theorem udpSampleTable_reachable : Reachable udpSampleTable := (Reachable.new false 0).call _

theorem udpSample_parse : parse udpSample .outgoing = some (.flow udpSampleTuple none) := by
  decide +kernel

theorem udpSample_sent : udpSampleTable.routeOutgoing 2 .proxy udpSample =
    ((udpSampleTable.routeOutgoing 2 .proxy udpSample).1,
      (udpSampleTable.routeOutgoing 2 .proxy udpSample).2.1, true) :=
  Prod.ext rfl (Prod.ext rfl (by decide +kernel))

end Usque.PacketMux
