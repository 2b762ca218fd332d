/-
  What a translated packet looks like on the wire.
-/
import Usque.PacketMux.Echo
import Usque.Lib.Fields

namespace Usque.PacketMux
open Lib PacketMuxTable ParsedPacket Option List Finmap

/-! ## The sent bytes, read again -/

theorem rewriteIdentifier_short {p : Bytes} {tuple : PacketTuple}
    (hck : ¬ tuple.checksumOffset + 2 ≤ p.length) (id : UInt16) :
    rewriteIdentifier p tuple id = p := by
  rw [rewriteIdentifier, readU16_eq_none (not_le.1 hck)]
  split <;> rfl

/-- The port a packet leaves with when its flow is mapped to `id`. -/
def sentPort (p : Bytes) (tuple : PacketTuple) (id : UInt16) : UInt16 :=
  if tuple.checksumOffset + 2 ≤ p.length then id else tuple.localId

variable {t' : PacketMuxTable} {fw : FragmentKey} {wire : WireKey} {now : Instant} {p' : Bytes}

section
variable {p : Bytes} {tuple : PacketTuple} {fragment : Option FragmentKey}

theorem parse_translate (h : parse p .outgoing = some (.flow tuple fragment))
    (hp : tuple.protocol = 6 ∨ tuple.protocol = 17) (id : UInt16) :
    parse (translate p tuple id) .outgoing =
      some (.flow { tuple with localId := sentPort p tuple id } fragment) := by
  rw [sentPort]
  split_ifs with hck
  · exact (portChanged_translate h hp hck id).parse
  · rw [translate, rewriteIdentifier_short hck, ite_self, h]

theorem parse_translateFragment {k : FragmentKey}
    (h : parse p .outgoing = some (.flow tuple (some k)))
    (hp : tuple.protocol = 6 ∨ tuple.protocol = 17) (id : UInt32) :
    ∃ k', parse (translateFragment p k id) .outgoing = some (.flow tuple (some k')) := by
  obtain ⟨n, off, fields, hn, ho, hf, rfl, hk⟩ := parse_flow.1 h
  have hread : ∀ x, off ≤ x → readU16 (translateFragment p k id) x = readU16 p x :=
    fun x hx => readU16_translateFragment hn ho hk.symm hx id
  obtain ⟨k', hn'⟩ : ∃ k', parseNetworkPacket (translateFragment p k id) =
      some { n with fragment := some k' } := by
    rw [translateFragment]
    split_ifs with hid
    · -- an identification of two bytes is cut to them
      obtain ⟨id', hid', heq⟩ : ∃ id', IdFits k id' ∧
          rewriteFragmentIdentifier p k id = rewriteFragmentIdentifier p k id' := by
        by_cases hw : k.identifierWidth = 2
        · refine ⟨id.toUInt16.toUInt32, fun _ => ?_, ?_⟩
          · exact id.toUInt16.toNat_lt
          · simp only [rewriteFragmentIdentifier, if_pos hw, UInt16.toUInt16_toUInt32]
        · exact ⟨id, fun h => absurd h hw, rfl⟩
      exact ⟨_, heq ▸ parseNetworkPacket_rewriteFragment hn hk.symm hid'⟩
    · exact ⟨k, by rw [hn, hk]⟩
  refine ⟨k', parse_flow.2 ⟨_, off, fields, hn', ho, ?_, rfl, rfl⟩⟩
  cases hf with
  | ports src dst ck optional hsrc hdst hck =>
    refine .ports src dst ck optional ?_ ?_ hck
    · rw [hread off le_rfl, hsrc]
    · rw [hread (off + 2) (by omega), hdst]
  | echo _ _ hproto =>
    rcases hproto with h1 | h1 <;> rcases hp with hp | hp <;>
      · rw [show n.protocol = _ from hp] at h1; cases h1

/-- **A sent packet, read again**, has its tuple with the port it left with. -/
theorem sent_parse {t : PacketMuxTable} {origin : PacketOrigin}
    (h : parse p .outgoing = some (.flow tuple fragment))
    (hp : tuple.protocol = 6 ∨ tuple.protocol = 17)
    (hs : Sent t now origin p tuple fragment wire fw t' p') :
    ∃ fragment', parse p' .outgoing =
      some (.flow { tuple with localId := sentPort p tuple wire.localId } fragment') := by
  have htr := parse_translate h hp wire.localId
  cases fragment with
  | none =>
    rw [hs.bytes_whole rfl]
    exact ⟨none, htr⟩
  | some k =>
    rw [hs.bytes_first k rfl]
    obtain ⟨k', hk'⟩ := parse_translateFragment htr hp fw.identifier
    exact ⟨some k', hk'⟩

end

/-! ## Which packets keep their port -/

/-- The mapping that a packet of the flow goes on with: not that of a connection
    which it replaces. -/
def PacketMuxTable.current (t : PacketMuxTable) (origin : PacketOrigin) (tuple : PacketTuple)
    (p : Bytes) : Option FlowMapping :=
  (t.forward.lookup (flowKey origin tuple)).filter fun m =>
    !tuple.replacesTcp p m

/-- The mapping of the packet has the packet's own port: a live mapping says so,
    or no other flow has the wire key of the packet. -/
def KeepsPort (t : PacketMuxTable) (origin : PacketOrigin) (tuple : PacketTuple) (p : Bytes) :
    Prop :=
  match t.current origin tuple p with
  | some m => m.wire.localId = tuple.localId
  | none => ∀ r, t.reverse.lookup tuple.wire = some r → r.flow = flowKey origin tuple

section
variable {t : PacketMuxTable} {origin : PacketOrigin} {tuple : PacketTuple} {p : Bytes}

/-- Who else has the wire key of a packet whose flow has no mapping to go on with. -/
theorem keepsPort_of_none (h : t.current origin tuple p = none) :
    KeepsPort t origin tuple p ↔
      ∀ r, t.reverse.lookup tuple.wire = some r → r.flow = flowKey origin tuple := by
  rw [KeepsPort, h]

theorem retirePreviousTcp_current (hc : Consistent t) (origin : PacketOrigin)
    (tuple : PacketTuple) (p : Bytes) :
    (t.retirePreviousTcp origin tuple p).forward.lookup (flowKey origin tuple) =
      t.current origin tuple p ∧
    (t.current origin tuple p = none →
      (tuple.wire ∉ (t.retirePreviousTcp origin tuple p).reverse ↔ KeepsPort t origin tuple p)) := by
  -- without a retirement: a wire key of the flow would be that of a mapping it has not
  have hsame : t.current origin tuple p = t.forward.lookup (flowKey origin tuple) →
      t.forward.lookup (flowKey origin tuple) = t.current origin tuple p ∧
      (t.current origin tuple p = none → (tuple.wire ∉ t.reverse ↔ KeepsPort t origin tuple p)) := by
    intro hcur
    refine ⟨hcur.symm, fun hnone => ?_⟩
    rw [keepsPort_of_none hnone]
    refine ⟨fun hfree r hr => absurd (mem_of_lookup_eq_some hr) hfree, fun hown hmem => ?_⟩
    obtain ⟨r, hr⟩ := mem_iff.1 hmem
    obtain ⟨m, hm, -⟩ := hc.forward_lookup hr
    rw [hown r hr, ← hcur, hnone] at hm
    cases hm
  rcases retirePreviousTcp_cases t origin tuple p with ⟨h, hno⟩ | ⟨m, hm, hrep, h⟩
  · rw [h]
    refine hsame ?_
    rcases hm : t.forward.lookup (flowKey origin tuple) with _ | m
    · rw [current, hm, filter_none]
    · rw [current, hm, filter_some, hno m hm]
      rfl
  · rw [h]
    have hnone : t.current origin tuple p = none := by
      rw [current, hm, filter_some, hrep]
      rfl
    rw [hnone, keepsPort_of_none hnone]
    refine ⟨lookup_erase _ _, fun _ => ?_⟩
    rw [mem_erase, not_and_or, not_not]
    constructor
    · rintro (heq | hfree) r hr
      · rw [heq, hc.reverse_lookup hm] at hr
        cases hr
        rfl
      · exact absurd (mem_of_lookup_eq_some hr) hfree
    · intro hown
      by_cases hmem : tuple.wire ∈ t.reverse
      · obtain ⟨r, hr⟩ := mem_iff.1 hmem
        obtain ⟨m', hm', hw, -⟩ := hc.forward_lookup hr
        rw [hown r hr, hm] at hm'
        cases hm'
        exact .inl hw.symm
      · exact .inr hmem

/-- **A mapping has the packet's own port** when the table says so before the call. -/
theorem sent_keepsPort (hc : Consistent t) {fragment : Option FragmentKey}
    (hs : Sent (t.retirePreviousTcp origin tuple p) now origin p tuple fragment wire fw t' p') :
    KeepsPort t origin tuple p ↔ wire.localId = tuple.localId := by
  obtain ⟨hcur, hnew⟩ := retirePreviousTcp_current hc origin tuple p
  cases hs.flow with
  | live _ _ hm hw =>
    rw [hcur] at hm
    rw [KeepsPort, hm, ← hw]
  | new _ hm _ hfree hwire huntr =>
    rw [hcur] at hm
    rw [← hnew hm]
    constructor
    · intro hout
      rw [huntr hout]
      rfl
    · intro hid
      rw [hwire, hid] at hfree
      exact hfree

end

/-- **The sent bytes match the published mapping** exactly if the packet reaches
    through its checksum or its mapping has its own port. -/
theorem sent_matches_mapping_iff {t t' : PacketMuxTable} {now : Instant} {origin : PacketOrigin}
    {p p' : Bytes} {tuple : PacketTuple} {fragment : Option FragmentKey} (ht : Reachable t)
    (hp : parse p .outgoing = some (.flow tuple fragment))
    (hproto : tuple.protocol = 6 ∨ tuple.protocol = 17)
    (hsend : t.routeOutgoing now origin p = (t', p', true)) :
    (∃ m tuple' fragment', t'.forward.lookup (flowKey origin tuple) = some m ∧
      parse p' .outgoing = some (.flow tuple' fragment') ∧ tuple'.wire = m.wire) ↔
    tuple.checksumOffset + 2 ≤ p.length ∨ KeepsPort t origin tuple p := by
  have hcase := routeParsedOutgoing_cases ht.consistent hsend
  rw [hp] at hcase
  cases hcase with
  | sent _ _ _ _ _ _ _ hs =>
    obtain ⟨m, hm, rfl⟩ := hs.live
    have hwire : m.wire = { tuple.wire with localId := m.wire.localId } := by
      have hc' := hs.consistent (ht.consistent.retirePreviousTcp origin tuple p)
      exact (hc'.flows.ok _ m hm).1
    obtain ⟨fragment', hparse⟩ := sent_parse hp hproto hs
    rw [sent_keepsPort ht.consistent hs]
    have hport : (∃ m' tuple' fragment', t'.forward.lookup (flowKey origin tuple) = some m' ∧
        parse p' .outgoing = some (.flow tuple' fragment') ∧ tuple'.wire = m'.wire) ↔
        sentPort p tuple m.wire.localId = m.wire.localId := by
      constructor
      · rintro ⟨m', tuple', fragment'', hm', hparse', hw⟩
        rw [hm] at hm'
        cases hm'
        rw [hparse] at hparse'
        cases hparse'
        exact congrArg WireKey.localId hw
      · intro heq
        refine ⟨m, _, fragment', hm, hparse, ?_⟩
        rw [hwire, heq]
        rfl
    rw [hport, sentPort]
    split_ifs with hck
    · exact ⟨fun _ => .inl hck, fun _ => rfl⟩
    · exact ⟨fun heq => .inr heq.symm, fun hkeep => (hkeep.resolve_left hck).symm⟩

/-- The ports of `udpSample`, and no checksum. -/
def shortSample : Bytes := udpSample.take 24

/-- The proxy's packet, cut before its checksum, leaves as it is, while its flow is
    published under port 49152. -/
theorem short_packet_keeps_port : Reachable udpSampleTable ∧
    parse shortSample .outgoing = some (.flow udpSampleTuple none) ∧
    (udpSampleTable.routeOutgoing 2 .proxy shortSample).2 = (shortSample, true) ∧
    ((udpSampleTable.routeOutgoing 2 .proxy shortSample).1.forward.lookup
      (flowKey .proxy udpSampleTuple)).map (·.wire.localId) = some 49152 ∧
    udpSampleTuple.wire.localId = 4000 := by
  refine ⟨udpSampleTable_reachable, ?_⟩
  decide +kernel

/-- The whole packet leaves under the wire key of its mapping. -/
theorem sent_matches_mapping_sample :
    ∃ m tuple' fragment', (udpSampleTable.routeOutgoing 2 .proxy udpSample).1.forward.lookup
        (flowKey .proxy udpSampleTuple) = some m ∧
      parse (udpSampleTable.routeOutgoing 2 .proxy udpSample).2.1 .outgoing =
        some (.flow tuple' fragment') ∧ tuple'.wire = m.wire := by
  exact (sent_matches_mapping_iff udpSampleTable_reachable udpSample_parse (.inr rfl)
    udpSample_sent).2 (.inl (by decide))

/-! ## UDP checksums -/

/-- The sum of the words of the pseudo header of a UDP datagram of `len` bytes. -/
def pseudoHeader (n : NetworkPacket) (len : ℕ) : ℕ :=
  wordSum n.source.octets + wordSum n.destination.octets + n.protocol.toNat + len

/-- `p` is a UDP packet with the correct checksum `c`; `rest` is the sum of the
    words of the datagram behind the end of `p`, if `p` is cut or a fragment. -/
structure UdpChecksum (p : Bytes) (rest : ℕ) (n : NetworkPacket) (off : ℕ) (len c : UInt16) :
    Prop where
  network : parseNetworkPacket p = some n
  transport : n.transportOffset = some off
  protocol : n.protocol = 17
  length : readU16 p (off + 4) = some len
  covers : 8 ≤ len.toNat
  checksum : readU16 p (off + 6) = some c
  correct : (pseudoHeader n len.toNat + wordSum (slice p off len.toNat) + rest) % 65535 = 0

/-- The field is present, that is nonzero, and correct. -/
def ChecksumPresent (p : Bytes) (rest : ℕ) : Prop :=
  ∃ n off len c, UdpChecksum p rest n off len c ∧ c ≠ 0

/-- The new port does not cancel the checksum: the sum the update folds is zero or
    no multiple of `0xffff`. -/
def StaysPresent (c old new : UInt16) : Prop :=
  (c.toNat + old.toNat) % 65535 ≠ new.toNat % 65535 ∨ (c = 0xffff ∧ old = 0xffff ∧ new = 0)

theorem updateChecksum_ne_zero {c old new : UInt16} :
    updateChecksum c old new ≠ 0 ↔ StaysPresent c old new := by
  obtain ⟨-, hlt⟩ := foldCarry_spec ((~~~c).toNat + (~~~old).toNat + new.toNat)
  have hones : foldCarry ((~~~c).toNat + (~~~old).toNat + new.toNat) = 65535 ↔ _ :=
    foldCarry_eq_ones
  have hc := c.toNat_lt
  have ho := old.toNat_lt
  simp only [StaysPresent, updateChecksum, Ne, ← UInt16.toNat_inj, UInt16.toNat_not,
    UInt16.toNat_ofNat', UInt16.toNat_zero,
    show (0xffff : UInt16).toNat = 65535 from rfl]
  simp only [UInt16.toNat_not, UInt16.size] at hones hlt ⊢
  omega

section
variable {p : Bytes} {direction : Direction} {tuple : PacketTuple} {fragment : Option FragmentKey}
  {rest : ℕ} {n : NetworkPacket} {off : ℕ} {len c : UInt16}

section
variable (h : parse p direction = some (.flow tuple fragment)) (hu : UdpChecksum p rest n off len c)
include h hu

theorem udp_places :
    tuple.checksumOffset = off + 6 ∧
      (tuple.identifierOffset = off ∨ tuple.identifierOffset = off + 2) := by
  obtain ⟨n', off', fields, hn, ho, hf, rfl, -⟩ := parse_flow.1 h
  rw [hu.network] at hn
  cases hn
  rw [hu.transport] at ho
  cases ho
  have h17 := hu.protocol
  cases hf with
  | ports _ _ _ _ _ _ hck =>
    rcases hck with ⟨h6, -⟩ | ⟨-, hck, -⟩
    · rw [h17] at h6
      cases h6
    · cases direction
      · exact ⟨hck, .inl rfl⟩
      · exact ⟨hck, .inr rfl⟩
  | echo _ _ hproto =>
    rw [h17] at hproto
    rcases hproto with h | h <;> cases h

/-- **The rewritten checksum is correct.** -/
theorem rewriteIdentifier_udp (hc : c ≠ 0) (id : UInt16) :
    UdpChecksum (rewriteIdentifier p tuple id) rest n off len
      (updateChecksum c tuple.localId id) := by
  obtain ⟨hckoff, hidoff⟩ := udp_places h hu
  have hfits := length_of_readU16 hu.checksum
  have hread : readU16 p tuple.checksumOffset = some c := by rw [hckoff, hu.checksum]
  have hused : ¬ (tuple.checksumOptional ∧ readU16 p tuple.checksumOffset = some 0) := by
    rintro ⟨-, hzero⟩
    rw [hread] at hzero
    exact hc (some.inj hzero)
  obtain ⟨hlen, hsame⟩ := rewriteIdentifier_same p tuple id
  have hoth : ∀ i, i < off ∨ i = off + 4 ∨ i = off + 5 →
      (rewriteIdentifier p tuple id)[i]? = p[i]? := by
    intro i hi
    refine hsame i ?_
    simp only [mem_cons, not_mem_nil, or_false, forall_eq_or_imp, forall_eq]
    omega
  obtain ⟨-, -, -, hold, -⟩ := parse_places h
  refine ⟨?_, hu.transport, hu.protocol, ?_, hu.covers, ?_, ?_⟩
  · exact (parseNetworkPacket_congr hu.network hu.transport fun i hi => hoth i (.inl hi)).1
      (by omega)
  · rw [readU16_congr fun i h1 h2 => hoth i (by omega), hu.length]
  · rw [rewriteIdentifier, hold, hread]
    dsimp only
    rw [if_neg fun hopt => hc hopt.2, hckoff, readU16_writeU16 _ (by rw [length_writeU16]; omega)]
  · have hres : ResidueKept p (rewriteIdentifier p tuple id) off
        [tuple.identifierOffset, tuple.checksumOffset] := by
      refine rewriteIdentifier_residue h (by omega) hused id ?_
      rw [transportStart, hu.network, bind_some, hu.transport]
    have hcovers := hu.covers
    have hsum := hres len.toNat (by simp; omega)
    have hcorrect := hu.correct
    omega

theorem checksumPresent_rewrite (hc : c ≠ 0) (id : UInt16) :
    ChecksumPresent (rewriteIdentifier p tuple id) rest ↔ StaysPresent c tuple.localId id := by
  have hnew := rewriteIdentifier_udp h hu hc id
  rw [← updateChecksum_ne_zero]
  constructor
  · rintro ⟨n', off', len', c', hu', hc'⟩
    obtain rfl := some.inj (hnew.network.symm.trans hu'.network)
    obtain rfl := some.inj (hnew.transport.symm.trans hu'.transport)
    obtain rfl := some.inj (hnew.checksum.symm.trans hu'.checksum)
    exact hc'
  · exact fun hne => ⟨n, off, len, _, hnew, hne⟩

end

end

theorem drop_rewriteEmbeddedIdentifier {e : Bytes} {tuple : PacketTuple} {inner outer : ℕ}
    (hout : outer + 2 ≤ inner) (hlt : tuple.identifierOffset + 2 ≤ tuple.checksumOffset)
    {c : UInt16} (hc : readU16 (e.drop inner) tuple.checksumOffset = some c) (id : UInt16) :
    (rewriteEmbeddedIdentifier e inner tuple outer id).drop inner =
      rewriteIdentifier (e.drop inner) tuple id := by
  have hlen := length_of_readU16 hc
  rw [length_drop] at hlen
  rw [rewriteIdentifier, hc]
  rw [readU16_drop] at hc ⊢
  have hold : inner + tuple.identifierOffset + 2 ≤ e.length := by omega
  have hfits : outer + 2 ≤ e.length := by omega
  obtain ⟨old, hold⟩ := readU16_isSome hold
  obtain ⟨oc, hoc⟩ := readU16_isSome hfits
  have hc' : readU16 (writeU16 e (inner + tuple.identifierOffset) id)
      (inner + tuple.checksumOffset) = some c := by
    rw [readU16_writeU16_ne _ _ (by omega), hc]
  simp only [rewriteEmbeddedIdentifier, hold, hoc, hc']
  split_ifs
  · rw [drop_writeU16_of_le _ _ hout, drop_writeU16]
  · rw [drop_writeU16_of_le _ _ hout, drop_writeU16, drop_writeU16]

/-- **A rewritten UDP checksum stays present and correct** exactly if the new port
    does not cancel it, in a packet and in the quote of an ICMP error. -/
theorem udp_checksum_present_iff (tuple : PacketTuple) (fragment : Option FragmentKey) (rest : ℕ)
    (n : NetworkPacket) (off : ℕ) (len c id : UInt16) :
    (∀ (p : Bytes) (direction : Direction),
      parse p direction = some (.flow tuple fragment) →
      UdpChecksum p rest n off len c → c ≠ 0 →
      (ChecksumPresent (rewriteIdentifier p tuple id) rest ↔ StaysPresent c tuple.localId id)) ∧
    (∀ (e quote : Bytes) (outer : NetworkPacket) (start : ℕ),
      IcmpError e outer start quote →
      parse quote .outgoing = some (.flow tuple fragment) →
      UdpChecksum quote rest n off len c → c ≠ 0 →
      (ChecksumPresent ((rewriteEmbeddedIdentifier e (start + 8) tuple (start + 2) id).drop
        (start + 8)) rest ↔ StaysPresent c tuple.localId id)) := by
  refine ⟨fun p direction hp hu hc => checksumPresent_rewrite hp hu hc id, ?_⟩
  rintro e quote outer start ⟨-, -, -, -, rfl⟩ hq hu hc
  obtain ⟨hckoff, hidoff⟩ := udp_places hq hu
  rw [drop_rewriteEmbeddedIdentifier (by omega) (by omega) (c := c) (by rw [hckoff, hu.checksum])]
  exact checksumPresent_rewrite hq hu hc id

/-- A UDP packet from 10.0.0.2, port 4000, to 10.0.0.1, port 11227, without data. -/
def cancelSample : Bytes :=
  [0x45, 0, 0, 28, 0, 0, 0, 0, 64, 17, 0, 0, 10, 0, 0, 2, 10, 0, 0, 1,
    15, 160, 0x2b, 0xdb, 0, 8, 0xb0, 0x60]

theorem cancelSample_checksum : UdpChecksum cancelSample 0
    ⟨4, 17, .v4 0x0a000002, .v4 0x0a000001, some 20, none⟩ 20 8 0xb060 := by
  constructor <;> decide +kernel

/-- Port 5000 leaves its checksum present, and port 49152 does not. -/
theorem udp_checksum_present_sample :
    let tuple : PacketTuple := ⟨17, .v4 0x0a000002, 4000, .v4 0x0a000001, 11227, 20, 26, true⟩
    ChecksumPresent (rewriteIdentifier cancelSample tuple 5000) 0 ∧
      ¬ ChecksumPresent (rewriteIdentifier cancelSample tuple 49152) 0 := by
  intro tuple
  have hiff := fun id => (udp_checksum_present_iff tuple none 0 _ _ _ _ id).1 cancelSample .outgoing
    (by decide +kernel) cancelSample_checksum (by decide)
  rw [hiff, hiff]
  exact ⟨.inl (by decide), fun h => h.elim (by decide) (by decide)⟩

def cancelTable : PacketMuxTable :=
  (step (.withTrafficPolicy false 0) (.routeOutgoing 1 .tunnel cancelSample)).1

/-- The proxy sends the packet too: it leaves under port 49152 and without a
    checksum. -/
theorem translated_checksum_absent :
    UdpChecksum cancelSample 0 ⟨4, 17, .v4 0x0a000002, .v4 0x0a000001, some 20, none⟩ 20 8 0xb060 ∧
    (cancelTable.routeOutgoing 2 .proxy cancelSample).2.2 = true ∧
    readU16 (cancelTable.routeOutgoing 2 .proxy cancelSample).2.1 20 = some 49152 ∧
    readU16 (cancelTable.routeOutgoing 2 .proxy cancelSample).2.1 26 = some 0 := by
  exact ⟨cancelSample_checksum, by decide +kernel⟩

end Usque.PacketMux
