/-
  Fragment trains: the fragments of one datagram leave under one identification,
  which no other datagram in flight carries.

  The receiver reassembles by addresses, protocol and identification for IPv4,
  and by addresses and identification for IPv6 (`FragmentKey.reassembly`).  The
  table compares whole fragment keys, which for IPv6 hold the next header and
  the place of the fragment header as well: two IPv6 datagrams that differ there
  may leave under one identification (`ipv6_trains_merge`).
-/
import Usque.PacketMux.Entries
import Usque.PacketMux.Fragment

namespace Usque.PacketMux
open Lib PacketMuxTable List ParsedPacket Option Finmap

variable {p : Bytes} {n : NetworkPacket} {k wire : FragmentKey} {t : PacketMuxTable} {id : UInt32}
  {tuple : PacketTuple} {key : OriginFragmentKey} {op : Op} {h : List MuxEvent}

/-! ## The receiver's identity of a datagram -/

/-- What the receiver reassembles by: addresses, protocol (IPv4 only) and
    identification. -/
def FragmentKey.reassembly (k : FragmentKey) : IpAddr × IpAddr × Option UInt8 × UInt32 :=
  (k.source, k.destination,
    match k.source with
    | .v4 _ => some k.protocol
    | .v6 _ => none,
    k.identifier)

/-- The shape of the key of a parsed fragment. -/
inductive FragmentKey.Shape (k : FragmentKey) : Prop where
  | v4 (a : BitVec 32) (hs : k.source = .v4 a) (hw : k.identifierWidth = 2)
    (ho : k.identifierOffset = 4)
  | v6 (a : BitVec 128) (hs : k.source = .v6 a) (hw : k.identifierWidth = 4)

theorem parseIpv4_source (h : parseIpv4 p = some n) : n.source = .ofV4 (slice p 12 4) := by
  rw [parseIpv4] at h
  dsimp only at h
  split_ifs at h with hhdr
  simp only [bind, bind_eq_some_iff, pure, some.injEq] at h
  obtain ⟨flags, -, rfl⟩ := h
  rfl

theorem parse_shape (h : parseNetworkPacket p = some n) (hk : n.fragment = some k) :
    k.Shape ∧ IdFits k k.identifier := by
  rw [parseNetworkPacket] at h
  simp only [bind, bind_eq_some_iff] at h
  obtain ⟨first, -, h⟩ := h
  split_ifs at h
  · obtain ⟨id, -, rfl, -⟩ := parseIpv4_fragment h hk
    refine ⟨.v4 _ (parseIpv4_source h) rfl rfl, fun _ => ?_⟩
    exact id.toNat_lt
  · rw [parseIpv6] at h
    split_ifs at h
    obtain ⟨h1, h2, h3⟩ := (chain_of_ipv6Chain h).key hk
    rcases h3 with h3 | ⟨hw, hs, -⟩
    · cases h3
    · refine ⟨.v6 _ hs hw, fun h2 => ?_⟩
      rw [hw] at h2
      cases h2

/-- Keys of one identity differ in their IPv6 fields only. -/
theorem reassembly_inj {k' : FragmentKey} (hk : k.Shape) (hk' : k'.Shape)
    (h : k.reassembly = k'.reassembly) (hsame : ∀ a, k.source = .v6 a →
      k.protocol = k'.protocol ∧ k.identifierOffset = k'.identifierOffset) : k = k' := by
  obtain ⟨s, d, p, i, o, w⟩ := k
  obtain ⟨s', d', p', i', o', w'⟩ := k'
  simp only [FragmentKey.reassembly, Prod.mk.injEq] at h
  obtain ⟨rfl, rfl, hp, rfl⟩ := h
  cases hk with
  | v4 a hs hw ho =>
    cases hs
    cases hk' with
    | v6 b hb => cases hb
    | v4 b hb hw' ho' => simp_all
  | v6 a hs hw =>
    obtain ⟨rfl, rfl⟩ := hsame a hs
    cases hs
    cases hk' with
    | v4 b hb => cases hb
    | v6 b hb hw' => simp_all

theorem fragmentCandidate_fits (k : FragmentKey) (id : UInt32) (n : ℕ) :
    IdFits k (fragmentCandidate k.identifierWidth id n) := by
  intro hw
  rw [hw]
  induction n generalizing id with
  | zero =>
    exact Nat.lt_succ_of_le Nat.and_le_right
  | succ n ih => exact ih _

theorem LeavesWith.fits (h : LeavesWith t k id) (hk : IdFits k k.identifier) : IdFits k id := by
  rcases h with ⟨-, rfl⟩ | ⟨-, n, rfl, -⟩
  · exact hk
  · exact fragmentCandidate_fits k _ n

/-! ## New mappings -/

/-- The datagram `key` is mapped to `wire` by the call `op`. -/
structure FragmentMapped (t : PacketMuxTable) (op : Op) (key : OriginFragmentKey)
    (wire : FragmentKey) : Prop where
  routed : ∃ now packet tuple, op.routed = some (now, key.origin, packet) ∧
    parse packet .outgoing = some (.flow tuple (some key.fragment))
  forwarded : ∃ sent, (step t op).2 = .sent sent
  fresh : t.outgoingFragments.lookup key = none
  wire_eq : wire = { key.fragment with identifier := wire.identifier }
  leaves : LeavesWith t key.fragment wire.identifier

variable {origin : PacketOrigin} {packet : Bytes}

theorem leavesWith_retirePreviousTcp (h : LeavesWith (t.retirePreviousTcp origin tuple packet) k id) :
    LeavesWith t k id := by
  obtain ⟨-, -, hw, hn, -⟩ := retirePreviousTcp_frame t origin tuple packet
  simpa only [LeavesWith, FirstFree, hw, hn] using h

/-- **A mapping after a call** was live before it under the same wire key, or is
    that of the routed first fragment. -/
theorem step_outgoing (hc : Consistent t) (op : Op) {m' : FragmentMapping}
    (h : (step t op).1.outgoingFragments.lookup key = some m') :
    (∃ m, t.outgoingFragments.lookup key = some m ∧ m'.wire = m.wire) ∨
      FragmentMapped t op key m'.wire := by
  have hcase := step_cases hc op
  generalize (step t op).1 = t' at h hcase
  generalize hv : (step t op).2 = v at hcase
  rcases hop : op.routed with _ | ⟨now, origin, packet⟩
  · exact .inl ⟨m', hcase.outgoing_sub hc hop key m' h, rfl⟩
  cases hcase with
  | @routed _ now' origin' packet' hop' _ sent b hout =>
    rw [hop] at hop'
    cases hop'
    generalize hp : parse packet .outgoing = parsed at hout
    cases hout with
    | unparsed => exact .inl ⟨m', h, rfl⟩
    | lateDropped => exact .inl ⟨m', h, rfl⟩
    | lateSent _ m hm =>
      rw [HashMap.lookup_insert_eq] at h
      split_ifs at h with e
      · cases h; exact .inl ⟨m, by rw [e]; exact hm, rfl⟩
      · exact .inl ⟨m', h, rfl⟩
    | blocked _ fragment =>
      cases fragment with
      | none => exact .inl ⟨m', h, rfl⟩
      | some =>
        simp only [blockOutgoing, HashMap.lookup_modify] at h
        split_ifs at h with e
        · obtain ⟨m, hm, rfl⟩ := map_eq_some_iff.1 h
          exact .inl ⟨m, hm, rfl⟩
        · exact .inl ⟨m', h, rfl⟩
    | refused tuple =>
      have hf := (retirePreviousTcp_frame t origin tuple packet).2.1
      exact .inl ⟨m', by rw [← hf]; exact h, rfl⟩
    | sent tuple fragment _ _ _ _ _ hs =>
      obtain ⟨-, hf, -⟩ := retirePreviousTcp_frame t origin tuple packet
      cases fragment with
      | none =>
        rw [(hs.whole rfl).outgoingFragments, hf] at h
        exact .inl ⟨m', h, rfl⟩
      | some k =>
        cases hs.first k rfl with
        | live m hm hw hf' =>
          rw [hf', HashMap.lookup_insert_eq, hf] at h
          split_ifs at h with e
          · cases h
            refine .inl ⟨m, ?_, hw.symm⟩
            rw [e, ← hf]
            exact hm
          · exact .inl ⟨m', h, rfl⟩
        | new hm _ hwire hid hf' =>
          rw [hf', HashMap.lookup_insert_eq, hf] at h
          split_ifs at h with e
          · cases h
            subst e
            rw [hf] at hm
            exact .inr ⟨⟨now, packet, tuple, hop, hp⟩, ⟨_, hv⟩, hm, hwire,
              leavesWith_retirePreviousTcp hid⟩
          · exact .inl ⟨m', h, rfl⟩
  | _ => cases hop

/-! ## The condition -/

/-- The live mappings between the addresses of a new IPv6 datagram have its next header and
    place of the fragment header, or its key is free and they have other identifications. The
    datagram of a first fragment of an ICMP error is not mapped to another identification. -/
structure TrainFresh (t : PacketMuxTable) (op : Op) : Prop where
  mapped : ∀ now origin packet tuple k a sent, op.routed = some (now, origin, packet) →
    parse packet .outgoing = some (.flow tuple (some k)) → k.source = .v6 a →
    (step t op).2 = .sent sent → (⟨origin, k⟩ : OriginFragmentKey) ∉ t.outgoingFragments →
    ∀ key m, t.outgoingFragments.lookup key = some m → m.wire.source = k.source →
      m.wire.destination = k.destination →
      (m.wire.protocol = k.protocol ∧ m.wire.identifierOffset = k.identifierOffset) ∨
      (k ∉ t.wireFragments ∧ m.wire.identifier ≠ k.identifier)
  error : ∀ now origin packet k m, op.routed = some (now, origin, packet) →
    isOutgoingIcmpError packet = true → firstFragment packet = some k →
    t.outgoingFragments.lookup ⟨origin, k⟩ = some m → m.wire.identifier = k.identifier

/-- The live mappings have the shape of parsed keys, and no two of them share the
    receiver's identity. -/
structure TrainsApart (t : PacketMuxTable) : Prop where
  shape : ∀ key m, t.outgoingFragments.lookup key = some m →
    m.wire.Shape ∧ IdFits m.wire m.wire.identifier
  apart : ∀ key m key' m', t.outgoingFragments.lookup key = some m →
    t.outgoingFragments.lookup key' = some m' → m.wire.reassembly = m'.wire.reassembly → key = key'

theorem FragmentMapped.shape (h : FragmentMapped t op key wire) :
    wire.Shape ∧ IdFits wire wire.identifier := by
  obtain ⟨now, packet, tuple, -, hp⟩ := h.routed
  obtain ⟨n, off, fields, hn, -, -, -, hk⟩ := parse_flow.1 hp
  obtain ⟨hshape, hfits⟩ := parse_shape hn hk.symm
  have hid := h.leaves.fits hfits
  rw [h.wire_eq]
  refine ⟨?_, hid⟩
  cases hshape with
  | v4 a hs hw ho => exact .v4 a hs hw ho
  | v6 a hs hw => exact .v6 a hs hw

/-- A new mapping under the condition shares its identity with no live one. -/
theorem FragmentMapped.apart (hc : Consistent t) (ha : TrainsApart t) (hop : TrainFresh t op)
    {key' : OriginFragmentKey} {m : FragmentMapping} (h : FragmentMapped t op key wire)
    (hm : t.outgoingFragments.lookup key' = some m) : m.wire.reassembly ≠ wire.reassembly := by
  intro hsame
  have hne : m.wire ≠ wire := by
    intro heq
    have hfree := h.leaves.free
    rw [← h.wire_eq, ← heq] at hfree
    obtain ⟨r, hr, -⟩ := hc.outgoing.fwd_rev key' m hm
    exact hfree (mem_of_lookup_eq_some hr)
  refine hne (reassembly_inj (ha.shape key' m hm).1 h.shape.1 hsame fun a hs => ?_)
  obtain ⟨now, packet, tuple, hrt, hp⟩ := h.routed
  obtain ⟨sent, hsent⟩ := h.forwarded
  have hsrc : wire.source = key.fragment.source := by rw [h.wire_eq]
  have hdst : wire.destination = key.fragment.destination := by rw [h.wire_eq]
  simp only [FragmentKey.reassembly, Prod.mk.injEq] at hsame
  obtain ⟨h1, h2, -, h4⟩ := hsame
  rcases hop.mapped now key.origin packet tuple key.fragment a sent hrt hp
    ((h1.trans hsrc).symm.trans hs) hsent (lookup_eq_none.1 h.fresh) key' m hm (h1.trans hsrc)
    (h2.trans hdst) with hfields | ⟨hfree, hid⟩
  · -- only the identification of a mapping differs from the packet's key
    rw [h.wire_eq]
    exact hfields
  · rcases h.leaves with ⟨-, hown⟩ | ⟨htaken, -⟩
    · exact absurd (h4.trans hown) hid
    · exact absurd htaken hfree

/-- **One call under the condition keeps the trains apart.** -/
theorem step_trainsApart (hc : Consistent t) (ha : TrainsApart t) (hop : TrainFresh t op) :
    TrainsApart (step t op).1 := by
  constructor
  · intro key m hm
    rcases step_outgoing hc op hm with ⟨m0, hm0, hw⟩ | hnew
    · rw [hw]; exact ha.shape key m0 hm0
    · exact hnew.shape
  · intro key m key' m' hm hm' hsame
    rcases step_outgoing hc op hm with ⟨m0, hm0, hw0⟩ | hnew
    · rw [hw0] at hsame
      rcases step_outgoing hc op hm' with ⟨m1, hm1, hw1⟩ | hnew
      · rw [hw1] at hsame
        exact ha.apart key m0 key' m1 hm0 hm1 hsame
      · exact absurd hsame (hnew.apart hc ha hop hm0)
    · rcases step_outgoing hc op hm' with ⟨m1, hm1, hw1⟩ | hnew'
      · rw [hw1] at hsame
        exact absurd hsame.symm (hnew.apart hc ha hop hm1)
      · -- one call maps one datagram
        obtain ⟨now, packet, tuple, hrt, hp⟩ := hnew.routed
        obtain ⟨now', packet', tuple', hrt', hp'⟩ := hnew'.routed
        obtain ⟨origin, k⟩ := key
        rw [hrt] at hrt'
        cases hrt'
        rw [hp] at hp'
        cases hp'
        rfl

/-! ## First fragments in the history -/

/-- The event sends `packet` of `key.origin`, a first fragment of `key.fragment`, as
    `sent`. -/
def FirstSent (key : OriginFragmentKey) (packet sent : Bytes) (e : MuxEvent) : Prop :=
  (∃ now, e.input.routed = some (now, key.origin, packet)) ∧
  firstFragment packet = some key.fragment ∧ e.output = .sent sent

/-- The latest first fragment of `key` left under the fragment key `wire`. -/
def LeftUnder (h : List MuxEvent) (key : OriginFragmentKey) (wire : FragmentKey) : Prop :=
  ∃ e packet sent, Latest (fun e => ∃ packet sent, FirstSent key packet sent e) h e ∧
    FirstSent key packet sent e ∧ firstFragment sent = some wire

/-- Every live mapping is that of the latest first fragment of its datagram. -/
def TrainsTracked (h : List MuxEvent) (t : PacketMuxTable) : Prop :=
  ∀ key m, t.outgoingFragments.lookup key = some m → LeftUnder h key m.wire

variable {e0 : MuxEvent}

theorem LeftUnder.before (hl : LeftUnder h key wire)
    (hn : ∀ packet sent, ¬ FirstSent key packet sent e0) : LeftUnder (e0 :: h) key wire := by
  obtain ⟨e, packet, sent, hlatest, hfst⟩ := hl
  refine ⟨e, packet, sent, latest_cons.2 (.inr ⟨?_, hlatest⟩), hfst⟩
  rintro ⟨packet', sent', hf⟩
  exact hn packet' sent' hf

theorem LeftUnder.newest {sent : Bytes} (hf : FirstSent key packet sent e0)
    (hw : firstFragment sent = some wire) : LeftUnder (e0 :: h) key wire :=
  ⟨e0, packet, sent, latest_cons.2 (.inl ⟨⟨packet, sent, hf⟩, rfl⟩), hf, hw⟩

theorem parseNetworkPacket_translate {fragment : Option FragmentKey}
    (h : parse p .outgoing = some (.flow tuple fragment)) (id : UInt16) :
    parseNetworkPacket (translate p tuple id) = parseNetworkPacket p := by
  rw [translate]
  split_ifs
  · obtain ⟨n, off, fields, hn, ho, -⟩ := parse_flow.1 h
    obtain ⟨off', hst, -, -, i, j, -, hi, hj⟩ := parse_places h
    rw [transportStart, hn, bind_some, ho] at hst
    cases hst
    obtain ⟨hlen, hsame⟩ := rewriteIdentifier_same p tuple id
    have hfar : ∀ x < off, (rewriteIdentifier p tuple id)[x]? = p[x]? := by
      intro x hx
      refine hsame x ?_
      simp only [mem_cons, not_mem_nil, or_false, forall_eq_or_imp, forall_eq]
      omega
    obtain ⟨hcongr, -, -, hle⟩ := parseNetworkPacket_congr hn ho hfar
    rw [hcongr (by rw [hlen]; exact hle), hn]
  · rfl

theorem parseNetworkPacket_translateFragment (h : parseNetworkPacket p = some n)
    (hk : n.fragment = some k) (hid : IdFits k id) :
    parseNetworkPacket (translateFragment p k id) =
      some { n with fragment := some { k with identifier := id } } := by
  rw [translateFragment]
  split_ifs with hne
  · exact parseNetworkPacket_rewriteFragment h hk hid
  · rw [not_not] at hne
    rw [h, hne]
    obtain ⟨version, protocol, source, destination, offset, fragment⟩ := n
    cases hk
    rfl

theorem Sent.firstFragment_eq {t' : PacketMuxTable} {now : Instant} {p' : Bytes} {wire : WireKey}
    {fw : FragmentKey} (hp : parse p .outgoing = some (.flow tuple (some k)))
    (hs : Sent t now origin p tuple (some k) wire fw t' p')
    (hfw : fw = { k with identifier := fw.identifier }) (hid : IdFits k fw.identifier) :
    firstFragment p' = some fw := by
  obtain ⟨n, off, fields, hn, ho, -, -, hk⟩ := parse_flow.1 hp
  have hn' : parseNetworkPacket (translate p tuple wire.localId) = some n := by
    rw [parseNetworkPacket_translate hp, hn]
  have hsent := parseNetworkPacket_translateFragment hn' hk.symm hid
  rw [hs.bytes_first k rfl, firstFragment]
  simp only [bind, hsent, ho, bind_some]
  rw [← hfw]

/-- **One call under the condition keeps the mappings tracked.** -/
theorem step_trainsTracked (hc : Consistent t) (hop : TrainFresh t op)
    (ha : TrainsApart (step t op).1) (ht : TrainsTracked h t) :
    TrainsTracked (⟨t, op, (step t op).2⟩ :: h) (step t op).1 := by
  have hcase := step_cases hc op
  have hc' := step_consistent hc op
  intro key m hm
  -- a call that sends no first fragment of `key` does not map it
  have hkeep : (∀ packet sent, ¬ FirstSent key packet sent ⟨t, op, (step t op).2⟩) →
      LeftUnder (⟨t, op, (step t op).2⟩ :: h) key m.wire := by
    intro hn
    rcases step_outgoing hc op hm with ⟨m0, hm0, hw⟩ | hnew
    · rw [hw]
      exact (ht key m0 hm0).before hn
    · obtain ⟨now, packet, tuple, hr, hp⟩ := hnew.routed
      obtain ⟨sent, hsent⟩ := hnew.forwarded
      exact absurd ⟨⟨now, hr⟩, firstFragment_flow hp, hsent⟩ (hn packet sent)
  generalize (step t op).1 = t' at hcase ha hc' hm
  generalize (step t op).2 = v at hcase hkeep ⊢
  by_cases hfst : ∃ packet sent, FirstSent key packet sent ⟨t, op, v⟩
  swap
  · exact hkeep fun packet sent hf => hfst ⟨packet, sent, hf⟩
  obtain ⟨packet, sent, hf⟩ := hfst
  refine .newest hf ?_
  obtain ⟨⟨now, hr⟩, hk, hv⟩ := hf
  have hok : m.wire = { key.fragment with identifier := m.wire.identifier } :=
    hc'.outgoing.ok key m hm
  have hfits : IdFits key.fragment m.wire.identifier := by
    intro hw
    refine (ha.shape key m hm).2 ?_
    rw [hok]
    exact hw
  cases hcase with
  | @routed _ now' origin packet' hr' _ sent' b hout =>
    rw [hr] at hr'
    cases hr'
    obtain rfl : b := by
      by_contra hb
      rw [if_neg hb] at hv
      cases hv
    cases hv
    generalize hp : parse packet .outgoing = parsed at hout
    generalize hb : true = b at hout
    cases hout with
    | unparsed =>
      -- an ICMP error leaves as it is
      have hid := hop.error now key.origin packet key.fragment m hr hb.symm hk hm
      rw [hok, hid]
      exact hk
    | lateDropped => cases hb
    | lateSent => rw [firstFragment_fragment hp] at hk; cases hk
    | blocked => cases hb
    | refused => cases hb
    | sent _ fragment _ fw _ _ _ hs =>
      obtain rfl : fragment = some key.fragment := (firstFragment_flow hp).symm.trans hk
      have hfw : m.wire = fw := by
        cases hs.first _ rfl with
        | live _ _ _ hf | new _ _ _ _ hf => rw [hf, lookup_insert] at hm; cases hm; rfl
      rw [hfw] at hok hfits ⊢
      exact hs.firstFragment_eq hp hok hfits
  | _ => cases hr

theorem run_trains {s : PacketMuxTable} (hs : Initial s) (run : Steps step s h t)
    (hfrs : ∀ e ∈ h, TrainFresh e.before e.input) :
    Consistent t ∧ TrainsApart t ∧ TrainsTracked h t := by
  refine run.inv (P := fun h t => (∀ e ∈ h, TrainFresh e.before e.input) →
    Consistent t ∧ TrainsApart t ∧ TrainsTracked h t) ?_ ?_ hfrs
  · intro _
    refine ⟨hs.consistent, ?_⟩
    obtain ⟨disableQuic, now, rfl⟩ := hs
    refine ⟨⟨fun key m hm => ?_, fun key m key' m' hm => ?_⟩, fun key m hm => ?_⟩ <;>
      simp [PacketMuxTable.withTrafficPolicy] at hm
  · intro h t op _ ih hh
    obtain ⟨hc, ha, ht⟩ := ih fun e hmem => hh e (mem_cons_of_mem _ hmem)
    have hop := hh _ (mem_cons_self ..)
    have ha' := step_trainsApart hc ha hop
    exact ⟨step_consistent hc op, ha', step_trainsTracked hc hop ha' ht⟩

/-- **Fragment trains never merge**, in every run whose calls map an IPv6 datagram only
    beside trains that its key tells apart. -/
theorem trains_apart {s t : PacketMuxTable} {h : List MuxEvent} (hs : Initial s)
    (run : Steps step s h t) (hfresh : ∀ e ∈ h, TrainFresh e.before e.input) :
    -- two live mappings never share the receiver's identity
    (∀ key m key' m', t.outgoingFragments.lookup key = some m →
      t.outgoingFragments.lookup key' = some m' →
      m.wire.reassembly = m'.wire.reassembly → key = key') ∧
    -- an admitted later fragment leaves as its first fragment did
    ∀ now origin p k t' p', parse p .outgoing = some (.fragment k) →
      t.routeOutgoing now origin p = (t', p', true) →
      ∃ wire, LeftUnder h ⟨origin, k⟩ wire ∧
        (parseNetworkPacket p').bind (·.fragment) = some wire ∧
        wire = { k with identifier := wire.identifier } ∧
        (k.identifierWidth = 2 → ResidueKept p p' 0 [4, 10]) := by
  obtain ⟨hc, ha, ht⟩ := run_trains hs run hfresh
  refine ⟨ha.apart, ?_⟩
  intro now origin p k t' p' hp hroute
  have hcase := routeParsedOutgoing_cases hc hroute
  rw [hp] at hcase
  cases hcase with
  | lateSent _ m hm =>
    have hok : m.wire = { k with identifier := m.wire.identifier } := hc.outgoing.ok ⟨origin, k⟩ m hm
    have hfits : IdFits k m.wire.identifier := by
      intro hw
      refine (ha.shape _ m hm).2 ?_
      rw [hok]
      exact hw
    obtain ⟨n, hn, -, hk⟩ := parse_fragment.1 hp
    refine ⟨m.wire, ht _ m hm, ?_, hok, ?_⟩
    · rw [parseNetworkPacket_translateFragment hn hk hfits, Option.bind_some, ← hok]
    · intro hw
      rw [translateFragment]
      split_ifs
      · cases fragment_places hn hk with
        | v4 _ _ hkey hlen =>
          exact (rewriteFragment_v4 hw (by rw [hkey]) hlen m.wire.identifier).2.2
        | v6 hw' => rw [hw] at hw'; cases hw'
      · intro len _
        rfl

/-! ## Sample runs -/

/-- A fragment of an IPv6 datagram from fd00::2 to fd00::1 with identification 7, the
    given next header and the given offset and flag. -/
def ipv6Sample (nextHeader offset : UInt8) : Bytes :=
  [0x60, 0, 0, 0, 0, 16, 44, 64, 0xfd, 0, 0, 0, 0, 0, 0, 0, 0, 0, 0, 0, 0, 0, 0, 2,
    0xfd, 0, 0, 0, 0, 0, 0, 0, 0, 0, 0, 0, 0, 0, 0, 1,
    nextHeader, 0, 0, offset, 0, 0, 0, 7, 15, 160, 0, 53, 0, 8, 0, 0]

def ipv6SampleKey (nextHeader : UInt8) : FragmentKey :=
  ⟨.v6 0xfd000000000000000000000000000002, .v6 0xfd000000000000000000000000000001, nextHeader, 7,
    44, 4⟩

/-- Both origins send a datagram with the same identification: the proxy's leaves
    under another one, and so does its later fragment. -/
theorem trains_apart_two_origins :
    let t₁ := (step (.withTrafficPolicy false 0) (.routeOutgoing 1 .tunnel (ipv6Sample 17 1))).1
    let t₂ := (step t₁ (.routeOutgoing 2 .proxy (ipv6Sample 17 1))).1
    t₂.outgoingFragments.len = 2 ∧
    (t₂.routeOutgoing 3 .proxy (ipv6Sample 17 8)).2.1 ≠ ipv6Sample 17 8 ∧
    ∃ h wire, LeftUnder h ⟨.proxy, ipv6SampleKey 17⟩ wire ∧
      (parseNetworkPacket (t₂.routeOutgoing 3 .proxy (ipv6Sample 17 8)).2.1).bind (·.fragment) =
        some wire := by
  have hp : parse (ipv6Sample 17 8) .outgoing = some (.fragment (ipv6SampleKey 17)) := by
    decide +kernel
  have hfirst : firstFragment (ipv6Sample 17 1) = some (ipv6SampleKey 17) := by decide +kernel
  have hicmp : isOutgoingIcmpError (ipv6Sample 17 1) = false := by decide +kernel
  have hfresh : ∀ t now origin, (∀ key ∈ t.outgoingFragments.keys, (t.outgoingFragments.lookup
      key).map (fun m => (m.wire.protocol, m.wire.identifierOffset)) = some (17, 44)) →
      TrainFresh t (.routeOutgoing now origin (ipv6Sample 17 1)) := by
    intro t now origin hlive
    constructor
    · intro _ _ packet tuple k a sent hr hflow _ _ _ key m hm _ _
      cases hr
      cases hfirst.symm.trans (firstFragment_flow hflow)
      have hsame := hlive key (mem_keys.2 (mem_of_lookup_eq_some hm))
      rw [hm] at hsame
      exact .inl (Prod.mk.inj (Option.some.inj hsame))
    · intro _ _ packet k m hr herror
      cases hr
      cases hicmp.symm.trans herror
  have hrun := (trains_apart ⟨false, 0, rfl⟩
    ((Steps.nil.snoc (.routeOutgoing 1 .tunnel (ipv6Sample 17 1))).snoc
      (.routeOutgoing 2 .proxy (ipv6Sample 17 1))) (by
        intro e he
        rcases mem_cons.1 he with rfl | he
        · exact hfresh _ _ _ (by decide +kernel)
        rcases mem_cons.1 he with rfl | he
        · exact hfresh _ _ _ (by decide +kernel)
        cases he)).2 3 .proxy _ (ipv6SampleKey 17) _ _ hp
          (Prod.ext rfl (Prod.ext rfl (by decide +kernel)))
  obtain ⟨wire, hleft, hsent, -⟩ := hrun
  exact ⟨by decide +kernel, by decide +kernel, _, wire, hleft, hsent⟩

/-- The tunnel has sent a UDP datagram, the proxy a TCP one. -/
def ipv6Both : PacketMuxTable :=
  (((withTrafficPolicy false 0).routeOutgoing 1 .tunnel (ipv6Sample 17 1)).1.routeOutgoing 2 .proxy
    (ipv6Sample 6 1)).1

/-- Two live mappings of different datagrams share the receiver's identity. -/
theorem ipv6_trains_merge : Reachable ipv6Both ∧
    (⟨.tunnel, ipv6SampleKey 17⟩ : OriginFragmentKey) ≠ ⟨.proxy, ipv6SampleKey 6⟩ ∧
    (ipv6Both.outgoingFragments.lookup ⟨.tunnel, ipv6SampleKey 17⟩).map (·.wire.reassembly) =
      some (ipv6SampleKey 17).reassembly ∧
    (ipv6Both.outgoingFragments.lookup ⟨.proxy, ipv6SampleKey 6⟩).map (·.wire.reassembly) =
      some (ipv6SampleKey 17).reassembly := by
  refine ⟨((Reachable.new false 0).routeOutgoing _ _ _).routeOutgoing _ _ _, ?_⟩
  decide +kernel

end Usque.PacketMux
