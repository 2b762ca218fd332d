/-
  The QUIC policy: while it blocks, no UDP packet to or from port 443 of the
  tunnel is forwarded, whatever the policy was before.

  A later fragment carries no port; the table remembers the class of the last
  first fragment of its datagram.  The history of a run says what that fragment
  was: `FirstOutgoing key` and `FirstIncoming k` hold of the events in which a
  first fragment of the key was forwarded or blocked by the policy.
-/
import Usque.PacketMux.Entries
import Usque.PacketMux.Policy
import Usque.PacketMux.Rewrite

namespace Usque.PacketMux
open Lib PacketMuxTable ParsedPacket Option

variable {tuple : PacketTuple} {h : List MuxEvent} {e₀ : MuxEvent} {packet : Bytes}
  {k : FragmentKey} {t : PacketMuxTable} {now : Instant}

/-! ## First fragments in the history -/

/-- An outgoing packet is one of UDP to port 443. -/
def QuicOutgoing (packet : Bytes) : Prop :=
  ∃ tuple fragment, parse packet .outgoing = some (.flow tuple fragment) ∧
    tuple.protocol = 17 ∧ tuple.remoteId = 443

section
variable (h : List MuxEvent) (t : PacketMuxTable)

/-- An incoming packet is one of UDP from port 443 to a live flow of the tunnel. -/
def QuicIncoming (packet : Bytes) : Prop :=
  ∃ tuple fragment flow, parse packet .incoming = some (.flow tuple fragment) ∧
    t.reverse.lookup tuple.wire = some ⟨flow⟩ ∧ flow.origin = .tunnel ∧
    tuple.protocol = 17 ∧ tuple.remoteId = 443

/-- The event routes `packet` of `key.origin`, a first fragment of `key.fragment`,
    and forwards it or blocks it by the policy. -/
def FirstOutgoing (key : OriginFragmentKey) (packet : Bytes) (e : MuxEvent) : Prop :=
  (∃ now, e.input.routed = some (now, key.origin, packet)) ∧
  firstFragment packet = some key.fragment ∧
  ((∃ sent, e.output = .sent sent) ∨
    (key.origin = .tunnel ∧ QuicOutgoing packet ∧ e.before.blocksUdp 443 = true))

/-- The event takes in `packet`, a first fragment of `k`, and delivers it or blocks
    it by the policy. -/
def FirstIncoming (k : FragmentKey) (packet : Bytes) (e : MuxEvent) : Prop :=
  (∃ now later unique, e.input = .routeOwnedIncoming now later packet unique) ∧
  firstFragment packet = some k ∧
  ((∃ routed, e.output = .delivered routed) ∨
    (QuicIncoming e.before packet ∧ e.before.blocksUdp 443 = true))

/-- The latest first fragment of `key` was one of UDP to port 443. -/
def LastOutgoingQuic (key : OriginFragmentKey) : Prop :=
  ∃ e packet, Latest (fun e => ∃ packet, FirstOutgoing key packet e) h e ∧
    FirstOutgoing key packet e ∧ QuicOutgoing packet

/-- The latest incoming first fragment of `k` was one of UDP from port 443 to the
    tunnel. -/
def LastIncomingQuic (k : FragmentKey) : Prop :=
  ∃ e packet, Latest (fun e => ∃ packet, FirstIncoming k packet e) h e ∧
    FirstIncoming k packet e ∧ QuicIncoming e.before packet

/-- The live outgoing entries know the class of their latest first fragment. -/
def OutgoingTracked : Prop :=
  ∀ key m, t.outgoingFragments.lookup key = some m → LastOutgoingQuic h key →
    m.applicationQuic = true

/-- The live incoming entries know the class of their latest first fragment. -/
def IncomingTracked : Prop :=
  ∀ k m, t.incomingFragments.lookup k = some m → LastIncomingQuic h k →
    m.origin = .tunnel ∧ m.applicationQuic = true

end

theorem quic_iff : tuple.applicationQuic ↔ tuple.protocol = 17 ∧ tuple.remoteId = 443 := by
  simp [PacketTuple.applicationQuic]

variable {key : OriginFragmentKey}

theorem LastOutgoingQuic.before (hq : LastOutgoingQuic (e₀ :: h) key)
    (hn : ∀ packet, ¬ FirstOutgoing key packet e₀) : LastOutgoingQuic h key := by
  obtain ⟨e, packet, hl, hf, hq⟩ := hq
  rcases latest_cons.1 hl with ⟨⟨packet', hf'⟩, -⟩ | ⟨-, hl⟩
  · exact absurd hf' (hn packet')
  · exact ⟨e, packet, hl, hf, hq⟩

theorem LastOutgoingQuic.newest (hq : LastOutgoingQuic (e₀ :: h) key)
    (hf : FirstOutgoing key packet e₀) : QuicOutgoing packet := by
  obtain ⟨e, packet', hl, hf', hq⟩ := hq
  rcases latest_cons.1 hl with ⟨-, rfl⟩ | ⟨hn, -⟩
  · obtain ⟨⟨now, h1⟩, -⟩ := hf
    obtain ⟨⟨now', h2⟩, -⟩ := hf'
    rw [h1] at h2
    cases h2
    exact hq
  · exact absurd ⟨packet, hf⟩ hn

theorem LastIncomingQuic.before (hq : LastIncomingQuic (e₀ :: h) k)
    (hn : ∀ packet, ¬ FirstIncoming k packet e₀) : LastIncomingQuic h k := by
  obtain ⟨e, packet, hl, hf, hq⟩ := hq
  rcases latest_cons.1 hl with ⟨⟨packet', hf'⟩, -⟩ | ⟨-, hl⟩
  · exact absurd hf' (hn packet')
  · exact ⟨e, packet, hl, hf, hq⟩

theorem LastIncomingQuic.newest (hq : LastIncomingQuic (e₀ :: h) k) (hf : FirstIncoming k packet e₀) :
    QuicIncoming e₀.before packet := by
  obtain ⟨e, packet', hl, hf', hq⟩ := hq
  rcases latest_cons.1 hl with ⟨-, rfl⟩ | ⟨hn, -⟩
  · obtain ⟨⟨_, _, _, h1⟩, -⟩ := hf
    obtain ⟨⟨_, _, _, h2⟩, -⟩ := hf'
    rw [h1] at h2
    cases h2
    exact hq
  · exact absurd ⟨packet, hf⟩ hn

/-! ## Tracking -/

/-- **One call keeps the outgoing entries tracked.** -/
theorem step_outgoingTracked (hc : Consistent t) (ht : OutgoingTracked h t) (op : Op) :
    OutgoingTracked (⟨t, op, (step t op).2⟩ :: h) (step t op).1 := by
  have hcase := step_cases hc op
  generalize (step t op).1 = t' at hcase ⊢
  generalize (step t op).2 = v at hcase ⊢
  intro key m hm hq
  rcases hop : op.routed with _ | ⟨now, origin, packet⟩
  · -- no packet is routed
    refine ht key m (hcase.outgoing_sub hc hop key m hm) (hq.before ?_)
    rintro packet ⟨⟨now, hr⟩, -⟩
    rw [hop] at hr
    cases hr
  cases hcase with
  | @routed _ now' origin' packet' hop' _ sent b hout =>
    rw [hop] at hop'
    cases hop'
    -- only the key of the routed first fragment can be concerned
    have hoth : ∀ k, firstFragment packet = k → (∀ k', k = some k' → key ≠ ⟨origin, k'⟩) →
        LastOutgoingQuic h key := by
      intro k hk hne
      refine hq.before ?_
      rintro packet' ⟨⟨now', hr⟩, hfst, -⟩
      rw [hop] at hr
      cases hr
      exact hne key.fragment (hk.symm.trans hfst) rfl
    generalize hp : parse packet .outgoing = parsed at hout
    cases hout with
    | unparsed =>
      refine ht key m hm (hq.before ?_)
      intro packet' hf
      obtain ⟨tuple, fragment, hq', -⟩ := hq.newest hf
      obtain ⟨⟨now', hr⟩, -⟩ := hf
      rw [hop] at hr
      cases hr
      rw [hp] at hq'
      cases hq'
    | lateDropped =>
      exact ht key m hm (hoth none (firstFragment_fragment hp) fun k' hk => by cases hk)
    | lateSent _ m0 hm0 =>
      have hq' := hoth none (firstFragment_fragment hp) fun k' hk => by cases hk
      rw [HashMap.lookup_insert_eq] at hm
      split_ifs at hm with e
      · cases hm; exact ht key m0 (by rw [e]; exact hm0) hq'
      · exact ht key m hm hq'
    | blocked _ fragment =>
      cases fragment with
      | none => exact ht key m hm (hoth none (firstFragment_flow hp) fun k' hk => by cases hk)
      | some k =>
        simp only [blockOutgoing, HashMap.lookup_modify] at hm
        split_ifs at hm with e
        · obtain ⟨m0, -, rfl⟩ := map_eq_some_iff.1 hm
          rfl
        · refine ht key m hm (hoth (some k) (firstFragment_flow hp) fun k' hk => ?_)
          cases hk
          exact e
    | refused tuple _ _ _ _ _ hb =>
      rw [(retirePreviousTcp_frame t origin tuple packet).2.1] at hm
      refine ht key m hm (hq.before ?_)
      rintro packet' ⟨⟨now', hr⟩, -, hv⟩
      rw [hop] at hr
      cases hr
      rcases hv with ⟨sent, hv⟩ | ⟨ho, ⟨tuple', fragment', hp', hquic⟩, hblk⟩
      · cases hv
      · rw [hp] at hp'
        cases hp'
        exact hb ⟨ho, quic_iff.2 hquic, hblk⟩
    | sent tuple fragment _ fw _ _ _ hs =>
      have hfr := (retirePreviousTcp_frame t origin tuple packet).2.1
      cases hk : fragment with
      | none =>
        rw [(hs.whole hk).outgoingFragments, hfr] at hm
        exact ht key m hm (hoth none ((firstFragment_flow hp).trans hk) fun k' hk => by cases hk)
      | some k =>
        have hins : t'.outgoingFragments = t.outgoingFragments.insert ⟨origin, k⟩
            ⟨fw, now, tuple.applicationQuic⟩ := by
          rw [← hfr]
          cases hs.first k hk with
          | live _ _ _ hf => exact hf
          | new _ _ _ _ hf => exact hf
        rw [hins, HashMap.lookup_insert_eq] at hm
        split_ifs at hm with e
        · cases hm
          subst e
          have hfst : FirstOutgoing ⟨origin, k⟩ packet ⟨t, op, .sent sent⟩ :=
            ⟨⟨now, hop⟩, (firstFragment_flow hp).trans hk, .inl ⟨sent, rfl⟩⟩
          obtain ⟨tuple', fragment', hp', hquic⟩ := hq.newest hfst
          rw [hp] at hp'
          cases hp'
          exact quic_iff.2 hquic
        · refine ht key m hm (hoth (some k) ((firstFragment_flow hp).trans hk) fun k' hk => ?_)
          cases hk
          exact e
  | inspected => cases hop
  | incoming => cases hop
  | maintain => cases hop
  | policy => cases hop

theorem flow_quic (hc : Consistent t) {flow : FlowKey}
    (hr : t.reverse.lookup tuple.wire = some ⟨flow⟩) :
    flow.applicationQuic = tuple.applicationQuic := by
  obtain ⟨m, -, hw, hok, -⟩ := hc.forward_lookup hr
  rw [hw] at hok
  have h1 : flow.protocol = tuple.protocol := congrArg WireKey.protocol hok.symm
  have h2 : flow.remoteId = tuple.remoteId := congrArg WireKey.remoteId hok.symm
  rw [FlowKey.applicationQuic, PacketTuple.applicationQuic, h1, h2]

variable {fragment : Option FragmentKey}

theorem lookup_recordIncomingFragment {origin : PacketOrigin} {q : Bool} {m : IncomingFragment}
    (h : (t.recordIncomingFragment fragment origin now q).incomingFragments.lookup k = some m) :
    (fragment = some k ∧ m = ⟨origin, now, q⟩) ∨
      (fragment ≠ some k ∧ t.incomingFragments.lookup k = some m) := by
  cases fragment with
  | none => exact .inr ⟨nofun, h⟩
  | some =>
    simp only [recordIncomingFragment, HashMap.lookup_insert_eq] at h
    split_ifs at h with e
    · cases h; exact .inl ⟨by rw [e], rfl⟩
    · exact .inr ⟨fun he => e (some.inj he).symm, h⟩

theorem firstFragment_quotedTuple {n : NetworkPacket} {off : ℕ}
    (h : quotedTuple packet = some (n, off, tuple)) : firstFragment packet = n.fragment := by
  simp only [quotedTuple, bind, bind_eq_some_iff] at h
  obtain ⟨n', hn, off', ho, ty, -, h⟩ := h
  split_ifs at h
  simp only [bind_eq_some_iff] at h
  obtain ⟨parsed, -, h⟩ := h
  cases parsed with
  | flow =>
    cases h
    simp only [firstFragment, bind, hn, ho, bind_some]
  | fragment => cases h

/-- **One call keeps the incoming entries tracked.** -/
theorem step_incomingTracked (hc : Consistent t) (ht : IncomingTracked h t) (op : Op) :
    IncomingTracked (⟨t, op, (step t op).2⟩ :: h) (step t op).1 := by
  have hcase := step_cases hc op
  generalize (step t op).1 = t' at hcase ⊢
  generalize (step t op).2 = v at hcase ⊢
  intro k m hm hq
  by_cases hop : ∃ now later packet unique, op = .routeOwnedIncoming now later packet unique
  · obtain ⟨now, later, packet, unique, rfl⟩ := hop
    -- only the key of the packet, as a first fragment, can be concerned
    have hoth : firstFragment packet ≠ some k → LastIncomingQuic h k := by
      intro hne
      refine hq.before ?_
      rintro packet' ⟨⟨_, _, _, he⟩, hfst, -⟩
      cases he
      exact hne hfst
    cases hcase with
    | routed hr => cases hr
    | incoming hin hv =>
      cases hin with
      | dropped _ hdrop =>
        refine ht k m hm (hq.before ?_)
        rintro packet' hf
        obtain ⟨tuple, fragment, flow, hp, hr, -⟩ := hq.newest hf
        obtain ⟨⟨_, _, _, he⟩, hfst, -⟩ := hf
        cases he
        -- dropped for want of room: then the key has no entry
        refine hdrop tuple fragment flow hp hr fun k' hk' => .inl ?_
        rw [← firstFragment_flow hp, hfst] at hk'
        cases hk'
        exact Finmap.mem_of_lookup_eq_some hm
      | late k0 m0 hp hm0 hb =>
        have hq' := hoth (by rw [firstFragment_fragment hp]; nofun)
        rw [HashMap.lookup_insert_eq] at hm
        split_ifs at hm with e
        · cases hm; exact ht k m0 (by rw [e]; exact hm0) hq'
        · exact ht k m hm hq'
      | blocked tuple fragment flow hp hr hroom ho hquic hb =>
        cases fragment with
        | none => exact ht k m hm (hoth (by rw [firstFragment_flow hp]; nofun))
        | some =>
          simp only [blockIncoming, HashMap.lookup_modify] at hm
          split_ifs at hm with e
          · obtain ⟨m0, -, rfl⟩ := map_eq_some_iff.1 hm
            exact ⟨ho, rfl⟩
          · refine ht k m hm (hoth fun hf => e ?_)
            rw [firstFragment_flow hp] at hf
            exact (some.inj hf).symm
      | delivered _ _ _ _ _ hp hr =>
        rcases lookup_recordIncomingFragment hm with ⟨hk, rfl⟩ | ⟨hk, hm⟩
        · obtain ⟨routed, rfl, -⟩ : ∃ routed, v = .delivered routed ∧ _ :=
            hv.resolve_left fun hn => by cases hn.2
          have hfst : FirstIncoming k packet
              ⟨t, .routeOwnedIncoming now later packet unique, .delivered routed⟩ :=
            ⟨⟨now, later, unique, rfl⟩, (firstFragment_flow hp).trans hk, .inl ⟨routed, rfl⟩⟩
          obtain ⟨tuple', fragment', flow', hp', hr', horig, hquic⟩ := hq.newest hfst
          rw [hp] at hp'
          cases hp'
          rw [hr] at hr'
          cases hr'
          exact ⟨horig, (flow_quic hc hr).trans (quic_iff.2 hquic)⟩
        · exact ht k m hm (hoth (by rw [firstFragment_flow hp]; exact hk))
      | error _ _ _ _ _ _ hp hquote =>
        -- an ICMP error is no UDP packet
        have hq' : LastIncomingQuic h k := by
          refine hq.before fun packet' hf => ?_
          obtain ⟨tuple', fragment', flow', hp', -⟩ := hq.newest hf
          obtain ⟨⟨_, _, _, he⟩, -⟩ := hf
          cases he
          rw [hp] at hp'
          cases hp'
        rcases lookup_recordIncomingFragment hm with ⟨hk, rfl⟩ | ⟨-, hm⟩
        · obtain ⟨routed, rfl, -⟩ : ∃ routed, v = .delivered routed ∧ _ :=
            hv.resolve_left fun hn => by cases hn.2
          have hfst : FirstIncoming k packet
              ⟨t, .routeOwnedIncoming now later packet unique, .delivered routed⟩ := by
            refine ⟨⟨now, later, unique, rfl⟩, ?_, .inl ⟨routed, rfl⟩⟩
            exact (firstFragment_quotedTuple hquote).trans hk
          obtain ⟨tuple', fragment', flow', hp', -⟩ := hq.newest hfst
          rw [hp] at hp'
          cases hp'
        · exact ht k m hm hq'
  · have hne : ∀ now later packet unique, op ≠ .routeOwnedIncoming now later packet unique :=
      fun now later packet unique he => hop ⟨now, later, packet, unique, he⟩
    refine ht k m (hcase.incoming_sub hc hne k m hm) (hq.before ?_)
    rintro packet ⟨⟨now, later, unique, he⟩, -⟩
    exact hne _ _ _ _ he

theorem run_tracked {s : PacketMuxTable} (hs : Initial s) (run : Steps step s h t) :
    Consistent t ∧ OutgoingTracked h t ∧ IncomingTracked h t := by
  refine run.inv (P := fun h t => Consistent t ∧ OutgoingTracked h t ∧ IncomingTracked h t) ?_ ?_
  · obtain ⟨disableQuic, now, rfl⟩ := hs
    refine ⟨.withTrafficPolicy disableQuic now, fun key m hm => ?_, fun k m hm => ?_⟩ <;>
      simp [PacketMuxTable.withTrafficPolicy] at hm
  · rintro h t op - ⟨hc, ho, hi⟩
    exact ⟨step_consistent hc op, step_outgoingTracked hc ho op, step_incomingTracked hc hi op⟩

/-! ## The policy -/

/-- A packet that the tunnel sends and that the policy keeps back: one of UDP to
    port 443, or a later fragment of one. -/
def OutgoingRefused (h : List MuxEvent) (packet : Bytes) : Prop :=
  QuicOutgoing packet ∨ ∃ k, parse packet .outgoing = some (.fragment k) ∧
    LastOutgoingQuic h ⟨.tunnel, k⟩

/-- A packet for the tunnel that the policy keeps back. -/
def IncomingRefused (h : List MuxEvent) (t : PacketMuxTable) (packet : Bytes) : Prop :=
  QuicIncoming t packet ∨ ∃ k, parse packet .incoming = some (.fragment k) ∧ LastIncomingQuic h k

theorem outgoing_blocked (hc : Consistent t) (ht : OutgoingTracked h t)
    (hb : t.blocksUdp 443) {op : Op} (hop : op.routed = some (now, .tunnel, packet))
    (hq : OutgoingRefused h packet) : (step t op).2 = .dropped := by
  have hcase := step_cases hc op
  generalize (step t op).1 = t' at hcase
  generalize (step t op).2 = v at hcase ⊢
  cases hcase with
  | @routed _ now' origin' packet' hop' _ sent b hout =>
    rw [hop] at hop'
    cases hop'
    rcases hq with ⟨tuple, fragment, hp, hquic⟩ | ⟨k, hp, hlast⟩
    · rw [hp] at hout
      cases hout with
      | blocked => rfl
      | refused => rfl
      | sent _ _ _ _ _ _ hnb => exact absurd ⟨rfl, quic_iff.2 hquic, hb⟩ hnb
    · rw [hp] at hout
      cases hout with
      | lateDropped => rfl
      | lateSent _ m hm hnb => exact absurd ⟨rfl, ht _ m hm hlast, hb⟩ hnb
  | _ => cases hop

variable {later : Instant}

theorem incoming_blocked (hc : Consistent t) (ht : IncomingTracked h t)
    (hb : t.blocksUdp 443) (unique : Bool) (hq : IncomingRefused h t packet) :
    (step t (.routeOwnedIncoming now later packet unique)).2 = .dropped := by
  have hcase := step_cases hc (.routeOwnedIncoming now later packet unique)
  generalize (step t _).1 = t' at hcase
  generalize (step t _).2 = v at hcase ⊢
  cases hcase with
  | routed hr => cases hr
  | incoming hin hv =>
    rcases hv with ⟨rfl, -⟩ | ⟨routed, -, hr⟩
    · rfl
    exfalso
    rcases hq with ⟨tuple, fragment, flow, hp, hflow, horig, hquic⟩ | ⟨k, hp, hlast⟩
    · cases hin with
      | dropped => cases hr
      | late _ m hp' => rw [hp] at hp'; cases hp'
      | blocked => cases hr
      | delivered _ _ _ _ _ hp' hflow' _ hnb =>
        rw [hp] at hp'
        cases hp'
        rw [hflow] at hflow'
        cases hflow'
        exact hnb ⟨horig, (flow_quic hc hflow).trans (quic_iff.2 hquic), hb⟩
      | error _ _ _ _ _ _ hp' => rw [hp] at hp'; cases hp'
    · cases hin with
      | dropped => cases hr
      | late _ m hp' hm hnb =>
        rw [hp] at hp'
        cases hp'
        exact hnb ⟨(ht k m hm hlast).1, (ht k m hm hlast).2, hb⟩
      | blocked => cases hr
      | delivered _ _ _ _ _ hp' => rw [hp] at hp'; cases hp'
      | error _ _ _ _ _ _ hp' => rw [hp] at hp'; cases hp'

/-- A packet of UDP from port 443 that is delivered to the tunnel is one that the
    policy keeps back. -/
theorem delivered_tunnel_quic (hc : Consistent t) {unique : Bool} {routed : RoutedPacket}
    (hv : (step t (.routeOwnedIncoming now later packet unique)).2 = .delivered routed)
    (ho : routed.origin = .tunnel) (hp : parse packet .incoming = some (.flow tuple fragment))
    (hquic : tuple.protocol = 17 ∧ tuple.remoteId = 443) : QuicIncoming t packet := by
  have hcase := step_cases hc (.routeOwnedIncoming now later packet unique)
  rw [hv] at hcase
  generalize (step t _).1 = t' at hcase
  generalize hw : Verdict.delivered routed = v at hcase
  cases hcase with
  | routed hr => cases hr
  | incoming hin hv' =>
    rcases hv' with ⟨rfl, -⟩ | ⟨routed', rfl, hr⟩
    · cases hw
    cases hw
    cases hin with
    | dropped => cases hr
    | late _ m hp' => rw [hp] at hp'; cases hp'
    | blocked => cases hr
    | delivered _ _ flow _ _ hp' hflow =>
      rw [hp] at hp'
      cases hp'
      exact ⟨tuple, fragment, flow, hp, hflow, (some.inj hr).trans ho, hquic⟩
    | error _ _ _ _ _ _ hp' => rw [hp] at hp'; cases hp'

/-- **While the policy blocks**, no packet of UDP port 443 and no later fragment
    of one passes from or to the tunnel, whatever the policy was in the run so
    far; and a packet of the proxy, in either direction, meets the same verdict
    under every policy. -/
theorem quic_blocked {s t : PacketMuxTable} {h : List MuxEvent} (hs : Initial s)
    (run : Steps step s h t) :
    (t.blocksUdp 443 = true →
      (∀ op now packet, op.routed = some (now, .tunnel, packet) → OutgoingRefused h packet →
        (step t op).2 = .dropped) ∧
      (∀ now later packet unique, IncomingRefused h t packet →
        (step t (.routeOwnedIncoming now later packet unique)).2 = .dropped) ∧
      ∀ now later packet unique routed tuple fragment,
        (step t (.routeOwnedIncoming now later packet unique)).2 = .delivered routed →
        routed.origin = .tunnel →
        parse packet .incoming = some (.flow tuple fragment) →
        ¬ (tuple.protocol = 17 ∧ tuple.remoteId = 443)) ∧
    ∀ b,
      (∀ op now packet, op.routed = some (now, .proxy, packet) →
        (step (t.withPolicy b) op).2 = (step t op).2) ∧
      ∀ now later packet unique routed, routed.origin = .proxy →
        ((step (t.withPolicy b) (.routeOwnedIncoming now later packet unique)).2 =
            .delivered routed ↔
          (step t (.routeOwnedIncoming now later packet unique)).2 = .delivered routed) := by
  obtain ⟨hc, hout, hin⟩ := run_tracked hs run
  refine ⟨fun hb => ⟨?_, ?_, ?_⟩, fun b => ⟨?_, ?_⟩⟩
  · exact fun op now packet hop hq => outgoing_blocked hc hout hb hop hq
  · exact fun now later packet unique hq => incoming_blocked hc hin hb unique hq
  · intro now later packet unique routed tuple fragment hv ho hp hquic
    have hq := delivered_tunnel_quic hc hv ho hp hquic
    rw [incoming_blocked hc hin hb unique (.inl hq)] at hv
    cases hv
  · intro op now packet hop
    have hroute := routeParsedOutgoing_withPolicy t b now packet (parse packet .outgoing)
    have hverdict := congrArg (fun r => (Verdict.ofOutgoing r).2) hroute
    cases op <;> cases hop <;> exact hverdict
  · intro now later packet unique routed ho
    have hdel : ∀ t : PacketMuxTable,
        (step t (.routeOwnedIncoming now later packet unique)).2 = .delivered routed ↔
          (t.routeOwnedIncoming now later packet unique).2 = some routed := by
      intro t
      simp only [step, Verdict.ofIncoming]
      rcases (t.routeOwnedIncoming now later packet unique).2 with _ | routed' <;> simp
    rw [hdel, hdel]
    exact routeOwnedIncoming_withPolicy t b now packet later unique ho

/-- A fragment of a UDP packet from 10.0.0.2, port 4000, to 10.0.0.1, port 443,
    with the given flags and offset. -/
def quicSample (flags offset : UInt8) : Bytes :=
  [0x45, 0, 0, 28, 0, 9, flags, offset, 64, 17, 0, 0, 10, 0, 0, 2, 10, 0, 0, 1,
    15, 160, 1, 187, 0, 8, 0, 0]

/-- The first fragment passes while the policy allows it; once the policy blocks,
    the later fragment of the same datagram is dropped. -/
theorem quic_blocked_late_fragment :
    let t := (step (step (.withTrafficPolicy false 0)
      (.routeOutgoing 1 .tunnel (quicSample 0x20 0))).1 (.setDisableQuic true)).1
    ((withTrafficPolicy false 0).routeOutgoing 1 .tunnel (quicSample 0x20 0)).2.2 = true ∧
    (step t (.routeOutgoing 2 .tunnel (quicSample 0 1))).2 = .dropped := by
  have hforward : ((withTrafficPolicy false 0).routeOutgoing 1 .tunnel
    (quicSample 0x20 0)).2.2 = true := by decide +kernel
  refine ⟨hforward, ?_⟩
  have hsent : (step (.withTrafficPolicy false 0)
      (.routeOutgoing 1 .tunnel (quicSample 0x20 0))).2 =
      .sent ((withTrafficPolicy false 0).routeOutgoing 1 .tunnel (quicSample 0x20 0)).2.1 := by
    rw [step, Verdict.ofOutgoing, if_pos hforward]
  have hp : parse (quicSample 0 1) .outgoing =
      some (.fragment ⟨.v4 0x0a000002, .v4 0x0a000001, 17, 9, 4, 2⟩) := by decide +kernel
  have hquic : QuicOutgoing (quicSample 0x20 0) :=
    ⟨⟨17, .v4 0x0a000002, 4000, .v4 0x0a000001, 443, 20, 26, true⟩,
      some ⟨.v4 0x0a000002, .v4 0x0a000001, 17, 9, 4, 2⟩, by decide +kernel, rfl, rfl⟩
  have hfirst : FirstOutgoing ⟨.tunnel, ⟨.v4 0x0a000002, .v4 0x0a000001, 17, 9, 4, 2⟩⟩
      (quicSample 0x20 0) ⟨.withTrafficPolicy false 0, .routeOutgoing 1 .tunnel (quicSample 0x20 0),
        (step (.withTrafficPolicy false 0) (.routeOutgoing 1 .tunnel (quicSample 0x20 0))).2⟩ :=
    ⟨⟨1, rfl⟩, by decide +kernel, .inl ⟨_, hsent⟩⟩
  refine ((quic_blocked ⟨false, 0, rfl⟩ ((Steps.nil.snoc _).snoc _)).1 (by decide +kernel)).1 _ 2 _
    rfl (.inr ⟨_, hp, _, _, latest_cons.2 (.inr ⟨?_, latest_cons.2 (.inl ⟨⟨_, hfirst⟩, rfl⟩)⟩),
      hfirst, hquic⟩)
  rintro ⟨packet, ⟨now, hr⟩, -⟩
  cases hr

end Usque.PacketMux
