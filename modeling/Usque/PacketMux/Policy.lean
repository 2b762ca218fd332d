/-
  The traffic policy and the packets that do not see it.

  `withPolicy` changes the policy of a table.  A packet of the proxy is routed
  as under any other policy (`routeParsedOutgoing_withPolicy`), and so is a
  packet that comes back to it (`inspectIncoming_withPolicy`).
-/
import Usque.PacketMux.Consistent

namespace Usque.PacketMux
open Lib PacketMuxTable

def PacketMuxTable.withPolicy (t : PacketMuxTable) (b : Bool) : PacketMuxTable :=
  { t with disableQuic := b }

section
variable (t : PacketMuxTable) (b : Bool)

theorem allocateIdentifierLoop_withPolicy (template : WireKey) : ∀ rounds t,
    allocateIdentifierLoop template rounds (t.withPolicy b) =
      (allocateIdentifierLoop template rounds t).map (·.withPolicy b) id
  | 0, t => rfl
  | rounds + 1, t => by
    have ih := allocateIdentifierLoop_withPolicy template rounds
      { t with nextId := advanceId t.nextId }
    simp only [allocateIdentifierLoop, withPolicy] at ih ⊢
    by_cases hfree : { template with localId := t.nextId } ∈ t.reverse <;>
      simp only [hfree, not_true_eq_false, not_false_eq_true, if_true, if_false, ih, Prod.map_apply,
        id]

theorem allocateFragmentIdentifierLoop_withPolicy (template : FragmentKey) : ∀ rounds t,
    allocateFragmentIdentifierLoop template rounds (t.withPolicy b) =
      (allocateFragmentIdentifierLoop template rounds t).map (·.withPolicy b) id
  | 0, t => rfl
  | rounds + 1, t => by
    have ih := allocateFragmentIdentifierLoop_withPolicy template rounds
      { t with nextFragmentId := advanceFragmentId template.identifierWidth t.nextFragmentId }
    simp only [allocateFragmentIdentifierLoop, withPolicy] at ih ⊢
    by_cases hfree : { template with
        identifier := advanceFragmentId template.identifierWidth t.nextFragmentId } ∈
          t.wireFragments <;>
      simp only [hfree, not_true_eq_false, not_false_eq_true, if_true, if_false, ih, Prod.map_apply,
        id]

theorem prepareOutgoingFragment_withPolicy (origin : PacketOrigin) (fragment : FragmentKey) :
    (t.withPolicy b).prepareOutgoingFragment origin fragment =
      (t.prepareOutgoingFragment origin fragment).map (·.withPolicy b) id := by
  have ha := allocateFragmentIdentifierLoop_withPolicy b fragment
    (if fragment.identifierWidth = 2 then 65535 else 65536) t
  simp only [prepareOutgoingFragment, allocateFragmentIdentifier, ha]
  generalize allocateFragmentIdentifierLoop fragment _ t = r
  simp only [withPolicy]
  rcases hm : t.outgoingFragments.lookup ⟨origin, fragment⟩ with _ | m
  · obtain ⟨t1, _ | identifier⟩ := r <;>
      by_cases hlen : t.outgoingFragmentLimit ≤ t.outgoingFragments.len <;>
      by_cases hw : fragment ∈ t.wireFragments <;>
      simp only [hm, hlen, hw, if_true, if_false, Prod.map_apply, id]
  · simp only [hm, Prod.map_apply, id]

theorem preflightFragment_withPolicy (origin : PacketOrigin) (fragment : Option FragmentKey) :
    (t.withPolicy b).preflightFragment origin fragment =
      (t.preflightFragment origin fragment).map (·.withPolicy b) id := by
  cases fragment with
  | none => rfl
  | some k =>
    simp only [preflightFragment, prepareOutgoingFragment_withPolicy]
    obtain ⟨t1, _ | prepared⟩ := t.prepareOutgoingFragment origin k <;> rfl

variable (now : Instant) (origin : PacketOrigin) (packet : Bytes) (tuple : PacketTuple)

theorem commitPrepared_withPolicy (prepared : Option (OriginFragmentKey × FragmentKey))
    (applicationQuic : Bool) :
    (t.withPolicy b).commitPrepared packet prepared now applicationQuic =
      (t.commitPrepared packet prepared now applicationQuic).map (·.withPolicy b) id := by
  rcases prepared with _ | ⟨key, wire⟩
  · rfl
  · simp only [commitPrepared, commitOutgoingFragment, withPolicy]
    rcases t.outgoingFragments.lookup key with _ | m <;> rfl

theorem refreshFlow_withPolicy (m : FlowMapping)
    (prepared : Option (OriginFragmentKey × FragmentKey)) :
    (t.withPolicy b).refreshFlow now origin packet tuple m prepared =
      (t.refreshFlow now origin packet tuple m prepared).map (·.withPolicy b) id := by
  have h := commitPrepared_withPolicy
    { t with
      forward := t.forward.insert (flowKey origin tuple)
        ⟨m.wire, m.originalId, now, m.tcp.observe (tuple.tcpSegment packet) .outgoing⟩ } b now
    (if m.wire.localId ≠ m.originalId then rewriteIdentifier packet tuple m.wire.localId
      else packet) prepared tuple.applicationQuic
  have h1 := congrArg Prod.fst h
  have h2 := congrArg Prod.snd h
  exact Prod.ext h1 (Prod.ext h2 rfl)

theorem publishFlow_withPolicy (wire : WireKey)
    (prepared : Option (OriginFragmentKey × FragmentKey)) :
    (t.withPolicy b).publishFlow now origin packet tuple wire prepared =
      (t.publishFlow now origin packet tuple wire prepared).map (·.withPolicy b) id := by
  have h := commitPrepared_withPolicy
    { t with
      flowScan := t.flowScan ++ [flowKey origin tuple]
      forward := t.forward.insert (flowKey origin tuple)
        ⟨wire, tuple.localId, now, ({} : TcpFlowState).observe (tuple.tcpSegment packet) .outgoing⟩
      reverse := t.reverse.insert wire ⟨flowKey origin tuple⟩ } b now packet prepared
    tuple.applicationQuic
  have h1 := congrArg Prod.fst h
  have h2 := congrArg Prod.snd h
  exact Prod.ext h1 (Prod.ext h2 rfl)

theorem admitFlow_withPolicy (prepared : Option (OriginFragmentKey × FragmentKey)) :
    (t.withPolicy b).admitFlow now origin packet tuple prepared =
      (t.admitFlow now origin packet tuple prepared).map (·.withPolicy b) id := by
  have ha := allocateIdentifierLoop_withPolicy b tuple.wire 16384 t
  simp only [admitFlow, allocateIdentifier, ha, publishFlow_withPolicy]
  generalize allocateIdentifierLoop tuple.wire 16384 t = r
  by_cases hw : tuple.wire ∈ t.reverse
  · have hw' : tuple.wire ∈ (t.withPolicy b).reverse := hw
    obtain ⟨t1, _ | translated⟩ := r <;>
      simp only [hw, hw', if_true, Prod.map_apply, id, publishFlow_withPolicy]
  · have hw' : tuple.wire ∉ (t.withPolicy b).reverse := hw
    simp only [hw, hw', if_false]

theorem routeFlow_withPolicy (fragment : Option FragmentKey) :
    (t.withPolicy b).routeFlow now origin packet tuple fragment =
      (t.routeFlow now origin packet tuple fragment).map (·.withPolicy b) id := by
  simp only [routeFlow, preflightFragment_withPolicy]
  by_cases hfull : flowKey origin tuple ∉ t.forward ∧ t.flowLimit ≤ t.forward.len
  · have hfull' : flowKey origin tuple ∉ (t.withPolicy b).forward ∧
        (t.withPolicy b).flowLimit ≤ (t.withPolicy b).forward.len := hfull
    rw [if_pos hfull, if_pos hfull']
    rfl
  have hfull' : ¬ (flowKey origin tuple ∉ (t.withPolicy b).forward ∧
      (t.withPolicy b).flowLimit ≤ (t.withPolicy b).forward.len) := hfull
  rw [if_neg hfull, if_neg hfull']
  obtain ⟨t1, _ | prepared⟩ := t.preflightFragment origin fragment
  · rfl
  · have hl : (t1.withPolicy b).forward.lookup (flowKey origin tuple) =
      t1.forward.lookup (flowKey origin tuple) := rfl
    simp only [Prod.map_apply, id, hl]
    rcases t1.forward.lookup (flowKey origin tuple) with _ | m
    · exact admitFlow_withPolicy t1 b now origin packet tuple prepared
    · exact refreshFlow_withPolicy t1 b now origin packet tuple m prepared

theorem retirePreviousTcp_withPolicy :
    (t.withPolicy b).retirePreviousTcp origin tuple packet =
      (t.retirePreviousTcp origin tuple packet).withPolicy b := by
  simp only [retirePreviousTcp]
  have hl : (t.withPolicy b).forward.lookup (flowKey origin tuple) =
    t.forward.lookup (flowKey origin tuple) := rfl
  rcases hs : (tuple.tcpSegment packet).filter (·.initialSyn) with _ | segment
  · simp only [hs]
  · rcases hp : t.forward.lookup (flowKey origin tuple) with _ | previous
    · simp only [hs, hl, hp]
    · simp only [hs, hl, hp]
      split_ifs <;> rfl

/-- **A packet of the proxy does not see the policy.** -/
theorem routeParsedOutgoing_withPolicy (parsed : Option ParsedPacket) :
    (t.withPolicy b).routeParsedOutgoing now .proxy packet parsed =
      (t.routeParsedOutgoing now .proxy packet parsed).map (·.withPolicy b) id := by
  rcases parsed with _ | ⟨tuple, fragment⟩ | k
  · rfl
  · have hne : ∀ p, ¬ (PacketOrigin.proxy = .tunnel ∧ p) := fun p h => by cases h.1
    simp only [routeParsedOutgoing, if_neg (hne _), retirePreviousTcp_withPolicy,
      routeFlow_withPolicy]
  · have hne : ∀ p, ¬ (PacketOrigin.proxy = .tunnel ∧ p) := fun p h => by cases h.1
    have hl : (t.withPolicy b).outgoingFragments.lookup ⟨.proxy, k⟩ =
      t.outgoingFragments.lookup ⟨.proxy, k⟩ := rfl
    simp only [routeParsedOutgoing, routeOutgoingFragment, if_neg (hne _)]
    rcases hm : t.outgoingFragments.lookup ⟨.proxy, k⟩ with _ | m
    · simp only [hl, hm, Prod.map_apply, id]
    · simp only [hl, hm]
      split_ifs <;> rfl

/-! ## Incoming packets -/

theorem lookupIncoming_withPolicy (wire : WireKey) (fragment : Option FragmentKey) :
    (t.withPolicy b).lookupIncoming wire fragment =
      (t.lookupIncoming wire fragment).map (·.withPolicy b) id := by
  cases fragment with
  | none => rfl
  | some k =>
    simp only [lookupIncoming, admitIncomingFragment, withPolicy]
    by_cases hw : wire ∈ t.reverse <;> by_cases hk : k ∈ t.incomingFragments <;>
      by_cases hlen : t.incomingFragmentLimit ≤ t.incomingFragments.len <;>
      simp only [hw, hk, hlen, not_true_eq_false, not_false_eq_true, and_true, and_false, and_self,
        if_true, if_false, Prod.map_apply, id]

/-- **What comes back to the proxy does not see the policy.** -/
theorem inspectIncoming_withPolicy (later : Instant) {rewrite : Option IncomingRewrite}
    (h : (t.inspectIncoming now later packet).2 = some (.proxy, rewrite)) :
    ((t.withPolicy b).inspectIncoming now later packet).2 = some (.proxy, rewrite) := by
  have hne : ∀ o p, o = PacketOrigin.proxy → ¬ (o = PacketOrigin.tunnel ∧ p) := by
    rintro o p rfl h; cases h.1
  rcases hp : ParsedPacket.parse packet .incoming with _ | ⟨tuple, fragment⟩ | k
  · simp only [inspectIncoming, hp, inspectIncomingIcmpError, lookupIncoming_withPolicy] at h ⊢
    rcases hq : quotedTuple packet with _ | ⟨n, off, tuple⟩
    · simp only [hq] at h; cases h
    · simp only [hq] at h ⊢
      generalize t.lookupIncoming tuple.wire n.fragment = r at h ⊢
      obtain ⟨t1, _ | flow⟩ := r
      · cases h
      · exact h
  · simp only [inspectIncoming, hp, lookupIncoming_withPolicy] at h ⊢
    generalize t.lookupIncoming tuple.wire fragment = r at h ⊢
    obtain ⟨t1, _ | flow⟩ := r
    · cases h
    · simp only [Prod.map_apply, id] at h ⊢
      have ho : flow.origin = .proxy := by
        split at h
        · cases h
        · exact congrArg Prod.fst (Option.some.inj h)
      rw [if_neg (hne _ _ ho)] at h ⊢
      exact h
  · simp only [inspectIncoming, hp, inspectIncomingFragment] at h ⊢
    have hl : (t.withPolicy b).incomingFragments.lookup k = t.incomingFragments.lookup k := rfl
    rcases hm : t.incomingFragments.lookup k with _ | m
    · simp only [hm] at h; cases h
    · simp only [hl, hm] at h ⊢
      have ho : m.origin = .proxy := by
        split at h
        · cases h
        · exact congrArg Prod.fst (Option.some.inj h)
      rw [if_neg (hne _ _ ho)] at h ⊢
      exact h

theorem routeOwnedIncoming_withPolicy (later : Instant) (unique : Bool) {routed : RoutedPacket}
    (ho : routed.origin = .proxy) :
    ((t.withPolicy b).routeOwnedIncoming now later packet unique).2 = some routed ↔
      (t.routeOwnedIncoming now later packet unique).2 = some routed := by
  have hdir : ∀ (t : PacketMuxTable) (b : Bool),
      (t.routeOwnedIncoming now later packet unique).2 = some routed →
      ((t.withPolicy b).routeOwnedIncoming now later packet unique).2 = some routed := by
    intro t b h
    have hi := @inspectIncoming_withPolicy t b now packet later
    simp only [routeOwnedIncoming] at h ⊢
    generalize t.inspectIncoming now later packet = r at h hi
    generalize (t.withPolicy b).inspectIncoming now later packet = r' at hi ⊢
    obtain ⟨t1, _ | ⟨origin, rewrite⟩⟩ := r
    · cases h
    have horig : origin = .proxy := by
      rw [← ho]; cases rewrite <;> cases h <;> rfl
    subst horig
    obtain ⟨t2, _ | ⟨origin', rewrite'⟩⟩ := r'
    · cases hi rfl
    · cases hi rfl
      cases rewrite <;> exact h
  exact ⟨fun h => hdir (t.withPolicy b) t.disableQuic h, hdir t b⟩

end

end Usque.PacketMux
