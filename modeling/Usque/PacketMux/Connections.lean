/-
  TCP connections and the mappings of their flows.

  A mapping keeps four facts about the packets since its creation: the sequence
  number of the initial SYN that created it, a RST in either direction, and a FIN
  in each.  `inspect_outgoing` decides by them whether an initial SYN belongs to
  the connection of the mapping.
-/
import Usque.PacketMux.Entries
import Usque.PacketMux.Rewrite

namespace Usque.PacketMux
open Lib PacketMuxTable ParsedPacket TcpFlowState TcpSegment List Finmap

variable {f : FlowKey} {e : MuxEvent} {d : Direction} {segment : Option TcpSegment}
  {t : PacketMuxTable} {now : Instant} {packet : Bytes} {h : List MuxEvent}

def TcpSegment.fin (segment : TcpSegment) : Bool := segment.flags &&& 0x01 != 0

def TcpSegment.rst (segment : TcpSegment) : Bool := segment.flags &&& 0x04 != 0

/-! ## Calls that route a packet of a flow -/

/-- The call `e` routed a packet of the flow `f`, with its TCP segment. -/
inductive Carries (f : FlowKey) (e : MuxEvent) : Direction → Option TcpSegment → Prop where
  | outgoing {now : Instant} {packet : Bytes} {tuple : PacketTuple} {fragment : Option FragmentKey}
    {sent : Bytes} (hop : e.input.routed = some (now, f.origin, packet))
    (hp : parse packet .outgoing = some (.flow tuple fragment))
    (hf : flowKey f.origin tuple = f) (hv : e.output = .sent sent) :
    Carries f e .outgoing (tuple.tcpSegment packet)
  | incoming {now later : Instant} {packet : Bytes} {unique : Bool} {tuple : PacketTuple}
    {fragment : Option FragmentKey} {routed : RoutedPacket}
    (hop : e.input = .routeOwnedIncoming now later packet unique)
    (hp : parse packet .incoming = some (.flow tuple fragment))
    (hf : e.before.reverse.lookup tuple.wire = some ⟨f⟩) (hv : e.output = .delivered routed) :
    Carries f e .incoming (tuple.tcpSegment packet)

/-- The call `e` created the mapping of `f`: it routed a packet of the flow that
    found no mapping, or one of a connection that it replaced. -/
def Creates (f : FlowKey) (e : MuxEvent) (segment : Option TcpSegment) : Prop :=
  ∃ now packet tuple fragment sent, e.input.routed = some (now, f.origin, packet) ∧
    parse packet .outgoing = some (.flow tuple fragment) ∧
    flowKey f.origin tuple = f ∧ e.output = .sent sent ∧
    f ∉ (e.before.retirePreviousTcp f.origin tuple packet).forward ∧
    segment = tuple.tcpSegment packet

theorem Carries.unique {d' : Direction} {segment' : Option TcpSegment} (h : Carries f e d segment)
    (h' : Carries f e d' segment') : d' = d ∧ segment' = segment := by
  cases h with
  | outgoing hop hp =>
    cases h' with
    | outgoing hop' hp' =>
      rw [hop] at hop'
      cases hop'
      rw [hp] at hp'
      cases hp'
      exact ⟨rfl, rfl⟩
    | incoming hop' => rw [hop'] at hop; cases hop
  | incoming hop hp =>
    cases h' with
    | outgoing hop' => rw [hop] at hop'; cases hop'
    | incoming hop' hp' =>
      rw [hop] at hop'
      cases hop'
      rw [hp] at hp'
      cases hp'
      exact ⟨rfl, rfl⟩

theorem Creates.carries (h : Creates f e segment) : Carries f e .outgoing segment := by
  obtain ⟨now, packet, tuple, fragment, sent, hop, hp, hf, hv, -, rfl⟩ := h
  exact .outgoing hop hp hf hv

/-! ## The state of a flow after one call -/

def PacketMuxTable.tcpOf (t : PacketMuxTable) (f : FlowKey) : Option TcpFlowState :=
  (t.forward.lookup f).map (·.tcp)

theorem tcpOf_of_sub {t' : PacketMuxTable} (h : t'.forward.Sub t.forward) {s : TcpFlowState}
    (hs : t'.tcpOf f = some s) : t.tcpOf f = some s := by
  obtain ⟨m, hm, rfl⟩ := Option.map_eq_some_iff.1 hs
  exact Option.map_eq_some_iff.2 ⟨m, h f m hm, rfl⟩

theorem tcpSegment_rewriteIdentifier {p : Bytes} {tuple : PacketTuple}
    {fragment : Option FragmentKey}
    (h : parse p .outgoing = some (.flow tuple fragment)) (id : UInt16) :
    tuple.tcpSegment (rewriteIdentifier p tuple id) = tuple.tcpSegment p := by
  obtain ⟨-, hsame⟩ := rewriteIdentifier_same p tuple id
  obtain ⟨n, off, fields, -, -, hf, rfl, -⟩ := parse_flow.1 h
  unfold PacketTuple.tcpSegment
  split_ifs with hno
  · rfl
  rw [not_or, not_not] at hno
  cases hf with
  | ports src dst ck optional hsrc hdst hck =>
    rcases hck with ⟨-, rfl, -⟩ | ⟨h17, -⟩
    · simp only [packetTuple, portOffset, mem_cons, not_mem_nil, or_false,
        forall_eq_or_imp, forall_eq, Nat.add_sub_cancel] at hsame ⊢
      rw [readU32_congr fun i h1 h2 => hsame i ⟨by omega, by omega⟩, hsame _ ⟨by omega, by omega⟩]
    · exact absurd (hno.1.symm.trans h17) (by decide)
  | echo old ty hproto =>
    rcases hproto with h1 | h1 <;> exact absurd (hno.1.symm.trans h1) (by decide)

variable {later : Instant}

section
variable {t t' : PacketMuxTable} {now : Instant} {origin : PacketOrigin} {packet : Bytes}
  {tuple : PacketTuple} {fragment : Option FragmentKey}

theorem commitPrepared_forward (t : PacketMuxTable) (packet : Bytes)
    (prepared : Option (OriginFragmentKey × FragmentKey)) (now : Instant) (q : Bool) :
    (t.commitPrepared packet prepared now q).1.forward = t.forward := by
  rcases prepared with _ | ⟨key, wire⟩
  · rfl
  · simp only [commitPrepared, commitOutgoingFragment]
    split <;> rfl

theorem recordIncomingFragment_forward (t : PacketMuxTable) (fragment : Option FragmentKey)
    (origin : PacketOrigin) (now : Instant) (q : Bool) :
    (t.recordIncomingFragment fragment origin now q).forward = t.forward := by
  cases fragment <;> rfl

theorem routeFlow_tcp (hp : parse packet .outgoing = some (.flow tuple fragment))
    {packet' : Bytes} (h : t.routeFlow now origin packet tuple fragment = (t', packet', true)) :
    ∃ m', t'.forward = t.forward.insert (flowKey origin tuple) m' ∧
      m'.tcp = ((t.tcpOf (flowKey origin tuple)).getD {}).observe (tuple.tcpSegment packet)
        .outgoing := by
  simp only [routeFlow] at h
  split_ifs at h with hfull
  · cases h
  obtain ⟨⟨n, rejections, h1⟩, -⟩ := preflightFragment_spec t origin fragment
  generalize t.preflightFragment origin fragment = r at h h1
  obtain ⟨t1, _ | prepared⟩ := r
  · cases h
  subst h1
  rcases hm : t.forward.lookup (flowKey origin tuple) with _ | m
  · rw [tcpOf, hm]
    have hpubl : ∀ (t1 : PacketMuxTable) (bytes : Bytes) (wire : WireKey),
        t1.publishFlow now origin bytes tuple wire prepared = (t', packet', true) →
        t1.forward = t.forward → tuple.tcpSegment bytes = tuple.tcpSegment packet →
        ∃ m', t'.forward = t.forward.insert (flowKey origin tuple) m' ∧
          m'.tcp = ({} : TcpFlowState).observe (tuple.tcpSegment packet) .outgoing := by
      intro t1 bytes wire hpub hsame hseg
      simp only [publishFlow] at hpub
      obtain ⟨rfl, -⟩ := Prod.mk.inj hpub
      rw [commitPrepared_forward, hsame, hseg]
      exact ⟨_, rfl, rfl⟩
    simp only [hm, PacketMuxTable.admitFlow] at h
    split_ifs at h with hrev
    · obtain ⟨i, h1, -⟩ := allocateIdentifierLoop_spec tuple.wire 16384
        { t with nextFragmentId := n, rejections := rejections }
      rw [allocateIdentifier] at h
      generalize allocateIdentifierLoop tuple.wire 16384 _ = r at h h1
      obtain ⟨t1, _ | id⟩ := r
      · cases h
      · subst h1
        exact hpubl _ _ _ h rfl (tcpSegment_rewriteIdentifier hp id)
    · exact hpubl _ _ _ h rfl rfl
  · rw [tcpOf, hm]
    simp only [hm, refreshFlow] at h
    obtain ⟨rfl, -⟩ := Prod.mk.inj h
    rw [commitPrepared_forward]
    exact ⟨_, rfl, rfl⟩

theorem inspectIncoming_tcp {r : PacketOrigin × Option IncomingRewrite}
    (h : t.inspectIncoming now later packet = (t', some r)) (f : FlowKey) :
    (∃ tuple fragment, parse packet .incoming = some (.flow tuple fragment) ∧
      t.reverse.lookup tuple.wire = some ⟨f⟩ ∧
      t'.tcpOf f = (t.tcpOf f).map (·.observe (tuple.tcpSegment packet) .incoming)) ∨
    ((∀ tuple fragment, parse packet .incoming = some (.flow tuple fragment) →
      t.reverse.lookup tuple.wire ≠ some ⟨f⟩) ∧ t'.tcpOf f = t.tcpOf f) := by
  rw [inspectIncoming] at h
  rcases hp : parse packet .incoming with _ | ⟨tuple, fragment⟩ | k
  · -- an ICMP error refreshes the flow it quotes
    refine .inr ⟨(fun _ _ hp => by cases hp), ?_⟩
    simp only [hp, inspectIncomingIcmpError] at h
    rcases hq : quotedTuple packet with _ | ⟨n, off, tuple⟩
    · simp only [hq] at h
      cases h
    · simp only [hq] at h
      obtain ⟨-, h2⟩ := lookupIncoming_spec t tuple.wire n.fragment
      generalize t.lookupIncoming tuple.wire n.fragment = l at h h2
      obtain ⟨t1, _ | flow⟩ := l
      · cases h
      · obtain ⟨rfl, -, -⟩ := h2 flow rfl
        obtain ⟨rfl, -⟩ := Prod.mk.inj h
        rw [tcpOf, recordIncomingFragment_forward, HashMap.lookup_modify]
        split_ifs with he
        · rw [Option.map_map]; rfl
        · rfl
  · simp only [hp] at h
    obtain ⟨-, h2⟩ := lookupIncoming_spec t tuple.wire fragment
    generalize t.lookupIncoming tuple.wire fragment = l at h h2
    obtain ⟨t1, _ | flow⟩ := l
    · cases h
    obtain ⟨rfl, hr, -⟩ : t1 = t ∧ _ := h2 flow rfl
    dsimp only at h
    by_cases hb : flow.origin = .tunnel ∧ flow.applicationQuic ∧ t1.blocksUdp 443
    · rw [if_pos hb] at h
      cases h
    rw [if_neg hb] at h
    obtain ⟨rfl, -⟩ := Prod.mk.inj h
    by_cases he : flow = f
    · subst he
      refine .inl ⟨tuple, fragment, rfl, hr, ?_⟩
      rw [tcpOf, recordIncomingFragment_forward, HashMap.lookup_modify, if_pos rfl, tcpOf,
        Option.map_map, Option.map_map]
      rfl
    · refine .inr ⟨fun tuple' fragment' hp' hr' => ?_, ?_⟩
      · cases hp'
        rw [hr] at hr'
        cases hr'
        exact he rfl
      · rw [tcpOf, recordIncomingFragment_forward, HashMap.lookup_modify, if_neg (Ne.symm he), tcpOf]
  · refine .inr ⟨(fun _ _ hp => by cases hp), ?_⟩
    simp only [hp, inspectIncomingFragment] at h
    split at h
    · cases h
    · split_ifs at h
      · cases h
      · obtain ⟨rfl, -⟩ := Prod.mk.inj h
        rfl

end

/-- What a call leaves of the TCP state of `f`: the state, as it was or after the
    packet it routed, or that of a new mapping. -/
inductive TcpStep (t : PacketMuxTable) (f : FlowKey) (e : MuxEvent) (s' : TcpFlowState) : Prop where
  | kept (hs : t.tcpOf f = some s') (hno : ∀ d segment, ¬ Carries f e d segment)
  | observed (s : TcpFlowState) (d : Direction) (segment : Option TcpSegment)
    (hs : t.tcpOf f = some s) (hcar : Carries f e d segment)
    (hold : ∀ segment', ¬ Creates f e segment') (heq : s' = s.observe segment d)
    (hrep : d = .outgoing → ∀ g, segment = some g → s.replaces g = false)
  | created (segment : Option TcpSegment) (hnew : Creates f e segment)
    (heq : s' = ({} : TcpFlowState).observe segment .outgoing)

section
variable {t : PacketMuxTable} {f : FlowKey} {s' : TcpFlowState}

theorem not_carries_of_verdict (hs : ∀ sent, e.output ≠ .sent sent)
    (hd : ∀ routed, e.output ≠ .delivered routed) (d : Direction) (segment : Option TcpSegment) :
    ¬ Carries f e d segment := by
  rintro (⟨-, -, -, hv⟩ | ⟨-, -, -, hv⟩)
  · exact hs _ hv
  · exact hd _ hv

variable {origin : PacketOrigin}

theorem carries_routed (hop : e.input.routed = some (now, origin, packet))
    (h : Carries f e d segment) :
    ∃ tuple fragment, parse packet .outgoing = some (.flow tuple fragment) ∧
      f = flowKey origin tuple := by
  cases h with
  | outgoing hop' hp hf =>
    rw [hop] at hop'
    cases hop'
    exact ⟨_, _, hp, hf.symm⟩
  | incoming hop' => rw [hop'] at hop; cases hop

theorem routed_tcp {op : Op} (hop : op.routed = some (now, origin, packet))
    (h : (Verdict.ofOutgoing (t.routeOutgoing now origin packet)).1.tcpOf f = some s') :
    TcpStep t f ⟨t, op, (Verdict.ofOutgoing (t.routeOutgoing now origin packet)).2⟩ s' := by
  rw [routeOutgoing] at h ⊢
  rcases hp : parse packet .outgoing with _ | ⟨tuple, fragment⟩ | k
  · rw [hp] at h
    refine .kept h fun d segment hcar => ?_
    obtain ⟨tuple, fragment, hp', -⟩ := carries_routed hop hcar
    rw [hp] at hp'
    cases hp'
  · rw [hp, routeParsedOutgoing] at h
    rw [routeParsedOutgoing]
    by_cases hb : origin = .tunnel ∧ tuple.applicationQuic ∧ t.blocksUdp 443
    · rw [if_pos hb] at h ⊢
      refine .kept ?_ (not_carries_of_verdict (by rintro _ ⟨⟩) (by rintro _ ⟨⟩))
      cases fragment <;> exact h
    rw [if_neg hb] at h ⊢
    have hsub := (retirePreviousTcp_frame t origin tuple packet).1
    rcases hr : (t.retirePreviousTcp origin tuple packet).routeFlow now origin packet tuple
      fragment with ⟨t', packet', b⟩
    rw [hr] at h
    cases b with
    | false =>
      obtain ⟨-, i, n, rejections, rfl⟩ := routeFlow_refused hr
      exact .kept (tcpOf_of_sub hsub h) (not_carries_of_verdict (by rintro _ ⟨⟩) (by rintro _ ⟨⟩))
    | true =>
      obtain ⟨m', hf', hm'⟩ := routeFlow_tcp hp hr
      simp only [Verdict.ofOutgoing, tcpOf, hf', HashMap.lookup_insert_eq] at h
      split_ifs at h with he
      · subst he
        rw [Option.map_some, Option.some.injEq, hm'] at h
        subst h
        rcases hs : (t.retirePreviousTcp origin tuple packet).tcpOf (flowKey origin tuple)
          with _ | s
        · refine .created _ ⟨now, packet, tuple, fragment, packet', hop, hp, rfl, rfl, ?_, rfl⟩ rfl
          exact lookup_eq_none.1 (Option.map_eq_none_iff.1 hs)
        · refine .observed s .outgoing _ (tcpOf_of_sub hsub hs) (.outgoing hop hp rfl rfl) ?_ rfl ?_
          · rintro segment' ⟨now', p', tuple', fragment', sent, hop', hp', -, -, hnew, -⟩
            rw [hop] at hop'
            cases hop'
            rw [hp] at hp'
            cases hp'
            obtain ⟨m, hm, -⟩ := Option.map_eq_some_iff.1 hs
            exact hnew (mem_of_lookup_eq_some hm)
          · intro _ g hg
            rcases retirePreviousTcp_cases t origin tuple packet with ⟨hid, hno⟩ | ⟨m, -, -, hret⟩
            · rw [hid] at hs
              obtain ⟨m, hm, rfl⟩ := Option.map_eq_some_iff.1 hs
              have hrep := hno m hm
              rwa [PacketTuple.replacesTcp, hg] at hrep
            · rw [hret, tcpOf, lookup_erase] at hs
              cases hs
      · refine .kept (tcpOf_of_sub hsub h) fun d segment hcar => ?_
        obtain ⟨tuple', fragment', hp', hf⟩ := carries_routed hop hcar
        rw [hp] at hp'
        cases hp'
        exact he hf
  · refine .kept ?_ fun d segment hcar => ?_
    · rw [hp, routeParsedOutgoing, routeOutgoingFragment] at h
      split at h
      · exact h
      · split_ifs at h <;> exact h
    · obtain ⟨tuple, fragment, hp', -⟩ := carries_routed hop hcar
      rw [hp] at hp'
      cases hp'

theorem incoming_tcp {unique : Bool}
    (h : (Verdict.ofIncoming (t.routeOwnedIncoming now later packet unique)).1.tcpOf f = some s') :
    TcpStep t f ⟨t, .routeOwnedIncoming now later packet unique,
      (Verdict.ofIncoming (t.routeOwnedIncoming now later packet unique)).2⟩ s' := by
  have hfst := routeOwnedIncoming_fst t now later packet unique
  have horig := routeOwnedIncoming_origin t now later packet unique
  rw [Verdict.ofIncoming, hfst] at h
  rw [Verdict.ofIncoming]
  rcases hr : (t.routeOwnedIncoming now later packet unique).2 with _ | routed
  · -- a dropped packet changes no flow
    have hfwd : (t.inspectIncoming now later packet).1.forward = t.forward :=
      (routeOwnedIncoming_none (Prod.ext hfst hr)).forward
    rw [tcpOf, hfwd] at h
    exact .kept h (not_carries_of_verdict (by rintro _ ⟨⟩) (by rintro _ ⟨⟩))
  · rw [hr, Option.map_some, eq_comm, Option.map_eq_some_iff] at horig
    obtain ⟨r, hr', -⟩ := horig
    rcases inspectIncoming_tcp (Prod.ext rfl hr') f with
      ⟨tuple, fragment, hp, hrev, heq⟩ | ⟨hno, heq⟩
    · rw [heq, Option.map_eq_some_iff] at h
      obtain ⟨s, hs, rfl⟩ := h
      refine .observed s .incoming _ hs (.incoming rfl hp hrev rfl) (fun segment' hnew => ?_) rfl
        (by rintro ⟨⟩)
      obtain ⟨_, _, _, _, _, hop, _⟩ := hnew
      cases hop
    · rw [heq] at h
      refine .kept h fun d segment hcar => ?_
      cases hcar with
      | outgoing hop => cases hop
      | incoming hop hp hf =>
        cases hop
        exact hno _ _ hp hf

/-- **The TCP state of a flow after one call.** -/
theorem step_tcp (hc : Consistent t) (op : Op) (h : (step t op).1.tcpOf f = some s') :
    TcpStep t f ⟨t, op, (step t op).2⟩ s' := by
  have hquiet : (step t op).1.forward.Sub t.forward →
      (∀ sent, (step t op).2 ≠ .sent sent) → (∀ routed, (step t op).2 ≠ .delivered routed) →
      TcpStep t f ⟨t, op, (step t op).2⟩ s' :=
    fun hsub hs hd => .kept (tcpOf_of_sub hsub h) (not_carries_of_verdict hs hd)
  cases op with
  | routeOutgoing => exact routed_tcp rfl h
  | routeInspectedOutgoing => exact routed_tcp rfl h
  | routeOwnedIncoming => exact incoming_tcp h
  | inspectOutgoing origin packet =>
    refine hquiet ?_ (by rintro _ ⟨⟩) (by rintro _ ⟨⟩)
    simp only [step, inspectOutgoing]
    split
    · exact (retirePreviousTcp_frame t origin _ packet).1
    · exact .refl _
    · exact .refl _
  | maintain now =>
    exact hquiet (maintain_sub hc now).1 (by rintro _ ⟨⟩) (by rintro _ ⟨⟩)
  | setDisableQuic =>
    exact hquiet (.refl _) (by rintro _ ⟨⟩) (by rintro _ ⟨⟩)

end

/-! ## What the state sums up -/

section
variable (s : TcpFlowState) (segment : Option TcpSegment) (d : Direction)

theorem observe_reset : (s.observe segment d).reset ↔ s.reset ∨ ∃ g, segment = some g ∧ g.rst := by
  cases segment with
  | none => simp [observe]
  | some => simp [observe, rst]

theorem observe_localFin : (s.observe segment d).localFin ↔
    s.localFin ∨ (d = .outgoing ∧ ∃ g, segment = some g ∧ g.fin) := by
  cases segment with
  | none => simp [observe]
  | some => cases d <;> simp [observe, fin, or_comm]

theorem observe_remoteFin : (s.observe segment d).remoteFin ↔
    s.remoteFin ∨ (d = .incoming ∧ ∃ g, segment = some g ∧ g.fin) := by
  cases segment with
  | none => simp [observe]
  | some => cases d <;> simp [observe, fin, or_comm]

/-- A packet that does not replace the connection leaves its initial sequence
    number as it is. -/
theorem observe_initialSequence
    (h : d = .outgoing → ∀ g, segment = some g → s.replaces g = false) :
    (s.observe segment d).initialSequence = s.initialSequence := by
  cases segment with
  | none => rfl
  | some g =>
    simp only [observe]
    split_ifs with hsyn
    · have hrep := h hsyn.1 g rfl
      rw [replaces, hsyn.2, Bool.true_and, Bool.or_assoc, Bool.or_eq_false_iff] at hrep
      exact (bne_eq_false_iff_eq.1 hrep.1).symm
    · rfl

end

/-- A packet of `f` with the property `P` was routed in `l`, in the direction `d`. -/
def Seen (f : FlowKey) (l : List MuxEvent) (d : Direction) (P : TcpSegment → Bool) : Prop :=
  ∃ e ∈ l, ∃ segment, Carries f e d (some segment) ∧ P segment = true

/-- `s` sums up the mapping of `f` that was created with the segment `first`, and
    the calls `l` since. -/
structure Summary (f : FlowKey) (first : Option TcpSegment) (l : List MuxEvent)
    (s : TcpFlowState) : Prop where
  sequence : s.initialSequence = (first.filter (·.initialSyn)).map (·.sequence)
  reset : s.reset = true ↔ first.any (·.rst) = true ∨ ∃ d, Seen f l d (·.rst)
  localFin : s.localFin = true ↔ first.any (·.fin) = true ∨ Seen f l .outgoing (·.fin)
  remoteFin : s.remoteFin = true ↔ Seen f l .incoming (·.fin)

section
variable {f : FlowKey} {e : MuxEvent} {l : List MuxEvent} {first : Option TcpSegment}
  {s : TcpFlowState}

theorem seen_cons {P : TcpSegment → Bool} :
    Seen f (e :: l) d P ↔ (∃ segment, Carries f e d (some segment) ∧ P segment) ∨ Seen f l d P :=
  exists_mem_cons_iff ..

theorem Summary.created (first : Option TcpSegment) :
    Summary f first [] (({} : TcpFlowState).observe first .outgoing) := by
  have hseen : ∀ d P, ¬ Seen f [] d P := by
    rintro d P ⟨e, he, -⟩
    cases he
  refine ⟨?_, ?_, ?_, ?_⟩
  · cases first with
    | none => rfl
    | some g => by_cases hg : g.initialSyn <;> simp [observe, hg]
  · rw [observe_reset]
    cases first <;> simp [hseen]
  · rw [observe_localFin]
    cases first <;> simp [hseen]
  · rw [observe_remoteFin]
    simp [hseen]

theorem Summary.other (h : Summary f first l s) (hno : ∀ d segment, ¬ Carries f e d segment) :
    Summary f first (e :: l) s := by
  have hseen : ∀ d P, Seen f (e :: l) d P ↔ Seen f l d P := by
    intro d P
    rw [seen_cons]
    exact or_iff_right fun ⟨segment, hcar, _⟩ => hno d _ hcar
  exact ⟨h.sequence, by simp only [h.reset, hseen], by rw [h.localFin, hseen],
    by rw [h.remoteFin, hseen]⟩

theorem Summary.observed (h : Summary f first l s) (hcar : Carries f e d segment)
    (hrep : d = .outgoing → ∀ g, segment = some g → s.replaces g = false) :
    Summary f first (e :: l) (s.observe segment d) := by
  -- the packet of the call is the only one it carries
  have hseen : ∀ d' P, Seen f (e :: l) d' P ↔
      (d = d' ∧ ∃ g, segment = some g ∧ P g) ∨ Seen f l d' P := by
    intro d' P
    rw [seen_cons]
    refine or_congr_left ⟨?_, ?_⟩
    · rintro ⟨g, hg, hP⟩
      obtain ⟨rfl, rfl⟩ := hcar.unique hg
      exact ⟨rfl, g, rfl, hP⟩
    · rintro ⟨rfl, g, rfl, hP⟩
      exact ⟨g, hcar, hP⟩
  refine ⟨?_, ?_, ?_, ?_⟩
  · rw [observe_initialSequence s segment d hrep, h.sequence]
  · rw [observe_reset, h.reset]
    simp only [hseen, exists_or, exists_and_right, exists_eq', true_and]
    rw [or_right_comm, or_assoc]
  · rw [observe_localFin, h.localFin, hseen, or_right_comm, or_assoc]
  · rw [observe_remoteFin, h.remoteFin, hseen, or_comm]

end

/-! ## Runs -/

/-- The history `h`, the last call first, says of the latest mapping of `f` that it
    was created with the segment `first`, and `l` are the calls since. -/
inductive Life (f : FlowKey) (first : Option TcpSegment) :
    List MuxEvent → List MuxEvent → Prop where
  | created {e : MuxEvent} (h : List MuxEvent) (hnew : Creates f e first) : Life f first (e :: h) []
  | later {e : MuxEvent} {h l : List MuxEvent} (hl : Life f first h l)
    (hno : ∀ segment, ¬ Creates f e segment) : Life f first (e :: h) (e :: l)

theorem Life.unique {l l' : List MuxEvent} {first first' : Option TcpSegment}
    (hl : Life f first h l) (hl' : Life f first' h l') : first' = first ∧ l' = l := by
  induction hl generalizing l' with
  | created h hnew =>
    cases hl' with
    | created _ hnew' => exact ⟨(hnew.carries.unique hnew'.carries).2, rfl⟩
    | later _ hno => exact absurd hnew (hno _)
  | later _ hno ih =>
    cases hl' with
    | created _ hnew' => exact absurd hnew' (hno _)
    | later hl' =>
      obtain ⟨rfl, rfl⟩ := ih hl'
      exact ⟨rfl, rfl⟩

/-- Every mapping sums up its life. -/
def Tracked (h : List MuxEvent) (t : PacketMuxTable) : Prop :=
  ∀ f s, t.tcpOf f = some s → ∃ first l, Life f first h l ∧ Summary f first l s

theorem step_tracked (hc : Consistent t) (ih : Tracked h t) (op : Op) :
    Tracked (⟨t, op, (step t op).2⟩ :: h) (step t op).1 := by
  intro f s' hs'
  cases step_tcp hc op hs' with
  | kept hs hno =>
    obtain ⟨first, l, hlife, hsum⟩ := ih f s' hs
    exact ⟨first, _, hlife.later fun segment hnew => hno _ _ hnew.carries, hsum.other hno⟩
  | observed s _ _ hs hcar hold heq hrep =>
    obtain ⟨first, l, hlife, hsum⟩ := ih f s hs
    rw [heq]
    exact ⟨first, _, hlife.later hold, hsum.observed hcar hrep⟩
  | created segment hnew heq =>
    rw [heq]
    exact ⟨segment, [], .created h hnew, .created segment⟩

/-- **Every mapping sums up its life**, in every run. -/
theorem run_tracked_tcp {s : PacketMuxTable} (hs : Initial s) (run : Steps step s h t) :
    Tracked h t := by
  refine run.inv (P := Tracked) ?_ fun _ _ op run ih =>
    step_tracked (Reachable.consistent ⟨s, _, hs, run⟩) ih op
  obtain ⟨q, now, rfl⟩ := hs
  intro f s' hs'
  cases hs'

/-- The mapping of `f` belongs to the connection of the initial SYN with the given
    sequence number: that SYN created it, and since then no RST and not a FIN in
    both directions were routed. -/
def SameConnection (h : List MuxEvent) (f : FlowKey) (sequence : UInt32) : Prop :=
  ∃ syn l, Life f (some syn) h l ∧ syn.initialSyn = true ∧ syn.sequence = sequence ∧
    (∀ d, ¬ Seen f l d (·.rst)) ∧ ¬ (Seen f l .outgoing (·.fin) ∧ Seen f l .incoming (·.fin))

theorem initialSyn_flags {segment : TcpSegment} (h : segment.initialSyn) :
    segment.fin = false ∧ segment.rst = false := by
  rw [initialSyn, beq_iff_eq] at h
  have hsub : ∀ mask : UInt8, 0x17 &&& mask = mask → segment.flags &&& mask = 0x02 &&& mask := by
    intro mask hmask
    rw [← h, UInt8.and_assoc, hmask]
  rw [fin, rst, hsub 0x01 (by decide), hsub 0x04 (by decide)]
  decide

theorem sameConnection_iff {l : List MuxEvent} {first : Option TcpSegment} {s : TcpFlowState}
    (hlife : Life f first h l) (hsum : Summary f first l s) {segment : TcpSegment}
    (hsyn : segment.initialSyn) :
    SameConnection h f segment.sequence ↔ s.replaces segment = false := by
  rw [replaces, hsyn, Bool.true_and, Bool.or_eq_false_iff, Bool.or_eq_false_iff,
    bne_eq_false_iff_eq, hsum.sequence, ← Bool.not_eq_true, ← Bool.not_eq_true, Bool.and_eq_true,
    hsum.reset, hsum.localFin, hsum.remoteFin]
  constructor
  · rintro ⟨syn, l', hlife', hsyn', hseq, hrst, hfin⟩
    obtain ⟨rfl, rfl⟩ := hlife.unique hlife'
    obtain ⟨h1, h2⟩ := initialSyn_flags hsyn'
    simp only [Option.filter_some, hsyn', if_true, Option.map_some, hseq, Option.any_some, h1, h2,
      Bool.false_eq_true, false_or, true_and]
    exact ⟨not_exists.2 hrst, hfin⟩
  · rintro ⟨⟨hseq, hrst⟩, hfin⟩
    obtain ⟨syn, hfst, hsyn'⟩ := Option.map_eq_some_iff.1 hseq
    obtain ⟨rfl, hsyn''⟩ := Option.filter_eq_some_iff.1 hfst
    rw [not_or, not_exists] at hrst
    exact ⟨syn, l, hlife, hsyn'', hsyn', hrst.2, fun hboth => hfin ⟨.inr hboth.1, hboth.2⟩⟩

/-- **The connection identity of a flow.** -/
theorem connection_identity {s t : PacketMuxTable} {h : List MuxEvent} (hs : Initial s)
    (run : Steps step s h t) {origin : PacketOrigin} {packet : Bytes} {tuple : PacketTuple}
    {fragment : Option FragmentKey} (hp : parse packet .outgoing = some (.flow tuple fragment)) :
    -- an initial SYN is owned by the mapping of its own connection only
    (∀ segment, tuple.tcpSegment packet = some segment → segment.initialSyn = true →
      ((t.inspectOutgoing origin packet).2.owned = true ↔
        flowKey origin tuple ∈ t.forward ∧
          SameConnection h (flowKey origin tuple) segment.sequence)) ∧
    -- any other packet by the mapping of its tuple
    ((∀ segment, tuple.tcpSegment packet = some segment → segment.initialSyn = false) →
      ((t.inspectOutgoing origin packet).2.owned = true ↔ flowKey origin tuple ∈ t.forward)) := by
  have howned : (t.inspectOutgoing origin packet).2.owned = true ↔
      flowKey origin tuple ∈ (t.retirePreviousTcp origin tuple packet).forward := by
    simp only [inspectOutgoing, hp, decide_eq_true_eq]
  rw [howned]
  constructor
  · intro segment hseg hsyn
    have hrep : ∀ m, t.forward.lookup (flowKey origin tuple) = some m →
        (SameConnection h (flowKey origin tuple) segment.sequence ↔
          tuple.replacesTcp packet m = false) := by
      intro m hm
      obtain ⟨first, l, hlife, hsum⟩ := run_tracked_tcp hs run (flowKey origin tuple) m.tcp
        (by rw [tcpOf, hm, Option.map_some])
      rw [sameConnection_iff hlife hsum hsyn, PacketTuple.replacesTcp, hseg, Option.any_some]
    rcases retirePreviousTcp_cases t origin tuple packet with ⟨hid, hno⟩ | ⟨m, hm, hr, hret⟩
    · rw [hid]
      refine ⟨fun hmem => ⟨hmem, ?_⟩, And.left⟩
      obtain ⟨m, hm⟩ := Finmap.mem_iff.1 hmem
      exact (hrep m hm).2 (hno m hm)
    · rw [hret]
      refine ⟨fun hmem => absurd rfl (Finmap.mem_erase.1 hmem).1, fun hsame => ?_⟩
      rw [(hrep m hm).1 hsame.2] at hr
      cases hr
  · intro hno
    rcases retirePreviousTcp_cases t origin tuple packet with ⟨hid, -⟩ | ⟨m, hm, hr, hret⟩
    · rw [hid]
    · rw [PacketTuple.replacesTcp, Option.any_eq_true_iff_get] at hr
      obtain ⟨hsome, hr⟩ := hr
      rw [replaces, hno _ (Option.some_get hsome).symm] at hr
      cases hr

/-- A TCP segment from 10.0.0.2, port 4000, to 10.0.0.1, port 443, with sequence
    number 7. -/
def tcpSample (flags : UInt8) : Bytes :=
  [0x45, 0, 0, 40, 0, 0, 0, 0, 64, 6, 0, 0, 10, 0, 0, 2, 10, 0, 0, 1,
    15, 160, 1, 187, 0, 0, 0, 7, 0, 0, 0, 0, 80, flags, 0, 0, 0, 0, 0, 0]

def tcpSampleTuple : PacketTuple :=
  ⟨6, .v4 0x0a000002, 4000, .v4 0x0a000001, 443, 20, 36, false⟩

def tcpSampleRun : List MuxEvent × PacketMuxTable :=
  replay step (.withTrafficPolicy false 0) [.routeOutgoing 1 .tunnel (tcpSample 0x02)]

/-- The SYN again is owned: it is the SYN of the mapping's connection. -/
theorem connection_identity_retransmission :
    (tcpSampleRun.2.inspectOutgoing .tunnel (tcpSample 0x02)).2.owned = true ∧
      SameConnection tcpSampleRun.1 (flowKey .tunnel tcpSampleTuple) 7 := by
  have howned : (tcpSampleRun.2.inspectOutgoing .tunnel (tcpSample 0x02)).2.owned = true := by
    decide +kernel
  have hp : parse (tcpSample 0x02) .outgoing = some (.flow tcpSampleTuple none) := by
    decide +kernel
  have hseg : tcpSampleTuple.tcpSegment (tcpSample 0x02) = some ⟨7, 0x02⟩ := by decide +kernel
  have hrun : Steps step (.withTrafficPolicy false 0) tcpSampleRun.1 tcpSampleRun.2 :=
    steps_replay _ _
  exact ⟨howned, (((connection_identity ⟨false, 0, rfl⟩ hrun hp).1 _ hseg (by decide)).1 howned).2⟩

end Usque.PacketMux
