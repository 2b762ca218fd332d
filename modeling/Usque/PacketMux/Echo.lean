/-
  The round trip of ICMP echo flows.

  An echo message has one identifier, which is both the local and the remote
  identifier of its tuple.  A translated echo request is published under a wire
  key whose local identifier is the new one and whose remote identifier is the
  old one, while its reply parses with the new one in both places: the reply is
  not found (`echo_translated_reply_lost`).  The flows that are not translated
  come back.
-/
import Usque.PacketMux.Translate
import Usque.PacketMux.Entries
import Usque.PacketMux.Fragment

namespace Usque.PacketMux
open Lib PacketMuxTable ParsedPacket

variable {p : Bytes} {tuple : PacketTuple} {fragment : Option FragmentKey} {t : PacketMuxTable}

/-- The protocols whose flows are echo flows: ICMP and ICMPv6. -/
def IsEcho (protocol : UInt8) : Prop := protocol = 1 ∨ protocol = 58

theorem parse_echo {direction : Direction}
    (h : parse p direction = some (.flow tuple fragment)) (he : IsEcho tuple.protocol) :
    tuple.remoteId = tuple.localId := by
  obtain ⟨n, off, fields, -, -, hf, rfl, -⟩ := parse_flow.1 h
  cases hf with
  | ports src dst ck optional _ _ hck =>
    have hp : (packetTuple direction n ⟨src, dst, portOffset off direction, ck, optional⟩).protocol =
        n.protocol := by cases direction <;> rfl
    rw [hp] at he
    rcases he with h1 | h1 <;> rcases hck with ⟨h2, -⟩ | ⟨h2, -⟩ <;> rw [h1] at h2 <;> cases h2
  | echo => cases direction <;> rfl

/-- A call routes no new echo request under an identifier that a live echo flow
    to the same remote address already uses on the wire. -/
def EchoFresh (t : PacketMuxTable) (op : Op) : Prop :=
  ∀ now origin packet tuple fragment, op.routed = some (now, origin, packet) →
    parse packet .outgoing = some (.flow tuple fragment) → IsEcho tuple.protocol →
    flowKey origin tuple ∉ t.forward → t.forward.len < t.flowLimit →
    ∀ f m, t.forward.lookup f = some m → IsEcho f.protocol →
      f.remoteAddress = tuple.remoteAddress → m.wire.localId ≠ tuple.localId

/-- No echo flow is translated, and none shares its identifier with another one
    to the same remote address. -/
structure EchoDistinct (t : PacketMuxTable) : Prop where
  plain : ∀ f m, t.forward.lookup f = some m → IsEcho f.protocol →
    m.wire = f.wire ∧ f.remoteId = f.localId
  distinct : ∀ f m f' m', t.forward.lookup f = some m → t.forward.lookup f' = some m' →
    IsEcho f.protocol → IsEcho f'.protocol → f.remoteAddress = f'.remoteAddress →
    m.wire.localId = m'.wire.localId → f = f'

theorem not_isEcho_tcp (h : IsEcho tuple.protocol) : tuple.protocol ≠ 6 := by
  rcases h with h | h <;> rw [h] <;> decide

variable {origin : PacketOrigin} {wire : WireKey} {now : Instant} {op : Op}

/-- A new echo flow under the condition keeps its identifier, and no other echo
    flow to the remote address uses it. -/
theorem published_echo (hc : Consistent t) (hop : EchoFresh t op) {packet : Bytes}
    (hr : op.routed = some (now, origin, packet))
    (hp : parse packet .outgoing = some (.flow tuple fragment)) (he : IsEcho tuple.protocol)
    (hnew : FlowPublished (t.retirePreviousTcp origin tuple packet) (flowKey origin tuple) wire) :
    wire = tuple.wire ∧
    ∀ f m, t.forward.lookup f = some m → IsEcho f.protocol →
      f.remoteAddress = tuple.remoteAddress → m.wire.localId ≠ tuple.localId := by
  have hid : t.retirePreviousTcp origin tuple packet = t :=
    ((retirePreviousTcp_cases t origin tuple packet).resolve_right
      fun ⟨_, _, h6, _⟩ => not_isEcho_tcp he (replacesTcp_protocol h6)).1
  rw [hid] at hnew
  have hne := hop now origin packet tuple fragment hr hp he (Finmap.lookup_eq_none.1 hnew.fresh)
    hnew.room
  refine ⟨hnew.untranslated fun hmem => ?_, hne⟩
  -- the flow that holds the wire key would use the identifier
  rcases hl : t.reverse.lookup tuple.wire with _ | r
  · exact Finmap.lookup_eq_none.1 hl hmem
  · obtain ⟨m, hm, hw, hok, -⟩ := hc.forward_lookup hl
    rw [hw] at hok
    have hproto : r.flow.protocol = tuple.protocol := congrArg WireKey.protocol hok.symm
    have haddr : r.flow.remoteAddress = tuple.remoteAddress :=
      congrArg WireKey.remoteAddress hok.symm
    exact hne r.flow m hm (by rw [hproto]; exact he) haddr (by rw [hw]; rfl)

/-- **One call under the condition keeps the echo flows distinct.** -/
theorem step_echo (hc : Consistent t) (he : EchoDistinct t) (hop : EchoFresh t op) :
    EchoDistinct (step t op).1 := by
  refine ⟨fun f m hm hf => ?_, fun f m f' m' hm hm' hf hf' hr hw => ?_⟩
  · rcases step_forward hc op hm with ⟨m0, hm0, hw⟩ | ⟨now, origin, packet, tuple, fragment, hrt, hp,
      rfl, hnew⟩
    · rw [hw]; exact he.plain f m0 hm0 hf
    · exact ⟨(published_echo hc hop hrt hp hf hnew).1, parse_echo hp hf⟩
  · rcases step_forward hc op hm with ⟨m0, hm0, hw0⟩ | ⟨now, origin, packet, tuple, fragment, hrt, hp,
      rfl, hnew⟩
    · rcases step_forward hc op hm' with ⟨m1, hm1, hw1⟩ | ⟨now, origin, packet, tuple, fragment, hrt,
        hp, rfl, hnew⟩
      · rw [hw0, hw1] at hw
        exact he.distinct f m0 f' m1 hm0 hm1 hf hf' hr hw
      · obtain ⟨h1, h2⟩ := published_echo hc hop hrt hp hf' hnew
        rw [hw0, h1] at hw
        exact absurd hw (h2 f m0 hm0 hf hr)
    · obtain ⟨h1, h2⟩ := published_echo hc hop hrt hp hf hnew
      rcases step_forward hc op hm' with ⟨m1, hm1, hw1⟩ | ⟨_, _, _, _, _, hrt', hp', rfl, -⟩
      · rw [h1, hw1] at hw
        exact absurd hw.symm (h2 f' m1 hm1 hf' hr.symm)
      · rw [hrt] at hrt'
        cases hrt'
        rw [hp] at hp'
        cases hp'
        rfl

theorem run_echo {s : PacketMuxTable} {h : List MuxEvent} (hc : Consistent s) (he : EchoDistinct s)
    (run : Steps step s h t) (hfrs : ∀ e ∈ h, EchoFresh e.before e.input) :
    Consistent t ∧ EchoDistinct t := by
  refine run.inv (P := fun h t => (∀ e ∈ h, EchoFresh e.before e.input) →
    Consistent t ∧ EchoDistinct t) (fun _ => ⟨hc, he⟩) (fun h t op _ ih hh => ?_) hfrs
  obtain ⟨hc, he⟩ := ih fun e hmem => hh e (List.mem_cons_of_mem _ hmem)
  exact ⟨step_consistent hc op, step_echo hc he (hh _ (List.mem_cons_self ..))⟩

theorem readU16_translateFragment {n : NetworkPacket} {k : FragmentKey} {off x : ℕ}
    (hn : parseNetworkPacket p = some n) (ho : n.transportOffset = some off)
    (hk : n.fragment = some k) (hx : off ≤ x) (id : UInt32) :
    readU16 (translateFragment p k id) x = readU16 p x := by
  rw [translateFragment]
  split_ifs
  · cases fragment_places hn hk with
    | v4 old hold hkey hlen hoff =>
      have h20 := hoff off ho
      have hsame := (rewriteFragment_v4 (k := k) (by rw [hkey]) (by rw [hkey]) hlen id).1.2
      exact readU16_congr fun i h1 h2 => hsame i (by simp; omega)
    | v6 hw hs hd hid hoff =>
      have h4 := hoff off ho
      have hne : k.identifierWidth ≠ 2 := by rw [hw]; decide
      rw [rewriteFragmentIdentifier, if_neg hne, if_pos hw]
      exact readU16_congr fun i h1 h2 => getElem?_writeU32 p id (by omega)
  · rfl

/-- An echo reply `q` to a request of `tuple` that left with the identifier `id`. -/
structure EchoReply (tuple : PacketTuple) (id : UInt16) (q : Bytes) (back : PacketTuple)
    (fragment : Option FragmentKey) : Prop where
  parse : parse q .incoming = some (.flow back fragment)
  protocol : back.protocol = tuple.protocol
  localAddress : back.localAddress = tuple.localAddress
  remoteAddress : back.remoteAddress = tuple.remoteAddress
  identifier : back.localId = id

theorem sent_identifier {t' : PacketMuxTable} {p' : Bytes} {fw : FragmentKey}
    (hp : parse p .outgoing = some (.flow tuple fragment))
    (hs : Sent t now origin p tuple fragment wire fw t' p') (hid : wire.localId = tuple.localId) :
    readU16 p' tuple.identifierOffset = some tuple.localId := by
  have htr : translate p tuple wire.localId = p := translate_self hid
  obtain ⟨off, hst, -, hread, i, j, -, hi, -⟩ := parse_places hp
  cases hk : fragment with
  | none => rw [hs.bytes_whole hk, htr, hread]
  | some k =>
    obtain ⟨n, off', fields, hn, ho, -, -, hf⟩ := parse_flow.1 hp
    rw [transportStart, hn, Option.bind_some, ho] at hst
    cases hst
    rw [hs.bytes_first k hk, htr,
      readU16_translateFragment hn ho (hf.symm.trans hk) (by omega), hread]

/-- **The round trip of an echo flow**, in every run whose calls route no new echo
    request under an identifier already used with its remote address. -/
theorem echo_round_trip {s t : PacketMuxTable} {h : List MuxEvent}
    (hs : Initial s) (run : Steps step s h t) (hfresh : ∀ e ∈ h, EchoFresh e.before e.input) :
    -- no two live echo flows to one remote address are sent with one identifier
    (∀ f m f' m', t.forward.lookup f = some m → t.forward.lookup f' = some m' →
      IsEcho f.protocol → IsEcho f'.protocol → f.remoteAddress = f'.remoteAddress →
      m.wire.localId = m'.wire.localId → f = f') ∧
    -- the reply to an admitted request is delivered while its flow is live
    ∀ now origin p tuple fragment t' p',
      parse p .outgoing = some (.flow tuple fragment) → IsEcho tuple.protocol →
      EchoFresh t (.routeOutgoing now origin p) → t.routeOutgoing now origin p = (t', p', true) →
      ∃ id, readU16 p' tuple.identifierOffset = some id ∧
        ∀ h' t'', Steps step t' h' t'' → (∀ e ∈ h', EchoFresh e.before e.input) →
          flowKey origin tuple ∈ t''.forward →
          ∀ now later unique q back fragment', EchoReply tuple id q back fragment' →
            IncomingRoom t'' fragment' →
            ∃ q' copied, (t''.routeOwnedIncoming now later q unique).2 = some ⟨origin, q', copied⟩ ∧
              readU16 q' back.identifierOffset = some tuple.localId := by
  have hempty : EchoDistinct s := by
    obtain ⟨disableQuic, now, rfl⟩ := hs
    refine ⟨fun f m hm => ?_, fun f m f' m' hm => ?_⟩ <;>
      simp [PacketMuxTable.withTrafficPolicy] at hm
  obtain ⟨hc, he⟩ := run_echo hs.consistent hempty run hfresh
  refine ⟨he.distinct, fun now origin p tuple fragment t' p' hp hecho hop hsend => ?_⟩
  have hstep : step t (.routeOutgoing now origin p) = (t', .sent p') := by
    rw [step, hsend]; rfl
  have hc' := step_consistent hc (.routeOutgoing now origin p)
  have he' := step_echo hc he hop
  rw [hstep] at hc' he'
  refine ⟨tuple.localId, ?_, ?_⟩
  · have hcase := routeParsedOutgoing_cases hc hsend
    rw [hp] at hcase
    cases hcase with
    | sent _ _ _ _ _ _ _ hsent =>
      refine sent_identifier hp hsent ?_
      obtain ⟨m, hm, hw⟩ := hsent.live
      have hplain := (he'.plain _ m hm hecho).1
      rw [← hw, hplain]
      rfl
  · intro h' t'' run' hfresh' hlive now later unique q back fragment' hrep hroom
    obtain ⟨hc'', he''⟩ := run_echo hc' he' run' hfresh'
    rcases hm : t''.forward.lookup (flowKey origin tuple) with _ | m
    · exact absurd hlive (Finmap.lookup_eq_none.1 hm)
    obtain ⟨hplain, hsym⟩ := he''.plain _ m hm hecho
    have hecho' : IsEcho back.protocol := by rw [hrep.protocol]; exact hecho
    -- the reply parses with the identifier on both ends, as the flow's wire key has it
    have hwire : back.wire = m.wire := by
      rw [hplain, PacketTuple.wire, hrep.protocol, hrep.localAddress, hrep.remoteAddress,
        parse_echo hrep.parse hecho', hrep.identifier]
      rw [FlowKey.wire, hsym]
      rfl
    have hquic : ¬ ((flowKey origin tuple).origin = .tunnel ∧
        (flowKey origin tuple).applicationQuic = true ∧ t''.blocksUdp 443 = true) := by
      rintro ⟨-, hq, -⟩
      rw [FlowKey.applicationQuic, Bool.and_eq_true, beq_iff_eq] at hq
      rcases hecho with h1 | h1 <;> rw [show tuple.protocol = 17 from hq.1] at h1 <;> cases h1
    obtain ⟨copied, hdel⟩ := deliver_flow hc'' hm hrep.parse hwire hroom hquic now later unique
    refine ⟨_, copied, hdel, ?_⟩
    obtain ⟨off, -, -, hread, -⟩ := parse_places hrep.parse
    have hself : translate q back (flowKey origin tuple).localId = q :=
      translate_self hrep.identifier.symm
    rw [hself, hread, hrep.identifier]

/-! ## Sample runs -/

/-- An IPv4 echo message between two hosts of 10.0.0.0/8. -/
def echoSample (ty source destination : UInt8) (id : UInt16) : Bytes :=
  [0x45, 0, 0, 28, 0, 0, 0, 0, 64, 1, 0, 0, 10, 0, 0, source, 10, 0, 0, destination,
    ty, 0, 0, 0, hi8 id, lo8 id, 0, 1]

def echoSampleTuple (id : UInt16) : PacketTuple :=
  ⟨1, .v4 0x0a000002, id, .v4 0x0a000001, id, 24, 22, false⟩

/-- The tunnel has sent an echo request with identifier 7. -/
def echoTunnel : PacketMuxTable :=
  ((withTrafficPolicy false 0).routeOutgoing 1 .tunnel (echoSample 8 2 1 7)).1

/-- The proxy sends a request with identifier 8, and the reply comes back to it. -/
theorem echo_round_trip_sample :
    let t := (echoTunnel.routeOutgoing 2 .proxy (echoSample 8 2 1 8)).1
    t.forward.len = 2 ∧ ∃ q' copied, (t.routeOwnedIncoming 3 3 (echoSample 0 1 2 8) true).2 =
      some ⟨.proxy, q', copied⟩ ∧ readU16 q' 24 = some 8 := by
  have hparse : parse (echoSample 8 2 1 8) .outgoing =
      some (.flow (echoSampleTuple 8) none) := by decide +kernel
  have hlive : ∀ f ∈ echoTunnel.forward.keys, (echoTunnel.forward.lookup f).map (·.wire.localId) =
      some 7 := by decide +kernel
  have hfirst : EchoFresh (.withTrafficPolicy false 0)
      (.routeOutgoing 1 .tunnel (echoSample 8 2 1 7)) := by
    intro _ _ _ _ _ _ _ _ _ _ f m hm
    simp [PacketMuxTable.withTrafficPolicy] at hm
  have hfresh : EchoFresh echoTunnel (.routeOutgoing 2 .proxy (echoSample 8 2 1 8)) := by
    intro _ _ _ _ _ hr hp _ _ _ f m hm _ _ hid
    cases hr
    cases hparse.symm.trans hp
    have h7 := hlive f (Finmap.mem_keys.2 (Finmap.mem_of_lookup_eq_some hm))
    rw [hm, Option.map_some, hid] at h7
    cases h7
  have hsend : echoTunnel.routeOutgoing 2 .proxy (echoSample 8 2 1 8) =
      ((echoTunnel.routeOutgoing 2 .proxy (echoSample 8 2 1 8)).1, echoSample 8 2 1 8, true) :=
    Prod.ext rfl (by decide +kernel)
  have hrun : Steps step (withTrafficPolicy false 0)
      [⟨_, .routeOutgoing 1 .tunnel (echoSample 8 2 1 7), _⟩] echoTunnel := Steps.nil.snoc _
  obtain ⟨id, hid, hback⟩ := (echo_round_trip ⟨false, 0, rfl⟩ hrun
    fun e he => by rw [List.mem_singleton.1 he]; exact hfirst).2 2
    .proxy _ (echoSampleTuple 8) none _ _ hparse (.inl rfl) hfresh hsend
  have h8 : readU16 (echoSample 8 2 1 8) (echoSampleTuple 8).identifierOffset = some 8 := by
    decide +kernel
  rw [h8] at hid
  cases hid
  have hreply : EchoReply (echoSampleTuple 8) 8 (echoSample 0 1 2 8) (echoSampleTuple 8) none :=
    ⟨by decide +kernel, rfl, rfl, rfl, rfl⟩
  exact ⟨by decide +kernel, hback [] _ .nil (fun e he => by cases he) (by decide +kernel) 3 3 true
    _ _ none hreply fun k hk => by cases hk⟩

/-- Then the proxy has sent one with the same addresses and identifier. -/
def echoBoth : PacketMuxTable := (echoTunnel.routeOutgoing 2 .proxy (echoSample 8 2 1 7)).1

/-- The proxy's request leaves with identifier 49152, and the reply that carries it
    is dropped while the flow is live; a request of the tunnel with identifier
    49152 then leaves with the identifier of the proxy's flow. -/
theorem echo_translated_reply_lost : Reachable echoBoth ∧
    parse (echoSample 8 2 1 7) .outgoing = some (.flow (echoSampleTuple 7) none) ∧
    (echoTunnel.routeOutgoing 2 .proxy (echoSample 8 2 1 7)).2.2 = true ∧
    readU16 (echoTunnel.routeOutgoing 2 .proxy (echoSample 8 2 1 7)).2.1 24 = some 49152 ∧
    flowKey .proxy (echoSampleTuple 7) ∈ echoBoth.forward ∧
    parse (echoSample 0 1 2 49152) .incoming = some (.flow (echoSampleTuple 49152) none) ∧
    (echoBoth.routeOwnedIncoming 3 3 (echoSample 0 1 2 49152) true).2 = none ∧
    (echoBoth.routeOutgoing 4 .tunnel (echoSample 8 2 1 49152)).2.2 = true ∧
    (((echoBoth.routeOutgoing 4 .tunnel (echoSample 8 2 1 49152)).1.forward.lookup
      (flowKey .tunnel (echoSampleTuple 49152))).map (·.wire.localId) = some 49152 ∧
    ((echoBoth.routeOutgoing 4 .tunnel (echoSample 8 2 1 49152)).1.forward.lookup
      (flowKey .proxy (echoSampleTuple 7))).map (·.wire.localId) = some 49152) := by
  refine ⟨((Reachable.new false 0).routeOutgoing _ _ _).routeOutgoing _ _ _, ?_⟩
  decide +kernel

end Usque.PacketMux
