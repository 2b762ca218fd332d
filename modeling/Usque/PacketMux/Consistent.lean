/-
  Every reachable table is consistent.
-/
import Usque.PacketMux.Index

namespace Usque.PacketMux
open Lib PacketMuxTable ParsedPacket Option

/-! ## Incoming packets -/

/-- A first fragment is admitted when it is known or when there is room. -/
def IncomingRoom (t : PacketMuxTable) (fragment : Option FragmentKey) : Prop :=
  ∀ k, fragment = some k →
    k ∈ t.incomingFragments ∨ t.incomingFragments.len < t.incomingFragmentLimit

/-- An attributed packet carries the wire key of its flow and leaves the table as
    it is; others move a counter only. -/
theorem lookupIncoming_spec (t : PacketMuxTable) (wire : WireKey) (fragment : Option FragmentKey) :
    (∃ rejections, (t.lookupIncoming wire fragment).1 = { t with rejections := rejections }) ∧
    ∀ flow, (t.lookupIncoming wire fragment).2 = some flow →
      (t.lookupIncoming wire fragment).1 = t ∧ t.reverse.lookup wire = some ⟨flow⟩ ∧
        IncomingRoom t fragment := by
  have hrev : ∀ flow, (t.reverse.lookup wire).map (·.flow) = some flow →
      t.reverse.lookup wire = some ⟨flow⟩ := by
    intro flow h
    obtain ⟨⟨_⟩, hr, rfl⟩ := map_eq_some_iff.1 h
    exact hr
  cases fragment with
  | none =>
    refine ⟨⟨t.rejections, rfl⟩, fun flow h => ⟨rfl, hrev flow h, fun k hk => ?_⟩⟩
    cases hk
  | some k =>
    rw [lookupIncoming, admitIncomingFragment]
    by_cases hw : wire ∉ t.reverse
    · rw [if_pos hw]
      exact ⟨⟨t.rejections, rfl⟩, nofun⟩
    rw [if_neg hw]
    by_cases hfull : k ∉ t.incomingFragments ∧ t.incomingFragmentLimit ≤ t.incomingFragments.len
    · rw [if_pos hfull]
      exact ⟨⟨_, rfl⟩, nofun⟩
    · rw [if_neg hfull]
      refine ⟨⟨t.rejections, rfl⟩, fun flow h => ⟨rfl, hrev flow h, fun k' hk => ?_⟩⟩
      cases hk
      by_contra hno
      rw [not_or, not_lt] at hno
      exact hfull hno

variable {fragment : Option FragmentKey}

/-- A packet with the wire key of a flow is attributed to it, given room for a
    first fragment. -/
theorem lookupIncoming_eq {t : PacketMuxTable} {wire : WireKey} {flow : FlowKey}
    (hr : t.reverse.lookup wire = some ⟨flow⟩) (hroom : IncomingRoom t fragment) :
    t.lookupIncoming wire fragment = (t, some flow) := by
  cases fragment with
  | none => simp only [lookupIncoming, hr, map_some]
  | some k =>
    have hw : wire ∈ t.reverse := Finmap.mem_of_lookup_eq_some hr
    have hfull : ¬ (k ∉ t.incomingFragments ∧
        t.incomingFragmentLimit ≤ t.incomingFragments.len) := by
      rintro ⟨h1, h2⟩
      exact (hroom k rfl).elim h1 (not_lt.2 h2)
    simp only [lookupIncoming, admitIncomingFragment, if_neg (not_not.2 hw), if_neg hfull, hr,
      map_some]

/-- **What `inspect_incoming` does**: move a counter, refresh a later fragment's
    entry, invalidate a blocked one, or deliver a packet or an ICMP error to the
    flow of its wire key. -/
inductive IncomingCase (t : PacketMuxTable) (now later : Instant) (packet : Bytes) :
    PacketMuxTable → Option (PacketOrigin × Option IncomingRewrite) → Prop where
  | dropped (rejections : Rejections)
    (h : ∀ tuple fragment flow, parse packet .incoming = some (.flow tuple fragment) →
      t.reverse.lookup tuple.wire = some ⟨flow⟩ → ¬ IncomingRoom t fragment) :
    IncomingCase t now later packet { t with rejections := rejections } none
  | late (k : FragmentKey) (m : IncomingFragment)
    (hp : parse packet .incoming = some (.fragment k))
    (hm : t.incomingFragments.lookup k = some m)
    (hb : ¬ (m.origin = .tunnel ∧ m.applicationQuic = true ∧ t.blocksUdp 443 = true)) :
    IncomingCase t now later packet
      { t with incomingFragments := t.incomingFragments.insert k { m with lastSeen := now } }
      (some (m.origin, none))
  | blocked (tuple : PacketTuple) (fragment : Option FragmentKey) (flow : FlowKey)
    (hp : parse packet .incoming = some (.flow tuple fragment))
    (hr : t.reverse.lookup tuple.wire = some ⟨flow⟩) (hroom : IncomingRoom t fragment)
    (ho : flow.origin = .tunnel) (hq : flow.applicationQuic = true)
    (hb : t.blocksUdp 443 = true) :
    IncomingCase t now later packet (t.blockIncoming flow.origin fragment) none
  | delivered (tuple : PacketTuple) (fragment : Option FragmentKey) (flow : FlowKey)
    (f : FlowMapping → FlowMapping) (rewrite : Option IncomingRewrite)
    (hp : parse packet .incoming = some (.flow tuple fragment))
    (hr : t.reverse.lookup tuple.wire = some ⟨flow⟩) (hroom : IncomingRoom t fragment)
    (hb : ¬ (flow.origin = .tunnel ∧ flow.applicationQuic = true ∧ t.blocksUdp 443 = true))
    (hw : ∀ m, (f m).wire = m.wire) (ho : ∀ m, (f m).originalId = m.originalId) :
    IncomingCase t now later packet
      (recordIncomingFragment { t with forward := t.forward.modify flow f }
        fragment flow.origin later flow.applicationQuic) (some (flow.origin, rewrite))
  | error (n : NetworkPacket) (off : ℕ) (tuple : PacketTuple) (flow : FlowKey)
    (f : FlowMapping → FlowMapping) (rewrite : Option IncomingRewrite)
    (hp : parse packet .incoming = none)
    (hq : quotedTuple packet = some (n, off, tuple))
    (hr : t.reverse.lookup tuple.wire = some ⟨flow⟩) (hroom : IncomingRoom t n.fragment)
    (hw : ∀ m, (f m).wire = m.wire) (ho : ∀ m, (f m).originalId = m.originalId) :
    IncomingCase t now later packet
      (recordIncomingFragment { t with forward := t.forward.modify flow f }
        n.fragment flow.origin later false) (some (flow.origin, rewrite))

section
variable (t : PacketMuxTable) (now later : Instant) (packet : Bytes)

theorem inspectIncoming_cases :
    IncomingCase t now later packet (t.inspectIncoming now later packet).1
      (t.inspectIncoming now later packet).2 := by
  have hnone (hp : ∀ tuple fragment,
      parse packet .incoming ≠ some (.flow tuple fragment)) : ∀ tuple fragment flow,
        parse packet .incoming = some (.flow tuple fragment) →
        t.reverse.lookup tuple.wire = some ⟨flow⟩ → ¬ IncomingRoom t fragment :=
    fun tuple fragment _ h => absurd h (hp tuple fragment)
  rw [inspectIncoming]
  rcases hp : parse packet .incoming with _ | ⟨tuple, fragment⟩ | k
  · have hnone := hnone (by simp [hp])
    rw [inspectIncomingIcmpError]
    rcases hq : quotedTuple packet with _ | ⟨n, off, tuple⟩
    · exact .dropped t.rejections hnone
    obtain ⟨⟨rej, h1⟩, h2⟩ := lookupIncoming_spec t tuple.wire n.fragment
    dsimp only
    generalize t.lookupIncoming tuple.wire n.fragment = r at h1 h2 ⊢
    obtain ⟨t1, _ | flow⟩ := r
    · subst h1; exact .dropped rej hnone
    · obtain ⟨h3, hr, hroom⟩ := h2 flow rfl
      subst h3
      exact .error n off tuple flow _ _ hp hq hr hroom (fun _ => rfl) fun _ => rfl
  · obtain ⟨⟨rej, h1⟩, h2⟩ := lookupIncoming_spec t tuple.wire fragment
    have hfnd : ∀ flow, t.reverse.lookup tuple.wire = some ⟨flow⟩ → IncomingRoom t fragment →
      t.lookupIncoming tuple.wire fragment = (t, some flow) := fun flow => lookupIncoming_eq
    dsimp only
    generalize t.lookupIncoming tuple.wire fragment = r at h1 h2 hfnd ⊢
    obtain ⟨t1, _ | flow⟩ := r
    · subst h1
      refine .dropped rej fun tuple' fragment' flow h hr hroom => ?_
      rw [hp] at h
      cases h
      cases congrArg Prod.snd (hfnd flow hr hroom)
    · obtain ⟨h3, hr, hroom⟩ := h2 flow rfl
      subst h3
      dsimp only
      by_cases hb : flow.origin = .tunnel ∧ flow.applicationQuic ∧ t1.blocksUdp 443
      · rw [if_pos hb]
        exact .blocked tuple fragment flow hp hr hroom hb.1 hb.2.1 hb.2.2
      · rw [if_neg hb]
        exact .delivered tuple fragment flow _ _ hp hr hroom hb (fun _ => rfl) fun _ => rfl
  · have hnone := hnone (by simp [hp])
    dsimp only
    rw [inspectIncomingFragment]
    rcases hm : t.incomingFragments.lookup k with _ | m
    · exact .dropped t.rejections hnone
    · dsimp only
      by_cases hb : m.origin = .tunnel ∧ m.applicationQuic ∧ t.blocksUdp 443
      · rw [if_pos hb]; exact .dropped t.rejections hnone
      · rw [if_neg hb]; exact .late k m hp hm hb

theorem routeOwnedIncoming_fst (unique : Bool) :
    (t.routeOwnedIncoming now later packet unique).1 = (t.inspectIncoming now later packet).1 := by
  rw [routeOwnedIncoming]
  rcases t.inspectIncoming now later packet with ⟨t1, _ | ⟨origin, _ | rewrite⟩⟩ <;> rfl

theorem routeOwnedIncoming_origin (unique : Bool) :
    (t.routeOwnedIncoming now later packet unique).2.map (·.origin) =
      (t.inspectIncoming now later packet).2.map (·.1) := by
  rw [routeOwnedIncoming]
  rcases t.inspectIncoming now later packet with ⟨t1, _ | ⟨origin, _ | rewrite⟩⟩ <;> rfl

end

namespace Consistent
variable {t : PacketMuxTable}

/-- Traffic on a flow changes neither its wire key nor its original identifier. -/
theorem modifyForward (hc : Consistent t) (flow : FlowKey) {f : FlowMapping → FlowMapping}
    (hw : ∀ m, (f m).wire = m.wire) (ho : ∀ m, (f m).originalId = m.originalId) :
    Consistent { t with forward := t.forward.modify flow f } :=
  ⟨hc.flows.modify flow hw fun m hm => by rw [FlowOk, hw, ho]; exact hm, hc.outgoing, hc.incoming,
    hc.incoming_le⟩

theorem recordIncomingFragment (hc : Consistent t) (hroom : IncomingRoom t fragment)
    (origin : PacketOrigin) (now : Instant) (applicationQuic : Bool) :
    Consistent (t.recordIncomingFragment fragment origin now applicationQuic) := by
  cases fragment with
  | none => exact hc
  | some k =>
    rw [recordIncomingFragment]
    by_cases hk : k ∈ t.incomingFragments
    · refine ⟨hc.flows, hc.outgoing, ?_, ?_⟩
      · rw [if_neg (not_not.2 hk)]; exact hc.incoming.insert_mem hk _
      · simp only [HashMap.len_insert_mem _ _ hk]; exact hc.incoming_le
    · refine ⟨hc.flows, hc.outgoing, ?_, ?_⟩
      · rw [if_pos hk]; exact hc.incoming.insert_fresh hk _
      · have hlt := (hroom k rfl).resolve_left hk
        exact (HashMap.len_insert_le _ k _).trans hlt

theorem incomingCase (hc : Consistent t) {now later : Instant} {packet : Bytes}
    {t' : PacketMuxTable} {r : Option (PacketOrigin × Option IncomingRewrite)}
    (h : IncomingCase t now later packet t' r) : Consistent t' := by
  cases h with
  | dropped => exact ⟨hc.flows, hc.outgoing, hc.incoming, hc.incoming_le⟩
  | late _ _ _ hm =>
    have hk := Finmap.mem_of_lookup_eq_some hm
    refine ⟨hc.flows, hc.outgoing, hc.incoming.insert_mem hk _, ?_⟩
    simp only [HashMap.len_insert_mem _ _ hk]; exact hc.incoming_le
  | blocked _ fragment =>
    cases fragment with
    | none => exact hc
    | some k =>
      refine ⟨hc.flows, hc.outgoing, hc.incoming.modify k _, ?_⟩
      simp only [PacketMuxTable.blockIncoming, HashMap.len_modify]; exact hc.incoming_le
  | delivered _ _ flow _ _ _ _ hroom _ hw ho | error _ _ _ flow _ _ _ _ _ hroom hw ho =>
    exact recordIncomingFragment (hc.modifyForward flow hw ho) hroom _ _ _

theorem routeOwnedIncoming (hc : Consistent t) (now later : Instant) (packet : Bytes)
    (unique : Bool) : Consistent (t.routeOwnedIncoming now later packet unique).1 := by
  rw [routeOwnedIncoming_fst]
  exact hc.incomingCase (inspectIncoming_cases t now later packet)

/-! ## Maintenance -/

section
variable (hc : Consistent t) (now : Instant)
include hc now

/-- Where a map is empty its indexes are empty too, so releasing them loses
    nothing. -/
theorem maintainStorage_eq :
    ∃ reported last, t.maintainStorage now =
      { t with reportedRejections := reported, lastReport := last } := by
  have hflows : t.forward.len = 0 → { t with forward := ∅, reverse := ∅, flowScan := [] } = t := by
    intro hlen
    obtain ⟨hfwd, hreverse, hscan⟩ := hc.flows.eq_empty hlen
    rw [← hfwd, ← hreverse, ← hscan]
  have hout : t.outgoingFragments.len = 0 →
      { t with outgoingFragments := ∅, wireFragments := ∅, outgoingFragmentScan := [] } = t := by
    intro hlen
    obtain ⟨hmap, hwire, hscan⟩ := hc.outgoing.eq_empty hlen
    rw [← hmap, ← hwire, ← hscan]
  have hinc : t.incomingFragments.len = 0 →
      { t with incomingFragments := ∅, incomingFragmentScan := [] } = t := by
    intro hlen
    obtain ⟨hmap, hscan⟩ := hc.incoming.eq_empty hlen
    rw [← hmap, ← hscan]
  rw [PacketMuxTable.maintainStorage, ite_eq_right_iff.2 hflows, ite_eq_right_iff.2 hout,
    ite_eq_right_iff.2 hinc]
  split_ifs
  · exact ⟨_, _, rfl⟩
  · exact ⟨_, _, rfl⟩

theorem passes :
    Consistent (((t.maintainFlows now).maintainOutgoingFragments now).maintainIncomingFragments
      now) := by
  have hflows := hc.flows.sweep (fun m => idle now m.lastSeen)
    (min t.flowScan.length MAINTENANCE_ITEMS)
  have hout := hc.outgoing.sweep (fun m => idle now m.lastSeen)
    (min t.outgoingFragmentScan.length MAINTENANCE_ITEMS)
  have hinc := @sweep_inv FragmentKey (HashMap FragmentKey IncomingFragment)
    (fun s key => (s.lookup key).any (idle now ·.lastSeen)) (fun key s => s.erase key)
    (fun q s => Scanned s q ∧ s.len ≤ t.incomingFragmentLimit)
    (fun k q s _ hs => ⟨hs.1.rotate, hs.2⟩)
    (fun k q s _ hs => ⟨hs.1.erase_head, (HashMap.len_erase_le s k).trans hs.2⟩)
    (min t.incomingFragmentScan.length MAINTENANCE_ITEMS) t.incomingFragmentScan
    t.incomingFragments ⟨hc.incoming, hc.incoming_le⟩
  simp only [maintainFlows, maintainOutgoingFragments, maintainIncomingFragments]
  exact ⟨hflows, hout, hinc.1, hinc.2⟩

theorem maintain : Consistent (t.maintain now) := by
  have h1 := hc.passes now
  rw [PacketMuxTable.maintain]
  generalize ((t.maintainFlows now).maintainOutgoingFragments now).maintainIncomingFragments
    now = t1 at h1 ⊢
  obtain ⟨reported, last, heq⟩ := h1.maintainStorage_eq now
  rw [heq]
  exact ⟨h1.flows, h1.outgoing, h1.incoming, h1.incoming_le⟩

end

/-! ## Runs -/

theorem inspectOutgoing (hc : Consistent t) (origin : PacketOrigin) (packet : Bytes) :
    Consistent (t.inspectOutgoing origin packet).1 := by
  rw [PacketMuxTable.inspectOutgoing]
  rcases parse packet .outgoing with _ | ⟨tuple, fragment⟩ | k
  · exact hc
  · exact hc.retirePreviousTcp origin tuple packet
  · exact hc

theorem routeParsedOutgoing (hc : Consistent t) (now : Instant) (origin : PacketOrigin)
    (packet : Bytes) (parsed : Option ParsedPacket) :
    Consistent (t.routeParsedOutgoing now origin packet parsed).1 :=
  (routeParsedOutgoing_cases hc rfl).consistent hc

end Consistent

/-- How far the passes over the three queues of `t0` are, `n` keys on. -/
structure Passes (now : Instant) (n : ℕ) (t0 t : PacketMuxTable) : Prop where
  flows : Pass (fun m : FlowMapping => idle now m.lastSeen) t0.forward (t0.flowScan.drop n)
    t.flowScan t.forward
  outgoing : Pass (fun m : FragmentMapping => idle now m.lastSeen) t0.outgoingFragments
    (t0.outgoingFragmentScan.drop n) t.outgoingFragmentScan t.outgoingFragments
  incoming : Pass (fun m : IncomingFragment => idle now m.lastSeen) t0.incomingFragments
    (t0.incomingFragmentScan.drop n) t.incomingFragmentScan t.incomingFragments

theorem Passes.start (hc : Consistent t) (now : Instant) : Passes now 0 t t :=
  ⟨.start hc.flows.toScanned, .start hc.outgoing.toScanned, .start hc.incoming⟩

/-- One call looks at the next 4096 keys of each queue. -/
theorem Passes.maintain {n : ℕ} (hc : Consistent t) (h : Passes now n t0 t) :
    Passes now (n + MAINTENANCE_ITEMS) t0 (t.maintain now) := by
  have hc1 := hc.passes now
  rw [PacketMuxTable.maintain]
  have hflows := sweep_bounded Prod.fst _ (retire_fst FlowMapping.wire)
    MAINTENANCE_ITEMS (t.forward, t.reverse) h.flows
  have hout := sweep_bounded Prod.fst _ (retire_fst FragmentMapping.wire)
    MAINTENANCE_ITEMS (t.outgoingFragments, t.wireFragments) h.outgoing
  have hinc := sweep_bounded id (fun k s => s.erase k) (fun _ _ _ _ => rfl)
    MAINTENANCE_ITEMS t.incomingFragments h.incoming
  rw [List.drop_drop] at hflows hout hinc
  have h1 : Passes now (n + MAINTENANCE_ITEMS) t0 (((t.maintainFlows
      now).maintainOutgoingFragments now).maintainIncomingFragments now) := by
    simp only [PacketMuxTable.maintainFlows, maintainOutgoingFragments,
      PacketMuxTable.maintainIncomingFragments]
    exact ⟨hflows, hout, hinc⟩
  generalize ((t.maintainFlows now).maintainOutgoingFragments now).maintainIncomingFragments
    now = t1 at h1 hc1 ⊢
  obtain ⟨reported, last, heq⟩ := hc1.maintainStorage_eq now
  rw [heq]
  exact ⟨h1.flows, h1.outgoing, h1.incoming⟩

/-- **Every call keeps the indexes consistent.** -/
theorem step_consistent {t : PacketMuxTable} (hc : Consistent t) (op : Op) :
    Consistent (step t op).1 := by
  cases op <;> rw [step]
  case routeOutgoing now origin packet => exact hc.routeParsedOutgoing now origin packet _
  case inspectOutgoing origin packet => exact hc.inspectOutgoing origin packet
  case routeInspectedOutgoing now origin packet owned =>
    exact hc.routeParsedOutgoing now origin packet _
  case routeOwnedIncoming now later packet unique =>
    exact hc.routeOwnedIncoming now later packet unique
  case maintain now => dsimp only; exact hc.maintain now
  case setDisableQuic value => exact ⟨hc.flows, hc.outgoing, hc.incoming, hc.incoming_le⟩

theorem Initial.consistent {t : PacketMuxTable} (h : Initial t) : Consistent t := by
  obtain ⟨disableQuic, now, rfl⟩ := h
  exact .withTrafficPolicy disableQuic now

theorem Reachable.consistent {t : PacketMuxTable} (h : Reachable t) : Consistent t :=
  Lib.Reachable.inv h (fun _ => Initial.consistent) fun _ op hc => step_consistent hc op

theorem Reachable.new (disableQuic : Bool) (now : Instant) :
    Reachable (.withTrafficPolicy disableQuic now) := Lib.Reachable.init ⟨disableQuic, now, rfl⟩

theorem Reachable.call {t : PacketMuxTable} (h : Reachable t) (op : Op) :
    Reachable (Usque.PacketMux.step t op).1 := Lib.Reachable.step h op

theorem Reachable.routeOutgoing {t : PacketMuxTable} (h : Reachable t) (now : Instant)
    (origin : PacketOrigin) (packet : Bytes) : Reachable (t.routeOutgoing now origin packet).1 :=
  h.call (.routeOutgoing now origin packet)

/-- The indexes of a table agree: forward and reverse map are inverse to each
    other, wire keys differ from flow keys in the local identifier only, every
    queue lists the keys of its map exactly once, and no map exceeds its limit. -/
structure IndexesAgree (t : PacketMuxTable) : Prop where
  forward_reverse : ∀ flow wire, (∃ m, t.forward.lookup flow = some m ∧ m.wire = wire) ↔
    ∃ r, t.reverse.lookup wire = some r ∧ r.flow = flow
  wire_fields : ∀ flow m, t.forward.lookup flow = some m →
    m.wire.protocol = flow.protocol ∧ m.wire.localAddress = flow.localAddress ∧
    m.wire.remoteAddress = flow.remoteAddress ∧ m.wire.remoteId = flow.remoteId ∧
    m.originalId = flow.localId
  flow_scan : ∀ flow, t.flowScan.count flow = if flow ∈ t.forward then 1 else 0
  outgoing_wire : ∀ key wire, (∃ m, t.outgoingFragments.lookup key = some m ∧ m.wire = wire) ↔
    t.wireFragments.lookup wire = some key
  outgoing_scan : ∀ key, t.outgoingFragmentScan.count key =
    if key ∈ t.outgoingFragments then 1 else 0
  incoming_scan : ∀ key, t.incomingFragmentScan.count key =
    if key ∈ t.incomingFragments then 1 else 0
  flow_limit : t.forward.len ≤ t.flowLimit
  outgoing_limit : t.outgoingFragments.len ≤ t.outgoingFragmentLimit
  incoming_limit : t.incomingFragments.len ≤ t.incomingFragmentLimit

/-- **The indexes agree between any two calls.** -/
theorem indexes_agree {t : PacketMuxTable} (h : Reachable t) : IndexesAgree t := by
  have hc := h.consistent
  refine ⟨fun flow wire => ⟨?_, ?_⟩, fun flow m hm => ?_, hc.flows.count, fun key wire => ⟨?_, ?_⟩,
    hc.outgoing.count, hc.incoming.count, hc.flows.len_le, hc.outgoing.len_le, hc.incoming_le⟩
  · rintro ⟨m, hm, rfl⟩
    exact hc.flows.fwd_rev flow m hm
  · rintro ⟨r, hr, rfl⟩
    exact hc.flows.rev_fwd wire r hr
  · obtain ⟨hw, ho⟩ := hc.flows.ok flow m hm
    rw [hw]
    exact ⟨rfl, rfl, rfl, rfl, ho⟩
  · rintro ⟨m, hm, rfl⟩
    obtain ⟨r, hr, rfl⟩ := hc.outgoing.fwd_rev key m hm
    exact hr
  · intro hr
    exact hc.outgoing.rev_fwd wire key hr

/-- A UDP packet from 10.0.0.2, port 4000, to 10.0.0.1, port 53, without checksum. -/
def udpSample : Bytes :=
  [0x45, 0, 0, 28, 0, 0, 0, 0, 64, 17, 0, 0, 10, 0, 0, 2, 10, 0, 0, 1, 15, 160, 0, 53, 0, 8, 0, 0]

/-- The two origins send the same packet: two flows, one of them translated. -/
theorem indexes_agree_two_origins :
    let t := (step (step (.withTrafficPolicy false 0) (.routeOutgoing 1 .tunnel udpSample)).1
      (.routeOutgoing 2 .proxy udpSample)).1
    t.forward.len = 2 ∧ IndexesAgree t :=
  ⟨by decide +kernel, indexes_agree (((Reachable.new false 0).call _).call _)⟩

end Usque.PacketMux
