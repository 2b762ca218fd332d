/-
  The indexes of the mux table, and what each call does to them.
-/
import Usque.PacketMux.Table

namespace Usque.PacketMux
open Lib PacketMuxTable Option Finmap

variable {t t' : PacketMuxTable} {m : FlowMapping} {packet packet' : Bytes} {tuple : PacketTuple}
  {now : Instant} {origin : PacketOrigin} {fragment : Option FragmentKey}
  {prepared : Option (OriginFragmentKey × FragmentKey)} {b : Bool}

/-! ## Consistency -/

def FlowKey.wire (flow : FlowKey) : WireKey :=
  ⟨flow.protocol, flow.localAddress, flow.localId, flow.remoteAddress, flow.remoteId⟩

/-- A flow is mapped to a wire key that differs in the local identifier only. -/
def FlowOk (flow : FlowKey) (m : FlowMapping) : Prop :=
  m.wire = { flow.wire with localId := m.wire.localId } ∧ m.originalId = flow.localId

/-- A fragment is mapped to a fragment key that differs in the identification only. -/
def FragmentOk (key : OriginFragmentKey) (m : FragmentMapping) : Prop :=
  m.wire = { key.fragment with identifier := m.wire.identifier }

/-- The indexes of the table agree and keep their limits. -/
structure Consistent (t : PacketMuxTable) : Prop where
  flows : Index FlowMapping.wire ReverseMapping.flow FlowOk t.flowLimit t.forward t.reverse
    t.flowScan
  outgoing : Index FragmentMapping.wire id FragmentOk t.outgoingFragmentLimit t.outgoingFragments
    t.wireFragments t.outgoingFragmentScan
  incoming : Scanned t.incomingFragments t.incomingFragmentScan
  incoming_le : t.incomingFragments.len ≤ t.incomingFragmentLimit

theorem Consistent.withTrafficPolicy (disableQuic : Bool) (now : Instant) :
    Consistent (.withTrafficPolicy disableQuic now) :=
  ⟨.empty, .empty, .empty, Nat.zero_le _⟩

variable {flow : FlowKey}

theorem Consistent.reverse_lookup (hc : Consistent t) (hm : t.forward.lookup flow = some m) :
    t.reverse.lookup m.wire = some ⟨flow⟩ := by
  obtain ⟨⟨_⟩, hr, rfl⟩ := hc.flows.fwd_rev flow m hm
  exact hr

variable {wire : WireKey}

theorem Consistent.forward_lookup (hc : Consistent t) {r : ReverseMapping}
    (hr : t.reverse.lookup wire = some r) :
    ∃ m, t.forward.lookup r.flow = some m ∧ m.wire = wire ∧ FlowOk r.flow m := by
  obtain ⟨m, hm, hw⟩ := hc.flows.rev_fwd wire r hr
  exact ⟨m, hm, hw, hc.flows.ok _ _ hm⟩

/-! ## Allocation -/

/-- `allocateIdentifier` moves `nextId` only, and returns a free candidate if there is one. -/
theorem allocateIdentifierLoop_spec (template : WireKey) : ∀ rounds t,
    ∃ n, (allocateIdentifierLoop template rounds t).1 = { t with nextId := n } ∧
      (∀ id, (allocateIdentifierLoop template rounds t).2 = some id →
        { template with localId := id } ∉ t.reverse ∧ ∃ i, id = advanceId^[i] t.nextId) ∧
      ((allocateIdentifierLoop template rounds t).2 = none → ∀ i < rounds,
        { template with localId := advanceId^[i] t.nextId } ∈ t.reverse)
  | 0, t => ⟨t.nextId, rfl, nofun, fun _ i hi => absurd hi (Nat.not_lt_zero i)⟩
  | rounds + 1, t => by
    rw [allocateIdentifierLoop]
    by_cases hfree : { template with localId := t.nextId } ∈ t.reverse
    · rw [if_neg (not_not.2 hfree)]
      obtain ⟨n, h1, h2, h3⟩ :=
        allocateIdentifierLoop_spec template rounds { t with nextId := advanceId t.nextId }
      refine ⟨n, h1, fun id h => ⟨(h2 id h).1, ?_⟩, fun h i hi => ?_⟩
      · obtain ⟨i, hi⟩ := (h2 id h).2
        exact ⟨i + 1, hi⟩
      · cases i with
        | zero => exact hfree
        | succ i => exact h3 h i (by omega)
    · rw [if_pos hfree]
      exact ⟨_, rfl, fun id h => by cases h; exact ⟨hfree, 0, rfl⟩, nofun⟩

/-- The candidate of `allocateFragmentIdentifier` in round `n`. -/
def fragmentCandidate (width : UInt8) (id : UInt32) : ℕ → UInt32
  | 0 => advanceFragmentId width id
  | n + 1 => fragmentCandidate width (advanceFragmentId width id) n

section
variable (t : PacketMuxTable)

/-- `id` is the first candidate that is free for the datagram of `template`. -/
def FirstFree (template : FragmentKey) (id : UInt32) : Prop :=
  ∃ n, id = fragmentCandidate template.identifierWidth t.nextFragmentId n ∧
    { template with identifier := id } ∉ t.wireFragments ∧
    ∀ k < n, { template with
      identifier := fragmentCandidate template.identifierWidth t.nextFragmentId k } ∈
        t.wireFragments

/-- `allocateFragmentIdentifier` moves `nextFragmentId` only, and returns the
    first free candidate. -/
theorem allocateFragmentIdentifierLoop_spec (template : FragmentKey) : ∀ rounds t,
    ∃ n, (allocateFragmentIdentifierLoop template rounds t).1 = { t with nextFragmentId := n } ∧
      (∀ id, (allocateFragmentIdentifierLoop template rounds t).2 = some id →
        FirstFree t template id) ∧
      ((allocateFragmentIdentifierLoop template rounds t).2 = none → ∀ k < rounds, { template with
        identifier := fragmentCandidate template.identifierWidth t.nextFragmentId k } ∈
          t.wireFragments)
  | 0, t => ⟨t.nextFragmentId, rfl, nofun, fun _ k hk => absurd hk (Nat.not_lt_zero k)⟩
  | rounds + 1, t => by
    rw [allocateFragmentIdentifierLoop]
    by_cases hfree : { template with
        identifier := advanceFragmentId template.identifierWidth t.nextFragmentId } ∈
          t.wireFragments
    · rw [if_neg (not_not.2 hfree)]
      obtain ⟨n, h1, h2, h3⟩ := allocateFragmentIdentifierLoop_spec template rounds
        { t with nextFragmentId := advanceFragmentId template.identifierWidth t.nextFragmentId }
      refine ⟨n, h1, fun id h => ?_, fun h k hk => ?_⟩
      · obtain ⟨j, hj, hid, hlt⟩ := h2 id h
        refine ⟨j + 1, hj, hid, fun k hk => ?_⟩
        cases k with
        | zero => exact hfree
        | succ k => exact hlt k (by omega)
      · cases k with
        | zero => exact hfree
        | succ k => exact h3 h k (by omega)
    · rw [if_pos hfree]
      refine ⟨_, rfl, fun id h => ?_, nofun⟩
      cases h
      exact ⟨0, rfl, hfree, fun k hk => absurd hk (Nat.not_lt_zero k)⟩

/-- The identification a new datagram leaves with: its own if that is free, the
    first free candidate otherwise. -/
def LeavesWith (fragment : FragmentKey) (id : UInt32) : Prop :=
  (fragment ∉ t.wireFragments ∧ id = fragment.identifier) ∨
    (fragment ∈ t.wireFragments ∧ FirstFree t fragment id)

theorem LeavesWith.free {fragment : FragmentKey} {id : UInt32} (h : LeavesWith t fragment id) :
    { fragment with identifier := id } ∉ t.wireFragments := by
  rcases h with ⟨h, rfl⟩ | ⟨-, n, -, h, -⟩
  · exact h
  · exact h

/-! ## Forwarded packets -/

/-- The bytes of a packet of `tuple` that leaves under the identifier `id`. -/
def translate (packet : Bytes) (tuple : PacketTuple) (id : UInt16) : Bytes :=
  if id ≠ tuple.localId then rewriteIdentifier packet tuple id else packet

theorem translate_self {id : UInt16} (h : id = tuple.localId) :
    translate packet tuple id = packet := if_neg (not_not.2 h)

/-- The bytes of a fragment that leaves under the identification `id`. -/
def translateFragment (packet : Bytes) (fragment : FragmentKey) (id : UInt32) : Bytes :=
  if id ≠ fragment.identifier then rewriteFragmentIdentifier packet fragment id else packet

/-- How a forwarded packet of `flow` changes the flow index when it leaves under
    `wire`: a live flow is refreshed, a new one is published. -/
inductive FlowAdmitted (flow : FlowKey) (wire : WireKey) (t' : PacketMuxTable) : Prop where
  | live (m m' : FlowMapping) (hm : t.forward.lookup flow = some m) (hw : m.wire = wire)
    (hw' : m'.wire = wire) (ho : m'.originalId = m.originalId)
    (hf : t'.forward = t.forward.insert flow m') (hr : t'.reverse = t.reverse)
    (hs : t'.flowScan = t.flowScan)
  | new (m' : FlowMapping) (hm : t.forward.lookup flow = none)
    (room : t.forward.len < t.flowLimit) (hfree : wire ∉ t.reverse)
    (hwire : wire = { flow.wire with localId := wire.localId })
    (huntr : flow.wire ∉ t.reverse → wire = flow.wire)
    (hw' : m'.wire = wire) (ho : m'.originalId = flow.localId)
    (hf : t'.forward = t.forward.insert flow m') (hr : t'.reverse = t.reverse.insert wire ⟨flow⟩)
    (hs : t'.flowScan = t.flowScan ++ [flow])

/-- How a forwarded first fragment of `key` changes the fragment index when it
    leaves under `wire`. -/
inductive FragmentAdmitted (key : OriginFragmentKey) (wire : FragmentKey) (now : Instant)
    (applicationQuic : Bool) (t' : PacketMuxTable) : Prop where
  | live (m : FragmentMapping) (hm : t.outgoingFragments.lookup key = some m) (hw : m.wire = wire)
    (hf : t'.outgoingFragments = t.outgoingFragments.insert key ⟨wire, now, applicationQuic⟩)
    (hr : t'.wireFragments = t.wireFragments)
    (hs : t'.outgoingFragmentScan = t.outgoingFragmentScan)
  | new (hm : t.outgoingFragments.lookup key = none)
    (room : t.outgoingFragments.len < t.outgoingFragmentLimit)
    (hwire : wire = { key.fragment with identifier := wire.identifier })
    (hid : LeavesWith t key.fragment wire.identifier)
    (hf : t'.outgoingFragments = t.outgoingFragments.insert key ⟨wire, now, applicationQuic⟩)
    (hr : t'.wireFragments = t.wireFragments.insert wire key)
    (hs : t'.outgoingFragmentScan = t.outgoingFragmentScan ++ [key])

/-- The fields only incoming packets and the owners of the policy change. -/
structure SameRest (t t' : PacketMuxTable) : Prop where
  disableQuic : t'.disableQuic = t.disableQuic
  incomingFragments : t'.incomingFragments = t.incomingFragments
  incomingFragmentScan : t'.incomingFragmentScan = t.incomingFragmentScan
  flowLimit : t'.flowLimit = t.flowLimit
  outgoingFragmentLimit : t'.outgoingFragmentLimit = t.outgoingFragmentLimit
  incomingFragmentLimit : t'.incomingFragmentLimit = t.incomingFragmentLimit

/-- The outgoing fragment index is untouched. -/
structure SameFragments (t t' : PacketMuxTable) : Prop where
  outgoingFragments : t'.outgoingFragments = t.outgoingFragments
  wireFragments : t'.wireFragments = t.wireFragments
  outgoingFragmentScan : t'.outgoingFragmentScan = t.outgoingFragmentScan

/-- **A forwarded packet**: `packet` of `tuple` leaves as `packet'` under the wire
    key `wire`, a first fragment also under the fragment key `fragmentWire`. -/
structure Sent (now : Instant) (origin : PacketOrigin) (packet : Bytes) (tuple : PacketTuple)
    (fragment : Option FragmentKey) (wire : WireKey) (fragmentWire : FragmentKey)
    (t' : PacketMuxTable) (packet' : Bytes) : Prop where
  flow : FlowAdmitted t (flowKey origin tuple) wire t'
  whole : fragment = none → SameFragments t t'
  first : ∀ k, fragment = some k →
    FragmentAdmitted t ⟨origin, k⟩ fragmentWire now tuple.applicationQuic t'
  bytes_whole : fragment = none → packet' = translate packet tuple wire.localId
  bytes_first : ∀ k, fragment = some k → packet' =
    translateFragment (translate packet tuple wire.localId) k fragmentWire.identifier
  rest : SameRest t t'

end

variable {fragmentWire : FragmentKey}

theorem Sent.live (h : Sent t now origin packet tuple fragment wire fragmentWire t' packet') :
    ∃ m, t'.forward.lookup (flowKey origin tuple) = some m ∧ m.wire = wire := by
  cases h.flow with
  | live _ m' _ _ hw' _ hf | new m' _ _ _ _ _ hw' _ hf =>
    exact ⟨m', by rw [hf, lookup_insert], hw'⟩

/-- A prepared fragment key: that of a live mapping, or a free one. -/
def Prepared (t : PacketMuxTable) (key : OriginFragmentKey) (wire : FragmentKey) : Prop :=
  (∃ m, t.outgoingFragments.lookup key = some m ∧ m.wire = wire) ∨
    (t.outgoingFragments.lookup key = none ∧
      t.outgoingFragments.len < t.outgoingFragmentLimit ∧
      wire = { key.fragment with identifier := wire.identifier } ∧
      LeavesWith t key.fragment wire.identifier)

theorem prepareOutgoingFragment_spec (t : PacketMuxTable) (origin : PacketOrigin)
    (fragment : FragmentKey) :
    (∃ n rejections, (t.prepareOutgoingFragment origin fragment).1 =
      { t with nextFragmentId := n, rejections := rejections }) ∧
    ∀ key wire, (t.prepareOutgoingFragment origin fragment).2 = some (key, wire) →
      key = ⟨origin, fragment⟩ ∧ Prepared t key wire := by
  simp only [prepareOutgoingFragment]
  rcases hm : t.outgoingFragments.lookup ⟨origin, fragment⟩ with _ | m
  · by_cases hlen : t.outgoingFragmentLimit ≤ t.outgoingFragments.len
    · simp only [hm, if_pos hlen]
      exact ⟨⟨_, _, rfl⟩, fun key wire h => by cases h⟩
    · by_cases hw : fragment ∈ t.wireFragments
      · obtain ⟨n, h1, h2, -⟩ := allocateFragmentIdentifierLoop_spec fragment
          (if fragment.identifierWidth = 2 then 65535 else 65536) t
        simp only [hm, if_neg hlen, if_pos hw, allocateFragmentIdentifier]
        generalize allocateFragmentIdentifierLoop fragment _ t = r at h1 h2 ⊢
        obtain ⟨t1, _ | id⟩ := r
        · exact ⟨⟨n, t.rejections, h1⟩, fun key wire h => by cases h⟩
        · refine ⟨⟨n, t.rejections, h1⟩, fun key wire h => ?_⟩
          cases h
          exact ⟨rfl, .inr ⟨hm, not_le.1 hlen, rfl, .inr ⟨hw, h2 id rfl⟩⟩⟩
      · simp only [hm, if_neg hlen, if_neg hw]
        refine ⟨⟨t.nextFragmentId, t.rejections, rfl⟩, fun key wire h => ?_⟩
        cases h
        exact ⟨rfl, .inr ⟨hm, not_le.1 hlen, rfl, .inl ⟨hw, rfl⟩⟩⟩
  · simp only [hm]
    refine ⟨⟨t.nextFragmentId, t.rejections, rfl⟩, fun key wire h => ?_⟩
    cases h
    exact ⟨rfl, .inl ⟨m, hm, rfl⟩⟩

/-- The preflight moves counters only; what it hands over is prepared. -/
theorem preflightFragment_spec (t : PacketMuxTable) (origin : PacketOrigin)
    (fragment : Option FragmentKey) :
    (∃ n rejections, (t.preflightFragment origin fragment).1 =
      { t with nextFragmentId := n, rejections := rejections }) ∧
    ∀ prepared, (t.preflightFragment origin fragment).2 = some prepared →
      (fragment = none ∧ prepared = none) ∨
      ∃ k wire, fragment = some k ∧ prepared = some (⟨origin, k⟩, wire) ∧
        Prepared t ⟨origin, k⟩ wire := by
  cases fragment with
  | none =>
    refine ⟨⟨t.nextFragmentId, t.rejections, rfl⟩, fun prepared h => ?_⟩
    cases h
    exact .inl ⟨rfl, rfl⟩
  | some k =>
    obtain ⟨h1, h2⟩ := prepareOutgoingFragment_spec t origin k
    simp only [preflightFragment]
    generalize t.prepareOutgoingFragment origin k = r at h1 h2 ⊢
    obtain ⟨t1, _ | ⟨key, wire⟩⟩ := r
    · exact ⟨h1, nofun⟩
    · refine ⟨h1, fun prepared h => ?_⟩
      cases h
      obtain ⟨rfl, hp⟩ := h2 key wire rfl
      exact .inr ⟨k, wire, rfl, rfl, hp⟩

variable {key : OriginFragmentKey}

theorem commitOutgoingFragment_spec {t0 : PacketMuxTable} {wire : FragmentKey}
    (hp : Prepared t0 key wire) (hf : SameFragments t0 t) {applicationQuic : Bool}
    (h : t.commitOutgoingFragment packet key wire now applicationQuic = (t', packet')) :
    FragmentAdmitted t0 key wire now applicationQuic t' ∧
      packet' = translateFragment packet key.fragment wire.identifier ∧
      t'.forward = t.forward ∧ t'.reverse = t.reverse ∧ t'.flowScan = t.flowScan ∧
      SameRest t t' := by
  obtain ⟨hf1, hf2, hf3⟩ := hf
  rw [commitOutgoingFragment, hf1] at h
  rcases hp with ⟨m, hm, rfl⟩ | ⟨hm, room, hwire, hid⟩
  · simp only [hm] at h
    cases h
    exact ⟨.live m hm rfl rfl hf2 hf3, rfl, rfl, rfl, rfl, ⟨rfl, rfl, rfl, rfl, rfl, rfl⟩⟩
  · simp only [hm] at h
    cases h
    exact ⟨.new hm room hwire hid rfl (by rw [hf2]) (by rw [hf3]), rfl, rfl, rfl, rfl,
      ⟨rfl, rfl, rfl, rfl, rfl, rfl⟩⟩

theorem SameRest.refl (t : PacketMuxTable) : SameRest t t := ⟨rfl, rfl, rfl, rfl, rfl, rfl⟩

variable {t1 : PacketMuxTable}

theorem SameRest.trans {t2 : PacketMuxTable} (h : SameRest t t1) (h' : SameRest t1 t2) :
    SameRest t t2 :=
  ⟨h'.1.trans h.1, h'.2.trans h.2, h'.3.trans h.3, h'.4.trans h.4, h'.5.trans h.5, h'.6.trans h.6⟩

theorem commitPrepared_sent
    (h : t1.commitPrepared (translate packet tuple wire.localId) prepared now
      tuple.applicationQuic = (t', packet'))
    (hp : (fragment = none ∧ prepared = none) ∨ ∃ k w, fragment = some k ∧
      prepared = some (⟨origin, k⟩, w) ∧ Prepared t ⟨origin, k⟩ w)
    (hflow : FlowAdmitted t (flowKey origin tuple) wire t1) (hfr : SameFragments t t1)
    (hrest : SameRest t t1) :
    ∃ fragmentWire, Sent t now origin packet tuple fragment wire fragmentWire t' packet' := by
  rcases hp with ⟨rfl, rfl⟩ | ⟨k, w, rfl, rfl, hp⟩
  · cases h
    exact ⟨⟨tuple.localAddress, tuple.remoteAddress, 0, 0, 0, 0⟩, hflow, fun _ => hfr,
      fun k hk => (some_ne_none k hk.symm).elim, fun _ => rfl,
      fun k hk => (some_ne_none k hk.symm).elim, hrest⟩
  · obtain ⟨hadm, hbyt, h1, h2, h3, h4⟩ := commitOutgoingFragment_spec hp hfr h
    refine ⟨w, ?_, fun hk => (some_ne_none k hk).elim, fun k' hk => ?_,
      fun hk => (some_ne_none k hk).elim, fun k' hk => ?_, hrest.trans h4⟩
    · cases hflow with
      | live m m' hm hw hw' ho hf hr hs =>
        exact .live m m' hm hw hw' ho (h1.trans hf) (h2.trans hr) (h3.trans hs)
      | new m' hm room hfree hwire huntr hw' ho hf hr hs =>
        exact .new m' hm room hfree hwire huntr hw' ho (h1.trans hf) (h2.trans hr) (h3.trans hs)
    · cases hk; exact hadm
    · cases hk; exact hbyt

variable {rejections : Rejections} {n : UInt32}

section
variable {t : PacketMuxTable} {now : Instant} {origin : PacketOrigin} {packet : Bytes}
  {tuple : PacketTuple} {fragment : Option FragmentKey}

/-- A flow that is published leaves under its own wire key if that is free, and
    under a free one with another local identifier otherwise. -/
theorem admitFlow_sent
    (hp : (fragment = none ∧ prepared = none) ∨ ∃ k w, fragment = some k ∧
      prepared = some (⟨origin, k⟩, w) ∧ Prepared t ⟨origin, k⟩ w)
    (hm : t.forward.lookup (flowKey origin tuple) = none) (room : t.forward.len < t.flowLimit)
    (h : admitFlow { t with nextFragmentId := n, rejections := rejections } now
      origin packet tuple prepared = (t', packet', true)) :
    ∃ wire fragmentWire, Sent t now origin packet tuple fragment wire fragmentWire t' packet' := by
  rw [admitFlow] at h
  by_cases hrev : tuple.wire ∈ t.reverse
  · rw [if_pos hrev] at h
    obtain ⟨n', h1, h2, -⟩ := allocateIdentifierLoop_spec tuple.wire 16384
      { t with nextFragmentId := n, rejections := rejections }
    rw [allocateIdentifier] at h
    generalize allocateIdentifierLoop tuple.wire 16384 _ = r at h h1 h2
    obtain ⟨t1, _ | id⟩ := r
    · cases h
    · have hfree := (h2 id rfl).1
      have hne : id ≠ tuple.localId := by
        rintro rfl; exact hfree hrev
      subst h1
      simp only [publishFlow, Prod.mk.injEq] at h
      obtain ⟨h3, h4, -⟩ := h
      have htr : rewriteIdentifier packet tuple id = translate packet tuple id := by
        rw [translate, if_pos hne]
      rw [htr] at h3 h4
      refine ⟨{ tuple.wire with localId := id }, commitPrepared_sent (Prod.ext h3 h4) hp ?_
        ⟨rfl, rfl, rfl⟩ ⟨rfl, rfl, rfl, rfl, rfl, rfl⟩⟩
      exact .new _ hm room hfree rfl (fun hn => absurd hrev hn) rfl rfl rfl rfl rfl
  · rw [if_neg hrev] at h
    simp only [publishFlow, Prod.mk.injEq] at h
    obtain ⟨h3, h4, -⟩ := h
    have htr : translate packet tuple tuple.wire.localId = packet := translate_self rfl
    rw [← htr] at h3 h4
    refine ⟨tuple.wire, commitPrepared_sent (Prod.ext h3 h4) hp ?_ ⟨rfl, rfl, rfl⟩
      ⟨rfl, rfl, rfl, rfl, rfl, rfl⟩⟩
    exact .new _ hm room hrev rfl (fun _ => rfl) rfl rfl rfl rfl rfl

theorem refreshFlow_sent (hc : Consistent t)
    (hp : (fragment = none ∧ prepared = none) ∨ ∃ k w, fragment = some k ∧
      prepared = some (⟨origin, k⟩, w) ∧ Prepared t ⟨origin, k⟩ w)
    (hm : t.forward.lookup (flowKey origin tuple) = some m)
    (h : refreshFlow { t with nextFragmentId := n, rejections := rejections } now
      origin packet tuple m prepared = (t', packet', b)) :
    ∃ fragmentWire, Sent t now origin packet tuple fragment m.wire fragmentWire t' packet' := by
  simp only [refreshFlow, Prod.mk.injEq] at h
  obtain ⟨h3, h4, -⟩ := h
  have ho : m.originalId = tuple.localId := (hc.flows.ok _ _ hm).2
  rw [ho] at h3 h4
  refine commitPrepared_sent (Prod.ext h3 h4) hp ?_ ⟨rfl, rfl, rfl⟩ ⟨rfl, rfl, rfl, rfl, rfl, rfl⟩
  exact .live m ⟨m.wire, tuple.localId, now, _⟩ hm rfl rfl ho.symm rfl rfl rfl

/-- **What a forwarded packet of a flow does.** -/
theorem routeFlow_sent (hc : Consistent t)
    (h : t.routeFlow now origin packet tuple fragment = (t', packet', true)) :
    ∃ wire fragmentWire, Sent t now origin packet tuple fragment wire fragmentWire t' packet' := by
  simp only [routeFlow] at h
  by_cases hfull : flowKey origin tuple ∉ t.forward ∧ t.flowLimit ≤ t.forward.len
  · rw [if_pos hfull] at h; cases h
  · rw [if_neg hfull] at h
    obtain ⟨⟨n, rejections, h1⟩, h2⟩ := preflightFragment_spec t origin fragment
    generalize t.preflightFragment origin fragment = r at h h1 h2
    obtain ⟨t1, _ | prepared⟩ := r
    · cases h
    · subst h1
      rcases hm : t.forward.lookup (flowKey origin tuple) with _ | m
      · simp only [hm] at h
        refine admitFlow_sent (h2 prepared rfl) hm ?_ h
        exact not_le.1 fun hle => hfull ⟨lookup_eq_none.1 hm, hle⟩
      · simp only [hm] at h
        exact ⟨m.wire, refreshFlow_sent hc (h2 prepared rfl) hm h⟩

theorem routeFlow_refused (h : t.routeFlow now origin packet tuple fragment = (t', packet', false)) :
    packet' = packet ∧ ∃ i n rejections,
      t' = { t with nextId := i, nextFragmentId := n, rejections := rejections } := by
  simp only [routeFlow] at h
  by_cases hfull : flowKey origin tuple ∉ t.forward ∧ t.flowLimit ≤ t.forward.len
  · rw [if_pos hfull] at h; cases h; exact ⟨rfl, _, _, _, rfl⟩
  · rw [if_neg hfull] at h
    obtain ⟨⟨n, rejections, h1⟩, -⟩ := preflightFragment_spec t origin fragment
    generalize t.preflightFragment origin fragment = r at h h1
    obtain ⟨t1, _ | prepared⟩ := r
    · cases h; exact ⟨rfl, t.nextId, n, rejections, h1⟩
    · subst h1
      rcases hm : t.forward.lookup (flowKey origin tuple) with _ | m
      · simp only [hm, admitFlow] at h
        split_ifs at h with hrev
        · obtain ⟨i, h1, -⟩ := allocateIdentifierLoop_spec tuple.wire 16384
            { t with nextFragmentId := n, rejections := rejections }
          rw [allocateIdentifier] at h
          generalize allocateIdentifierLoop tuple.wire 16384 _ = r at h h1
          obtain ⟨t1, _ | id⟩ := r
          · cases h; exact ⟨rfl, i, n, rejections, h1⟩
          · simp [publishFlow] at h
        · simp [publishFlow] at h
      · simp [hm, refreshFlow] at h

end

/-- The packet opens a new connection in the place of that of `m`. -/
def PacketTuple.replacesTcp (tuple : PacketTuple) (packet : Bytes) (m : FlowMapping) : Bool :=
  (tuple.tcpSegment packet).any m.tcp.replaces

theorem replacesTcp_protocol (h : tuple.replacesTcp packet m) : tuple.protocol = 6 := by
  by_contra hp
  rw [PacketTuple.replacesTcp, PacketTuple.tcpSegment, if_pos (.inl hp)] at h
  cases h

/-- `retire_previous_tcp` removes the mapping of the packet's flow, if the packet
    replaces its connection. -/
theorem retirePreviousTcp_cases (t : PacketMuxTable) (origin : PacketOrigin) (tuple : PacketTuple)
    (packet : Bytes) :
    (t.retirePreviousTcp origin tuple packet = t ∧
      ∀ m, t.forward.lookup (flowKey origin tuple) = some m → tuple.replacesTcp packet m = false) ∨
    ∃ m, t.forward.lookup (flowKey origin tuple) = some m ∧ tuple.replacesTcp packet m ∧
      t.retirePreviousTcp origin tuple packet =
        { t with
          forward := t.forward.erase (flowKey origin tuple)
          reverse := t.reverse.erase m.wire
          flowScan := t.flowScan.filter (· ≠ flowKey origin tuple) } := by
  simp only [retirePreviousTcp, PacketTuple.replacesTcp]
  rcases tuple.tcpSegment packet with _ | segment
  · exact .inl ⟨rfl, fun _ _ => rfl⟩
  by_cases hsyn : segment.initialSyn
  · simp only [filter_some, if_pos hsyn, any_some]
    rcases t.forward.lookup (flowKey origin tuple) with _ | m
    · exact .inl ⟨rfl, nofun⟩
    dsimp only
    split_ifs with hr
    · exact .inr ⟨m, rfl, hr, rfl⟩
    · refine .inl ⟨rfl, fun m' hm' => ?_⟩
      cases hm'
      exact Bool.eq_false_iff.2 hr
  · rw [filter_some, if_neg hsyn]
    refine .inl ⟨rfl, fun m _ => ?_⟩
    rw [any_some, TcpFlowState.replaces, Bool.eq_false_iff.2 hsyn, Bool.false_and]

/-- **What `route_parsed_outgoing` does**: nothing, refresh a later fragment's
    mapping, invalidate a blocked one, move counters, or send a packet. -/
inductive OutgoingCase (t : PacketMuxTable) (now : Instant) (origin : PacketOrigin)
    (packet : Bytes) : Option ParsedPacket → PacketMuxTable → Bytes → Bool → Prop where
  | unparsed : OutgoingCase t now origin packet none t packet (isOutgoingIcmpError packet)
  | lateDropped (k : FragmentKey)
    (h : t.outgoingFragments.lookup ⟨origin, k⟩ = none ∨
      origin = .tunnel ∧ t.blocksUdp 443 = true) :
    OutgoingCase t now origin packet (some (.fragment k)) t packet false
  | lateSent (k : FragmentKey) (m : FragmentMapping)
    (hm : t.outgoingFragments.lookup ⟨origin, k⟩ = some m)
    (hb : ¬ (origin = .tunnel ∧ m.applicationQuic = true ∧ t.blocksUdp 443 = true)) :
    OutgoingCase t now origin packet (some (.fragment k))
      { t with
        outgoingFragments := t.outgoingFragments.insert ⟨origin, k⟩ { m with lastSeen := now } }
      (translateFragment packet k m.wire.identifier) true
  | blocked (tuple : PacketTuple) (fragment : Option FragmentKey) (ho : origin = .tunnel)
    (hq : tuple.applicationQuic = true) (hb : t.blocksUdp 443 = true) :
    OutgoingCase t now origin packet (some (.flow tuple fragment))
      (t.blockOutgoing origin fragment) packet false
  | refused (tuple : PacketTuple) (fragment : Option FragmentKey) (i : UInt16) (n : UInt32)
    (rejections : Rejections) (packet' : Bytes)
    (hb : ¬ (origin = .tunnel ∧ tuple.applicationQuic = true ∧ t.blocksUdp 443 = true)) :
    OutgoingCase t now origin packet (some (.flow tuple fragment))
      { t.retirePreviousTcp origin tuple packet with
        nextId := i, nextFragmentId := n, rejections := rejections } packet' false
  | sent (tuple : PacketTuple) (fragment : Option FragmentKey) (wire : WireKey)
    (fragmentWire : FragmentKey) (t' : PacketMuxTable) (packet' : Bytes)
    (hb : ¬ (origin = .tunnel ∧ tuple.applicationQuic = true ∧ t.blocksUdp 443 = true))
    (h : Sent (t.retirePreviousTcp origin tuple packet) now origin packet tuple fragment wire
      fragmentWire t' packet') :
    OutgoingCase t now origin packet (some (.flow tuple fragment)) t' packet' true

theorem Consistent.retirePreviousTcp (hc : Consistent t) (origin : PacketOrigin)
    (tuple : PacketTuple) (packet : Bytes) :
    Consistent (t.retirePreviousTcp origin tuple packet) := by
  rcases retirePreviousTcp_cases t origin tuple packet with ⟨h, -⟩ | ⟨m, hm, -, h⟩
  · rw [h]; exact hc
  · rw [h]; exact ⟨hc.flows.erase hm, hc.outgoing, hc.incoming, hc.incoming_le⟩

variable {parsed : Option ParsedPacket}

section
variable (hc : Consistent t)
include hc

theorem routeParsedOutgoing_cases
    (h : t.routeParsedOutgoing now origin packet parsed = (t', packet', b)) :
    OutgoingCase t now origin packet parsed t' packet' b := by
  rcases parsed with _ | ⟨tuple, fragment⟩ | k
  · cases h; exact .unparsed
  · rw [routeParsedOutgoing] at h
    by_cases hb : origin = .tunnel ∧ tuple.applicationQuic ∧ t.blocksUdp 443
    · rw [if_pos hb] at h
      cases h
      exact .blocked tuple fragment hb.1 hb.2.1 hb.2.2
    · rw [if_neg hb] at h
      cases b with
      | false =>
        obtain ⟨-, i, n, rejections, rfl⟩ := routeFlow_refused h
        exact .refused tuple fragment i n rejections packet' hb
      | true =>
        obtain ⟨wire, fw, hs⟩ := routeFlow_sent (hc.retirePreviousTcp origin tuple packet) h
        exact .sent tuple fragment wire fw t' packet' hb hs
  · simp only [routeParsedOutgoing, routeOutgoingFragment] at h
    rcases hm : t.outgoingFragments.lookup ⟨origin, k⟩ with _ | m
    · simp only [hm] at h
      cases h
      exact .lateDropped k (.inl hm)
    · simp only [hm] at h
      by_cases hb : origin = .tunnel ∧ m.applicationQuic ∧ t.blocksUdp 443
      · rw [if_pos hb] at h
        cases h
        exact .lateDropped k (.inr ⟨hb.1, hb.2.2⟩)
      · have hs : OutgoingCase t now origin packet (some (.fragment k)) _ _ true :=
          .lateSent k m hm hb
        rw [translateFragment] at hs
        split_ifs at h hs
        · cases h; exact hs
        · cases h; exact hs

theorem FlowAdmitted.consistent (h : FlowAdmitted t flow wire t') :
    Index FlowMapping.wire ReverseMapping.flow FlowOk t.flowLimit t'.forward t'.reverse
      t'.flowScan := by
  cases h with
  | live m _ hm hw hw' ho hf hr hs =>
    rw [hf, hr, hs]
    have hok := hc.flows.ok flow m hm
    rw [FlowOk, hw] at hok
    exact hc.flows.touch hm (hw'.trans hw.symm) (by rw [FlowOk, hw', ho]; exact hok)
  | new _ hm room hfree hwire _ hw' ho hf hr hs =>
    subst hw'
    rw [hf, hr, hs]
    exact hc.flows.insert hm (lookup_eq_none.2 hfree) rfl ⟨hwire, ho⟩ room

theorem FragmentAdmitted.consistent {wire : FragmentKey} {q : Bool}
    (h : FragmentAdmitted t key wire now q t') :
    Index FragmentMapping.wire id FragmentOk t.outgoingFragmentLimit t'.outgoingFragments
      t'.wireFragments t'.outgoingFragmentScan := by
  cases h with
  | live m hm hw hf hr hs =>
    rw [hf, hr, hs]
    have hok := hc.outgoing.ok key m hm
    rw [FragmentOk, hw] at hok
    exact hc.outgoing.touch hm hw.symm hok
  | new hm room hwire hid hf hr hs =>
    rw [hf, hr, hs]
    have hfree : wire ∉ t.wireFragments := by rw [hwire]; exact hid.free
    exact hc.outgoing.insert hm (lookup_eq_none.2 hfree) rfl hwire room

theorem Sent.consistent (h : Sent t now origin packet tuple fragment wire fragmentWire t' packet') :
    Consistent t' := by
  refine ⟨?_, ?_, ?_, ?_⟩
  · rw [h.rest.flowLimit]; exact h.flow.consistent hc
  · rw [h.rest.outgoingFragmentLimit]
    cases fragment with
    | none =>
      obtain ⟨h1, h2, h3⟩ := h.whole rfl
      rw [h1, h2, h3]; exact hc.outgoing
    | some k => exact (h.first k rfl).consistent hc
  · rw [h.rest.incomingFragments, h.rest.incomingFragmentScan]; exact hc.incoming
  · rw [h.rest.incomingFragments, h.rest.incomingFragmentLimit]; exact hc.incoming_le

theorem OutgoingCase.consistent (h : OutgoingCase t now origin packet parsed t' packet' b) :
    Consistent t' := by
  cases h with
  | unparsed => exact hc
  | lateDropped => exact hc
  | lateSent _ m hm =>
    exact ⟨hc.flows, hc.outgoing.touch hm rfl (hc.outgoing.ok _ m hm), hc.incoming, hc.incoming_le⟩
  | blocked _ fragment =>
    cases fragment with
    | none => exact hc
    | some =>
      exact ⟨hc.flows, hc.outgoing.modify _ (fun _ => rfl) (fun _ h => h), hc.incoming,
        hc.incoming_le⟩
  | refused tuple =>
    have hc' := hc.retirePreviousTcp origin tuple packet
    exact ⟨hc'.flows, hc'.outgoing, hc'.incoming, hc'.incoming_le⟩
  | sent tuple _ _ _ _ _ _ h => exact h.consistent (hc.retirePreviousTcp origin tuple packet)

end

end Usque.PacketMux
