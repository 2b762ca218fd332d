/-
  Where the entries of a table come from.
-/
import Usque.PacketMux.Consistent

namespace Usque.PacketMux
open Lib PacketMuxTable ParsedPacket Option

variable {t t' : PacketMuxTable} {now : Instant}

/-- The packet a call routes, with its clock reading and its origin. -/
def Op.routed : Op → Option (Instant × PacketOrigin × Bytes)
  | .routeOutgoing now origin packet => some (now, origin, packet)
  | .routeInspectedOutgoing now origin packet _ => some (now, origin, packet)
  | _ => none

inductive StepCase (t : PacketMuxTable) : Op → PacketMuxTable → Verdict → Prop where
  | routed {op : Op} {now : Instant} {origin : PacketOrigin} {packet : Bytes}
    (hop : op.routed = some (now, origin, packet)) {t' : PacketMuxTable} {packet' : Bytes} {b : Bool}
    (h : OutgoingCase t now origin packet (parse packet .outgoing) t' packet' b) :
    StepCase t op t' (if b then .sent packet' else .dropped)
  | inspected {origin : PacketOrigin} {packet : Bytes} {t' : PacketMuxTable}
    (h : t' = t ∨ ∃ tuple, t' = t.retirePreviousTcp origin tuple packet)
    (inspection : OutgoingPacketInspection) :
    StepCase t (.inspectOutgoing origin packet) t' (.inspected inspection)
  | incoming {now later : Instant} {packet : Bytes} {unique : Bool} {t' : PacketMuxTable}
    {r : Option (PacketOrigin × Option IncomingRewrite)} (h : IncomingCase t now later packet t' r)
    {v : Verdict}
    (hv : (v = .dropped ∧ r = none) ∨
      ∃ routed, v = .delivered routed ∧ r.map (·.1) = some routed.origin) :
    StepCase t (.routeOwnedIncoming now later packet unique) t' v
  | maintain {now : Instant} : StepCase t (.maintain now) (t.maintain now) .done
  | policy {value : Bool} : StepCase t (.setDisableQuic value) { t with disableQuic := value } .done

theorem step_cases (hc : Consistent t) (op : Op) : StepCase t op (step t op).1 (step t op).2 := by
  have hroute : ∀ op now origin packet, op.routed = some (now, origin, packet) →
      StepCase t op (Verdict.ofOutgoing (t.routeOutgoing now origin packet)).1
        (Verdict.ofOutgoing (t.routeOutgoing now origin packet)).2 :=
    fun op now origin packet hop => .routed hop (routeParsedOutgoing_cases hc rfl)
  cases op <;> rw [step]
  case routeOutgoing now origin packet => exact hroute _ now origin packet rfl
  case inspectOutgoing origin packet =>
    refine .inspected ?_ _
    rw [inspectOutgoing]
    rcases parse packet .outgoing with _ | ⟨tuple, fragment⟩ | k
    · exact .inl rfl
    · exact .inr ⟨tuple, rfl⟩
    · exact .inl rfl
  case routeInspectedOutgoing now origin packet owned => exact hroute _ now origin packet rfl
  case routeOwnedIncoming now later packet unique =>
    have h := inspectIncoming_cases t now later packet
    have ho := routeOwnedIncoming_origin t now later packet unique
    rw [Verdict.ofIncoming, routeOwnedIncoming_fst]
    refine .incoming h ?_
    rcases hr : (t.routeOwnedIncoming now later packet unique).2 with _ | routed
    · rw [hr] at ho
      exact .inl ⟨rfl, map_eq_none_iff.1 ho.symm⟩
    · rw [hr] at ho
      exact .inr ⟨routed, rfl, ho.symm⟩
  case maintain now => dsimp only; exact .maintain
  case setDisableQuic value => exact .policy

/-! ## Maintenance only removes -/

theorem maintain_sub (hc : Consistent t) (now : Instant) : (t.maintain now).forward.Sub t.forward ∧
    (t.maintain now).outgoingFragments.Sub t.outgoingFragments ∧
    (t.maintain now).incomingFragments.Sub t.incomingFragments := by
  have h := (Passes.start hc now).maintain hc
  exact ⟨h.flows.sub, h.outgoing.sub, h.incoming.sub⟩

/-! ## New entries -/

theorem retirePreviousTcp_frame (t : PacketMuxTable) (origin : PacketOrigin) (tuple : PacketTuple)
    (packet : Bytes) :
    (t.retirePreviousTcp origin tuple packet).forward.Sub t.forward ∧
    (t.retirePreviousTcp origin tuple packet).outgoingFragments = t.outgoingFragments ∧
    (t.retirePreviousTcp origin tuple packet).wireFragments = t.wireFragments ∧
    (t.retirePreviousTcp origin tuple packet).nextFragmentId = t.nextFragmentId ∧
    SameRest t (t.retirePreviousTcp origin tuple packet) := by
  rcases retirePreviousTcp_cases t origin tuple packet with ⟨h, -⟩ | ⟨m, -, -, h⟩
  · rw [h]; exact ⟨.refl _, rfl, rfl, rfl, .refl t⟩
  · rw [h]; exact ⟨.erase _ _, rfl, rfl, rfl, ⟨rfl, rfl, rfl, rfl, rfl, rfl⟩⟩

/-- The flow `f` is published under `wire` in the table `t`. -/
structure FlowPublished (t : PacketMuxTable) (f : FlowKey) (wire : WireKey) : Prop where
  fresh : t.forward.lookup f = none
  room : t.forward.len < t.flowLimit
  free : wire ∉ t.reverse
  untranslated : f.wire ∉ t.reverse → wire = f.wire

/-- **A flow after a call** was live before it under the same wire key, or is
    that of the routed packet. -/
theorem step_forward (hc : Consistent t) (op : Op) {f : FlowKey} {m' : FlowMapping}
    (h : (step t op).1.forward.lookup f = some m') :
    (∃ m, t.forward.lookup f = some m ∧ m'.wire = m.wire) ∨
    ∃ now origin packet tuple fragment, op.routed = some (now, origin, packet) ∧
      parse packet .outgoing = some (.flow tuple fragment) ∧
      f = flowKey origin tuple ∧
      FlowPublished (t.retirePreviousTcp origin tuple packet) f m'.wire := by
  have hcase := step_cases hc op
  generalize (step t op).1 = t' at h hcase
  generalize (step t op).2 = v at hcase
  cases hcase with
  | @routed _ now origin packet hop _ packet' b hout =>
    generalize hp : parse packet .outgoing = parsed at hout
    cases hout with
    | unparsed => exact .inl ⟨m', h, rfl⟩
    | lateDropped => exact .inl ⟨m', h, rfl⟩
    | lateSent => exact .inl ⟨m', h, rfl⟩
    | blocked _ fragment => cases fragment <;> exact .inl ⟨m', h, rfl⟩
    | refused tuple =>
      exact .inl ⟨m', (retirePreviousTcp_frame t origin tuple packet).1 f m' h, rfl⟩
    | sent tuple fragment _ _ _ _ _ hs =>
      have hsub := (retirePreviousTcp_frame t origin tuple packet).1
      cases hs.flow with
      | live m _ hm hw hw' _ hf =>
        rw [hf, HashMap.lookup_insert_eq] at h
        split_ifs at h with e
        · cases h; exact .inl ⟨m, by rw [e]; exact hsub _ m hm, by rw [hw', hw]⟩
        · exact .inl ⟨m', hsub f m' h, rfl⟩
      | new _ hm room hfree _ huntr hw' _ hf =>
        rw [hf, HashMap.lookup_insert_eq] at h
        split_ifs at h with e
        · cases h
          subst e hw'
          exact .inr ⟨now, origin, packet, tuple, fragment, hop, hp, rfl, hm, room, hfree, huntr⟩
        · exact .inl ⟨m', hsub f m' h, rfl⟩
  | @inspected origin packet _ ht =>
    rcases ht with rfl | ⟨tuple, rfl⟩
    · exact .inl ⟨m', h, rfl⟩
    · exact .inl ⟨m', (retirePreviousTcp_frame t origin tuple packet).1 f m' h, rfl⟩
  | incoming hin =>
    -- traffic on a flow keeps its wire key
    have hmodify : ∀ flow g, (∀ m : FlowMapping, (g m).wire = m.wire) →
        (t.forward.modify flow g).lookup f = some m' →
        ∃ m, t.forward.lookup f = some m ∧ m'.wire = m.wire := by
      intro flow g hg hl
      rw [HashMap.lookup_modify] at hl
      split_ifs at hl
      · obtain ⟨m, hm, rfl⟩ := map_eq_some_iff.1 hl
        exact ⟨m, hm, hg m⟩
      · exact ⟨m', hl, rfl⟩
    cases hin with
    | dropped => exact .inl ⟨m', h, rfl⟩
    | late => exact .inl ⟨m', h, rfl⟩
    | blocked _ fragment => cases fragment <;> exact .inl ⟨m', h, rfl⟩
    | delivered _ fragment flow g _ _ _ _ _ hw =>
      cases fragment <;> exact .inl (hmodify flow g hw h)
    | error n _ _ flow g _ _ _ _ _ hw =>
      rcases hfr : n.fragment with _ | k <;> rw [hfr] at h <;> exact .inl (hmodify flow g hw h)
  | maintain => exact .inl ⟨m', (maintain_sub hc _).1 f m' h, rfl⟩
  | policy => exact .inl ⟨m', h, rfl⟩

variable {v : Verdict} {op : Op}

theorem StepCase.outgoing_sub (h : StepCase t op t' v) (hc : Consistent t)
    (hop : op.routed = none) : t'.outgoingFragments.Sub t.outgoingFragments := by
  cases h with
  | routed hop' => rw [hop] at hop'; cases hop'
  | @inspected origin packet _ ht =>
    rcases ht with rfl | ⟨tuple, rfl⟩
    · exact .refl _
    · rw [(retirePreviousTcp_frame t origin tuple packet).2.1]; exact .refl _
  | incoming hin =>
    cases hin with
    | dropped => exact .refl _
    | late => exact .refl _
    | blocked _ fragment | delivered _ fragment => cases fragment <;> exact .refl _
    | error n => rcases n.fragment with _ | k <;> exact .refl _
  | maintain => exact (maintain_sub hc _).2.1
  | policy => exact .refl _

variable {packet' : Bytes}

theorem OutgoingCase.rest {origin : PacketOrigin} {packet : Bytes} {parsed : Option ParsedPacket}
    {b : Bool} (h : OutgoingCase t now origin packet parsed t' packet' b) : SameRest t t' := by
  cases h with
  | unparsed => exact .refl t
  | lateDropped => exact .refl t
  | lateSent => exact ⟨rfl, rfl, rfl, rfl, rfl, rfl⟩
  | blocked _ fragment => cases fragment <;> exact ⟨rfl, rfl, rfl, rfl, rfl, rfl⟩
  | refused tuple =>
    obtain ⟨-, -, -, -, h1, h2, h3, h4, h5, h6⟩ := retirePreviousTcp_frame t origin tuple packet
    exact ⟨h1, h2, h3, h4, h5, h6⟩
  | sent tuple _ _ _ _ _ _ hs =>
    exact (retirePreviousTcp_frame t origin tuple packet).2.2.2.2.trans hs.rest

theorem StepCase.incoming_sub (h : StepCase t op t' v) (hc : Consistent t)
    (hop : ∀ now later packet unique, op ≠ .routeOwnedIncoming now later packet unique) :
    t'.incomingFragments.Sub t.incomingFragments := by
  cases h with
  | routed _ hout => rw [hout.rest.incomingFragments]; exact .refl _
  | @inspected origin packet _ ht =>
    rcases ht with rfl | ⟨tuple, rfl⟩
    · exact .refl _
    · rw [(retirePreviousTcp_frame t origin tuple packet).2.2.2.2.incomingFragments]
      exact .refl _
  | incoming => exact absurd rfl (hop _ _ _ _)
  | maintain => exact (maintain_sub hc _).2.2
  | policy => exact .refl _

/-! ## Packets that go no further -/

/-- What an outgoing packet that is refused can change: counters and cursors, and
    the mapping of a connection that it replaces, or the mark of its fragments. -/
inductive RefusedCase (t : PacketMuxTable) (origin : PacketOrigin) (packet : Bytes) :
    PacketMuxTable → Prop where
  | counted (i : UInt16) (n : UInt32) (rejections : Rejections) :
    RefusedCase t origin packet { t with nextId := i, nextFragmentId := n, rejections }
  | retired (tuple : PacketTuple) (fragment : Option FragmentKey) (m : FlowMapping) (i : UInt16)
    (n : UInt32) (rejections : Rejections)
    (hp : parse packet .outgoing = some (.flow tuple fragment))
    (hm : t.forward.lookup (flowKey origin tuple) = some m)
    (hr : tuple.replacesTcp packet m = true) :
    RefusedCase t origin packet
      { t with
        forward := t.forward.erase (flowKey origin tuple)
        reverse := t.reverse.erase m.wire
        flowScan := t.flowScan.filter (· ≠ flowKey origin tuple)
        nextId := i
        nextFragmentId := n
        rejections }
  | marked (tuple : PacketTuple) (k : FragmentKey) (m : FragmentMapping)
    (hp : parse packet .outgoing = some (.flow tuple (some k)))
    (hm : t.outgoingFragments.lookup ⟨origin, k⟩ = some m) :
    RefusedCase t origin packet
      { t with outgoingFragments :=
          t.outgoingFragments.insert ⟨origin, k⟩ { m with applicationQuic := true } }

/-- What an incoming packet that is dropped leaves as it was: every index, but for
    the marks of known fragments. -/
structure NothingAdmitted (t t' : PacketMuxTable) : Prop where
  forward : t'.forward = t.forward
  reverse : t'.reverse = t.reverse
  flowScan : t'.flowScan = t.flowScan
  outgoingFragments : t'.outgoingFragments = t.outgoingFragments
  wireFragments : t'.wireFragments = t.wireFragments
  outgoingFragmentScan : t'.outgoingFragmentScan = t.outgoingFragmentScan
  incomingFragments : ∀ k, k ∈ t'.incomingFragments ↔ k ∈ t.incomingFragments
  incomingFragmentScan : t'.incomingFragmentScan = t.incomingFragmentScan

variable {fragment : Option FragmentKey} {tuple : PacketTuple}

section
variable {t : PacketMuxTable} {origin : PacketOrigin} {packet : Bytes}

theorem RefusedCase.refl : RefusedCase t origin packet t :=
  .counted t.nextId t.nextFragmentId t.rejections

theorem routeFlow_refusedCase
    (hp : parse packet .outgoing = some (.flow tuple fragment))
    (h : (t.retirePreviousTcp origin tuple packet).routeFlow now origin packet tuple fragment =
      (t', packet', false)) :
    packet' = packet ∧ RefusedCase t origin packet t' := by
  obtain ⟨rfl, i, n, rejections, rfl⟩ := routeFlow_refused h
  refine ⟨rfl, ?_⟩
  rcases retirePreviousTcp_cases t origin tuple packet' with ⟨hid, -⟩ | ⟨m, hm, hr, hret⟩
  · rw [hid]
    exact .counted i n rejections
  · rw [hret]
    exact .retired tuple fragment m i n rejections hp hm hr

theorem blockOutgoing_refusedCase
    (hp : parse packet .outgoing = some (.flow tuple fragment)) :
    RefusedCase t origin packet (t.blockOutgoing origin fragment) := by
  cases fragment with
  | none => exact .refl
  | some k =>
    rcases hm : t.outgoingFragments.lookup ⟨origin, k⟩ with _ | m
    · simp only [blockOutgoing, HashMap.modify, hm]
      exact .refl
    · simp only [blockOutgoing, HashMap.modify, hm]
      exact .marked tuple k m hp hm

theorem routeOwnedIncoming_none {later : Instant} {unique : Bool}
    (h : t.routeOwnedIncoming now later packet unique = (t', none)) : NothingAdmitted t t' := by
  have hcase := inspectIncoming_cases t now later packet
  have ho := routeOwnedIncoming_origin t now later packet unique
  rw [← routeOwnedIncoming_fst t now later packet unique, h] at hcase
  rw [h, map_none, eq_comm, map_eq_none_iff] at ho
  rw [ho] at hcase
  cases hcase with
  | dropped => exact ⟨rfl, rfl, rfl, rfl, rfl, rfl, fun _ => .rfl, rfl⟩
  | blocked _ fragment =>
    cases fragment with
    | none => exact ⟨rfl, rfl, rfl, rfl, rfl, rfl, fun _ => .rfl, rfl⟩
    | some => exact ⟨rfl, rfl, rfl, rfl, rfl, rfl, fun k' => HashMap.mem_modify .., rfl⟩

end

/-- **A packet that goes no further leaves no entry behind**, in any table. -/
theorem rejected_leaves_no_trace (t : PacketMuxTable) :
    (∀ now origin packet t' packet', t.routeOutgoing now origin packet = (t', packet', false) →
      packet' = packet ∧ RefusedCase t origin packet t') ∧
    (∀ now later packet unique t', t.routeOwnedIncoming now later packet unique = (t', none) →
      NothingAdmitted t t') := by
  refine ⟨fun now origin packet t' packet' h => ?_, fun now later packet unique t' h => ?_⟩
  · rw [routeOutgoing] at h
    rcases hp : parse packet .outgoing with _ | ⟨tuple, fragment⟩ | k
    · simp only [hp, routeParsedOutgoing, Prod.mk.injEq] at h
      obtain ⟨rfl, rfl, -⟩ := h
      exact ⟨rfl, .refl⟩
    · rw [hp, routeParsedOutgoing] at h
      split_ifs at h with hb
      · cases h
        exact ⟨rfl, blockOutgoing_refusedCase hp⟩
      · exact routeFlow_refusedCase hp h
    · rw [hp, routeParsedOutgoing, routeOutgoingFragment] at h
      rcases hm : t.outgoingFragments.lookup ⟨origin, k⟩ with _ | m
      · simp only [hm, Prod.mk.injEq] at h
        obtain ⟨rfl, rfl, -⟩ := h
        exact ⟨rfl, .refl⟩
      · simp only [hm] at h
        split_ifs at h
        · cases h
          exact ⟨rfl, .refl⟩
        · cases h
        · cases h
  · exact routeOwnedIncoming_none h

end Usque.PacketMux
