/-
  No unsolicited packet is delivered: what `route_owned_incoming` hands to an
  origin answers a packet that this origin sent earlier in the run.
-/
import Usque.PacketMux.Connections
import Usque.PacketMux.Quic

namespace Usque.PacketMux
open Lib PacketMuxTable ParsedPacket List

variable {s t : PacketMuxTable} {h : List MuxEvent} {packet : Bytes} {origin : PacketOrigin}
  {k : FragmentKey}

/-- The packet is one of the tuple, or an ICMP error about one. -/
def Quotes (packet : Bytes) (tuple : PacketTuple) : Prop :=
  (∃ fragment, parse packet .incoming = some (.flow tuple fragment)) ∨
    parse packet .incoming = none ∧ ∃ n off, quotedTuple packet = some (n, off, tuple)

/-- The packet answers a flow of which `origin` has sent a packet. -/
def Answers (h : List MuxEvent) (packet : Bytes) (origin : PacketOrigin) : Prop :=
  ∃ tuple flow, Quotes packet tuple ∧ flow.origin = origin ∧
    tuple.wire = { flow.wire with localId := tuple.localId } ∧
    ∃ e ∈ h, ∃ segment, Carries flow e .outgoing segment

/-- A first fragment of `k` came in that answered a flow of `origin` then. -/
def FirstAnswers (h : List MuxEvent) (k : FragmentKey) (origin : PacketOrigin) : Prop :=
  ∃ e before first, e :: before <:+ h ∧
    (∃ now later unique, e.input = .routeOwnedIncoming now later first unique) ∧
    firstFragment first = some k ∧ Answers before first origin

/-- The packet answers a flow of `origin`, or is a later fragment of one that did. -/
def Solicited (h : List MuxEvent) (packet : Bytes) (origin : PacketOrigin) : Prop :=
  Answers h packet origin ∨
    ∃ k, parse packet .incoming = some (.fragment k) ∧ FirstAnswers h k origin

theorem FirstAnswers.cons (hf : FirstAnswers h k origin) (e : MuxEvent) :
    FirstAnswers (e :: h) k origin := by
  obtain ⟨e', before, first, hsuf, hrest⟩ := hf
  exact ⟨e', before, first, hsuf.trans (suffix_cons e h), hrest⟩

-- a live flow was created by a packet that its origin sent
theorem answers_of_reverse (hs : Initial s) (run : Steps step s h t) {tuple : PacketTuple}
    {flow : FlowKey} (hq : Quotes packet tuple)
    (hr : t.reverse.lookup tuple.wire = some ⟨flow⟩) : Answers h packet flow.origin := by
  have hc : Consistent t := Reachable.consistent ⟨s, h, hs, run⟩
  obtain ⟨m, hm, hw, hok, -⟩ := hc.forward_lookup hr
  obtain ⟨first, l, hlife, -⟩ := run_tracked_tcp hs run flow m.tcp (by rw [tcpOf, hm]; rfl)
  refine ⟨tuple, flow, hq, rfl, by rw [hw] at hok; exact hok, ?_⟩
  clear hr hm run
  induction hlife with
  | created _ hnew => exact ⟨_, mem_cons_self .., _, hnew.carries⟩
  | later _ _ ih =>
    obtain ⟨e, he, hcar⟩ := ih
    exact ⟨e, mem_cons_of_mem _ he, hcar⟩

/-- The entries of incoming fragments are those of answers. -/
def FragmentsAnswer (h : List MuxEvent) (t : PacketMuxTable) : Prop :=
  ∀ k m, t.incomingFragments.lookup k = some m → FirstAnswers h k m.origin

theorem step_fragmentsAnswer (hs : Initial s) (run : Steps step s h t)
    (ih : FragmentsAnswer h t) (op : Op) :
    FragmentsAnswer (⟨t, op, (step t op).2⟩ :: h) (step t op).1 := by
  have hc : Consistent t := Reachable.consistent ⟨s, h, hs, run⟩
  have hcase := step_cases hc op
  have hsub := hcase.incoming_sub hc
  generalize (step t op).1 = t' at hcase hsub ⊢
  generalize (step t op).2 = v at hcase ⊢
  intro k m hm
  cases hcase with
  | @incoming now later packet unique _ _ hin =>
    have hnew : ∀ tuple flow, Quotes packet tuple → t.reverse.lookup tuple.wire = some ⟨flow⟩ →
        firstFragment packet = some k →
        FirstAnswers (⟨t, .routeOwnedIncoming now later packet unique, v⟩ :: h) k flow.origin :=
      fun tuple flow hq hr hf => ⟨_, h, packet, suffix_refl _, ⟨now, later, unique, rfl⟩, hf,
        answers_of_reverse hs run hq hr⟩
    cases hin with
    | dropped => exact (ih k m hm).cons _
    | late k0 m0 _ hm0 =>
      rw [HashMap.lookup_insert_eq] at hm
      split_ifs at hm with hk
      · cases hm
        exact (ih k m0 (hk ▸ hm0)).cons _
      · exact (ih k m hm).cons _
    | blocked tuple fragment flow hp hr =>
      cases fragment with
      | none => exact (ih k m hm).cons _
      | some k0 =>
        simp only [blockIncoming, HashMap.lookup_modify] at hm
        split_ifs at hm with hk
        · obtain ⟨m0, -, rfl⟩ := Option.map_eq_some_iff.1 hm
          exact hnew tuple flow (.inl ⟨_, hp⟩) hr (by rw [firstFragment_flow hp, hk])
        · exact (ih k m hm).cons _
    | delivered tuple _ flow _ _ hp hr =>
      rcases lookup_recordIncomingFragment hm with ⟨hk, rfl⟩ | ⟨-, hm⟩
      · exact hnew tuple flow (.inl ⟨_, hp⟩) hr ((firstFragment_flow hp).trans hk)
      · exact (ih k m hm).cons _
    | error n off tuple flow _ _ hp hq hr =>
      rcases lookup_recordIncomingFragment hm with ⟨hk, rfl⟩ | ⟨-, hm⟩
      · exact hnew tuple flow (.inr ⟨hp, n, off, hq⟩) hr ((firstFragment_quotedTuple hq).trans hk)
      · exact (ih k m hm).cons _
  | routed hop => exact (ih k m (hsub (by rintro _ _ _ _ rfl; cases hop) k m hm)).cons _
  | inspected | maintain | policy =>
    exact (ih k m (hsub (by rintro _ _ _ _ ⟨⟩) k m hm)).cons _

/-- **Only answers are delivered**, in every run. -/
theorem delivered_solicited (hs : Initial s) (run : Steps step s h t) {now later : Instant}
    {unique : Bool} {routed : RoutedPacket}
    (hd : (step t (.routeOwnedIncoming now later packet unique)).2 = .delivered routed) :
    Solicited h packet routed.origin := by
  have hentries : FragmentsAnswer h t := by
    refine run.inv (P := FragmentsAnswer) ?_ fun _ _ op run ih => step_fragmentsAnswer hs run ih op
    obtain ⟨q, now, rfl⟩ := hs
    intro k m hm
    cases hm
  have hcase := step_cases (Reachable.consistent ⟨s, h, hs, run⟩)
    (.routeOwnedIncoming now later packet unique)
  generalize (step t _).1 = t' at hcase
  generalize (step t _).2 = v at hcase hd
  cases hcase with
  | routed hop => cases hop
  | incoming hin hv =>
    subst hd
    obtain ⟨_, ⟨⟩, hr⟩ := hv.resolve_left (by rintro ⟨⟨⟩, -⟩)
    generalize routed.origin = origin at hr ⊢
    cases hin with
    | dropped => cases hr
    | blocked => cases hr
    | late k m hp hm =>
      cases hr
      exact .inr ⟨k, hp, hentries k m hm⟩
    | delivered tuple _ flow _ _ hp hr' =>
      cases hr
      exact .inl (answers_of_reverse hs run (.inl ⟨_, hp⟩) hr')
    | error n off tuple flow _ _ hp hq hr' =>
      cases hr
      exact .inl (answers_of_reverse hs run (.inr ⟨hp, n, off, hq⟩) hr')

/-- The answer of 10.0.0.1 to the SYN of the sample. -/
def tcpSampleReply : Bytes :=
  (tcpSample 0x12).take 12 ++ [10, 0, 0, 1, 10, 0, 0, 2, 1, 187, 15, 160] ++
    (tcpSample 0x12).drop 24

theorem delivered_solicited_reply : Solicited tcpSampleRun.1 tcpSampleReply .tunnel := by
  have hd : (step tcpSampleRun.2 (.routeOwnedIncoming 2 2 tcpSampleReply true)).2 =
    .delivered ⟨.tunnel, tcpSampleReply, 0⟩ := by rfl
  exact delivered_solicited ⟨false, 0, rfl⟩ (steps_replay _ _) hd

end Usque.PacketMux
