/-
  Runs of the flow table of the direct gateway.
-/
import Usque.Gateway.NatTable

namespace Usque.Gateway
open Lib HashMap List NatTable PortKey Nat Finmap

variable {port start : UInt16} {flow : FlowKey}

namespace NatTable

def isUdp (flow : FlowKey) : Bool := flow.protocol == 17

def Dynamic (port : UInt16) : Prop := 49152 ≤ port.toNat ∧ port.toNat ≤ 65534

structure Inv (table : NatTable) : Prop where
  reverse : Derived ReverseKey.of (fun flow _ => flow) table.forward table.reverse
  ports : Derived of (fun _ mapping => mapping.id) table.forward table.ports
  udp : table.udpFlows = table.forward.count isUdp
  flows_le : table.forward.len ≤ MAX_DIRECT_FLOWS
  udp_le : table.udpFlows ≤ MAX_DIRECT_UDP_FLOWS
  nextPort : Dynamic table.nextPort

variable {table : NatTable}

/-! ## The invariant of the table -/

theorem Inv.default (now : ℕ) : Inv (.default now) where
  reverse := .empty
  ports := .empty
  udp := rfl
  flows_le := Nat.zero_le _
  udp_le := Nat.zero_le _
  nextPort := show Dynamic FIRST_DYNAMIC_PORT from ⟨by decide, by decide⟩

theorem Inv.remove (h : Inv table) (flow : FlowKey) : Inv (table.remove flow) := by
  unfold NatTable.remove
  split
  · exact h
  · rename_i mapping hflow
    have hcount : (if flow.protocol = 17 then table.udpFlows - 1 else table.udpFlows) =
        count isUdp (table.forward.erase flow) := by
      rw [count_erase (mem_of_lookup_eq_some hflow), h.udp]
      by_cases hudp : flow.protocol = 17 <;> simp [isUdp, hudp]
    refine ⟨h.reverse.erase hflow, h.ports.erase hflow, hcount,
      (len_erase_le _ _).trans h.flows_le, ?_, h.nextPort⟩
    have := h.udp_le
    dsimp only
    split_ifs <;> omega

theorem Inv.touch (h : Inv table) (flow : FlowKey) (seen : ℕ) : Inv (table.touch flow seen) where
  reverse := h.reverse.modify flow (fun _ _ => rfl) (fun _ _ => rfl)
  ports := h.ports.modify flow (fun _ _ => rfl) (fun _ _ => rfl)
  udp := by rw [NatTable.touch, count_modify]; exact h.udp
  flows_le := by rw [NatTable.touch, len_modify]; exact h.flows_le
  udp_le := h.udp_le
  nextPort := h.nextPort

theorem Inv.removeAll (h : Inv table) (flows : List FlowKey) :
    Inv (flows.foldl NatTable.remove table) := by
  induction flows generalizing table with
  | nil => exact h
  | cons flow _ ih => exact ih (h.remove flow)

theorem Inv.sweepIfNeeded (h : Inv table) (order : Order) (now : ℕ) :
    Inv (table.sweepIfNeeded order now) := by
  unfold NatTable.sweepIfNeeded
  split_ifs
  · exact h
  · have hswp : Inv { table with lastSweep := now } :=
      ⟨h.reverse, h.ports, h.udp, h.flows_le, h.udp_le, h.nextPort⟩
    exact hswp.removeAll _

theorem Inv.cancelAll (h : Inv table) (order : Order) : Inv (table.cancelAll order) where
  reverse := .empty
  ports := .empty
  udp := rfl
  flows_le := Nat.zero_le _
  udp_le := Nat.zero_le _
  nextPort := h.nextPort

/-! ## The scan of the ports -/

theorem Dynamic.portAfter (h : Dynamic port) :
    (portAfter port).toNat = 49152 + (port.toNat - 49152 + 1) % 16383 := by
  obtain ⟨hlow, hhigh⟩ := h
  unfold NatTable.portAfter
  split_ifs with hlast
  · rw [hlast]
    decide
  · have hne : port.toNat ≠ 65534 := fun heq => hlast (UInt16.toNat_inj.1 heq)
    have hadd : (port + 1).toNat = port.toNat + 1 := by
      rw [UInt16.toNat_add, UInt16.toNat_one, mod_eq_of_lt (by omega)]
    omega

theorem Dynamic.after (h : Dynamic port) : Dynamic (NatTable.portAfter port) := by
  unfold Dynamic
  rw [h.portAfter]
  omega

theorem Dynamic.iterate (h : Dynamic port) (i : ℕ) :
    (NatTable.portAfter^[i] port).toNat = 49152 + (port.toNat - 49152 + i) % 16383 := by
  induction i generalizing port with
  | zero =>
    obtain ⟨hlow, hhigh⟩ := h
    rw [Function.iterate_zero_apply]
    omega
  | succ i ih =>
    rw [Function.iterate_succ_apply, ih h.after, h.portAfter, Nat.add_sub_cancel_left,
      mod_add_mod, Nat.add_right_comm, Nat.add_assoc]

section
variable {ports : HashMap PortKey UInt64} {protocol : UInt8} {ipv6 : Bool}

theorem scanPorts_dynamic (rounds : ℕ) (h : Dynamic port) :
    Dynamic (scanPorts ports protocol ipv6 rounds port).2 := by
  induction rounds generalizing port with
  | zero => exact h
  | succ _ ih =>
    unfold scanPorts
    split_ifs
    · exact ih h.after
    · exact h.after

theorem scanPorts_free {rounds : ℕ} (h : (scanPorts ports protocol ipv6 rounds start).1 = some port) :
    ports.lookup ⟨protocol, ipv6, port⟩ = none := by
  induction rounds generalizing start with
  | zero => cases h
  | succ _ ih =>
    unfold scanPorts at h
    split_ifs at h with hused
    · exact ih h
    · cases h
      simpa using hused

theorem scanPorts_none {rounds : ℕ} (h : (scanPorts ports protocol ipv6 rounds start).1 = none) :
    ∀ i < rounds, ⟨protocol, ipv6, portAfter^[i] start⟩ ∈ ports := by
  induction rounds generalizing start with
  | zero =>
    intro i hi
    omega
  | succ rounds ih =>
    unfold scanPorts at h
    split_ifs at h with hused
    intro i hi
    cases i with
    | zero => exact lookup_isSome.1 hused
    | succ i =>
      exact ih h i (by omega)

/-- **With fewer ports in use than the scan has rounds, it finds a free one.** -/
theorem scanPorts_isSome (h : Dynamic start) (hlen : ports.len < portRounds) :
    (scanPorts ports protocol ipv6 portRounds start).1 ≠ none := by
  intro hnone
  refine absurd (HashMap.card_le_len (scanPorts_none hnone) fun i hi j hj heq => ?_) hlen.not_ge
  -- the ports of two rounds agree only if the rounds do
  have hport := congrArg UInt16.toNat (PortKey.mk.inj heq).2.2
  rw [h.iterate, h.iterate] at hport
  have hmod : i ≡ j [MOD 16383] := Nat.ModEq.add_left_cancel' _ (Nat.add_left_cancel hport)
  exact hmod.eq_of_lt_of_lt hi hj

end

/-! ## Calls that make no mapping -/

/-- Every mapping of `after` was one of `before`, up to its `last_seen`, and every
    mapping of `before` is kept or cancelled. -/
structure Shrinks (before after : NatTable) : Prop where
  kept : ∀ flow mapping, before.forward.lookup flow = some mapping →
    (∃ seen, after.forward.lookup flow = some { mapping with lastSeen := seen }) ∨
      mapping.cancel ∈ after.cancelled
  source : ∀ flow mapping, after.forward.lookup flow = some mapping →
    ∃ old seen, before.forward.lookup flow = some old ∧ mapping = { old with lastSeen := seen }
  cancelled : before.cancelled ⊆ after.cancelled
  nextId : after.nextId = before.nextId
  tokens : after.tokens = before.tokens

namespace Shrinks

theorem of_eq {before after : NatTable} (hfwd : after.forward = before.forward)
    (hcanc : after.cancelled = before.cancelled) (hid : after.nextId = before.nextId)
    (htokens : after.tokens = before.tokens) : Shrinks before after where
  kept flow mapping h := .inl ⟨mapping.lastSeen, by rw [hfwd]; exact h⟩
  source flow mapping h := ⟨mapping, mapping.lastSeen, by rw [← hfwd]; exact h, rfl⟩
  cancelled := by rw [hcanc]; exact List.Subset.refl _
  nextId := hid
  tokens := htokens

theorem refl (table : NatTable) : Shrinks table table := of_eq rfl rfl rfl rfl

theorem trans {t1 t2 t3 : NatTable} (h : Shrinks t1 t2) (h' : Shrinks t2 t3) : Shrinks t1 t3 where
  kept flow mapping hm := by
    rcases h.kept flow mapping hm with ⟨seen, hseen⟩ | hcanc
    · exact h'.kept flow { mapping with lastSeen := seen } hseen
    · exact .inr (h'.cancelled hcanc)
  source flow mapping hm := by
    obtain ⟨mid, seen, hmid, rfl⟩ := h'.source flow mapping hm
    obtain ⟨old, seen', hold, rfl⟩ := h.source flow mid hmid
    exact ⟨old, seen, hold, rfl⟩
  cancelled := List.Subset.trans h.cancelled h'.cancelled
  nextId := h'.nextId.trans h.nextId
  tokens := h'.tokens.trans h.tokens

theorem lookup_none {before after : NatTable} (h : Shrinks before after)
    (hflow : before.forward.lookup flow = none) : after.forward.lookup flow = none := by
  rcases haft : after.forward.lookup flow with _ | mapping
  · rfl
  · obtain ⟨old, _, hold, -⟩ := h.source flow mapping haft
    rw [hflow] at hold
    cases hold

theorem remove (table : NatTable) (flow : FlowKey) : Shrinks table (table.remove flow) := by
  unfold NatTable.remove
  split
  · exact refl table
  · rename_i mapping hflow
    refine ⟨?_, ?_, subset_cons_self _ _, rfl, rfl⟩
    · intro flow' mapping' hm
      by_cases heq : flow' = flow
      · subst heq
        rw [hflow] at hm
        cases hm
        exact .inr mem_cons_self
      · refine .inl ⟨mapping'.lastSeen, ?_⟩
        rw [lookup_erase_eq, if_neg heq]
        exact hm
    · intro flow' mapping' hm
      exact ⟨mapping', mapping'.lastSeen, Sub.erase _ _ _ _ hm, rfl⟩

theorem touch (table : NatTable) (flow : FlowKey) (seen : ℕ) :
    Shrinks table (table.touch flow seen) := by
  refine ⟨?_, ?_, List.Subset.refl _, rfl, rfl⟩
  · intro flow' mapping hm
    refine .inl ⟨if flow' = flow then seen else mapping.lastSeen, ?_⟩
    rw [NatTable.touch, lookup_modify, hm]
    split_ifs <;> rfl
  · intro flow' mapping hm
    rw [NatTable.touch, lookup_modify] at hm
    split_ifs at hm
    · obtain ⟨old, hold, rfl⟩ := Option.map_eq_some_iff.1 hm
      exact ⟨old, seen, hold, rfl⟩
    · exact ⟨mapping, mapping.lastSeen, hm, rfl⟩

theorem removeAll (table : NatTable) (flows : List FlowKey) :
    Shrinks table (flows.foldl NatTable.remove table) := by
  induction flows generalizing table with
  | nil => exact refl table
  | cons flow _ ih => exact (remove table flow).trans (ih _)

theorem sweepIfNeeded (order : Order) (table : NatTable) (now : ℕ) :
    Shrinks table (table.sweepIfNeeded order now) := by
  unfold NatTable.sweepIfNeeded
  split_ifs
  · exact refl table
  · have hclock : Shrinks table { table with lastSweep := now } := of_eq rfl rfl rfl rfl
    exact hclock.trans (removeAll _ _)

theorem cancelAll (order : Order) (table : NatTable) : Shrinks table (table.cancelAll order) := by
  refine ⟨?_, ?_, subset_append_right _ _, rfl, rfl⟩
  · intro flow mapping hm
    have hmem := (order.mem_iter table.forward flow mapping).2 hm
    exact .inr (mem_append_left _ (mem_map.2 ⟨_, hmem, rfl⟩))
  · intro flow mapping hm
    simp [NatTable.cancelAll] at hm

theorem removeIf (table : NatTable) (flow : FlowKey) (id : UInt64) :
    Shrinks table (table.removeIf flow id) := by
  unfold NatTable.removeIf
  split_ifs
  · exact remove table flow
  · exact refl table

theorem existing (order : Order) (table : NatTable) (flow : FlowKey) (generation : Option UInt64)
    (now seen : ℕ) : Shrinks table (table.existing order flow generation now seen).1 := by
  unfold NatTable.existing
  extract_lets swept touched
  have hswp : Shrinks table swept := sweepIfNeeded order table now
  split_ifs
  · exact hswp.trans (remove _ _)
  · exact hswp.trans (touch _ _ _)

theorem reverseFlow (order : Order) (table : NatTable) (packet : NatPacket) (now seen : ℕ) :
    Shrinks table (table.reverseFlow order packet now seen).1 := by
  unfold NatTable.reverseFlow
  extract_lets swept
  have hswp : Shrinks table swept := sweepIfNeeded order table now
  split
  · exact hswp
  · split_ifs
    · exact hswp.trans (touch _ _ _)
    · exact hswp

end Shrinks

/-! ## Reservations -/

theorem portKey_mappingOn (table : NatTable) (flow : FlowKey) (generation : Option UInt64)
    (port : UInt16) (seen : ℕ) :
    of flow (table.mappingOn flow generation port seen) =
      ⟨flow.protocol, flow.client.isIpv6, port⟩ := by
  unfold of mappingOn
  cases flow.client.isIpv6 <;> rfl

theorem Inv.record (h : Inv table) {mapping : Mapping}
    (hkey : of flow mapping = ⟨flow.protocol, flow.client.isIpv6, port⟩)
    (hflow : table.forward.lookup flow = none)
    (hfree : table.ports.lookup ⟨flow.protocol, flow.client.isIpv6, port⟩ = none)
    (hroom : ¬ table.Full flow) : Inv (table.record flow port mapping) := by
  have hnot : flow ∉ table.forward := lookup_eq_none.1 hflow
  rw [← hkey] at hfree
  -- a reply key in use belongs to a mapping on the same gateway port
  have hreply : table.reverse.lookup (.of flow mapping) = none := by
    rcases hlook : table.reverse.lookup (.of flow mapping) with _ | flow'
    · exact hlook
    · obtain ⟨other, mapping', hoth, htag, -⟩ := (h.reverse.lookup_iff _ _).1 hlook
      refine absurd ?_ (h.ports.tag_ne hfree hoth)
      obtain ⟨hproto, hgateway, -⟩ := ReverseKey.mk.inj htag
      rw [of, of, hproto, hgateway]
  have hports := h.ports.insert hflow hfree
  rw [hkey] at hports
  unfold NatTable.Full at hroom
  push Not at hroom
  refine ⟨h.reverse.insert hflow hreply, hports, ?_, ?_, ?_, h.nextPort⟩
  · rw [NatTable.record, count_insert hnot, h.udp]
    by_cases hudp : flow.protocol = 17 <;> simp [isUdp, hudp]
  · have := len_insert_le table.forward flow mapping
    exact this.trans hroom.1
  · have := h.udp_le
    dsimp only [NatTable.record]
    split_ifs with hudp
    · exact hroom.2 hudp
    · exact this

/-- **A reservation fails only at a limit**; else it takes a free port. -/
theorem reserve_spec (h : Inv table) (order : Order) (flow : FlowKey) (generation : Option UInt64)
    (now seen : ℕ) :
    ((table.sweepIfNeeded order now).Full flow ∧
      table.reserve order flow generation now seen = (table.sweepIfNeeded order now, none)) ∨
    ∃ s : NatTable, ∃ port, Shrinks table s ∧ Inv s ∧ ¬ s.Full flow ∧
      s.ports.lookup ⟨flow.protocol, flow.client.isIpv6, port⟩ = none ∧
      table.reserve order flow generation now seen =
        (s.record flow port (s.mappingOn flow generation port seen),
          some (s.mappingOn flow generation port seen)) := by
  have hswp := h.sweepIfNeeded order now
  have hshrinks := Shrinks.sweepIfNeeded order table now
  unfold reserve
  extract_lets swept
  change Inv swept at hswp
  by_cases hfull : swept.Full flow
  · exact .inl ⟨hfull, by rw [if_pos hfull]⟩
  · right
    rw [if_neg hfull]
    -- fewer mappings than rounds, so the scan ends at a free port
    have hlen : swept.ports.len < portRounds := by
      have hports := hswp.ports.len_le.trans hswp.flows_le
      have hrounds : MAX_DIRECT_FLOWS < portRounds := by decide
      omega
    have hsome : (scanPorts swept.ports flow.protocol flow.client.isIpv6 portRounds
        swept.nextPort).1 ≠ none := scanPorts_isSome hswp.nextPort hlen
    obtain ⟨port, hport⟩ := Option.ne_none_iff_exists'.1 hsome
    set scan := scanPorts swept.ports flow.protocol flow.client.isIpv6 portRounds swept.nextPort
      with hscan
    refine ⟨{ swept with nextPort := scan.2 }, port, ?_, ?_, hfull, scanPorts_free hport, ?_⟩
    · exact hshrinks.trans (.of_eq rfl rfl rfl rfl)
    · exact ⟨hswp.reverse, hswp.ports, hswp.udp, hswp.flows_le, hswp.udp_le,
        scanPorts_dynamic _ hswp.nextPort⟩
    · have halloc : swept.allocatePort flow.protocol flow.client.isIpv6 =
          ({ swept with nextPort := scan.2 }, some port) := by
        rw [allocatePort, ← hport]
      rw [halloc]

/-! ## Runs -/

def made (e : Event NatTable Call Answer) : Option (FlowKey × Mapping) :=
  match e.input, e.output with
  | .reserve _ flow _ _ _, .mapping (some mapping) => some (flow, mapping)
  | _, _ => none

/-- The mappings that a run reserved, the last one first. -/
def reserved (h : List (Event NatTable Call Answer)) : List (FlowKey × Mapping) :=
  h.filterMap made

inductive Move (table : NatTable) (call : Call) : NatTable × Answer → Prop where
  | shrinks {after : NatTable} {answer : Answer} (hinv : Inv after) (h : Shrinks table after)
    (hmade : made ⟨table, call, answer⟩ = none) : Move table call (after, answer)
  | reserves {s : NatTable} {answer : Answer} (flow : FlowKey) (generation : Option UInt64)
    (port : UInt16) (seen : ℕ) (h : Shrinks table s)
    (hflow : s.forward.lookup flow = none)
    (hinv : Inv (s.record flow port (s.mappingOn flow generation port seen)))
    (hmade : made ⟨table, call, answer⟩ = some (flow, s.mappingOn flow generation port seen)) :
    Move table call (s.record flow port (s.mappingOn flow generation port seen), answer)

theorem Inv.existing (h : Inv table) (order : Order) (flow : FlowKey)
    (generation : Option UInt64) (now seen : ℕ) :
    Inv (table.existing order flow generation now seen).1 := by
  unfold NatTable.existing
  extract_lets swept touched
  have hswp : Inv swept := h.sweepIfNeeded order now
  split_ifs
  · exact hswp.remove flow
  · exact hswp.touch flow seen

theorem Inv.reverseFlow (h : Inv table) (order : Order) (packet : NatPacket) (now seen : ℕ) :
    Inv (table.reverseFlow order packet now seen).1 := by
  unfold NatTable.reverseFlow
  extract_lets swept
  have hswp : Inv swept := h.sweepIfNeeded order now
  split
  · exact hswp
  · split_ifs
    · exact hswp.touch _ seen
    · exact hswp

theorem Inv.removeIf (h : Inv table) (flow : FlowKey) (id : UInt64) :
    Inv (table.removeIf flow id) := by
  unfold NatTable.removeIf
  split_ifs
  · exact h.remove flow
  · exact h

theorem next_move (h : Inv table) {call : Call} (hcall : call.Unmapped table) :
    Move table call (table.next call) := by
  cases call with
  | existing order flow generation now seen =>
    exact .shrinks (h.existing order flow generation now seen) (.existing ..) rfl
  | reserve order flow generation now seen =>
    unfold next
    rcases reserve_spec h order flow generation now seen with
      ⟨-, hnone⟩ | ⟨s, port, hs, hinv, hroom, hfree, hsome⟩
    · simp only [hnone]
      exact .shrinks (h.sweepIfNeeded order now) (.sweepIfNeeded ..) rfl
    · simp only [hsome]
      have hflow : s.forward.lookup flow = none := hs.lookup_none hcall
      exact .reserves flow generation port seen hs hflow
        (hinv.record (portKey_mappingOn ..) hflow hfree hroom) rfl
  | reverse order packet now seen =>
    exact .shrinks (h.reverseFlow order packet now seen) (.reverseFlow ..) rfl
  | removeIf flow id => exact .shrinks (h.removeIf flow id) (.removeIf ..) rfl
  | remove flow => exact .shrinks (h.remove flow) (.remove ..) rfl
  | sweep order now => exact .shrinks (h.sweepIfNeeded order now) (.sweepIfNeeded ..) rfl
  | cancelAll order => exact .shrinks (h.cancelAll order) (.cancelAll ..) rfl

/-- The table after the reservations `made`, the last one first. -/
structure History (made : List (FlowKey × Mapping)) (table : NatTable) : Prop where
  settled : ∀ entry ∈ made, (∃ mapping, table.forward.lookup entry.1 = some mapping ∧
    mapping.cancel = entry.2.cancel) ∨ entry.2.cancel ∈ table.cancelled
  live : ∀ flow mapping, table.forward.lookup flow = some mapping →
    ∃ entry, Latest (fun entry => entry.1 = flow) made entry ∧ mapping.id = entry.2.id
  tokens : ∀ entry ∈ made, entry.2.cancel < table.tokens
  distinct : (made.map fun entry => entry.2.cancel).Nodup
  nextId : made.length + 1 < 2 ^ 64 → table.nextId.toNat = made.length + 1
  ids_le : made.length < 2 ^ 64 → ∀ entry ∈ made, entry.2.id.toNat ≤ made.length
  increasing : made.length < 2 ^ 64 → made.Pairwise fun later earlier => earlier.2.id < later.2.id

theorem History.default (now : ℕ) : History [] (.default now) where
  settled := by simp
  live := by simp [NatTable.default]
  tokens := by simp
  distinct := nodup_nil
  nextId _ := rfl
  ids_le := by simp
  increasing _ := .nil

theorem History.shrinks {made : List (FlowKey × Mapping)} {after : NatTable}
    (h : History made table) (hs : Shrinks table after) : History made after where
  settled entry hent := by
    rcases h.settled entry hent with ⟨mapping, hlive, heq⟩ | hcanc
    · rcases hs.kept _ _ hlive with ⟨seen, hkept⟩ | hcanc
      · exact .inl ⟨_, hkept, heq⟩
      · exact .inr (heq ▸ hcanc)
    · exact .inr (hs.cancelled hcanc)
  live flow mapping hlive := by
    obtain ⟨old, seen, hold, rfl⟩ := hs.source flow mapping hlive
    exact h.live flow old hold
  tokens := by rw [hs.tokens]; exact h.tokens
  distinct := h.distinct
  nextId := by rw [hs.nextId]; exact h.nextId
  ids_le := h.ids_le
  increasing := h.increasing

theorem nextId_succ {id : UInt64} {n : ℕ} (hid : id.toNat = n) (hn : n + 1 < 2 ^ 64) :
    (max (id + 1) 1).toNat = n + 1 := by
  have hadd : (id + 1).toNat = n + 1 := by
    rw [UInt64.toNat_add, hid, UInt64.toNat_one, mod_eq_of_lt hn]
  change (if id + 1 ≤ 1 then 1 else id + 1).toNat = n + 1
  split_ifs with hle
  · rw [UInt64.le_iff_toNat_le, UInt64.toNat_one] at hle
    rw [UInt64.toNat_one]
    omega
  · exact hadd

theorem History.record {made : List (FlowKey × Mapping)} (h : History made table)
    (hflow : table.forward.lookup flow = none) (generation : Option UInt64) (port : UInt16)
    (seen : ℕ) :
    History ((flow, table.mappingOn flow generation port seen) :: made)
      (table.record flow port (table.mappingOn flow generation port seen)) := by
  set mapping := table.mappingOn flow generation port seen
  refine ⟨?settled, ?live, ?tokens, ?distinct, ?nextId, ?ids_le, ?increasing⟩
  case settled =>
    intro entry hent
    rcases mem_cons.1 hent with rfl | hent
    · exact .inl ⟨mapping, lookup_insert _, rfl⟩
    · rcases h.settled entry hent with ⟨old, hold, heq⟩ | hcanc
      · refine .inl ⟨old, ?_, heq⟩
        have hne : entry.1 ≠ flow := by
          intro he
          rw [he, hflow] at hold
          cases hold
        rw [NatTable.record, lookup_insert_eq, if_neg hne]
        exact hold
      · exact .inr hcanc
  case live =>
    intro flow' mapping' hlive
    rw [NatTable.record, lookup_insert_eq] at hlive
    split_ifs at hlive with he
    · cases hlive
      exact ⟨_, latest_cons.2 (.inl ⟨he.symm, rfl⟩), rfl⟩
    · obtain ⟨entry, hlatest, hid⟩ := h.live flow' mapping' hlive
      exact ⟨entry, latest_cons.2 (.inr ⟨fun heq => he heq.symm, hlatest⟩), hid⟩
  case tokens =>
    intro entry hent
    rcases mem_cons.1 hent with rfl | hent
    · exact lt_succ_self _
    · exact lt_succ_of_lt (h.tokens entry hent)
  case distinct =>
    rw [map_cons, nodup_cons]
    refine ⟨fun hmem => ?_, h.distinct⟩
    obtain ⟨entry, hent, heq⟩ := mem_map.1 hmem
    exact absurd heq (Nat.ne_of_lt (h.tokens entry hent))
  case nextId =>
    intro hlen
    rw [length_cons] at hlen ⊢
    exact nextId_succ (h.nextId (by omega)) hlen
  case ids_le =>
    intro hlen entry hent
    rw [length_cons] at hlen ⊢
    rcases mem_cons.1 hent with rfl | hent
    · exact (h.nextId hlen).le
    · exact (h.ids_le (by omega) entry hent).trans (le_succ _)
  case increasing =>
    intro hlen
    rw [length_cons] at hlen
    refine pairwise_cons.2 ⟨fun entry hent => ?_, h.increasing (by omega)⟩
    have hid : mapping.id.toNat = made.length + 1 := h.nextId hlen
    have hle := h.ids_le (by omega) entry hent
    rw [UInt64.lt_iff_toNat_lt, hid]
    omega

theorem steps_inv {now : ℕ} {h : List (Event NatTable Call Answer)}
    (run : Steps next (.default now) h table)
    (hcls : ∀ e ∈ h, e.input.Unmapped e.before) : Inv table ∧ History (reserved h) table := by
  refine run.inv (P := fun h t => (∀ e ∈ h, e.input.Unmapped e.before) →
    Inv t ∧ History (reserved h) t) ?_ ?_ hcls
  · intro _
    exact ⟨.default now, .default now⟩
  · intro h t call _ ih hcls
    obtain ⟨hinv, hhistory⟩ := ih fun e he => hcls e (mem_cons_of_mem _ he)
    have hmove := next_move hinv (hcls _ mem_cons_self)
    generalize hnext : t.next call = result at hmove ⊢
    cases hmove with
    | shrinks hinv' hs hmade =>
      rw [reserved, filterMap_cons_none hmade]
      exact ⟨hinv', hhistory.shrinks hs⟩
    | reserves _ generation port seen hs hflow hinv' hmade =>
      rw [reserved, filterMap_cons_some hmade]
      exact ⟨hinv', (hhistory.shrinks hs).record hflow generation port seen⟩

/-- The id of an earlier reservation of a flow is not that of its live mapping. -/
theorem History.removeIf_stale {made later before : List (FlowKey × Mapping)}
    (h : History made table) {second first : Mapping}
    (hmade : made = later ++ (flow, second) :: before) (hfst : (flow, first) ∈ before)
    (hlen : made.length < 2 ^ 64) : table.removeIf flow first.id = table := by
  refine if_neg ?_
  rcases hlive : table.forward.lookup flow with _ | mapping
  · simp
  · obtain ⟨entry, ⟨newer, older, hspl, hent, hnewer⟩, hid⟩ := h.live flow mapping hlive
    -- the latest reservation of the flow is newer than the first one
    have hold : (flow, first) ∈ older := by
      have heq : newer ++ entry :: older = later ++ (flow, second) :: before := by
        rw [← hspl, hmade]
      rcases append_eq_append_iff.1 heq with ⟨mid, hlat, hmid⟩ | ⟨mid, hnew, hmid⟩
      · cases mid with
        | nil =>
          cases hmid
          exact hfst
        | cons =>
          cases hmid
          exact mem_append_right _ (mem_cons_of_mem _ hfst)
      · cases mid with
        | nil =>
          cases hmid
          exact hfst
        | cons =>
          cases hmid
          exact absurd rfl (hnewer (flow, second) (by simp [hnew]))
    have hpairs := h.increasing hlen
    rw [hspl, pairwise_append] at hpairs
    have hlt := (pairwise_cons.1 hpairs.2.1).1 _ hold
    rw [← hid, UInt64.lt_iff_toNat_lt] at hlt
    have hne : mapping.id ≠ first.id := by
      intro heq
      rw [heq] at hlt
      exact lt_irrefl _ hlt
    simpa using hne

/-- **The flow table stays consistent in every run**: the maps are inverse to each other,
    the ports are those of the live mappings, the counts are right and limited, a mapping
    is live or cancelled, an old id removes no later mapping, and a reservation fails
    only at a limit. -/
theorem nat_table_consistent {now : ℕ} {h : List (Event NatTable Call Answer)}
    (run : Steps next (.default now) h table) (hcalls : ∀ e ∈ h, e.input.Unmapped e.before) :
    (∀ flow mapping, table.forward.lookup flow = some mapping →
      table.reverse.lookup (.of flow mapping) = some flow) ∧
    (∀ key flow, table.reverse.lookup key = some flow →
      ∃ mapping, table.forward.lookup flow = some mapping ∧ ReverseKey.of flow mapping = key) ∧
    (∀ key id, table.ports.lookup key = some id ↔
      ∃ flow mapping, table.forward.lookup flow = some mapping ∧
        of flow mapping = key ∧ mapping.id = id) ∧
    (∀ flow mapping flow' mapping', table.forward.lookup flow = some mapping →
      table.forward.lookup flow' = some mapping' →
      of flow mapping = of flow' mapping' → flow = flow') ∧
    table.udpFlows = table.forward.count (fun flow => flow.protocol == 17) ∧
    table.forward.len ≤ 4096 ∧ table.udpFlows ≤ 256 ∧
    ((reserved h).map fun entry => entry.2.cancel).Nodup ∧
    (∀ entry ∈ reserved h, (∃ mapping, table.forward.lookup entry.1 = some mapping ∧
      mapping.cancel = entry.2.cancel) ∨ entry.2.cancel ∈ table.cancelled) ∧
    (∀ call flow mapping, table.forward.lookup flow = some mapping →
      call.Unmapped table →
      (∃ seen, (table.next call).1.forward.lookup flow = some { mapping with lastSeen := seen }) ∨
        mapping.cancel ∈ (table.next call).1.cancelled) ∧
    (∀ later flow second before first, reserved h = later ++ (flow, second) :: before →
      (flow, first) ∈ before → (reserved h).length < 2 ^ 64 →
      table.removeIf flow first.id = table) ∧
    (∀ order flow generation now seen,
      (table.reserve order flow generation now seen).2 = none →
      (table.sweepIfNeeded order now).Full flow) := by
  obtain ⟨hinv, hhistory⟩ := steps_inv run hcalls
  refine ⟨fun flow mapping hlive => hinv.reverse.lookup hlive, ?_, hinv.ports.lookup_iff,
    hinv.ports.tag_inj, hinv.udp, hinv.flows_le, hinv.udp_le, hhistory.distinct,
    hhistory.settled, ?_, fun _ _ _ _ _ hmade hfirst hlen =>
      hhistory.removeIf_stale hmade hfirst hlen, ?_⟩
  · intro key flow hlookup
    obtain ⟨flow', mapping, hlive, hkey, rfl⟩ := (hinv.reverse.lookup_iff key flow).1 hlookup
    exact ⟨mapping, hlive, hkey⟩
  · intro call flow mapping hlive hcall
    have hmove := next_move hinv hcall
    generalize table.next call = result at hmove ⊢
    cases hmove with
    | shrinks _ hs => exact hs.kept flow mapping hlive
    | @reserves s answer flow' generation port seen hs hflow _ _ =>
      rcases hs.kept flow mapping hlive with ⟨seen', hkept⟩ | hcancelled
      · refine .inl ⟨seen', ?_⟩
        have hne : flow ≠ flow' := by
          rintro rfl
          rw [hflow] at hkept
          cases hkept
        rw [NatTable.record, lookup_insert_eq, if_neg hne]
        exact hkept
      · exact .inr hcancelled
  · intro order flow generation now' seen hnone
    rcases reserve_spec hinv order flow generation now' seen with
      ⟨hfull, -⟩ | ⟨s, port, -, -, -, -, hsome⟩
    · exact hfull
    · rw [hsome] at hnone
      cases hnone

def sampleFlow : FlowKey := ⟨17, .v4 7 1000, .v4 9 53⟩

/-- The network changes between two reservations of a flow; the last call first. -/
def sampleCalls (order : Order) : List Call :=
  [.reserve order sampleFlow (some 2) 0 0, .existing order sampleFlow (some 2) 0 0,
    .reserve order sampleFlow (some 1) 0 0]

def sampleMapping (id : UInt64) (port : UInt16) (generation : UInt64) (token : ℕ) : Mapping :=
  ⟨id, .v4 0xc6120001 port, some generation, token, 0⟩

theorem sample_reserved (order : Order) :
    reserved (replay next (.default 0) (sampleCalls order)).1 =
      [(sampleFlow, sampleMapping 2 49153 2 1), (sampleFlow, sampleMapping 1 49152 1 0)] := rfl

theorem sample_unmapped (order : Order) :
    ∀ e ∈ (replay next (.default 0) (sampleCalls order)).1, e.input.Unmapped e.before := by
  intro e he
  simp only [sampleCalls, replay, mem_cons, not_mem_nil, or_false] at he
  rcases he with rfl | rfl | rfl
  · rfl
  · trivial
  · rfl

theorem nat_table_consistent_sample : ∃ order : Order,
    (replay next (.default 0) (sampleCalls order)).2.forward.lookup sampleFlow =
        some (sampleMapping 2 49153 2 1) ∧
      (replay next (.default 0) (sampleCalls order)).2.removeIf sampleFlow 1 =
        (replay next (.default 0) (sampleCalls order)).2 ∧
      0 ∈ (replay next (.default 0) (sampleCalls order)).2.cancelled := by
  obtain ⟨order⟩ := Iteration.nonempty FlowKey Mapping
  obtain ⟨-, -, -, -, -, -, -, -, hsettled, -, hstale, -⟩ :=
    nat_table_consistent (steps_replay _ (sampleCalls order)) (sample_unmapped order)
  refine ⟨order, rfl, ?_, ?_⟩
  · exact hstale [] sampleFlow (sampleMapping 2 49153 2 1) [(sampleFlow, sampleMapping 1 49152 1 0)]
      (sampleMapping 1 49152 1 0) (sample_reserved order) mem_cons_self
      (by rw [sample_reserved order]; decide)
  · have hfirst := hsettled (sampleFlow, sampleMapping 1 49152 1 0)
      (by rw [sample_reserved order]; decide)
    rcases hfirst with ⟨mapping, hlive, htoken⟩ | hcancelled
    · cases hlive
      cases htoken
    · exact hcancelled

end NatTable

end Usque.Gateway
