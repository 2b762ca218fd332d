/-
  The hand-over of a packet to the direct gateway is all or nothing.
-/
import Usque.Gateway.Incoming
import Usque.Gateway.Outgoing

namespace Usque.Gateway
open Lib HashMap Routing DirectGatewayRouter Option Bool

variable {table : NatTable} {order : Order} {flow : FlowKey} {generation : Option UInt64}
  {now seen : ℕ} {reservation : NatReservation} {world : GatewayWorld}

/-- Every mapping of `after` was one of `before`, up to its `last_seen`. -/
def NatTable.NoneNew (before after : NatTable) : Prop :=
  ∀ flow mapping, after.forward.lookup flow = some mapping →
    ∃ old seen, before.forward.lookup flow = some old ∧ mapping = { old with lastSeen := seen }

variable {mapping : Mapping}

namespace NatTable

theorem NoneNew.refl (table : NatTable) : NoneNew table table := (Shrinks.refl table).source

theorem NoneNew.trans {t1 t2 t3 : NatTable} (h : NoneNew t1 t2) (h' : NoneNew t2 t3) :
    NoneNew t1 t3 := by
  intro flow mapping hlive
  obtain ⟨mid, seen, hmid, rfl⟩ := h' flow mapping hlive
  obtain ⟨old, seen', hold, rfl⟩ := h flow mid hmid
  exact ⟨old, seen, hold, rfl⟩

theorem existing_some (h : (table.existing order flow generation now seen).2 = some mapping) :
    (table.existing order flow generation now seen).1.forward.lookup flow = some mapping ∧
      mapping.networkGeneration = generation := by
  unfold existing at h ⊢
  extract_lets swept touched at h ⊢
  split_ifs at h ⊢ with hoth
  refine ⟨h, ?_⟩
  change (swept.forward.modify flow _).lookup flow = some mapping at h
  rw [lookup_modify, if_pos rfl, map_eq_some_iff] at h
  obtain ⟨old, hold, rfl⟩ := h
  simpa [hold] using hoth

theorem reserve_lookup (h : (table.reserve order flow generation now seen).2 = some mapping) :
    ∀ flow' mapping',
      (table.reserve order flow generation now seen).1.forward.lookup flow' = some mapping' →
      (flow' = flow ∧ mapping'.id = mapping.id) ∨
        (table.sweepIfNeeded order now).forward.lookup flow' = some mapping' := by
  unfold reserve at h ⊢
  extract_lets swept at h ⊢
  split_ifs at h ⊢ with hfull
  rcases halloc : swept.allocatePort flow.protocol flow.client.isIpv6 with ⟨s, _ | port⟩
  · simp only [halloc] at h
    cases h
  · have hsame : s.forward = swept.forward := by
      have := congrArg (fun result => result.1.forward) halloc
      exact this.symm
    simp only [halloc] at h ⊢
    intro flow' mapping' hlive
    rw [record, lookup_insert_eq] at hlive
    split_ifs at hlive with heq
    · cases hlive
      exact .inl ⟨heq, congrArg Mapping.id (some.inj h)⟩
    · rw [hsame] at hlive
      exact .inr hlive

theorem reserve_none (h : (table.reserve order flow generation now seen).2 = none) :
    NoneNew table (table.reserve order flow generation now seen).1 := by
  have hswp : Shrinks table (table.sweepIfNeeded order now) := .sweepIfNeeded ..
  unfold reserve at h ⊢
  extract_lets swept at h ⊢
  split_ifs at h ⊢ with hfull
  · exact hswp.source
  rcases halloc : swept.allocatePort flow.protocol flow.client.isIpv6 with ⟨s, _ | port⟩
  · have hsame : s.forward = swept.forward := by
      have := congrArg (fun result => result.1.forward) halloc
      exact this.symm
    intro flow' mapping' hlive
    rw [hsame] at hlive
    exact hswp.source flow' mapping' hlive
  · simp only [halloc] at h
    cases h

end NatTable

open NatTable GatewayWorld

theorem Others.shrinks {table' : NatTable} (h : Others table table') : Shrinks table table' := by
  induction h with
  | refl => exact .refl _
  | reverse _ _ _ _ _ ih => exact ih.trans (.reverseFlow ..)
  | removeIf _ _ _ ih => exact ih.trans (.removeIf ..)

/-! ## Assertions -/

variable {op : GatewayOp}

section
variable {start : GatewayWorld}

/-- The call has made no mapping and sent nothing. -/
structure Kept (start world : GatewayWorld) : Prop where
  noneNew : NoneNew start.table world.table
  sent : world.sent = start.sent

/-- The call has made the mapping `id` of `flow` and sent nothing. -/
structure Pending (start : GatewayWorld) (reservation : NatReservation) (world : GatewayWorld) :
    Prop where
  onlyNew : ∀ flow mapping, world.table.forward.lookup flow = some mapping →
    (flow = reservation.flow ∧ mapping.id = reservation.id) ∨
      ∃ old seen, start.table.forward.lookup flow = some old ∧
        mapping = { old with lastSeen := seen }
  sent : world.sent = start.sent
  poisoned : world.poisoned = false

/-- What the other tasks do keeps the assertion. -/
def Stable (P : GatewayWorld → Prop) : Prop :=
  ∀ world table, P world → Others world.table table → P { world with table }

theorem Pending.removeIf (h : Pending start reservation world) :
    Kept start (world.locked (·.removeIf reservation.flow reservation.id)) := by
  rw [locked, h.poisoned, if_neg Bool.false_ne_true]
  refine ⟨fun flow mapping hlive => ?_, h.sent⟩
  unfold NatTable.removeIf at hlive
  split_ifs at hlive with hours
  · unfold NatTable.remove at hlive
    split at hlive
    · rename_i hnone
      rw [hnone] at hours
      cases hours
    · rw [lookup_erase_eq] at hlive
      split_ifs at hlive with heq
      exact (h.onlyNew flow mapping hlive).resolve_left fun hsame => heq hsame.1
  · refine (h.onlyNew flow mapping hlive).resolve_left fun hsame => hours ?_
    rw [← hsame.1, hlive]
    simpa using hsame.2

/-- If the future is dropped at the operation, no mapping of the call remains. -/
def AtDrop (start : GatewayWorld) (op : GatewayOp) (world : GatewayWorld) : Prop :=
  ∀ guard, op.guard = some guard → ∀ table, Others world.table table →
    NoneNew start.table (GatewayWorld.dropped { world with table } guard).table

abbrev Holds {α : Type} (start : GatewayWorld) (x : GatewayCode α) (Q : α → GatewayWorld → Prop)
    (world : GatewayWorld) : Prop :=
  x.Wp Does (AtDrop start) Q world

/-- A packet that is passed on is the packet, and the call has left nothing behind. -/
def Handed (start : GatewayWorld) (packet : Bytes) (r : Bool × Bytes) (world : GatewayWorld) :
    Prop :=
  r.1 = false → r.2 = packet ∧ Kept start world

/-- What is checked of a flow before it is admitted. -/
structure Supports (router : DirectGatewayRouter) (flow : FlowKey) : Prop where
  attached : (!router.channel || !router.stackIncoming) = false
  transport : ¬(¬(flow.protocol = 6 ∨ flow.protocol = 17) ∨
    flow.client.ip.isIpv4 ≠ flow.remote.ip.isIpv4)
  target : (flow.remote.port == 0 || flow.remote.ip.toCanonical.isUnspecified ||
    flow.remote.ip.toCanonical.isMulticast) = false

/-- How far a call is: it has made no mapping, holds a reservation, or has sent the packet. -/
inductive Phase where
  | kept
  | pending (reservation : NatReservation)
  | sent

namespace Phase
variable {router : DirectGatewayRouter} {phase : Phase}

def In (start : GatewayWorld) : Phase → GatewayWorld → Prop
  | .kept => Kept start
  | .pending reservation => Pending start reservation
  | .sent => fun _ => True

/-- What the call releases if it is dropped. -/
def guard : Phase → Option (Option NatReservation)
  | .kept => some none
  | .pending reservation => some (some reservation)
  | .sent => none

def Allows (router : DirectGatewayRouter) (phase : Phase) : GatewayOp → Prop
  | .reserve flow _ => phase = .kept ∧ Supports router flow
  | .bindTcp guard _ | .setupUdp guard _ _ => phase = .pending guard
  | .send guard _ => phase.guard = some guard
  | _ => True

def next (phase : Phase) : (op : GatewayOp) → op.Answer → Phase
  | .reserve flow _, some mapping => .pending ⟨flow, mapping.id⟩
  | .removeIf flow id, _ =>
    match phase with
    | .pending reservation => if reservation = ⟨flow, id⟩ then .kept else .pending reservation
    | phase => phase
  | .send .., _ => .sent
  | _, _ => phase

theorem In.shrinks {after : GatewayWorld} (h : phase.In start world)
    (htab : Shrinks world.table after.table) (hsent : after.sent = world.sent)
    (hpois : after.poisoned = world.poisoned) : phase.In start after := by
  cases phase with
  | kept => exact ⟨h.noneNew.trans htab.source, hsent.trans h.sent⟩
  | pending =>
    refine ⟨fun flow mapping hlive => ?_, hsent.trans h.sent, hpois.trans h.poisoned⟩
    obtain ⟨mid, seen, hmid, rfl⟩ := htab.source flow mapping hlive
    rcases h.onlyNew flow mid hmid with hours | ⟨old, seen', hold, rfl⟩
    · exact .inl hours
    · exact .inr ⟨old, seen, hold, rfl⟩
  | sent => trivial

theorem In.stable (phase : Phase) : Stable (phase.In start) :=
  fun _ _ h hoths => h.shrinks hoths.shrinks rfl rfl

theorem In.atDrop (h : phase.In start world) (hallows : phase.Allows router op) :
    AtDrop start op world := by
  have hgrd : op.guard = none ∨ op.guard = phase.guard := by
    cases op with
    | bindTcp guard _ | setupUdp guard _ _ =>
      obtain rfl : phase = .pending guard := hallows
      exact .inr rfl
    | send => exact .inr hallows.symm
    | _ => exact .inl rfl
  intro guard hsome table hoths
  rw [hsome] at hgrd
  have hstable := In.stable phase world table h hoths
  cases phase with
  | kept =>
    obtain rfl : guard = none := by simpa [Phase.guard] using hgrd
    exact hstable.noneNew
  | pending reservation =>
    obtain rfl : guard = some reservation := by simpa [Phase.guard] using hgrd
    exact (Pending.removeIf hstable).noneNew
  | sent => simp [Phase.guard] at hgrd

end Phase

/-- What any operation but a reservation does to the table. -/
theorem GatewayWorld.Does.shrinks {after : GatewayWorld} {answer : op.Answer} (h : Does op world answer after)
    (hop : ∀ flow generation, op ≠ .reserve flow generation) :
    Shrinks world.table after.table ∧ after.poisoned = world.poisoned ∧
      ((∀ guard packet, op ≠ .send guard packet) → after.sent = world.sent) := by
  obtain ⟨table, hoths, hacts⟩ := h
  have h1 := hoths.shrinks
  have hlocked : ∀ {f : NatTable → NatTable}, (∀ table, Shrinks table (f table)) →
      after = GatewayWorld.locked { world with table } f →
      Shrinks world.table after.table ∧ after.poisoned = world.poisoned ∧
        after.sent = world.sent := by
    rintro f hf rfl
    unfold locked
    split_ifs
    · exact ⟨h1, rfl, rfl⟩
    · exact ⟨h1.trans (hf table), rfl, rfl⟩
  cases op with
  | existing flow generation =>
    unfold Acts at hacts
    split_ifs at hacts with hpois
    · obtain ⟨-, rfl⟩ := hacts
      exact ⟨h1, rfl, fun _ => rfl⟩
    · obtain ⟨order, now, seen, heq⟩ := hacts
      obtain ⟨rfl, -⟩ := Prod.mk.inj heq
      exact ⟨h1.trans (.existing order table flow generation now seen), rfl, fun _ => rfl⟩
  | reserve flow generation => exact absurd rfl (hop flow generation)
  | removeIf flow id =>
    obtain ⟨htab, hpois, hsent⟩ := hlocked (fun table => .removeIf table flow id) hacts
    exact ⟨htab, hpois, fun _ => hsent⟩
  | remove flow =>
    obtain ⟨htab, hpois, hsent⟩ := hlocked (fun table => .remove table flow) hacts
    exact ⟨htab, hpois, fun _ => hsent⟩
  | send guard packet =>
    rcases hacts with rfl | rfl
    · exact ⟨h1, rfl, fun _ => rfl⟩
    · exact ⟨h1, rfl, fun hsend => absurd rfl (hsend guard packet)⟩
  | current =>
    obtain ⟨-, rfl⟩ := hacts
    exact ⟨h1, rfl, fun _ => rfl⟩
  | _ =>
    obtain rfl : after = _ := hacts
    exact ⟨h1, rfl, fun _ => rfl⟩

theorem GatewayWorld.Does.found {after : GatewayWorld}
    (h : Does (.existing flow generation) world (some mapping) after) :
    after.table.forward.lookup flow = some mapping ∧ mapping.networkGeneration = generation := by
  obtain ⟨table, -, hacts⟩ := h
  unfold Acts at hacts
  split_ifs at hacts
  · cases hacts.1
  · obtain ⟨order, now, seen, heq⟩ := hacts
    obtain ⟨rfl, hans⟩ := Prod.mk.inj heq
    exact existing_some hans.symm

/-- A reservation makes the mapping that it answers, and no other. -/
theorem GatewayWorld.Does.reserves {after : GatewayWorld} {answer : Option Mapping}
    (h : Does (.reserve flow generation) world answer after) : after.sent = world.sent ∧
      (answer = none → NoneNew world.table after.table) ∧
      ∀ mapping, answer = some mapping → after.poisoned = false ∧ ∀ flow' mapping',
        after.table.forward.lookup flow' = some mapping' →
          (flow' = flow ∧ mapping'.id = mapping.id) ∨ ∃ old seen,
            world.table.forward.lookup flow' = some old ∧ mapping' = { old with lastSeen := seen } := by
  obtain ⟨table, hoths, hacts⟩ := h
  have h1 := hoths.shrinks.source
  unfold Acts at hacts
  split_ifs at hacts with hpois
  · obtain ⟨rfl, rfl⟩ := hacts
    exact ⟨rfl, fun _ => h1, nofun⟩
  obtain ⟨order, now, seen, heq⟩ := hacts
  obtain ⟨rfl, rfl⟩ := Prod.mk.inj heq
  refine ⟨rfl, fun hnone => NoneNew.trans h1 (reserve_none hnone), ?_⟩
  refine fun mapping hsome => ⟨by simpa using hpois, fun flow' mapping' hlive => ?_⟩
  rcases reserve_lookup hsome flow' mapping' hlive with hours | hold
  · exact .inl hours
  · exact .inr (NoneNew.trans h1 (Shrinks.sweepIfNeeded order table now).source flow' _ hold)

/-- One operation leads from its phase to the next. -/
theorem Phase.In.does {router : DirectGatewayRouter} {phase : Phase} {after : GatewayWorld}
    {answer : op.Answer} (h : phase.In start world) (hallows : phase.Allows router op)
    (hdoes : Does op world answer after) : (phase.next op answer).In start after := by
  have hquiet : (∀ flow generation, op ≠ .reserve flow generation) →
      (∀ guard packet, op ≠ .send guard packet) → phase.In start after := by
    intro hreserve hsend
    obtain ⟨htab, hpois, hsent⟩ := hdoes.shrinks hreserve
    exact h.shrinks htab (hsent hsend) hpois
  cases op with
  | reserve =>
    obtain ⟨rfl, -⟩ := hallows
    obtain ⟨hsent, hnone, hsome⟩ := hdoes.reserves
    have hkept : Kept start world := h
    rcases answer with _ | mapping
    · exact ⟨hkept.noneNew.trans (hnone rfl), hsent.trans hkept.sent⟩
    obtain ⟨hpois, honly⟩ := hsome mapping rfl
    refine ⟨fun flow' mapping' hlive => ?_, hsent.trans hkept.sent, hpois⟩
    rcases honly flow' mapping' hlive with hours | ⟨old, seen, hold, rfl⟩
    · exact .inl hours
    · obtain ⟨old', seen', hold', rfl⟩ := hkept.noneNew flow' old hold
      exact .inr ⟨old', seen, hold', rfl⟩
  | removeIf flow id =>
    rcases phase with _ | reservation | _
    · exact hquiet (by simp) (by simp)
    · change (if reservation = ⟨flow, id⟩ then Phase.kept else .pending reservation).In start after
      split_ifs with hours
      · subst hours
        obtain ⟨table, hoths, hacts⟩ := hdoes
        obtain rfl : after = _ := hacts
        exact Pending.removeIf (Phase.In.stable (.pending ⟨flow, id⟩) world table h hoths)
      · exact hquiet (by simp) (by simp)
    · trivial
  | send guard packet => trivial
  | _ => exact hquiet (by simp) (by simp)

/-! ## The parts of a call -/

/-- Whether a call that `must` consume the packet still must: it found a mapping of a flow
    that the router supports, and the gateway is available. -/
def Must (router : DirectGatewayRouter) (must : Prop) : (op : GatewayOp) → op.Answer → Prop
  | .existing flow _, found => must ∧ found.isSome ∧ Supports router flow
  | .tunDirectAvailable, available => must ∧ available
  | _, _ => must

/-- Whatever the answers are, the code goes through the phases, and passes the packet on
    only as it was, with nothing left behind, and if it need not consume it. -/
def Stays (router : DirectGatewayRouter) (packet : Bytes) :
    Phase → Prop → GatewayCode (Bool × Bytes) → Prop
  | phase, must, .done r => r.1 = false → r.2 = packet ∧ phase = .kept ∧ ¬must
  | _, _, .panicked => False
  | phase, must, .act op k => phase.Allows router op ∧
    ∀ answer, Stays router packet (phase.next op answer) (Must router must op answer) (k answer)

section
variable {router : DirectGatewayRouter} {phase : Phase} {must : Prop} {packet : Bytes}
  {parsed : NatPacket}

theorem Stays.holds {x : GatewayCode (Bool × Bytes)} (h : Stays router packet phase must x)
    (hw : phase.In start world) : Holds start x (Handed start packet) world := by
  induction x generalizing phase must world with
  | done =>
    intro hfls
    obtain ⟨hsame, rfl, -⟩ := h hfls
    exact ⟨hsame, hw⟩
  | panicked => exact h
  | act _ _ ih =>
    exact .act (hw.atDrop h.1) fun answer after hdoes => ih answer (h.2 answer) (hw.does h.1 hdoes)

theorem consume_stays (packet' : Bytes) : Stays router packet phase must (consume packet') :=
  ⟨trivial, fun _ => nofun⟩

theorem fallback_stays (hfree : ¬must) (reason : DirectFallbackReason) :
    Stays router packet .kept must (fallback reason packet) :=
  ⟨trivial, fun _ _ => ⟨rfl, rfl, hfree⟩⟩

theorem fallback_release_stays (hfree : ¬must) (reason : DirectFallbackReason)
    (hph : phase.next (.removeIf reservation.flow reservation.id) () = .kept) :
    Stays router packet phase must (do
      let answer ← fallback reason packet
      release (some reservation)
      pure answer) := ⟨trivial, fun _ => ⟨trivial, fun _ _ => ⟨rfl, hph, hfree⟩⟩⟩

theorem pending_next (reservation : NatReservation) : (Phase.pending reservation).next
    (.removeIf reservation.flow reservation.id) () = .kept := if_pos rfl

theorem stillCurrent_stays (flow : FlowKey) (mapping : Mapping)
    {f : Bool → GatewayCode (Bool × Bytes)}
    (h : ∀ current, Stays router packet phase must (f current)) :
    Stays router packet phase must (stillCurrent flow mapping >>= f) := by
  refine ⟨trivial, ?_⟩
  rintro (_ | _)
  · refine ⟨trivial, ?_⟩
    rintro (_ | _)
    · refine ⟨trivial, fun generation => ?_⟩
      change Stays router packet phase must ((if (mapping.networkGeneration != generation) then
        pure false else do
          let current ← call (.current flow)
          pure (current.any (·.id == mapping.id))) >>= f)
      split_ifs
      · exact h false
      · exact ⟨trivial, fun _ => h _⟩
    · exact h false
  · exact h false

theorem rewriteDestination_refused {packet packet' : Bytes} {parsed : NatPacket}
    {gateway : SocketAddr} (h : rewriteDestination packet parsed gateway = (false, packet')) :
    packet' = packet := by
  have hsame : (rewriteDestination packet parsed gateway).2 = packet :=
    rewriteEndpoint_refused (by rw [← rewriteDestination, h])
  rw [h] at hsame
  exact hsame

theorem handOver_existing (mapping : Mapping) :
    Stays router packet .kept must (handOver packet parsed mapping none) := by
  refine stillCurrent_stays parsed.flow mapping ?_
  rintro (_ | _)
  · exact ⟨trivial, fun _ => consume_stays packet⟩
  · rcases rewriteDestination packet parsed mapping.gateway with ⟨_ | _, packet'⟩
    · exact ⟨trivial, fun _ => consume_stays packet'⟩
    · exact ⟨rfl, fun _ => nofun⟩

theorem handOver_new (hfree : ¬must) (mapping : Mapping) :
    Stays router packet (.pending ⟨parsed.flow, mapping.id⟩) must
      (handOver packet parsed mapping (some ⟨parsed.flow, mapping.id⟩)) := by
  refine stillCurrent_stays parsed.flow mapping ?_
  rintro (_ | _)
  · refine ⟨trivial, fun _ => ?_⟩
    rw [pending_next ⟨parsed.flow, mapping.id⟩]
    exact fallback_release_stays hfree _ rfl
  · rcases hrw : rewriteDestination packet parsed mapping.gateway with ⟨_ | _, packet'⟩
    · obtain rfl := rewriteDestination_refused hrw
      exact fallback_release_stays hfree _ (pending_next _)
    · exact ⟨trivial, fun _ => ⟨rfl, fun _ => nofun⟩⟩

theorem admitFlow_stays (hfree : ¬must) (generation : Option UInt64)
    (hsupports : Supports router parsed.flow) :
    Stays router packet .kept must (admitFlow generation packet parsed) := by
  refine ⟨⟨rfl, hsupports⟩, ?_⟩
  rintro (_ | mapping)
  · exact fallback_stays hfree _
  -- both setups await with the reservation as their guard
  have hrest : ∀ setup : Bool, Stays router packet (.pending ⟨parsed.flow, mapping.id⟩) must
      (if setup then handOver packet parsed mapping (some ⟨parsed.flow, mapping.id⟩)
      else do
        let answer ← fallback .setupFailed packet
        release (some ⟨parsed.flow, mapping.id⟩)
        pure answer) := by
    intro setup
    split_ifs
    · exact handOver_new hfree mapping
    · exact fallback_release_stays hfree _ (pending_next _)
  have hproto : parsed.protocol = 6 ∨ parsed.protocol = 17 :=
    not_not.mp (not_or.mp hsupports.transport).1
  change Stays router packet _ must (if parsed.protocol = 6 then _ else if _ then _ else _)
  by_cases htcp : parsed.protocol = 6
  · rw [if_pos htcp]
    exact ⟨rfl, hrest⟩
  · rw [if_neg htcp, if_pos (hproto.resolve_left htcp)]
    exact ⟨rfl, hrest⟩

section
variable (generation : Option UInt64) {existing : Option Mapping} (workerFailed : Bool)
  (hmust : must → existing.isSome ∧ Supports router parsed.flow)
include hmust

theorem forward_stays {route : GeoRoute} (hroute : existing.isSome → route = .direct)
    (hnew : (!router.channel || !router.stackIncoming) = false → route = .direct →
      (router.splitDns && isSplitDnsClientPacket parsed) = false → Supports router parsed.flow) :
    Stays router packet .kept must
      (router.forward generation packet parsed existing route workerFailed) := by
  unfold DirectGatewayRouter.forward
  extract_lets splitDnsClient direct
  have hatt : (!router.channel || !router.stackIncoming) = true → ¬must := by
    intro hmiss h
    cases (hmust h).2.attached.symm.trans hmiss
  split_ifs with hworker hsome hdirect hmiss hdirect hclient hoth
  · exact ⟨trivial, fun _ => consume_stays packet⟩
  · exact ⟨trivial, fun _ _ => ⟨rfl, rfl, fun h => hsome (hmust h).1⟩⟩
  · exact fun _ => ⟨rfl, rfl, fun h => hsome (hmust h).1⟩
  · exact ⟨trivial, fun _ _ => ⟨rfl, rfl, hatt hmiss⟩⟩
  · exact fun _ => ⟨rfl, rfl, hatt hmiss⟩
  · exact ⟨rfl, fun _ => nofun⟩
  · refine fun _ => ⟨rfl, rfl, fun h => ?_⟩
    simp [hroute (hmust h).1] at hoth
  refine ⟨trivial, ?_⟩
  rintro (_ | _)
  · exact fallback_stays (fun h => by cases h.2) _
  rcases existing with _ | mapping
  · refine admitFlow_stays (fun h => by cases (hmust h.1).1) generation (hnew ?_ ?_ ?_)
    · exact eq_false_of_not_eq_true hmiss
    · simpa using hoth
    · exact eq_false_of_not_eq_true hclient
  · exact handOver_existing mapping

theorem routeParsed_stays : Stays router packet .kept must
    (router.routeParsed generation packet parsed existing workerFailed) := by
  unfold routeParsed
  obtain ⟨hsrc, hdst, hport⟩ : parsed.flow.client.ip = parsed.source ∧
      parsed.flow.remote.ip = parsed.destination ∧
      parsed.flow.remote.port = parsed.destinationPort := by
    rcases parsed with ⟨_, _, _ | _, _ | _⟩ <;> exact ⟨rfl, rfl, rfl⟩
  by_cases hoth : ¬(parsed.protocol = 6 ∨ parsed.protocol = 17) ∨
      parsed.source.isIpv4 ≠ parsed.destination.isIpv4
  · rw [if_pos hoth]
    refine fun _ => ⟨rfl, rfl, fun h => ?_⟩
    have htrans := (hmust h).2.transport
    rw [hsrc, hdst] at htrans
    exact htrans hoth
  extract_lets splitDnsClient target withRoute
  have hwithRoute : ∀ route, (existing.isSome → route = .direct) →
      Stays router packet .kept must (withRoute route) := by
    intro route hroute
    change Stays router packet _ _ (if (!splitDnsClient && route == .reject) then _ else _)
    by_cases hrej : (!splitDnsClient && route == .reject)
    · rw [if_pos hrej]
      exact consume_stays packet
    extract_lets withAvailable
    have hwith : ∀ available, Stays router packet .kept must (withAvailable available) := by
      intro available
      change Stays router packet _ _ (if (!available) then _ else _)
      split_ifs with havailable htgt
      · exact consume_stays packet
      · refine fallback_stays (fun h => ?_) _
        have hfine := (hmust h).2.target
        rw [hdst, hport] at hfine
        simp [target, hfine] at htgt
      · refine forward_stays generation workerFailed hmust hroute ?_
        intro hatt hdirect hclient
        refine ⟨hatt, ?_, ?_⟩
        · rw [hsrc, hdst]
          exact hoth
        · rw [hdst, hport]
          simpa [splitDnsClient, hdirect, hclient, target] using htgt
    split_ifs
    · unfold directFamilyAvailable
      extract_lets ip
      split_ifs
      · exact hwith true
      · exact ⟨trivial, fun _ => hwith _⟩
    · exact hwith true
  split_ifs with hsome
  · exact hwithRoute .direct fun _ => rfl
  · exact ⟨trivial, fun _ => ⟨trivial, fun route => hwithRoute route fun h => absurd h hsome⟩⟩

end

end

/-! ## A call -/

def HasFlow (table : NatTable) (generation : Option UInt64) (packet : Bytes) : Prop :=
  ∃ parsed mapping, NatPacket.parse packet = some parsed ∧
    table.forward.lookup parsed.flow = some mapping ∧ mapping.networkGeneration = generation

/-- The packet is a query to the internal DNS, which runs. -/
def DirectGatewayRouter.InternalDns (router : DirectGatewayRouter) (packet : Bytes) : Prop :=
  router.splitDns = true ∧
    ∃ parsed, NatPacket.parse packet = some parsed ∧ isSplitDnsClientPacket parsed = true

/-- The routing that is frozen for the call rejects the destination of the packet. -/
def DirectGatewayRouter.Rejects (router : DirectGatewayRouter) (captured : Runtimes)
    (packet : Bytes) : Prop :=
  ∃ ip, destination packet = some ip ∧
    (router.policy.freezeRouting captured).rejectsIp captured ip = true

variable (router : DirectGatewayRouter) (captured : Runtimes) (generation : Option UInt64)
  (packet : Bytes)

/-- The lookup of an existing flow makes no mapping, and what it finds was in the table. -/
theorem existing_spec (parsed : NatPacket) (hpar : NatPacket.parse packet = some parsed) :
    Holds start (call (.existing parsed.flow generation))
      (fun existing w => Kept start w ∧
        (existing.isSome → HasFlow start.table generation packet)) start := by
  refine .act ?_ ?_
  · intro guard hsome
    cases hsome
  intro answer after hdoes
  obtain ⟨hshrinks, -, hsent⟩ := hdoes.shrinks (by simp)
  refine .pure ⟨⟨hshrinks.source, hsent (by simp)⟩, fun hsome => ?_⟩
  obtain ⟨mapping, rfl⟩ := isSome_iff_exists.mp hsome
  obtain ⟨hlive, hgen⟩ := hdoes.found
  obtain ⟨old, last, hold, rfl⟩ := hshrinks.source _ _ hlive
  exact ⟨parsed, old, hpar, hold, hgen⟩

/-- A call that passes the packet on left nothing behind, and the packet is not rejected,
    or is one of the two exceptions. -/
theorem routeOutgoing_spec :
    Holds start (router.routeOutgoing captured generation packet) (fun r w =>
      Handed start packet r w ∧
        (r.1 = false → router.Rejects captured packet →
          HasFlow start.table generation packet ∨ router.InternalDns packet)) start := by
  unfold routeOutgoing
  extract_lets parsed routing internalDns withExisting
  have hwith : ∀ existing w, Kept start w ∧
        (existing.isSome → HasFlow start.table generation packet) →
      Holds start (withExisting existing) (fun r w => Handed start packet r w ∧
        (r.1 = false → router.Rejects captured packet →
          HasFlow start.table generation packet ∨ router.InternalDns packet)) w := by
    rintro existing w1 ⟨h1, hflow⟩
    change Holds start (if (existing.isNone && !internalDns &&
      (destination packet).any fun ip => routing.rejectsIp captured ip) then _ else _) _ _
    by_cases hreject : (existing.isNone && !internalDns &&
        (destination packet).any fun ip => routing.rejectsIp captured ip)
    · rw [if_pos hreject]
      refine .act ?_ fun _ _ _ => .pure ⟨nofun, nofun⟩
      intro guard hsome
      cases hsome
    rw [if_neg hreject]
    have hexcept : router.Rejects captured packet →
        HasFlow start.table generation packet ∨ router.InternalDns packet := by
      rintro ⟨ip, hip, hrej⟩
      by_cases hsome : existing.isSome
      · exact .inl (hflow hsome)
      right
      have hinternal : internalDns := by
        by_contra hno
        refine hreject ?_
        simp only [and_eq_true, not_eq_true', hip, any_some]
        exact ⟨⟨by simpa using hsome, by simpa using hno⟩, hrej⟩
      obtain ⟨hdns, hany⟩ := Bool.and_eq_true_iff.mp hinternal
      exact ⟨hdns, (any_eq_true _ _).mp hany⟩
    refine ((?_ : Stays router packet .kept False _).holds h1).mono ?_
    · refine ⟨trivial, fun workerFailed => ?_⟩
      rcases parsed with _ | parsed'
      · exact fun _ => ⟨rfl, rfl, id⟩
      · exact routeParsed_stays generation workerFailed False.elim
    · intro r w hhanded
      exact ⟨hhanded, fun _ => hexcept⟩
  rcases hpar : parsed with _ | parsed'
  · refine hwith none start ⟨⟨.refl _, rfl⟩, ?_⟩
    intro hsome
    cases hsome
  · exact .andThen (existing_spec generation packet parsed' hpar) hwith

/-- **The hand-over is all or nothing.** A call does not panic. If it ends with `false`,
    the packet is unchanged, nothing went into the stack and no mapping is new; a packet
    that the frozen routing rejects is then one of a flow of the generation or a query to
    the internal DNS. If it is dropped where it awaits, no mapping is new either. -/
theorem handover_all_or_nothing {code : GatewayCode (Bool × Bytes)} {after : GatewayWorld}
    (run : Code.Runs Does (router.routeOutgoing captured generation packet) start code after) :
    code ≠ .panicked ∧
    (∀ returned, code = .done (false, returned) →
      returned = packet ∧ after.sent = start.sent ∧ NoneNew start.table after.table ∧
      (router.Rejects captured packet →
        HasFlow start.table generation packet ∨ router.InternalDns packet)) ∧
    (∀ op k guard table, code = .act op k → op.guard = some guard → Others after.table table →
      NoneNew start.table (GatewayWorld.dropped { after with table } guard).table) := by
  have hrun := (routeOutgoing_spec router captured generation packet).runs run
  refine ⟨?_, ?_, ?_⟩
  · rintro rfl
    exact hrun
  · rintro returned rfl
    obtain ⟨hhanded, hrejects⟩ := hrun
    obtain ⟨rfl, hkept⟩ := hhanded rfl
    exact ⟨rfl, hkept.sent, hkept.noneNew, hrejects rfl⟩
  · rintro op k guard table rfl hguard hothers
    exact hrun.1 guard hguard table hothers

end

/-! ## A sample -/

def sampleRouter : DirectGatewayRouter := ⟨.disabled 0, true, true, false⟩

def sampleRuntimes : Runtimes := fun _ => ⟨⟨0, ⟨1, ⟨[], false⟩, [], []⟩⟩⟩

def sampleWorld (table : NatTable) : GatewayWorld := ⟨table, false, []⟩

/-- The socket of a new flow cannot be set up. -/
theorem sample_setupFailed (order : Order) : Code.Runs Does
    (sampleRouter.routeOutgoing sampleRuntimes (some 1) samplePacket) (sampleWorld (.default 0))
    (.done (false, samplePacket))
    (sampleWorld (((NatTable.default 0).reserve order sampleFlow (some 1) 0 0).1.removeIf
      sampleFlow 1)) := by
  refine .front none ⟨_, .refl, order, 0, 0, rfl⟩ ?_
  refine .front false ⟨_, .refl, rfl⟩ ?_
  refine .front (some 1) ⟨_, .refl, rfl⟩ ?_
  refine .front GeoRoute.direct ⟨_, .refl, rfl⟩ ?_
  refine .front (some true) ⟨_, .refl, rfl⟩ ?_
  refine .front true ⟨_, .refl, rfl⟩ ?_
  refine .front (some (sampleMapping 1 49152 1 0)) ⟨_, .refl, order, 0, 0, rfl⟩ ?_
  refine .front false ⟨_, .refl, rfl⟩ ?_
  refine .front () ⟨_, .refl, rfl⟩ ?_
  refine .front () ⟨_, .refl, rfl⟩ ?_
  exact .refl

theorem handover_all_or_nothing_sample : ∃ order : Order,
    (((NatTable.default 0).reserve order sampleFlow (some 1) 0 0).1.removeIf
      sampleFlow 1).forward.lookup sampleFlow = none := by
  obtain ⟨order⟩ := Iteration.nonempty FlowKey Mapping
  obtain ⟨-, hdone, -⟩ := handover_all_or_nothing sampleRouter sampleRuntimes (some 1) samplePacket
    (sample_setupFailed order)
  refine ⟨order, ?_⟩
  obtain ⟨-, -, hnone, -⟩ := hdone samplePacket rfl
  rcases hlookup : (((NatTable.default 0).reserve order sampleFlow (some 1) 0 0).1.removeIf
      sampleFlow 1).forward.lookup sampleFlow with _ | mapping
  · rfl
  · obtain ⟨old, _, hold, -⟩ := hnone sampleFlow mapping hlookup
    cases hold

end Usque.Gateway
