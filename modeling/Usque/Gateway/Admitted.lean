/-
  A flow that was admitted to the direct gateway stays out of the tunnel while the
  gateway is available.

  In every world that is reached each mapping is one of a flow that the router supports,
  so that a packet of the flow passes the checks that send others to the tunnel.
-/
import Usque.Gateway.Handover

namespace Usque.Gateway
open Lib Routing NatTable GatewayWorld DirectGatewayRouter

/-- The worlds that the calls of a router reach, with what the others do in between. A
    call ends, or its future is dropped where it awaits. -/
inductive Reaches (router : DirectGatewayRouter) : GatewayWorld → Prop where
  | start (now : ℕ) : Reaches router ⟨.default now, false, []⟩
  | others {world : GatewayWorld} {table : NatTable} (h : Reaches router world)
    (hothers : Others world.table table) : Reaches router { world with table }
  | returned {world after : GatewayWorld} {captured : Runtimes} {generation : Option UInt64}
    {packet : Bytes} {r : Bool × Bytes} (h : Reaches router world)
    (run : Code.Runs Does (router.routeOutgoing captured generation packet) world (.done r) after) :
    Reaches router after
  | dropped {world after : GatewayWorld} {captured : Runtimes} {generation : Option UInt64}
    {packet : Bytes} {op : GatewayOp} {k : op.Answer → GatewayCode (Bool × Bytes)}
    {guard : Option NatReservation} (h : Reaches router world)
    (run : Code.Runs Does (router.routeOutgoing captured generation packet) world (.act op k) after)
    (hguard : op.guard = some guard) : Reaches router (after.dropped guard)

def Supported (router : DirectGatewayRouter) (table : NatTable) : Prop :=
  ∀ flow mapping, table.forward.lookup flow = some mapping → Supports router flow

/-- The lookup of the flow finds a live mapping of the generation. -/
def Finds : (op : GatewayOp) → op.Answer → Prop
  | .existing .., found => found.isSome
  | _, _ => True

/-- `tun_direct_available` answers that it is. -/
def IsAvailable : (op : GatewayOp) → op.Answer → Prop
  | .tunDirectAvailable, available => available
  | _, _ => True

/-- What an operation may do in a call for a live flow, while the gateway is available. -/
def DoesLive (op : GatewayOp) (world : GatewayWorld) (answer : op.Answer) (after : GatewayWorld) :
    Prop :=
  Does op world answer after ∧ Finds op answer ∧ IsAvailable op answer

section
variable {router : DirectGatewayRouter} {packet : Bytes} {parsed : NatPacket} {phase : Phase}
  {must : Prop} {start world after : GatewayWorld} {op : GatewayOp} {answer : op.Answer}

theorem Supported.noneNew {before table : NatTable} (h : Supported router before)
    (hnone : NoneNew before table) : Supported router table := by
  intro flow mapping hlive
  obtain ⟨old, _, hold, -⟩ := hnone flow mapping hlive
  exact h flow old hold

theorem Supported.does (h : Supported router world.table) (hallows : phase.Allows router op)
    (hdoes : Does op world answer after) : Supported router after.table := by
  cases op with
  | reserve =>
    obtain ⟨-, hnone, hsome⟩ := hdoes.reserves
    rcases answer with _ | mapping
    · exact h.noneNew (hnone rfl)
    intro flow' mapping' hlive
    rcases (hsome mapping rfl).2 flow' mapping' hlive with ⟨rfl, -⟩ | ⟨old, _, hold, -⟩
    · exact hallows.2
    · exact h flow' old hold
  | _ => exact h.noneNew (hdoes.shrinks (by simp)).1.source

theorem DoesLive.keeps (h : DoesLive op world answer after) (haft : Supported router after.table)
    (hmust : must) : Must router must op answer := by
  cases op with
  | existing flow =>
    refine ⟨hmust, h.2.1, ?_⟩
    obtain ⟨mapping, rfl⟩ := Option.isSome_iff_exists.mp h.2.1
    exact haft flow mapping h.1.found.1
  | tunDirectAvailable => exact ⟨hmust, h.2.2⟩
  | _ => exact hmust

theorem Stays.runs {does : (op : GatewayOp) → GatewayWorld → op.Answer → GatewayWorld → Prop}
    (hdoes : ∀ op world answer after, does op world answer after → Does op world answer after)
    {x code : GatewayCode (Bool × Bytes)} (h : Stays router packet phase must x)
    (hst : Supported router start.table) (run : Code.Runs does x start code after) :
    Supported router after.table ∧ ∃ phase' must', Stays router packet phase' must' code ∧
      ((∀ op world answer after, does op world answer after → DoesLive op world answer after) →
        must → must') := by
  induction run with
  | refl => exact ⟨hst, phase, must, h, fun _ => id⟩
  | @step op _ _ _ answer _ hd ih =>
    obtain ⟨hworld, phase', must', hstays, hmust⟩ := ih
    have haft := hworld.does hstays.1 (hdoes _ _ _ _ hd)
    refine ⟨haft, _, _, hstays.2 answer, fun hlive hm => ?_⟩
    exact (hlive _ _ _ _ hd).keeps haft (hmust hlive hm)

theorem routeOutgoing_stays (captured : Runtimes) (generation : Option UInt64) :
    Stays router packet .kept (NatPacket.parse packet).isSome
      (router.routeOutgoing captured generation packet) := by
  unfold routeOutgoing
  extract_lets parsed routing internalDns withExisting
  have hwith : ∀ (existing : Option Mapping) (must : Prop),
      (must → ∃ p, parsed = some p ∧ existing.isSome ∧ Supports router p.flow) →
      Stays router packet .kept must (withExisting existing) := by
    intro existing must hmust
    change Stays router packet _ _ (if (existing.isNone && !internalDns &&
      (destination packet).any fun ip => routing.rejectsIp captured ip) then _ else _)
    split_ifs
    · exact consume_stays packet
    refine ⟨trivial, fun workerFailed => ?_⟩
    rcases hpar : parsed with _ | p
    · refine fun _ => ⟨rfl, rfl, fun h => ?_⟩
      obtain ⟨p, hsome, -⟩ := hmust h
      cases hpar.symm.trans hsome
    · refine routeParsed_stays generation workerFailed fun h => ?_
      obtain ⟨p', hsome, hfnd⟩ := hmust h
      cases hpar.symm.trans hsome
      exact hfnd
  rcases hpar : parsed with _ | p
  · refine hwith none _ fun h => ?_
    rw [show NatPacket.parse packet = none from hpar] at h
    cases h
  · exact ⟨trivial, fun existing => hwith existing _ fun h => ⟨p, hpar, h.2⟩⟩

theorem Reaches.supported (h : Reaches router start) : Supported router start.table := by
  induction h with
  | start =>
    intro flow mapping hlive
    cases hlive
  | others _ hoths ih => exact ih.noneNew hoths.shrinks.source
  | returned _ run ih => exact ((routeOutgoing_stays _ _).runs (fun _ _ _ _ h => h) ih run).1
  | @dropped _ after _ _ _ _ _ guard _ run _ ih =>
    have haft := ((routeOutgoing_stays _ _).runs (fun _ _ _ _ h => h) ih run).1
    rcases guard with _ | reservation
    · exact haft
    · have hdoes : Does (.removeIf reservation.flow reservation.id) after ()
          (after.dropped (some reservation)) := ⟨_, .refl, rfl⟩
      exact haft.noneNew (hdoes.shrinks (by simp)).1.source

/-- **An admitted flow stays out of the tunnel.** In every run of the gateway, a call for
    a packet whose flow has a live mapping of the network generation does not panic and
    consumes the packet, if the gateway is available when the call asks for it. -/
theorem admitted_flow_stays_direct (h : Reaches router start) (captured : Runtimes)
    (generation : Option UInt64) (hparsed : NatPacket.parse packet = some parsed)
    {code : GatewayCode (Bool × Bytes)}
    (run : Code.Runs DoesLive (router.routeOutgoing captured generation packet) start code after) :
    code ≠ .panicked ∧ ∀ r, code = .done r → r.1 = true := by
  obtain ⟨-, phase, must, hstays, hmust⟩ := (routeOutgoing_stays captured generation).runs
    (fun _ _ _ _ h => h.1) h.supported run
  constructor
  · rintro rfl
    exact hstays
  · rintro ⟨returned, packet'⟩ rfl
    by_contra hfalse
    obtain ⟨-, -, hfree⟩ := hstays (Bool.eq_false_of_not_eq_true hfalse)
    exact hfree (hmust (fun _ _ _ _ h => h) (by simp [hparsed]))

end

/-! ## A flow and an unavailable gateway -/

abbrev sampleTable (order : Order) : NatTable :=
  ((NatTable.default 0).reserve order sampleFlow (some 1) 0 0).1

theorem sample_admitted (order : Order) : Reaches sampleRouter (sampleWorld (sampleTable order)) := by
  have run : ∃ r, Code.Runs Does (sampleRouter.routeOutgoing sampleRuntimes (some 1) samplePacket)
      (sampleWorld (.default 0)) (.done r) (sampleWorld (sampleTable order)) := by
    apply Exists.intro
    refine .front none ⟨_, .refl, order, 0, 0, rfl⟩ ?_
    refine .front false ⟨_, .refl, rfl⟩ ?_
    refine .front (some 1) ⟨_, .refl, rfl⟩ ?_
    refine .front GeoRoute.direct ⟨_, .refl, rfl⟩ ?_
    refine .front (some true) ⟨_, .refl, rfl⟩ ?_
    refine .front true ⟨_, .refl, rfl⟩ ?_
    refine .front (some (sampleMapping 1 49152 1 0)) ⟨_, .refl, order, 0, 0, rfl⟩ ?_
    refine .front true ⟨_, .refl, rfl⟩ ?_
    refine .front false ⟨_, .refl, rfl⟩ ?_
    refine .front false ⟨_, .refl, rfl⟩ ?_
    refine .front (some 1) ⟨_, .refl, rfl⟩ ?_
    refine .front (some (sampleMapping 1 49152 1 0)) ⟨_, .refl, rfl, rfl⟩ ?_
    refine .front () ⟨_, .refl, rfl⟩ ?_
    refine .front () ⟨_, .refl, .inl rfl⟩ ?_
    exact .refl
  obtain ⟨r, run⟩ := run
  exact .returned (.start 0) run

/-- The task of the flow ended. -/
theorem admitted_flow_stays_direct_sample : ∃ start after r,
    Code.Runs DoesLive (sampleRouter.routeOutgoing sampleRuntimes (some 1) samplePacket) start
      (.done r) after ∧ r.1 = true := by
  obtain ⟨order⟩ := Iteration.nonempty FlowKey Mapping
  have run : Code.Runs DoesLive (sampleRouter.routeOutgoing sampleRuntimes (some 1) samplePacket)
      (sampleWorld (sampleTable order)) (.done (true, samplePacket)) (sampleWorld
        (((sampleTable order).existing order sampleFlow (some 1) 0 0).1.removeIf sampleFlow 1)) := by
    refine .front (some (sampleMapping 1 49152 1 0)) ⟨⟨_, .refl, order, 0, 0, rfl⟩, rfl, trivial⟩ ?_
    refine .front false ⟨⟨_, .refl, rfl⟩, trivial, trivial⟩ ?_
    refine .front (some true) ⟨⟨_, .refl, rfl⟩, trivial, trivial⟩ ?_
    refine .front true ⟨⟨_, .refl, rfl⟩, trivial, rfl⟩ ?_
    refine .front true ⟨⟨_, .refl, rfl⟩, trivial, trivial⟩ ?_
    refine .front () ⟨⟨_, .refl, rfl⟩, trivial, trivial⟩ ?_
    refine .front () ⟨⟨_, .refl, rfl⟩, trivial, trivial⟩ ?_
    exact .refl
  exact ⟨_, _, _, run, (admitted_flow_stays_direct (sample_admitted order) sampleRuntimes
    (some 1) samplePacket_parse run).2 _ rfl⟩

/-- A packet of an admitted flow goes into the tunnel. -/
theorem unavailable_gateway_tunnels : ∃ start after, Reaches sampleRouter start ∧
    Code.Runs (fun op world answer after => Does op world answer after ∧ Finds op answer)
      (sampleRouter.routeOutgoing sampleRuntimes (some 1) samplePacket) start
      (.done (false, samplePacket)) after := by
  obtain ⟨order⟩ := Iteration.nonempty FlowKey Mapping
  refine ⟨_, sampleWorld (sampleTable order), sample_admitted order, ?_⟩
  refine .front (some (sampleMapping 1 49152 1 0)) ⟨⟨_, .refl, order, 0, 0, rfl⟩, rfl⟩ ?_
  refine .front false ⟨⟨_, .refl, rfl⟩, trivial⟩ ?_
  refine .front (some true) ⟨⟨_, .refl, rfl⟩, trivial⟩ ?_
  refine .front false ⟨⟨_, .refl, rfl⟩, trivial⟩ ?_
  refine .front () ⟨⟨_, .refl, rfl⟩, trivial⟩ ?_
  exact .refl

end Usque.Gateway
