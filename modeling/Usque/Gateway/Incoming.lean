/-
  Packets through the direct gateway stay valid and are reversible.
-/
import Usque.Gateway.NatRuns
import Usque.Gateway.Rewriting

namespace Usque.Gateway
open Lib HashMap List NatTable NatPacket SocketAddr
open PacketMux (SameExcept)

variable {packet : Bytes} {parsed : NatPacket} {order : Order} {now : ℕ} {flow : FlowKey}
  {mapping : Mapping}

/-- `rewrite_source` or `rewrite_destination`. -/
def rewrite (source : Bool) (packet : Bytes) (parsed : NatPacket) (endpoint : SocketAddr) :
    Bool × Bytes :=
  if source then rewriteSource packet parsed endpoint else rewriteDestination packet parsed endpoint

namespace NatPacket

section
variable (parsed : NatPacket) (source : Bool)

def endpoint : SocketAddr :=
  if source then .new parsed.source parsed.sourcePort
  else .new parsed.destination parsed.destinationPort

def withEndpoint (endpoint : SocketAddr) : NatPacket :=
  if source then { parsed with source := endpoint.ip, sourcePort := endpoint.port }
  else { parsed with destination := endpoint.ip, destinationPort := endpoint.port }

def checksumFields : List ℕ :=
  if parsed.version = 4 then [10, parsed.checksumOffset] else [parsed.checksumOffset]

/-- The byte belongs to the address or the port of an endpoint, or to a checksum. -/
def Touches (i : ℕ) : Prop :=
  (∃ offset length, addressPlace parsed.version source = some (offset, length) ∧
    offset ≤ i ∧ i < offset + length) ∨
  (parsed.transportOffset + (if source then 0 else 2) ≤ i ∧
    i < parsed.transportOffset + (if source then 0 else 2) + 2) ∨
  ∃ offset ∈ parsed.checksumFields, i = offset ∨ i = offset + 1

end

end NatPacket

/-- Two packets are equal up to the spelling of the checksums at `offsets`. -/
def Respelled (packet packet' : Bytes) (offsets : List ℕ) : Prop :=
  SameExcept packet packet' offsets ∧ ∀ offset ∈ offsets, ∃ a b,
    readU16 packet offset = some a ∧ readU16 packet' offset = some b ∧ Frame.SameChecksum a b

/-- What a rewrite of one endpoint does to an accepted packet. -/
structure Readdressed (packet : Bytes) (parsed : NatPacket) (source : Bool)
    (endpoint : SocketAddr) (out : Bytes) : Prop where
  parses : parse out = some (parsed.withEndpoint source endpoint)
  length_eq : out.length = packet.length
  others : ∀ i, ¬ parsed.Touches source i → out[i]? = packet[i]?
  valid : (packet.drop parsed.transportOffset).length ≤ 131038 →
    validTransport packet parsed = true →
    validTransport out (parsed.withEndpoint source endpoint) = true
  udp : parsed.protocol = 17 → ∀ checksum, readU16 packet parsed.checksumOffset = some checksum →
    checksum ≠ 0 → ∃ checksum', readU16 out parsed.checksumOffset = some checksum' ∧ checksum' ≠ 0
  absent : parsed.version = 4 → parsed.protocol = 17 →
    readU16 packet parsed.checksumOffset = some 0 → readU16 out parsed.checksumOffset = some 0
  back : ∃ original,
    rewrite source out (parsed.withEndpoint source endpoint) (parsed.endpoint source) =
      (true, original) ∧ Respelled packet original parsed.checksumFields

/-! ## Bytes that a rewrite keeps -/

variable {source : Bytes} {offset : ℕ}

theorem length_copyFromSlice (h : offset + source.length ≤ packet.length) :
    (copyFromSlice packet offset source).length = packet.length := by
  simp only [copyFromSlice, length_append, length_take, length_drop]
  omega

theorem getElem?_copyFromSlice {i : ℕ} (h : offset + source.length ≤ packet.length)
    (hi : i < offset ∨ offset + source.length ≤ i) :
    (copyFromSlice packet offset source)[i]? = packet[i]? := by
  unfold copyFromSlice
  have htake : (packet.take offset).length = offset := by
    rw [length_take]
    omega
  rcases hi with hi | hi
  · rw [append_assoc, getElem?_append_left (by omega), getElem?_take_of_lt hi]
  · rw [getElem?_append_right (by rw [length_append, htake]; exact hi),
      length_append, getElem?_drop]
    congr 1
    omega

theorem rewriteEndpoint_others (packet : Bytes) (parsed : NatPacket) (oldIp newIp : IpAddr)
    (oldPort newPort : UInt16) (source : Bool) :
    (rewriteEndpoint packet parsed oldIp newIp oldPort newPort source).2.length = packet.length ∧
      ∀ i, ¬ parsed.Touches source i →
        (rewriteEndpoint packet parsed oldIp newIp oldPort newPort source).2[i]? = packet[i]? := by
  unfold rewriteEndpoint
  by_cases hfam : oldIp.isIpv4 ≠ newIp.isIpv4
  · rw [if_pos hfam]
    exact ⟨rfl, fun _ _ => rfl⟩
  · rw [if_neg hfam]
    cases hplace : addressPlace parsed.version source with
    | none => exact ⟨rfl, fun _ _ => rfl⟩
    | some place =>
      obtain ⟨offset, length⟩ := place
      dsimp only
      by_cases hsht : packet.length < offset + length ∨
          packet.length < parsed.transportOffset + (if source then 0 else 2) + 2 ∨
          packet.length < parsed.checksumOffset + 2 ∨ (parsed.version = 4 ∧ packet.length < 12)
      · rw [if_pos hsht]
        exact ⟨rfl, fun _ _ => rfl⟩
      rw [if_neg hsht]
      by_cases hlens : oldIp.octets.length ≠ length ∨ newIp.octets.length ≠ length
      · rw [if_pos hlens]
        exact ⟨rfl, fun _ _ => rfl⟩
      rw [if_neg hlens]
      push Not at hsht hlens
      -- the packet after the two checksums
      generalize hsums : (if parsed.version = 4 then writeU16 _ 10 _ else _) = sums
      have hsame : sums.length = packet.length ∧
          ∀ i, ¬ parsed.Touches source i → sums[i]? = packet[i]? := by
        have htouch : ∀ i, ¬ parsed.Touches source i → ∀ field ∈ parsed.checksumFields,
            i ≠ field ∧ i ≠ field + 1 := by
          intro i hi field hfield
          refine ⟨fun heq => hi ?_, fun heq => hi ?_⟩
          · exact .inr (.inr ⟨field, hfield, .inl heq⟩)
          · exact .inr (.inr ⟨field, hfield, .inr heq⟩)
        subst hsums
        constructor
        · split_ifs <;> simp
        · intro i hi
          have hfields := htouch i hi
          unfold checksumFields at hfields
          have hck : i ≠ parsed.checksumOffset ∧ i ≠ parsed.checksumOffset + 1 := by
            refine hfields _ ?_
            split_ifs <;> simp
          have htrans : ∀ value, (if parsed.checksumOptional ∧
              (readU16 packet parsed.checksumOffset).getD 0 = 0 then packet
              else writeU16 packet parsed.checksumOffset value)[i]? = packet[i]? := by
            intro value
            split_ifs
            · rfl
            · exact getElem?_writeU16 _ _ hck.1 hck.2
          by_cases hver : parsed.version = 4
          · rw [if_pos hver] at hfields ⊢
            have hhdr := hfields 10 (by simp)
            rw [getElem?_writeU16 _ _ hhdr.1 hhdr.2]
            exact htrans _
          · rw [if_neg hver]
            exact htrans _
      have hroom : offset + newIp.octets.length ≤ sums.length := by
        rw [hsame.1, hlens.2]
        exact hsht.1
      constructor
      · rw [length_writeU16, length_copyFromSlice hroom, hsame.1]
      · intro i hi
        have hport : i ≠ parsed.transportOffset + (if source then 0 else 2) ∧
            i ≠ parsed.transportOffset + (if source then 0 else 2) + 1 := by
          constructor
          · intro heq
            exact hi (.inr (.inl ⟨by omega, by omega⟩))
          · intro heq
            exact hi (.inr (.inl ⟨by omega, by omega⟩))
        have haddr : i < offset ∨ offset + newIp.octets.length ≤ i := by
          by_contra hin
          push Not at hin
          rw [hlens.2] at hin
          exact hi (.inl ⟨offset, length, hplace, hin⟩)
        rw [getElem?_writeU16 _ _ hport.1 hport.2, getElem?_copyFromSlice hroom haddr, hsame.2 i hi]

theorem rewriteEndpoint_refused {oldIp newIp : IpAddr} {oldPort newPort : UInt16} {source : Bool}
    (h : (rewriteEndpoint packet parsed oldIp newIp oldPort newPort source).1 = false) :
    (rewriteEndpoint packet parsed oldIp newIp oldPort newPort source).2 = packet := by
  unfold rewriteEndpoint at h ⊢
  by_cases hfam : oldIp.isIpv4 ≠ newIp.isIpv4
  · rw [if_pos hfam]
  · rw [if_neg hfam] at h ⊢
    cases hplace : addressPlace parsed.version source with
    | none => rfl
    | some place =>
      rw [hplace] at h
      dsimp only at h ⊢
      by_cases hsht : packet.length < place.1 + place.2 ∨
          packet.length < parsed.transportOffset + (if source then 0 else 2) + 2 ∨
          packet.length < parsed.checksumOffset + 2 ∨ (parsed.version = 4 ∧ packet.length < 12)
      · rw [if_pos hsht]
      rw [if_neg hsht] at h ⊢
      by_cases hlens : oldIp.octets.length ≠ place.2 ∨ newIp.octets.length ≠ place.2
      · rw [if_pos hlens]
      rw [if_neg hlens] at h
      cases h

theorem rewrite_eq (source : Bool) (packet : Bytes) (parsed : NatPacket) (endpoint : SocketAddr) :
    rewrite source packet parsed endpoint = rewriteEndpoint packet parsed
      (if source then parsed.source else parsed.destination) endpoint.ip
      (if source then parsed.sourcePort else parsed.destinationPort) endpoint.port source := by
  cases source <;> rfl

variable {endpoint : SocketAddr}

theorem rewrite_refused {source : Bool} (h : (rewrite source packet parsed endpoint).1 = false) :
    (rewrite source packet parsed endpoint).2 = packet := by
  rw [rewrite_eq] at h ⊢
  exact rewriteEndpoint_refused h

/-! ## Rewriting an accepted packet -/

theorem endpoint_ip (parsed : NatPacket) (source : Bool) :
    (parsed.endpoint source).ip = if source then parsed.source else parsed.destination := by
  cases source
  · cases hip : parsed.destination <;>
      simp [endpoint, hip, new, ip]
  · cases hip : parsed.source <;> simp [endpoint, hip, new, ip]

theorem endpoint_port (parsed : NatPacket) (source : Bool) :
    (parsed.endpoint source).port =
      if source then parsed.sourcePort else parsed.destinationPort := by
  cases source
  · cases hip : parsed.destination <;>
      simp [endpoint, hip, new, port]
  · cases hip : parsed.source <;> simp [endpoint, hip, new, port]

namespace Frame
variable (f : Frame)

theorem rewrite_bytes (source : Bool) (endpoint : SocketAddr)
    (h : endpoint.ip.isIpv4 = !f.ipv6) : rewrite source f.bytes f.parsed endpoint =
      (true, (f.rewritten source endpoint.ip endpoint.port h).bytes) := by
  rw [rewrite_eq]
  exact f.rewriteEndpoint_bytes source endpoint.ip endpoint.port h

/-- Other checksums are written in place. -/
theorem resealed_respelled {checksum headerChecksum : UInt16}
    (hsum : SameChecksum f.checksum checksum)
    (hhdr : SameChecksum f.headerChecksum headerChecksum) :
    Respelled f.bytes (f.resealed checksum headerChecksum).bytes f.parsed.checksumFields := by
  have hread : readU16 (f.resealed checksum headerChecksum).bytes f.checksumOffset =
      some checksum := (f.resealed checksum headerChecksum).read_checksum
  have hwrite := f.write_checksum checksum
  unfold checksumFields
  cases hipv6 : f.ipv6
  · have hver : f.parsed.version = 4 := by simp [parsed, hipv6]
    rw [if_pos hver]
    have hwrite' := (f.resealed checksum f.headerChecksum).write_headerChecksum headerChecksum hipv6
    rw [← hwrite] at hwrite'
    constructor
    · have hsame := SameExcept.refl f.bytes [10, f.checksumOffset]
      have hsame' := (hsame.writeU16 (show f.checksumOffset ∈ [10, f.checksumOffset] by simp)
        checksum).writeU16 (show 10 ∈ [10, f.checksumOffset] by simp) headerChecksum
      rw [hwrite'] at hsame'
      exact hsame'
    · intro offset hoff
      simp only [mem_cons, not_mem_nil, or_false] at hoff
      rcases hoff with rfl | rfl
      · exact ⟨_, _, f.read_headerChecksum hipv6,
          (f.resealed checksum headerChecksum).read_headerChecksum hipv6, hhdr⟩
      · exact ⟨_, _, f.read_checksum, hread, hsum⟩
  · have hver : f.parsed.version ≠ 4 := by simp [parsed, hipv6]
    rw [if_neg hver]
    -- the header checksum is no field of IPv6
    have hbyt : (f.resealed checksum headerChecksum).bytes =
        (f.resealed checksum f.headerChecksum).bytes := by
      simp only [bytes, header, opening, resealed, hipv6, if_true]
      rfl
    constructor
    · have hsame := (SameExcept.refl f.bytes [f.checksumOffset]).writeU16
        (show f.checksumOffset ∈ [f.checksumOffset] by simp) checksum
      rw [hwrite, ← hbyt] at hsame
      exact hsame
    · intro offset hoff
      rw [mem_singleton] at hoff
      subst hoff
      exact ⟨_, _, f.read_checksum, hread, hsum⟩

theorem parsed_family : f.parsed.source.isIpv4 = !f.ipv6 := f.source_family

/-- **A rewrite replaces one endpoint and keeps the packet valid.** -/
theorem readdressed (source : Bool) (endpoint : SocketAddr) (h : endpoint.ip.isIpv4 = !f.ipv6) :
    Readdressed f.bytes f.parsed source endpoint
      (f.rewritten source endpoint.ip endpoint.port h).bytes := by
  set g := f.rewritten source endpoint.ip endpoint.port h with hg
  have hrw := f.rewrite_bytes source endpoint h
  have hpar : g.parsed = f.parsed.withEndpoint source endpoint := by
    rw [parsed_rewritten h]
    rfl
  have hck : g.checksum = if f.Summed then updatedTransport (protocolOf f.tcp) f.checksum
      (addressPairs (f.address source) endpoint.ip) (f.port source) endpoint.port
      else f.checksum := rewritten_checksum h
  have hoff : g.checksumOffset = f.checksumOffset := by
    cases source <;> rfl
  have hread : readU16 g.bytes f.parsed.checksumOffset = some g.checksum := by
    rw [← g.read_checksum, hoff]
    rfl
  have hoths := rewriteEndpoint_others f.bytes f.parsed
    (if source then f.parsed.source else f.parsed.destination) endpoint.ip
    (if source then f.parsed.sourcePort else f.parsed.destinationPort) endpoint.port source
  rw [← rewrite_eq, hrw] at hoths
  refine ⟨?parses, hoths.1, hoths.2, ?valid, ?udp, ?absent, ?back⟩
  case parses => rw [g.parse_bytes, hpar]
  case valid =>
    intro hbody hval
    have hdrop : f.bytes.drop f.parsed.transportOffset = f.transport := f.drop_header
    rw [hdrop] at hbody
    rw [← hpar]
    exact rewritten_valid h hbody hval
  case udp =>
    intro hudp checksum hck' hne
    have htcp : f.tcp = false := by
      cases htcp : f.tcp
      · rfl
      · simp [parsed, protocolOf, htcp] at hudp
    have hold : f.checksum = checksum := Option.some.inj (f.read_checksum.symm.trans hck')
    have hsum : f.Summed := fun hzero => hne (by rw [← hold, hzero.2])
    rw [if_pos hsum, htcp] at hck
    refine ⟨g.checksum, hread, ?_⟩
    rw [hck]
    exact updatedTransport_udp _ _ _ _
  case absent =>
    intro hver hudp hzero
    have hold : f.checksum = 0 := Option.some.inj (f.read_checksum.symm.trans hzero)
    have hopt : f.parsed.checksumOptional := by
      unfold parsed at hver hudp ⊢
      cases htcp : f.tcp <;> cases hipv6 : f.ipv6 <;> simp_all [protocolOf]
    have hnot : ¬ f.Summed := fun hsum => hsum ⟨hopt, hold⟩
    rw [if_neg hnot, hold] at hck
    rw [hread, hck]
  case back =>
    have hip : (f.parsed.endpoint source).ip = f.address source := endpoint_ip f.parsed source
    have hport : (f.parsed.endpoint source).port = f.port source := endpoint_port f.parsed source
    have hsame : g.ipv6 = f.ipv6 := by rw [rewritten_ipv6 h]
    have h' : (f.parsed.endpoint source).ip.isIpv4 = !g.ipv6 := by
      rw [hip, f.address_family, hsame]
    have hback := g.rewrite_bytes source (f.parsed.endpoint source) h'
    refine ⟨_, by rw [← hpar]; exact hback, ?_⟩
    have h'' : (f.address source).isIpv4 = !g.ipv6 := by rw [← hip]; exact h'
    have heq : g.rewritten source (f.parsed.endpoint source).ip (f.parsed.endpoint source).port h' =
        g.rewritten source (f.address source) (f.port source) h'' := by
      congr 1
    rw [heq, rewritten_back hg h'']
    exact f.resealed_respelled (back_checksum hg h'') (back_headerChecksum hg h'')

end Frame

/-- **Every rewrite of an accepted packet to an endpoint of its family** succeeds. -/
theorem rewrite_readdressed (hprs : parse packet = some parsed) (source : Bool)
    (hfam : endpoint.ip.isIpv4 = parsed.source.isIpv4) :
    ∃ out, rewrite source packet parsed endpoint = (true, out) ∧
      Readdressed packet parsed source endpoint out := by
  obtain ⟨f, rfl, rfl⟩ := parse_frame hprs
  have h : endpoint.ip.isIpv4 = !f.ipv6 := hfam.trans f.parsed_family
  exact ⟨_, f.rewrite_bytes source endpoint h, f.readdressed source endpoint h⟩

/-! ## Replies -/

variable {h : List (Event NatTable Call Answer)} {flows : List FlowKey}

namespace NatTable
variable {table : NatTable}

theorem routeIncoming_refused {seen : ℕ}
    (h : (table.routeIncoming order packet now seen).2.1 = false) :
    (table.routeIncoming order packet now seen).2.2 = packet := by
  unfold routeIncoming at h ⊢
  cases hprs : parse packet with
  | none => rfl
  | some parsed =>
    rw [hprs] at h
    rcases hreverse : table.reverseFlow order parsed now seen with ⟨after, _ | flow⟩
    · simp only [hreverse]
    · simp only [hreverse] at h ⊢
      exact rewriteEndpoint_refused h

theorem lookup_removeAll (hflow : flow ∉ flows) (h : table.forward.lookup flow = some mapping) :
    (flows.foldl remove table).forward.lookup flow = some mapping := by
  induction flows generalizing table with
  | nil => exact h
  | cons _ _ ih =>
    rw [mem_cons, not_or] at hflow
    refine ih hflow.2 ?_
    unfold remove
    split
    · exact h
    · rw [lookup_erase_eq, if_neg hflow.1]
      exact h

theorem mem_stale (h : table.forward.lookup flow = some mapping) :
    flow ∈ stale order table now ↔ FLOW_IDLE_TIMEOUT ≤ now - mapping.lastSeen := by
  unfold stale
  rw [mem_map]
  constructor
  · rintro ⟨⟨flow', mapping'⟩, hmem, rfl⟩
    obtain ⟨hiter, hidle⟩ := mem_filter.1 hmem
    have hlook := (order.mem_iter _ _ _).1 hiter
    rw [h] at hlook
    cases hlook
    exact of_decide_eq_true hidle
  · intro hidle
    refine ⟨(flow, mapping), mem_filter.2 ⟨(order.mem_iter _ _ _).2 h, ?_⟩, rfl⟩
    exact decide_eq_true hidle

/-- The sweep of a call at `now` does not retire the mapping. -/
def Fresh (table : NatTable) (mapping : Mapping) (now : ℕ) : Prop :=
  now - table.lastSweep < SWEEP_INTERVAL ∨ now - mapping.lastSeen < FLOW_IDLE_TIMEOUT

theorem lookup_sweepIfNeeded (hfrs : table.Fresh mapping now)
    (h : table.forward.lookup flow = some mapping) :
    (table.sweepIfNeeded order now).forward.lookup flow = some mapping := by
  unfold sweepIfNeeded
  split_ifs with hdue
  · exact h
  · have hidle := hfrs.resolve_left hdue
    exact lookup_removeAll (fun hmem => absurd ((mem_stale h).1 hmem) (by omega)) h

theorem reverseFlow_live (hinv : Inv table) (h : table.forward.lookup flow = some mapping)
    (hfrs : table.Fresh mapping now) (hkey : replyKey parsed = .of flow mapping) (seen : ℕ) :
    (table.reverseFlow order parsed now seen).2 = some flow := by
  have hlive : (table.sweepIfNeeded order now).forward.lookup flow = some mapping :=
    lookup_sweepIfNeeded hfrs h
  have hreverse := (hinv.sweepIfNeeded order now).reverse.lookup hlive
  unfold reverseFlow
  extract_lets swept
  rw [hkey]
  simp only [swept, hreverse, hlive, Option.isSome_some, if_true]

theorem flow_family (h : parse packet = some parsed) :
    parsed.flow.remote.ip.isIpv4 = parsed.flow.client.ip.isIpv4 := by
  obtain ⟨f, -, rfl⟩ := parse_frame h
  have hremote : f.parsed.flow.remote.ip = f.destination := endpoint_ip f.parsed false
  have hclient : f.parsed.flow.client.ip = f.source := endpoint_ip f.parsed true
  rw [hremote, hclient, f.destination_family, f.source_family]

section
variable (run : Steps next (.default now) h table)
  (hcalls : ∀ e ∈ h, e.input.Unmapped e.before ∧ e.input.OfPacket)
  (hlive : table.forward.lookup flow = some mapping)
include run hcalls hlive

theorem live_family : flow.remote.ip.isIpv4 = flow.client.ip.isIpv4 := by
  obtain ⟨-, hhistory⟩ := steps_inv run fun e he => (hcalls e he).1
  obtain ⟨entry, ⟨newer, older, hmade, rfl, -⟩, -⟩ := hhistory.live flow mapping hlive
  have hmem : entry ∈ reserved h := by
    rw [hmade]
    simp
  obtain ⟨e, he, hent⟩ := mem_filterMap.1 hmem
  have hpkt := (hcalls e he).2
  unfold made at hent
  split at hent
  · rename_i hinput _
    cases hent
    rw [hinput] at hpkt
    obtain ⟨packet, parsed, hprs, rfl⟩ := hpkt
    exact flow_family hprs
  · cases hent

/-- **A reply to a live mapping leaves the gateway from the remote endpoint.** -/
theorem routeIncoming_readdressed (hprs : parse packet = some parsed)
    (hkey : replyKey parsed = .of flow mapping) (order : Order) {time : ℕ}
    (hfrs : table.Fresh mapping time) (seen : ℕ) :
    ∃ out, (table.routeIncoming order packet time seen).2 = (true, out) ∧
      Readdressed packet parsed true flow.remote out := by
  obtain ⟨hinv, -⟩ := steps_inv run fun e he => (hcalls e he).1
  have hclient : flow.client.ip = parsed.destination := by
    have heq := congrArg (fun key => key.client.ip) hkey
    exact heq.symm.trans (endpoint_ip parsed false)
  have hfam : flow.remote.ip.isIpv4 = parsed.source.isIpv4 := by
    obtain ⟨f, -, rfl⟩ := parse_frame hprs
    rw [live_family run hcalls hlive, hclient]
    exact f.destination_family.trans f.source_family.symm
  obtain ⟨out, hout, hread⟩ := rewrite_readdressed hprs true hfam
  refine ⟨out, ?_, hread⟩
  have hfnd : (table.reverseFlow order parsed time seen).2 = some flow :=
    reverseFlow_live hinv hlive hfrs hkey seen
  unfold routeIncoming
  rw [hprs]
  rcases hreverse : table.reverseFlow order parsed time seen with ⟨after, found⟩
  rw [hreverse] at hfnd
  cases hfnd
  simp only [hreverse]
  exact hout

end

end NatTable

/-- **The direct gateway keeps packets valid and is reversible.** -/
theorem direct_nat_reversible :
    (∀ packet parsed source endpoint, parse packet = some parsed →
      endpoint.ip.isIpv4 = parsed.source.isIpv4 →
      ∃ out, rewrite source packet parsed endpoint = (true, out) ∧
        Readdressed packet parsed source endpoint out) ∧
    (∀ packet parsed source endpoint, (rewrite source packet parsed endpoint).1 = false →
      (rewrite source packet parsed endpoint).2 = packet) ∧
    (∀ now h table, Steps next (.default now) h table →
      (∀ e ∈ h, e.input.Unmapped e.before ∧ e.input.OfPacket) →
      ∀ flow mapping, table.forward.lookup flow = some mapping →
      ∀ packet parsed, parse packet = some parsed →
      replyKey parsed = .of flow mapping →
      ∀ order time seen, table.Fresh mapping time →
      ∃ out, (table.routeIncoming order packet time seen).2 = (true, out) ∧
        Readdressed packet parsed true flow.remote out) ∧
    (∀ table order packet now seen,
      (routeIncoming order table packet now seen).2.1 = false →
      (routeIncoming order table packet now seen).2.2 = packet) :=
  ⟨fun _ _ source _ hparse hfamily => rewrite_readdressed hparse source hfamily,
    fun _ _ _ _ h => rewrite_refused h,
    fun _ _ _ run hcalls _ _ hlive _ _ hparse hkey order _ seen hfresh =>
      routeIncoming_readdressed run hcalls hlive hparse hkey order hfresh seen,
    fun _ _ _ _ _ h => routeIncoming_refused h⟩

def samplePacket : Bytes :=
  [0x45, 0, 0, 28, 0, 0, 0x40, 0, 64, 17, 58, 194, 0, 0, 0, 7, 0, 0, 0, 9,
    3, 232, 0, 53, 0, 8, 251, 177]

/-- A reply of the stack to the second mapping of the sample flow. -/
def sampleReply : Bytes :=
  [0x45, 0, 0, 28, 0, 0, 0x40, 0, 64, 17, 116, 183, 198, 18, 0, 1, 0, 0, 0, 7,
    192, 1, 3, 232, 0, 8, 117, 218]

def sampleParsed : NatPacket := ⟨4, 17, .v4 0xc6120001, .v4 7, 49153, 1000, 20, 26, true⟩

theorem sampleReply_parse : parse sampleReply = some sampleParsed := by decide

theorem samplePacket_parse :
    parse samplePacket = some ⟨4, 17, .v4 7, .v4 9, 1000, 53, 20, 26, true⟩ := by decide

theorem sample_calls (order : Order) :
    ∀ e ∈ (replay next (.default 0) (sampleCalls order)).1,
      e.input.Unmapped e.before ∧ e.input.OfPacket := by
  intro e he
  refine ⟨sample_unmapped order e he, ?_⟩
  simp only [sampleCalls, replay, mem_cons, not_mem_nil, or_false] at he
  rcases he with rfl | rfl | rfl
  · exact ⟨samplePacket, _, samplePacket_parse, rfl⟩
  · trivial
  · exact ⟨samplePacket, _, samplePacket_parse, rfl⟩

theorem direct_nat_reversible_sample : ∃ (order : Order) (out : Bytes),
    ((replay next (.default 0) (sampleCalls order)).2.routeIncoming order
      sampleReply 0 0).2 = (true, out) ∧
    parse out = some ⟨4, 17, .v4 9, .v4 7, 53, 1000, 20, 26, true⟩ ∧
    validTransport sampleReply sampleParsed = true ∧
    validTransport out ⟨4, 17, .v4 9, .v4 7, 53, 1000, 20, 26, true⟩ = true := by
  obtain ⟨order⟩ := Iteration.nonempty FlowKey Mapping
  obtain ⟨out, hout, hreaddressed⟩ := direct_nat_reversible.2.2.1 0 _ _
    (steps_replay _ (sampleCalls order)) (sample_calls order) sampleFlow
    (sampleMapping 2 49153 2 1) rfl sampleReply sampleParsed sampleReply_parse rfl order
    0 0 (.inl (by rw [Nat.zero_sub]; decide))
  have hvalid : validTransport sampleReply sampleParsed = true := by decide +kernel
  exact ⟨order, out, hout, hreaddressed.parses, hvalid, hreaddressed.valid (by decide) hvalid⟩

/-- **Only replies are rewritten**, in every run: the packet is one to the client of a
    live mapping that the run reserved, and leaves from the remote endpoint of its flow. -/
theorem only_replies_rewritten {table : NatTable} (run : Steps next (.default now) h table)
    (hcalls : ∀ e ∈ h, e.input.Unmapped e.before) {time seen : ℕ} {out : Bytes}
    (hout : (table.routeIncoming order packet time seen).2 = (true, out)) :
    ∃ parsed flow mapping, parse packet = some parsed ∧
      table.forward.lookup flow = some mapping ∧ replyKey parsed = .of flow mapping ∧
      (∃ entry ∈ reserved h, entry.1 = flow ∧ entry.2.id = mapping.id) ∧
      rewriteSource packet parsed flow.remote = (true, out) := by
  obtain ⟨hinv, hhistory⟩ := steps_inv run hcalls
  unfold routeIncoming reverseFlow at hout
  cases hprs : parse packet with
  | none => rw [hprs] at hout; cases hout
  | some parsed =>
    simp only [hprs] at hout
    cases hrev : (table.sweepIfNeeded order time).reverse.lookup (replyKey parsed) with
    | none => simp only [hrev] at hout; cases hout
    | some flow =>
      obtain ⟨_, swept, hswp, hkey, rfl⟩ :=
        ((hinv.sweepIfNeeded order time).reverse.lookup_iff _ flow).1 hrev
      obtain ⟨mapping, _, hlive, rfl⟩ := (Shrinks.sweepIfNeeded order table time).source _ _ hswp
      simp only [hrev, hswp, Option.isSome_some, if_true] at hout
      obtain ⟨entry, ⟨_, _, hmade, hflow, -⟩, hid⟩ := hhistory.live _ mapping hlive
      exact ⟨parsed, _, mapping, rfl, hlive, hkey.symm, ⟨entry, by simp [hmade], hflow, hid.symm⟩,
        hout⟩

theorem only_replies_rewritten_sample : ∃ (order : Order) (entry : FlowKey × Mapping),
    entry ∈ reserved (replay next (.default 0) (sampleCalls order)).1 := by
  obtain ⟨order⟩ := Iteration.nonempty FlowKey Mapping
  have run : Steps next (.default 0) _ _ := steps_replay _ (sampleCalls order)
  have hlive : (replay next (.default 0) (sampleCalls order)).2.forward.lookup sampleFlow =
    some (sampleMapping 2 49153 2 1) := rfl
  obtain ⟨_, hout, -⟩ := routeIncoming_readdressed run (sample_calls order) hlive
    sampleReply_parse rfl order (.inl (by rw [Nat.zero_sub]; decide)) 0
  obtain ⟨_, _, _, -, -, -, ⟨entry, hent, -⟩, -⟩ :=
    only_replies_rewritten run (sample_unmapped order) hout
  exact ⟨order, entry, hent⟩

/-! ## Where a packet does not stay valid -/

theorem wordSum_ones (n : ℕ) : wordSum (replicate (2 * n) 0xff) = 65535 * n := by
  induction n with
  | zero => rfl
  | succ n ih =>
    rw [Nat.mul_succ, replicate_succ, replicate_succ, wordSum, ih]
    change 255 * 256 + 255 + 65535 * n = _
    omega

/-- A valid TCP packet of 131108 bytes whose sum is the last one below 2^32. -/
def hugeFrame : Frame where
  ipv6 := false
  tcp := true
  lead := [0x45, 0, 0, 0, 0, 0, 0x40, 0, 64, 6]
  headerChecksum := 0x3af9
  source := .v4 0
  destination := .v4 0
  sourcePort := 1
  destinationPort := 0
  middle := List.replicate 12 0
  checksum := 0
  rest := word 65510 ++ List.replicate (2 * 65534) 0xff
  hlead := .v4 rfl rfl (by decide) (by decide) rfl (by decide) rfl
  source_family := rfl
  destination_family := rfl
  middle_length := rfl
  rest_length := .inl (by rw [List.length_append, length_word]; omega)

theorem hugeFrame_rest : wordSum hugeFrame.rest = 65510 + 65535 * 65534 := by
  change wordSum (word 65510 ++ replicate (2 * 65534) 0xff) = _
  rw [wordSum_word_append, wordSum_ones]
  rfl

theorem hugeFrame_length : hugeFrame.transport.length = 131088 := by
  rw [Frame.length_transport]
  have hmiddle : hugeFrame.middle.length = 12 := rfl
  have hrest : hugeFrame.rest.length = 2 + 2 * 65534 := by
    change (word 65510 ++ replicate (2 * 65534) 0xff).length = _
    rw [length_append, length_word, length_replicate]
  rw [hmiddle, hrest]

theorem hugeFrame_total : hugeFrame.total = 2 ^ 32 - 1 := by
  have hsrc : wordSum hugeFrame.source.octets = 0 := by decide
  have hdst : wordSum hugeFrame.destination.octets = 0 := by decide
  have hproto : (protocolOf hugeFrame.tcp).toNat = 6 := rfl
  have hports : hugeFrame.sourcePort.toNat = 1 ∧ hugeFrame.destinationPort.toNat = 0 := ⟨rfl, rfl⟩
  have hmiddle : wordSum hugeFrame.middle = 0 := by decide
  have hck : hugeFrame.checksum.toNat = 0 := rfl
  rw [Frame.total, hugeFrame_length, Frame.wordSum_transport, hugeFrame_rest, hsrc,
    hdst, hproto, hports.1, hports.2, hmiddle, hck]
  norm_num

theorem hugeFrame_family : (IpAddr.v4 0).isIpv4 = !hugeFrame.ipv6 := rfl

/-- The frame after its destination port became one. -/
def hugeRewritten : Frame := hugeFrame.rewritten false (.v4 0) 1 hugeFrame_family

theorem hugeFrame_summed : hugeFrame.Summed := by
  rintro ⟨hopt, -⟩
  cases hopt

theorem hugeRewritten_total : hugeRewritten.total = 2 ^ 32 - 1 + 65535 := by
  have hlen : hugeRewritten.transport.length = 131088 :=
    (Frame.length_rewritten_transport _).trans hugeFrame_length
  have hrest : wordSum hugeRewritten.rest = 65510 + 65535 * 65534 := hugeFrame_rest
  have hck : hugeRewritten.checksum = 65534 := by
    decide +kernel
  have hsrc : wordSum hugeRewritten.source.octets = 0 := by decide
  have hdst : wordSum hugeRewritten.destination.octets = 0 := by decide
  have hproto : (protocolOf hugeRewritten.tcp).toNat = 6 := rfl
  have hports : hugeRewritten.sourcePort.toNat = 1 ∧ hugeRewritten.destinationPort.toNat = 1 :=
    ⟨rfl, rfl⟩
  have hmiddle : wordSum hugeRewritten.middle = 0 := by decide
  have hword : (65534 : UInt16).toNat = 65534 := rfl
  rw [Frame.total, hlen, Frame.wordSum_transport, hrest, hck, hsrc, hdst,
    hproto, hports.1, hports.2, hmiddle, hword]
  norm_num

theorem hugeFrame_valid : validTransport hugeFrame.bytes hugeFrame.parsed := by
  rw [Frame.validTransport_iff]
  refine ⟨fun hipv6 => ?_, fun htcp => ?_, fun _ => ?_⟩
  · decide +kernel
  · cases htcp
  · rw [hugeFrame_total, finish_eq_zero]
    decide

theorem hugeRewritten_invalid :
    validTransport hugeRewritten.bytes hugeRewritten.parsed = false := by
  rw [← Bool.not_eq_true, Frame.validTransport_iff]
  rintro ⟨-, -, htotal⟩
  have hzero := htotal ((Frame.rewritten_summed hugeFrame_family).2 hugeFrame_summed)
  rw [hugeRewritten_total, finish_eq_zero] at hzero
  revert hzero
  decide

namespace NatTable
variable {table : NatTable}

theorem lookup_removeAll_mem (hflow : flow ∈ flows) :
    (flows.foldl remove table).forward.lookup flow = none := by
  induction flows generalizing table with
  | nil => cases hflow
  | cons other flows ih =>
    by_cases hrest : flow ∈ flows
    · exact ih hrest
    · obtain rfl : flow = other := (mem_cons.1 hflow).resolve_right hrest
      refine (Shrinks.removeAll _ flows).lookup_none ?_
      unfold remove
      split
      · assumption
      · rw [lookup_erase_eq, if_pos rfl]

/-- A reply to a mapping that the sweep retires is refused. -/
theorem routeIncoming_stale (hinv : Inv table) (h : table.forward.lookup flow = some mapping)
    (hstale : ¬ table.Fresh mapping now) (hprs : parse packet = some parsed)
    (hkey : replyKey parsed = .of flow mapping) (seen : ℕ) :
    (table.routeIncoming order packet now seen).2 = (false, packet) := by
  unfold Fresh at hstale
  push Not at hstale
  have hgone : (table.sweepIfNeeded order now).forward.lookup flow = none := by
    rw [sweepIfNeeded, if_neg (by omega)]
    exact lookup_removeAll_mem ((mem_stale h).2 hstale.2)
  have hnone : (table.sweepIfNeeded order now).reverse.lookup (replyKey parsed) = none := by
    rcases hlook : (table.sweepIfNeeded order now).reverse.lookup (replyKey parsed) with _ | other
    · rfl
    · -- the only mapping with this reply key was the one retired
      obtain ⟨flow', mapping', hlive, htag, rfl⟩ :=
        ((hinv.sweepIfNeeded order now).reverse.lookup_iff _ _).1 hlook
      obtain ⟨old, seen', hold, rfl⟩ := (Shrinks.sweepIfNeeded order table now).source _ _ hlive
      have hsame : flow' = flow := hinv.reverse.tag_inj flow' old flow mapping hold h
        (htag.trans hkey)
      rw [hsame, hgone] at hlive
      cases hlive
  unfold routeIncoming reverseFlow
  rw [hprs]
  simp only [hnone]

end NatTable

/-- A very long packet loses its validity, and a reply to an idle mapping is refused. -/
theorem direct_nat_exceptions :
    (parse hugeFrame.bytes = some hugeFrame.parsed ∧
      validTransport hugeFrame.bytes hugeFrame.parsed = true ∧
      (rewriteDestination hugeFrame.bytes hugeFrame.parsed (.v4 0 1)).1 = true ∧
      validTransport (rewriteDestination hugeFrame.bytes hugeFrame.parsed (.v4 0 1)).2
        (hugeFrame.parsed.withEndpoint false (.v4 0 1)) = false) ∧
    ∃ order : Order,
      (replay next (.default 0) (sampleCalls order)).2.forward.lookup
          sampleFlow = some (sampleMapping 2 49153 2 1) ∧
      parse sampleReply = some sampleParsed ∧
      replyKey sampleParsed = .of sampleFlow (sampleMapping 2 49153 2 1) ∧
      ((replay next (.default 0) (sampleCalls order)).2.routeIncoming order
        sampleReply (300 * 10 ^ 9) 0).2 = (false, sampleReply) := by
  have hrewrite : rewrite false hugeFrame.bytes hugeFrame.parsed (.v4 0 1) =
      (true, hugeRewritten.bytes) := hugeFrame.rewrite_bytes false (.v4 0 1) hugeFrame_family
  rw [rewrite, if_neg Bool.false_ne_true] at hrewrite
  refine ⟨⟨hugeFrame.parse_bytes, hugeFrame_valid, by rw [hrewrite], ?_⟩, ?_⟩
  · rw [hrewrite]
    exact hugeRewritten_invalid
  · obtain ⟨order⟩ := Iteration.nonempty FlowKey Mapping
    obtain ⟨hinv, -⟩ := steps_inv (steps_replay _ (sampleCalls order)) (sample_unmapped order)
    have hlive : (replay next (.default 0) (sampleCalls order)).2.forward.lookup
        sampleFlow = some (sampleMapping 2 49153 2 1) := rfl
    have hkey : replyKey sampleParsed = .of sampleFlow (sampleMapping 2 49153 2 1) := rfl
    refine ⟨order, hlive, sampleReply_parse, hkey, ?_⟩
    refine routeIncoming_stale hinv hlive ?_ sampleReply_parse hkey 0
    intro hfresh
    rcases hfresh with hdue | hidle
    · exact absurd hdue (by change ¬ 300 * 10 ^ 9 - 0 < _; decide)
    · exact absurd hidle (by decide)

end Usque.Gateway
