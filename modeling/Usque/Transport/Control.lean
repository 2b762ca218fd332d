/-
  The control capsules of CONNECT-IP (`usque-transport/src/connect_ip_control.rs`).

  Address assignments and route advertisements replace the state of the peer; an
  address request is rejected, by an assignment of the unspecified address that is
  queued for the peer; the queue is bounded.
-/
import Usque.Lib.Run
import Usque.Transport.Framing

namespace Usque.Protocol
open List

structure PeerNetworkState where
  assignmentsAdvertised : Bool := false
  assignedAddresses : List IpPrefix := []
  routesAdvertised : Bool := false
  availableRoutes : List IpAddressRange := []

inductive CapsuleEffect where
  | assignmentsReplaced
  | routesReplaced
  | addressRequested (addresses : List IpPrefix)
  | unknownIgnored (capsuleType : UInt64)

def PeerNetworkState.apply (state : PeerNetworkState) :
    ConnectIpCapsule → CapsuleEffect × PeerNetworkState
  | .addressAssign addresses =>
    (.assignmentsReplaced,
      { state with assignmentsAdvertised := true, assignedAddresses := addresses })
  | .routeAdvertisement ranges =>
    (.routesReplaced, { state with routesAdvertised := true, availableRoutes := ranges })
  | .addressRequest addresses => (.addressRequested addresses, state)
  | .unknown capsuleType _ => (.unknownIgnored capsuleType, state)

end Usque.Protocol

namespace Usque.Transport
open Lib Protocol

def MAX_PENDING_CONTROL_CAPSULES : ℕ := 64
def MAX_PENDING_CONTROL_BYTES : ℕ := 256 * 1024

structure PendingControlCapsule where
  bytes : Bytes
  offset : ℕ
deriving DecidableEq

/-- `ConnectIpControlPlane`; `published` is the value of the watch channel. -/
structure ConnectIpControlPlane where
  buffer : Bytes := []
  state : PeerNetworkState := {}
  published : PeerNetworkState := {}
  pending : List PendingControlCapsule := []

variable {plane : ConnectIpControlPlane}

def reject (requested : IpPrefix) : IpPrefix where
  requestId := requested.requestId
  address := match requested.address with
    | .v4 _ => .v4 0
    | .v6 _ => .v6 0
  prefixLen := match requested.address with
    | .v4 _ => 32
    | .v6 _ => 128

def pendingBytes (pending : List PendingControlCapsule) : ℕ :=
  pending.foldl (fun total item => total + (item.bytes.length - item.offset)) 0

variable {result : Except TransportError Unit} {capsules : List ConnectIpCapsule}
  {addresses : List IpPrefix} {bytes stream : Bytes} {capsule : ConnectIpCapsule}

namespace ConnectIpControlPlane

/-- The answer to an address request in `apply_connect_ip_capsule`. The sums do not
    saturate below the limit they are compared with. -/
def rejectRequest (plane : ConnectIpControlPlane) (addresses : List IpPrefix) :
    Except TransportError Unit × ConnectIpControlPlane :=
  match (ConnectIpCapsule.addressAssign (addresses.map reject)).encode with
  | .error error => (.error (.protocol error), plane)
  | .ok rejection =>
    if MAX_PENDING_CONTROL_CAPSULES ≤ plane.pending.length ∨
        MAX_PENDING_CONTROL_BYTES < pendingBytes plane.pending + rejection.length then
      (.error .sendQueueFull, plane)
    else (.ok (), { plane with pending := plane.pending ++ [⟨rejection, 0⟩] })

def applyConnectIpCapsule (plane : ConnectIpControlPlane) (capsule : ConnectIpCapsule) :
    Except TransportError Unit × ConnectIpControlPlane :=
  match plane.state.apply capsule with
  | (.assignmentsReplaced, state) | (.routesReplaced, state) =>
    (.ok (), { plane with state := state, published := state })
  | (.addressRequested addresses, state) => { plane with state := state }.rejectRequest addresses
  | (.unknownIgnored _, state) => (.ok (), { plane with state := state })

/-- One round of `drain_control_capsules`. -/
def round (plane : ConnectIpControlPlane) :
    Option (ConnectIpControlPlane ⊕ (Except TransportError Unit × ConnectIpControlPlane)) :=
  match ConnectIpCapsule.decodeIfComplete plane.buffer with
  | (.error error, _) => some (.inr (.error (.protocol error), plane))
  | (.ok none, _) => some (.inr (.ok (), plane))
  | (.ok (some capsule), cursor) =>
    let consumed := plane.buffer.length - cursor.length
    match { plane with buffer := plane.buffer.drop consumed }.applyConnectIpCapsule capsule with
    | (.ok (), plane) => some (.inl plane)
    | (.error error, plane) => some (.inr (.error error, plane))

/-- `drain_control_capsules`. -/
def drain (plane : ConnectIpControlPlane) :
    Option (Except TransportError Unit × ConnectIpControlPlane) :=
  loop round (plane.buffer.length + 1) plane

def receive (plane : ConnectIpControlPlane) (bytes : Bytes) :
    Option (Except TransportError Unit × ConnectIpControlPlane) :=
  { plane with buffer := plane.buffer ++ bytes }.drain

/-- A round of `flush_control_capsules` (`h3.rs`) that sends `written` bytes. -/
def flush (plane : ConnectIpControlPlane) (written : ℕ) : ConnectIpControlPlane :=
  match plane.pending with
  | [] => plane
  | capsule :: pending =>
    let offset := capsule.offset + written
    if offset = capsule.bytes.length then { plane with pending := pending }
    else { plane with pending := { capsule with offset := offset } :: pending }

/-! ## Rejections -/

/-- `bytes` reject a request for `addresses`: an assignment of the unspecified
    address for every requested one, in order. -/
def Rejects (addresses : List IpPrefix) (bytes : Bytes) : Prop :=
  ∃ answers, (ConnectIpCapsule.addressAssign answers).encode = .ok bytes ∧
    ConnectIpCapsule.decode bytes = (.ok (.addressAssign answers), []) ∧
    answers.map (·.requestId) = addresses.map (·.requestId) ∧
    ∀ answer ∈ answers, answer.address = .v4 0 ∨ answer.address = .v6 0

theorem validatePrefix_reject (p : IpPrefix) : validatePrefix (reject p) = .ok () := by
  obtain ⟨requestId, address, prefixLen⟩ := p
  cases address
  · exact (by decide : validateFamily 4 (0 : BitVec 32) 32 = .ok ())
  · exact (by decide : validateFamily 6 (0 : BitVec 128) 128 = .ok ())

theorem length_encodeAddress_reject (p : IpPrefix) :
    (encodeAddress (reject p).address).length = (encodeAddress p.address).length := by
  obtain ⟨requestId, address, prefixLen⟩ := p
  cases address <;> simp [reject, encodeAddress, IpAddr.octets]

theorem encodePrefix_reject {p : IpPrefix} (h : encodePrefix p = .ok bytes) :
    ∃ bytes', encodePrefix (reject p) = .ok bytes' ∧ bytes'.length = bytes.length := by
  simp only [encodePrefix, bindOk] at h
  obtain ⟨_, -, id, hid, h⟩ := h
  cases h
  refine ⟨id ++ encodeAddress (reject p).address ++ [(reject p).prefixLen], ?_, ?_⟩
  · simp only [encodePrefix, bindOk]
    exact ⟨(), validatePrefix_reject p, id, hid, rfl⟩
  · simp [length_encodeAddress_reject]

theorem encodeEntries_reject {index : ℕ} {payload payload' out : Bytes}
    (h : encodeEntries encodePrefix index payload addresses = .ok out)
    (hlen : payload'.length = payload.length) :
    ∃ out', encodeEntries encodePrefix index payload' (addresses.map reject) = .ok out' ∧
      out'.length = out.length := by
  induction addresses generalizing index payload payload' with
  | nil =>
    cases h
    exact ⟨payload', rfl, hlen⟩
  | cons _ _ ih =>
    simp only [encodeEntries, bindOk] at h
    obtain ⟨_, hcap, bytes, hp, _, hsize, h⟩ := h
    obtain ⟨bytes', hp', hlen'⟩ := encodePrefix_reject hp
    have hlen2 : (payload' ++ bytes').length = (payload ++ bytes).length := by
      rw [List.length_append, List.length_append, hlen, hlen']
    obtain ⟨out', hrest, hout⟩ := ih h hlen2
    refine ⟨out', ?_, hout⟩
    simp only [List.map_cons, encodeEntries, bindOk]
    exact ⟨(), hcap, bytes', hp', (), by rw [hlen2]; exact hsize, hrest⟩

/-- **A rejection can be encoded** if its request can. -/
theorem exists_rejects (h : (ConnectIpCapsule.addressRequest addresses).encode = .ok bytes) :
    ∃ rejection, (ConnectIpCapsule.addressAssign (addresses.map reject)).encode = .ok rejection ∧
      Rejects addresses rejection := by
  simp only [ConnectIpCapsule.encode, ConnectIpCapsule.body, encodePrefixes, bindOk, if_true] at h
  obtain ⟨_, ⟨_, -, payload, ⟨_, -, hentries⟩, h⟩, _, hsize, typeBytes, -, lenBytes, hlen, -⟩ := h
  cases h
  obtain ⟨payload', hentries', hlen'⟩ := encodeEntries_reject hentries (rfl : ([] : Bytes).length = _)
  have henc : (ConnectIpCapsule.addressAssign (addresses.map reject)).encode =
      .ok ([1] ++ lenBytes ++ payload') := by
    have htype : encodeVarint ADDRESS_ASSIGN_CAPSULE_TYPE = .ok [1] := by decide
    simp only [ConnectIpCapsule.encode, ConnectIpCapsule.body, encodePrefixes, bindOk]
    exact ⟨_, ⟨payload', hentries', rfl⟩, (), by rw [hlen']; exact hsize, [1], htype, lenBytes,
      by rw [hlen']; exact hlen, rfl⟩
  refine ⟨_, henc, _, henc, ?_, ?_, ?_⟩
  · have hread := decodeFrame_encode henc trivial []
    rw [List.append_nil] at hread
    exact decode_eq_ok.2 hread
  · rw [List.map_map]
    rfl
  · intro answer hmem
    obtain ⟨p, -, rfl⟩ := List.mem_map.1 hmem
    obtain ⟨requestId, address, prefixLen⟩ := p
    cases address
    · exact .inl rfl
    · exact .inr rfl

/-! ## Draining -/

/-- The queue takes `bytes` without exceeding a limit. -/
def Room (pending : List PendingControlCapsule) (bytes : Bytes) : Prop :=
  pending.length < 64 ∧ pendingBytes pending + bytes.length ≤ 256 * 1024

/-- `Queues pending capsules pending'`: accepting `capsules` queues one rejection
    for every request, and nothing else. -/
inductive Queues : List PendingControlCapsule → List ConnectIpCapsule →
    List PendingControlCapsule → Prop where
  | nil {pending : List PendingControlCapsule} : Queues pending [] pending
  | request {pending pending' : List PendingControlCapsule} {addresses : List IpPrefix}
    {bytes : Bytes} {capsules : List ConnectIpCapsule} (rejects : Rejects addresses bytes)
    (room : Room pending bytes) (rest : Queues (pending ++ [⟨bytes, 0⟩]) capsules pending') :
    Queues pending (.addressRequest addresses :: capsules) pending'
  | other {pending pending' : List PendingControlCapsule} {capsule : ConnectIpCapsule}
    {capsules : List ConnectIpCapsule} (h : ∀ addresses, capsule ≠ .addressRequest addresses)
    (rest : Queues pending capsules pending') : Queues pending (capsule :: capsules) pending'

def applied (state : PeerNetworkState) (capsules : List ConnectIpCapsule) : PeerNetworkState :=
  capsules.foldl (fun state capsule => (state.apply capsule).2) state

/-- How a drain of `stream` ends that accepted `capsules`: the stream waits, its next
    frame is malformed, or its next capsule is a request that the queue cannot take. -/
def EndsWith (stream : Bytes) (capsules : List ConnectIpCapsule) :
    Except TransportError Unit → ConnectIpControlPlane → Prop
  | .ok (), plane => Drains ConnectIpCapsule.decodeIfComplete stream capsules none plane.buffer
  | .error (.protocol error), plane =>
    Drains ConnectIpCapsule.decodeIfComplete stream capsules (some error) plane.buffer
  | .error .sendQueueFull, plane => ∃ addresses bytes,
    Takes ConnectIpCapsule.decodeIfComplete stream (capsules ++ [.addressRequest addresses])
      plane.buffer ∧
    Rejects addresses bytes ∧ ¬ Room plane.pending bytes
  | .error .capsuleTooLarge, _ => False

def Drained (plane : ConnectIpControlPlane)
    (returned : Except TransportError Unit × ConnectIpControlPlane) : Prop :=
  (∃ capsules, returned.2.state = applied plane.state capsules ∧
    Queues plane.pending capsules returned.2.pending ∧
    EndsWith plane.buffer capsules returned.1 returned.2) ∧
  (plane.published = plane.state → returned.2.published = returned.2.state)

theorem apply_request (plane : ConnectIpControlPlane)
    (h : (ConnectIpCapsule.addressRequest addresses).encode = .ok bytes) :
    ∃ rejection, Rejects addresses rejection ∧
      ((Room plane.pending rejection ∧ plane.applyConnectIpCapsule (.addressRequest addresses) =
        (.ok (), { plane with pending := plane.pending ++ [⟨rejection, 0⟩] })) ∨
      (¬ Room plane.pending rejection ∧
        plane.applyConnectIpCapsule (.addressRequest addresses) = (.error .sendQueueFull, plane))) := by
  obtain ⟨rejection, henc, hrej⟩ := exists_rejects h
  refine ⟨rejection, hrej, ?_⟩
  simp only [applyConnectIpCapsule, PeerNetworkState.apply, rejectRequest, henc]
  by_cases hroom : Room plane.pending rejection
  · refine .inl ⟨hroom, if_neg ?_⟩
    rw [not_or, not_le, not_lt]
    exact hroom
  · refine .inr ⟨hroom, if_pos ?_⟩
    rwa [Room, not_and_or, not_lt, not_le] at hroom

theorem apply_other (plane : ConnectIpControlPlane)
    (h : ∀ addresses, capsule ≠ .addressRequest addresses) :
    ∃ plane', plane.applyConnectIpCapsule capsule = (.ok (), plane') ∧
      plane'.state = (plane.state.apply capsule).2 ∧ plane'.pending = plane.pending ∧
      plane'.buffer = plane.buffer ∧
      (plane.published = plane.state → plane'.published = plane'.state) := by
  cases capsule with
  | addressAssign | routeAdvertisement => exact ⟨_, rfl, rfl, rfl, rfl, fun _ => rfl⟩
  | addressRequest addresses => exact absurd rfl (h addresses)
  | unknown => exact ⟨_, rfl, rfl, rfl, rfl, id⟩

/-- One more capsule is taken from the front. -/
theorem EndsWith.item {rest : Bytes}
    (h : ConnectIpCapsule.decodeIfComplete stream = (.ok (some capsule), rest))
    (hrest : EndsWith rest capsules result plane) :
    EndsWith stream (capsule :: capsules) result plane := by
  cases result with
  | ok => exact Drains.item h hrest
  | error error =>
    cases error with
    | protocol => exact Drains.item h hrest
    | sendQueueFull =>
      obtain ⟨addresses, bytes, htakes, hfull⟩ := hrest
      exact ⟨addresses, bytes, Takes.item h htakes, hfull⟩
    | capsuleTooLarge => exact hrest

/-- **Every drain returns**, and does what it should. -/
theorem drain_spec (plane : ConnectIpControlPlane) :
    ∃ returned, plane.drain = some returned ∧ Drained plane returned := by
  refine loop_spec (I := fun _ => True) (fun plane => plane.buffer.length) ?_ trivial
    (Nat.lt_succ_self _)
  rintro plane -
  rw [round]
  rcases hdec : ConnectIpCapsule.decodeIfComplete plane.buffer with ⟨error | _ | capsule, rest⟩
  · cases stable_decodeIfComplete.stays hdec
    exact .inr ⟨_, rfl, ⟨[], rfl, .nil, .failed hdec⟩, id⟩
  · cases stable_decodeIfComplete.idle hdec
    exact .inr ⟨_, rfl, ⟨[], rfl, .nil, .idle hdec⟩, id⟩
  obtain ⟨⟨n, rfl, htwo, hle⟩, bytes, henc⟩ := decodeIfComplete_some hdec
  have hconsumed : plane.buffer.length - (plane.buffer.drop n).length = n := by
    rw [List.length_drop]
    omega
  have hshorter : (plane.buffer.drop n).length < plane.buffer.length := by
    omega
  simp only [hconsumed]
  by_cases hreq : ∃ addresses, capsule = .addressRequest addresses
  · obtain ⟨addresses, rfl⟩ := hreq
    obtain ⟨rejection, hrej, ⟨hroom, happly⟩ | ⟨hfull, happly⟩⟩ :=
      apply_request { plane with buffer := plane.buffer.drop n } henc
    · rw [happly]
      refine .inl ⟨_, rfl, trivial, hshorter, ?_⟩
      rintro returned ⟨⟨capsules, hst, hqueues, hends⟩, hpub⟩
      exact ⟨⟨.addressRequest addresses :: capsules, hst, .request hrej hroom hqueues,
        hends.item hdec⟩, hpub⟩
    · rw [happly]
      exact .inr ⟨_, rfl, ⟨[], rfl, .nil, addresses, rejection, .item hdec .nil, hrej, hfull⟩, id⟩
  · rw [not_exists] at hreq
    obtain ⟨plane', happly, hst', hpend, hbuffer, hpub'⟩ :=
      apply_other { plane with buffer := plane.buffer.drop n } hreq
    rw [happly]
    refine .inl ⟨_, rfl, trivial, by rwa [hbuffer], ?_⟩
    rintro returned ⟨⟨capsules, hst, hqueues, hends⟩, hpub⟩
    refine ⟨⟨capsule :: capsules, ?_, .other hreq ?_, EndsWith.item hdec ?_⟩, ?_⟩
    · rw [hst, hst']
      rfl
    · rwa [hpend] at hqueues
    · rwa [hbuffer] at hends
    · exact fun h => hpub (hpub' h)

/-! ## Runs -/

/-- Bytes arrive, or bytes of a queued capsule are sent. -/
inductive Input where
  | receive (bytes : Bytes)
  | flush (written : ℕ)

def Input.received : Input → Bytes
  | .receive bytes => bytes
  | .flush _ => []

/-- One step; there is no output if the call does not return. -/
def step (plane : ConnectIpControlPlane) :
    Input → ConnectIpControlPlane × Option (Except TransportError Unit)
  | .receive bytes =>
    match plane.receive bytes with
    | none => (plane, none)
    | some (result, plane') => (plane', some result)
  | .flush written => (plane.flush written, some (.ok ()))

abbrev ControlEvent :=
  Event ConnectIpControlPlane Input (Option (Except TransportError Unit))

variable {h : List ControlEvent}

/-- The bytes that have arrived, in their order. -/
def received (h : List ControlEvent) : Bytes := (h.reverse.map (·.input.received)).flatten

theorem received_cons (e : ControlEvent) (h : List ControlEvent) :
    received (e :: h) = received h ++ e.input.received := by
  simp [received]

def Limited (pending : List PendingControlCapsule) : Prop :=
  pending.length ≤ 64 ∧ pendingBytes pending ≤ 256 * 1024

theorem pendingBytes_eq_sum (pending : List PendingControlCapsule) :
    pendingBytes pending = (pending.map fun item => item.bytes.length - item.offset).sum := by
  rw [List.sum_eq_foldl, List.foldl_map]
  rfl

theorem Queues.limited {pending pending' : List PendingControlCapsule}
    (h : Queues pending capsules pending') (hlimited : Limited pending) : Limited pending' := by
  induction h with
  | nil => exact hlimited
  | request _ room _ ih =>
    apply ih
    rw [Limited, pendingBytes_eq_sum]
    rw [Room, pendingBytes_eq_sum] at room
    simp only [List.length_append, List.map_append, List.sum_append, List.map_cons, List.map_nil,
      List.sum_cons, List.sum_nil, List.length_cons, List.length_nil]
    omega
  | other _ _ ih => exact ih hlimited

theorem flush_limited (written : ℕ) (h : Limited plane.pending) :
    Limited (plane.flush written).pending := by
  rw [flush]
  rcases hpend : plane.pending with _ | ⟨capsule, pending⟩
  · exact h
  · rw [hpend, Limited, pendingBytes_eq_sum] at h
    simp only [List.length_cons, List.map_cons, List.sum_cons] at h
    dsimp only
    split_ifs
    · simp only [Limited, pendingBytes_eq_sum]
      omega
    · simp only [Limited, pendingBytes_eq_sum, List.length_cons, List.map_cons, List.sum_cons]
      omega

/-- The plane after the events `h`: what was decoded, what became of it, and what
    is left in the buffer. -/
structure After (h : List ControlEvent) (plane : ConnectIpControlPlane) : Prop where
  returned : ∀ e ∈ h, e.output ≠ none
  decoded : ∃ capsules,
    Takes ConnectIpCapsule.decodeIfComplete (received h) capsules plane.buffer ∧
    plane.state = applied {} capsules
  waits : (∀ e ∈ h, e.output = some (.ok ())) →
    Drains ConnectIpCapsule.decodeIfComplete plane.buffer [] none plane.buffer
  published : plane.published = plane.state
  limited : Limited plane.pending

theorem applied_append (state : PeerNetworkState) (capsules more : List ConnectIpCapsule) :
    applied state (capsules ++ more) = applied (applied state capsules) more :=
  List.foldl_append

theorem EndsWith.takes (h : EndsWith stream capsules result plane) (state : PeerNetworkState) :
    ∃ taken, Takes ConnectIpCapsule.decodeIfComplete stream taken plane.buffer ∧
      applied state taken = applied state capsules := by
  cases result with
  | ok => exact ⟨capsules, Drains.takes stable_decodeIfComplete h, rfl⟩
  | error error =>
    cases error with
    | protocol => exact ⟨capsules, Drains.takes stable_decodeIfComplete h, rfl⟩
    | sendQueueFull =>
      obtain ⟨addresses, bytes, htakes, -⟩ := h
      refine ⟨_, htakes, ?_⟩
      rw [applied_append]
      rfl
    | capsuleTooLarge => exact absurd h id

theorem After.flush (ha : After h plane) (written : ℕ) :
    After (⟨plane, .flush written, some (.ok ())⟩ :: h) (plane.flush written) := by
  obtain ⟨hbuffer, hst, hpub⟩ : (plane.flush written).buffer = plane.buffer ∧
      (plane.flush written).state = plane.state ∧
      (plane.flush written).published = plane.published := by
    rw [ConnectIpControlPlane.flush]
    split
    · exact ⟨rfl, rfl, rfl⟩
    · dsimp only
      split_ifs <;> exact ⟨rfl, rfl, rfl⟩
  have hreceived : received (⟨plane, .flush written, some (.ok ())⟩ :: h) = received h := by
    rw [received_cons]
    exact List.append_nil _
  constructor
  · rw [List.forall_mem_cons]
    exact ⟨nofun, ha.returned⟩
  · rw [hreceived, hbuffer, hst]
    exact ha.decoded
  · intro hall
    rw [List.forall_mem_cons] at hall
    rw [hbuffer]
    exact ha.waits hall.2
  · rw [hpub, hst, ha.published]
  · exact flush_limited written ha.limited

/-- Receiving goes on where the last call stopped. -/
theorem After.receive {plane' : ConnectIpControlPlane} (ha : After h plane)
    (hdrn : Drained { plane with buffer := plane.buffer ++ bytes } (result, plane')) :
    After (⟨plane, .receive bytes, some result⟩ :: h) plane' := by
  obtain ⟨capsules, htakes, hst⟩ := ha.decoded
  obtain ⟨⟨more, hst', hqueues, hends⟩, hpub⟩ := hdrn
  constructor
  · rw [List.forall_mem_cons]
    exact ⟨nofun, ha.returned⟩
  · obtain ⟨taken, htaken, happ⟩ := hends.takes plane.state
    refine ⟨capsules ++ taken, ?_, ?_⟩
    · rw [received_cons]
      exact htakes.append stable_decodeIfComplete htaken
    · rw [applied_append, ← hst, happ]
      exact hst'
  · intro hall
    rw [List.forall_mem_cons] at hall
    cases hall.1
    exact Drains.waits stable_decodeIfComplete hends
  · exact hpub ha.published
  · exact hqueues.limited ha.limited

/-- **Every run of the control plane.** -/
theorem after_run (run : Steps step {} h plane) : After h plane := by
  refine run.inv ?_ ?_
  · exact ⟨by simp, ⟨[], .nil, rfl⟩, fun _ => .idle rfl, rfl, Nat.zero_le _, Nat.zero_le _⟩
  · intro h plane i _ ha
    cases i with
    | flush written => exact ha.flush written
    | receive bytes =>
      obtain ⟨⟨result, plane'⟩, hdrain, hdrn⟩ :=
        drain_spec { plane with buffer := plane.buffer ++ bytes }
      have hstep : plane.step (.receive bytes) = (plane', some result) := by
        simp only [step, ConnectIpControlPlane.receive, hdrain]
      rw [hstep]
      exact ha.receive hdrn

/-- **The control plane.**  In every run, however the bytes arrive: all calls return;
    the state of the peer is the one that the decoded capsules make, all capsules of
    the stream if no call failed; neither limit of the queue is exceeded; and the
    next call accepts capsules, each request among them with one rejection in the
    queue, until the stream waits, is malformed, or holds a request for which the
    queue has no room, which changes neither the state nor the queue. -/
theorem control_capsules_processed {h : List ControlEvent} {plane : ConnectIpControlPlane}
    (run : Steps step {} h plane) :
    (∀ e ∈ h, e.output ≠ none) ∧
    (∃ capsules, Takes ConnectIpCapsule.decodeIfComplete (received h) capsules plane.buffer ∧
      plane.state = capsules.foldl (fun state capsule => (state.apply capsule).2) {} ∧
      ((∀ e ∈ h, e.output = some (.ok ())) →
        Drains ConnectIpCapsule.decodeIfComplete (received h) capsules none plane.buffer)) ∧
    (plane.pending.length ≤ 64 ∧ pendingBytes plane.pending ≤ 256 * 1024) ∧
    (∀ bytes, ∃ result plane' capsules, plane.receive bytes = some (result, plane') ∧
      plane'.state = capsules.foldl (fun state capsule => (state.apply capsule).2) plane.state ∧
      Queues plane.pending capsules plane'.pending ∧
      EndsWith (plane.buffer ++ bytes) capsules result plane') ∧
    (∀ (state : PeerNetworkState) addresses, (state.apply (.addressRequest addresses)).2 = state) ∧
    ∀ (state : PeerNetworkState) capsuleType payload,
      (state.apply (.unknown capsuleType payload)).2 = state := by
  have ha := after_run run
  refine ⟨ha.returned, ?_, ha.limited, ?_, fun _ _ => rfl, fun _ _ _ => rfl⟩
  · obtain ⟨capsules, htakes, hstate⟩ := ha.decoded
    refine ⟨capsules, htakes, hstate, fun hall => ?_⟩
    have hdrains := htakes.drains (ha.waits hall)
    rwa [List.append_nil] at hdrains
  · intro bytes
    obtain ⟨⟨result, plane'⟩, hdrain, ⟨capsules, hstate, hqueues, hends⟩, -⟩ :=
      drain_spec { plane with buffer := plane.buffer ++ bytes }
    exact ⟨result, plane', capsules, hdrain, hstate, hqueues, hends⟩

/-- A request that arrives in two parts is answered when it is complete. -/
theorem control_capsules_processed_request :
    ∃ (h : List ControlEvent) (plane : ConnectIpControlPlane),
      Steps step {} h plane ∧ received h = [2, 7, 7, 4, 0, 0, 0, 0, 32] ∧
      plane.pending = [⟨[1, 7, 7, 4, 0, 0, 0, 0, 32], 0⟩] ∧
      (∀ e ∈ h, e.output ≠ none) ∧ plane.pending.length ≤ 64 := by
  have run : Steps step ({} : ConnectIpControlPlane) _ _ :=
    (Steps.nil.snoc (.receive [2, 7, 7])).snoc (.receive [4, 0, 0, 0, 0, 32])
  obtain ⟨hreturned, -, hlimited, -⟩ := control_capsules_processed run
  exact ⟨_, _, run, by decide +kernel, by decide +kernel, hreturned, hlimited.1⟩

end ConnectIpControlPlane

end Usque.Transport
