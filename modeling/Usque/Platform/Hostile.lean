/-
  The packet ring against a peer that writes anything: every load and every read is
  answered by the peer.
-/
import Usque.Lib.Prog
import Usque.Platform.Wrapped

namespace Usque.Platform
open Lib List

/-- The accesses of a direction stay in its data area. -/
def InArea (ring : SharedPacketRing) (direction : PacketDirection) : RingOp → Prop
  | .read address | .write address _ =>
    ring.buffer direction ≤ address ∧ address < ring.buffer direction + ring.capacity
  | .load _ | .store _ _ | .addDropped _ => True

/-- The stores among the operations that were done. -/
def stores (actions : List ((op : RingOp) × op.Answer)) : List (RingIndex × BitVec 32) :=
  actions.filterMap fun action => match action.1 with
    | .store index value => some (index, value)
    | _ => none

/-- Operations in the area of a direction, with stores and an end in `R`. -/
def Within {α : Type} (ring : SharedPacketRing) (direction : PacketDirection)
    (R : List (RingIndex × BitVec 32) → Option α → Prop)
    (actions : List ((op : RingOp) × op.Answer)) (last : Option α) : Prop :=
  (∀ action ∈ actions, InArea ring direction action.1) ∧ R (stores actions) last

section
variable {α : Type} {ring : SharedPacketRing} {direction : PacketDirection}
  {R : List (RingIndex × BitVec 32) → Option α → Prop}

theorem Within.done {a : α} (h : R [] (some a)) :
    (Code.done a : RingCode α).All (Within ring direction R) :=
  ⟨by simp, h⟩

theorem Within.act {op : RingOp} {k : op.Answer → RingCode α} (harea : InArea ring direction op)
    (hstore : ∀ answer actions, stores (⟨op, answer⟩ :: actions) = stores actions)
    (h : ∀ answer, (k answer).All (Within ring direction R)) :
    (Code.act op k).All (Within ring direction R) := by
  intro answer
  refine (h answer).mono fun actions last ⟨hinside, hR⟩ => ⟨?_, ?_⟩
  · exact forall_mem_cons.2 ⟨harea, hinside⟩
  · rw [hstore]
    exact hR

theorem Within.load {index : RingIndex} {k : BitVec 32 → RingCode α}
    (h : ∀ value, (k value).All (Within ring direction R)) :
    (load index >>= k).All (Within ring direction R) :=
  @Within.act α ring direction R (.load index) k trivial (fun _ _ => rfl) h

theorem Within.store {index : RingIndex} {value : BitVec 32} {k : Unit → RingCode α}
    (h : (k ()).All (Within ring direction fun st => R ((index, value) :: st))) :
    (Code.act (.store index value) k).All (Within ring direction R) := by
  intro answer
  exact h.mono fun actions last ⟨hinside, hR⟩ => ⟨forall_mem_cons.2 ⟨trivial, hinside⟩, hR⟩

theorem Within.writeAt {p : ℕ → ℕ} (hp : ∀ i, ring.buffer direction ≤ p i ∧
      p i < ring.buffer direction + ring.capacity) {k : RingCode α}
    (h : k.All (Within ring direction R)) (bytes : Bytes) :
    ∀ i, (writeAt p i bytes k).All (Within ring direction R) := by
  induction bytes with
  | nil => exact fun _ => h
  | cons _ _ ih => exact fun i => Within.act (hp i) (fun _ _ => rfl) fun _ => ih (i + 1)

theorem Within.readAt {p : ℕ → ℕ} (hp : ∀ i, ring.buffer direction ≤ p i ∧
      p i < ring.buffer direction + ring.capacity) (n : ℕ) :
    ∀ (i : ℕ) (k : Bytes → RingCode α),
      (∀ bytes, bytes.length = n → (k bytes).All (Within ring direction R)) →
      (readAt p i n k).All (Within ring direction R) := by
  induction n with
  | zero => exact fun _ k h => h [] rfl
  | succ n ih =>
    intro i k h
    refine Within.act (hp i) (fun _ _ => rfl) fun byte => ih (i + 1) _ fun bytes hbyt => ?_
    exact h (byte :: bytes) (by simp [hbyt])

end

namespace SharedPacketRing
variable (ring : SharedPacketRing) (direction : PacketDirection)

theorem place_in_area (start : BitVec 32) (i : ℕ) :
    ring.buffer direction ≤ place (ring.buffer direction) ring.capacity start i ∧
      place (ring.buffer direction) ring.capacity start i <
        ring.buffer direction + ring.capacity := by
  obtain ⟨-, -, k, -, hcap⟩ := validateCapacity_ok ring.capacity_ok
  exact place_lt (hcap ▸ Nat.two_pow_pos k) start i

/-- What a pop leaves behind that loaded `tailValue` and had `buffer` for the packet. -/
def PopEnds (buffer : Bytes) (tailValue : BitVec 32) (st : List (RingIndex × BitVec 32))
    (last : Option (Except PacketRingError Bool × Bytes)) : Prop :=
  (∃ answer, last = some (answer, buffer) ∧ answer ≠ .ok true ∧ st = []) ∨
    ∃ packet size, last = some (.ok true, packet) ∧ 1 ≤ packet.length ∧
      packet.length ≤ MAX_PACKET_BYTES ∧ alignedRecordBytes packet.length = .ok size ∧
      st = [(.tail direction, tailValue + BitVec.ofNat 32 size)]

theorem popRecord_all (buffer : Bytes) (tailValue used : BitVec 32) (header : Bytes) :
    (ring.popRecord direction buffer tailValue used header).All
      (Within ring direction (PopEnds direction buffer tailValue)) := by
  obtain ⟨hmin, -, k, hk, hcap⟩ := validateCapacity_ok ring.capacity_ok
  unfold popRecord
  extract_lets length
  by_cases hsize : length = 0 ∨ MAX_PACKET_BYTES < length
  · rw [if_pos hsize]
    exact .done (.inl ⟨_, rfl, by simp, rfl⟩)
  · rw [if_neg hsize]
    simp only [not_or, not_lt] at hsize
    rw [alignedRecordBytes_eq hsize.2]
    dsimp only
    split_ifs with hsht
    · exact .done (.inl ⟨_, rfl, by simp, rfl⟩)
    · obtain ⟨hhdr, -, hfits, -⟩ := recordBytes_le hsize.2
      rw [readWrapped_eq hcap _ (by omega)]
      refine Within.readAt (place_in_area ring direction _) _ 0 _ fun packet hpkt => ?_
      refine Within.store (.done (.inr ⟨packet, recordBytes length, rfl, ?_, ?_, ?_, rfl⟩))
      · omega
      · omega
      · rw [hpkt, alignedRecordBytes_eq hsize.2]

theorem popLoaded_all (buffer : Bytes) (tailValue headValue : BitVec 32) :
    (ring.popLoaded direction buffer tailValue headValue).All
      (Within ring direction (PopEnds direction buffer tailValue)) := by
  obtain ⟨hmin, -, k, hk, hcap⟩ := validateCapacity_ok ring.capacity_ok
  unfold popLoaded
  dsimp only
  split_ifs with hcorrupt hempty hsht
  · exact .done (.inl ⟨_, rfl, by simp, rfl⟩)
  · exact .done (.inl ⟨_, rfl, by simp, rfl⟩)
  · exact .done (.inl ⟨_, rfl, by simp, rfl⟩)
  · rw [readWrapped_eq hcap _ (by omega)]
    exact Within.readAt (place_in_area ring direction _) _ 0 _ fun header _ =>
      ring.popRecord_all direction buffer tailValue _ header

theorem tryPopInto_all (buffer : Bytes) :
    (ring.tryPopInto direction buffer).All fun actions last =>
      (∀ action ∈ actions, InArea ring direction action.1) ∧
        ∃ tailValue, actions.head? = some ⟨.load (.tail direction), tailValue⟩ ∧
          PopEnds direction buffer tailValue (stores actions) last := by
  intro tailValue
  have hrest : (load (.head direction) >>= ring.popLoaded direction buffer tailValue).All
      (Within ring direction (PopEnds direction buffer tailValue)) :=
    Within.load fun headValue => ring.popLoaded_all direction buffer tailValue headValue
  refine hrest.mono fun actions last ⟨hinside, hends⟩ => ⟨?_, tailValue, rfl, hends⟩
  exact forall_mem_cons.2 ⟨trivial, hinside⟩

/-- What a push leaves behind: nothing, or its own head. -/
def PushEnds (st : List (RingIndex × BitVec 32)) (last : Option (Except PacketRingError Bool)) :
    Prop :=
  (∃ answer, last = some answer ∧ answer ≠ .ok true ∧ st = []) ∨
    ∃ value, last = some (.ok true) ∧ st = [(.head direction, value)]

theorem pushLoaded_all {packet : Bytes} (hsize : packet.length ≤ MAX_PACKET_BYTES)
    (countDrop : Bool) (headValue tailValue : BitVec 32) :
    (ring.pushLoaded direction packet countDrop (recordBytes packet.length) headValue tailValue).All
      (Within ring direction (PushEnds direction)) := by
  unfold pushLoaded
  dsimp only
  split_ifs with hcorrupt
  · exact .done (.inl ⟨_, rfl, by simp, rfl⟩)
  · rw [sub_bind (by omega)]
    split_ifs with hfull
    · unfold refuseRecord
      split_ifs
      · exact Within.act trivial (fun _ _ => rfl) fun _ => .done (.inl ⟨_, rfl, by simp, rfl⟩)
      · exact .done (.inl ⟨_, rfl, by simp, rfl⟩)
    · rw [writeRecord_eq ring direction hsize]
      refine Within.writeAt (place_in_area ring direction _) (Within.store ?_) _ 0
      exact Within.done (.inr ⟨_, rfl, rfl⟩)

theorem tryPushInner_all (packet : Bytes) (countDrop : Bool) :
    (ring.tryPushInner direction packet countDrop).All (Within ring direction (PushEnds direction)) := by
  unfold tryPushInner
  by_cases hsize : packet.isEmpty ∨ MAX_PACKET_BYTES < packet.length
  · rw [if_pos hsize]
    exact .done (.inl ⟨_, rfl, by simp, rfl⟩)
  · rw [if_neg hsize]
    simp only [not_or, not_lt] at hsize
    rw [alignedRecordBytes_eq hsize.2]
    exact Within.load fun headValue => Within.load fun tailValue =>
      ring.pushLoaded_all direction hsize.2 countDrop headValue tailValue

theorem attach_areas {base length : ℕ} {header : RingHeader}
    (h : attach base length header = .ok ring) :
    (∀ direction, base + HEADER_BYTES ≤ ring.buffer direction ∧
      ring.buffer direction + ring.capacity ≤ base + length) ∧
      ring.buffer .engineToAgent + ring.capacity ≤ ring.buffer .agentToEngine := by
  simp only [attach, bindOk] at h
  obtain ⟨-, -, h⟩ := h
  split_ifs at h with hmagic hver
  split at h
  · cases h
  · simp only [bindOk] at h
    obtain ⟨required, hreq, _, hmap, heq⟩ := h
    have hfits : required ≤ length := by
      unfold validateMapping at hmap
      split_ifs at hmap with _ hsht
      omega
    have hsize : required = HEADER_BYTES + header.capacity * 2 := by
      simp only [mappedBytes, bindOk] at hreq
      obtain ⟨-, -, hreq⟩ := hreq
      split at hreq
      · cases hreq
      · rename_i bytes hbyt
        cases hreq
        unfold checkedAdd at hbyt
        split_ifs at hbyt
        cases hbyt
        rfl
    cases heq
    refine ⟨fun direction => ?_, le_rfl⟩
    cases direction <;> simp only [buffer] <;> omega

/-- **The packet ring fails closed.** Whatever the shared indices and bytes are, at
    every load and read:
    * a pop answers that there is nothing, or an error, and then it stores no index
      and the caller's buffer is what it was; or it answers with a packet of 1 to
      65535 bytes and stores the tail that it loaded, moved on by the size of the
      packet's record;
    * pushes and pops access bytes of the direction's data area only, which lies in
      the mapping and apart from the other one, and no arithmetic overflows. -/
theorem packet_ring_fails_closed {ring : SharedPacketRing} {base length : ℕ} {header : RingHeader}
    (h : attach base length header = .ok ring) :
    (∀ direction buffer, (ring.tryPopInto direction buffer).All fun actions last =>
      (∀ action ∈ actions, InArea ring direction action.1) ∧
      ∃ tailValue, actions.head? = some ⟨.load (.tail direction), tailValue⟩ ∧
        ((∃ answer, last = some (answer, buffer) ∧ answer ≠ .ok true ∧ stores actions = []) ∨
          ∃ packet size, last = some (.ok true, packet) ∧ 1 ≤ packet.length ∧
            packet.length ≤ 65535 ∧ alignedRecordBytes packet.length = .ok size ∧
            stores actions = [(.tail direction, tailValue + BitVec.ofNat 32 size)])) ∧
    (∀ direction packet countDrop, (ring.tryPushInner direction packet countDrop).All
      fun actions last => (∀ action ∈ actions, InArea ring direction action.1) ∧ last ≠ none) ∧
    (∀ direction, base + HEADER_BYTES ≤ ring.buffer direction ∧
      ring.buffer direction + ring.capacity ≤ base + length) ∧
    ring.buffer .engineToAgent + ring.capacity ≤ ring.buffer .agentToEngine := by
  refine ⟨ring.tryPopInto_all, ?_, ring.attach_areas h⟩
  intro direction packet countDrop
  refine (ring.tryPushInner_all direction packet countDrop).mono ?_
  rintro actions last ⟨hinside, ⟨answer, rfl, -⟩ | ⟨value, rfl, -⟩⟩
  · exact ⟨hinside, by simp⟩
  · exact ⟨hinside, by simp⟩

theorem attach_leastRing :
    attach 0 (HEADER_BYTES + MIN_RING_CAPACITY * 2)
      ⟨MAGIC, PACKET_RING_LAYOUT_VERSION, MIN_RING_CAPACITY⟩ = .ok leastRing := rfl

theorem packet_ring_fails_closed_sample :
    attach 0 (HEADER_BYTES + MIN_RING_CAPACITY * 2)
        ⟨MAGIC, PACKET_RING_LAYOUT_VERSION, MIN_RING_CAPACITY⟩ = .ok leastRing ∧
      leastRing.buffer .engineToAgent + leastRing.capacity ≤ leastRing.buffer .agentToEngine :=
  ⟨attach_leastRing, (packet_ring_fails_closed attach_leastRing).2.2.2⟩

end SharedPacketRing

end Usque.Platform
