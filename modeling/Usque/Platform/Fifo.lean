/-
  The packet ring between honest peers.
-/
import Usque.Lib.Run
import Usque.Platform.Wrapped

namespace Usque.Platform
open Lib List SharedPacketRing Function

variable {byte : UInt8} {packet : Bytes} {rest : List Bytes} {d : PacketDirection}

/-! ## Interleavings -/

structure Shared where
  index : RingIndex → BitVec 32
  dropped : PacketDirection → BitVec 64
  bytes : ℕ → UInt8

/-- An operation on the shared memory. -/
def Shared.handle : (op : RingOp) → Shared → Shared × op.Answer
  | .load index, s => (s, s.index index)
  | .store index value, s => ({ s with index := Function.update s.index index value }, ())
  | .addDropped direction, s =>
    ({ s with dropped := Function.update s.dropped direction (s.dropped direction + 1) }, ())
  | .read address, s => (s, s.bytes address)
  | .write address byte, s => ({ s with bytes := Function.update s.bytes address byte }, ())

abbrev PushCode := RingCode (Except PacketRingError Bool)
abbrev PopCode := RingCode (Except PacketRingError Bool × Bytes)

variable {code : PushCode}

/-- The memory and what is left of the calls that are under way. -/
structure RingSystem where
  shared : Shared
  producer : PacketDirection → Option (Bytes × PushCode)
  consumer : PacketDirection → Option PopCode

inductive RingStep where
  | push (direction : PacketDirection) (packet : Bytes) (countDrop : Bool)
  | pop (direction : PacketDirection) (buffer : Bytes)
  /-- The next operation of a direction's push. -/
  | produce (direction : PacketDirection)
  /-- The next operation of a direction's pop. -/
  | consume (direction : PacketDirection)

variable {step : RingStep}

def RingStep.direction : RingStep → PacketDirection
  | .push direction _ _ | .pop direction _ | .produce direction | .consume direction => direction

inductive RingOutput where
  | silent
  | pushed (direction : PacketDirection) (packet : Bytes) (answer : Except PacketRingError Bool)
  | popped (direction : PacketDirection) (answer : Except PacketRingError Bool) (buffer : Bytes)
  | panicked

namespace RingSystem

/-- Go on with what is left of a push, or answer. -/
def settlePush (s : RingSystem) (direction : PacketDirection) (packet : Bytes) :
    PushCode → RingSystem × RingOutput
  | .done answer =>
    ({ s with producer := Function.update s.producer direction none },
      .pushed direction packet answer)
  | .panicked => ({ s with producer := Function.update s.producer direction none }, .panicked)
  | .act op k =>
    ({ s with producer := Function.update s.producer direction (some (packet, .act op k)) },
      .silent)

/-- Go on with what is left of a pop, or answer. -/
def settlePop (s : RingSystem) (direction : PacketDirection) : PopCode → RingSystem × RingOutput
  | .done (answer, buffer) =>
    ({ s with consumer := Function.update s.consumer direction none },
      .popped direction answer buffer)
  | .panicked => ({ s with consumer := Function.update s.consumer direction none }, .panicked)
  | .act op k =>
    ({ s with consumer := Function.update s.consumer direction (some (.act op k)) }, .silent)

/-- One step. A side that is in a call starts no other one. -/
def next (ring : SharedPacketRing) (s : RingSystem) : RingStep → RingSystem × RingOutput
  | .push direction packet countDrop =>
    match s.producer direction with
    | some _ => (s, .silent)
    | none => s.settlePush direction packet (ring.tryPushInner direction packet countDrop)
  | .pop direction buffer =>
    match s.consumer direction with
    | some _ => (s, .silent)
    | none => s.settlePop direction (ring.tryPopInto direction buffer)
  | .produce direction =>
    match s.producer direction with
    | none => (s, .silent)
    | some (packet, code) =>
      let (shared, code) := code.step Shared.handle s.shared
      { s with shared }.settlePush direction packet code
  | .consume direction =>
    match s.consumer direction with
    | none => (s, .silent)
    | some code =>
      let (shared, code) := code.step Shared.handle s.shared
      { s with shared }.settlePop direction code

/-- No call is under way, and the indices of each direction are equal. -/
structure Start (s : RingSystem) : Prop where
  producer : ∀ direction, s.producer direction = none
  consumer : ∀ direction, s.consumer direction = none
  equal : ∀ direction, s.shared.index (.head direction) = s.shared.index (.tail direction)

end RingSystem

/-! ## Histories -/

def acceptedBy (direction : PacketDirection) : RingOutput → List Bytes
  | .pushed d packet (.ok true) => if d = direction then [packet] else []
  | _ => []

def returnedBy (direction : PacketDirection) : RingOutput → List Bytes
  | .popped d (.ok true) packet => if d = direction then [packet] else []
  | _ => []

/-- The packets that `try_push` accepted, the first one first. -/
def accepted (direction : PacketDirection) : List (Event RingSystem RingStep RingOutput) → List Bytes
  | [] => []
  | e :: h => accepted direction h ++ acceptedBy direction e.output

/-- The packets that `try_pop_into` returned, the first one first. -/
def returned (direction : PacketDirection) : List (Event RingSystem RingStep RingOutput) → List Bytes
  | [] => []
  | e :: h => returned direction h ++ returnedBy direction e.output

/-! ## Lanes -/

/-- A packet that `try_push` does not refuse for its size. -/
def Sized (packet : Bytes) : Prop := packet ≠ [] ∧ packet.length ≤ MAX_PACKET_BYTES

def flat (queue : List Bytes) : Bytes := queue.flatMap record

section
variable (ring : SharedPacketRing) (direction : PacketDirection)

def Window (s : Shared) (bytes : Bytes) : Prop :=
  ∀ i byte, bytes[i]? = some byte →
    s.bytes (place (ring.buffer direction) ring.capacity (s.index (.tail direction)) i) = byte

def publishHead (headValue : BitVec 32) (packet : Bytes) : PushCode :=
  .act (.store (.head direction) (headValue + BitVec.ofNat 32 (recordBytes packet.length)))
    fun _ => .done (.ok true)

def publishTail (tailValue : BitVec 32) (packet bytes : Bytes) : PopCode :=
  .act (.store (.tail direction) (tailValue + BitVec.ofNat 32 (recordBytes packet.length)))
    fun _ => .done (.ok true, bytes)

/-- Where a producer is, when the head is `head`, `room` bytes are free after it and
    `part` is what it has written there. -/
inductive Producing (head : BitVec 32) (room : ℕ) : Option (Bytes × PushCode) → Bytes → Prop where
  | idle : Producing head room none []
  | started {packet : Bytes} (countDrop : Bool) (h : Sized packet) :
    Producing head room (some (packet, do
      let headValue ← load (.head direction)
      let tailValue ← load (.tail direction)
      ring.pushLoaded direction packet countDrop (recordBytes packet.length) headValue
        tailValue)) []
  | loaded {packet : Bytes} (countDrop : Bool) (h : Sized packet) :
    Producing head room (some (packet, do
      let tailValue ← load (.tail direction)
      ring.pushLoaded direction packet countDrop (recordBytes packet.length) head tailValue)) []
  | refusing {packet : Bytes} :
    Producing head room (some (packet, .act (.addDropped direction) fun _ => .done (.ok false))) []
  | writing {packet : Bytes} {n : ℕ} (h : Sized packet) (hroom : recordBytes packet.length ≤ room)
    (hn : n ≤ (record packet).length) :
    Producing head room (some (packet, writeAt (place (ring.buffer direction) ring.capacity head) n
      ((record packet).drop n) (publishHead direction head packet))) ((record packet).take n)

/-- Where a consumer is, when the tail is `tail` and `queue` are the queued packets. -/
inductive Consuming (tail : BitVec 32) (queue : List Bytes) : Option PopCode → Prop where
  | idle : Consuming tail queue none
  | started (buffer : Bytes) : Consuming tail queue (some do
      let tailValue ← load (.tail direction)
      let headValue ← load (.head direction)
      ring.popLoaded direction buffer tailValue headValue)
  | loaded (buffer : Bytes) : Consuming tail queue (some do
      let headValue ← load (.head direction)
      ring.popLoaded direction buffer tail headValue)
  | header {packet : Bytes} {rest : List Bytes} {n : ℕ} {used : BitVec 32} (buffer : Bytes)
    (hqueue : queue = packet :: rest) (hused : recordBytes packet.length ≤ used.toNat)
    (hn : n < RECORD_HEADER_BYTES) :
    Consuming tail queue (some (readAt (place (ring.buffer direction) ring.capacity tail) n
      (RECORD_HEADER_BYTES - n) fun bytes =>
        ring.popRecord direction buffer tail used ((toLeBytes packet.length).take n ++ bytes)))
  | packet {packet : Bytes} {rest : List Bytes} {n : ℕ} (hqueue : queue = packet :: rest)
    (hn : n ≤ packet.length) :
    Consuming tail queue (some (readAt (place (ring.buffer direction) ring.capacity
      (tail + BitVec.ofNat 32 RECORD_HEADER_BYTES)) n (packet.length - n) fun bytes =>
        publishTail direction tail packet (packet.take n ++ bytes)))

/-- The memory of a direction with the queued packets `queue`, where the bytes `part`
    of one more record were written. -/
structure Queued (shared : Shared) (queue : List Bytes) (part : Bytes) : Prop where
  sized : ∀ packet ∈ queue, Sized packet
  head_eq : shared.index (.head direction) =
    shared.index (.tail direction) + BitVec.ofNat 32 (flat queue).length
  fits : (flat queue).length ≤ ring.capacity
  window : Window ring direction shared (flat queue ++ part)

structure Lane (s : RingSystem) (queue : List Bytes) (part : Bytes) : Prop where
  queued : Queued ring direction s.shared queue part
  producing : Producing ring direction (s.shared.index (.head direction))
    (ring.capacity - (flat queue).length) (s.producer direction) part
  consuming : Consuming ring direction (s.shared.index (.tail direction)) queue
    (s.consumer direction)

/-- Only the indices and the area of the direction differ. -/
structure Own (shared shared' : Shared) : Prop where
  index : ∀ d, d ≠ direction → shared'.index (.head d) = shared.index (.head d) ∧
    shared'.index (.tail d) = shared.index (.tail d)
  bytes : ∀ address, ¬(ring.buffer direction ≤ address ∧
    address < ring.buffer direction + ring.capacity) → shared'.bytes address = shared.bytes address

end

variable {value : BitVec 32} {i n : ℕ}

section
variable {ring : SharedPacketRing} {direction : PacketDirection} {shared shared' : Shared}
  {queue : List Bytes} {part : Bytes}

theorem Own.refl : Own ring direction shared shared := ⟨fun _ _ => ⟨rfl, rfl⟩, fun _ _ => rfl⟩

theorem Own.write {start : BitVec 32} :
    Own ring direction shared { shared with
      bytes := update shared.bytes
        (place (ring.buffer direction) ring.capacity start i) byte } := by
  obtain ⟨-, -, k, -, hcap⟩ := validateCapacity_ok ring.capacity_ok
  refine ⟨fun _ _ => ⟨rfl, rfl⟩, fun address hout => update_of_ne ?_ _ _⟩
  rintro rfl
  exact hout (place_lt (hcap ▸ Nat.two_pow_pos k) start i)

theorem Own.storeHead :
    Own ring direction shared { shared with
      index := update shared.index (.head direction) value } := by
  refine ⟨fun d hd => ?_, fun _ _ => rfl⟩
  constructor
  · simp [hd]
  · simp

theorem Own.storeTail :
    Own ring direction shared { shared with
      index := update shared.index (.tail direction) value } := by
  refine ⟨fun d hd => ?_, fun _ _ => rfl⟩
  constructor
  · simp
  · simp [hd]

theorem tail_storeHead :
    update shared.index (.head direction) value (.tail d) = shared.index (.tail d) :=
  update_of_ne (by simp) _ _

theorem head_storeTail :
    update shared.index (.tail direction) value (.head d) = shared.index (.head d) :=
  update_of_ne (by simp) _ _

/-! ## Queues -/

theorem flat_cons (packet : Bytes) (rest : List Bytes) :
    flat (packet :: rest) = record packet ++ flat rest := rfl

theorem flat_append (queue : List Bytes) (packet : Bytes) :
    flat (queue ++ [packet]) = flat queue ++ record packet := by
  simp [flat]

section
variable (h : Queued ring direction shared queue part)
include h

theorem Queued.used_eq :
    (shared.index (.head direction) - shared.index (.tail direction)).toNat =
      (flat queue).length := by
  obtain ⟨-, hmax, -⟩ := validateCapacity_ok ring.capacity_ok
  have hlim : MAX_RING_CAPACITY < 2 ^ 32 := by decide
  have hfits := h.fits
  have hsub : ∀ a b : BitVec 32, a + b - a = b := by
    intro a b
    rw [BitVec.add_comm, BitVec.add_sub_cancel]
  rw [h.head_eq, hsub]
  exact Nat.mod_eq_of_lt (by omega)

theorem Queued.place_head (i : ℕ) :
    place (ring.buffer direction) ring.capacity (shared.index (.head direction)) i =
      place (ring.buffer direction) ring.capacity (shared.index (.tail direction))
        ((flat queue).length + i) := by
  obtain ⟨-, -, k, hk, hcap⟩ := validateCapacity_ok ring.capacity_ok
  rw [h.head_eq, place_add hk hcap]

theorem Queued.write (byte : UInt8) (hroom : (flat queue).length + part.length < ring.capacity) :
    Queued ring direction { shared with
      bytes := update shared.bytes (place (ring.buffer direction) ring.capacity
        (shared.index (.head direction)) part.length) byte } queue (part ++ [byte]) := by
  refine ⟨h.sized, h.head_eq, h.fits, fun i b hb => ?_⟩
  dsimp only
  rw [h.place_head, ← append_assoc] at *
  by_cases hi : i < (flat queue ++ part).length
  · rw [getElem?_append_left hi] at hb
    rw [length_append] at hi
    rw [update_of_ne (place_inj _ hi (by omega))]
    exact h.window i b hb
  · rw [getElem?_append_right (not_lt.1 hi), getElem?_singleton] at hb
    split_ifs at hb with hzero
    cases hb
    rw [length_append] at hi hzero
    obtain rfl : i = (flat queue).length + part.length := by omega
    exact update_self _ _ _

end

theorem Queued.storeHead (hszd : Sized packet)
    (h : Queued ring direction shared queue (record packet))
    (hroom : (flat queue).length + recordBytes packet.length ≤ ring.capacity) :
    Queued ring direction { shared with
      index := update shared.index (.head direction)
        (shared.index (.head direction) + BitVec.ofNat 32 (recordBytes packet.length)) }
      (queue ++ [packet]) [] := by
  have hlen := length_record hszd.2
  refine ⟨?_, ?_, ?_, ?_⟩
  · intro p hp
    rcases mem_append.1 hp with hp | hp
    · exact h.sized p hp
    · rw [mem_singleton.1 hp]
      exact hszd
  · dsimp only
    rw [tail_storeHead, update_self, h.head_eq, flat_append, length_append, hlen,
      BitVec.ofNat_add, BitVec.add_assoc]
  · rw [flat_append, length_append, hlen]
    exact hroom
  · intro i byte hbyte
    rw [flat_append, append_nil] at hbyte
    exact h.window i byte hbyte

theorem Queued.storeTail (h : Queued ring direction shared (packet :: rest) part) :
    Queued ring direction { shared with
      index := update shared.index (.tail direction)
        (shared.index (.tail direction) + BitVec.ofNat 32 (recordBytes packet.length)) } rest part := by
  obtain ⟨-, -, k, hk, hcap⟩ := validateCapacity_ok ring.capacity_ok
  have hlen := length_record (h.sized packet (mem_cons_self ..)).2
  have hflat : (flat (packet :: rest)).length = recordBytes packet.length + (flat rest).length := by
    rw [flat_cons, length_append, hlen]
  refine ⟨fun p hp => h.sized p (mem_cons_of_mem _ hp), ?_, ?_, ?_⟩
  · dsimp only
    rw [head_storeTail, update_self, h.head_eq, hflat, BitVec.ofNat_add, BitVec.add_assoc]
  · have := h.fits
    omega
  · intro i byte hbyte
    dsimp only
    rw [update_self, place_add hk hcap]
    refine h.window _ byte ?_
    rw [flat_cons, append_assoc, ← hlen, getElem?_append_right (by omega), Nat.add_sub_cancel_left]
    exact hbyte

/-! ## Steps of a producer -/

/-- Neither an index nor a byte differs. -/
def Quiet (shared shared' : Shared) : Prop :=
  shared'.index = shared.index ∧ shared'.bytes = shared.bytes

/-- Whatever happens, the push will be accepted. -/
def Commits (code : PushCode) : Prop := code.All fun _ last => last = some (.ok true)

theorem commits_writeAt (p : ℕ → ℕ) (headValue : BitVec 32) (packet bytes : Bytes) :
    ∀ i, Commits (writeAt p i bytes (publishHead direction headValue packet)) := by
  induction bytes with
  | nil => exact fun _ _ => rfl
  | cons _ _ ih => exact fun i _ => ih (i + 1)

/-- What a step of a push leaves: an answer, or the rest of the push. -/
def AfterPush (ring : SharedPacketRing) (direction : PacketDirection) (shared : Shared)
    (queue : List Bytes) (packet : Bytes) : PushCode → Prop
  | .done (.ok true) => Queued ring direction shared (queue ++ [packet]) []
  | .done answer => Queued ring direction shared queue [] ∧
    (answer = .ok false ∨ answer = .error (.packetSize packet.length))
  | .panicked => False
  | .act op k => ∃ part, Queued ring direction shared queue part ∧
    Producing ring direction (shared.index (.head direction))
      (ring.capacity - (flat queue).length) (some (packet, .act op k)) part

theorem AfterPush.act (hact : ∃ op k, code = .act op k)
    (hqueued : Queued ring direction shared queue part)
    (hprod : Producing ring direction (shared.index (.head direction))
      (ring.capacity - (flat queue).length) (some (packet, code)) part) :
    AfterPush ring direction shared queue packet code := by
  obtain ⟨op, k, rfl⟩ := hact
  exact ⟨part, hqueued, hprod⟩

theorem writeAt_publish (p : ℕ → ℕ) (i : ℕ) (bytes : Bytes) (headValue : BitVec 32)
    (packet : Bytes) :
    ∃ op k, writeAt p i bytes (publishHead direction headValue packet) = .act op k := by
  cases bytes with
  | nil => exact ⟨_, _, rfl⟩
  | cons => exact ⟨_, _, rfl⟩

/-- After the loads a push is refused, or it has room for its record. -/
theorem pushLoaded_step (hszd : Sized packet) (countDrop : Bool)
    (h : Queued ring direction shared queue []) :
    AfterPush ring direction shared queue packet (ring.pushLoaded direction packet countDrop
      (recordBytes packet.length) (shared.index (.head direction))
      (shared.index (.tail direction))) := by
  have hused := h.used_eq
  have hfits := h.fits
  obtain ⟨-, -, -, hword⟩ := recordBytes_le hszd.2
  have hreq : asU32 (recordBytes packet.length) = recordBytes packet.length :=
    Nat.mod_eq_of_lt hword
  unfold pushLoaded
  dsimp only
  rw [hused, if_neg (by omega), sub_bind hfits]
  split_ifs with hfull
  · cases countDrop with
    | false => exact ⟨h, .inl rfl⟩
    | true => exact ⟨[], h, .refusing⟩
  · rw [writeRecord_eq ring direction hszd.2]
    refine AfterPush.act (writeAt_publish _ _ _ _ _) h ?_
    exact Producing.writing (n := 0) hszd (by omega) (Nat.zero_le _)

/-- **A step of a producer.** -/
theorem produce_step (h : Queued ring direction shared queue part)
    (hp : Producing ring direction (shared.index (.head direction))
      (ring.capacity - (flat queue).length) (some (packet, code)) part) :
    AfterPush ring direction (code.step Shared.handle shared).1 queue packet
        (code.step Shared.handle shared).2 ∧
      Own ring direction shared (code.step Shared.handle shared).1 ∧
      (code.step Shared.handle shared).1.index (.tail direction) = shared.index (.tail direction) ∧
      (Quiet shared (code.step Shared.handle shared).1 ∨
        Commits (code.step Shared.handle shared).2) := by
  have hfits := h.fits
  cases hp with
  | started countDrop hszd =>
    exact ⟨⟨[], h, .loaded countDrop hszd⟩, .refl, rfl, .inl ⟨rfl, rfl⟩⟩
  | loaded countDrop hszd =>
    exact ⟨pushLoaded_step hszd countDrop h, .refl, rfl, .inl ⟨rfl, rfl⟩⟩
  | refusing =>
    exact ⟨⟨⟨h.sized, h.head_eq, h.fits, h.window⟩, .inl rfl⟩,
      ⟨fun _ _ => ⟨rfl, rfl⟩, fun _ _ => rfl⟩, rfl, .inl ⟨rfl, rfl⟩⟩
  | @writing _ n hszd hroom hn =>
    have hlen := length_record hszd.2
    rcases hrest : (record packet).drop n with _ | ⟨byte, rest⟩
    · -- the whole record is written: its head is published
      have hall : (record packet).take n = record packet :=
        take_of_length_le (drop_eq_nil_iff.1 hrest)
      rw [hall] at h
      exact ⟨h.storeHead hszd (by omega), .storeHead, rfl, .inr rfl⟩
    · have hlt : n < (record packet).length := by
        by_contra hge
        rw [drop_eq_nil_iff.2 (not_lt.1 hge)] at hrest
        cases hrest
      have htake : ((record packet).take n).length = n := by
        rw [length_take]
        omega
      have hnext : (record packet).take (n + 1) = (record packet).take n ++ [byte] := by
        have hbyte : (record packet)[n]? = some byte := by
          have := congrArg head? hrest
          rwa [head?_drop] at this
        rw [take_add_one, hbyte]
        rfl
      have hdrop : rest = (record packet).drop (n + 1) := by
        have := congrArg tail hrest
        rw [tail_drop] at this
        exact this.symm
      have hwr := h.write byte (by omega)
      rw [htake, ← hnext] at hwr
      refine ⟨AfterPush.act (writeAt_publish _ _ _ _ _) hwr ?_, .write, rfl,
        .inr (commits_writeAt _ _ _ _ _)⟩
      rw [hdrop]
      exact .writing hszd hroom (by omega)

/-! ## Steps of a consumer -/

/-- What a step of a pop leaves: an answer, or the rest of the pop. -/
def AfterPop (ring : SharedPacketRing) (direction : PacketDirection) (shared : Shared)
    (queue : List Bytes) (part : Bytes) : PopCode → Prop
  | .done (.ok true, packet) => ∃ rest, queue = packet :: rest ∧
    Queued ring direction shared rest part
  | .done (answer, _) => Queued ring direction shared queue part ∧ answer = .ok false
  | .panicked => False
  | .act op k => Queued ring direction shared queue part ∧
    Consuming ring direction (shared.index (.tail direction)) queue (some (.act op k))

theorem AfterPop.act {code : PopCode} (hact : ∃ op k, code = .act op k)
    (hqueued : Queued ring direction shared queue part)
    (hcons : Consuming ring direction (shared.index (.tail direction)) queue (some code)) :
    AfterPop ring direction shared queue part code := by
  obtain ⟨op, k, rfl⟩ := hact
  exact ⟨hqueued, hcons⟩

theorem readAt_act {α : Type} (p : ℕ → ℕ) (i : ℕ) (hn : 0 < n) (k : Bytes → RingCode α) :
    ∃ op k', readAt p i n k = .act op k' := by
  cases n with
  | zero => cases hn
  | succ => exact ⟨_, _, rfl⟩

theorem readAt_publish (p : ℕ → ℕ) (i n : ℕ) (tailValue : BitVec 32) (packet : Bytes)
    (f : Bytes → Bytes) :
    ∃ op k, readAt p i n (fun bytes => publishTail direction tailValue packet (f bytes)) =
      .act op k := by
  cases n with
  | zero => exact ⟨_, _, rfl⟩
  | succ => exact ⟨_, _, rfl⟩

theorem Queued.first (h : Queued ring direction shared queue part)
    (hused : (flat queue).length ≠ 0) :
    ∃ packet rest, queue = packet :: rest ∧ Sized packet ∧
      recordBytes packet.length ≤ (flat queue).length := by
  cases queue with
  | nil => exact absurd rfl hused
  | cons packet rest =>
    have hszd := h.sized packet (mem_cons_self ..)
    refine ⟨packet, rest, rfl, hszd, ?_⟩
    rw [flat_cons, length_append, length_record hszd.2]
    exact Nat.le_add_right _ _

/-- After the loads a pop answers that there is nothing, or reads a header. -/
theorem popLoaded_step (buffer : Bytes) (h : Queued ring direction shared queue part) :
    AfterPop ring direction shared queue part (ring.popLoaded direction buffer
      (shared.index (.tail direction)) (shared.index (.head direction))) := by
  obtain ⟨hmin, -, k, hk, hcap⟩ := validateCapacity_ok ring.capacity_ok
  have hused := h.used_eq
  have hfits := h.fits
  unfold popLoaded
  dsimp only
  rw [hused, if_neg (by omega)]
  split_ifs with hempty hsht
  · exact ⟨h, rfl⟩
  · obtain ⟨packet, rest, -, hszd, hrec⟩ := h.first hempty
    have := (recordBytes_le hszd.2).1
    omega
  · obtain ⟨packet, rest, hque, hszd, hrec⟩ := h.first hempty
    rw [readWrapped_eq hcap _ (by omega)]
    refine AfterPop.act (readAt_act _ _ (by decide) _) h ?_
    exact .header (n := 0) buffer hque (by rw [hused]; exact hrec) (by decide)

theorem popRecord_step (buffer : Bytes) {used : BitVec 32} (hque : queue = packet :: rest)
    (hrec : recordBytes packet.length ≤ used.toNat) (h : Queued ring direction shared queue part) :
    AfterPop ring direction shared queue part (ring.popRecord direction buffer
      (shared.index (.tail direction)) used (toLeBytes packet.length)) := by
  obtain ⟨hmin, -, k, hk, hcapacity⟩ := validateCapacity_ok ring.capacity_ok
  have hszd := h.sized packet (by rw [hque]; exact mem_cons_self ..)
  obtain ⟨hhdr, -, hcap, hword⟩ := recordBytes_le hszd.2
  have hreq : asU32 (recordBytes packet.length) = recordBytes packet.length :=
    Nat.mod_eq_of_lt hword
  have hpos := length_pos_iff.2 hszd.1
  have hmax := hszd.2
  unfold popRecord
  rw [fromLeBytes_toLeBytes hmax, if_neg (by omega), alignedRecordBytes_eq hmax]
  dsimp only
  rw [if_neg (by omega), readWrapped_eq hcapacity _ (by omega)]
  refine AfterPop.act (readAt_act _ _ hpos _) h ?_
  exact .packet (n := 0) hque (Nat.zero_le _)

theorem Queued.read (h : Queued ring direction shared queue part) (hque : queue = packet :: rest)
    (hbyte : (record packet)[i]? = some byte) :
    shared.bytes (place (ring.buffer direction) ring.capacity (shared.index (.tail direction)) i) =
      byte := by
  refine h.window i byte ?_
  have hi := (List.getElem?_eq_some_iff.1 hbyte).1
  rw [hque, flat_cons, append_assoc, List.getElem?_append_left hi]
  exact hbyte

theorem take_next {bytes : Bytes} (h : bytes[n]? = some byte) (more : Bytes) :
    bytes.take n ++ byte :: more = bytes.take (n + 1) ++ more := by
  rw [take_add_one, h]
  simp

/-- **A step of a consumer.** -/
theorem consume_step {code : PopCode} (h : Queued ring direction shared queue part)
    (hc : Consuming ring direction (shared.index (.tail direction)) queue (some code)) :
    AfterPop ring direction (code.step Shared.handle shared).1 queue part
        (code.step Shared.handle shared).2 ∧
      Own ring direction shared (code.step Shared.handle shared).1 ∧
      (code.step Shared.handle shared).1.index (.head direction) =
        shared.index (.head direction) := by
  obtain ⟨-, -, k, hk, hcap⟩ := validateCapacity_ok ring.capacity_ok
  cases hc with
  | started buffer => exact ⟨⟨h, .loaded buffer⟩, .refl, rfl⟩
  | loaded buffer => exact ⟨popLoaded_step buffer h, .refl, rfl⟩
  | @header packet rest n used buffer hque hused hn =>
    obtain ⟨byte, hbyte⟩ : ∃ byte, (toLeBytes packet.length)[n]? = some byte :=
      ⟨_, getElem?_eq_getElem (by exact hn)⟩
    have hrec : (record packet)[n]? = some byte := by
      rw [record, append_assoc, getElem?_append_left (by exact hn)]
      exact hbyte
    have hread := h.read hque hrec
    obtain ⟨m, hm⟩ : ∃ m, RECORD_HEADER_BYTES - n = m + 1 :=
      ⟨RECORD_HEADER_BYTES - n - 1, by omega⟩
    rw [hm]
    refine ⟨?_, .refl, rfl⟩
    simp only [readAt, Code.step, Shared.handle, hread, take_next hbyte]
    cases m with
    | zero =>
      -- the last byte of the header
      have hall : (toLeBytes packet.length).take (n + 1) = toLeBytes packet.length :=
        take_of_length_le (by rw [length_toLeBytes]; omega)
      simp only [readAt, hall, append_nil]
      exact popRecord_step buffer hque hused h
    | succ m =>
      rw [show m + 1 = RECORD_HEADER_BYTES - (n + 1) by omega]
      exact AfterPop.act (readAt_act _ _ (by omega) _) h (.header buffer hque hused (by omega))
  | @packet packet rest n hque hn =>
    rcases hrest : packet.length - n with _ | m
    · -- the whole packet is read: the tail is published
      have hall : packet.take n = packet := take_of_length_le (by omega)
      rw [hque] at h
      simp only [readAt, publishTail, hall, append_nil]
      exact ⟨⟨rest, hque, h.storeTail⟩, .storeTail, rfl⟩
    · obtain ⟨byte, hbyte⟩ : ∃ byte, packet[n]? = some byte :=
        ⟨_, getElem?_eq_getElem (by omega)⟩
      have hrec : (record packet)[RECORD_HEADER_BYTES + n]? = some byte := by
        rw [record, append_assoc, getElem?_append_right (by rw [length_toLeBytes]; omega),
          length_toLeBytes, Nat.add_sub_cancel_left, getElem?_append_left (by omega)]
        exact hbyte
      have hread := h.read hque hrec
      rw [← place_add hk hcap] at hread
      refine ⟨?_, .refl, rfl⟩
      simp only [readAt, Code.step, Shared.handle, hread, take_next hbyte]
      rw [show m = packet.length - (n + 1) by omega]
      exact AfterPop.act (readAt_publish _ _ _ _ _ _) h (.packet hque (by omega))

/-! ## Steps of the system -/

theorem Consuming.append {tail : BitVec 32} {code : Option PopCode} (more : List Bytes)
    (h : Consuming ring direction tail queue code) :
    Consuming ring direction tail (queue ++ more) code := by
  cases h with
  | idle => exact .idle
  | started buffer => exact .started buffer
  | loaded buffer => exact .loaded buffer
  | header buffer hque hused hn => exact .header buffer (by rw [hque]; rfl) hused hn
  | packet hque hn => exact .packet (by rw [hque]; rfl) hn

theorem Producing.mono {head : BitVec 32} {room room' : ℕ} {code : Option (Bytes × PushCode)}
    (h : Producing ring direction head room code part) (hle : room ≤ room') :
    Producing ring direction head room' code part := by
  cases h with
  | idle => exact .idle
  | started countDrop hszd => exact .started countDrop hszd
  | loaded countDrop hszd => exact .loaded countDrop hszd
  | refusing => exact .refusing
  | writing hszd hroom hn => exact .writing hszd (hroom.trans hle) hn

variable {s : RingSystem}

/-- What an answer may be between honest peers. -/
def Honest : RingOutput → Prop
  | .silent => True
  | .pushed _ packet answer =>
    answer = .ok true ∨ answer = .ok false ∨ answer = .error (.packetSize packet.length)
  | .popped _ answer _ => answer = .ok true ∨ answer = .ok false
  | .panicked => False

/-- The lane after a step, with the packets that the step accepted and returned. -/
def Continues (ring : SharedPacketRing) (direction : PacketDirection) (queue : List Bytes)
    (result : RingSystem × RingOutput) : Prop :=
  Honest result.2 ∧ ∃ queue' part', Lane ring direction result.1 queue' part' ∧
    queue ++ acceptedBy direction result.2 = returnedBy direction result.2 ++ queue'

theorem settlePush_continues (h : AfterPush ring direction shared queue packet code)
    (hcons : Consuming ring direction (shared.index (.tail direction)) queue
      (s.consumer direction)) :
    Continues ring direction queue
      (RingSystem.settlePush { s with shared := shared } direction packet code) := by
  match code, h with
  | .done (.ok true), h =>
    refine ⟨.inl rfl, queue ++ [packet], [], ⟨h, ?_, hcons.append [packet]⟩, ?_⟩
    · simp only [RingSystem.settlePush, update_self]
      exact .idle
    · simp [RingSystem.settlePush, acceptedBy, returnedBy]
  | .done (.ok false), h =>
    refine ⟨.inr (.inl rfl), queue, [], ⟨h.1, ?_, hcons⟩, ?_⟩
    · simp only [RingSystem.settlePush, update_self]
      exact .idle
    · simp [RingSystem.settlePush, acceptedBy, returnedBy]
  | .done (.error error), h =>
    have hsize : Except.error error = (.error (.packetSize packet.length) :
        Except PacketRingError Bool) := by
      rcases h.2 with heq | heq
      · cases heq
      · exact heq
    refine ⟨.inr (.inr hsize), queue, [], ⟨h.1, ?_, hcons⟩, ?_⟩
    · simp only [RingSystem.settlePush, update_self]
      exact .idle
    · simp [RingSystem.settlePush, acceptedBy, returnedBy]
  | .act op k, h =>
    obtain ⟨part', hqueued, hprod⟩ := h
    refine ⟨trivial, queue, part', ⟨hqueued, ?_, hcons⟩, ?_⟩
    · simp only [RingSystem.settlePush, update_self]
      exact hprod
    · simp [RingSystem.settlePush, acceptedBy, returnedBy]

theorem settlePop_continues {code : PopCode} (h : AfterPop ring direction shared queue part code)
    (hprod : Producing ring direction (shared.index (.head direction))
      (ring.capacity - (flat queue).length) (s.producer direction) part) :
    Continues ring direction queue
      (RingSystem.settlePop { s with shared := shared } direction code) := by
  match code, h with
  | .done (.ok true, packet), h =>
    obtain ⟨rest, rfl, hqueued⟩ := h
    refine ⟨.inl rfl, rest, part, ⟨hqueued, hprod.mono ?_, ?_⟩, ?_⟩
    · rw [flat_cons, length_append]
      omega
    · simp only [RingSystem.settlePop, update_self]
      exact .idle
    · simp [RingSystem.settlePop, acceptedBy, returnedBy]
  | .done (.ok false, buffer), h =>
    refine ⟨.inr rfl, queue, part, ⟨h.1, hprod, ?_⟩, ?_⟩
    · simp only [RingSystem.settlePop, update_self]
      exact .idle
    · simp [RingSystem.settlePop, acceptedBy, returnedBy]
  | .done (.error error, buffer), h => cases h.2
  | .act op k, h =>
    refine ⟨trivial, queue, part, ⟨h.1, hprod, ?_⟩, ?_⟩
    · simp only [RingSystem.settlePop, update_self]
      exact h.2
    · simp [RingSystem.settlePop, acceptedBy, returnedBy]

theorem tryPushInner_starts (h : Queued ring direction shared queue []) (packet : Bytes)
    (countDrop : Bool) :
    AfterPush ring direction shared queue packet
      (ring.tryPushInner direction packet countDrop) := by
  unfold tryPushInner
  by_cases hsize : packet.isEmpty ∨ MAX_PACKET_BYTES < packet.length
  · rw [if_pos hsize]
    exact ⟨h, .inr rfl⟩
  · rw [if_neg hsize]
    simp only [not_or, not_lt, List.isEmpty_iff] at hsize
    rw [alignedRecordBytes_eq hsize.2]
    exact ⟨[], h, .started countDrop hsize⟩

theorem settlePush_shared (d : PacketDirection) (packet : Bytes) (code : PushCode) :
    (s.settlePush d packet code).1.shared = s.shared := by
  cases code <;> rfl

theorem settlePop_shared (d : PacketDirection) (code : PopCode) :
    (s.settlePop d code).1.shared = s.shared := by
  cases code <;> rfl

/-- **A step of the direction itself.** -/
theorem Lane.next (h : Lane ring direction s queue part) (hdir : step.direction = direction) :
    Continues ring direction queue (s.next ring step) ∧
      Own ring direction s.shared (s.next ring step).1.shared := by
  have hsil : Continues ring direction queue (s, .silent) ∧ Own ring direction s.shared s.shared :=
    ⟨⟨trivial, queue, part, h, by simp [acceptedBy, returnedBy]⟩, .refl⟩
  have hprod := h.producing
  have hcons := h.consuming
  cases step with
  | push d packet countDrop =>
    obtain rfl : d = direction := hdir
    rcases hcode : s.producer d with _ | call
    · simp only [RingSystem.next, hcode, settlePush_shared]
      rw [hcode] at hprod
      cases hprod
      exact ⟨settlePush_continues (tryPushInner_starts h.queued packet countDrop) h.consuming, .refl⟩
    · simp only [RingSystem.next, hcode]
      exact hsil
  | pop d buffer =>
    obtain rfl : d = direction := hdir
    rcases hcode : s.consumer d with _ | code
    · simp only [RingSystem.next, hcode, settlePop_shared]
      have hstarts : AfterPop ring d s.shared queue part (ring.tryPopInto d buffer) :=
        ⟨h.queued, .started buffer⟩
      exact ⟨settlePop_continues hstarts h.producing, .refl⟩
    · simp only [RingSystem.next, hcode]
      exact hsil
  | produce d =>
    obtain rfl : d = direction := hdir
    rcases hcode : s.producer d with _ | ⟨packet, code⟩
    · simp only [RingSystem.next, hcode]
      exact hsil
    · simp only [RingSystem.next, hcode, settlePush_shared]
      rw [hcode] at hprod
      obtain ⟨haft, hown, htail, -⟩ := produce_step h.queued hprod
      rw [← htail] at hcons
      exact ⟨settlePush_continues haft hcons, hown⟩
  | consume d =>
    obtain rfl : d = direction := hdir
    rcases hcode : s.consumer d with _ | code
    · simp only [RingSystem.next, hcode]
      exact hsil
    · simp only [RingSystem.next, hcode, settlePop_shared]
      rw [hcode] at hcons
      obtain ⟨haft, hown, hhead⟩ := consume_step h.queued hcons
      rw [← hhead] at hprod
      exact ⟨settlePop_continues haft hprod, hown⟩

/-- What a push does to the memory before its answer, when it may still be refused. -/
theorem Lane.pushes (h : Lane ring direction s queue part)
    (hstep : step = .produce direction ∨ ∃ packet countDrop, step = .push direction packet countDrop) :
    Quiet s.shared (s.next ring step).1.shared ∨
      (∃ packet, (s.next ring step).2 = .pushed direction packet (.ok true)) ∨
      ∃ packet code, (s.next ring step).1.producer direction = some (packet, code) ∧
        (s.next ring step).2 = .silent ∧ Commits code := by
  rcases hstep with rfl | ⟨packet, countDrop, rfl⟩
  · rcases hcode : s.producer direction with _ | ⟨packet, code⟩
    · left
      simp only [RingSystem.next, hcode]
      exact ⟨rfl, rfl⟩
    · have hprod := h.producing
      rw [hcode] at hprod
      obtain ⟨-, -, -, hquiet | hcommits⟩ := produce_step h.queued hprod
      · left
        simpa only [RingSystem.next, hcode, settlePush_shared] using hquiet
      · right
        simp only [RingSystem.next, hcode]
        generalize (code.step Shared.handle s.shared).2 = code' at hcommits ⊢
        cases code' with
        | done answer =>
          have hans : some answer = some (.ok true) := hcommits
          cases hans
          exact .inl ⟨packet, rfl⟩
        | panicked =>
          have hnone : (none : Option (Except PacketRingError Bool)) = some (.ok true) := hcommits
          cases hnone
        | act op k =>
          refine .inr ⟨packet, .act op k, ?_, rfl, hcommits⟩
          simp [RingSystem.settlePush]
  · left
    rcases hcode : s.producer direction with _ | call
    · simp only [RingSystem.next, hcode, settlePush_shared]
      exact ⟨rfl, rfl⟩
    · simp only [RingSystem.next, hcode]
      exact ⟨rfl, rfl⟩

/-- **What a step can do**: nothing, or it goes on with a push or a pop of its direction. -/
theorem next_cases (ring : SharedPacketRing) (s : RingSystem) (step : RingStep) :
    s.next ring step = (s, .silent) ∨
    ((step = .produce step.direction ∨
        ∃ packet countDrop, step = .push step.direction packet countDrop) ∧
      ∃ shared packet code,
        s.next ring step = RingSystem.settlePush { s with shared } step.direction packet code) ∨
    ∃ shared code, s.next ring step = RingSystem.settlePop { s with shared } step.direction code := by
  cases step with
  | push d packet countDrop =>
    rcases hcode : s.producer d with _ | call
    · refine .inr (.inl ⟨.inr ⟨packet, countDrop, rfl⟩, s.shared, packet,
        ring.tryPushInner d packet countDrop, ?_⟩)
      simp only [RingSystem.next, hcode]
      rfl
    · exact .inl (by simp only [RingSystem.next, hcode])
  | pop d buffer =>
    rcases hcode : s.consumer d with _ | code
    · refine .inr (.inr ⟨s.shared, ring.tryPopInto d buffer, ?_⟩)
      simp only [RingSystem.next, hcode]
      rfl
    · exact .inl (by simp only [RingSystem.next, hcode])
  | produce d =>
    rcases hcode : s.producer d with _ | ⟨packet, code⟩
    · exact .inl (by simp only [RingSystem.next, hcode])
    · refine .inr (.inl ⟨.inl rfl, (code.step Shared.handle s.shared).1, packet,
        (code.step Shared.handle s.shared).2, ?_⟩)
      simp only [RingSystem.next, hcode]
      rfl
  | consume d =>
    rcases hcode : s.consumer d with _ | code
    · exact .inl (by simp only [RingSystem.next, hcode])
    · refine .inr (.inr ⟨(code.step Shared.handle s.shared).1,
        (code.step Shared.handle s.shared).2, ?_⟩)
      simp only [RingSystem.next, hcode]
      rfl

theorem pushed_step {answer : Except PacketRingError Bool}
    (h : (s.next ring step).2 = .pushed direction packet answer) :
    step = .produce direction ∨ ∃ packet countDrop, step = .push direction packet countDrop := by
  obtain heq | ⟨hstep, shared, packet', code, heq⟩ | ⟨shared, code, heq⟩ := next_cases ring s step
  · rw [heq] at h
    cases h
  · rw [heq] at h
    have hdir : step.direction = direction := by
      cases code <;> cases h
      rfl
    rwa [hdir] at hstep
  · rw [heq] at h
    cases code <;> cases h

theorem next_other (hd : d ≠ step.direction) :
    (s.next ring step).1.producer d = s.producer d ∧
      (s.next ring step).1.consumer d = s.consumer d ∧
      acceptedBy d (s.next ring step).2 = [] ∧ returnedBy d (s.next ring step).2 = [] := by
  obtain heq | ⟨-, shared, packet, code, heq⟩ | ⟨shared, code, heq⟩ := next_cases ring s step
  · simp [heq, acceptedBy, returnedBy]
  · rw [heq]
    cases code with
    | done answer =>
      rcases answer with error | _ | _
      all_goals simp [RingSystem.settlePush, hd, hd.symm, acceptedBy, returnedBy]
    | panicked | act => simp [RingSystem.settlePush, hd, acceptedBy, returnedBy]
  · rw [heq]
    cases code with
    | done answer =>
      rcases answer with ⟨error | _ | _, buffer⟩
      all_goals simp [RingSystem.settlePop, hd, hd.symm, acceptedBy, returnedBy]
    | panicked | act => simp [RingSystem.settlePop, hd, acceptedBy, returnedBy]

theorem areas_apart {d' : PacketDirection} (hne : d ≠ d') {address : ℕ}
    (h : ring.buffer d ≤ address ∧ address < ring.buffer d + ring.capacity) :
    ¬(ring.buffer d' ≤ address ∧ address < ring.buffer d' + ring.capacity) := by
  have harea := ring.agentToEngine_eq
  cases d <;> cases d' <;> simp only [buffer] at h ⊢
  · exact absurd rfl hne
  · omega
  · omega
  · exact absurd rfl hne

theorem Lane.other {s' : RingSystem} (h : Lane ring d s queue part) (hne : d ≠ direction)
    (hown : Own ring direction s.shared s'.shared) (hprod : s'.producer d = s.producer d)
    (hcons : s'.consumer d = s.consumer d) : Lane ring d s' queue part := by
  obtain ⟨-, -, k, -, hcap⟩ := validateCapacity_ok ring.capacity_ok
  obtain ⟨hhead, htail⟩ := hown.index d hne
  refine ⟨⟨h.queued.sized, ?_, h.queued.fits, fun i byte hbyte => ?_⟩, ?_, ?_⟩
  · rw [hhead, htail]
    exact h.queued.head_eq
  · rw [htail, hown.bytes _ (areas_apart hne (place_lt (hcap ▸ Nat.two_pow_pos k) _ i))]
    exact h.queued.window i byte hbyte
  · rw [hhead, hprod]
    exact h.producing
  · rw [htail, hcons]
    exact h.consuming

/-! ## Runs -/

def Inv (ring : SharedPacketRing) (h : List (Event RingSystem RingStep RingOutput))
    (s : RingSystem) : Prop :=
  ∀ direction, ∃ queue part, Lane ring direction s queue part ∧
    accepted direction h = returned direction h ++ queue

theorem Inv.start (hs : s.Start) : Inv ring [] s := by
  intro direction
  refine ⟨[], [], ⟨⟨by simp, ?_, Nat.zero_le _, by simp [Window, flat]⟩, ?_, ?_⟩, rfl⟩
  · rw [hs.equal]
    simp [flat]
  · rw [hs.producer]
    exact .idle
  · rw [hs.consumer]
    exact .idle

theorem Inv.next {h : List (Event RingSystem RingStep RingOutput)} (hinv : Inv ring h s)
    (step : RingStep) : Inv ring (⟨s, step, (s.next ring step).2⟩ :: h) (s.next ring step).1 := by
  intro direction
  obtain ⟨queue, part, hlane, hque⟩ := hinv direction
  simp only [accepted, returned]
  by_cases hdir : direction = step.direction
  · obtain ⟨⟨-, queue', part', hlane', heq⟩, -⟩ := hlane.next hdir.symm
    refine ⟨queue', part', hlane', ?_⟩
    rw [hque, append_assoc, append_assoc, heq]
  · obtain ⟨queue0, part0, hlane0, -⟩ := hinv step.direction
    obtain ⟨hprod, hcons, hacc, hreturned⟩ := next_other hdir
    refine ⟨queue, part, hlane.other hdir (hlane0.next rfl).2 hprod hcons, ?_⟩
    rw [hacc, hreturned, append_nil, append_nil, hque]

end

/-- **The packet ring is a lossless FIFO between honest peers.** For every ring, any
    equal starting indices and every interleaving of operations, and for each
    direction:
    * the packets that pops return are, byte for byte, the first ones that pushes
      accepted, and the bytes in use fit the capacity;
    * a pop answers with a packet or that there is none, and nothing panics;
    * a push that is refused leaves the indices and bytes as they are: so does every
      operation of a push, unless the push is bound to be accepted;
    * steps of the other direction change neither the indices nor the area nor the
      calls of this one. -/
theorem packet_ring_lossless_fifo (ring : SharedPacketRing) {s t : RingSystem}
    {h : List (Event RingSystem RingStep RingOutput)} (hs : s.Start)
    (run : Steps (RingSystem.next ring) s h t) (direction : PacketDirection) :
    returned direction h <+: accepted direction h ∧
    (t.shared.index (.head direction) - t.shared.index (.tail direction)).toNat ≤ ring.capacity ∧
    (∀ e ∈ h, ∀ answer buffer, e.output = .popped direction answer buffer →
      answer = .ok true ∨ answer = .ok false) ∧
    (∀ e ∈ h, e.output ≠ .panicked) ∧
    (∀ e ∈ h, ∀ packet answer, e.output = .pushed direction packet answer → answer ≠ .ok true →
      Quiet e.before.shared (e.before.next ring e.input).1.shared) ∧
    (∀ e ∈ h, e.input = .produce direction ∨
        (∃ packet countDrop, e.input = .push direction packet countDrop) →
      Quiet e.before.shared (e.before.next ring e.input).1.shared ∨
        (∃ packet, e.output = .pushed direction packet (.ok true)) ∨
        ∃ packet code, (e.before.next ring e.input).1.producer direction = some (packet, code) ∧
          Commits code) ∧
    (∀ e ∈ h, e.input.direction ≠ direction →
      (e.before.next ring e.input).1.shared.index (.head direction) =
        e.before.shared.index (.head direction) ∧
      (e.before.next ring e.input).1.shared.index (.tail direction) =
        e.before.shared.index (.tail direction) ∧
      (∀ address, ring.buffer direction ≤ address ∧
          address < ring.buffer direction + ring.capacity →
        (e.before.next ring e.input).1.shared.bytes address = e.before.shared.bytes address) ∧
      (e.before.next ring e.input).1.producer direction = e.before.producer direction ∧
      (e.before.next ring e.input).1.consumer direction = e.before.consumer direction) := by
  have hrun : ∀ {h t}, Steps (RingSystem.next ring) s h t → Inv ring h t := fun run =>
    run.inv (Inv.start hs) fun _ _ step _ ih => ih.next step
  have hevent : ∀ e ∈ h, (∃ h', Inv ring h' e.before) ∧
      e.output = (e.before.next ring e.input).2 := by
    intro e he
    obtain ⟨h', run', houtput⟩ := run.event he
    exact ⟨⟨h', hrun run'⟩, houtput⟩
  have hhonest : ∀ e ∈ h, Honest e.output := by
    intro e he
    obtain ⟨⟨h', hinv⟩, houtput⟩ := hevent e he
    obtain ⟨queue, part, hlane, -⟩ := hinv e.input.direction
    rw [houtput]
    exact (hlane.next rfl).1.1
  refine ⟨?_, ?_, ?_, ?_, ?_, ?_, ?_⟩
  · obtain ⟨queue, part, -, hqueue⟩ := hrun run direction
    exact ⟨queue, hqueue.symm⟩
  · obtain ⟨queue, part, hlane, -⟩ := hrun run direction
    rw [hlane.queued.used_eq]
    exact hlane.queued.fits
  · intro e he answer buffer houtput
    have := hhonest e he
    rwa [houtput] at this
  · intro e he houtput
    have := hhonest e he
    rwa [houtput] at this
  · intro e he packet answer hpushed hrefused
    obtain ⟨⟨h', hinv⟩, houtput⟩ := hevent e he
    obtain ⟨queue, part, hlane, -⟩ := hinv direction
    rw [houtput] at hpushed
    rcases hlane.pushes (pushed_step hpushed) with hquiet | ⟨packet', haccept⟩ | ⟨-, -, -, hsilent, -⟩
    · exact hquiet
    · rw [haccept] at hpushed
      cases hpushed
      exact absurd rfl hrefused
    · rw [hsilent] at hpushed
      cases hpushed
  · intro e he hinput
    obtain ⟨⟨h', hinv⟩, houtput⟩ := hevent e he
    obtain ⟨queue, part, hlane, -⟩ := hinv direction
    rw [houtput]
    rcases hlane.pushes hinput with hquiet | haccept | ⟨packet, code, hcode, -, hcommits⟩
    · exact .inl hquiet
    · exact .inr (.inl haccept)
    · exact .inr (.inr ⟨packet, code, hcode, hcommits⟩)
  · intro e he hother
    obtain ⟨⟨h', hinv⟩, -⟩ := hevent e he
    obtain ⟨queue, part, hlane, -⟩ := hinv e.input.direction
    have hown := (hlane.next rfl).2
    obtain ⟨hhead, htail⟩ := hown.index direction (Ne.symm hother)
    obtain ⟨hproducer, hconsumer, -⟩ := next_other (Ne.symm hother)
    exact ⟨hhead, htail, fun address harea => hown.bytes _ (areas_apart (Ne.symm hother) harea),
      hproducer, hconsumer⟩

/-- A mapping without packets, with indices that are about to wrap. -/
def emptySystem : RingSystem where
  shared :=
    { index := fun _ => 0xfffffffe
      dropped := fun _ => 0
      bytes := fun _ => 0 }
  producer := fun _ => none
  consumer := fun _ => none

/-- A push of one byte from start to end, and a pop. -/
def sampleSteps : List RingStep :=
  List.replicate 8 (.consume .engineToAgent) ++ [.pop .engineToAgent []] ++
    List.replicate 11 (.produce .engineToAgent) ++ [.push .engineToAgent [7] true]

theorem sampleSteps_packets :
    accepted .engineToAgent (replay (RingSystem.next leastRing) emptySystem sampleSteps).1 = [[7]] ∧
      returned .engineToAgent (replay (RingSystem.next leastRing) emptySystem sampleSteps).1 =
        [[7]] := by
  decide +kernel

theorem packet_ring_lossless_fifo_sample :
    emptySystem.Start ∧
      accepted .engineToAgent (replay (RingSystem.next leastRing) emptySystem sampleSteps).1 =
        [[7]] ∧
      returned .engineToAgent (replay (RingSystem.next leastRing) emptySystem sampleSteps).1 <+:
        accepted .engineToAgent (replay (RingSystem.next leastRing) emptySystem sampleSteps).1 := by
  have hstart : emptySystem.Start := ⟨fun _ => rfl, fun _ => rfl, fun _ => rfl⟩
  exact ⟨hstart, sampleSteps_packets.1,
    (packet_ring_lossless_fifo leastRing hstart (steps_replay _ _) _).1⟩

end Usque.Platform
