/-
  Wrapped copies as accesses at consecutive places of a ring.
-/
import Usque.Platform.PacketRing

namespace Usque.Platform
open Lib List Code Nat

/-! ## Capacities -/

theorem validateCapacity_ok {capacity : ℕ} (h : validateCapacity capacity = .ok ()) :
    MIN_RING_CAPACITY ≤ capacity ∧ capacity ≤ MAX_RING_CAPACITY ∧ ∃ k ≤ 26, capacity = 2 ^ k := by
  unfold validateCapacity at h
  split_ifs at h with hbad
  simp only [not_or, not_not] at hbad
  obtain ⟨⟨hmin, hmax⟩, k, hk⟩ := hbad
  refine ⟨hmin, hmax, k, ?_, hk⟩
  by_contra hlarge
  have hpow : 2 ^ 27 ≤ 2 ^ k := Nat.pow_le_pow_right (by decide) (by omega)
  have hlim : MAX_RING_CAPACITY < 2 ^ 27 := by decide
  omega

theorem validateCapacity_min : validateCapacity MIN_RING_CAPACITY = .ok () := by
  decide

def leastRing : SharedPacketRing where
  header := 0
  engineToAgent := HEADER_BYTES
  agentToEngine := HEADER_BYTES + MIN_RING_CAPACITY
  capacity := MIN_RING_CAPACITY
  capacity_ok := validateCapacity_min
  engineToAgent_eq := rfl
  agentToEngine_eq := rfl

def place (buffer capacity : ℕ) (start : BitVec 32) (i : ℕ) : ℕ :=
  buffer + (start.toNat + i) % capacity

variable {length i : ℕ} {start : BitVec 32} {p q : ℕ → ℕ}

section
variable {buffer capacity : ℕ} {α : Type}

theorem place_lt (hpos : 0 < capacity) (start : BitVec 32) (i : ℕ) :
    buffer ≤ place buffer capacity start i ∧ place buffer capacity start i < buffer + capacity := by
  have := mod_lt (start.toNat + i) hpos
  unfold place
  omega

/-- An index that went on by `n` is `n` places further, although indices wrap. -/
theorem place_add {k : ℕ} (hk : k ≤ 26) (hcap : capacity = 2 ^ k) (start : BitVec 32)
    (n i : ℕ) : place buffer capacity (start + BitVec.ofNat 32 n) i =
      place buffer capacity start (n + i) := by
  have hdvd : capacity ∣ 2 ^ 32 := by
    rw [hcap]
    exact Nat.pow_dvd_pow 2 (by omega)
  have hmod : (start + BitVec.ofNat 32 n).toNat % capacity = (start.toNat + n) % capacity := by
    rw [BitVec.toNat_add, BitVec.toNat_ofNat, mod_mod_of_dvd _ hdvd, add_mod,
      mod_mod_of_dvd _ hdvd, ← add_mod]
  unfold place
  rw [add_mod, hmod, ← add_mod, Nat.add_assoc]

theorem place_inj (start : BitVec 32) {j : ℕ} (hij : i < j) (hj : j < i + capacity) :
    place buffer capacity start i ≠ place buffer capacity start j := by
  unfold place
  intro heq
  have hmod : start.toNat + i ≡ start.toNat + j [MOD capacity] := by
    unfold Nat.ModEq
    omega
  have hdvd := (modEq_iff_dvd' (by omega)).1 hmod
  have := le_of_dvd (by omega) hdvd
  omega

/-! ## Accesses at places -/

def writeAt (p : ℕ → ℕ) : ℕ → Bytes → RingCode α → RingCode α
  | _, [], k => k
  | i, byte :: bytes, k => .act (.write (p i) byte) fun _ => writeAt p (i + 1) bytes k

def readAt (p : ℕ → ℕ) : ℕ → ℕ → (Bytes → RingCode α) → RingCode α
  | _, 0, k => k []
  | i, n + 1, k => .act (.read (p i)) fun byte => readAt p (i + 1) n fun bytes => k (byte :: bytes)

theorem writeAt_append (p : ℕ → ℕ) (xs ys : Bytes) (k : RingCode α) :
    ∀ i, writeAt p i (xs ++ ys) k = writeAt p i xs (writeAt p (i + xs.length) ys k) := by
  induction xs with
  | nil => simp [writeAt]
  | cons x xs ih =>
    intro i
    simp only [cons_append, writeAt, ih, length_cons]
    rw [show i + 1 + xs.length = i + (xs.length + 1) by omega]

theorem writeAt_congr (xs : Bytes) (k : RingCode α) :
    ∀ i j, (∀ n < xs.length, p (i + n) = q (j + n)) → writeAt p i xs k = writeAt q j xs k := by
  induction xs with
  | nil => intros; rfl
  | cons x xs ih =>
    intro i j h
    have hfst := h 0 (by simp)
    simp only [Nat.add_zero] at hfst
    simp only [writeAt]
    rw [hfst, ih (i + 1) (j + 1)]
    intro n hn
    have := h (n + 1) (by simpa using hn)
    rwa [show i + 1 + n = i + (n + 1) by omega, show j + 1 + n = j + (n + 1) by omega]

theorem readAt_add (p : ℕ → ℕ) (m : ℕ) (k : Bytes → RingCode α) :
    ∀ n i, readAt p i (n + m) k =
      readAt p i n fun bytes => readAt p (i + n) m fun more => k (bytes ++ more) := by
  intro n
  induction n generalizing k with
  | zero => intro i; simp [readAt]
  | succ n ih =>
    intro i
    rw [show n + 1 + m = n + m + 1 by omega]
    simp only [readAt, ih]
    rw [show i + 1 + n = i + (n + 1) by omega]
    rfl

theorem readAt_congr (m : ℕ) :
    ∀ (k : Bytes → RingCode α) (i j : ℕ), (∀ n < m, p (i + n) = q (j + n)) →
      readAt p i m k = readAt q j m k := by
  induction m with
  | zero => intros; rfl
  | succ m ih =>
    intro k i j h
    have hfst := h 0 (by omega)
    have hrest : ∀ n < m, p (i + 1 + n) = q (j + 1 + n) := by
      intro n hn
      have := h (n + 1) (by omega)
      rwa [show i + 1 + n = i + (n + 1) by omega, show j + 1 + n = j + (n + 1) by omega]
    simp only [readAt]
    congr
    funext byte
    exact ih _ (i + 1) (j + 1) hrest

theorem copyTo_bind (address : ℕ) (bytes : Bytes) (f : Unit → RingCode α) :
    ∀ i, (copyTo (address + i) bytes >>= f) = writeAt (address + ·) i bytes (f ()) := by
  induction bytes with
  | nil => intro i; rfl
  | cons _ _ ih =>
    intro i
    simp only [copyTo, writeAt, perform_bind, act_bind, Nat.add_assoc, ih]

theorem copyFrom_bind (address n : ℕ) :
    ∀ (f : Bytes → RingCode α) (i : ℕ),
      (copyFrom (address + i) n >>= f) = readAt (address + ·) i n f := by
  induction n with
  | zero => intros; rfl
  | succ n ih =>
    intro f i
    simp only [copyFrom, readAt, perform_bind, act_bind, bind_assoc, pure_bind, Nat.add_assoc, ih]

theorem sub_bind {a b : ℕ} (h : b ≤ a) (f : ℕ → RingCode α) : (sub a b >>= f) = f (a - b) := by
  rw [sub, if_pos h]
  rfl

variable {k : ℕ}

/-- Up to the end of the area the places of an index are consecutive addresses. -/
theorem place_of_lt (h : start.toNat % capacity + i < capacity) :
    place buffer capacity start i = buffer + start.toNat % capacity + i := by
  unfold place
  rw [add_mod, mod_eq_of_lt (by omega : i < capacity), mod_eq_of_lt h]
  omega

/-- From there on they are addresses from the start of the area. -/
theorem place_of_ge (hi : i < capacity) (h : capacity ≤ start.toNat % capacity + i) :
    place buffer capacity start i = buffer + (start.toNat % capacity + i - capacity) := by
  unfold place
  have hless := mod_lt start.toNat (by omega : 0 < capacity)
  rw [add_mod, mod_eq_of_lt hi, mod_eq_sub_mod h, mod_eq_of_lt (by omega)]

/-- **A wrapped write is writes at consecutive places.** -/
theorem writeWrapped_eq (hcap : capacity = 2 ^ k) (offset : BitVec 32) {source : Bytes}
    (hlen : source.length ≤ capacity) (f : Unit → RingCode α) :
    (writeWrapped buffer capacity offset source >>= f) =
      writeAt (place buffer capacity offset) 0 source (f ()) := by
  have hpos : 0 < capacity := hcap ▸ Nat.two_pow_pos k
  have hmask : offset.toNat &&& (capacity - 1) = offset.toNat % capacity := by
    rw [hcap, and_two_pow_sub_one_eq_mod]
  have hst := mod_lt offset.toNat hpos
  unfold writeWrapped
  rw [sub_bind hpos]
  rw [hmask, sub_bind hst.le]
  set start := offset.toNat % capacity
  set first := min source.length (capacity - start)
  rw [bind_assoc]
  have hhead := copyTo_bind (buffer + start) (source.take first)
    (fun _ => (if first < source.length then copyTo buffer (source.drop first) else pure ()) >>= f) 0
  rw [Nat.add_zero] at hhead
  rw [hhead]
  have htake : (source.take first).length = first := by
    rw [length_take]
    omega
  split_ifs with hmore
  · -- the copy is split at the end of the area
    have htail := copyTo_bind buffer (source.drop first) f 0
    rw [Nat.add_zero] at htail
    rw [htail]
    conv_rhs => rw [← take_append_drop first source, writeAt_append, htake, Nat.zero_add]
    have hrest : writeAt (buffer + ·) 0 (source.drop first) (f ()) =
        writeAt (place buffer capacity offset) first (source.drop first) (f ()) := by
      refine writeAt_congr _ _ 0 first fun n hn => ?_
      rw [length_drop] at hn
      rw [place_of_ge (by omega) (by omega)]
      omega
    rw [hrest]
    refine writeAt_congr _ _ 0 0 fun n hn => ?_
    rw [place_of_lt (by omega)]
  · have hall : source.take first = source := take_of_length_le (by omega)
    rw [hall]
    refine writeAt_congr _ _ 0 0 fun n hn => ?_
    rw [place_of_lt (by omega)]

/-- **A wrapped read is reads at consecutive places.** -/
theorem readWrapped_eq (hcap : capacity = 2 ^ k) (offset : BitVec 32)
    (hlen : length ≤ capacity) (f : Bytes → RingCode α) :
    (readWrapped buffer capacity offset length >>= f) =
      readAt (place buffer capacity offset) 0 length f := by
  have hpos : 0 < capacity := hcap ▸ Nat.two_pow_pos k
  have hmask : offset.toNat &&& (capacity - 1) = offset.toNat % capacity := by
    rw [hcap, and_two_pow_sub_one_eq_mod]
  have hst := mod_lt offset.toNat hpos
  unfold readWrapped
  rw [sub_bind hpos]
  rw [hmask, sub_bind hst.le]
  set start := offset.toNat % capacity
  set first := min length (capacity - start)
  rw [bind_assoc]
  have hhead := copyFrom_bind (buffer + start) first (fun bytes =>
    (if first < length then do
      let more ← copyFrom buffer (length - first)
      pure (bytes ++ more)
    else pure bytes) >>= f) 0
  rw [Nat.add_zero] at hhead
  rw [hhead]
  have hfront : ∀ g : Bytes → RingCode α, readAt (buffer + start + ·) 0 first g =
      readAt (place buffer capacity offset) 0 first g := by
    intro g
    refine readAt_congr _ _ 0 0 fun n hn => ?_
    rw [place_of_lt (by omega)]
  rw [hfront]
  split_ifs with hmore
  · -- the copy is split at the end of the area
    have hspl : length = first + (length - first) := by omega
    conv_rhs => rw [hspl, readAt_add, Nat.zero_add]
    congr
    funext bytes
    rw [bind_assoc]
    have htail := copyFrom_bind buffer (length - first) (fun more => pure (bytes ++ more) >>= f) 0
    rw [Nat.add_zero] at htail
    rw [htail]
    refine readAt_congr _ _ 0 first fun n hn => ?_
    rw [place_of_ge (by omega) (by omega)]
    omega
  · have hall : first = length := by omega
    rw [hall]
    rfl

end

/-! ## Records -/

def recordBytes (length : ℕ) : ℕ := (RECORD_HEADER_BYTES + length + 3) / 4 * 4

def record (packet : Bytes) : Bytes :=
  toLeBytes packet.length ++ packet ++
    List.replicate (recordBytes packet.length - RECORD_HEADER_BYTES - packet.length) 0

theorem recordBytes_le (h : length ≤ MAX_PACKET_BYTES) :
    RECORD_HEADER_BYTES + length ≤ recordBytes length ∧
      recordBytes length ≤ RECORD_HEADER_BYTES + length + 3 ∧
      recordBytes length ≤ MIN_RING_CAPACITY ∧ recordBytes length < 2 ^ 32 := by
  have hmax : MAX_PACKET_BYTES = 65535 := rfl
  have hmin : MIN_RING_CAPACITY = 131072 := rfl
  have hhdr : RECORD_HEADER_BYTES = 4 := rfl
  unfold recordBytes
  omega

theorem alignedRecordBytes_eq (h : length ≤ MAX_PACKET_BYTES) :
    alignedRecordBytes length = .ok (recordBytes length) := by
  have hmax : MAX_PACKET_BYTES = 65535 := rfl
  have hhdr : RECORD_HEADER_BYTES = 4 := rfl
  have hfst : RECORD_HEADER_BYTES + length ≤ USIZE_MAX := by unfold USIZE_MAX; omega
  have hsecond : RECORD_HEADER_BYTES + length + 3 ≤ USIZE_MAX := by unfold USIZE_MAX; omega
  simp only [alignedRecordBytes, checkedAdd, if_pos hfst, Option.bind_some, if_pos hsecond,
    recordBytes]

@[simp] theorem length_toLeBytes (value : ℕ) : (toLeBytes value).length = RECORD_HEADER_BYTES := by
  simp [toLeBytes]

theorem fromLeBytes_toLeBytes {value : ℕ} (h : value ≤ MAX_PACKET_BYTES) :
    fromLeBytes (toLeBytes value) = value := by
  have hmax : MAX_PACKET_BYTES = 65535 := rfl
  rw [fromLeBytes, toLeBytes, reverse_reverse, beNat_beBytes]
  exact mod_eq_of_lt (by unfold RECORD_HEADER_BYTES; omega)

variable {packet : Bytes}

theorem length_record (h : packet.length ≤ MAX_PACKET_BYTES) :
    (record packet).length = recordBytes packet.length := by
  have := recordBytes_le h
  simp only [record, length_append, length_replicate, length_toLeBytes]
  omega

/-- **Writing a record is writing its bytes at the places after the head, and then
    publishing the new head.** -/
theorem writeRecord_eq (ring : SharedPacketRing) (direction : PacketDirection)
    (h : packet.length ≤ MAX_PACKET_BYTES) (headValue : BitVec 32) :
    writeRecord ring direction packet (recordBytes packet.length) headValue =
      writeAt (place (ring.buffer direction) ring.capacity headValue) 0 (record packet)
        (.act (.store (.head direction)
          (headValue + BitVec.ofNat 32 (recordBytes packet.length))) fun _ => .done (.ok true)) := by
  obtain ⟨hmin, -, k, hk, hcap⟩ := validateCapacity_ok ring.capacity_ok
  obtain ⟨hhdr, hpad, hfits, -⟩ := recordBytes_le h
  have hmax : MAX_PACKET_BYTES = 65535 := rfl
  have hword : packet.length < 2 ^ 32 := by omega
  unfold writeRecord
  simp only [tryU32, if_pos hword, pure_bind]
  rw [writeWrapped_eq hcap headValue (by rw [length_toLeBytes]; omega),
    writeWrapped_eq hcap _ (by omega), sub_bind (by omega), sub_bind (by omega)]
  have hpadding : ∀ f : Unit → RingCode (Except PacketRingError Bool),
      (writePadding (ring.buffer direction) ring.capacity
        (headValue + BitVec.ofNat 32 RECORD_HEADER_BYTES + BitVec.ofNat 32 packet.length)
        (recordBytes packet.length - RECORD_HEADER_BYTES - packet.length) >>= f) =
      writeAt (place (ring.buffer direction) ring.capacity headValue)
        (RECORD_HEADER_BYTES + packet.length)
        (replicate (recordBytes packet.length - RECORD_HEADER_BYTES - packet.length) 0)
        (f ()) := by
    intro f
    unfold writePadding
    split_ifs with hnone hmany
    · rw [hnone]
      rfl
    · omega
    · rw [writeWrapped_eq hcap _ (by rw [length_replicate]; omega)]
      refine writeAt_congr _ _ 0 _ fun n _ => ?_
      rw [place_add hk hcap, place_add hk hcap]
      congr 1
      omega
  rw [hpadding]
  have hpkt : ∀ c : RingCode (Except PacketRingError Bool),
      writeAt (place (ring.buffer direction) ring.capacity
        (headValue + BitVec.ofNat 32 RECORD_HEADER_BYTES)) 0 packet c =
      writeAt (place (ring.buffer direction) ring.capacity headValue) RECORD_HEADER_BYTES packet c := by
    intro c
    refine writeAt_congr _ _ 0 _ fun n _ => ?_
    rw [place_add hk hcap, Nat.zero_add]
  rw [hpkt, record, append_assoc, writeAt_append, writeAt_append]
  rfl

end Usque.Platform
