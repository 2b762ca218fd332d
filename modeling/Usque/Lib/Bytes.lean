/-
  Byte strings: big-endian numbers, words read and written at an offset, and the
  one's-complement sum of the words (`wordSum`).

  A read outside the string is `none`, a write outside it changes nothing.  A
  checksum is a statement about `wordSum` modulo `65535`.
-/
import Mathlib.Data.Finmap
import Mathlib.Tactic.Ring
import Mathlib.Data.Nat.ModEq

namespace Lib
open List Nat

abbrev Bytes := List UInt8

section
variable (p : Bytes) (off : ℕ)

def slice (off len : ℕ) : Bytes := (p.drop off).take len

/-- The number a byte string spells, most significant byte first. -/
def beNat : ℕ := p.foldl (fun n b => n * 256 + b.toNat) 0

/-! ## Big-endian numbers -/

/-- The `n` bytes of a number, most significant byte first. -/
def beBytes : ℕ → ℕ → Bytes
  | 0, _ => []
  | n + 1, v => UInt8.ofNat (v / 256 ^ n) :: beBytes n v

@[simp] theorem length_beBytes (n v : ℕ) : (beBytes n v).length = n := by
  induction n with
  | zero => rfl
  | succ n ih => rw [beBytes, length_cons, ih]

theorem foldl_beNat (p : Bytes) (n : ℕ) :
    p.foldl (fun n b => n * 256 + b.toNat) n = n * 256 ^ p.length + beNat p := by
  induction p generalizing n with
  | nil => simp [beNat]
  | cons b p ih =>
    simp only [beNat, foldl_cons, length_cons, Nat.zero_mul, Nat.zero_add]
    rw [ih, ih b.toNat]
    ring

theorem beNat_cons (b : UInt8) (p : Bytes) :
    beNat (b :: p) = b.toNat * 256 ^ p.length + beNat p := by
  rw [beNat, foldl_cons, foldl_beNat, Nat.zero_add]

theorem beNat_lt (p : Bytes) : beNat p < 256 ^ p.length := by
  induction p with
  | nil => simp [beNat]
  | cons b p ih =>
    have hb : b.toNat + 1 ≤ 256 := b.toNat_lt
    have hmul := Nat.mul_le_mul_right (256 ^ p.length) hb
    rw [beNat_cons, length_cons]
    rw [Nat.add_mul] at hmul
    omega

theorem beNat_beBytes (n v : ℕ) : beNat (beBytes n v) = v % 256 ^ n := by
  induction n with
  | zero => simp [beBytes, beNat, mod_one]
  | succ n ih =>
    have hmod : v % 256 ^ (n + 1) = v % 256 ^ n + 256 ^ n * (v / 256 ^ n % 256) := by
      rw [Nat.pow_succ, mod_mul]
    rw [beBytes, beNat_cons, ih, length_beBytes, UInt8.toNat_ofNat', hmod, Nat.add_comm,
      Nat.mul_comm]

theorem beBytes_mod (n m v : ℕ) (h : n ≤ m) : beBytes n (v % 256 ^ m) = beBytes n v := by
  induction n with
  | zero => rfl
  | succ n ih =>
    rw [beBytes, ih (by omega)]
    congr 1
    apply UInt8.toNat_inj.1
    obtain ⟨k, rfl⟩ : ∃ k, m = n + (k + 1) := ⟨m - n - 1, by omega⟩
    rw [Nat.pow_add, mod_mul_right_div_self, Nat.pow_succ, Nat.mul_comm (256 ^ k)]
    exact mod_mul_right_mod _ _ _

theorem beBytes_beNat (p : Bytes) : beBytes p.length (beNat p) = p := by
  induction p with
  | nil => rfl
  | cons b p ih =>
    have hlt := beNat_lt p
    rw [length_cons, beBytes, beNat_cons]
    congr 1
    · apply UInt8.toNat_inj.1
      rw [UInt8.toNat_ofNat', Nat.add_comm, add_mul_div_right _ _ (Nat.pow_pos (by omega)),
        div_eq_of_lt hlt, Nat.zero_add, mod_eq_of_lt b.toNat_lt]
    · conv_rhs => rw [← ih]
      rw [← beBytes_mod p.length p.length _ le_rfl, Nat.add_comm, add_mul_mod_self_right,
        mod_eq_of_lt hlt]

/-! ## Big-endian words -/

/-- `u16::from_be_bytes`. -/
def be16 (a b : UInt8) : UInt16 := UInt16.ofNat (a.toNat * 256 + b.toNat)

/-- `u32::from_be_bytes`. -/
def be32 (a b c d : UInt8) : UInt32 :=
  UInt32.ofNat (((a.toNat * 256 + b.toNat) * 256 + c.toNat) * 256 + d.toNat)

def hi8 (v : UInt16) : UInt8 := UInt8.ofNat (v.toNat / 256)

def lo8 (v : UInt16) : UInt8 := UInt8.ofNat (v.toNat % 256)

def readU16 : Option UInt16 := do
  let a ← p[off]?
  let b ← p[off + 1]?
  return be16 a b

def readU32 : Option UInt32 := do
  let a ← p[off]?
  let b ← p[off + 1]?
  let c ← p[off + 2]?
  let d ← p[off + 3]?
  return be32 a b c d

/-- Write the word `v` at `off`, if it fits. -/
def writeU16 (v : UInt16) : Bytes :=
  if off + 2 ≤ p.length then (p.set off (hi8 v)).set (off + 1) (lo8 v) else p

def bytes32 (v : UInt32) : UInt8 × UInt8 × UInt8 × UInt8 :=
  (UInt8.ofNat (v.toNat / 16777216), UInt8.ofNat (v.toNat / 65536 % 256),
    UInt8.ofNat (v.toNat / 256 % 256), UInt8.ofNat (v.toNat % 256))

/-- Write the double word `v` at `off`, if it fits. -/
def writeU32 (v : UInt32) : Bytes :=
  if off + 4 ≤ p.length then
    (((p.set off (bytes32 v).1).set (off + 1) (bytes32 v).2.1).set (off + 2)
      (bytes32 v).2.2.1).set (off + 3) (bytes32 v).2.2.2
  else p

end

theorem toNat_be16 (a b : UInt8) : (be16 a b).toNat = a.toNat * 256 + b.toNat := by
  have := a.toNat_lt; have := b.toNat_lt
  rw [be16, UInt16.toNat_ofNat']; omega

theorem be16_hi8_lo8 (v : UInt16) : be16 (hi8 v) (lo8 v) = v := by
  have := v.toNat_lt
  apply UInt16.toNat_inj.1
  rw [toNat_be16, hi8, lo8, UInt8.toNat_ofNat', UInt8.toNat_ofNat']; omega

theorem be32_bytes32 (v : UInt32) :
    be32 (bytes32 v).1 (bytes32 v).2.1 (bytes32 v).2.2.1 (bytes32 v).2.2.2 = v := by
  have := v.toNat_lt
  apply UInt32.toNat_inj.1
  simp only [be32, bytes32, UInt32.toNat_ofNat', UInt8.toNat_ofNat']; omega

variable {off : ℕ} {p : Bytes} {v : UInt16}

theorem readU16_eq_some :
    readU16 p off = some v ↔ ∃ a b, p[off]? = some a ∧ p[off + 1]? = some b ∧ be16 a b = v := by
  simp only [readU16, bind, Option.bind_eq_some_iff, pure, Option.some.injEq]
  constructor
  · rintro ⟨a, ha, b, hb, h⟩; exact ⟨a, b, ha, hb, h⟩
  · rintro ⟨a, b, ha, hb, h⟩; exact ⟨a, ha, b, hb, h⟩

theorem readU16_isSome (h : off + 2 ≤ p.length) : ∃ v, readU16 p off = some v :=
  ⟨be16 p[off] p[off + 1], readU16_eq_some.2
    ⟨_, _, getElem?_eq_getElem (by omega), getElem?_eq_getElem (by omega), rfl⟩⟩

theorem length_of_readU16 (h : readU16 p off = some v) : off + 2 ≤ p.length := by
  obtain ⟨a, b, -, hb, -⟩ := readU16_eq_some.1 h
  have := (List.getElem?_eq_some_iff.1 hb).1; omega

theorem readU16_eq_none (h : p.length < off + 2) : readU16 p off = none := by
  rcases hr : readU16 p off with _ | v
  · rfl
  · have := length_of_readU16 hr; omega

variable {p' : Bytes}

theorem readU16_congr (h : ∀ i, off ≤ i → i < off + 2 → p'[i]? = p[i]?) :
    readU16 p' off = readU16 p off := by
  simp only [readU16, h off (by omega) (by omega), h (off + 1) (by omega) (by omega)]

theorem readU32_congr (h : ∀ i, off ≤ i → i < off + 4 → p'[i]? = p[i]?) :
    readU32 p' off = readU32 p off := by
  simp only [readU32, h off (by omega) (by omega), h (off + 1) (by omega) (by omega),
    h (off + 2) (by omega) (by omega), h (off + 3) (by omega) (by omega)]

theorem length_of_readU32 {v : UInt32} (h : readU32 p off = some v) : off + 4 ≤ p.length := by
  simp only [readU32, bind, Option.bind_eq_some_iff] at h
  obtain ⟨_, _, _, _, _, _, d, hd, _⟩ := h
  have := (List.getElem?_eq_some_iff.1 hd).1; omega

theorem readU16_drop (p : Bytes) (k off : ℕ) : readU16 (p.drop k) off = readU16 p (k + off) := by
  simp only [readU16, getElem?_drop, Nat.add_assoc]

@[simp] theorem length_writeU16 (p : Bytes) (off : ℕ) (v : UInt16) :
    (writeU16 p off v).length = p.length := by
  unfold writeU16; split_ifs <;> simp

@[simp] theorem length_writeU32 (p : Bytes) (off : ℕ) (v : UInt32) :
    (writeU32 p off v).length = p.length := by
  unfold writeU32; split_ifs <;> simp

variable {i : ℕ}

theorem getElem?_writeU16 (p : Bytes) (v : UInt16) (h : i ≠ off) (h' : i ≠ off + 1) :
    (writeU16 p off v)[i]? = p[i]? := by
  unfold writeU16
  split_ifs
  · rw [getElem?_set_ne (by omega), getElem?_set_ne (by omega)]
  · rfl

theorem getElem?_writeU32 (p : Bytes) (v : UInt32) (h : i < off ∨ off + 4 ≤ i) :
    (writeU32 p off v)[i]? = p[i]? := by
  unfold writeU32
  split_ifs
  · rw [getElem?_set_ne (by omega), getElem?_set_ne (by omega),
      getElem?_set_ne (by omega), getElem?_set_ne (by omega)]
  · rfl

theorem readU16_writeU16 (v : UInt16) (h : off + 2 ≤ p.length) :
    readU16 (writeU16 p off v) off = some v := by
  refine readU16_eq_some.2 ⟨hi8 v, lo8 v, ?_, ?_, be16_hi8_lo8 v⟩
  · rw [writeU16, if_pos h, getElem?_set_ne (by omega), getElem?_set_self (by omega)]
  · rw [writeU16, if_pos h, getElem?_set_self (by rw [length_set]; omega)]

theorem readU16_writeU16_ne (p : Bytes) {off' : ℕ} (v : UInt16)
    (h : off' + 2 ≤ off ∨ off + 2 ≤ off') : readU16 (writeU16 p off v) off' = readU16 p off' :=
  readU16_congr fun i h1 h2 => getElem?_writeU16 p v (by omega) (by omega)

theorem drop_writeU16 (p : Bytes) (k off : ℕ) (v : UInt16) :
    (writeU16 p (k + off) v).drop k = writeU16 (p.drop k) off v := by
  unfold writeU16
  simp only [length_drop]
  split_ifs with h h' h'
  · rw [drop_set, drop_set, if_neg (by omega), if_neg (by omega),
      show k + off + 1 - k = off + 1 by omega, show k + off - k = off by omega]
  · omega
  · omega
  · rfl

theorem drop_writeU16_of_le (p : Bytes) {k : ℕ} (v : UInt16) (h : off + 2 ≤ k) :
    (writeU16 p off v).drop k = p.drop k := by
  unfold writeU16
  split_ifs
  · rw [drop_set_of_lt (by omega), drop_set_of_lt (by omega)]
  · rfl

theorem readU32_writeU32 (v : UInt32) (h : off + 4 ≤ p.length) :
    readU32 (writeU32 p off v) off = some v := by
  have h0 : (writeU32 p off v)[off]? = some (bytes32 v).1 := by
    rw [writeU32, if_pos h, getElem?_set_ne (by omega), getElem?_set_ne (by omega),
      getElem?_set_ne (by omega), getElem?_set_self (by omega)]
  have h1 : (writeU32 p off v)[off + 1]? = some (bytes32 v).2.1 := by
    rw [writeU32, if_pos h, getElem?_set_ne (by omega), getElem?_set_ne (by omega),
      getElem?_set_self (by rw [length_set]; omega)]
  have h2 : (writeU32 p off v)[off + 2]? = some (bytes32 v).2.2.1 := by
    rw [writeU32, if_pos h, getElem?_set_ne (by omega),
      getElem?_set_self (by simp only [length_set]; omega)]
  have h3 : (writeU32 p off v)[off + 3]? = some (bytes32 v).2.2.2 := by
    rw [writeU32, if_pos h, getElem?_set_self (by simp only [length_set]; omega)]
  simp only [readU32, h0, h1, h2, h3, bind, Option.bind_some, pure, be32_bytes32]

theorem readU16_append_cons (x y : Bytes) (a b : UInt8) :
    readU16 (x ++ a :: b :: y) x.length = some (be16 a b) :=
  readU16_eq_some.2 ⟨a, b, by simp, by simp, rfl⟩

theorem writeU16_append_cons (x y : Bytes) (a b : UInt8) (v : UInt16) :
    writeU16 (x ++ a :: b :: y) x.length v = x ++ hi8 v :: lo8 v :: y := by
  rw [writeU16]
  simp

/-! ## One's-complement sums -/

/-- The sum of the big-endian words of a byte string. -/
def wordSum : Bytes → ℕ
  | [] => 0
  | [a] => a.toNat * 256
  | a :: b :: p => a.toNat * 256 + b.toNat + wordSum p

/-- The sum of a byte string behind one of even length. -/
theorem wordSum_append (q : Bytes) : ∀ p : Bytes, p.length % 2 = 0 →
    wordSum (p ++ q) = wordSum p + wordSum q
  | [], _ => by simp [wordSum]
  | [a], h => by simp at h
  | a :: b :: p, h => by
    have hp : p.length % 2 = 0 := by
      simp only [length_cons] at h
      omega
    have ih := wordSum_append q p hp
    simp only [cons_append, wordSum, ih]
    omega

/-- The sum of the words of a byte string of even length, one by one. -/
theorem wordSum_eq_sum : ∀ p : Bytes, p.length % 2 = 0 →
    wordSum p = ((range (p.length / 2)).map fun i => ((readU16 p (2 * i)).getD 0).toNat).sum
  | [], _ => rfl
  | [a], h => by simp at h
  | a :: b :: p, h => by
    have hp : p.length % 2 = 0 := by
      simp only [length_cons] at h
      omega
    have hlen : (a :: b :: p).length / 2 = p.length / 2 + 1 := by
      simp only [length_cons]
      omega
    rw [hlen, range_succ_eq_map, map_cons, map_map, wordSum, wordSum_eq_sum p hp, ← toNat_be16]
    rfl

theorem writeU16_cons_cons (a b : UInt8) (p : Bytes) (off : ℕ) (v : UInt16) :
    writeU16 (a :: b :: p) (off + 2) v = a :: b :: writeU16 p off v := by
  unfold writeU16
  by_cases h : off + 2 ≤ p.length
  · rw [if_pos h, if_pos (by simp only [length_cons]; omega)]; rfl
  · rw [if_neg h, if_neg (by simp only [length_cons]; omega)]

theorem wordSum_writeU16 (v old : UInt16) : ∀ (i : ℕ) (p : Bytes), readU16 p (2 * i) = some old →
    wordSum (writeU16 p (2 * i) v) + old.toNat = wordSum p + v.toNat
  | _, [], h => by simp [readU16] at h
  | 0, [a], h => by simp [readU16] at h
  | i + 1, [a], h => by simp [readU16] at h
  | 0, a :: b :: p, h => by
    obtain ⟨a', b', ha, hb, rfl⟩ := readU16_eq_some.1 h
    simp only [Nat.mul_zero, getElem?_cons_zero, Option.some.injEq] at ha
    simp only [Nat.mul_zero, Nat.zero_add, getElem?_cons_succ, getElem?_cons_zero,
      Option.some.injEq] at hb
    subst ha hb
    have hv : (hi8 v).toNat * 256 + (lo8 v).toNat = v.toNat := by
      rw [← toNat_be16, be16_hi8_lo8]
    simp only [writeU16, length_cons, Nat.mul_zero, Nat.zero_add,
      if_pos (show 2 ≤ p.length + 1 + 1 by omega), set_cons_zero, set_cons_succ,
      wordSum, toNat_be16]
    rw [hv]; ring
  | i + 1, a :: b :: p, h => by
    have ih := wordSum_writeU16 v old i p h
    rw [show 2 * (i + 1) = 2 * i + 2 by ring, writeU16_cons_cons]
    simp only [wordSum]; omega

variable {len : ℕ}

theorem readU16_slice (h : i + 2 ≤ len) : readU16 (slice p off len) i = readU16 p (off + i) := by
  have get : ∀ j, j < len → (slice p off len)[j]? = p[off + j]? := by
    intro j hj; rw [slice, getElem?_take_of_lt hj, getElem?_drop]
  simp only [readU16, get i (by omega), get (i + 1) (by omega), Nat.add_assoc]

theorem slice_writeU16 (v : UInt16) (h : i + 2 ≤ len) :
    slice (writeU16 p (off + i) v) off len = writeU16 (slice p off len) i v := by
  by_cases hp : off + i + 2 ≤ p.length
  · have hs : i + 2 ≤ (slice p off len).length := by
      simp only [slice, length_take, length_drop]; omega
    rw [writeU16, writeU16, if_pos hp, if_pos hs]
    simp only [slice, drop_set]
    rw [if_neg (by omega), if_neg (by omega), show off + i + 1 - off = i + 1 by omega,
      show off + i - off = i by omega, take_set, take_set]
  · have hs : ¬ i + 2 ≤ (slice p off len).length := by
      simp only [slice, length_take, length_drop]; omega
    rw [writeU16, writeU16, if_neg hp, if_neg hs]

/-- A slice without the written word keeps its bytes. -/
theorem slice_congr (h : ∀ i, off ≤ i → i < off + len → p'[i]? = p[i]?) :
    slice p' off len = slice p off len := by
  apply ext_getElem?
  intro i
  by_cases hi : i < len
  · simp only [slice, getElem?_take_of_lt hi, getElem?_drop]
    exact h (off + i) (by omega) (by omega)
  · simp only [slice]
    rw [getElem?_eq_none (by simp only [length_take]; omega),
      getElem?_eq_none (by simp only [length_take]; omega)]

/-- Fold the carries of a one's-complement sum back into its low word. -/
def foldCarry (sum : ℕ) : ℕ :=
  if sum / 65536 = 0 then sum else foldCarry (sum % 65536 + sum / 65536)
termination_by sum
decreasing_by omega

/-- Folding keeps the residue and ends in one word. -/
theorem foldCarry_spec (sum : ℕ) : foldCarry sum % 65535 = sum % 65535 ∧ foldCarry sum < 65536 := by
  fun_induction foldCarry sum with
  | case1 sum h => exact ⟨rfl, by omega⟩
  | case2 sum h ih => exact ⟨by omega, ih.2⟩

end Lib
