/-
  QUIC variable-length integers (`usque-protocol/src/lib.rs`).
-/
import Mathlib.Tactic.IntervalCases
import Mathlib.Tactic.NormNum
import Mathlib.Tactic.Positivity
import Usque.Lib.Cursor

namespace Usque.Protocol
open Lib List Nat

inductive ProtocolError where
  | varintTooLarge
  | truncatedVarint
  | emptyIpPacket
  | truncatedCapsule
  | truncatedCapsuleEntry
  | capsuleTooLarge (payloadLen : ℕ)
  | invalidIpVersion (ipVersion : UInt8)
  | invalidPrefixLength (ipVersion prefixLen : UInt8)
  | nonCanonicalPrefix
  | emptyAddressRequest
  | zeroRequestId
  | duplicateRequestId (requestId : UInt64)
  | invalidRouteRange
  | unorderedOrOverlappingRoutes
  | overlappingAllProtocolRoutes
  | tooManyCapsuleEntries
deriving DecidableEq

def MAX_VARINT : UInt64 := 4611686018427387903

def varintLen (value : UInt64) : Except ProtocolError ℕ :=
  if value ≤ 63 then .ok 1
  else if value ≤ 16383 then .ok 2
  else if value ≤ 1073741823 then .ok 4
  else if value ≤ MAX_VARINT then .ok 8
  else .error .varintTooLarge

/-- `encode_varint`: the bytes it appends to the output. -/
def encodeVarint (value : UInt64) : Except ProtocolError Bytes := do
  match ← varintLen value with
  | 1 => return beBytes 1 value.toUInt8.toNat
  | 2 => return beBytes 2 (value.toUInt16 ||| 0x4000).toNat
  | 4 => return beBytes 4 (value.toUInt32 ||| 0x80000000).toNat
  | _ => return beBytes 8 (value ||| 0xC000000000000000).toNat

/-- The mask `decode_varint` applies to an integer of `width` bytes. -/
def varintMask : ℕ → UInt64
  | 1 => 0x3f
  | 2 => 0x3fff
  | 4 => 0x3fffffff
  | _ => MAX_VARINT

def decodeVarint : Cursor ProtocolError UInt64 := fun input =>
  match input with
  | [] => .error .truncatedVarint
  | first :: _ =>
    let width := 1 <<< (first >>> 6).toNat
    if input.length < width then .error .truncatedVarint
    else .ok (UInt64.ofNat (beNat (input.take width)) &&& varintMask width, input.drop width)

/-! ## The widths -/

/-- An encoding of width `w`: the two high bits of the first byte are `log₂ w`, the
    others spell the value. -/
inductive Width : ℕ → ℕ → Prop where
  | one : Width 1 0
  | two : Width 2 1
  | four : Width 4 2
  | eight : Width 8 3

variable {w k : ℕ}

theorem Width.mask (hw : Width w k) : (varintMask w).toNat = 2 ^ (8 * w - 2) - 1 := by
  cases hw <;> rfl

theorem Width.pow_le (hw : Width w k) : 2 ^ (8 * w - 2) ≤ 2 ^ 62 := by
  refine Nat.pow_le_pow_right (by omega) ?_
  cases hw <;> decide

variable {v : ℕ}

theorem Width.first (hw : Width w k) {first : UInt8} {tail : Bytes}
    (hlen : (first :: tail).length = w) (hv : v < 2 ^ (8 * w - 2))
    (hb : beNat (first :: tail) = k * 2 ^ (8 * w - 2) + v) : 1 <<< (first >>> 6).toNat = w := by
  have hlt := beNat_lt tail
  have hfst : (first >>> 6).toNat = first.toNat / 64 := by
    exact shiftRight_eq_div_pow _ _
  have htail : tail.length = w - 1 := by
    rw [length_cons] at hlen
    omega
  rw [beNat_cons] at hb
  rw [htail] at hb hlt
  have hk : first.toNat / 64 = k := by
    cases hw <;> norm_num at hb hlt hv ⊢ <;> omega
  rw [hfst, hk]
  cases hw <;> rfl

variable {bytes : Bytes}

/-- **Reading an integer** of `w` bytes: the value is the number they spell without
    the two high bits. -/
theorem decodeVarint_width (hw : Width w k) (hlen : bytes.length = w) (hv : v < 2 ^ (8 * w - 2))
    (hb : beNat bytes = k * 2 ^ (8 * w - 2) + v) : Reads decodeVarint bytes (UInt64.ofNat v) := by
  intro rest
  have hpos : 0 < w := by cases hw <;> decide
  rcases bytes with _ | ⟨first, tail⟩
  · rw [length_nil] at hlen
    omega
  have hfst := hw.first hlen hv hb
  have hbd := beNat_lt (first :: tail)
  have hval : UInt64.ofNat (beNat (first :: tail)) &&& varintMask w = UInt64.ofNat v := by
    apply UInt64.toNat_inj.1
    rw [UInt64.toNat_and, hw.mask, and_two_pow_sub_one_eq_mod]
    cases hw <;> norm_num at hb hbd hv ⊢ <;> omega
  have htake : (first :: (tail ++ rest)).take w = first :: tail := by
    rw [← cons_append, ← hlen, take_left]
  have hdrop : (first :: (tail ++ rest)).drop w = rest := by
    rw [← cons_append, ← hlen, drop_left]
  have hle : ¬ (first :: (tail ++ rest)).length < w := by
    rw [← cons_append, length_append]
    omega
  rw [cons_append]
  simp only [decodeVarint, hfst, if_neg hle, htake, hdrop, hval]

/-! ## Encoding -/

/-- `bytes` is the shortest encoding of `value`, of width `w`. -/
structure Shortest (value : ℕ) (bytes : Bytes) (w k : ℕ) : Prop where
  width : Width w k
  length : bytes.length = w
  lt : value < 2 ^ (8 * w - 2)
  beNat_eq : beNat bytes = k * 2 ^ (8 * w - 2) + value
  least : ∀ w' k', Width w' k' → value < 2 ^ (8 * w' - 2) → w ≤ w'

theorem shortest_beBytes {value : ℕ} (hw : Width w k) (hv : value < 2 ^ (8 * w - 2))
    (hleast : ∀ w' k', Width w' k' → value < 2 ^ (8 * w' - 2) → w ≤ w') :
    Shortest value (beBytes w (2 ^ (8 * w - 2) * k ||| value)) w k := by
  refine ⟨hw, length_beBytes _ _, hv, ?_, hleast⟩
  rw [← two_pow_add_eq_or_of_lt hv, beNat_beBytes]
  cases hw <;> norm_num at hv ⊢ <;> omega

theorem encodeVarint_spec (value : UInt64) :
    (∃ bytes w k, encodeVarint value = .ok bytes ∧ Shortest value.toNat bytes w k) ∨
      (2 ^ 62 ≤ value.toNat ∧ encodeVarint value = .error .varintTooLarge) := by
  have hle : ∀ {m : UInt64}, value ≤ m ↔ value.toNat ≤ m.toNat := UInt64.le_iff_toNat_le
  by_cases h1 : value ≤ 63
  · have h1' : value.toNat ≤ 63 := hle.1 h1
    refine .inl ⟨_, 1, 0, ?_, shortest_beBytes .one (by omega) ?_⟩
    · simp only [encodeVarint, varintLen, if_pos h1, bind, Except.bind, pure, Except.pure]
      rw [Nat.mul_zero, zero_or, UInt64.toNat_toUInt8, mod_eq_of_lt (by omega)]
    · intro w k hw hlt
      cases hw <;> omega
  have h1' : 63 < value.toNat := not_le.1 fun h => h1 (hle.2 h)
  by_cases h2 : value ≤ 16383
  · have h2' : value.toNat ≤ 16383 := hle.1 h2
    refine .inl ⟨_, 2, 1, ?_, shortest_beBytes .two (by omega) ?_⟩
    · simp only [encodeVarint, varintLen, if_neg h1, if_pos h2, bind, Except.bind, pure, Except.pure]
      rw [UInt16.toNat_or, UInt64.toNat_toUInt16, mod_eq_of_lt (by omega), Nat.or_comm]
      rfl
    · intro w k hw hlt
      cases hw <;> omega
  have h2' : 16383 < value.toNat := not_le.1 fun h => h2 (hle.2 h)
  by_cases h4 : value ≤ 1073741823
  · have h4' : value.toNat ≤ 1073741823 := hle.1 h4
    refine .inl ⟨_, 4, 2, ?_, shortest_beBytes .four (by omega) ?_⟩
    · simp only [encodeVarint, varintLen, if_neg h1, if_neg h2, if_pos h4, bind, Except.bind, pure,
        Except.pure]
      rw [UInt32.toNat_or, UInt64.toNat_toUInt32, mod_eq_of_lt (by omega), Nat.or_comm]
      rfl
    · intro w k hw hlt
      cases hw <;> omega
  have h4' : 1073741823 < value.toNat := not_le.1 fun h => h4 (hle.2 h)
  by_cases h8 : value ≤ MAX_VARINT
  · have h8' : value.toNat ≤ 4611686018427387903 := hle.1 h8
    refine .inl ⟨_, 8, 3, ?_, shortest_beBytes .eight (by omega) ?_⟩
    · simp only [encodeVarint, varintLen, if_neg h1, if_neg h2, if_neg h4, if_pos h8, bind,
        Except.bind, pure, Except.pure]
      rw [Nat.or_comm]
      rfl
    · intro w k hw hlt
      cases hw <;> omega
  · refine .inr ⟨?_, ?_⟩
    · exact not_lt.1 fun h => h8 (hle.2 (show value.toNat ≤ 4611686018427387903 by omega))
    · simp only [encodeVarint, varintLen, if_neg h1, if_neg h2, if_neg h4, if_neg h8, bind,
        Except.bind]

theorem encodeVarint_mono {a b : UInt64} (hab : a.toNat ≤ b.toNat) (h : encodeVarint b = .ok bytes) :
    ∃ bytes', encodeVarint a = .ok bytes' ∧ bytes'.length ≤ bytes.length := by
  rcases encodeVarint_spec b with ⟨_, w, k, h', hs⟩ | ⟨-, h'⟩
  · rw [h] at h'
    cases h'
    have hlt : a.toNat < 2 ^ (8 * w - 2) := hab.trans_lt hs.lt
    rcases encodeVarint_spec a with ⟨bytes', w', k', ha, hs'⟩ | ⟨hge, -⟩
    · refine ⟨bytes', ha, ?_⟩
      rw [hs'.length, hs.length]
      exact hs'.least w k hs.width hlt
    · have hmono := hs.width.pow_le
      omega
  · rw [h] at h'
    cases h'

variable {value : UInt64}

/-- **What is encoded is read back.** -/
theorem decodeVarint_encodeVarint (h : encodeVarint value = .ok bytes) :
    Reads decodeVarint bytes value := by
  rcases encodeVarint_spec value with ⟨bytes', w, k, h', hs⟩ | ⟨-, h'⟩
  · rw [h] at h'
    cases h'
    have hread := decodeVarint_width hs.width hs.length hs.lt hs.beNat_eq
    rwa [UInt64.ofNat_toNat] at hread
  · rw [h] at h'
    cases h'

/-- The width that the first byte of an integer announces. -/
def varintWidth (first : UInt8) : ℕ := 1 <<< (first >>> 6).toNat

theorem width_varintWidth (first : UInt8) : ∃ k, Width (varintWidth first) k := by
  have hfst : (first >>> 6).toNat < 4 := by
    have := first.toNat_lt
    change first.toNat >>> 6 < 4
    omega
  unfold varintWidth
  generalize (first >>> 6).toNat = x at hfst
  interval_cases x
  · exact ⟨0, .one⟩
  · exact ⟨1, .two⟩
  · exact ⟨2, .four⟩
  · exact ⟨3, .eight⟩

/-- **What is read** is encoded again, in at most as many bytes. -/
theorem decodeVarint_spec {s rest : Bytes} (h : decodeVarint s = .ok (value, rest)) :
    ∃ used bytes, s = used ++ rest ∧ encodeVarint value = .ok bytes ∧
      bytes.length ≤ used.length := by
  rcases s with _ | ⟨first, tail⟩
  · cases h
  simp only [decodeVarint] at h
  split_ifs at h with hlen
  obtain ⟨k, hw⟩ := width_varintWidth first
  rw [varintWidth] at hw
  generalize 1 <<< (first >>> 6).toNat = w at h hlen hw
  cases h
  have hlt : (UInt64.ofNat (beNat ((first :: tail).take w)) &&& varintMask w).toNat <
      2 ^ (8 * w - 2) := by
    rw [UInt64.toNat_and, hw.mask, and_two_pow_sub_one_eq_mod]
    exact mod_lt _ (by positivity)
  have htake : ((first :: tail).take w).length = w := by
    rw [length_take]
    omega
  refine ⟨(first :: tail).take w, ?_⟩
  rcases encodeVarint_spec (UInt64.ofNat (beNat ((first :: tail).take w)) &&& varintMask w) with
    ⟨bytes, w', k', henc, hs⟩ | ⟨hge, -⟩
  · refine ⟨bytes, (take_append_drop w _).symm, henc, ?_⟩
    rw [hs.length, htake]
    exact hs.least w k hw hlt
  · have hmono := hw.pow_le
    omega

end Usque.Protocol
