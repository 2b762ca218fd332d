/-
  Byte strings put together from fields.

  A word, or any other field, at the length of what precedes it is read and written
  in place.
-/
import Usque.Lib.Bytes

namespace Lib
open List

def word (v : UInt16) : Bytes := [hi8 v, lo8 v]

@[simp] theorem length_word (v : UInt16) : (word v).length = 2 := rfl

/-! ## Fields in place -/

section
variable {p : Bytes} {off : ℕ}

theorem readU16_field (x y : Bytes) (v : UInt16) (h : x.length = off) :
    readU16 (x ++ (word v ++ y)) off = some v := by
  subst h
  rw [word, cons_append, cons_append, readU16_append_cons, be16_hi8_lo8]

theorem writeU16_field (x y : Bytes) (old new : UInt16) (h : x.length = off) :
    writeU16 (x ++ (word old ++ y)) off new = x ++ (word new ++ y) := by
  subst h
  exact writeU16_append_cons x y _ _ new

theorem slice_field (x y z : Bytes) {len : ℕ} (h : x.length = off) (hy : y.length = len) :
    slice (x ++ (y ++ z)) off len = y := by
  subst h hy
  simp [slice]

theorem readU16_lead {x y : Bytes} {i : ℕ} (h : i + 2 ≤ x.length) :
    readU16 (x ++ y) i = readU16 x i :=
  readU16_congr fun _ _ hj => getElem?_append_left (by omega)

theorem drop_eq_slice (p : Bytes) (off len : ℕ) :
    p.drop off = slice p off len ++ p.drop (off + len) := by
  rw [slice, ← drop_drop, take_append_drop]

theorem slice_eq_word {v : UInt16} (h : readU16 p off = some v) : slice p off 2 = word v := by
  obtain ⟨a, b, ha, hb, rfl⟩ := readU16_eq_some.1 h
  have hhi : hi8 (be16 a b) = a := by
    have := a.toNat_lt
    have := b.toNat_lt
    apply UInt8.toNat_inj.1
    rw [hi8, toNat_be16, UInt8.toNat_ofNat']
    omega
  have hlo : lo8 (be16 a b) = b := by
    have := b.toNat_lt
    apply UInt8.toNat_inj.1
    rw [lo8, toNat_be16, UInt8.toNat_ofNat']
    omega
  rw [word, hhi, hlo]
  apply ext_getElem?
  intro i
  rcases i with _ | _ | i
  · simpa [slice] using ha
  · simpa [slice] using hb
  · rw [getElem?_eq_none (by simp [slice]), getElem?_eq_none (by simp)]

end

/-! ## Sums of fields -/

theorem wordSum_word (v : UInt16) : wordSum (word v) = v.toNat := by
  rw [word, wordSum, wordSum, Nat.add_zero, ← toNat_be16, be16_hi8_lo8]

theorem wordSum_word_append (v : UInt16) (p : Bytes) :
    wordSum (word v ++ p) = v.toNat + wordSum p := by
  rw [wordSum_append p (word v) (by simp), wordSum_word]

/-- A sum of words is at most as large as their number allows. -/
theorem wordSum_le : ∀ p : Bytes, wordSum p ≤ 65535 * ((p.length + 1) / 2)
  | [] => by simp [wordSum]
  | [a] => by
    have := a.toNat_lt
    simp only [wordSum, length_cons, length_nil]
    omega
  | a :: b :: p => by
    have := a.toNat_lt
    have := b.toNat_lt
    have := wordSum_le p
    simp only [wordSum, length_cons]
    omega

variable {sum : ℕ}

theorem foldCarry_pos (h : 0 < sum) : 0 < foldCarry sum := by
  fun_induction foldCarry sum with
  | case1 => exact h
  | case2 sum hlarge ih => exact ih (by omega)

/-- **A sum folds to the word of ones** when it is a positive multiple of it. -/
theorem foldCarry_eq_ones : foldCarry sum = 65535 ↔ 0 < sum ∧ sum % 65535 = 0 := by
  obtain ⟨hmod, hlt⟩ := foldCarry_spec sum
  constructor
  · intro h
    refine ⟨Nat.pos_of_ne_zero ?_, by omega⟩
    rintro rfl
    rw [foldCarry] at h
    simp at h
  · rintro ⟨hpos, hzero⟩
    have := foldCarry_pos hpos
    omega

end Lib
