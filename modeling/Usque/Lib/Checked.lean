/-
  Computations on byte strings that may give up, and whose operations panic where
  an index is out of range or a number overflows.  `Safe` has one rule for each
  operation, to be applied from the end of the computation backwards.
-/
import Usque.Lib.Bytes

namespace Lib

/-- Why a computation has no value. -/
inductive Stop where
  | gaveUp
  | panicked

abbrev Checked := Except Stop

namespace Checked

/-- Give up unless `c` holds. -/
def require (c : Prop) [Decidable c] : Checked Unit := if c then .ok () else .error .gaveUp

section
variable (bytes : Bytes) (offset : ℕ)

/-- `bytes[i]`. -/
def index (i : ℕ) : Checked UInt8 :=
  match bytes[i]? with
  | some byte => .ok byte
  | none => .error .panicked

def read16 : Checked UInt16 :=
  match readU16 bytes offset with
  | some value => .ok value
  | none => .error .panicked

/-- `bytes[start..stop]`. -/
def range (start stop : ℕ) : Checked Bytes :=
  if start ≤ stop ∧ stop ≤ bytes.length then .ok (slice bytes start (stop - start))
  else .error .panicked

def write16 (value : UInt16) : Checked Bytes :=
  if offset + 2 ≤ bytes.length then .ok (writeU16 bytes offset value) else .error .panicked

/-- `bytes[offset..offset + source.len()].copy_from_slice(source)`. -/
def copyFrom (source : Bytes) : Checked Bytes :=
  if offset + source.length ≤ bytes.length then
    .ok (bytes.take offset ++ source ++ bytes.drop (offset + source.length))
  else .error .panicked

/-- `bytes[offset..].fill(byte)`. -/
def fill (byte : UInt8) : Checked Bytes :=
  if offset ≤ bytes.length then
    .ok (bytes.take offset ++ List.replicate (bytes.length - offset) byte)
  else .error .panicked

end

/-- `a - b`. -/
def sub (a b : ℕ) : Checked ℕ := if b ≤ a then .ok (a - b) else .error .panicked

/-- `a + b` in `width` bits. -/
def add (width a b : ℕ) : Checked ℕ := if a + b < 2 ^ width then .ok (a + b) else .error .panicked

end Checked

/-- The computation does not panic, and its value is in `Q`. -/
def Safe {α : Type} (x : Checked α) (Q : α → Prop) : Prop :=
  match x with
  | .ok a => Q a
  | .error .gaveUp => True
  | .error .panicked => False

variable {bytes : Bytes} {offset a b : ℕ}

namespace Safe
open Checked

variable {α β : Type} {Q : α → Prop}

protected theorem pure {a : α} (h : Q a) : Safe (pure a) Q := h

protected theorem bind {x : Checked β} {f : β → Checked α} (h : Safe x fun b => Safe (f b) Q) :
    Safe (x >>= f) Q := by
  cases x with
  | ok => exact h
  | error e => cases e <;> exact h

theorem mono {x : Checked α} {Q' : α → Prop} (h : Safe x Q) (hQ : ∀ a, Q a → Q' a) : Safe x Q' := by
  cases x with
  | ok a => exact hQ a h
  | error e => cases e <;> exact h

protected theorem require {c : Prop} [Decidable c] {Q : Unit → Prop} (h : c → Q ()) :
    Safe (require c) Q := by
  unfold Checked.require
  split_ifs with hc
  · exact h hc
  · trivial

protected theorem index {i : ℕ} {Q : UInt8 → Prop} (hi : i < bytes.length)
    (h : ∀ byte, bytes[i]? = some byte → Q byte) : Safe (index bytes i) Q := by
  simp only [index, List.getElem?_eq_getElem hi]
  exact h _ (List.getElem?_eq_getElem hi)

protected theorem read16 {Q : UInt16 → Prop} (ho : offset + 2 ≤ bytes.length)
    (h : ∀ value, readU16 bytes offset = some value → Q value) : Safe (read16 bytes offset) Q := by
  obtain ⟨value, hv⟩ := readU16_isSome ho
  simp only [read16, hv]
  exact h value hv

protected theorem range {start stop : ℕ} {Q : Bytes → Prop} (hs : start ≤ stop)
    (ht : stop ≤ bytes.length) (h : Q (slice bytes start (stop - start))) :
    Safe (range bytes start stop) Q := by
  rw [range, if_pos ⟨hs, ht⟩]
  exact h

protected theorem write16 {value : UInt16} {Q : Bytes → Prop} (ho : offset + 2 ≤ bytes.length)
    (h : Q (writeU16 bytes offset value)) : Safe (write16 bytes offset value) Q := by
  rw [write16, if_pos ho]
  exact h

protected theorem copyFrom {source : Bytes} {Q : Bytes → Prop}
    (ho : offset + source.length ≤ bytes.length)
    (h : Q (bytes.take offset ++ source ++ bytes.drop (offset + source.length))) :
    Safe (copyFrom bytes offset source) Q := by
  rw [copyFrom, if_pos ho]
  exact h

protected theorem fill {byte : UInt8} {Q : Bytes → Prop} (ho : offset ≤ bytes.length)
    (h : Q (bytes.take offset ++ List.replicate (bytes.length - offset) byte)) :
    Safe (fill bytes offset byte) Q := by
  rw [fill, if_pos ho]
  exact h

protected theorem sub {Q : ℕ → Prop} (hb : b ≤ a) (h : Q (a - b)) : Safe (sub a b) Q := by
  rw [sub, if_pos hb]
  exact h

protected theorem add {width : ℕ} {Q : ℕ → Prop} (hlt : a + b < 2 ^ width) (h : Q (a + b)) :
    Safe (add width a b) Q := by
  rw [add, if_pos hlt]
  exact h

end Safe

end Lib
