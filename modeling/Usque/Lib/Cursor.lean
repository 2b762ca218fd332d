/-
  Reading from a byte string: a cursor that advances, and stops at an error.
-/
import Usque.Lib.Bytes
import Usque.Lib.Prog

namespace Lib

variable {ε α β : Type}

/-- A reader of byte strings: a value and the bytes left, or an error. -/
abbrev Cursor (ε α : Type) := StateT Bytes (Except ε) α

variable {f : α → Cursor ε β} {x : Cursor ε α} {b : β}

theorem Cursor.bind_eq_ok {s s' : Bytes} :
    (x >>= f) s = .ok (b, s') ↔ ∃ a s1, x s = .ok (a, s1) ∧ f a s1 = .ok (b, s') := by
  constructor
  · intro h
    obtain ⟨⟨a, s1⟩, hx, hf⟩ := bindOk.1 (show (x s >>= fun r => f r.1 r.2) = .ok (b, s') from h)
    exact ⟨a, s1, hx, hf⟩
  · rintro ⟨a, s1, hx, hf⟩
    exact bindOk.2 ⟨(a, s1), hx, hf⟩

def Reads (x : Cursor ε α) (bytes : Bytes) (a : α) : Prop :=
  ∀ rest, x (bytes ++ rest) = .ok (a, rest)

theorem Reads.pure (a : α) : Reads (pure a : Cursor ε α) [] a := fun _ => rfl

theorem Reads.bind {b1 b2 : Bytes} {a : α} (hx : Reads x b1 a) (hf : Reads (f a) b2 b) :
    Reads (x >>= f) (b1 ++ b2) b := by
  intro rest
  rw [List.append_assoc]
  exact Cursor.bind_eq_ok.2 ⟨a, b2 ++ rest, hx _, hf rest⟩

end Lib
