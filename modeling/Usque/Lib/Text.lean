/-
  Characters in lower case, and the elements of a joined list.
-/
import Mathlib.Data.List.SplitOn

namespace Lib
open List

theorem mem_intercalate {α : Type} {x c : α} {ls : List (List α)} (h : c ∈ [x].intercalate ls) :
    c = x ∨ ∃ l ∈ ls, c ∈ l := by
  induction ls with
  | nil => simp [intercalate] at h
  | cons l ls ih =>
    cases ls with
    | nil => exact .inr ⟨l, by simp, by simpa [intercalate] using h⟩
    | cons =>
      simp only [intercalate, intersperse, flatten_cons, mem_append, mem_singleton] at h
      rcases h with h | h | h
      · exact .inr ⟨l, by simp, h⟩
      · exact .inl h
      · refine (ih h).imp_right ?_
        rintro ⟨l'', hl, hc⟩
        exact ⟨l'', mem_cons_of_mem _ hl, hc⟩

theorem toLower_cases (c : Char) : c.toLower = c ∨
    65 ≤ c.toNat ∧ c.toNat ≤ 90 ∧ c.toLower.toNat = c.toNat + 32 := by
  unfold Char.toLower
  split
  · rename_i h
    simp only [UInt32.le_iff_toNat_le, ge_iff_le] at h
    refine .inr ⟨h.1, h.2, ?_⟩
    have hz : c.toNat ≤ 90 := h.2
    change (c.val + 32).toNat = c.toNat + 32
    rw [UInt32.toNat_add]
    exact Nat.mod_eq_of_lt (show c.toNat + 32 < 2 ^ 32 by omega)
  · exact .inl rfl

theorem toLower_toLower (c : Char) : c.toLower.toLower = c.toLower := by
  rcases toLower_cases c with h | ⟨h1, -, h3⟩
  · rw [h, h]
  · rcases toLower_cases c.toLower with h | ⟨-, h2, -⟩
    · exact h
    · omega

end Lib
