/-
  Lists that are related element by element.
-/
import Mathlib.Data.List.Forall2

namespace Lib
open List

section
variable {α β : Type} {R S : α → β → Prop} {l : List α} {l' : List β}

theorem exists_mem_right (h : List.Forall₂ R l l') {a : α} (ha : a ∈ l) : ∃ b ∈ l', R a b := by
  induction h with
  | nil => cases ha
  | cons hab _ ih =>
    rcases mem_cons.1 ha with rfl | ha
    · exact ⟨_, mem_cons_self .., hab⟩
    · obtain ⟨b, hb, hr⟩ := ih ha
      exact ⟨b, mem_cons_of_mem _ hb, hr⟩

theorem exists_mem_left (h : List.Forall₂ R l l') {b : β} (hb : b ∈ l') : ∃ a ∈ l, R a b :=
  exists_mem_right (R := flip R) h.flip hb

/-- The element at `i` of the second list is changed by `f`. -/
theorem forall₂_modify {f : β → β} {i : Nat} (h : List.Forall₂ R l l')
    (hne : ∀ a b, R a b → S a b) (hf : ∀ a b, l'[i]? = some b → R a b → S a (f b)) :
    List.Forall₂ S l (l'.modify i f) := by
  induction h generalizing i with
  | nil =>
    cases i with
    | zero => exact .nil
    | succ => exact .nil
  | cons hab htail ih =>
    cases i with
    | zero => exact .cons (hf _ _ rfl hab) (htail.imp hne)
    | succ => exact .cons (hne _ _ hab) (ih hf)

end

end Lib
