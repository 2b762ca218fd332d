/-
  Loops that end by returning, with an invariant and a measure (`loop_spec`).
-/
import Mathlib.Data.Nat.Notation

namespace Lib

variable {σ β : Type}

/-- `loop { … }`: a round continues from a new state, returns, or panics (`none`).
    There is no result if a round panics or `fuel` rounds do not return. -/
def loop (round : σ → Option (σ ⊕ β)) : ℕ → σ → Option β
  | 0, _ => none
  | fuel + 1, s =>
    match round s with
    | none => none
    | some (.inl s') => loop round fuel s'
    | some (.inr b) => some b

/-- **The rule of loops**, for a relation `P` between the state that a loop starts
    from and what it returns. Every round from a state in `I` returns what `P` asks
    for, or goes on in `I` with a smaller measure to a state where `P` asks for no
    less. Then the loop returns, if there is more fuel than the measure. -/
theorem loop_spec {round : σ → Option (σ ⊕ β)} {I : σ → Prop} {P : σ → β → Prop} (μ : σ → ℕ)
    (h : ∀ s, I s →
      (∃ s', round s = some (.inl s') ∧ I s' ∧ μ s' < μ s ∧ ∀ b, P s' b → P s b) ∨
      ∃ b, round s = some (.inr b) ∧ P s b)
    {fuel : ℕ} {s : σ} (hI : I s) (hfuel : μ s < fuel) :
    ∃ b, loop round fuel s = some b ∧ P s b := by
  induction fuel generalizing s with
  | zero => exact absurd hfuel (Nat.not_lt_zero _)
  | succ fuel ih =>
    simp only [loop]
    rcases h s hI with ⟨s', hs, hI', hlt, hP⟩ | ⟨b, hb, hP⟩
    · rw [hs]
      obtain ⟨b, hloop, hb⟩ := ih hI' (by omega)
      exact ⟨b, hloop, hP b hb⟩
    · rw [hb]
      exact ⟨b, rfl, hP⟩

end Lib
