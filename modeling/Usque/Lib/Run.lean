/-
  Runs of a machine with outputs (a function `next : σ → ι → σ × ο`), their events,
  and the invariant rules.
-/
import Mathlib.Data.List.Basic

namespace Lib
open List

section
variable {σ ι ο : Type}

structure Event (σ ι ο : Type) where
  before : σ
  input : ι
  output : ο

/-- `Steps next s h s'`: a run from `s` to `s'`; `h` lists its events, the last
    one first. -/
inductive Steps (next : σ → ι → σ × ο) (s : σ) : List (Event σ ι ο) → σ → Prop where
  | nil : Steps next s [] s
  | snoc {h : List (Event σ ι ο)} {t : σ} (i : ι) (run : Steps next s h t) :
    Steps next s (⟨t, i, (next t i).2⟩ :: h) (next t i).1

/-- The states reached by the runs from an initial state. -/
def Reachable (next : σ → ι → σ × ο) (start : σ → Prop) (t : σ) : Prop :=
  ∃ s h, start s ∧ Steps next s h t

/-- `e` is the latest event of `h`, the last one first, with the property `C`. -/
def Latest {ε : Type} (C : ε → Prop) (h : List ε) (e : ε) : Prop :=
  ∃ h₁ h₂, h = h₁ ++ e :: h₂ ∧ C e ∧ ∀ e' ∈ h₁, ¬ C e'

theorem latest_cons {ε : Type} {C : ε → Prop} {h : List ε} {e0 e : ε} :
    Latest C (e0 :: h) e ↔ (C e0 ∧ e = e0) ∨ (¬ C e0 ∧ Latest C h e) := by
  constructor
  · rintro ⟨h₁, h₂, heq, hC, hno⟩
    cases h₁ with
    | nil => cases heq; exact .inl ⟨hC, rfl⟩
    | cons a h₁ =>
      cases heq
      exact .inr ⟨hno _ (mem_cons_self ..), h₁, h₂, rfl, hC,
        fun e' he' => hno e' (mem_cons_of_mem _ he')⟩
  · rintro (⟨hC, rfl⟩ | ⟨hn, h₁, h₂, rfl, hC, hno⟩)
    · exact ⟨[], h, rfl, hC, fun e' he' => by cases he'⟩
    · refine ⟨e0 :: h₁, h₂, rfl, hC, fun e' he' => ?_⟩
      rcases mem_cons.1 he' with rfl | he'
      · exact hn
      · exact hno e' he'

variable {next : σ → ι → σ × ο} {start : σ → Prop}

/-- **The invariant rule of runs**, for a property of the state and the events
    so far. -/
theorem Steps.inv {P : List (Event σ ι ο) → σ → Prop} {s t : σ} {h : List (Event σ ι ο)}
    (run : Steps next s h t) (h0 : P [] s)
    (hs : ∀ h t i, Steps next s h t → P h t → P (⟨t, i, (next t i).2⟩ :: h) (next t i).1) :
    P h t := by
  induction run with
  | nil => exact h0
  | snoc i run ih => exact hs _ _ i run ih

/-- An event of a run is a step from a state that the run passed. -/
theorem Steps.event {s t : σ} {h : List (Event σ ι ο)} (run : Steps next s h t)
    {e : Event σ ι ο} (he : e ∈ h) :
    ∃ h', Steps next s h' e.before ∧ e.output = (next e.before e.input).2 := by
  induction run with
  | nil => cases he
  | snoc i run ih =>
    rcases mem_cons.1 he with rfl | he
    · exact ⟨_, run, rfl⟩
    · exact ih he

/-- The run of given inputs, the last one first. -/
def replay (next : σ → ι → σ × ο) (s : σ) : List ι → List (Event σ ι ο) × σ
  | [] => ([], s)
  | i :: inputs =>
    let (h, t) := replay next s inputs
    (⟨t, i, (next t i).2⟩ :: h, (next t i).1)

theorem steps_replay (s : σ) (inputs : List ι) :
    Steps next s (replay next s inputs).1 (replay next s inputs).2 := by
  induction inputs with
  | nil => exact .nil
  | cons i _ ih => exact ih.snoc i

theorem Reachable.init {s : σ} (h : start s) : Reachable next start s := ⟨s, [], h, .nil⟩

theorem Reachable.step {t : σ} (h : Reachable next start t) (i : ι) :
    Reachable next start (next t i).1 := by
  obtain ⟨s, l, hs, run⟩ := h
  exact ⟨s, _, hs, run.snoc i⟩

theorem Reachable.steps {s t : σ} {h : List (Event σ ι ο)} (hs : Reachable next start s)
    (run : Steps next s h t) : Reachable next start t :=
  run.inv (P := fun _ t => Reachable next start t) hs fun _ _ i _ ht => ht.step i

/-- **The invariant rule of reachable states.** -/
theorem Reachable.inv {P : σ → Prop} {t : σ} (ht : Reachable next start t)
    (h0 : ∀ s, start s → P s) (hs : ∀ s i, P s → P (next s i).1) : P t := by
  obtain ⟨s, h, hi, run⟩ := ht
  exact run.inv (P := fun _ t => P t) (h0 s hi) fun _ t i _ hp => hs t i hp

end

end Lib
