/-
  Programs over a state that survives an error, and what they end with.  `Ends` has
  one rule for each construct, to be applied from the end of the program backwards.
-/
import Mathlib.Logic.Basic

namespace Lib

section
variable {ε α β : Type}

theorem bindOk {x : Except ε α} {f : α → Except ε β} {b : β} :
    (x >>= f) = .ok b ↔ ∃ a, x = .ok a ∧ f a = .ok b := by
  cases x with
  | error => simp [bind, Except.bind]
  | ok => simp [bind, Except.bind]

theorem seqOk {x : Except ε Unit} {f : Unit → Except ε β} {b : β} :
    (x >>= f) = .ok b ↔ x = .ok () ∧ f () = .ok b :=
  bindOk.trans ⟨fun ⟨_, h⟩ => h, fun h => ⟨(), h⟩⟩

theorem mapErrorOk {ε' : Type} {x : Except ε α} {f : ε → ε'} {a : α} :
    x.mapError f = .ok a ↔ x = .ok a := by
  cases x with
  | error => exact iff_of_false (fun h => by cases h) fun h => by cases h
  | ok => exact ⟨fun h => congrArg _ (Except.ok.inj h), fun h => congrArg _ (Except.ok.inj h)⟩

theorem toOptionOk {x : Except ε α} {a : α} : x.toOption = some a ↔ x = .ok a := by
  cases x <;> simp [Except.toOption]

end

/-- A program with errors over a state. -/
def Prog (σ ε α : Type) := σ → Except ε α × σ

section
variable {σ ε ε' α β : Type}

namespace Prog

instance : Monad (Prog σ ε) where
  pure a := fun s => (.ok a, s)
  bind m f := fun s =>
    match m s with
    | (.ok a, s') => f a s'
    | (.error e, s') => (.error e, s')

def read (f : σ → α) : Prog σ ε α := fun s => (.ok (f s), s)

def update (f : σ → σ) : Prog σ ε Unit := fun s => (.ok (), f s)

/-- A result that does not depend on the state. -/
def check (r : Except ε α) : Prog σ ε α := fun s => (r, s)

def fail (e : ε) : Prog σ ε α := check (.error e)

def ensure (c : Prop) [Decidable c] (e : ε) : Prog σ ε Unit :=
  check (if c then .ok () else .error e)

def when (c : Prop) [Decidable c] (m : Prog σ ε Unit) : Prog σ ε Unit := if c then m else pure ()

/-- Runs `m` and returns its result, the error included. -/
def attempt (m : Prog σ ε α) : Prog σ ε' (Except ε α) := fun s =>
  match m s with
  | (r, s') => (.ok r, s')

end Prog

/-- From the state `s`, the program `m` ends with a value in `Q` or with an error
    in `E`. -/
def Ends (m : Prog σ ε α) (Q : α → σ → Prop) (E : ε → σ → Prop) (s : σ) : Prop :=
  match m s with
  | (.ok a, s') => Q a s'
  | (.error e, s') => E e s'

namespace Ends
open Prog

variable {Q : α → σ → Prop} {E : ε → σ → Prop} {s : σ}

protected theorem pure {a : α} (h : Q a s) : Ends (pure a : Prog σ ε α) Q E s := h

protected theorem bind {m : Prog σ ε β} {f : β → Prog σ ε α}
    (h : Ends m (fun b => Ends (f b) Q E) E s) : Ends (m >>= f) Q E s := by
  unfold Ends at h ⊢
  simp only [bind]
  rcases hm : m s with ⟨_ | b, s'⟩ <;> simpa only [hm] using h

theorem andThen {m : Prog σ ε β} {f : β → Prog σ ε α} {R : β → σ → Prop} (hm : Ends m R E s)
    (h : ∀ b s', R b s' → Ends (f b) Q E s') : Ends (m >>= f) Q E s := by
  refine .bind ?_
  unfold Ends at hm ⊢
  rcases hrun : m s with ⟨e | b, s'⟩
  · simpa only [hrun] using hm
  · exact h b s' (by simpa only [hrun] using hm)

protected theorem read {f : σ → α} (h : Q (f s) s) : Ends (read f : Prog σ ε α) Q E s := h

protected theorem update {f : σ → σ} {Q : Unit → σ → Prop} (h : Q () (f s)) :
    Ends (update f : Prog σ ε Unit) Q E s := h

/-- A change of the state of which only `P` is kept in mind. -/
theorem updateWith {f : σ → σ} {P : σ → Prop} {Q : Unit → σ → Prop} (h : P (f s))
    (k : ∀ s', P s' → Q () s') : Ends (update f : Prog σ ε Unit) Q E s := k _ h

protected theorem check {r : Except ε α} (hok : ∀ a, r = .ok a → Q a s)
    (herr : ∀ e, r = .error e → E e s) : Ends (check r) Q E s := by
  cases r with
  | error e => exact herr e rfl
  | ok a => exact hok a rfl

protected theorem fail {e : ε} (h : E e s) : Ends (fail e : Prog σ ε α) Q E s := h

protected theorem ensure {c : Prop} [Decidable c] {e : ε} {Q : Unit → σ → Prop}
    (hc : c → Q () s) (hn : ¬ c → E e s) : Ends (ensure c e) Q E s := by
  unfold ensure
  by_cases h : c
  · rw [if_pos h]
    exact hc h
  · rw [if_neg h]
    exact hn h

protected theorem attempt {m : Prog σ ε' α} {Q : Except ε' α → σ → Prop}
    (h : Ends m (fun a => Q (.ok a)) (fun e => Q (.error e)) s) :
    Ends (attempt m : Prog σ ε (Except ε' α)) Q E s := by
  unfold Ends at h ⊢
  simp only [attempt]
  rcases hm : m s with ⟨_ | a, s'⟩ <;> simpa only [hm] using h

protected theorem ite {c : Prop} [Decidable c] {m1 m2 : Prog σ ε α} (h1 : c → Ends m1 Q E s)
    (h2 : ¬ c → Ends m2 Q E s) : Ends (if c then m1 else m2) Q E s := by
  split
  · exact h1 ‹_›
  · exact h2 ‹_›

protected theorem when {c : Prop} [Decidable c] {m : Prog σ ε Unit} {Q : Unit → σ → Prop}
    (h1 : c → Ends m Q E s) (h2 : ¬ c → Q () s) : Ends (when c m) Q E s :=
  .ite h1 fun hc => .pure (h2 hc)

/-- The rule of consequence. -/
theorem mono {Q' : α → σ → Prop} {E' : ε → σ → Prop} {m : Prog σ ε α} (h : Ends m Q E s)
    (hQ : ∀ a s', Q a s' → Q' a s') (hE : ∀ e s', E e s' → E' e s') : Ends m Q' E' s := by
  unfold Ends at h ⊢
  rcases hm : m s with ⟨e | a, s'⟩
  · exact hE e s' (by simpa only [hm] using h)
  · exact hQ a s' (by simpa only [hm] using h)

theorem run {m : Prog σ ε α} (h : Ends m Q E s) :
    (∃ a s', m s = (.ok a, s') ∧ Q a s') ∨ ∃ e s', m s = (.error e, s') ∧ E e s' := by
  unfold Ends at h
  rcases hm : m s with ⟨e | a, s'⟩ <;> rw [hm] at h
  · exact .inr ⟨e, s', rfl, h⟩
  · exact .inl ⟨a, s', rfl, h⟩

/-- The rule of loops over a list, with the invariant `I`. -/
protected theorem forM {ι : Type} {I : σ → Prop} {f : ι → Prog σ ε Unit} {l : List ι} (hs : I s)
    (h : ∀ i ∈ l, ∀ s, I s → Ends (f i) (fun _ => I) E s) : Ends (l.forM f) (fun _ => I) E s := by
  induction l generalizing s with
  | nil => exact hs
  | cons i l ih =>
    refine .bind ((h i (List.mem_cons_self ..) s hs).mono (fun _ s' hs' => ?_) fun _ _ he => he)
    exact ih hs' fun j hj => h j (List.mem_cons_of_mem _ hj)

end Ends

end

end Lib
