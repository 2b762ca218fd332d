/-
  Code that acts on memory it shares with others: a tree of operations and answers.
  `Code.All` is about answers that others make up, `Code.step` interleaves several
  codes, and `Code.Wp` is the rule of a world that restricts what operations do.
-/
import Mathlib.Logic.Basic

namespace Lib

inductive Code (ω : Type) (ν : ω → Type) (α : Type) where
  | done (a : α)
  | panicked
  | act (op : ω) (k : ν op → Code ω ν α)

namespace Code
variable {ω : Type} {ν : ω → Type} {α β σ : Type}

protected def bind : Code ω ν α → (α → Code ω ν β) → Code ω ν β
  | done a, f => f a
  | panicked, _ => panicked
  | act op k, f => act op fun answer => (k answer).bind f

instance : Monad (Code ω ν) where
  pure := done
  bind := Code.bind

def perform (op : ω) : Code ω ν (ν op) := act op done

@[simp] theorem done_bind (a : α) (f : α → Code ω ν β) : (done a >>= f) = f a := rfl

@[simp] theorem pure_bind (a : α) (f : α → Code ω ν β) : ((pure a : Code ω ν α) >>= f) = f a := rfl

@[simp] theorem act_bind (op : ω) (k : ν op → Code ω ν α) (f : α → Code ω ν β) :
    (act op k >>= f) = act op fun answer => k answer >>= f := rfl

@[simp] theorem perform_bind (op : ω) (f : ν op → Code ω ν β) : (perform op >>= f) = act op f := rfl

theorem bind_assoc {γ : Type} (x : Code ω ν α) (f : α → Code ω ν β) (g : β → Code ω ν γ) :
    (x >>= f >>= g) = (x >>= fun a => f a >>= g) := by
  induction x with
  | done => rfl
  | panicked => rfl
  | act _ _ ih =>
    simp only [act_bind]
    congr
    funext answer
    exact ih answer

/-- Whatever the answers are, the operations with their answers and the end of the
    code are in `Q`; the end `none` is a panic. -/
def All : Code ω ν α → (List ((op : ω) × ν op) → Option α → Prop) → Prop
  | done a, Q => Q [] (some a)
  | panicked, Q => Q [] none
  | act op k, Q => ∀ answer, (k answer).All fun actions => Q (⟨op, answer⟩ :: actions)

section
variable {Q Q' : List ((op : ω) × ν op) → Option α → Prop}

theorem All.mono {x : Code ω ν α} (h : x.All Q) (himp : ∀ actions last, Q actions last →
    Q' actions last) : x.All Q' := by
  induction x generalizing Q Q' with
  | done => exact himp _ _ h
  | panicked => exact himp _ _ h
  | act _ _ ih => exact fun answer => ih answer (h answer) fun actions => himp _

end

/-- The next operation, on a memory. -/
def step (handle : (op : ω) → σ → σ × ν op) (s : σ) : Code ω ν α → σ × Code ω ν α
  | done a => (s, done a)
  | panicked => (s, panicked)
  | act op k =>
    let (s, answer) := handle op s
    (s, k answer)

/-- The next operations, each as its choice says. -/
def follow {γ : Type} (handle : γ → (op : ω) → σ → σ × ν op) :
    List γ → σ → Code ω ν α → σ × Code ω ν α
  | [], s, x => (s, x)
  | c :: choices, s, x =>
    let (s, x) := step (handle c) s x
    follow handle choices s x

/-- The value at the end of the code. -/
def result? : Code ω ν α → Option α
  | done a => some a
  | _ => none

theorem eq_done_of_result? {x : Code ω ν α} {a : α} (h : x.result? = some a) : x = done a := by
  cases x with
  | done =>
    cases h
    rfl
  | panicked => cases h
  | act => cases h

/-! ## Runs in a world -/

section
variable {does : (op : ω) → σ → ν op → σ → Prop} {I : ω → σ → Prop}

/-- `x` from the state `s` has come to `y` in the state `t`. -/
inductive Runs (does : (op : ω) → σ → ν op → σ → Prop) (x : Code ω ν α) (s : σ) :
    Code ω ν α → σ → Prop where
  | refl : Runs does x s x s
  | step {op : ω} {k : ν op → Code ω ν α} {t u : σ} {answer : ν op}
    (run : Runs does x s (act op k) t) (h : does op t answer u) : Runs does x s (k answer) u

theorem Runs.front {op : ω} {k : ν op → Code ω ν α} {y : Code ω ν α} {s s' t : σ} (answer : ν op)
    (h : does op s answer s') (run : Runs does (k answer) s' y t) : Runs does (act op k) s y t := by
  induction run with
  | refl => exact .step .refl h
  | step _ hdoes ih => exact .step ih hdoes

theorem Runs.follow {γ : Type} {handle : γ → (op : ω) → σ → σ × ν op}
    (hhandle : ∀ c op s, does op s (handle c op s).2 (handle c op s).1) {choices : List γ}
    {x y : Code ω ν α} {s t : σ} (run : Runs does x s y t) :
    Runs does x s (y.follow handle choices t).2 (y.follow handle choices t).1 := by
  induction choices generalizing y t with
  | nil => exact run
  | cons c _ ih =>
    cases y with
    | done => exact ih run
    | panicked => exact ih run
    | act op => exact ih (run.step (hhandle c op t))

/-- Every run of the code is in `I` at each pending operation and ends in `Q`,
    without a panic. -/
def Wp (does : (op : ω) → σ → ν op → σ → Prop) (I : ω → σ → Prop) :
    Code ω ν α → (α → σ → Prop) → σ → Prop
  | done a, Q, s => Q a s
  | panicked, _, _ => False
  | act op k, Q, s => I op s ∧ ∀ answer s', does op s answer s' → (k answer).Wp does I Q s'

namespace Wp
variable {Q Q' : α → σ → Prop} {s t : σ} {x y : Code ω ν α}

protected theorem pure {a : α} (h : Q a s) : (pure a : Code ω ν α).Wp does I Q s := h

theorem act {op : ω} {k : ν op → Code ω ν α} (hI : I op s)
    (h : ∀ answer s', does op s answer s' → (k answer).Wp does I Q s') :
    (act op k).Wp does I Q s := ⟨hI, h⟩

theorem weaken {I' : ω → σ → Prop} (h : x.Wp does I Q s) (himp : ∀ op s, I op s → I' op s) :
    x.Wp does I' Q s := by
  induction x generalizing s with
  | done => exact h
  | panicked => exact h
  | act op k ih =>
    exact ⟨himp op s h.1, fun answer s' hdoes => ih answer (h.2 answer s' hdoes)⟩

theorem mono (h : x.Wp does I Q s) (himp : ∀ a s, Q a s → Q' a s) : x.Wp does I Q' s := by
  induction x generalizing s with
  | done a => exact himp a s h
  | panicked => exact h
  | act _ _ ih => exact ⟨h.1, fun answer s' hdoes => ih answer (h.2 answer s' hdoes)⟩

/-- **The rule of a sequence.** -/
theorem bind {z : Code ω ν β} {f : β → Code ω ν α}
    (h : z.Wp does I (fun b s => (f b).Wp does I Q s) s) : (z >>= f).Wp does I Q s := by
  induction z generalizing s with
  | done => exact h
  | panicked => exact h
  | act _ _ ih => exact ⟨h.1, fun answer s' hdoes => ih answer (h.2 answer s' hdoes)⟩

theorem andThen {z : Code ω ν β} {f : β → Code ω ν α} {R : β → σ → Prop}
    (hz : z.Wp does I R s) (h : ∀ b s', R b s' → (f b).Wp does I Q s') : (z >>= f).Wp does I Q s :=
  bind (hz.mono h)

/-- **What a run passes.** -/
theorem runs (h : x.Wp does I Q s) (run : Runs does x s y t) : y.Wp does I Q t := by
  induction run with
  | refl => exact h
  | step _ hdoes ih => exact ih.2 _ _ hdoes

end Wp

end

end Code

end Lib
