/-
  Code with errors, and services that run such code and can be restarted at every
  point.  What holds of the requests and of the startup holds of every reachable
  state (`Service.Reaches.wp`).
-/
import Usque.Lib.Code

namespace Lib

abbrev Fallible (ω : Type) (ν : ω → Type) (ε α : Type) := ExceptT ε (Code ω ν) α

namespace Fallible
variable {ω : Type} {ν : ω → Type} {ε α β σ : Type}

def perform (op : ω) : Fallible ω ν ε (ν op) := ExceptT.lift (Code.perform op)

/-- The value of an option; the code panics without one. -/
def expect : Option α → Fallible ω ν ε α
  | some a => pure a
  | none => ExceptT.mk Code.panicked

/-- The code with its result, the error included. -/
def attempt (x : Fallible ω ν ε α) : Fallible ω ν ε (Except ε α) := ExceptT.lift x.run

/-- The code up to its result. -/
def ignore (x : Fallible ω ν ε α) : Code ω ν Unit := x.run >>= fun _ => pure ()

variable {does : (op : ω) → σ → ν op → σ → Prop} {I : ω → σ → Prop}

def Outcome (Q : α → σ → Prop) (E : ε → σ → Prop) : Except ε α → σ → Prop
  | .ok a, s => Q a s
  | .error e, s => E e s

/-- Every run of the code is in `I` at each pending operation, and ends in `Q` with a value
    or in `E` with an error. -/
def Ensures (does : (op : ω) → σ → ν op → σ → Prop) (I : ω → σ → Prop) (x : Fallible ω ν ε α)
    (Q : α → σ → Prop) (E : ε → σ → Prop) (s : σ) : Prop :=
  x.run.Wp does I (Outcome Q E) s

namespace Ensures
variable {Q : α → σ → Prop} {E : ε → σ → Prop} {s : σ}

protected theorem pure {a : α} (h : Q a s) : Ensures does I (pure a : Fallible ω ν ε α) Q E s := h

protected theorem throw {e : ε} (h : E e s) : Ensures does I (throw e : Fallible ω ν ε α) Q E s := h

theorem mono {x : Fallible ω ν ε α} {Q' : α → σ → Prop} {E' : ε → σ → Prop}
    (h : Ensures does I x Q E s) (hQ : ∀ a s, Q a s → Q' a s) (hE : ∀ e s, E e s → E' e s) :
    Ensures does I x Q' E' s := by
  refine Code.Wp.mono h ?_
  rintro (e | a) s' h'
  · exact hE e s' h'
  · exact hQ a s' h'

theorem andThen {x : Fallible ω ν ε β} {f : β → Fallible ω ν ε α} {R : β → σ → Prop}
    (hx : Ensures does I x R E s) (h : ∀ b s', R b s' → Ensures does I (f b) Q E s') :
    Ensures does I (x >>= f) Q E s := by
  refine Code.Wp.andThen (R := Outcome R E) hx ?_
  rintro (e | b) s' h'
  · exact h'
  · exact h b s' h'

protected theorem perform {op : ω} {Q : ν op → σ → Prop} (hI : I op s)
    (h : ∀ answer s', does op s answer s' → Q answer s') :
    Ensures does I (perform op : Fallible ω ν ε (ν op)) Q E s := by
  refine ⟨hI, ?_⟩
  intro answer s' hdoes
  exact h answer s' hdoes

protected theorem attempt {x : Fallible ω ν ε α} {Q : Except ε α → σ → Prop}
    (h : Ensures does I x (fun a => Q (.ok a)) (fun e => Q (.error e)) s) :
    Ensures does I (attempt x) Q E s := by
  refine Code.Wp.andThen h ?_
  rintro (e | a) s' h'
  · exact h'
  · exact h'

protected theorem ignore {x : Fallible ω ν ε α} {Q : Unit → σ → Prop}
    (h : Ensures does I x (fun _ => Q ()) (fun _ => Q ()) s) : (ignore x).Wp does I Q s := by
  refine Code.Wp.andThen h ?_
  rintro (e | a) s' h'
  · exact h'
  · exact h'

end Ensures

theorem expect_bind {Q : α → σ → Prop} {E : ε → σ → Prop} {s : σ} {o : Option β} {b : β}
    (hb : o = some b) {f : β → Fallible ω ν ε α} (hf : Ensures does I (f b) Q E s) :
    Ensures does I (expect o >>= f) Q E s := by
  subst hb
  exact hf

end Fallible

/-! ## Services -/

/-- Requests and what they run, and what a restart leaves of the state and runs first. -/
structure Service (ω : Type) (ν : ω → Type) (ρ σ : Type) where
  does : (op : ω) → σ → ν op → σ → Prop
  serve : ρ → Code ω ν Unit
  restarts : σ → σ → Code ω ν Unit → Prop

namespace Service
variable {ω : Type} {ν : ω → Type} {ρ σ : Type} {S : Service ω ν ρ σ} {starts : σ → Prop}
  {admits : ρ → σ → Prop}

/-- The state and the code that still has to run, in a run that begins in `starts` and whose
    requests are all in `admits`. -/
inductive Reaches (S : Service ω ν ρ σ) (starts : σ → Prop) (admits : ρ → σ → Prop) :
    σ → Code ω ν Unit → Prop where
  | start {s : σ} (h : starts s) : Reaches S starts admits s (pure ())
  | request {s : σ} (r : ρ) (h : Reaches S starts admits s (pure ())) (hr : admits r s) :
    Reaches S starts admits s (S.serve r)
  | step {s s' : σ} {op : ω} {k : ν op → Code ω ν Unit} {answer : ν op}
    (h : Reaches S starts admits s (.act op k)) (hdoes : S.does op s answer s') :
    Reaches S starts admits s' (k answer)
  | restart {s s' : σ} {code code' : Code ω ν Unit} (h : Reaches S starts admits s code)
    (hrestarts : S.restarts s s' code') : Reaches S starts admits s' code'

/-- **The rule of services**: `P` holds between requests, and `I` at every operation of a
    request or of the startup. -/
theorem Reaches.wp {P : σ → Prop} {I : ω → σ → Prop} {s : σ} {code : Code ω ν Unit}
    (h : Reaches S starts admits s code) (hst : ∀ s, starts s → P s)
    (hserve : ∀ r s, P s → admits r s → (S.serve r).Wp S.does I (fun _ => P) s)
    (hI : ∀ op s, I op s → P s)
    (hrestart : ∀ s s' code, P s → S.restarts s s' code → code.Wp S.does I (fun _ => P) s') :
    code.Wp S.does I (fun _ => P) s := by
  induction h with
  | start h => exact hst _ h
  | request r _ hr ih => exact hserve r _ ih hr
  | step _ hdoes ih => exact ih.2 _ _ hdoes
  | @restart s s' code code' _ hrestarts ih =>
    refine hrestart s s' code' ?_ hrestarts
    cases code with
    | done => exact ih
    | panicked => exact ih.elim
    | act op => exact hI op s ih.1

/-! ## Runs by choices -/

/-- What happens next, with the choices that its operations follow. -/
inductive Stimulus (ρ γ : Type) where
  | request (r : ρ) (choices : List γ)
  | restart (choices : List γ)

section
variable {γ : Type} (S) (handle : γ → (op : ω) → σ → σ × ν op) (reopen : σ → σ × Code ω ν Unit)

/-- The state after the stimuli, the first one first, if each came to its end. -/
def replay : List (Stimulus ρ γ) → σ → Option σ
  | [], s => some s
  | .request r choices :: stimuli, s =>
    let (s, code) := (S.serve r).follow handle choices s
    code.result?.bind fun _ => replay stimuli s
  | .restart choices :: stimuli, s =>
    let (s, code) := reopen s
    let (s, code) := code.follow handle choices s
    code.result?.bind fun _ => replay stimuli s

/-- Every request of the stimuli is admitted where it comes. -/
def Admitted (admits : ρ → σ → Prop) : List (Stimulus ρ γ) → σ → Prop
  | [], _ => True
  | .request r choices :: stimuli, s =>
    admits r s ∧ Admitted admits stimuli ((S.serve r).follow handle choices s).1
  | .restart choices :: stimuli, s =>
    Admitted admits stimuli ((reopen s).2.follow handle choices (reopen s).1).1

variable {S handle reopen}

theorem Reaches.follow (hhandle : ∀ c op s, S.does op s (handle c op s).2 (handle c op s).1)
    {choices : List γ} {s : σ} {code : Code ω ν Unit} (h : Reaches S starts admits s code) :
    Reaches S starts admits (code.follow handle choices s).1 (code.follow handle choices s).2 := by
  induction choices generalizing s code with
  | nil => exact h
  | cons c _ ih =>
    cases code with
    | done => exact ih h
    | panicked => exact ih h
    | act op => exact ih (h.step (hhandle c op s))

theorem Admitted.of_forall (h : ∀ r s, admits r s) (stimuli : List (Stimulus ρ γ)) (s : σ) :
    Admitted S handle reopen admits stimuli s := by
  induction stimuli generalizing s with
  | nil => trivial
  | cons stimulus stimuli ih =>
    cases stimulus with
    | request r => exact ⟨h r s, ih _⟩
    | restart => exact ih _

/-- **A replay is a run**, if its requests are admitted. -/
theorem Reaches.replay (hhandle : ∀ c op s, S.does op s (handle c op s).2 (handle c op s).1)
    (hreopen : ∀ s, S.restarts s (reopen s).1 (reopen s).2) {stimuli : List (Stimulus ρ γ)}
    {s t : σ} (hadmits : Admitted S handle reopen admits stimuli s)
    (h : Reaches S starts admits s (pure ())) (ht : S.replay handle reopen stimuli s = some t) :
    Reaches S starts admits t (pure ()) := by
  induction stimuli generalizing s with
  | nil =>
    cases ht
    exact h
  | cons stimulus stimuli ih =>
    -- what a stimulus ran has come to its end
    have hend : ∀ {s' : σ} {code : Code ω ν Unit}, Reaches S starts admits s' code →
        Admitted S handle reopen admits stimuli s' →
        (code.result?.bind fun _ => S.replay handle reopen stimuli s') = some t →
        Reaches S starts admits t (pure ()) := by
      intro s' code hreach hrest hresl
      obtain ⟨a, ha, hreplay⟩ := Option.bind_eq_some_iff.mp hresl
      rw [Code.eq_done_of_result? ha] at hreach
      exact ih hrest hreach hreplay
    cases stimulus with
    | request r => exact hend ((h.request r hadmits.1).follow hhandle) hadmits.2 ht
    | restart => exact hend ((h.restart (hreopen s)).follow hhandle) hadmits ht

end

end Service

end Lib
