/-
  Histories of events, the last one first, and write-ahead discipline in them.

  `WriteAhead.covered`: if an effect is only started when the last save records it,
  and a save records every outstanding effect, then so does the last save after
  every event.
-/
import Mathlib.Data.List.Basic

namespace Lib
open List

section
variable {ε μ ι : Type}

/-- Every event of the history meets the rule `R` with the events before it. -/
def Always (R : ε → List ε → Prop) : List ε → Prop
  | [] => True
  | e :: h => R e h ∧ Always R h

theorem Always.suffix {R : ε → List ε → Prop} {h h' : List ε} (hs : h' <:+ h) (ha : Always R h) :
    Always R h' := by
  obtain ⟨l, rfl⟩ := hs
  induction l with
  | nil => exact ha
  | cons e l ih => exact ih ha.2

/-- What the events of a history start, undo and save. -/
structure WriteAhead (ε μ ι : Type) where
  issued : ε → Option μ
  undoes : ε → μ → Bool
  saved : ε → Option ι

namespace WriteAhead
variable (W : WriteAhead ε μ ι)

/-- The effects that are started and not undone since. -/
def outstanding : List ε → List μ
  | [] => []
  | e :: h => (W.issued e).toList ++ (outstanding h).filter fun m => !W.undoes e m

/-- The last thing saved; `init` before the first save. -/
def lastSaved (init : ι) : List ε → ι
  | [] => init
  | e :: h => (W.saved e).getD (lastSaved init h)

variable {W} {init : ι} {records : ι → μ → Prop} {waived : List ε → μ → Prop}

/-- The discipline at one event: what starts is recorded before, what is saved
    records everything outstanding. -/
structure Disciplined (W : WriteAhead ε μ ι) (init : ι) (records : ι → μ → Prop)
    (waived : List ε → μ → Prop) (e : ε) (h : List ε) : Prop where
  issued : ∀ m, W.issued e = some m → W.saved e = none ∧ records (W.lastSaved init h) m
  saved : ∀ j, W.saved e = some j → ∀ m ∈ W.outstanding h, waived h m ∨ records j m

/-- **Write-ahead coverage.** -/
theorem covered (hw : ∀ e h m, W.issued e ≠ some m → waived h m → waived (e :: h) m) {h : List ε}
    (ha : Always (Disciplined W init records waived) h) :
    ∀ m ∈ W.outstanding h, waived h m ∨ records (W.lastSaved init h) m := by
  induction h with
  | nil => exact fun m hm => absurd hm (not_mem_nil)
  | cons e h ih =>
    obtain ⟨hd, ha⟩ := ha
    intro m hm
    by_cases hi : W.issued e = some m
    · obtain ⟨hs, hr⟩ := hd.issued m hi
      right
      rwa [lastSaved, hs]
    · have hm : m ∈ W.outstanding h := by
        rcases mem_append.1 hm with hm | hm
        · exact absurd (Option.mem_toList.1 hm) hi
        · exact (mem_filter.1 hm).1
      cases hs : W.saved e with
      | none =>
        rw [lastSaved, hs]
        exact (ih ha m hm).imp_left (hw e h m hi)
      | some j =>
        rw [lastSaved, hs]
        exact (hd.saved j hs m hm).imp_left (hw e h m hi)

end WriteAhead

end

end Lib
