/-
  Reading a byte stream item by item.  A stable reader may be called at any time:
  `Drains.append` continues a drain that waited, `Drains.failed_append` keeps one
  that failed.
-/
import Usque.Lib.Bytes

namespace Lib

variable {ε α : Type}

/-- A reader of a byte stream: an item, nothing yet, or an error; and the bytes left. -/
abbrev Reader (ε α : Type) := Bytes → Except ε (Option α) × Bytes

/-- The calls of a reader until it waits or fails. -/
inductive Drains (p : Reader ε α) : Bytes → List α → Option ε → Bytes → Prop where
  | idle {s s' : Bytes} (h : p s = (.ok none, s')) : Drains p s [] none s'
  | failed {s s' : Bytes} {e : ε} (h : p s = (.error e, s')) : Drains p s [] (some e) s'
  | item {s s' left : Bytes} {a : α} {items : List α} {error : Option ε}
    (h : p s = (.ok (some a), s')) (rest : Drains p s' items error left) :
    Drains p s (a :: items) error left

/-- Some items are taken from the front of a stream. -/
inductive Takes (p : Reader ε α) : Bytes → List α → Bytes → Prop where
  | nil {s : Bytes} : Takes p s [] s
  | item {s s' left : Bytes} {a : α} {items : List α}
    (h : p s = (.ok (some a), s')) (rest : Takes p s' items left) : Takes p s (a :: items) left

/-- Bytes that arrive later change neither an item nor an error. -/
structure Stable (p : Reader ε α) : Prop where
  idle : ∀ {s s'}, p s = (.ok none, s') → s' = s
  stays : ∀ {s s' e}, p s = (.error e, s') → s' = s
  item : ∀ {s s' a} t, p s = (.ok (some a), s') → p (s ++ t) = (.ok (some a), s' ++ t)
  failed : ∀ {s s' e} t, p s = (.error e, s') → p (s ++ t) = (.error e, s' ++ t)

namespace Drains

variable {p : Reader ε α} {s t left left' : Bytes} {items items' : List α} {error error' : Option ε}

/-- **A stream is drained in one way.** -/
theorem unique (h : Drains p s items error left) (h' : Drains p s items' error' left') :
    items = items' ∧ error = error' ∧ left = left' := by
  induction h generalizing items' with
  | idle h =>
    cases h' with
    | idle h' => cases h.symm.trans h'; exact ⟨rfl, rfl, rfl⟩
    | failed h' => cases h.symm.trans h'
    | item h' => cases h.symm.trans h'
  | failed h =>
    cases h' with
    | idle h' => cases h.symm.trans h'
    | failed h' => cases h.symm.trans h'; exact ⟨rfl, rfl, rfl⟩
    | item h' => cases h.symm.trans h'
  | item h _ ih =>
    cases h' with
    | idle h' => cases h.symm.trans h'
    | failed h' => cases h.symm.trans h'
    | item h' rest' =>
      cases h.symm.trans h'
      obtain ⟨rfl, rfl, rfl⟩ := ih rest'
      exact ⟨rfl, rfl, rfl⟩

theorem waits (hp : Stable p) (h : Drains p s items none left) : Drains p left [] none left := by
  generalize hnone : (none : Option ε) = e at h
  induction h with
  | idle h =>
    cases hp.idle h
    exact .idle h
  | failed => cases hnone
  | item _ _ ih => exact ih hnone

/-- **Draining goes on where it waited** when more bytes arrive. -/
theorem append (hp : Stable p) (h : Drains p s items none left)
    (h' : Drains p (left ++ t) items' error left') :
    Drains p (s ++ t) (items ++ items') error left' := by
  generalize hnone : (none : Option ε) = e at h
  induction h with
  | idle h =>
    cases hp.idle h
    exact h'
  | failed => cases hnone
  | item h _ ih => exact .item (hp.item t h) (ih h' hnone)

/-- **A failed drain stays failed** when more bytes arrive. -/
theorem failed_append (hp : Stable p) {e : ε} (h : Drains p s items (some e) left) (t : Bytes) :
    Drains p (s ++ t) items (some e) (left ++ t) := by
  generalize hsome : some e = o at h
  induction h with
  | idle => cases hsome
  | failed h => exact .failed (hp.failed t h)
  | item h _ ih => exact .item (hp.item t h) (ih hsome)

theorem takes (hp : Stable p) (h : Drains p s items error left) : Takes p s items left := by
  induction h with
  | idle h =>
    cases hp.idle h
    exact .nil
  | failed h =>
    cases hp.stays h
    exact .nil
  | item h _ ih => exact .item h ih

end Drains

/-- Items are taken one after the other. -/
theorem Takes.append {p : Reader ε α} (hp : Stable p) {s t left left' : Bytes}
    {items items' : List α} (h : Takes p s items left) (h' : Takes p (left ++ t) items' left') :
    Takes p (s ++ t) (items ++ items') left' := by
  induction h with
  | nil => exact h'
  | item h _ ih => exact .item (hp.item t h) (ih h')

theorem Takes.drains {p : Reader ε α} {s left left' : Bytes} {items items' : List α}
    {error : Option ε} (h : Takes p s items left) (h' : Drains p left items' error left') :
    Drains p s (items ++ items') error left' := by
  induction h with
  | nil => exact h'
  | item h _ ih => exact .item h (ih h')

end Lib
