/-
  Selections by the greatest key: by a maximum, and by a search in sorted order.
  Where no two matches have one key, both find the same element.
-/
import Mathlib.Data.List.Sort

namespace Lib
open List

section
variable {α β : Type}

/-- The last of the elements with the greatest key. -/
def maxByKey (key : α → ℕ) : List α → Option α
  | [] => none
  | a :: l =>
    match maxByKey key l with
    | none => some a
    | some b => if key a ≤ key b then some b else some a

/-- The elements by falling key, those of one key in their order in the list. -/
def sortByKeyReverse (key : α → ℕ) (l : List α) : List α :=
  l.insertionSort fun a b => key b ≤ key a

/-- `a` is the one element with the greatest key among those of `l` with `P`. -/
structure Foremost (key : α → ℕ) (P : α → Prop) (l : List α) (a : α) : Prop where
  mem : a ∈ l
  holds : P a
  beats : ∀ b ∈ l, P b → b ≠ a → key b < key a

variable {key : α → ℕ} {P : α → Prop} {l : List α} {a b : α}

theorem Foremost.unique (ha : Foremost key P l a) (hb : Foremost key P l b) : a = b := by
  by_contra hne
  have hab := ha.beats b hb.mem hb.holds (Ne.symm hne)
  have hba := hb.beats a ha.mem ha.holds hne
  omega

/-- No two elements of `l` with `P` have one key. -/
def KeyInjOn (key : α → ℕ) (P : α → Prop) (l : List α) : Prop :=
  ∀ a ∈ l, ∀ b ∈ l, P a → P b → key a = key b → a = b

theorem Foremost.of_le (hinj : KeyInjOn key P l) (hmem : a ∈ l) (ha : P a)
    (hle : ∀ b ∈ l, P b → key b ≤ key a) : Foremost key P l a := by
  refine ⟨hmem, ha, ?_⟩
  intro b hb hPb hne
  have hkey : key b ≠ key a := fun he => hne (hinj b hb a hmem hPb ha he)
  have := hle b hb hPb
  omega

/-- `r` is the foremost element, if some element has `P`. -/
def Selects (key : α → ℕ) (P : α → Prop) (l : List α) (r : Option α) : Prop :=
  match r with
  | none => ∀ b ∈ l, ¬ P b
  | some a => Foremost key P l a

theorem Selects.unique {r r' : Option α} (h : Selects key P l r) (h' : Selects key P l r') :
    r = r' := by
  cases r with
  | none =>
    cases r' with
    | none => rfl
    | some b => exact absurd h'.holds (h b h'.mem)
  | some a =>
    cases r' with
    | none => exact absurd h.holds (h' a h.mem)
    | some => rw [Foremost.unique h h']

/-- The elements of `l'` with `P'` are the images of those of `l` with `P`, with their keys. -/
structure Image (f : α → β) (key : α → ℕ) (P : α → Prop) (l : List α) (key' : β → ℕ)
    (P' : β → Prop) (l' : List β) : Prop where
  of_mem : ∀ b ∈ l', P' b → ∃ a ∈ l, P a ∧ f a = b
  mem : ∀ a ∈ l, P a → f a ∈ l' ∧ P' (f a)
  key_eq : ∀ a ∈ l, P a → key' (f a) = key a

namespace Image
variable {f : α → β} {key' : β → ℕ} {P' : β → Prop} {m : List β}

theorem keyInjOn (h : Image f key P l key' P' m) (hinj : KeyInjOn key P l) :
    KeyInjOn key' P' m := by
  intro b hb c hc hPb hPc hkey
  obtain ⟨a, ha, hPa, rfl⟩ := h.of_mem b hb hPb
  obtain ⟨a', ha', hPa', rfl⟩ := h.of_mem c hc hPc
  rw [h.key_eq a ha hPa, h.key_eq a' ha' hPa'] at hkey
  rw [hinj a ha a' ha' hPa hPa' hkey]

theorem selects (h : Image f key P l key' P' m) {r : Option α} (hr : Selects key P l r) :
    Selects key' P' m (r.map f) := by
  cases r with
  | none =>
    intro b hb hPb
    obtain ⟨a, ha, hPa, -⟩ := h.of_mem b hb hPb
    exact hr a ha hPa
  | some a =>
    obtain ⟨hmem, hPa, hbeats⟩ := hr
    obtain ⟨hmem', hPa'⟩ := h.mem a hmem hPa
    refine ⟨hmem', hPa', ?_⟩
    intro b hb hPb hne
    obtain ⟨c, hc, hPc, rfl⟩ := h.of_mem b hb hPb
    have hca : c ≠ a := by
      rintro rfl
      exact hne rfl
    rw [h.key_eq c hc hPc, h.key_eq a hmem hPa]
    exact hbeats c hc hPc hca

end Image

theorem maxByKey_spec (key : α → ℕ) (l : List α) : match maxByKey key l with
    | none => l = []
    | some a => a ∈ l ∧ ∀ b ∈ l, key b ≤ key a := by
  induction l with
  | nil => rfl
  | cons x l ih =>
    rw [maxByKey]
    cases h : maxByKey key l with
    | none =>
      rw [h] at ih
      subst ih
      simp
    | some m =>
      rw [h] at ih
      obtain ⟨hm, hle⟩ := ih
      by_cases hx : key x ≤ key m
      · simp only [hx, if_true]
        refine ⟨mem_cons_of_mem _ hm, ?_⟩
        rintro b (_ | ⟨_, hb⟩)
        · exact hx
        · exact hle b hb
      · simp only [hx, if_false]
        refine ⟨mem_cons_self .., ?_⟩
        rintro b (_ | ⟨_, hb⟩)
        · exact le_rfl
        · have := hle b hb
          omega

/-- **The greatest key of the matches.** -/
theorem maxByKey_filter [DecidablePred P] (hinj : KeyInjOn key P l) :
    Selects key P l (maxByKey key (l.filter fun a => P a)) := by
  have hspec := maxByKey_spec key (l.filter fun a => P a)
  cases h : maxByKey key (l.filter fun a => P a) with
  | none =>
    rw [h] at hspec
    intro b hb hP
    have := filter_eq_nil_iff.1 hspec b hb
    simp [hP] at this
  | some =>
    rw [h] at hspec
    obtain ⟨hmem, hle⟩ := hspec
    simp only [mem_filter, decide_eq_true_eq] at hmem hle
    exact .of_le hinj hmem.1 hmem.2 fun b hb hP => hle b ⟨hb, hP⟩

theorem exists_selects (hinj : KeyInjOn key P l) : ∃ r, Selects key P l r := by
  classical
  exact ⟨_, maxByKey_filter hinj⟩

theorem mem_sortByKeyReverse : a ∈ sortByKeyReverse key l ↔ a ∈ l :=
  (perm_insertionSort _ l).mem_iff

/-- **The first match in the order of falling keys.** -/
theorem find_sortByKeyReverse [DecidablePred P] (hinj : KeyInjOn key P l) :
    Selects key P l ((sortByKeyReverse key l).find? fun a => P a) := by
  have hsorted : (sortByKeyReverse key l).Pairwise fun a b => key b ≤ key a := by
    exact pairwise_insertionSort _ l
  cases h : (sortByKeyReverse key l).find? fun a => P a with
  | none =>
    intro b hb hP
    have := find?_eq_none.1 h b (mem_sortByKeyReverse.2 hb)
    simp [hP] at this
  | some a =>
    obtain ⟨hP, before, after, heq, hno⟩ := find?_eq_some_iff_append.1 h
    rw [decide_eq_true_eq] at hP
    have hmem : a ∈ l := by
      apply (@mem_sortByKeyReverse _ key l a).1
      rw [heq]
      simp
    refine .of_le hinj hmem hP ?_
    -- a match does not stand before `a`, so its key is not the greater one
    intro b hb hPb
    have hb : b ∈ sortByKeyReverse key l := mem_sortByKeyReverse.2 hb
    rw [heq] at hb hsorted
    rcases mem_append.1 hb with hb | hb
    · have := hno b hb
      simp [hPb] at this
    · rcases mem_cons.1 hb with rfl | hb
      · exact le_rfl
      · exact (pairwise_cons.1 (pairwise_append.1 hsorted).2.1).1 b hb

end

end Lib
