/-
  Maps derived from another map, with one entry for each of its entries.
-/
import Usque.Lib.Map

namespace Lib
open HashMap Finmap Finset

section
variable {κ ν ω ρ : Type} [DecidableEq κ] [DecidableEq ω]

/-- `idx` is the index of `m` under `tag`, with the values `val`. -/
structure Derived (tag : κ → ν → ω) (val : κ → ν → ρ) (m : HashMap κ ν) (idx : HashMap ω ρ) :
    Prop where
  lookup_iff : ∀ w r, idx.lookup w = some r ↔ ∃ k v, m.lookup k = some v ∧ tag k v = w ∧ val k v = r
  tag_inj : ∀ k v k' v', m.lookup k = some v → m.lookup k' = some v' → tag k v = tag k' v' → k = k'

namespace Derived
variable {tag : κ → ν → ω} {val : κ → ν → ρ} {m : HashMap κ ν} {idx : HashMap ω ρ}

theorem empty : Derived tag val (∅ : HashMap κ ν) (∅ : HashMap ω ρ) := by
  constructor
  · intro w r
    simp
  · intro k v k' v' hk
    simp at hk

section
variable (h : Derived tag val m idx)
include h

theorem lookup {k : κ} {v : ν} (hk : m.lookup k = some v) : idx.lookup (tag k v) = some (val k v) :=
  (h.lookup_iff _ _).2 ⟨k, v, hk, rfl, rfl⟩

theorem tag_ne {w : ω} (hw : idx.lookup w = none) {k : κ} {v : ν} (hk : m.lookup k = some v) :
    tag k v ≠ w := by
  rintro rfl
  rw [h.lookup hk] at hw
  cases hw

theorem insert {k : κ} {v : ν} (hk : m.lookup k = none) (hw : idx.lookup (tag k v) = none) :
    Derived tag val (m.insert k v) (idx.insert (tag k v) (val k v)) := by
  constructor
  · intro w r
    rw [lookup_insert_eq]
    constructor
    · intro hr
      split_ifs at hr with e
      · cases hr
        exact ⟨k, v, lookup_insert _, e.symm, rfl⟩
      · obtain ⟨k', v', hk', rfl, rfl⟩ := (h.lookup_iff w r).1 hr
        refine ⟨k', v', ?_, rfl, rfl⟩
        rw [lookup_insert_eq, if_neg, hk']
        rintro rfl
        rw [hk] at hk'
        cases hk'
    · rintro ⟨k', v', hk', rfl, rfl⟩
      rw [lookup_insert_eq] at hk'
      split_ifs at hk' with e
      · cases hk'
        subst e
        rw [if_pos rfl]
      · rw [if_neg (h.tag_ne hw hk'), h.lookup hk']
  · intro k1 v1 k2 v2 h1 h2 htag
    rw [lookup_insert_eq] at h1 h2
    split_ifs at h1 h2 with e1 e2 e2
    · rw [e1, e2]
    · cases h1
      subst e1
      exact absurd htag.symm (h.tag_ne hw h2)
    · cases h2
      subst e2
      exact absurd htag (h.tag_ne hw h1)
    · exact h.tag_inj k1 v1 k2 v2 h1 h2 htag

theorem erase {k : κ} {v : ν} (hk : m.lookup k = some v) :
    Derived tag val (m.erase k) (idx.erase (tag k v)) := by
  constructor
  · intro w r
    rw [lookup_erase_eq]
    constructor
    · intro hr
      split_ifs at hr with e
      obtain ⟨k', v', hk', rfl, rfl⟩ := (h.lookup_iff w r).1 hr
      refine ⟨k', v', ?_, rfl, rfl⟩
      rw [lookup_erase_eq, if_neg, hk']
      rintro rfl
      rw [hk] at hk'
      cases hk'
      exact e rfl
    · rintro ⟨k', v', hk', rfl, rfl⟩
      rw [lookup_erase_eq] at hk'
      split_ifs at hk' with e
      rw [if_neg fun htag => e (h.tag_inj k' v' k v hk' hk htag), h.lookup hk']
  · intro k1 v1 k2 v2 h1 h2
    exact h.tag_inj k1 v1 k2 v2 (Sub.erase m k _ _ h1) (Sub.erase m k _ _ h2)

theorem modify (k : κ) {f : ν → ν} (htag : ∀ k v, tag k (f v) = tag k v)
    (hval : ∀ k v, val k (f v) = val k v) : Derived tag val (m.modify k f) idx := by
  have hback : ∀ k' v', (m.modify k f).lookup k' = some v' →
      ∃ v, m.lookup k' = some v ∧ tag k' v' = tag k' v ∧ val k' v' = val k' v := by
    intro k' v' hv'
    rw [lookup_modify] at hv'
    split_ifs at hv' with e
    · obtain ⟨v, hv, rfl⟩ := Option.map_eq_some_iff.1 hv'
      exact ⟨v, hv, htag k' v, hval k' v⟩
    · exact ⟨v', hv', rfl, rfl⟩
  constructor
  · intro w r
    rw [h.lookup_iff]
    constructor
    · rintro ⟨k', v, hv, rfl, rfl⟩
      refine ⟨k', if k' = k then f v else v, ?_, ?_, ?_⟩
      · rw [lookup_modify, hv]
        split_ifs <;> rfl
      · split_ifs
        · exact htag k' v
        · rfl
      · split_ifs
        · exact hval k' v
        · rfl
    · rintro ⟨k', v', hv', rfl, rfl⟩
      obtain ⟨v, hv, ht, hr⟩ := hback k' v' hv'
      exact ⟨k', v, hv, ht.symm, hr.symm⟩
  · intro k1 v1 k2 v2 h1 h2 heq
    obtain ⟨u1, hu1, ht1, -⟩ := hback k1 v1 h1
    obtain ⟨u2, hu2, ht2, -⟩ := hback k2 v2 h2
    exact h.tag_inj k1 u1 k2 u2 hu1 hu2 (by rw [← ht1, ← ht2, heq])

theorem len_le : idx.len ≤ m.len := by
  -- every key of the index is the tag of a key of the map
  have hsub : idx.keys.map .some ⊆ m.keys.image fun k => (m.lookup k).map (tag k) := by
    intro o ho
    obtain ⟨w, hw, rfl⟩ := mem_map.1 ho
    rw [mem_keys, ← lookup_isSome, Option.isSome_iff_exists] at hw
    obtain ⟨r, hr⟩ := hw
    obtain ⟨k, v, hk, rfl, -⟩ := (h.lookup_iff w r).1 hr
    refine mem_image.2 ⟨k, mem_keys.2 (mem_of_lookup_eq_some hk), ?_⟩
    rw [hk]
    rfl
  calc idx.len = (idx.keys.map .some).card := (card_map _).symm
    _ ≤ (m.keys.image fun k => (m.lookup k).map (tag k)).card := card_le_card hsub
    _ ≤ m.len := card_image_le

end

end Derived

end

/-! ## Counting keys -/

namespace HashMap
variable {κ ν : Type}

def count (p : κ → Bool) (m : HashMap κ ν) : ℕ := (m.keys.filter fun k => p k).card

variable [DecidableEq κ]

theorem keys_insert_eq (m : HashMap κ ν) (k : κ) (v : ν) :
    (m.insert k v).keys = insert k m.keys := by
  ext x
  simp [mem_keys]

theorem keys_modify (m : HashMap κ ν) (k : κ) (f : ν → ν) : (m.modify k f).keys = m.keys := by
  ext x
  rw [mem_keys, mem_keys, mem_modify]

theorem count_insert {p : κ → Bool} {m : HashMap κ ν} {k : κ} (hk : k ∉ m) (v : ν) :
    count p (m.insert k v) = count p m + if p k then 1 else 0 := by
  rw [count, keys_insert_eq, filter_insert]
  split_ifs with hp
  · rw [count]
    simp [mem_keys, hk]
  · rfl

theorem count_erase {p : κ → Bool} {m : HashMap κ ν} {k : κ} (hk : k ∈ m) :
    count p (m.erase k) = count p m - if p k then 1 else 0 := by
  rw [count, keys_erase, filter_erase, count]
  split_ifs with hp
  · simp [mem_keys, hk, hp]
  · simp [hp]

@[simp] theorem count_modify (p : κ → Bool) (m : HashMap κ ν) (k : κ) (f : ν → ν) :
    count p (m.modify k f) = count p m := by
  rw [count, keys_modify, count]

end HashMap

end Lib
