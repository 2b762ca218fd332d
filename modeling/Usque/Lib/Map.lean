/-
  Finite maps, maps linked to a reverse map, and scan queues.

  A `sweep` is a bounded pass over a queue that drops the expired keys and rotates
  the others to the back.  An `Index` (linked maps, a queue, a limit and a property
  of the entries) is kept by an update, an insertion, a removal and a sweep.
-/
import Mathlib.Combinatorics.Enumerative.DoubleCounting
import Mathlib.Data.Finmap

namespace Lib
open List

abbrev HashMap (κ ν : Type) := Finmap (fun _ : κ => ν)

namespace HashMap
variable {κ ν : Type}

def len (m : HashMap κ ν) : ℕ := m.keys.card

@[simp] theorem len_empty : len (∅ : HashMap κ ν) = 0 := rfl

/-- A map with `n` different keys has at least `n` entries. -/
theorem card_le_len {m : HashMap κ ν} {key : ℕ → κ} {n : ℕ} (h : ∀ i < n, key i ∈ m)
    (hinj : ∀ i < n, ∀ j < n, key i = key j → i = j) : n ≤ m.len := by
  rw [← Finset.card_range n]
  refine Finset.card_le_card_of_injOn key ?_ ?_
  · exact fun i hi => Finmap.mem_keys.2 (h i (Finset.mem_range.1 hi))
  · exact fun i hi j hj => hinj i (Finset.mem_range.1 hi) j (Finset.mem_range.1 hj)

variable [DecidableEq κ]

/-- Update the entry of `k`, if there is one. -/
def modify (m : HashMap κ ν) (k : κ) (f : ν → ν) : HashMap κ ν :=
  match m.lookup k with
  | some v => m.insert k (f v)
  | none => m

section
variable (m : HashMap κ ν)

theorem lookup_insert_eq (k k' : κ) (v : ν) :
    (m.insert k v).lookup k' = if k' = k then some v else m.lookup k' := by
  split_ifs with h
  · subst h; exact Finmap.lookup_insert m
  · exact Finmap.lookup_insert_of_ne m h

theorem lookup_erase_eq (k k' : κ) :
    (m.erase k).lookup k' = if k' = k then none else m.lookup k' := by
  split_ifs with h
  · subst h; exact Finmap.lookup_erase _ m
  · exact Finmap.lookup_erase_ne h

theorem lookup_modify (k k' : κ) (f : ν → ν) :
    (m.modify k f).lookup k' = if k' = k then (m.lookup k').map f else m.lookup k' := by
  unfold modify
  rcases h : m.lookup k with _ | v
  · split_ifs with hk
    · subst hk; simp [h]
    · rfl
  · simp only [lookup_insert_eq]
    split_ifs with hk
    · subst hk; simp [h]
    · rfl

theorem mem_modify (k k' : κ) (f : ν → ν) : k' ∈ m.modify k f ↔ k' ∈ m := by
  simp only [← Finmap.lookup_isSome, lookup_modify]
  split_ifs <;> simp

theorem len_insert_le (k : κ) (v : ν) : len (m.insert k v) ≤ len m + 1 := by
  have : (m.insert k v).keys = insert k m.keys := by ext x; simp [Finmap.mem_keys]
  rw [len, this]; exact Finset.card_insert_le _ _

theorem len_insert_mem {k : κ} (v : ν) (h : k ∈ m) : len (m.insert k v) = len m := by
  have : (m.insert k v).keys = m.keys := by
    ext x; simp only [Finmap.mem_keys, Finmap.mem_insert]
    exact ⟨fun hx => hx.elim (fun e => e ▸ h) id, Or.inr⟩
  rw [len, this, len]

theorem len_erase_le (k : κ) : len (m.erase k) ≤ len m := by
  rw [len, Finmap.keys_erase]; exact Finset.card_erase_le

@[simp] theorem len_modify (k : κ) (f : ν → ν) : len (m.modify k f) = len m := by
  unfold modify
  rcases h : m.lookup k with _ | v
  · rfl
  · exact len_insert_mem m _ (Finmap.mem_of_lookup_eq_some h)

end

def retain (m : HashMap κ ν) (p : κ → ν → Bool) : HashMap κ ν where
  entries := m.entries.filter fun entry => p entry.1 entry.2
  nodupKeys := by
    have hle : (m.entries.filter fun entry => p entry.1 entry.2).keys ≤ m.entries.keys :=
      Multiset.map_le_map (Multiset.filter_le _ _)
    exact Multiset.nodup_keys.1 (Multiset.nodup_of_le hle (Multiset.nodup_keys.2 m.nodupKeys))

theorem lookup_retain {m : HashMap κ ν} {p : κ → ν → Bool} {k : κ} {v : ν} :
    (m.retain p).lookup k = some v ↔ m.lookup k = some v ∧ p k v := by
  rw [Finmap.lookup_eq_some_iff, Finmap.lookup_eq_some_iff]
  exact Multiset.mem_filter

theorem len_retain_le (m : HashMap κ ν) (p : κ → ν → Bool) : len (m.retain p) ≤ len m := by
  refine Finset.card_le_card fun k hk => ?_
  rw [Finmap.mem_keys, ← Finmap.lookup_isSome, Option.isSome_iff_exists] at hk ⊢
  obtain ⟨v, hv⟩ := hk
  exact ⟨v, (lookup_retain.1 hv).1⟩

def Sub (m' m : HashMap κ ν) : Prop := ∀ k v, m'.lookup k = some v → m.lookup k = some v

theorem Sub.refl (m : HashMap κ ν) : Sub m m := fun _ _ h => h

theorem Sub.erase (m : HashMap κ ν) (k : κ) : Sub (m.erase k) m := by
  intro k' v h
  rw [lookup_erase_eq] at h
  split_ifs at h
  exact h

theorem Sub.retain (m : HashMap κ ν) (p : κ → ν → Bool) : Sub (m.retain p) m :=
  fun _ _ h => (lookup_retain.1 h).1

theorem len_erase_of_mem {m : HashMap κ ν} {k : κ} (h : k ∈ m) : len (m.erase k) < len m := by
  rw [len, Finmap.keys_erase]
  exact Finset.card_erase_lt_of_mem (Finmap.mem_keys.2 h)

end HashMap

open HashMap

/-- An order in which the entries of maps are visited. -/
structure Iteration (κ ν : Type) [DecidableEq κ] where
  iter : HashMap κ ν → List (κ × ν)
  mem_iter : ∀ m k v, (k, v) ∈ iter m ↔ m.lookup k = some v

theorem Iteration.nonempty (κ ν : Type) [DecidableEq κ] : Nonempty (Iteration κ ν) := by
  refine ⟨⟨fun m => m.entries.toList.map fun entry => (entry.1, entry.2), fun m k v => ?_⟩⟩
  rw [Finmap.lookup_eq_some_iff, mem_map]
  constructor
  · rintro ⟨⟨k', v'⟩, hmem, heq⟩
    cases heq
    exact Multiset.mem_toList.1 hmem
  · intro hmem
    exact ⟨⟨k, v⟩, Multiset.mem_toList.2 hmem, rfl⟩

section
variable {κ ν : Type}

/-- The queue `q` lists every key of `m` exactly once and nothing else. -/
structure Scanned (m : HashMap κ ν) (q : List κ) : Prop where
  nodup : q.Nodup
  mem_iff : ∀ k, k ∈ q ↔ k ∈ m

namespace Scanned
variable {m : HashMap κ ν} {q : List κ}

theorem empty : Scanned (∅ : HashMap κ ν) [] :=
  ⟨nodup_nil, fun _ => iff_of_false not_mem_nil Finmap.notMem_empty⟩

theorem eq_empty [DecidableEq κ] (h : Scanned m q) (hlen : m.len = 0) : m = ∅ ∧ q = [] := by
  have hmem : ∀ k, k ∉ m := by
    intro k hk
    exact Finset.notMem_empty k (Finset.card_eq_zero.1 hlen ▸ Finmap.mem_keys.2 hk)
  refine ⟨Finmap.ext_lookup fun k => ?_, eq_nil_iff_forall_not_mem.2 fun k hk => ?_⟩
  · rw [Finmap.lookup_empty, Finmap.lookup_eq_none]
    exact hmem k
  · exact hmem k ((h.mem_iff k).1 hk)

theorem perm {q' : List κ} (h : Scanned m q) (hp : q.Perm q') : Scanned m q' :=
  ⟨hp.nodup_iff.1 h.nodup, fun k => by rw [← hp.mem_iff, h.mem_iff]⟩

theorem rotate {k : κ} (h : Scanned m (k :: q)) : Scanned m (q ++ [k]) :=
  h.perm (perm_append_comm.trans (.refl (q ++ [k])))

variable [DecidableEq κ]

theorem insert_fresh {k : κ} (h : Scanned m q) (hk : k ∉ m) (v : ν) :
    Scanned (m.insert k v) (q ++ [k]) := by
  refine ⟨?_, fun k' => ?_⟩
  · rw [nodup_append]
    refine ⟨h.nodup, nodup_singleton k, fun a ha b hb => ?_⟩
    rw [mem_singleton] at hb; subst hb
    rintro rfl; exact hk ((h.mem_iff a).1 ha)
  · rw [mem_append, mem_singleton, h.mem_iff, Finmap.mem_insert]; tauto

theorem insert_mem {k : κ} (h : Scanned m q) (hk : k ∈ m) (v : ν) : Scanned (m.insert k v) q :=
  ⟨h.nodup, fun k' => by
    rw [h.mem_iff, Finmap.mem_insert]
    exact ⟨Or.inr, fun hk' => hk'.elim (fun e => e ▸ hk) id⟩⟩

theorem modify (h : Scanned m q) (k : κ) (f : ν → ν) : Scanned (m.modify k f) q :=
  ⟨h.nodup, fun k' => by rw [h.mem_iff, mem_modify]⟩

theorem erase (h : Scanned m q) (k : κ) : Scanned (m.erase k) (q.filter (· ≠ k)) := by
  refine ⟨h.nodup.filter _, fun k' => ?_⟩
  rw [mem_filter, h.mem_iff]; simp [and_comm]

theorem count (h : Scanned m q) (k : κ) : q.count k = if k ∈ m then 1 else 0 := by
  split_ifs with hk
  · exact count_eq_one_of_mem h.nodup ((h.mem_iff k).2 hk)
  · exact count_eq_zero_of_not_mem fun hq => hk ((h.mem_iff k).1 hq)

theorem erase_head {k : κ} (h : Scanned m (k :: q)) : Scanned (m.erase k) q := by
  have := h.erase k
  have hq : (k :: q).filter (· ≠ k) = q := by
    have hk := (nodup_cons.1 h.nodup).1
    simp only [filter_cons, ne_eq, not_true_eq_false, decide_false, Bool.false_eq_true, if_false]
    exact filter_eq_self.2 fun a ha => by
      simp only [decide_eq_true_eq]; rintro rfl; exact hk ha
  rwa [hq] at this

end Scanned

end

section
variable {κ ν ω ρ : Type} [DecidableEq κ] [DecidableEq ω]

/-- `fwd` and `rev` are mutually inverse, and `q` scans `fwd`. -/
structure Linked (wire : ν → ω) (back : ρ → κ) (fwd : HashMap κ ν) (rev : HashMap ω ρ)
    (q : List κ) : Prop extends Scanned fwd q where
  fwd_rev : ∀ k v, fwd.lookup k = some v → ∃ r, rev.lookup (wire v) = some r ∧ back r = k
  rev_fwd : ∀ w r, rev.lookup w = some r → ∃ v, fwd.lookup (back r) = some v ∧ wire v = w

namespace Linked
variable {wire : ν → ω} {back : ρ → κ} {fwd : HashMap κ ν} {rev : HashMap ω ρ} {q : List κ}

theorem empty : Linked wire back (∅ : HashMap κ ν) (∅ : HashMap ω ρ) [] :=
  ⟨.empty, fun k v h => by simp at h, fun w r h => by simp at h⟩

theorem eq_empty (h : Linked wire back fwd rev q) (hlen : fwd.len = 0) :
    fwd = ∅ ∧ rev = ∅ ∧ q = [] := by
  obtain ⟨hfwd, hq⟩ := h.toScanned.eq_empty hlen
  refine ⟨hfwd, Finmap.ext_lookup fun w => ?_, hq⟩
  cases hr : rev.lookup w with
  | none => rfl
  | some r =>
    obtain ⟨v, hv, -⟩ := h.rev_fwd w r hr
    simp [hfwd] at hv

theorem wire_inj (h : Linked wire back fwd rev q) {k k' : κ} {v v' : ν}
    (hk : fwd.lookup k = some v) (hk' : fwd.lookup k' = some v') (hw : wire v = wire v') :
    k = k' := by
  obtain ⟨r, hr, rfl⟩ := h.fwd_rev k v hk
  obtain ⟨r', hr', rfl⟩ := h.fwd_rev k' v' hk'
  rw [hw, hr'] at hr; cases hr; rfl

theorem rotate {k : κ} (h : Linked wire back fwd rev (k :: q)) :
    Linked wire back fwd rev (q ++ [k]) :=
  ⟨h.toScanned.rotate, h.fwd_rev, h.rev_fwd⟩

/-- Publishing a fresh key under a fresh wire keeps the maps linked. -/
theorem insert (h : Linked wire back fwd rev q) {k : κ} {v : ν} {r : ρ}
    (hk : fwd.lookup k = none) (hw : rev.lookup (wire v) = none) (hr : back r = k) :
    Linked wire back (fwd.insert k v) (rev.insert (wire v) r) (q ++ [k]) := by
  refine ⟨h.toScanned.insert_fresh (Finmap.lookup_eq_none.1 hk) v, fun k' v' hv => ?_,
    fun w r' hr' => ?_⟩
  · rw [lookup_insert_eq] at hv
    split_ifs at hv with e
    · cases hv; exact ⟨r, Finmap.lookup_insert _, by rw [hr, e]⟩
    · obtain ⟨r', h1, h2⟩ := h.fwd_rev k' v' hv
      refine ⟨r', ?_, h2⟩
      rw [lookup_insert_eq, if_neg (fun e' => by rw [e', hw] at h1; cases h1), h1]
  · rw [lookup_insert_eq] at hr'
    split_ifs at hr' with e
    · cases hr'; exact ⟨v, by rw [hr]; exact Finmap.lookup_insert _, e.symm⟩
    · obtain ⟨v', h1, h2⟩ := h.rev_fwd w r' hr'
      refine ⟨v', ?_, h2⟩
      rw [lookup_insert_eq, if_neg (fun e' => by rw [e', hk] at h1; cases h1), h1]

private theorem erase_maps (h : Linked wire back fwd rev q) {k : κ} {v : ν}
    (hk : fwd.lookup k = some v) :
    (∀ k' v', (fwd.erase k).lookup k' = some v' →
      ∃ r, (rev.erase (wire v)).lookup (wire v') = some r ∧ back r = k') ∧
    (∀ w r, (rev.erase (wire v)).lookup w = some r →
      ∃ v', (fwd.erase k).lookup (back r) = some v' ∧ wire v' = w) := by
  constructor
  · intro k' v' hv
    rw [lookup_erase_eq] at hv
    split_ifs at hv with e
    obtain ⟨r, h1, h2⟩ := h.fwd_rev k' v' hv
    refine ⟨r, ?_, h2⟩
    rw [lookup_erase_eq, if_neg (fun e' => e (h.wire_inj hv hk e')), h1]
  · intro w r hr
    rw [lookup_erase_eq] at hr
    split_ifs at hr with e
    obtain ⟨v', h1, h2⟩ := h.rev_fwd w r hr
    refine ⟨v', ?_, h2⟩
    rw [lookup_erase_eq, if_neg (fun e' => e (by rw [e', hk] at h1; cases h1; exact h2.symm)), h1]

/-- Retiring a key removes exactly its entry from both maps and the queue. -/
theorem erase (h : Linked wire back fwd rev q) {k : κ} {v : ν} (hk : fwd.lookup k = some v) :
    Linked wire back (fwd.erase k) (rev.erase (wire v)) (q.filter (· ≠ k)) :=
  ⟨h.toScanned.erase k, (h.erase_maps hk).1, (h.erase_maps hk).2⟩

theorem erase_head {k : κ} {v : ν} (h : Linked wire back fwd rev (k :: q))
    (hk : fwd.lookup k = some v) : Linked wire back (fwd.erase k) (rev.erase (wire v)) q :=
  ⟨h.toScanned.erase_head, (h.erase_maps hk).1, (h.erase_maps hk).2⟩

/-- An update of one entry that keeps its wire keeps the maps linked. -/
theorem touch (h : Linked wire back fwd rev q) {k : κ} {v v' : ν} (hk : fwd.lookup k = some v)
    (hw : wire v' = wire v) : Linked wire back (fwd.insert k v') rev q := by
  have hm := Finmap.mem_of_lookup_eq_some hk
  refine ⟨h.toScanned.insert_mem hm v', fun k' u hu => ?_, fun w r hr => ?_⟩
  · rw [lookup_insert_eq] at hu
    split_ifs at hu with e
    · cases hu; rw [hw, e]; exact h.fwd_rev k v hk
    · exact h.fwd_rev k' u hu
  · obtain ⟨u, h1, h2⟩ := h.rev_fwd w r hr
    rw [lookup_insert_eq]
    split_ifs with e
    · rw [e, hk] at h1; cases h1; exact ⟨v', rfl, by rw [hw, h2]⟩
    · exact ⟨u, h1, h2⟩

theorem len_rev_le (h : Linked wire back fwd rev q) : rev.len ≤ fwd.len := by
  refine Finset.card_le_card_of_forall_subsingleton
    (fun w k => ∃ v, fwd.lookup k = some v ∧ wire v = w) ?_ ?_
  · intro w hw
    obtain ⟨r, hr⟩ := Finmap.mem_iff.1 (Finmap.mem_keys.1 hw)
    obtain ⟨v, hv, hwire⟩ := h.rev_fwd w r hr
    exact ⟨back r, Finmap.mem_keys.2 (Finmap.mem_of_lookup_eq_some hv), v, hv, hwire⟩
  · rintro k - _ ⟨-, v, hv, rfl⟩ _ ⟨-, v', hv', rfl⟩
    rw [Option.some.inj (hv.symm.trans hv')]

end Linked

end

/-! ## Bounded passes over a queue -/

section
variable {κ σ : Type}

/-- `n` rounds over the queue: pop the front key, drop it when it is expired,
    push it to the back otherwise. -/
def sweep (expired : σ → κ → Bool) (remove : κ → σ → σ) : ℕ → List κ → σ → List κ × σ
  | 0, q, s => (q, s)
  | _ + 1, [], s => ([], s)
  | n + 1, k :: q, s =>
    if expired s k then sweep expired remove n q (remove k s)
    else sweep expired remove n (q ++ [k]) s

/-- **The invariant rule of `sweep`**: one rule for a kept key, one for a
    dropped key. -/
theorem sweep_inv {expired : σ → κ → Bool} {remove : κ → σ → σ} {P : List κ → σ → Prop}
    (keep : ∀ k q s, expired s k = false → P (k :: q) s → P (q ++ [k]) s)
    (drop : ∀ k q s, expired s k → P (k :: q) s → P q (remove k s)) :
    ∀ n q s, P q s → P (sweep expired remove n q s).1 (sweep expired remove n q s).2
  | 0, _, _, h => h
  | _ + 1, [], _, h => h
  | n + 1, k :: q, s, h => by
    rcases he : expired s k with _ | _
    · simp only [sweep, he, Bool.false_eq_true, if_false]
      exact sweep_inv keep drop n _ _ (keep k q s he h)
    · simp only [sweep, he, if_true]
      exact sweep_inv keep drop n _ _ (drop k q s he h)

variable {ν : Type}

/-- `m` is `m0` without some entries that are `old`. Of its queue `q`, the keys `todo` are still
    to be looked at, and no key of the rest is old. -/
structure Pass (old : ν → Bool) (m0 : HashMap κ ν) [DecidableEq κ] (todo q : List κ)
    (m : HashMap κ ν) : Prop where
  scanned : Scanned m q
  split : ∃ kept, q = todo ++ kept ∧ ∀ k ∈ kept, (m.lookup k).any old = false
  pruned : ∀ k, m.lookup k = m0.lookup k ∨ (m.lookup k = none ∧ (m0.lookup k).any old = true)

variable [DecidableEq κ] {old : ν → Bool} {m0 m : HashMap κ ν} {todo q : List κ}

theorem Pass.start (h : Scanned m q) : Pass old m q q m :=
  ⟨h, ⟨[], by simp, by simp⟩, fun _ => .inl rfl⟩

theorem Pass.drop {k : κ} (h : Pass old m0 (k :: todo) q m) (hk : (m.lookup k).any old) :
    ∃ q', q = k :: q' ∧ Pass old m0 todo q' (m.erase k) := by
  obtain ⟨hscan, ⟨kept, rfl, hkept⟩, hprune⟩ := h
  refine ⟨_, rfl, hscan.erase_head, ⟨kept, rfl, ?_⟩, ?_⟩
  · intro k' hk'
    rw [lookup_erase_eq]
    split_ifs
    · rfl
    · exact hkept k' hk'
  · intro k'
    rw [lookup_erase_eq]
    split_ifs with hsame
    · subst hsame
      rcases hprune k' with heq | ⟨hnone, -⟩
      · exact .inr ⟨rfl, heq ▸ hk⟩
      · simp [hnone] at hk
    · exact hprune k'

theorem Pass.keep {k : κ} (h : Pass old m0 (k :: todo) q m) (hk : (m.lookup k).any old = false) :
    ∃ q', q = k :: q' ∧ Pass old m0 todo (q' ++ [k]) m := by
  obtain ⟨hscan, ⟨kept, rfl, hkept⟩, hprune⟩ := h
  refine ⟨_, rfl, hscan.rotate, ⟨kept ++ [k], by simp, ?_⟩, hprune⟩
  intro k' hk'
  rcases mem_append.1 hk' with hk' | hk'
  · exact hkept k' hk'
  · rw [mem_singleton.1 hk']
    exact hk

theorem Pass.rotate {k : κ} (h : Pass old m0 [] (k :: q) m) :
    (m.lookup k).any old = false ∧ Pass old m0 [] (q ++ [k]) m := by
  obtain ⟨hscan, ⟨kept, rfl, hkept⟩, hprune⟩ := h
  refine ⟨hkept k mem_cons_self, hscan.rotate, ⟨q ++ [k], rfl, ?_⟩, hprune⟩
  exact fun k' hk' => hkept k' ((perm_append_singleton k q).mem_iff.1 hk')

/-- **A sweep of `n` rounds looks at the next `n` keys.** -/
theorem sweep_pass {view : σ → HashMap κ ν} {remove : κ → σ → σ}
    (hrem : ∀ k s v, (view s).lookup k = some v → view (remove k s) = (view s).erase k)
    (n : ℕ) (s : σ) (h : Pass old m0 todo q (view s)) :
    Pass old m0 (todo.drop n)
      (sweep (fun s k => ((view s).lookup k).any old) remove n q s).1
      (view (sweep (fun s k => ((view s).lookup k).any old) remove n q s).2) := by
  induction n generalizing todo q s with
  | zero => exact h
  | succ n ih =>
    cases todo with
    | nil =>
      cases q with
      | nil => exact h
      | cons =>
        obtain ⟨hk, hrest⟩ := h.rotate
        rw [sweep, hk]
        simpa using ih s hrest
    | cons k =>
      cases hk : ((view s).lookup k).any old with
      | false =>
        obtain ⟨q', rfl, hrest⟩ := h.keep hk
        rw [sweep, hk]
        exact ih s hrest
      | true =>
        obtain ⟨q', rfl, hrest⟩ := h.drop hk
        rw [sweep, hk]
        cases hv : (view s).lookup k with
        | none => simp [hv] at hk
        | some v => exact ih _ (hrem k s v hv ▸ hrest)

/-- A pass of at most `limit` rounds. -/
theorem sweep_bounded (view : σ → HashMap κ ν) (remove : κ → σ → σ)
    (hrem : ∀ k s v, (view s).lookup k = some v → view (remove k s) = (view s).erase k)
    (limit : ℕ) (s : σ) (h : Pass old m0 todo q (view s)) :
    Pass old m0 (todo.drop limit)
      (sweep (fun s k => ((view s).lookup k).any old) remove (min q.length limit) q s).1
      (view (sweep (fun s k => ((view s).lookup k).any old) remove (min q.length limit) q s).2) := by
  have hall := sweep_pass hrem (min q.length limit) s h
  obtain ⟨-, ⟨kept, hq, -⟩, -⟩ := h
  have hle : todo.length ≤ q.length := by simp [hq]
  rcases Nat.le_total q.length limit with hlim | hlim
  · rw [min_eq_left hlim, drop_eq_nil_of_le hle] at hall
    rw [drop_eq_nil_of_le (hle.trans hlim), min_eq_left hlim]
    exact hall
  · rw [min_eq_right hlim] at hall ⊢
    exact hall

/-- Once all keys have been looked at, the old entries are gone and the others are there. -/
theorem Pass.done (h : Pass old m0 todo q m) (htodo : todo = []) (k : κ) :
    m.lookup k = (m0.lookup k).filter fun v => !old v := by
  subst htodo
  obtain ⟨hscan, ⟨kept, rfl, hkept⟩, hprune⟩ := h
  cases hk : m.lookup k with
  | none =>
    rcases hprune k with heq | ⟨-, hold⟩
    · simp [← heq, hk]
    · cases h0 : m0.lookup k with
      | none => rfl
      | some v =>
        have hv : old v := by simpa [h0] using hold
        simp [Option.filter, hv]
  | some v =>
    have hlive := hkept k ((hscan.mem_iff k).2 (Finmap.mem_of_lookup_eq_some hk))
    rcases hprune k with heq | ⟨hnone, -⟩
    · have hv : old v = false := by simpa [hk] using hlive
      simp [← heq, hk, Option.filter, hv]
    · cases hk.symm.trans hnone

theorem Pass.sub (h : Pass old m0 todo q m) : m.Sub m0 := by
  intro k v hv
  rcases h.pruned k with heq | ⟨hnone, -⟩
  · exact heq ▸ hv
  · cases hv.symm.trans hnone

/-- The keys still to be looked at come next, with the entries they had. -/
theorem Pass.ahead (h : Pass old m0 todo q m) :
    (∃ kept, q = todo ++ kept) ∧ ∀ k ∈ todo, m.lookup k = m0.lookup k := by
  obtain ⟨hscan, ⟨kept, rfl, -⟩, hprune⟩ := h
  refine ⟨⟨kept, rfl⟩, fun k hk => (hprune k).resolve_right fun ⟨hnone, _⟩ => ?_⟩
  exact Finmap.lookup_eq_none.1 hnone ((hscan.mem_iff k).1 (mem_append_left _ hk))

end

/-! ## Indexes -/

section
variable {κ ν ω ρ : Type} [DecidableEq κ] [DecidableEq ω]

/-- Linked maps of at most `limit` entries, each of them `Ok`. -/
structure Index (wire : ν → ω) (back : ρ → κ) (Ok : κ → ν → Prop) (limit : ℕ)
    (fwd : HashMap κ ν) (rev : HashMap ω ρ) (q : List κ) : Prop extends
    Linked wire back fwd rev q where
  ok : ∀ k v, fwd.lookup k = some v → Ok k v
  len_le : fwd.len ≤ limit

/-- Remove a key from linked maps. -/
def retire (wire : ν → ω) (k : κ) (s : HashMap κ ν × HashMap ω ρ) : HashMap κ ν × HashMap ω ρ :=
  match s.1.lookup k with
  | some v => (s.1.erase k, s.2.erase (wire v))
  | none => s

theorem retire_fst (wire : ν → ω) (k : κ) (s : HashMap κ ν × HashMap ω ρ) (v : ν)
    (h : s.1.lookup k = some v) : (retire wire k s).1 = s.1.erase k := by
  rw [retire, h]

namespace Index
variable {wire : ν → ω} {back : ρ → κ} {Ok : κ → ν → Prop} {limit : ℕ} {fwd : HashMap κ ν}
  {rev : HashMap ω ρ} {q : List κ}

theorem empty : Index wire back Ok limit (∅ : HashMap κ ν) (∅ : HashMap ω ρ) [] :=
  ⟨.empty, fun k v h => by simp at h, by simp⟩

section
variable (h : Index wire back Ok limit fwd rev q)
include h

theorem touch {k : κ} {v v' : ν} (hk : fwd.lookup k = some v) (hw : wire v' = wire v)
    (hok : Ok k v') : Index wire back Ok limit (fwd.insert k v') rev q := by
  refine ⟨h.toLinked.touch hk hw, fun k' u hu => ?_, ?_⟩
  · rw [lookup_insert_eq] at hu
    split_ifs at hu with e
    · cases hu; rw [e]; exact hok
    · exact h.ok k' u hu
  · rw [len_insert_mem _ _ (Finmap.mem_of_lookup_eq_some hk)]; exact h.len_le

theorem modify (k : κ) {f : ν → ν} (hw : ∀ v, wire (f v) = wire v) (hok : ∀ v, Ok k v → Ok k (f v)) :
    Index wire back Ok limit (fwd.modify k f) rev q := by
  unfold HashMap.modify
  rcases hk : fwd.lookup k with _ | v
  · exact h
  · exact h.touch hk (hw v) (hok v (h.ok k v hk))

theorem insert {k : κ} {v : ν} {r : ρ} (hk : fwd.lookup k = none) (hw : rev.lookup (wire v) = none)
    (hr : back r = k) (hok : Ok k v) (room : fwd.len < limit) :
    Index wire back Ok limit (fwd.insert k v) (rev.insert (wire v) r) (q ++ [k]) := by
  refine ⟨h.toLinked.insert hk hw hr, fun k' u hu => ?_, ?_⟩
  · rw [lookup_insert_eq] at hu
    split_ifs at hu with e
    · cases hu; rw [e]; exact hok
    · exact h.ok k' u hu
  · have := len_insert_le fwd k v; omega

private theorem erase_ok (k : κ) :
    (∀ k' v, (fwd.erase k).lookup k' = some v → Ok k' v) ∧ len (fwd.erase k) ≤ limit := by
  refine ⟨fun k' v hv => ?_, (len_erase_le fwd k).trans h.len_le⟩
  rw [lookup_erase_eq] at hv
  split_ifs at hv
  exact h.ok k' v hv

theorem erase {k : κ} {v : ν} (hk : fwd.lookup k = some v) :
    Index wire back Ok limit (fwd.erase k) (rev.erase (wire v)) (q.filter (· ≠ k)) :=
  ⟨h.toLinked.erase hk, (h.erase_ok k).1, (h.erase_ok k).2⟩

/-- A pass over the queue that retires the old entries keeps the index. -/
theorem sweep (old : ν → Bool) (n : ℕ) :
    Index wire back Ok limit
      (sweep (fun s k => (s.1.lookup k).any old) (retire wire) n q (fwd, rev)).2.1
      (sweep (fun s k => (s.1.lookup k).any old) (retire wire) n q (fwd, rev)).2.2
      (sweep (fun s k => (s.1.lookup k).any old) (retire wire) n q (fwd, rev)).1 := by
  refine sweep_inv (P := fun q s => Index wire back Ok limit s.1 s.2 q) ?_ ?_ n q (fwd, rev) h
  · intro k q s _ hs
    exact ⟨hs.toLinked.rotate, hs.ok, hs.len_le⟩
  · intro k q s he hs
    rcases hv : s.1.lookup k with _ | v
    · rw [hv] at he; cases he
    · rw [retire, hv]
      exact ⟨hs.toLinked.erase_head hv, (hs.erase_ok k).1, (hs.erase_ok k).2⟩

end

end Index

end

end Lib
