/-
  The identifiers that the mux table allocates: both scans find a free one.
-/
import Usque.PacketMux.Consistent

namespace Usque.PacketMux
open Lib PacketMuxTable Nat

variable {t : PacketMuxTable} {id : UInt16} {i : ℕ}

/-! ## Flows -/

theorem advanceId_toNat (h : 49152 ≤ id.toNat) :
    (advanceId id).toNat = 49152 + (id.toNat - 49152 + 1) % 16384 := by
  have hlt := id.toNat_lt
  unfold advanceId
  split_ifs with hlast
  · rw [hlast]
    decide
  · have hne : id.toNat ≠ 65535 := fun heq => hlast (UInt16.toNat_inj.1 heq)
    rw [UInt16.toNat_add, UInt16.toNat_one]
    omega

theorem iterate_advanceId (h : 49152 ≤ id.toNat) (i : ℕ) :
    (advanceId^[i] id).toNat = 49152 + (id.toNat - 49152 + i) % 16384 := by
  induction i generalizing id with
  | zero =>
    have hlt := id.toNat_lt
    rw [Function.iterate_zero_apply]
    omega
  | succ i ih =>
    have hnext := advanceId_toNat h
    rw [Function.iterate_succ_apply, ih (by omega), hnext]
    omega

/-! ## Fragments -/

/-- `allocate_fragment_identifier` with overflow checks: `none` is the panic of
    `self.next_fragment_id + 1`. -/
def allocateFragmentIdentifierCheckedLoop (template : FragmentKey) :
    ℕ → PacketMuxTable → Option (PacketMuxTable × Option UInt32)
  | 0, t => some (t, none)
  | rounds + 1, t =>
    if template.identifierWidth = 2 ∧ 2 ^ 32 ≤ t.nextFragmentId.toNat + 1 then none else
      let candidate := advanceFragmentId template.identifierWidth t.nextFragmentId
      let t := { t with nextFragmentId := candidate }
      if { template with identifier := candidate } ∉ t.wireFragments then some (t, some candidate)
      else allocateFragmentIdentifierCheckedLoop template rounds t

def PacketMuxTable.allocateFragmentIdentifierChecked (t : PacketMuxTable) (template : FragmentKey) :
    Option (PacketMuxTable × Option UInt32) :=
  allocateFragmentIdentifierCheckedLoop template
    (if template.identifierWidth = 2 then 65535 else 65536) t

/-- How many identifications the width has. -/
def identifications (width : UInt8) : ℕ := if width = 2 then 2 ^ 16 else 2 ^ 32

variable {width : UInt8} {start : UInt32}

theorem advanceFragmentId_toNat :
    (advanceFragmentId width start).toNat = (start.toNat + 1) % identifications width := by
  unfold advanceFragmentId identifications
  split_ifs
  · rw [UInt32.toNat_and, UInt32.toNat_add]
    refine (and_two_pow_sub_one_eq_mod _ 16).trans ?_
    exact mod_mod_of_dvd _ (by decide)
  · rw [UInt32.toNat_add]
    rfl

theorem fragmentCandidate_toNat (n : ℕ) :
    (fragmentCandidate width start n).toNat = (start.toNat + 1 + n) % identifications width := by
  induction n generalizing start with
  | zero => exact advanceFragmentId_toNat
  | succ n ih =>
    rw [fragmentCandidate, ih, advanceFragmentId_toNat, Nat.add_assoc, mod_add_mod]
    congr 1
    omega

theorem allocateFragmentIdentifierCheckedLoop_eq {template : FragmentKey} (rounds : ℕ)
    (h : template.identifierWidth = 2 → t.nextFragmentId.toNat + 1 < 2 ^ 32) :
    allocateFragmentIdentifierCheckedLoop template rounds t =
      some (allocateFragmentIdentifierLoop template rounds t) := by
  induction rounds generalizing t with
  | zero => rfl
  | succ rounds ih =>
    rw [allocateFragmentIdentifierCheckedLoop, allocateFragmentIdentifierLoop,
      if_neg fun hover => by have := h hover.1; omega]
    dsimp only
    split_ifs
    · refine ih fun hw => ?_
      -- after one round the cursor has sixteen bits
      rw [advanceFragmentId_toNat, hw, identifications, if_pos rfl]
      omega
    · rfl

theorem allocateFragmentIdentifier_isSome {template : FragmentKey}
    (h : t.wireFragments.len < 65535) : (t.allocateFragmentIdentifier template).2 ≠ none := by
  intro hnone
  obtain ⟨-, -, -, htaken⟩ := allocateFragmentIdentifierLoop_spec template _ t
  have hcount := HashMap.card_le_len (htaken hnone) fun i hi j hj heq => by
    have hid := congrArg UInt32.toNat (FragmentKey.mk.inj heq).2.2.2.1
    rw [fragmentCandidate_toNat, fragmentCandidate_toNat] at hid
    have hmod := Nat.ModEq.add_left_cancel' _ hid
    unfold Nat.ModEq identifications at hmod
    split_ifs at hmod hi hj <;> omega
  split_ifs at hcount <;> omega

/-- **Allocation is complete**, but for the overflow at the last cursor.  A history of
    allocations moves only the cursor of the fragments, which is any value here. -/
theorem identifiers_allocated (t : PacketMuxTable) :
    (∀ template, 49152 ≤ t.nextId.toNat →
      ((t.allocateIdentifier template).2 = none ↔
        ∀ id : UInt16, 49152 ≤ id.toNat → { template with localId := id } ∈ t.reverse) ∧
      ∀ id, (t.allocateIdentifier template).2 = some id →
        49152 ≤ id.toNat ∧ { template with localId := id } ∉ t.reverse) ∧
    (Reachable t → t.outgoingFragments.len < 65535 → ∀ (cursor : UInt32) template,
      (∃ after id, allocateFragmentIdentifierChecked { t with nextFragmentId := cursor } template =
          some (after, some id) ∧
        { template with identifier := id } ∉ t.wireFragments ∧
        (template.identifierWidth = 2 → id.toNat < 2 ^ 16)) ↔
      (template.identifierWidth = 2 → cursor.toNat + 1 < 2 ^ 32)) := by
  refine ⟨fun template hcursor => ?_, ?_⟩
  · obtain ⟨-, -, hsome, hnone⟩ := allocateIdentifierLoop_spec template 16384 t
    rw [← allocateIdentifier] at hsome hnone
    rcases hres : (t.allocateIdentifier template).2 with _ | id
    · refine ⟨⟨fun _ id hid => ?_, fun _ => rfl⟩, fun _ hid => by cases hid⟩
      -- the round in which the cursor stands at `id`
      have hround := hnone hres ((id.toNat + 16384 - t.nextId.toNat) % 16384)
        (Nat.mod_lt _ (by decide))
      have hat : advanceId^[(id.toNat + 16384 - t.nextId.toNat) % 16384] t.nextId = id := by
        apply UInt16.toNat_inj.1
        rw [iterate_advanceId hcursor]
        have := id.toNat_lt
        have := t.nextId.toNat_lt
        omega
      rwa [hat] at hround
    · obtain ⟨hfree, i, hi⟩ := hsome id hres
      have hrange : 49152 ≤ id.toNat := by
        rw [hi, iterate_advanceId hcursor]
        omega
      refine ⟨⟨fun hno => (by cases hno), fun hall => absurd (hall id hrange) hfree⟩, ?_⟩
      rintro _ ⟨⟩
      exact ⟨hrange, hfree⟩
  · intro ht hlive cursor template
    constructor
    · rintro ⟨after, id, hsome, -⟩ hw
      by_contra hmax
      rw [allocateFragmentIdentifierChecked, if_pos hw, allocateFragmentIdentifierCheckedLoop,
        if_pos ⟨hw, not_lt.1 hmax⟩] at hsome
      cases hsome
    intro hcursor
    have hlen : t.wireFragments.len < 65535 := ht.consistent.outgoing.len_rev_le.trans_lt hlive
    set moved := { t with nextFragmentId := cursor }
    obtain ⟨id, hid⟩ := Option.ne_none_iff_exists'.1
      (@allocateFragmentIdentifier_isSome moved template hlen)
    obtain ⟨-, -, hspec, -⟩ := allocateFragmentIdentifierLoop_spec template _ moved
    obtain ⟨i, rfl, hfree, -⟩ := hspec id hid
    refine ⟨(moved.allocateFragmentIdentifier template).1, _, ?_, hfree, fun hw => ?_⟩
    · rw [allocateFragmentIdentifierChecked, allocateFragmentIdentifierCheckedLoop_eq _ hcursor]
      exact congrArg some (Prod.ext rfl hid)
    · rw [fragmentCandidate_toNat, hw, identifications, if_pos rfl]
      omega

theorem identifiers_allocated_new :
    Reachable (.withTrafficPolicy false 0) ∧
      (allocateIdentifier (.withTrafficPolicy false 0) ⟨17, .v4 1, 0, .v4 2, 53⟩).2 ≠ none ∧
      ∃ after id, allocateFragmentIdentifierChecked
        { withTrafficPolicy false 0 with nextFragmentId := 0xFFFFFFFE } ⟨.v4 1, .v4 2, 17, 0, 4, 2⟩ =
          some (after, some id) ∧ id.toNat < 2 ^ 16 := by
  obtain ⟨hflows, hfragments⟩ := identifiers_allocated (.withTrafficPolicy false 0)
  refine ⟨.new false 0, fun hnone => ?_, ?_⟩
  · exact absurd ((hflows _ (by decide)).1.1 hnone 49152 (by decide)) Finmap.notMem_empty
  · obtain ⟨after, id, heq, -, hid⟩ :=
      (hfragments (.new false 0) (by decide) 0xFFFFFFFE ⟨.v4 1, .v4 2, 17, 0, 4, 2⟩).2 (by decide)
    exact ⟨after, id, heq, hid rfl⟩

def wideKey : FragmentKey := ⟨.v6 0, .v6 0, 17, 0, 44, 4⟩

/-- The table after an IPv6 fragment. -/
def PacketMuxTable.wide (t : PacketMuxTable) : PacketMuxTable :=
  (t.allocateFragmentIdentifier wideKey).1

theorem iterate_wide (h : t.wireFragments = ∅) (n : ℕ) :
    (wide^[n] t).nextFragmentId.toNat = (t.nextFragmentId.toNat + n) % 2 ^ 32 := by
  induction n generalizing t with
  | zero => exact (mod_eq_of_lt t.nextFragmentId.toNat_lt).symm
  | succ n ih =>
    have hwide : t.wide = { t with nextFragmentId := t.nextFragmentId + 1 } := by
      rw [wide, allocateFragmentIdentifier, if_neg (by decide), allocateFragmentIdentifierLoop]
      exact congrArg Prod.fst (if_pos (h ▸ Finmap.notMem_empty))
    rw [Function.iterate_succ_apply, hwide, @ih { t with nextFragmentId := t.nextFragmentId + 1 } h,
      UInt32.toNat_add, mod_add_mod, Nat.add_assoc, Nat.add_comm n]
    rfl

/-- The cursor of a new table reaches `u32::MAX` after `2 ^ 31 - 1` IPv6 fragments; the
    addition for an IPv4 fragment then overflows. -/
theorem fragment_cursor_overflows : Reachable (.withTrafficPolicy false 0) ∧
    (wide^[2147483647] (.withTrafficPolicy false 0)).allocateFragmentIdentifierChecked
      ⟨.v4 0, .v4 0, 17, 0, 4, 2⟩ = none := by
  refine ⟨.new false 0, ?_⟩
  have hcursor := @iterate_wide (.withTrafficPolicy false 0) rfl 2147483647
  generalize wide^[2147483647] _ = t at hcursor
  rw [allocateFragmentIdentifierChecked, if_pos rfl, allocateFragmentIdentifierCheckedLoop,
    if_pos ⟨rfl, hcursor ▸ by decide⟩]

end Usque.PacketMux
