/-
  What `validate_routes` accepts.

  The scan compares each route with its successor, and routes of different protocols with
  each other if one of them is for all protocols. `validateRoutes_iff`: that is the condition
  on all pairs of RFC 9484.
-/
import Usque.Protocol.Capsule

namespace Usque.Protocol
open Lib List

namespace IpAddressRange

def Valid (range : IpAddressRange) : Prop :=
  addressFamily range.start = addressFamily range.end ∧
    addressNumber range.start ≤ addressNumber range.end

section
variable (left right : IpAddressRange)

def Before : Prop :=
  addressFamily left.start < addressFamily right.start ∨
    addressFamily left.start = addressFamily right.start ∧
      (left.protocol < right.protocol ∨ left.protocol = right.protocol ∧
        addressNumber left.start ≤ addressNumber right.start)

/-- Some address is in both ranges. -/
def Overlaps : Prop :=
  addressFamily left.start = addressFamily right.start ∧
    ∃ address, addressNumber left.start ≤ address ∧ address ≤ addressNumber left.end ∧
      addressNumber right.start ≤ address ∧ address ≤ addressNumber right.end

/-- Two routes that may not overlap: for one protocol, or one of them for all. -/
def Conflicts : Prop :=
  left.protocol = right.protocol ∨ left.protocol = 0 ∨ right.protocol = 0

/-- The route comes after another one, with all its addresses if the protocol is the same. -/
def Follows : Prop :=
  right.Valid ∧ (addressFamily left.start < addressFamily right.start ∨
    addressFamily left.start = addressFamily right.start ∧
      (left.protocol < right.protocol ∨ left.protocol = right.protocol ∧
        addressNumber left.end < addressNumber right.start))

end

theorem Follows.trans {left middle right : IpAddressRange} (h : left.Follows middle)
    (h' : middle.Follows right) : left.Follows right := by
  obtain ⟨⟨-, hle⟩, h⟩ := h
  obtain ⟨hval, h'⟩ := h'
  refine ⟨hval, ?_⟩
  rcases h with h | ⟨hf, h⟩ <;> rcases h' with h' | ⟨hf', h'⟩
  · exact .inl (UInt8.lt_trans h h')
  · exact .inl (hf' ▸ h)
  · exact .inl (hf ▸ h')
  · refine .inr ⟨hf.trans hf', ?_⟩
    rcases h with h | ⟨hp, h⟩ <;> rcases h' with h' | ⟨hp', h'⟩
    · exact .inl (UInt8.lt_trans h h')
    · exact .inl (hp' ▸ h)
    · exact .inl (hp ▸ h')
    · exact .inr ⟨hp.trans hp', by omega⟩

instance : Trans Follows Follows Follows := ⟨Follows.trans⟩

variable {left right : IpAddressRange}

theorem rangesOverlap_iff (hleft : left.Valid) (hright : right.Valid)
    (hfam : addressFamily left.start = addressFamily right.start) :
    rangesOverlap left right ↔ left.Overlaps right := by
  have hleft := hleft.2
  have hright := hright.2
  simp only [rangesOverlap, Bool.and_eq_true, decide_eq_true_eq, Overlaps, hfam, true_and]
  constructor
  · rintro ⟨h, h'⟩
    exact ⟨max (addressNumber left.start) (addressNumber right.start), by omega⟩
  · rintro ⟨address, h⟩
    omega

/-- Valid routes follow each other if they are in order and, for one protocol, apart. -/
theorem follows_iff (hleft : left.Valid) (hright : right.Valid) :
    left.Follows right ↔
      left.Before right ∧ (left.protocol = right.protocol → ¬left.Overlaps right) := by
  have hl := hleft.2
  have hr := hright.2
  constructor
  · rintro ⟨-, h | ⟨hf, h | ⟨hp, h⟩⟩⟩
    · exact ⟨.inl h, fun _ hc => absurd hc.1 (UInt8.ne_of_lt h)⟩
    · exact ⟨.inr ⟨hf, .inl h⟩, fun hp => absurd hp (UInt8.ne_of_lt h)⟩
    · refine ⟨.inr ⟨hf, .inr ⟨hp, by omega⟩⟩, ?_⟩
      rintro - ⟨-, address, hc⟩
      omega
  · rintro ⟨h | ⟨hf, h | ⟨hp, h⟩⟩, hapart⟩
    · exact ⟨hright, .inl h⟩
    · exact ⟨hright, .inr ⟨hf, .inl h⟩⟩
    · refine ⟨hright, .inr ⟨hf, .inr ⟨hp, ?_⟩⟩⟩
      by_contra hc
      exact hapart hp ⟨hf, addressNumber right.start, by omega⟩

end IpAddressRange

open IpAddressRange

/-! ## The three loops -/

variable {ranges : List IpAddressRange}

theorem validateRanges_eq_ok : validateRanges ranges = .ok () ↔ ∀ range ∈ ranges, range.Valid := by
  induction ranges with
  | nil => simp [validateRanges]
  | cons range ranges ih =>
    rw [validateRanges, forall_mem_cons, ← ih]
    split_ifs with hc
    · simp only [false_iff, not_and, Valid]
      rintro ⟨hf, hle⟩
      rcases hc with hc | hc
      · exact absurd hf hc
      · omega
    · rw [not_or, not_not, not_lt] at hc
      exact ⟨fun h => ⟨hc, h⟩, fun h => h.2⟩

theorem validateOrder_eq_ok (hval : ∀ range ∈ ranges, range.Valid) :
    validateOrder ranges = .ok () ↔ ranges.IsChain Follows := by
  induction ranges with
  | nil => simp [validateOrder]
  | cons left ranges ih =>
    cases ranges with
    | nil => simp [validateOrder]
    | cons right ranges =>
      obtain ⟨-, hval⟩ := forall_mem_cons.mp hval
      rw [isChain_cons_cons, ← ih hval, validateOrder]
      have hright := hval right mem_cons_self
      split_ifs with hc
      · simp only [false_iff, not_and]
        rintro ⟨-, h⟩
        grind
      · refine ⟨fun h => ⟨⟨hright, ?_⟩, h⟩, fun h => h.2⟩
        grind

theorem validateAgainst_eq_ok {left : IpAddressRange} :
    validateAgainst left ranges = .ok () ↔ ∀ right ∈ ranges,
      addressFamily left.start = addressFamily right.start → left.protocol ≠ right.protocol →
      left.protocol = 0 ∨ right.protocol = 0 → rangesOverlap left right = false := by
  induction ranges with
  | nil => simp [validateAgainst]
  | cons right ranges ih =>
    rw [validateAgainst, forall_mem_cons, ← ih]
    split_ifs with hc hoverlap
    · refine ⟨fun h => ⟨?_, h⟩, fun h => h.2⟩
      grind
    · grind
    · grind

theorem validateOverlaps_eq_ok :
    validateOverlaps ranges = .ok () ↔ ranges.Pairwise fun left right =>
      addressFamily left.start = addressFamily right.start → left.protocol ≠ right.protocol →
      left.protocol = 0 ∨ right.protocol = 0 → rangesOverlap left right = false := by
  induction ranges with
  | nil => simp [validateOverlaps]
  | cons _ _ ih => rw [validateOverlaps, seqOk, validateAgainst_eq_ok, ih, pairwise_cons]

/-- **The validity of a route advertisement is global.** -/
theorem validateRoutes_iff (ranges : List IpAddressRange) :
    validateRoutes ranges = .ok () ↔
      (∀ range ∈ ranges, range.Valid) ∧ ranges.Pairwise Before ∧
      ranges.Pairwise fun left right => left.Conflicts right → ¬left.Overlaps right := by
  unfold validateRoutes
  rw [seqOk, seqOk, validateRanges_eq_ok]
  refine and_congr_right fun hvalid => ?_
  rw [validateOrder_eq_ok hvalid, isChain_iff_pairwise, validateOverlaps_eq_ok]
  rw [← pairwise_and_iff, ← pairwise_and_iff]
  refine List.Pairwise.iff_of_mem fun {left right} hleft hright => ?_
  have hl := hvalid left hleft
  have hr := hvalid right hright
  rw [follows_iff hl hr]
  have hoverlap := rangesOverlap_iff hl hr
  constructor
  · rintro ⟨⟨hbefore, hsame⟩, hall⟩
    refine ⟨hbefore, fun hconflicts hc => ?_⟩
    by_cases hp : left.protocol = right.protocol
    · exact hsame hp hc
    · have hfalse := hall hc.1 hp (hconflicts.resolve_left hp)
      rw [(hoverlap hc.1).mpr hc] at hfalse
      cases hfalse
  · rintro ⟨hbefore, hapart⟩
    refine ⟨⟨hbefore, fun hp => hapart (.inl hp)⟩, fun hf _ hzero => ?_⟩
    rw [Bool.eq_false_iff, ne_eq, hoverlap hf]
    exact hapart (.inr hzero)

end Usque.Protocol
