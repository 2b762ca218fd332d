/-
  The notation of addresses and networks without abbreviations, and names in lower
  case.

  An IPv4 address is written as four decimal numbers, an IPv6 address as eight
  hexadecimal groups, both without leading zeros, and a network as its address,
  a slash and the prefix length. `ipnet` reads these texts in the same way; it
  writes IPv4 networks so too, and the IPv6 networks that it does not abbreviate.
-/
import Usque.Core.Names
import Usque.Lib.Text

namespace Usque.Core
open Lib List Nat

/-! ## Numbers -/

def digitValue (c : Char) : ℕ := if c.toNat ≤ 57 then c.toNat - 48 else c.toNat - 87

def readDigits (base : ℕ) (digits : Str) : ℕ :=
  digits.foldl (fun n c => n * base + digitValue c) 0

theorem digitValue_digitChar : ∀ d < 16, digitValue (digitChar d) = d := by decide

theorem readDigits_toDigits {base : ℕ} (hb : 1 < base) (hle : base ≤ 16) (n : ℕ) :
    readDigits base (toDigits base n) = n := by
  induction n using Nat.strong_induction_on with
  | _ n ih =>
    by_cases h : n < base
    · rw [toDigits_of_lt_base h]
      simp [readDigits, digitValue_digitChar n (by omega)]
    · have hlt : n % base < base := mod_lt _ (by omega)
      rw [toDigits_of_base_le hb (by omega), readDigits, foldl_append, ← readDigits,
        ih _ (div_lt_self (by omega) hb)]
      simp only [foldl_cons, foldl_nil, digitValue_digitChar _ (show n % base < 16 by omega)]
      rw [Nat.mul_comm]
      exact div_add_mod n base

theorem mem_toDigits {base n : ℕ} {c : Char} (hb : 1 < base) (hle : base ≤ 16)
    (h : c ∈ toDigits base n) : ∃ d < 16, c = digitChar d := by
  induction n using Nat.strong_induction_on with
  | _ n ih =>
    by_cases hn : n < base
    · rw [toDigits_of_lt_base hn, mem_singleton] at h
      exact ⟨n, by omega, h⟩
    · have hlt : n % base < base := mod_lt _ (by omega)
      rw [toDigits_of_base_le hb (by omega), mem_append, mem_singleton] at h
      rcases h with h | h
      · exact ih _ (div_lt_self (by omega) hb) h
      · exact ⟨_, by omega, h⟩

/-- The numbers that `n` consists of in the base `size`, the first of `count` first. -/
def groups (size count n : ℕ) : List ℕ :=
  (range count).reverse.map fun i => n / size ^ i % size

def join (size : ℕ) (parts : List ℕ) : ℕ := parts.foldl (fun n part => n * size + part) 0

theorem foldl_groups (size count m n : ℕ) :
    (groups size count n).foldl (fun n part => n * size + part) m =
      m * size ^ count + n % size ^ count := by
  induction count generalizing m with
  | zero => simp [groups, mod_one]
  | succ count ih =>
    have hstep : groups size (count + 1) n = n / size ^ count % size :: groups size count n := by
      simp [groups, range_succ]
    rw [hstep, foldl_cons, ih, mod_pow_succ]
    ring

theorem join_groups {size count n : ℕ} (h : n < size ^ count) : join size (groups size count n) = n := by
  rw [join, foldl_groups, Nat.zero_mul, Nat.zero_add, mod_eq_of_lt h]

/-! ## Addresses -/

def showParts (sep : Char) (base size count n : ℕ) : Str :=
  [sep].intercalate ((groups size count n).map (toDigits base))

def readParts (sep : Char) (base size : ℕ) (s : Str) : ℕ :=
  join size ((s.splitOn sep).map (readDigits base))

theorem readParts_showParts {sep : Char} {base size count n : ℕ} (hb : 1 < base) (hle : base ≤ 16)
    (hsep : ∀ d < 16, sep ≠ digitChar d) (hcount : 0 < count) (h : n < size ^ count) :
    readParts sep base size (showParts sep base size count n) = n := by
  have hparts : ∀ part ∈ (groups size count n).map (toDigits base), sep ∉ part := by
    simp only [mem_map, forall_exists_index, and_imp]
    rintro _ g - rfl hmem
    obtain ⟨d, hd, he⟩ := mem_toDigits hb hle hmem
    exact hsep d hd he
  have hne : (groups size count n).map (toDigits base) ≠ [] := by
    simp [groups, hcount.ne']
  rw [readParts, showParts, splitOn_intercalate sep hparts hne, map_map]
  have hid : readDigits base ∘ toDigits base = id := funext (readDigits_toDigits hb hle)
  rw [hid, map_id, join_groups h]

def showAddr : IpAddr → Str
  | .v4 addr => showParts '.' 10 256 4 addr.toNat
  | .v6 addr => showParts ':' 16 65536 8 addr.toNat

def readAddr (s : Str) : Option IpAddr :=
  let addr : IpAddr := if '.' ∈ s then .v4 (BitVec.ofNat 32 (readParts '.' 10 256 s))
    else .v6 (BitVec.ofNat 128 (readParts ':' 16 65536 s))
  if showAddr addr = s then some addr else none

theorem mem_showParts {sep c : Char} {base size count n : ℕ} (hb : 1 < base) (hle : base ≤ 16)
    (h : c ∈ showParts sep base size count n) : c = sep ∨ ∃ d < 16, c = digitChar d := by
  rcases mem_intercalate h with h | ⟨part, hpart, hc⟩
  · exact .inl h
  · obtain ⟨g, -, rfl⟩ := mem_map.1 hpart
    exact .inr (mem_toDigits hb hle hc)

theorem readAddr_showAddr (addr : IpAddr) : readAddr (showAddr addr) = some addr := by
  cases addr with
  | v4 addr =>
    have hdot : '.' ∈ showAddr (.v4 addr) := by
      simp [showAddr, showParts, groups, range_succ, intercalate]
    have hlt : addr.toNat < 256 ^ 4 := addr.isLt
    have hread : readParts '.' 10 256 (showAddr (.v4 addr)) = addr.toNat :=
      readParts_showParts (by decide) (by decide) (by decide) (by decide) hlt
    simp [readAddr, hdot, hread]
  | v6 addr =>
    have hdot : '.' ∉ showAddr (.v6 addr) := by
      intro h
      rcases mem_showParts (by decide) (by decide) h with h | ⟨d, hd, h⟩
      · exact absurd h (by decide)
      · revert d
        decide
    have hlt : addr.toNat < 65536 ^ 8 := addr.isLt
    have hread : readParts ':' 16 65536 (showAddr (.v6 addr)) = addr.toNat :=
      readParts_showParts (by decide) (by decide) (by decide) (by decide) hlt
    simp [readAddr, hdot, hread]

/-! ## Networks -/

def showNet (net : IpNet) : Str :=
  ['/'].intercalate [showAddr net.addr, toDigits 10 net.prefixLen]

def readNet (s : Str) : Option IpNet :=
  match s.splitOn '/' with
  | [addr, len] => do
    let addr ← readAddr addr
    if h : readDigits 10 len ≤ addr.width then
      if toDigits 10 (readDigits 10 len) = len then some ⟨addr, readDigits 10 len, h⟩ else none
    else none
  | _ => none

theorem mem_showAddr {addr : IpAddr} {c : Char} (h : c ∈ showAddr addr) :
    c = '.' ∨ c = ':' ∨ ∃ d < 16, c = digitChar d := by
  cases addr with
  | v4 =>
    rcases mem_showParts (by decide) (by decide) h with h | h
    · exact .inl h
    · exact .inr (.inr h)
  | v6 => exact .inr (mem_showParts (by decide) (by decide) h)

theorem readNet_showNet (net : IpNet) : readNet (showNet net) = some net := by
  have hdigit : ∀ d < 16, '/' ≠ digitChar d := by decide
  have hslash : ∀ part ∈ [showAddr net.addr, toDigits 10 net.prefixLen], '/' ∉ part := by
    simp only [mem_cons, not_mem_nil, or_false, forall_eq_or_imp, forall_eq]
    constructor
    · intro h
      rcases mem_showAddr h with h | h | ⟨d, hd, h⟩
      · exact absurd h (by decide)
      · exact absurd h (by decide)
      · exact hdigit d hd h
    · intro h
      obtain ⟨d, hd, h⟩ := mem_toDigits (by decide) (by decide) h
      exact hdigit d hd h
  have hlen : readDigits 10 (toDigits 10 net.prefixLen) = net.prefixLen :=
    readDigits_toDigits (by decide) (by decide) _
  rw [readNet, showNet, splitOn_intercalate '/' hslash (by simp)]
  simp only [readAddr_showAddr, Option.bind_eq_bind, Option.bind_some, hlen, net.bound, dite_true,
    if_true]

def plainText : Text where
  urlHost name := some (name.map Char.toLower)
  isDnsName _ := true
  parseNet := readNet
  parseAddr := readAddr
  showNet := showNet
  parse_show := readNet_showNet

end Usque.Core
