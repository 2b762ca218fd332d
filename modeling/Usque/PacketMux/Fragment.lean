/-
  The identification of a fragment in its header.
-/
import Usque.PacketMux.Rewrite

namespace Usque.PacketMux
open Lib List Option

variable {p : Bytes} {n : NetworkPacket} {k : FragmentKey}

/-! ## Places -/

/-- The key of a fragment is read from its header: an IPv4 one has a 16-bit
    identification at 4, an IPv6 one a 32-bit identification in the header chain. -/
inductive FragmentPlace (p : Bytes) (n : NetworkPacket) (k : FragmentKey) : Prop where
  | v4 (id : UInt16) (hid : readU16 p 4 = some id)
    (hk : k = ⟨n.source, n.destination, n.protocol, id.toUInt32, 4, 2⟩) (hlen : 20 ≤ p.length)
    (hoff : ∀ off, n.transportOffset = some off → 20 ≤ off)
  | v6 (hw : k.identifierWidth = 4) (hs : k.source = n.source)
    (hd : k.destination = n.destination)
    (hid : readU32 p k.identifierOffset = some k.identifier)
    (hoff : ∀ off, n.transportOffset = some off → k.identifierOffset + 4 ≤ off)

variable {s d : IpAddr}

variable {rounds : ℕ} {protocol : UInt8} {offset : ℕ} {fragment : Option FragmentKey}

/-- The fragment key at the end of a header chain was there at its start, or is
    read inside it. -/
theorem Chain.key (h : Chain p s d n rounds protocol offset fragment) (hk : n.fragment = some k) :
    n.source = s ∧ n.destination = d ∧
    (fragment = some k ∨
      (k.identifierWidth = 4 ∧ k.source = s ∧ k.destination = d ∧ offset + 4 ≤ k.identifierOffset ∧
        readU32 p k.identifierOffset = some k.identifier ∧
        ∀ off, n.transportOffset = some off → k.identifierOffset + 4 ≤ off)) := by
  induction h with
  | last _ hn =>
    subst hn
    exact ⟨rfl, rfl, .inl hk⟩
  | skipped hp hnext hlen hle h ih =>
    obtain ⟨h1, h2, h3⟩ := ih
    refine ⟨h1, h2, h3.imp_right ?_⟩
    rintro ⟨h4, h5, h6, h7, h9⟩
    exact ⟨h4, h5, h6, by omega, h9⟩
  | first hf h ih =>
    obtain ⟨h1, h2, h3⟩ := ih
    refine ⟨h1, h2, .inr ?_⟩
    rcases h3 with h3 | ⟨h4, h5, h6, h7, h9⟩
    · cases h3
      exact ⟨rfl, rfl, rfl, le_rfl, hf.id, fun off ho => (h.le ho).1⟩
    · exact ⟨h4, h5, h6, by omega, h9⟩
  | later hf _ hn =>
    subst hn
    cases hk
    exact ⟨rfl, rfl, .inr ⟨rfl, rfl, rfl, le_rfl, hf.id, nofun⟩⟩

theorem parseIpv4_fragment (h : parseIpv4 p = some n) (hk : n.fragment = some k) :
    ∃ id, readU16 p 4 = some id ∧
      k = ⟨n.source, n.destination, n.protocol, id.toUInt32, 4, 2⟩ ∧ 20 ≤ p.length ∧
      ∀ off, n.transportOffset = some off → 20 ≤ off := by
  rw [parseIpv4] at h
  dsimp only at h
  split_ifs at h with hhdr
  have h8 : 6 + 2 ≤ p.length := by omega
  have h6 : 4 + 2 ≤ p.length := by omega
  obtain ⟨flags, hf⟩ := readU16_isSome h8
  obtain ⟨id, hid⟩ := readU16_isSome h6
  simp only [hf, hid, bind, bind_some, pure, some.injEq, getD_some] at h
  subst h
  dsimp only at hk
  split_ifs at hk
  cases hk
  refine ⟨id, hid, rfl, by omega, fun off ho => ?_⟩
  split_ifs at ho
  cases ho
  omega

/-- **The place of a fragment's identification.** -/
theorem fragment_places (h : parseNetworkPacket p = some n) (hk : n.fragment = some k) :
    FragmentPlace p n k := by
  rw [parseNetworkPacket] at h
  simp only [bind, bind_eq_some_iff] at h
  obtain ⟨first, -, h⟩ := h
  split_ifs at h
  · obtain ⟨id, hid, hkey, hlen, hoff⟩ := parseIpv4_fragment h hk
    exact .v4 id hid hkey hlen hoff
  · rw [parseIpv6] at h
    split_ifs at h
    obtain ⟨h1, h2, h3⟩ := (chain_of_ipv6Chain h).key hk
    rcases h3 with h3 | ⟨h4, h5, h6, -, h7, h8⟩
    · cases h3
    · exact .v6 h4 (h5.trans h1.symm) (h6.trans h2.symm) h7 h8

/-! ## Rewriting the identification -/

theorem rewriteFragment_v4 (hw : k.identifierWidth = 2) (ho : k.identifierOffset = 4)
    (hlen : 20 ≤ p.length) (id : UInt32) :
    SameExcept p (rewriteFragmentIdentifier p k id) [4, 10] ∧
    readU16 (rewriteFragmentIdentifier p k id) 4 = some id.toUInt16 ∧
    ResidueKept p (rewriteFragmentIdentifier p k id) 0 [4, 10] := by
  have h6 : 4 + 2 ≤ p.length := by omega
  have h12 : 10 + 2 ≤ p.length := by omega
  obtain ⟨old, hold⟩ := readU16_isSome h6
  obtain ⟨ck, hck⟩ := readU16_isSome h12
  simp only [rewriteFragmentIdentifier, if_pos hw, ho, hold, hck]
  refine ⟨?_, ?_, fun len hl => ?_⟩
  · exact ((SameExcept.refl p [4, 10]).writeU16 (by simp) _).writeU16 (by simp) _
  · rw [readU16_writeU16_ne _ _ (by omega), readU16_writeU16 _ h6]
  · have h2 := hl 10 (by simp)
    have hold' : readU16 p (0 + 2 * 2) = some old := hold
    have hck' : readU16 p (0 + 2 * 5) = some ck := hck
    exact residue_update id.toUInt16 hold' hck' (by omega) (by omega) (by omega)

variable {id : UInt32}

theorem parseIpv4_rewriteFragment (h : parseIpv4 p = some n) (hk : n.fragment = some k)
    (hid : id.toNat < 65536) :
    parseIpv4 (rewriteFragmentIdentifier p k id) =
      some { n with fragment := some { k with identifier := id } } := by
  obtain ⟨old, hold, hkey, hlen, -⟩ := parseIpv4_fragment h hk
  subst hkey
  obtain ⟨⟨hl, hsame⟩, hread, -⟩ := @rewriteFragment_v4 p
    ⟨n.source, n.destination, n.protocol, old.toUInt32, 4, 2⟩ rfl rfl hlen id
  generalize rewriteFragmentIdentifier p _ id = p' at hl hsame hread ⊢
  simp only [mem_cons, not_mem_nil, or_false, forall_eq_or_imp, forall_eq] at hsame
  have hget : ∀ i, i ≠ 4 → i ≠ 5 → i ≠ 10 → i ≠ 11 → p'.getD i 0 = p.getD i 0 := by
    intro i h4 h5 h10 h11
    rw [getD_eq_getElem?_getD, getD_eq_getElem?_getD, hsame i ⟨⟨h4, h5⟩, h10, h11⟩]
  rw [parseIpv4] at h ⊢
  by_cases h20 : p.length < 20
  · rw [if_pos h20] at h; cases h
  rw [if_neg h20] at h
  rw [hl, if_neg h20, hget 0 (by omega) (by omega) (by omega) (by omega)]
  by_cases hh : (p.getD 0 0 &&& 0x0f).toNat * 4 < 20 ∨ p.length < (p.getD 0 0 &&& 0x0f).toNat * 4
  · rw [if_pos hh] at h; cases h
  rw [if_neg hh] at h ⊢
  have hflags : readU16 p' 6 = readU16 p 6 :=
    readU16_congr fun i h1 h2 => hsame i ⟨⟨by omega, by omega⟩, by omega, by omega⟩
  rw [hflags]
  have h8 : 6 + 2 ≤ p.length := by omega
  obtain ⟨flags, hf⟩ := readU16_isSome h8
  simp only [hf, hold, bind, bind_some, pure, some.injEq] at h
  subst h
  dsimp only at hk
  split_ifs at hk with hfrag
  simp only [hf, hread, bind, bind_some, pure, getD_some, if_pos hfrag]
  rw [slice_congr fun i h1 h2 => hsame i ⟨⟨by omega, by omega⟩, by omega, by omega⟩,
    slice_congr fun i h1 h2 => hsame i ⟨⟨by omega, by omega⟩, by omega, by omega⟩,
    hget 9 (by omega) (by omega) (by omega) (by omega)]
  have hround : id.toUInt16.toUInt32 = id := by
    apply UInt32.toNat_inj.1
    rw [UInt16.toNat_toUInt32, UInt32.toNat_toUInt16]
    omega
  rw [hround]

/-- The header chain of a packet whose identification at the place of `k` is
    rewritten ends in the same way, with the new key. -/
theorem Chain.rewriteFragment (h : Chain p s d n rounds protocol offset fragment)
    (hk : n.fragment = some k)
    (hread : readU32 (writeU32 p k.identifierOffset id) k.identifierOffset = some id)
    -- a key found so far stands before the current header
    (hacc : ∀ k0, fragment = some k0 → k0.identifierOffset + 4 ≤ offset) :
    Chain (writeU32 p k.identifierOffset id) s d
      { n with fragment := some { k with identifier := id } } rounds protocol offset
      (fragment.map fun k0 => if k0 = k then { k with identifier := id } else k0) := by
  have hfar : ∀ i, i < k.identifierOffset ∨ k.identifierOffset + 4 ≤ i →
      (writeU32 p k.identifierOffset id)[i]? = p[i]? := fun i hi => getElem?_writeU32 p id hi
  induction h with
  | last hp hn =>
    subst hn
    cases hk
    exact .last hp (by rw [map_some, if_pos rfl])
  | @skipped _ protocol offset _ _ len hp hnext hlen hle h ih =>
    have hpos : k.identifierOffset + 4 ≤ offset ∨ offset + 4 ≤ k.identifierOffset := by
      rcases (h.key hk).2.2 with ht | ht
      · exact .inl (hacc k ht)
      · omega
    exact .skipped hp (by rw [hfar _ (by omega), hnext]) (by rw [hfar _ (by omega), hlen])
      (by rwa [length_writeU32]) (ih fun k0 hk0 => by have := hacc k0 hk0; omega)
  | @first _ offset _ next old hf h ih =>
    have hrest := ih fun k0 hk0 => by cases hk0; simp only; omega
    rcases (h.key hk).2.2 with ht | ht
    · cases ht
      rw [map_some, if_pos rfl] at hrest
      exact .first (hf.congr (fun i h1 h2 => hfar i (by simp only; omega)) hread) hrest
    · have hpos := ht.2.2.2.1
      have hne : (⟨s, d, next, old, offset + 4, 4⟩ : FragmentKey) ≠ k := by
        rintro rfl
        simp only at hpos
        omega
      rw [map_some, if_neg hne] at hrest
      refine .first (hf.congr (fun i h1 h2 => hfar i (by omega)) ?_) hrest
      rw [readU32_congr fun i h1 h2 => hfar i (by omega), hf.id]
  | later hf hlat hn =>
    subst hn
    cases hk
    exact .later (hf.congr (fun i h1 h2 => hfar i (by simp only; omega)) hread) hlat rfl

def IdFits (k : FragmentKey) (id : UInt32) : Prop := k.identifierWidth = 2 → id.toNat < 65536

/-- **A fragment whose identification is rewritten** belongs to the same datagram,
    but for the new identification. -/
theorem parseNetworkPacket_rewriteFragment (h : parseNetworkPacket p = some n)
    (hk : n.fragment = some k) (hid : IdFits k id) :
    parseNetworkPacket (rewriteFragmentIdentifier p k id) =
      some { n with fragment := some { k with identifier := id } } := by
  rw [parseNetworkPacket] at h
  simp only [bind, bind_eq_some_iff] at h
  obtain ⟨first, hfst, h⟩ := h
  split_ifs at h with h4 h6
  · obtain ⟨old, hold, hkey, hlen, -⟩ := parseIpv4_fragment h hk
    have hw : k.identifierWidth = 2 := by rw [hkey]
    have ho : k.identifierOffset = 4 := by rw [hkey]
    have hsame := (rewriteFragment_v4 hw ho hlen id).1.2 0 (by simp)
    simp only [parseNetworkPacket, bind, hsame, hfst, bind_some, if_pos h4]
    exact parseIpv4_rewriteFragment h hk (hid hw)
  · rw [parseIpv6] at h
    split_ifs at h with h40
    obtain ⟨h1, h2, h3⟩ := (chain_of_ipv6Chain h).key hk
    rcases h3 with h3 | ⟨hw, -, -, hpos, hread, -⟩
    · cases h3
    have hlen := length_of_readU32 hread
    have hne : k.identifierWidth ≠ 2 := by rw [hw]; decide
    have hfar : ∀ i < 40, (writeU32 p k.identifierOffset id)[i]? = p[i]? :=
      fun i hi => getElem?_writeU32 p id (.inl (by omega))
    rw [rewriteFragmentIdentifier, if_neg hne, if_pos hw]
    simp only [parseNetworkPacket, bind, hfar 0 (by omega), hfst, bind_some, if_neg h4, if_pos h6]
    rw [parseIpv6, length_writeU32, if_neg h40, slice_congr fun i h1 h2 => hfar i (by omega),
      slice_congr fun i h1 h2 => hfar i (by omega), getD_eq_getElem?_getD, hfar 6 (by omega)]
    exact ((chain_of_ipv6Chain h).rewriteFragment hk (readU32_writeU32 id hlen)
      fun _ hk0 => by cases hk0).ipv6Chain

end Usque.PacketMux
