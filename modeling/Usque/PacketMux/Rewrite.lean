/-
  The rewrites of a packet, against its parse and its checksums.
-/
import Usque.PacketMux.Packet

namespace Usque.PacketMux
open Lib List Option UInt16

variable {p p' : Bytes} {i off start : ℕ} {n : NetworkPacket} {direction : Direction}

/-! ## Network headers -/

private theorem getD_congr (h : p'[i]? = p[i]?) : p'.getD i 0 = p.getD i 0 := by
  rw [getD_eq_getElem?_getD, getD_eq_getElem?_getD, h]

theorem parseIpv4_congr (h : parseIpv4 p = some n) (ho : n.transportOffset = some off)
    (hb : ∀ i < off, p'[i]? = p[i]?) :
    (off ≤ p'.length → parseIpv4 p' = some n) ∧ 20 ≤ off ∧ off % 4 = 0 ∧ off ≤ p.length := by
  rw [parseIpv4] at h
  by_cases h1 : p.length < 20
  · rw [if_pos h1] at h; cases h
  rw [if_neg h1] at h
  by_cases h2 : (p.getD 0 0 &&& 0x0f).toNat * 4 < 20 ∨ p.length < (p.getD 0 0 &&& 0x0f).toNat * 4
  · rw [if_pos h2] at h; cases h
  rw [if_neg h2] at h
  have h8 : 6 + 2 ≤ p.length := by omega
  obtain ⟨flags, hf⟩ := readU16_isSome h8
  simp only [hf, bind, bind_some, pure, some.injEq] at h
  have hoff : off = (p.getD 0 0 &&& 0x0f).toNat * 4 := by
    rw [← h] at ho
    dsimp only at ho
    split_ifs at ho
    exact (some.inj ho).symm
  have hb' : ∀ i < 20, p'[i]? = p[i]? := fun i hi => hb i (by omega)
  have h0 := getD_congr (hb' 0 (by omega))
  refine ⟨fun hl => ?_, by omega, by omega, by omega⟩
  rw [parseIpv4, if_neg (by omega)]
  rw [h0, if_neg (by omega), readU16_congr fun i h1 h2 => hb' i (by omega), hf]
  simp only [bind, bind_some, pure]
  rw [slice_congr fun i h1 h2 => hb' i (by omega), slice_congr fun i h1 h2 => hb' i (by omega),
    getD_congr (hb' 9 (by omega)), readU16_congr fun i h1 h2 => hb' i (by omega), ← h]

/-- The headers that `parse_ipv6` skips, by the length they give. -/
def Skipped (protocol : UInt8) : Prop :=
  (protocol = 0 ∨ protocol = 43 ∨ protocol = 60) ∨ protocol = 51

def skippedSize (protocol len : UInt8) : ℕ :=
  if protocol = 51 then (len.toNat + 2) * 4 else (len.toNat + 1) * 8

theorem skippedSize_spec (protocol len : UInt8) :
    8 ≤ skippedSize protocol len ∧ skippedSize protocol len % 4 = 0 := by
  unfold skippedSize
  split_ifs <;> omega

/-- The fragment header at `offset`. -/
structure FragmentAt (p : Bytes) (offset : ℕ) (next : UInt8) (place : UInt16) (id : UInt32) :
    Prop where
  next : p[offset]? = some next
  place : ∃ flags, readU16 p (offset + 2) = some flags ∧ (flags &&& 0xfff8) >>> 3 = place
  id : readU32 p (offset + 4) = some id
  le : offset + 8 ≤ p.length

/-- The loop of `parse_ipv6` as a relation: from a header to the network header
    it returns. -/
inductive Chain (p : Bytes) (s d : IpAddr) (n : NetworkPacket) :
    ℕ → UInt8 → ℕ → Option FragmentKey → Prop
  | last {rounds protocol offset fragment}
    (hp : rounds = 0 ∨ ¬Skipped protocol ∧ protocol ≠ 44 ∧ ¬(protocol = 50 ∨ protocol = 59))
    (hn : ⟨6, protocol, s, d, some offset, fragment⟩ = n) :
    Chain p s d n rounds protocol offset fragment
  | skipped {rounds protocol offset fragment next len} (hp : Skipped protocol)
    (hnext : p[offset]? = some next) (hlen : p[offset + 1]? = some len)
    (hle : offset + skippedSize protocol len ≤ p.length)
    (h : Chain p s d n rounds next (offset + skippedSize protocol len) fragment) :
    Chain p s d n (rounds + 1) protocol offset fragment
  | first {rounds offset fragment next id} (hf : FragmentAt p offset next 0 id)
    (h : Chain p s d n rounds next (offset + 8) (some ⟨s, d, next, id, offset + 4, 4⟩)) :
    Chain p s d n (rounds + 1) 44 offset fragment
  | later {rounds offset fragment next place id} (hf : FragmentAt p offset next place id)
    (hlater : place ≠ 0)
    (hn : ⟨6, next, s, d, none, some ⟨s, d, next, id, offset + 4, 4⟩⟩ = n) :
    Chain p s d n (rounds + 1) 44 offset fragment

variable {s d : IpAddr} {rounds offset : ℕ} {protocol next : UInt8} {place : UInt16} {id id' : UInt32}
  {fragment : Option FragmentKey}

theorem FragmentAt.congr (h : FragmentAt p offset next place id)
    (hb : ∀ i, offset ≤ i → i < offset + 4 → p'[i]? = p[i]?)
    (hid : readU32 p' (offset + 4) = some id') : FragmentAt p' offset next place id' := by
  obtain ⟨flags, hf, hl⟩ := h.place
  refine ⟨by rw [hb _ (by omega) (by omega), h.next], ⟨flags, ?_, hl⟩, hid, ?_⟩
  · rw [readU16_congr fun i h1 h2 => hb i (by omega) (by omega), hf]
  · exact length_of_readU32 hid

theorem ipv6Chain_skipped (h : Skipped protocol) :
    ipv6Chain p s d (rounds + 1) protocol offset fragment = some n ↔
      ∃ next, p[offset]? = some next ∧ ∃ len, p[offset + 1]? = some len ∧
        offset + skippedSize protocol len ≤ p.length ∧
        ipv6Chain p s d rounds next (offset + skippedSize protocol len) fragment = some n := by
  rcases h with (rfl | rfl | rfl) | rfl <;>
    simp [ipv6Chain, skippedSize, bind_eq_some_iff]

theorem chain_of_ipv6Chain : ∀ {rounds protocol offset fragment},
    ipv6Chain p s d rounds protocol offset fragment = some n →
    Chain p s d n rounds protocol offset fragment
  | 0, _, _, _, h => .last (.inl rfl) (some.inj h)
  | rounds + 1, protocol, offset, fragment, h => by
    by_cases hx : Skipped protocol
    · obtain ⟨next, hn, len, hl, hle, h⟩ := (ipv6Chain_skipped hx).1 h
      exact .skipped hx hn hl hle (chain_of_ipv6Chain h)
    rw [ipv6Chain] at h
    obtain ⟨h8, h51⟩ := not_or.1 hx
    by_cases h44 : protocol = 44
    · simp only [if_neg h8, if_neg h51, if_pos h44, bind, bind_eq_some_iff] at h
      obtain ⟨next, hn, flags, hf, id, hid, h⟩ := h
      subst h44
      split_ifs at h with hle hfo
      · exact .later ⟨hn, ⟨flags, hf, rfl⟩, hid, by omega⟩ hfo (some.inj h)
      · exact .first ⟨hn, ⟨flags, hf, not_not.1 hfo⟩, hid, by omega⟩ (chain_of_ipv6Chain h)
    · split_ifs at h with hend
      exact .last (.inr ⟨hx, h44, hend⟩) (some.inj h)

theorem Chain.ipv6Chain (h : Chain p s d n rounds protocol offset fragment) :
    ipv6Chain p s d rounds protocol offset fragment = some n := by
  induction h with
  | @last rounds protocol offset fragment hp hn =>
    cases rounds with
    | zero => rw [PacketMux.ipv6Chain, hn]
    | succ rounds =>
      obtain ⟨hx, h44, hend⟩ := hp.resolve_left (by omega)
      obtain ⟨h8, h51⟩ := not_or.1 hx
      rw [PacketMux.ipv6Chain, if_neg h8, if_neg h51, if_neg h44, if_neg hend, hn]
  | skipped hp hnext hlen hle h ih => exact (ipv6Chain_skipped hp).2 ⟨_, hnext, _, hlen, hle, ih⟩
  | first hf h ih =>
    obtain ⟨hn, ⟨flags, hfl, hfo⟩, hid, hle⟩ := hf
    simp [PacketMux.ipv6Chain, hn, hfl, hid, not_lt.2 hle, hfo, ih]
  | later hf hlat hn =>
    obtain ⟨hnx, ⟨flags, hfl, hfo⟩, hid, hle⟩ := hf
    simp [PacketMux.ipv6Chain, hnx, hfl, hid, not_lt.2 hle, hfo, hlat, hn]

theorem Chain.le (h : Chain p s d n rounds protocol offset fragment)
    (ho : n.transportOffset = some off) :
    offset ≤ off ∧ off % 4 = offset % 4 ∧ (offset ≤ p.length → off ≤ p.length) := by
  induction h with
  | last _ hn =>
    subst hn
    cases ho
    exact ⟨le_rfl, rfl, id⟩
  | @skipped _ protocol _ _ _ len hp hnext hlen hle h ih =>
    have := skippedSize_spec protocol len
    exact ⟨by omega, by omega, fun _ => ih.2.2 hle⟩
  | first hf h ih => exact ⟨by omega, by omega, fun _ => ih.2.2 hf.le⟩
  | later _ _ hn => subst hn; cases ho

theorem Chain.congr (h : Chain p s d n rounds protocol offset fragment)
    (ho : n.transportOffset = some off) (hb : ∀ i < off, p'[i]? = p[i]?)
    (hl : off ≤ p'.length) : Chain p' s d n rounds protocol offset fragment := by
  induction h with
  | last hp hn => exact .last hp hn
  | @skipped _ protocol _ _ _ len hp hnext hlen hle h ih =>
    have hoff := (h.le ho).1
    have := skippedSize_spec protocol len
    exact .skipped hp (by rw [hb _ (by omega), hnext]) (by rw [hb _ (by omega), hlen]) (by omega) ih
  | first hf h ih =>
    have hoff := (h.le ho).1
    refine .first (hf.congr (fun i _ _ => hb i (by omega)) ?_) ih
    rw [readU32_congr fun i h1 h2 => hb i (by omega), hf.id]
  | later _ _ hn => subst hn; cases ho

/-- **The network header depends on the bytes before the transport header only.** -/
theorem parseNetworkPacket_congr (h : parseNetworkPacket p = some n)
    (ho : n.transportOffset = some off) (hb : ∀ i < off, p'[i]? = p[i]?) :
    (off ≤ p'.length → parseNetworkPacket p' = some n) ∧
      20 ≤ off ∧ off % 4 = 0 ∧ off ≤ p.length := by
  rw [parseNetworkPacket] at h
  simp only [bind, bind_eq_some_iff] at h
  obtain ⟨first, hfst, h⟩ := h
  split_ifs at h with h4 h6
  · obtain ⟨h1, h2, h3⟩ := parseIpv4_congr h ho hb
    refine ⟨fun hl => ?_, h2, h3⟩
    simp only [parseNetworkPacket, bind, hb 0 (by omega), hfst, bind_some, if_pos h4]
    exact h1 hl
  · rw [parseIpv6] at h
    split_ifs at h with h40
    have hchain := chain_of_ipv6Chain h
    obtain ⟨h1, h2, h3⟩ := hchain.le ho
    refine ⟨fun hl => ?_, by omega, by omega, h3 (by omega)⟩
    simp only [parseNetworkPacket, bind, hb 0 (by omega), hfst, bind_some, if_neg h4, if_pos h6]
    rw [parseIpv6, if_neg (by omega), slice_congr fun i h1 h2 => hb i (by omega),
      slice_congr fun i h1 h2 => hb i (by omega), getD_congr (hb 6 (by omega))]
    exact (hchain.congr ho hb hl).ipv6Chain

/-! ## Transport headers -/

/-- What `transportFields` reads: ports and a checksum behind them, or the one
    identifier of an echo message. -/
inductive Transport (p : Bytes) (direction : Direction) (n : NetworkPacket) (off : ℕ) :
    TransportFields → Prop where
  | ports (src dst : UInt16) (ck : ℕ) (optional : Bool)
    (hsrc : readU16 p off = some src) (hdst : readU16 p (off + 2) = some dst)
    (hck : (n.protocol = 6 ∧ ck = off + 16 ∧ optional = false) ∨
      (n.protocol = 17 ∧ ck = off + 6 ∧ optional = (n.version == 4))) :
    Transport p direction n off ⟨src, dst, portOffset off direction, ck, optional⟩
  | echo (id : UInt16) (ty : UInt8) (hproto : n.protocol = 1 ∨ n.protocol = 58)
    (hty : p[off]? = some ty)
    (hvalid : (n.protocol = 1 ∧ direction = .outgoing ∧ ty = 8) ∨
      (n.protocol = 1 ∧ direction = .incoming ∧ ty = 0) ∨
      (n.protocol = 58 ∧ direction = .outgoing ∧ ty = 128) ∨
      (n.protocol = 58 ∧ direction = .incoming ∧ ty = 129))
    (hid : readU16 p (off + 4) = some id) :
    Transport p direction n off ⟨id, id, off + 4, off + 2, false⟩

theorem transportFields_eq_some {fields : TransportFields} :
    transportFields p direction n off = some fields ↔ Transport p direction n off fields := by
  constructor
  · intro h
    rw [transportFields] at h
    by_cases h6 : n.protocol = 6
    · simp only [if_pos h6, bind, bind_eq_some_iff, pure, some.injEq] at h
      obtain ⟨src, hsrc, dst, hdst, rfl⟩ := h
      exact .ports src dst _ _ hsrc hdst (.inl ⟨h6, rfl, rfl⟩)
    by_cases h17 : n.protocol = 17
    · simp only [if_neg h6, if_pos h17, bind, bind_eq_some_iff, pure, some.injEq] at h
      obtain ⟨src, hsrc, dst, hdst, rfl⟩ := h
      exact .ports src dst _ _ hsrc hdst (.inr ⟨h17, rfl, rfl⟩)
    by_cases h1 : n.protocol = 1 ∨ n.protocol = 58
    · simp only [if_neg h6, if_neg h17, if_pos h1, bind, bind_eq_some_iff] at h
      obtain ⟨ty, hty, h⟩ := h
      split_ifs at h with hv
      simp only [bind_eq_some_iff, pure, some.injEq] at h
      obtain ⟨id, hid, rfl⟩ := h
      exact .echo id ty h1 hty hv hid
    · simp only [if_neg h6, if_neg h17, if_neg h1] at h
      cases h
  · intro h
    rw [transportFields]
    cases h with
    | ports src dst ck optional hsrc hdst hck =>
      rcases hck with ⟨hp, rfl, rfl⟩ | ⟨hp, rfl, rfl⟩
      · simp only [if_pos hp, hsrc, hdst, bind, bind_some, pure]
      · have h6 : n.protocol ≠ 6 := by rw [hp]; decide
        simp only [if_neg h6, if_pos hp, hsrc, hdst, bind, bind_some, pure]
    | echo id ty hproto hty hval hid =>
      have h6 : n.protocol ≠ 6 := by rcases hproto with hp | hp <;> rw [hp] <;> decide
      have h17 : n.protocol ≠ 17 := by rcases hproto with hp | hp <;> rw [hp] <;> decide
      simp only [if_neg h6, if_neg h17, if_pos hproto, hty, hid, bind, bind_some, if_pos hval, pure]

/-- A packet of a flow has a network header and a transport header behind it. -/
theorem parse_flow {tuple : PacketTuple} {fragment : Option FragmentKey} :
    ParsedPacket.parse p direction = some (.flow tuple fragment) ↔
    ∃ n off fields, parseNetworkPacket p = some n ∧ n.transportOffset = some off ∧
      Transport p direction n off fields ∧ tuple = packetTuple direction n fields ∧
      fragment = n.fragment := by
  simp only [ParsedPacket.parse, bind, bind_eq_some_iff]
  constructor
  · rintro ⟨n, hn, h⟩
    rcases ho : n.transportOffset with _ | off
    · simp only [ho, map_eq_some_iff] at h
      obtain ⟨k, -, h⟩ := h
      cases h
    · simp only [ho, bind_eq_some_iff, pure, some.injEq] at h
      obtain ⟨fields, hf, h⟩ := h
      cases h
      exact ⟨n, off, fields, hn, ho, transportFields_eq_some.1 hf, rfl, rfl⟩
  · rintro ⟨n, off, fields, hn, ho, hf, rfl, rfl⟩
    refine ⟨n, hn, ?_⟩
    simp only [ho, transportFields_eq_some.2 hf, bind_some, pure]

variable {k : FragmentKey}

theorem parse_fragment : ParsedPacket.parse p direction = some (.fragment k) ↔
    ∃ n, parseNetworkPacket p = some n ∧ n.transportOffset = none ∧ n.fragment = some k := by
  simp only [ParsedPacket.parse, bind, bind_eq_some_iff]
  constructor
  · rintro ⟨n, hn, h⟩
    rcases ho : n.transportOffset with _ | off
    · simp only [ho, map_eq_some_iff] at h
      obtain ⟨k', hk, h⟩ := h
      cases h
      exact ⟨n, hn, ho, hk⟩
    · simp only [ho, bind_eq_some_iff, pure, some.injEq] at h
      obtain ⟨fields, -, h⟩ := h
      cases h
  · rintro ⟨n, hn, ho, hk⟩
    exact ⟨n, hn, by simp only [ho, hk, map_some]⟩

def firstFragment (p : Bytes) : Option FragmentKey := do
  let n ← parseNetworkPacket p
  let _ ← n.transportOffset
  n.fragment

theorem firstFragment_flow {tuple : PacketTuple} {fragment : Option FragmentKey}
    (h : ParsedPacket.parse p direction = some (.flow tuple fragment)) :
    firstFragment p = fragment := by
  obtain ⟨n, off, fields, hn, ho, -, -, rfl⟩ := parse_flow.1 h
  simp only [firstFragment, bind, hn, ho, bind_some]

theorem firstFragment_fragment (h : ParsedPacket.parse p direction = some (.fragment k)) :
    firstFragment p = none := by
  obtain ⟨n, hn, ho, -⟩ := parse_fragment.1 h
  simp only [firstFragment, bind, hn, ho, bind_some, bind_none]

/-! ## One's-complement checksums -/

theorem updateChecksum_residue (checksum old new : UInt16) :
    ((updateChecksum checksum old new).toNat + new.toNat) % 65535 =
      (checksum.toNat + old.toNat) % 65535 := by
  obtain ⟨h1, h2⟩ := foldCarry_spec ((~~~checksum).toNat + (~~~old).toNat + new.toNat)
  have hc := checksum.toNat_lt
  have ho := old.toNat_lt
  rw [updateChecksum, toNat_not, toNat_ofNat']
  rw [toNat_not, toNat_not] at h1 h2 ⊢
  simp only [size] at h1 h2 ⊢
  omega

/-- The bytes of `p` and `p'` differ in the words at `offs` only. -/
def SameExcept (p p' : Bytes) (offs : List ℕ) : Prop :=
  p'.length = p.length ∧ ∀ i, (∀ off ∈ offs, i ≠ off ∧ i ≠ off + 1) → p'[i]? = p[i]?

/-- The words of the segment from `start` keep the residue of their sum, for every
    end of the segment behind the words at `offs`. -/
def ResidueKept (p p' : Bytes) (start : ℕ) (offs : List ℕ) : Prop :=
  ∀ len, (∀ off ∈ offs, off + 2 ≤ start + len) →
    wordSum (slice p' start len) % 65535 = wordSum (slice p start len) % 65535

def transportStart (p : Bytes) : Option ℕ := (parseNetworkPacket p).bind (·.transportOffset)

theorem wordSum_slice_writeU16 {old : UInt16} (new : UInt16) (len : ℕ)
    (h : readU16 p (start + 2 * i) = some old) (hi : 2 * i + 2 ≤ len) :
    wordSum (slice (writeU16 p (start + 2 * i) new) start len) + old.toNat =
      wordSum (slice p start len) + new.toNat := by
  rw [slice_writeU16 new hi]
  exact wordSum_writeU16 new old i _ (by rw [readU16_slice hi, h])

theorem residue_update {j len : ℕ} {old ck : UInt16} (new : UInt16)
    (hold : readU16 p (start + 2 * i) = some old) (hck : readU16 p (start + 2 * j) = some ck)
    (hij : i ≠ j) (hi : 2 * i + 2 ≤ len) (hj : 2 * j + 2 ≤ len) :
    wordSum (slice (writeU16 (writeU16 p (start + 2 * i) new) (start + 2 * j)
      (updateChecksum ck old new)) start len) % 65535 = wordSum (slice p start len) % 65535 := by
  have hck' : readU16 (writeU16 p (start + 2 * i) new) (start + 2 * j) = some ck := by
    rw [readU16_writeU16_ne p new (by omega), hck]
  have h1 := wordSum_slice_writeU16 new len hold hi
  have h2 := wordSum_slice_writeU16 (updateChecksum ck old new) len hck' hj
  have h3 := updateChecksum_residue ck old new
  omega

theorem SameExcept.refl (p : Bytes) (offs : List ℕ) : SameExcept p p offs := ⟨rfl, fun _ _ => rfl⟩

theorem SameExcept.writeU16 {offs : List ℕ} (h : SameExcept p p' offs) (ho : off ∈ offs)
    (v : UInt16) : SameExcept p (writeU16 p' off v) offs := by
  refine ⟨by rw [length_writeU16, h.1], fun i hi => ?_⟩
  rw [getElem?_writeU16 p' v (hi off ho).1 (hi off ho).2, h.2 i hi]

/-! ## Rewriting the identifier of a flow -/

/-- The tuple of a packet whose local identifier becomes `id`; an echo message has
    one identifier for both ends. -/
def PacketTuple.renamed (tuple : PacketTuple) (id : UInt16) : PacketTuple :=
  if tuple.protocol = 6 ∨ tuple.protocol = 17 then { tuple with localId := id }
  else { tuple with localId := id, remoteId := id }

section
variable {p : Bytes} {direction : Direction} {tuple : PacketTuple} {fragment : Option FragmentKey}

theorem rewriteIdentifier_same (p : Bytes) (tuple : PacketTuple) (id : UInt16) :
    SameExcept p (rewriteIdentifier p tuple id) [tuple.identifierOffset, tuple.checksumOffset] := by
  have h0 := SameExcept.refl p [tuple.identifierOffset, tuple.checksumOffset]
  rw [rewriteIdentifier]
  split
  · exact h0
  · split
    · exact h0
    · have h1 := h0.writeU16 (by simp : tuple.identifierOffset ∈ _) id
      split_ifs
      · exact h1
      · exact h1.writeU16 (by simp : tuple.checksumOffset ∈ _) _

section
variable (h : ParsedPacket.parse p direction = some (.flow tuple fragment))
include h

/-- The places of a parsed packet: the identifier can be read, and it and the
    checksum stand behind the transport offset, which is aligned, at an even
    distance. -/
theorem parse_places :
    ∃ off, transportStart p = some off ∧ off % 4 = 0 ∧
      readU16 p tuple.identifierOffset = some tuple.localId ∧
      ∃ i j, i ≠ j ∧ tuple.identifierOffset = off + 2 * i ∧ tuple.checksumOffset = off + 2 * j := by
  obtain ⟨n, off, fields, hn, ho, hf, rfl, -⟩ := parse_flow.1 h
  refine ⟨off, by rw [transportStart, hn, bind_some, ho],
    (parseNetworkPacket_congr hn ho fun _ _ => rfl).2.2.1, ?_⟩
  cases hf with
  | ports src dst ck optional hsrc hdst hck =>
    have hj : ∃ j, 3 ≤ j ∧ ck = off + 2 * j := by
      rcases hck with ⟨-, h, -⟩ | ⟨-, h, -⟩
      · exact ⟨8, by omega, by omega⟩
      · exact ⟨3, by omega, by omega⟩
    obtain ⟨j, hj, rfl⟩ := hj
    cases direction with
    | outgoing => exact ⟨hsrc, 0, j, by omega, rfl, rfl⟩
    | incoming => exact ⟨hdst, 1, j, by omega, rfl, rfl⟩
  | echo id ty hproto hty hval hid =>
    cases direction with
    | outgoing | incoming => exact ⟨hid, 2, 1, by omega, rfl, rfl⟩

section
variable (hck : tuple.checksumOffset + 2 ≤ p.length)
include hck

theorem readU16_rewriteIdentifier (id : UInt16) :
    readU16 (rewriteIdentifier p tuple id) tuple.identifierOffset = some id := by
  obtain ⟨off, -, -, hold, i, j, hij, hi, hj⟩ := parse_places h
  obtain ⟨ck, hc⟩ := readU16_isSome hck
  have hw := readU16_writeU16 id (length_of_readU16 hold)
  simp only [rewriteIdentifier, hold, hc]
  split_ifs
  · exact hw
  · rw [readU16_writeU16_ne _ _ (by omega), hw]

theorem rewriteIdentifier_residue
    (hopt : ¬ (tuple.checksumOptional ∧ readU16 p tuple.checksumOffset = some 0)) (id : UInt16)
    (hs : transportStart p = some start) :
    ResidueKept p (rewriteIdentifier p tuple id) start
      [tuple.identifierOffset, tuple.checksumOffset] := by
  obtain ⟨off, hoff, -, hold, i, j, hij, hi, hj⟩ := parse_places h
  obtain ⟨ck, hc⟩ := readU16_isSome hck
  rw [hoff] at hs
  cases hs
  intro len hlen
  have hli := hlen _ (mem_cons_self ..)
  have hlj := hlen _ (mem_cons_of_mem _ (mem_cons_self ..))
  have hopt' : ¬ (tuple.checksumOptional ∧ ck = 0) :=
    fun h => hopt ⟨h.1, by rw [hc, h.2]⟩
  simp only [rewriteIdentifier, hold, hc, if_neg hopt']
  rw [hi] at hold hli ⊢
  rw [hj] at hc hlj ⊢
  exact residue_update id hold hc hij (by omega) (by omega)

/-- **A rewritten packet parses as the packet with the new identifier.** -/
theorem parse_rewriteIdentifier (id : UInt16) :
    ParsedPacket.parse (rewriteIdentifier p tuple id) direction =
      some (.flow (tuple.renamed id) fragment) := by
  have hid := readU16_rewriteIdentifier h hck id
  obtain ⟨hlen, hsame⟩ := rewriteIdentifier_same p tuple id
  generalize rewriteIdentifier p tuple id = p' at hid hlen hsame ⊢
  obtain ⟨n, off, fields, hn, ho, hf, rfl, rfl⟩ := parse_flow.1 h
  have hoff : off ≤ p.length := (parseNetworkPacket_congr hn ho fun _ _ => rfl).2.2.2
  rw [parse_flow]
  cases hf with
  | ports src dst ck optional hsrc hdst hck' =>
    have hproto : n.protocol = 6 ∨ n.protocol = 17 := hck'.imp And.left And.left
    have hn' := (parseNetworkPacket_congr hn ho fun i hi => hsame i (by
      cases direction <;> simp [packetTuple, portOffset] <;> omega)).1 (by omega)
    cases direction with
    | outgoing =>
      simp only [packetTuple, portOffset, mem_cons, not_mem_nil, or_false,
        forall_eq_or_imp, forall_eq] at hid hsame
      refine ⟨n, off, ⟨id, dst, off, ck, optional⟩, hn', ho, ?_, ?_, rfl⟩
      · refine .ports id dst ck optional hid ?_ hck'
        rw [readU16_congr fun i h1 h2 => hsame i ⟨by omega, by omega⟩, hdst]
      · exact if_pos hproto
    | incoming =>
      simp only [packetTuple, portOffset, mem_cons, not_mem_nil, or_false,
        forall_eq_or_imp, forall_eq] at hid hsame
      refine ⟨n, off, ⟨src, id, off + 2, ck, optional⟩, hn', ho, ?_, ?_, rfl⟩
      · refine .ports src id ck optional ?_ hid hck'
        rw [readU16_congr fun i h1 h2 => hsame i ⟨by omega, by omega⟩, hsrc]
      · exact if_pos hproto
  | echo old ty hproto hty hval hold =>
    have hne : ¬ (n.protocol = 6 ∨ n.protocol = 17) := by
      rcases hproto with hp | hp <;> rw [hp] <;> decide
    have hbef : ∀ i < off + 2, p'[i]? = p[i]? := by
      intro i hi
      refine hsame i ?_
      cases direction <;> simp [packetTuple] <;> omega
    refine ⟨n, off, ⟨id, id, off + 4, off + 2, false⟩, ?_, ho, ?_, ?_, rfl⟩
    · exact (parseNetworkPacket_congr hn ho fun i hi => hbef i (by omega)).1 (by omega)
    · refine .echo id ty hproto ?_ hval ?_
      · rw [hbef off (by omega), hty]
      · cases direction <;> exact hid
    · cases direction <;> exact if_neg hne

end

end

end

/-! ## Rewriting a quoted identifier -/

section
variable {p : Bytes} {off i j : ℕ} {tuple : PacketTuple} {old outer : UInt16} (id : UInt16)
  (hold : readU16 p (off + 8 + tuple.identifierOffset) = some old)
  (hout : readU16 p (off + 2) = some outer)
  (hi : tuple.identifierOffset = 2 * i) (hj : tuple.checksumOffset = 2 * j) (hij : i ≠ j)
include hold hout hi hj hij

end

end Usque.PacketMux
