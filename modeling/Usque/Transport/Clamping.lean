/-
  What `clamp` does to a packet.
-/
import Usque.Transport.TcpOptions

namespace Usque.Transport.ChainMss
open Lib Checked List UInt16

variable {packet : Bytes} {next : UInt8} {added n offset tcp tcp' : ℕ} {ipv6 : Bool}

/-! ## TCP in IP -/

/-- The extension headers of an IPv6 packet from `offset` on, up to a TCP header. -/
inductive Chain (packet : Bytes) : UInt8 → ℕ → ℕ → Prop where
  | tcp {offset : ℕ} : Chain packet 6 offset offset
  | extension {next next' length : UInt8} {offset tcp : ℕ}
    (hnext : next = 0 ∨ next = 43 ∨ next = 60) (h₀ : packet[offset]? = some next')
    (h₁ : packet[offset + 1]? = some length)
    (hle : offset + (length.toNat + 1) * 8 ≤ packet.length)
    (rest : Chain packet next' (offset + (length.toNat + 1) * 8) tcp) :
    Chain packet next offset tcp

/-- An unfragmented packet whose length field is right, with a TCP header at `tcp`. -/
inductive TcpAt (packet : Bytes) : ℕ → Bool → Prop where
  | v4 {first : UInt8} {total fragment : UInt16} (h₀ : packet[0]? = some first)
    (hversion : first >>> 4 = 4)
    (hheader : 20 ≤ (first &&& 15).toNat * 4 ∧ (first &&& 15).toNat * 4 ≤ packet.length)
    (hprotocol : packet[9]? = some 6)
    (htotal : readU16 packet 2 = some total) (hlength : total.toNat = packet.length)
    (hfragment : readU16 packet 6 = some fragment) (hwhole : fragment &&& 0x3fff = 0) :
    TcpAt packet ((first &&& 15).toNat * 4) false
  | v6 {first next : UInt8} {payload : UInt16} {tcp : ℕ} (h₀ : packet[0]? = some first)
    (hversion : first >>> 4 = 6) (hpayload : readU16 packet 4 = some payload)
    (hlength : payload.toNat + 40 = packet.length) (hnext : packet[6]? = some next)
    (chain : Chain packet next 40 tcp) : TcpAt packet tcp true

theorem ipv6Offset_spec (rounds : ℕ) (next : UInt8) (offset : ℕ) :
    Safe (ipv6Offset packet rounds next offset) fun (tcp, ipv6) =>
      Chain packet next offset tcp ∧ ipv6 := by
  induction rounds generalizing next offset with
  | zero => trivial
  | succ rounds ih =>
    rw [ipv6Offset]
    by_cases h6 : next = 6
    · rw [h6]
      exact ⟨.tcp, rfl⟩
    rw [if_neg h6]
    refine .bind (.require fun hnext => .bind (.index (by omega) fun length h₁ => ?_))
    refine .bind (.index (by omega) fun next' h₀ => .bind (.require fun hle => ?_))
    refine (ih next' _).mono ?_
    rintro ⟨tcp, ipv6⟩ ⟨hchain, hipv6⟩
    exact ⟨.extension hnext.1 h₀ h₁ hle hchain, hipv6⟩

/-- **The TCP header is found** where it is. -/
theorem tcpOffset_spec (packet : Bytes) :
    Safe (tcpOffset packet) fun (tcp, ipv6) => TcpAt packet tcp ipv6 := by
  refine .bind (.require fun hne => .bind (.index (length_pos_iff.2 hne) fun first h₀ => ?_))
  by_cases h4 : first >>> 4 = 4
  · rw [if_pos h4]
    refine .bind (.require fun hlen => .bind (.require fun hhdr => ?_))
    refine .bind (.index (by omega) fun protocol h9 => .bind (.require ?_))
    rintro rfl
    refine .bind (.read16 (by omega) fun total htotal => .bind (.require fun hlength => ?_))
    refine .bind (.read16 (by omega) fun fragment hfrag => .bind (.require fun hwhole => ?_))
    exact .v4 h₀ h4 hhdr h9 htotal hlength hfrag hwhole
  · rw [if_neg h4]
    refine .bind (.require fun hlen => .bind (.read16 (by omega) fun payload hpay => ?_))
    refine .bind (.require fun hlength => .bind (.index (by omega) fun next hnext => ?_))
    refine (ipv6Offset_spec 8 next 40).mono ?_
    rintro ⟨tcp, ipv6⟩ ⟨hchain, hipv6⟩
    cases hipv6
    exact .v6 h₀ hlen.1 hpay hlength hnext hchain

theorem Chain.bounds (h : Chain packet next offset tcp) :
    offset ≤ tcp ∧ tcp % 2 = offset % 2 ∧ (offset ≤ packet.length → tcp ≤ packet.length) := by
  induction h with
  | tcp => exact ⟨le_rfl, rfl, id⟩
  | extension _ _ _ hle _ ih => omega

theorem Chain.unique (h : Chain packet next offset tcp) (h' : Chain packet next offset tcp') :
    tcp = tcp' := by
  induction h with
  | tcp =>
    cases h' with
    | tcp => rfl
    | extension hnext => exact absurd hnext (by decide)
  | extension hnext h₀ h₁ _ _ ih =>
    cases h' with
    | tcp => exact absurd hnext (by decide)
    | extension _ h0' h1' _ rest' =>
      cases h₀.symm.trans h0'
      cases h₁.symm.trans h1'
      exact ih rest'

variable {packet' : Bytes}

/-- The extension headers depend on their bytes only. -/
theorem Chain.congr (h : Chain packet next offset tcp)
    (hsame : ∀ i, offset ≤ i → i < tcp → packet'[i]? = packet[i]?) (hle : tcp ≤ packet'.length) :
    Chain packet' next offset tcp := by
  induction h with
  | tcp => exact .tcp
  | extension hnext h₀ h₁ _ rest ih =>
    have hbds := rest.bounds
    refine .extension hnext ?_ ?_ (by omega) (ih (fun i hi => hsame i (by omega)) hle)
    · rw [hsame _ le_rfl (by omega), h₀]
    · rw [hsame _ (by omega) (by omega), h₁]

theorem TcpAt.bounds (h : TcpAt packet tcp ipv6) :
    20 ≤ tcp ∧ (ipv6 → 40 ≤ tcp) ∧ tcp % 2 = 0 ∧ tcp ≤ packet.length := by
  cases h with
  | v4 _ _ hhdr => exact ⟨by omega, nofun, by omega, hhdr.2⟩
  | v6 _ _ _ _ _ chain =>
    have hbds := chain.bounds
    omega

variable {ipv6' : Bool}

theorem TcpAt.unique (h : TcpAt packet tcp ipv6) (h' : TcpAt packet tcp' ipv6') :
    tcp = tcp' ∧ ipv6 = ipv6' := by
  cases h with
  | v4 h₀ hver =>
    cases h' with
    | v4 h0' =>
      cases h₀.symm.trans h0'
      exact ⟨rfl, rfl⟩
    | v6 h0' hver' =>
      cases h₀.symm.trans h0'
      cases hver.symm.trans hver'
  | v6 h₀ hver _ _ hnext chain =>
    cases h' with
    | v4 h0' hver' =>
      cases h₀.symm.trans h0'
      cases hver.symm.trans hver'
    | v6 _ _ _ _ hnext' chain' =>
      cases hnext.symm.trans hnext'
      exact ⟨chain.unique chain', rfl⟩

/-! ## Checksums -/

def wordAt (bytes : Bytes) (offset : ℕ) : UInt16 := (readU16 bytes offset).getD 0

theorem toNat_not_add (w : UInt16) : (~~~w).toNat + w.toNat = 65535 := by
  have h := w.toNat_lt
  rw [toNat_not]
  simp only [size]
  omega

theorem finishChecksum_residue (sum : ℕ) : ((finishChecksum sum).toNat + sum) % 65535 = 0 := by
  obtain ⟨hmod, hlt⟩ := foldCarry_spec sum
  have hnot := toNat_not_add (ofNat (foldCarry sum))
  rw [toNat_ofNat'] at hnot
  rw [finishChecksum]
  omega

variable {sum : ℕ}

theorem addWords_spec {term : UInt16 → UInt16} {bytes : Bytes} {start : ℕ} {offsets : List ℕ}
    (hle : ∀ o ∈ offsets, start + o + 2 ≤ bytes.length)
    (hsum : sum + 65535 * offsets.length < 2 ^ 32) :
    Safe (addWords term bytes start offsets sum) fun total =>
      total = sum + (offsets.map fun o => (term (wordAt bytes (start + o))).toNat).sum := by
  induction offsets generalizing sum with
  | nil => exact rfl
  | cons o offsets ih =>
    rw [forall_mem_cons] at hle
    rw [length_cons] at hsum
    refine .bind (.read16 hle.1 fun word hword => ?_)
    have hlt := (term word).toNat_lt
    refine .bind (.add (by omega) ((ih hle.2 (by omega)).mono ?_))
    rintro total rfl
    rw [map_cons, sum_cons, wordAt, hword, Option.getD_some]
    omega

/-- The words of a header but the checksum. -/
theorem sum_wordOffsets (f : ℕ → ℕ) (h : 9 ≤ n) :
    ((wordOffsets (2 * n)).map f).sum + f 16 = ((range n).map fun i => f (2 * i)).sum := by
  have hoffsets : wordOffsets (2 * n) = ((range n).map (2 * ·)).erase 16 := by
    have hnodup : ((range n).map (2 * ·)).Nodup :=
      List.Nodup.map (fun a b hab => by simpa using hab) nodup_range
    rw [hnodup.erase_eq_filter, wordOffsets, show (2 * n + 1) / 2 = n by omega]
    refine filter_congr fun o _ => ?_
    by_cases ho : o = 16 <;> simp [ho]
  have hmem : 16 ∈ (range n).map (2 * ·) :=
    mem_map.2 ⟨8, mem_range.2 (by omega), rfl⟩
  have hsum := sum_map_erase f hmem
  rw [map_map] at hsum
  rw [hoffsets, Nat.add_comm, hsum]
  rfl

theorem mem_wordOffsets {o : ℕ} (h : o ∈ wordOffsets (2 * n)) : o + 2 ≤ 2 * n := by
  rw [wordOffsets, mem_filter, mem_map] at h
  obtain ⟨⟨i, hi, rfl⟩, -⟩ := h
  rw [mem_range] at hi
  omega

theorem length_wordOffsets_le (n : ℕ) : (wordOffsets (2 * n)).length ≤ n := by
  refine (length_filter_le _ _).trans ?_
  rw [length_map, length_range]
  omega

theorem wordSum_eq_add {header : Bytes} (hlen : header.length = 2 * n) (hn : 9 ≤ n) :
    wordSum header = ((wordOffsets (2 * n)).map fun o => (wordAt header o).toNat).sum +
      (wordAt header 16).toNat := by
  rw [sum_wordOffsets (fun o => (wordAt header o).toNat) hn, wordSum_eq_sum header (by omega), hlen,
    Nat.mul_div_cancel_left n (by omega)]
  rfl

/-- The complements of the words of a header but the checksum. -/
theorem sum_not (header : Bytes) (offsets : List ℕ) :
    (offsets.map fun o => (~~~(wordAt header o)).toNat).sum +
      (offsets.map fun o => (wordAt header o).toNat).sum = 65535 * offsets.length := by
  induction offsets with
  | nil => rfl
  | cons o offsets ih =>
    have hnot := toNat_not_add (wordAt header o)
    simp only [map_cons, sum_cons, length_cons]
    omega

theorem addLengths_spec (htcp : tcp ≤ packet.length)
    (hadded : added = 0 ∨ packet.length - tcp + added < 65536) (hsum : sum + 131072 < 2 ^ 32) :
    Safe (addLengths packet tcp added sum) fun total => total % 65535 = (sum + added) % 65535 := by
  rw [addLengths]
  by_cases h0 : added = 0
  · rw [h0]
    exact rfl
  rw [if_neg h0]
  refine .bind (.sub htcp ?_)
  have hnot := toNat_not_add (ofNat (packet.length - tcp))
  rw [toNat_ofNat', Nat.mod_eq_of_lt (by omega)] at hnot
  refine .bind (.add (by omega) (.add (by omega) ?_))
  omega

variable {n' : ℕ}

/-- **The checksum of the new header** makes up for its words, and for the length of
    the segment if that has changed. -/
theorem updatedChecksum_spec {header' : Bytes} (hle : tcp + 2 * n ≤ packet.length)
    (hlen' : header'.length = 2 * n') (hn : 10 ≤ n ∧ n ≤ 30) (hn' : 10 ≤ n' ∧ n' ≤ 30)
    (hold : readU16 header' 16 = readU16 packet (tcp + 16))
    (hadded : added = 0 ∨ packet.length - tcp + added < 65536) :
    Safe (updatedChecksum packet tcp (2 * n) added header') fun checksum =>
      (wordSum (writeU16 header' 16 checksum) + added) % 65535 =
        wordSum (slice packet tcp (2 * n)) % 65535 := by
  have hslice : (slice packet tcp (2 * n)).length = 2 * n := by
    rw [slice, length_take, length_drop]
    omega
  have hwds : ∀ o, o + 2 ≤ 2 * n →
      wordAt packet (tcp + o) = wordAt (slice packet tcp (2 * n)) o := by
    intro o ho
    rw [wordAt, wordAt, readU16_slice ho]
  have hlength := length_wordOffsets_le n
  have hlength' := length_wordOffsets_le n'
  have hnot := sum_not (slice packet tcp (2 * n)) (wordOffsets (2 * n))
  have hnot' := sum_not header' (wordOffsets (2 * n'))
  have hsum := wordSum_eq_add hslice (by omega)
  have hsum' := wordSum_eq_add hlen' (by omega)
  refine .bind (.read16 (by omega) fun old hread => ?_)
  have hcomplement := toNat_not_add old
  have hat : wordAt (slice packet tcp (2 * n)) 16 = old := by
    rw [← hwds 16 (by omega), wordAt, hread, Option.getD_some]
  have hat' : wordAt header' 16 = old := by
    rw [wordAt, hold, hread, Option.getD_some]
  have hterms : ((wordOffsets (2 * n)).map fun o => (~~~(wordAt packet (tcp + o))).toNat) =
      (wordOffsets (2 * n)).map fun o => (~~~(wordAt (slice packet tcp (2 * n)) o)).toNat :=
    map_congr_left fun o ho => by rw [hwds o (mem_wordOffsets ho)]
  refine .bind ((addWords_spec ?_ (by omega)).mono ?_)
  · intro o ho
    have := mem_wordOffsets ho
    omega
  rintro sum1 rfl
  rw [hterms]
  rw [hat] at hsum
  rw [hat'] at hsum'
  refine .bind ((addWords_spec ?_ ?_).mono ?_)
  · intro o ho
    rw [hlen'] at ho
    have := mem_wordOffsets ho
    omega
  · rw [hlen']
    omega
  rintro sum2 rfl
  simp only [hlen', Nat.zero_add, id_eq]
  refine .bind ((addLengths_spec (by omega) hadded (by omega)).mono ?_)
  intro total htotal
  have hresid := finishChecksum_residue total
  have hwrite := wordSum_writeU16 (finishChecksum total) old 8 header' (hold.trans hread)
  refine .pure ?_
  change (wordSum (writeU16 header' (2 * 8) (finishChecksum total)) + added) % 65535 = _
  omega

/-! ## The IP header -/

/-- The bytes of the IP header that a longer packet changes. -/
def lengthFields (ipv6 : Bool) : List ℕ := if ipv6 then [4, 5] else [2, 3, 10, 11]

def totalLength (ipv6 : Bool) (field : UInt16) : ℕ := field.toNat + if ipv6 then 40 else 0

theorem TcpAt.length (h : TcpAt packet tcp ipv6) :
    ∃ field, readU16 packet (lengthOffset ipv6) = some field ∧
      totalLength ipv6 field = packet.length := by
  cases h with
  | v4 _ _ _ _ htotal hlen => exact ⟨_, htotal, hlen⟩
  | v6 _ _ hpay hlen => exact ⟨_, hpay, hlen⟩

/-- **The IP header depends on its bytes**, and on a right length field. -/
theorem TcpAt.congr {field : UInt16} (h : TcpAt packet tcp ipv6) (hle : tcp ≤ packet'.length)
    (hsame : ∀ i < tcp, i ∉ lengthFields ipv6 → packet'[i]? = packet[i]?)
    (hfield : readU16 packet' (lengthOffset ipv6) = some field)
    (hlen : totalLength ipv6 field = packet'.length) : TcpAt packet' tcp ipv6 := by
  have hbds := h.bounds
  cases h with
  | v4 h₀ hver hhdr hproto _ _ hfrag hwhole =>
    refine .v4 ?_ hver ⟨hhdr.1, hle⟩ ?_ hfield hlen ?_ hwhole
    · rw [hsame 0 (by omega) (by decide), h₀]
    · rw [hsame 9 (by omega) (by decide), hproto]
    · rw [← hfrag]
      refine readU16_congr fun i h1 h2 => hsame i (by omega) ?_
      simp only [lengthFields, Bool.false_eq_true, if_false, mem_cons, not_mem_nil, or_false]
      omega
  | v6 h₀ hver _ _ hnext chain =>
    refine .v6 ?_ hver hfield hlen ?_ (chain.congr ?_ hle)
    · rw [hsame 0 (by omega) (by decide), h₀]
    · rw [hsame 6 (by omega) (by decide), hnext]
    · intro i h1 h2
      refine hsame i h2 ?_
      simp only [lengthFields, if_true, mem_cons, not_mem_nil, or_false]
      omega

/-- The IP header `ip'` is `ip` with the length `field`. -/
structure Relengthed (ipv6 : Bool) (field : UInt16) (ip ip' : Bytes) : Prop where
  length : ip'.length = ip.length
  same : ∀ i, i ∉ lengthFields ipv6 → ip'[i]? = ip[i]?
  field : readU16 ip' (lengthOffset ipv6) = some field
  residue : ipv6 = false → wordSum ip' % 65535 = wordSum ip % 65535

variable {q : Bytes} {off : ℕ}

theorem readU16_append (rest : Bytes) (h : off + 2 ≤ q.length) :
    readU16 (q ++ rest) off = readU16 q off :=
  readU16_congr fun i h1 h2 => getElem?_append_left (by omega)

theorem writeU16_append (rest : Bytes) (v : UInt16) (h : off + 2 ≤ q.length) :
    writeU16 (q ++ rest) off v = writeU16 q off v ++ rest := by
  rw [writeU16, writeU16, if_pos h, if_pos (by rw [length_append]; omega),
    set_append_left _ _ (by omega), set_append_left _ _ (by rw [length_set]; omega)]

/-- **A longer packet** has the new length in its IP header, whose checksum keeps its
    residue. -/
theorem grown_spec {ip rest : Bytes} {old : UInt16} (hip : 12 ≤ ip.length)
    (hold : readU16 ip (lengthOffset ipv6) = some old) (hfits : old.toNat + added < 65536) :
    Safe (grown ipv6 added (ip ++ rest)) fun output => ∃ ip', output = ip' ++ rest ∧
      Relengthed ipv6 (ofNat (old.toNat + added)) ip ip' := by
  have hoff : lengthOffset ipv6 + 2 ≤ ip.length := length_of_readU16 hold
  have hlen : ∀ q : Bytes, q.length ≤ (q ++ rest).length := fun q => by simp
  refine .bind (.read16 (hoff.trans (hlen ip)) fun old' hold' => ?_)
  cases hold'.symm.trans ((readU16_append rest hoff).trans hold)
  refine .bind (.add hfits (.bind (.write16 (hoff.trans (hlen ip)) ?_)))
  rw [writeU16_append rest _ hoff]
  cases ipv6 with
  | true =>
    refine .pure ⟨_, rfl, length_writeU16 .., ?_, readU16_writeU16 _ hoff, nofun⟩
    intro i hi
    simp only [lengthFields, if_true, mem_cons, not_mem_nil, or_false, not_or] at hi
    exact getElem?_writeU16 ip _ hi.1 hi.2
  | false =>
    have hip' : 10 + 2 ≤ (writeU16 ip 2 (ofNat (old.toNat + added))).length := by
      rwa [length_writeU16]
    refine .bind (.read16 (hip'.trans (hlen _)) fun checksum hck => ?_)
    have hck' := (readU16_append rest hip').symm.trans hck
    have h₁ := toNat_not_add checksum
    have h2 := toNat_not_add old
    refine .bind (.add (by omega) (.bind (.add (by omega) (.write16 (hip'.trans (hlen _)) ?_))))
    refine ⟨_, writeU16_append rest _ hip', ?_, ?_, ?_, ?_⟩
    · rw [length_writeU16, length_writeU16]
    · intro i hi
      simp only [lengthFields, Bool.false_eq_true, if_false, mem_cons, not_mem_nil,
        or_false, not_or] at hi
      rw [getElem?_writeU16 _ _ hi.2.2.1 hi.2.2.2]
      exact getElem?_writeU16 _ _ hi.1 hi.2.1
    · rw [readU16_writeU16_ne _ _ (by decide)]
      exact readU16_writeU16 _ hoff
    · intro _
      have hnew : (ofNat (old.toNat + added)).toNat = old.toNat + added := by
        rw [toNat_ofNat', Nat.mod_eq_of_lt hfits]
      have hw1 := wordSum_writeU16 (ofNat (old.toNat + added)) old 1 ip hold
      have hw2 := wordSum_writeU16
        (finishChecksum ((~~~checksum).toNat + (~~~old).toNat + (old.toNat + added))) checksum 5 _ hck'
      have hresid := finishChecksum_residue
        ((~~~checksum).toNat + (~~~old).toNat + (old.toNat + added))
      change wordSum (writeU16 (writeU16 ip (2 * 1) _) (2 * 5) _) % 65535 = _
      change wordSum (writeU16 (writeU16 ip (2 * 1) _) (2 * 5) _) + _ =
        wordSum (writeU16 ip (2 * 1) _) + _ at hw2
      omega

/-! ## Clamping -/

/-- An unfragmented TCP SYN without FIN and RST, whose lengths agree, with well-formed
    options that announce at most one MSS and do not authenticate the header. -/
structure Syn (packet : Bytes) (tcp : ℕ) (ipv6 : Bool) (headerLen : ℕ)
    (options : List TcpOption) : Prop where
  located : TcpAt packet tcp ipv6
  flags : ∃ flags : UInt8, packet[tcp + 13]? = some flags ∧ flags &&& 0x07 = 0x02
  dataOffset : ∃ d : UInt8, packet[tcp + 12]? = some d ∧ (d >>> 4).toNat * 4 = headerLen
  length : 20 ≤ headerLen ∧ tcp + headerLen ≤ packet.length
  encoded : Options (slice packet (tcp + 20) (headerLen - 20)) options
  unauthenticated : Unauthenticated options
  mss : Silent options ∨ ∃ os₁ os₂ hi lo, options = os₁ ++ (2, [hi, lo]) :: os₂ ∧
    Silent os₁ ∧ Silent os₂

/-- What changes in a packet that is clamped to `budget`. -/
structure Clamped (packet result : Bytes) (budget : UInt16) (tcp : ℕ) (ipv6 : Bool)
    (headerLen headerLen' : ℕ) (options options' : List TcpOption) : Prop where
  syn : Syn packet tcp ipv6 headerLen options
  syn' : Syn result tcp ipv6 headerLen' options'
  announced : ∃ o ∈ options', o.1 = 2
  fits : (effectiveMss ipv6 options').toNat + tcp + 20 = budget.toNat
  lower : effectiveMss ipv6 options' < effectiveMss ipv6 options
  others_eq : others options' = others options
  payload : result.drop (tcp + headerLen') = packet.drop (tcp + headerLen)
  fields : ∀ i < 20, i ∉ [12, 16, 17] → result[tcp + i]? = packet[tcp + i]?
  reserved : ∀ d d' : UInt8, packet[tcp + 12]? = some d → result[tcp + 12]? = some d' →
    d' &&& 15 = d &&& 15
  ipFields : ∀ i < tcp, i ∉ lengthFields ipv6 → result[i]? = packet[i]?
  ipChecksum : ipv6 = false → wordSum (result.take tcp) % 65535 = wordSum (packet.take tcp) % 65535
  tcpChecksum : (wordSum (result.drop tcp) + (result.length - tcp)) % 65535 =
    (wordSum (packet.drop tcp) + (packet.length - tcp)) % 65535
  length : result.length = packet.length ∨
    (result.length = packet.length + 4 ∧ result.length ≤ budget.toNat)

section
variable {packet ip header header' payload ip' : Bytes} {budget mss checksum field : UInt16}
  {ipv6 : Bool} {options : List TcpOption}

section
variable (hlow : Lowered packet budget ipv6 mss header header' options)
include hlow

theorem syn_of_lowered (hsyn : Syn (ip ++ (header ++ payload)) ip.length ipv6 header.length options)
    (hloc : TcpAt (ip' ++ (writeU16 header' 16 checksum ++ payload)) ip'.length ipv6) :
    ∃ options', Lowers ipv6 mss options options' ∧
      Syn (ip' ++ (writeU16 header' 16 checksum ++ payload)) ip'.length ipv6 header'.length
        options' := by
  obtain ⟨options', hoptions, hlowers⟩ := hlow.options
  have hlen : 20 ≤ header.length := hsyn.length.1
  have hlen' : header.length ≤ header'.length := by
    rcases hlow.length with h | ⟨h, -⟩ <;> omega
  have hget : ∀ i < 20, i ≠ 16 → i ≠ 17 →
      (ip' ++ (writeU16 header' 16 checksum ++ payload))[ip'.length + i]? = header'[i]? := by
    intro i hi h16 h17
    rw [getElem?_append_right (by omega), Nat.add_sub_cancel_left,
      getElem?_append_left (by rw [length_writeU16]; omega), getElem?_writeU16 _ _ h16 h17]
  have hget' : ∀ i < 20, (ip ++ (header ++ payload))[ip.length + i]? = header[i]? := by
    intro i hi
    rw [getElem?_append_right (by omega), Nat.add_sub_cancel_left, getElem?_append_left (by omega)]
  refine ⟨options', hlowers, hloc, ?_, ?_, ⟨by omega, ?_⟩, ?_, hlowers.unauthenticated, .inr ?_⟩
  · obtain ⟨flags, hflags, hsyn⟩ := hsyn.flags
    rw [hget' 13 (by omega)] at hflags
    rw [hget 13 (by omega) (by omega) (by omega), hlow.fields 13 (by omega) (by omega)]
    exact ⟨flags, hflags, hsyn⟩
  · obtain ⟨d, hd, hwds⟩ := hsyn.dataOffset
    rw [hget' 12 (by omega)] at hd
    obtain ⟨d', hd', -, hwds'⟩ := hlow.dataOffset d hd hwds
    rw [hget 12 (by omega) (by omega) (by omega)]
    exact ⟨d', hd', hwds'⟩
  · simp only [length_append, length_writeU16]
    omega
  · have hslice : slice (ip' ++ (writeU16 header' 16 checksum ++ payload)) (ip'.length + 20)
        (header'.length - 20) = header'.drop 20 := by
      rw [slice, ← drop_drop, drop_left, drop_append_of_le_length
        (by rw [length_writeU16]; omega), take_append_of_le_length
        (by rw [length_drop, length_writeU16]), take_of_length_le
        (by rw [length_drop, length_writeU16])]
      apply ext_getElem?
      intro i
      rw [getElem?_drop, getElem?_drop, getElem?_writeU16 _ _ (by omega) (by omega)]
    rwa [hslice]
  · obtain ⟨os₁, os₂, rfl, hs1, hs2⟩ := hlowers.announced
    exact ⟨os₁, os₂, _, _, rfl, hs1, hs2⟩

section
variable (hpacket : packet = ip ++ (header ++ payload))
  (hsyn : Syn packet ip.length ipv6 header.length options)
  (hmss : mss.toNat + ip.length + 20 = budget.toNat)
include hpacket hsyn hmss

/-- **The new packet**, put together from its parts. -/
theorem clamped_of_lowered (hip : Relengthed ipv6 field ip ip')
    (hfield : totalLength ipv6 field = packet.length + (header'.length - header.length))
    (hck : (wordSum (writeU16 header' 16 checksum) + (header'.length - header.length)) % 65535 =
      wordSum header % 65535)
    (heven : header.length % 2 = 0) :
    ∃ options', Clamped packet (ip' ++ (writeU16 header' 16 checksum ++ payload)) budget ip.length ipv6
      header.length header'.length options options' := by
  subst hpacket
  have hlen' : header.length ≤ header'.length ∧ header'.length % 2 = 0 := by
    rcases hlow.length with h | ⟨h, -⟩ <;> omega
  have hlength : (ip' ++ (writeU16 header' 16 checksum ++ payload)).length =
      (ip ++ (header ++ payload)).length + (header'.length - header.length) := by
    simp only [length_append, length_writeU16, hip.length]
    omega
  have hfields : ∀ i < ip.length, i ∉ lengthFields ipv6 →
      (ip' ++ (writeU16 header' 16 checksum ++ payload))[i]? = (ip ++ (header ++ payload))[i]? := by
    intro i hi hnot
    rw [getElem?_append_left (by rw [hip.length]; exact hi), getElem?_append_left hi,
      hip.same i hnot]
  have hloc : TcpAt (ip' ++ (writeU16 header' 16 checksum ++ payload)) ip'.length ipv6 := by
    rw [hip.length]
    refine hsyn.located.congr ?_ hfields (?_ : readU16 _ _ = some field) ?_
    · rw [length_append, hip.length]
      omega
    · rw [readU16_append _ (length_of_readU16 hip.field), hip.field]
    · rw [hfield, hlength]
  obtain ⟨options', hlowers, hsyn'⟩ := syn_of_lowered hlow hsyn hloc
  have heff : effectiveMss ipv6 options' = mss := by
    obtain ⟨os₁, os₂, rfl, hs1, -⟩ := hlowers.announced
    rw [effectiveMss_announced hs1, be16_hi8_lo8]
  have hdrop : (ip' ++ (writeU16 header' 16 checksum ++ payload)).drop ip.length =
      writeU16 header' 16 checksum ++ payload := by rw [← hip.length, drop_left]
  have hget : ∀ i < 20, (ip' ++ (writeU16 header' 16 checksum ++ payload))[ip.length + i]? =
      (writeU16 header' 16 checksum)[i]? := by
    intro i hi
    have hle : 20 ≤ header.length := hsyn.length.1
    rw [← getElem?_drop, hdrop, getElem?_append_left (by rw [length_writeU16]; omega)]
  have hget' : ∀ i < 20, (ip ++ (header ++ payload))[ip.length + i]? = header[i]? := by
    intro i hi
    have hle : 20 ≤ header.length := hsyn.length.1
    rw [← getElem?_drop, drop_left, getElem?_append_left (by omega)]
  refine ⟨options', hsyn, hip.length ▸ hsyn', ?_, ?_, ?_, hlowers.others_eq, ?_, ?_, ?_, hfields,
    ?_, ?_, ?_⟩
  · obtain ⟨os₁, os₂, rfl, -⟩ := hlowers.announced
    exact ⟨_, mem_append_right _ (mem_cons_self ..), rfl⟩
  · rw [heff]
    exact hmss
  · rw [heff]
    exact hlowers.lower
  · rw [← drop_drop, ← drop_drop, hdrop, drop_left, drop_left]
    rw [← length_writeU16 header' 16 checksum, drop_left]
  · intro i hi hnot
    simp only [mem_cons, not_mem_nil, or_false, not_or] at hnot
    rw [hget i hi, hget' i hi, getElem?_writeU16 _ _ hnot.2.1 hnot.2.2, hlow.fields i hi hnot.1]
  · intro d d' hd hd'
    obtain ⟨d0, hd0, hwds⟩ := hsyn.dataOffset
    cases hd.symm.trans hd0
    rw [hget' 12 (by omega)] at hd
    rw [hget 12 (by omega), getElem?_writeU16 _ _ (by omega) (by omega)] at hd'
    obtain ⟨d1, hd1, hlow', -⟩ := hlow.dataOffset d hd hwds
    cases hd'.symm.trans hd1
    exact hlow'
  · intro hv4
    rw [take_left, ← hip.length, take_left]
    exact hip.residue hv4
  · rw [hdrop, drop_left, wordSum_append _ _ (by rw [length_writeU16]; exact hlen'.2),
      wordSum_append _ _ heven, hlength]
    simp only [length_append] at hck ⊢
    omega
  · rcases hlow.length with h | ⟨h, hbudget⟩ <;> omega

/-- The last part of `clamp`: checksums, lengths, and the parts of the packet. -/
theorem rebuilt_spec
    (hck : (wordSum (writeU16 header' 16 checksum) + (header'.length - header.length)) % 65535 =
      wordSum header % 65535)
    (heven : header.length % 2 = 0) :
    Safe (if header'.length - header.length = 0 then
        pure (ip ++ writeU16 header' 16 checksum ++ payload)
      else grown ipv6 (header'.length - header.length)
        (ip ++ writeU16 header' 16 checksum ++ payload)) fun result =>
      ∃ options', Clamped packet result budget ip.length ipv6 header.length header'.length options
        options' := by
  have hbds := hsyn.located.bounds
  obtain ⟨old, hold, htotal⟩ := hsyn.located.length
  have hold' : readU16 ip (lengthOffset ipv6) = some old := by
    have hoff : lengthOffset ipv6 + 2 ≤ ip.length := by
      unfold lengthOffset
      split_ifs <;> omega
    rwa [hpacket, readU16_append _ hoff] at hold
  rw [append_assoc]
  split_ifs with hadded
  · refine clamped_of_lowered hlow hpacket hsyn hmss ⟨rfl, fun _ _ => rfl, hold', fun _ => rfl⟩ ?_
      hck heven
    rw [htotal, hadded]
    rfl
  · obtain ⟨hgrown, hbudget⟩ : header'.length - header.length = 4 ∧
        packet.length + 4 ≤ budget.toNat := by
      rcases hlow.length with h | ⟨h, hbudget⟩
      · omega
      · exact ⟨by omega, hbudget⟩
    have hlt := budget.toNat_lt
    have hle : old.toNat ≤ packet.length := by
      rw [← htotal]
      exact Nat.le_add_right _ _
    refine (grown_spec (by omega) hold' (by omega)).mono ?_
    rintro result ⟨ip', rfl, hip⟩
    refine clamped_of_lowered hlow hpacket hsyn hmss hip ?_ hck heven
    rw [← htotal, totalLength, totalLength, toNat_ofNat']
    omega

end

end

theorem shiftRight_four_lt (d : UInt8) : (d >>> 4).toNat < 16 := by
  have hlt := d.toNat_lt
  change d.toNat >>> 4 < 16
  omega

/-- **The body of `clamp`** does not panic, and clamps what it rewrites. -/
theorem rewritten_spec (packet : Bytes) (budget : UInt16) :
    Safe (rewritten packet budget) fun result =>
      ∃ tcp ipv6 headerLen headerLen' options options',
        Clamped packet result budget tcp ipv6 headerLen headerLen' options options' := by
  refine .bind ((tcpOffset_spec packet).mono ?_)
  rintro ⟨tcp, ipv6⟩ hloc
  have hbds := hloc.bounds
  refine .bind (.require fun hlen => .bind (.index (by omega) fun flags hflags => ?_))
  refine .bind (.require fun hsyn => .bind (.index (by omega) fun d hd => ?_))
  generalize hn : (d >>> 4).toNat * 4 = headerLen
  obtain ⟨n, rfl⟩ : ∃ n, headerLen = 2 * n := ⟨(d >>> 4).toNat * 2, by omega⟩
  refine .bind (.require fun hhdr => .bind (.require fun hbudget => ?_))
  refine .bind (.range (by omega) hhdr.2 ?_)
  rw [Nat.add_sub_cancel_left]
  have hslice : (slice packet tcp (2 * n)).length = 2 * n := by
    rw [slice, length_take, length_drop]
    omega
  refine .bind ((walk_spec (by omega) (by omega)).mono ?_)
  rintro ⟨mss, eol⟩ ⟨before, tail, options, rfl, hfnd⟩
  refine .bind ((withMss_spec (by omega) (by omega) hfnd).mono ?_)
  intro header' hlow
  have hsyn' : Syn packet tcp ipv6 (2 * n) options := by
    refine ⟨hloc, ⟨flags, hflags, hsyn⟩, ⟨d, hd, hn⟩, hhdr, ?_, hfnd.unauthenticated, ?_⟩
    · have hdrop : (slice packet tcp (2 * n)).drop 20 = slice packet (tcp + 20) (2 * n - 20) := by
        rw [slice, slice, drop_take, drop_drop]
      rw [← hdrop]
      exact ⟨before, tail, hfnd.eq, hfnd.encodes, hfnd.ended⟩
    · rcases hfnd.mss with ⟨-, hsil⟩ | ⟨-, _, -, b1, b2, os₁, os₂, hi, lo, -, heq, -, -, h₁, h₂, -⟩
      · exact .inl hsil
      · exact .inr ⟨os₁, os₂, hi, lo, heq, h₁, h₂⟩
  obtain ⟨n', hn', hle'⟩ : ∃ n', header'.length = 2 * n' ∧ n ≤ n' ∧ n' ≤ 30 := by
    have hd0 : (slice packet tcp (2 * n))[12]? = some d := by
      rw [slice, getElem?_take_of_lt (by omega), getElem?_drop, hd]
    obtain ⟨d', -, -, hwds⟩ := hlow.dataOffset d hd0 (hn.trans hslice.symm)
    have hd' := shiftRight_four_lt d'
    have hle := hlow.length
    exact ⟨(d' >>> 4).toNat * 2, by omega, by omega, by omega⟩
  refine .bind (.sub (by omega : 2 * n ≤ header'.length) ?_)
  have hold : readU16 header' 16 = readU16 packet (tcp + 16) := by
    have hslice16 : readU16 (slice packet tcp (2 * n)) 16 = readU16 packet (tcp + 16) :=
      readU16_slice (by omega)
    rw [← hslice16]
    exact readU16_congr fun i h1 h2 => hlow.fields i (by omega) (by omega)
  have hlens : header'.length - 2 * n = 0 ∨
      packet.length - tcp + (header'.length - 2 * n) < 65536 := by
    have hlt := budget.toNat_lt
    have hle := hlow.length
    omega
  refine .bind ((updatedChecksum_spec hhdr.2 hn' (by omega) (by omega) hold hlens).mono ?_)
  intro checksum hck
  refine .bind (.write16 (by omega) (.bind (.range (Nat.zero_le _) hbds.2.2.2 ?_)))
  refine .bind (.range (by omega) le_rfl ?_)
  -- the packet and its three parts
  have hip : (packet.take tcp).length = tcp := length_take_of_le hbds.2.2.2
  have hparts : packet = packet.take tcp ++ (slice packet tcp (2 * n) ++ packet.drop (tcp + 2 * n)) := by
    rw [slice, ← drop_drop, take_append_drop, take_append_drop]
  have hpay : slice packet (tcp + 2 * n) (packet.length - (tcp + 2 * n)) =
      packet.drop (tcp + 2 * n) := by
    rw [slice, take_of_length_le (by rw [length_drop])]
  have hmss : (ofNat (budget.toNat - (tcp + 20))).toNat + tcp + 20 = budget.toNat := by
    have hlt := budget.toNat_lt
    rw [toNat_ofNat']
    omega
  have hrebuilt := rebuilt_spec hlow hparts (by rwa [hip, hslice]) (by rwa [hip])
    (by rwa [hslice]) (by omega)
  rw [hip, hslice] at hrebuilt
  rw [hpay]
  refine hrebuilt.mono ?_
  rintro result ⟨options', hclamp⟩
  exact ⟨tcp, ipv6, 2 * n, header'.length, options, options', hclamp⟩

theorem Clamped.final {packet result result' : Bytes} {budget : UInt16} {ipv6 : Bool} {m m' : ℕ}
    {options options' os os' : List TcpOption}
    (h : Clamped packet result budget tcp ipv6 n n' options options')
    (h' : Clamped result result' budget tcp' ipv6' m m' os os') : False := by
  obtain ⟨rfl, rfl⟩ := h.syn'.located.unique h'.syn.located
  obtain ⟨d, hd, hn⟩ := h.syn'.dataOffset
  obtain ⟨d', hd', hm⟩ := h'.syn.dataOffset
  cases hd.symm.trans hd'
  cases hn.symm.trans hm
  cases h.syn'.encoded.unique h'.syn.encoded
  have hfits := h.fits
  have hfits' := h'.fits
  have hlower := lt_iff_toNat_lt.1 h'.lower
  omega

theorem clamp_spec (packet : Bytes) (budget : Option UInt16) (transport : Core.Transport) :
    ∃ result, clamp packet budget transport = some result ∧
      (result = packet ∨ ∃ b tcp ipv6 headerLen headerLen' options options',
        budget = some b ∧ transport = .http3 ∧
        Clamped packet result b tcp ipv6 headerLen headerLen' options options') := by
  cases budget with
  | none => exact ⟨packet, rfl, .inl rfl⟩
  | some b =>
    by_cases htrans : transport = .http3
    · simp only [clamp, ne_eq, htrans, not_true_eq_false, if_false]
      have hspec := rewritten_spec packet b
      rcases hrun : rewritten packet b with stop | result
      · rw [hrun] at hspec
        cases stop with
        | gaveUp => exact ⟨packet, rfl, .inl rfl⟩
        | panicked => exact absurd hspec id
      · rw [hrun] at hspec
        obtain ⟨tcp, ipv6, headerLen, headerLen', options, options', hclamp⟩ := hspec
        exact ⟨result, rfl, .inr ⟨b, tcp, ipv6, headerLen, headerLen', options, options', rfl,
          trivial, hclamp⟩⟩
    · simp only [clamp, ne_eq, htrans, not_false_eq_true, if_true]
      exact ⟨packet, rfl, .inl rfl⟩

/-- **`clamp` is safe and effective.**  It never panics. It returns the packet it was
    given, or clamps a SYN: the MSS becomes what the budget leaves, and no other option,
    field or payload byte changes, but for the lengths and checksums that follow.
    Clamping again changes nothing. -/
theorem clamp_safe_and_effective (packet : Bytes) (budget : Option UInt16)
    (transport : Core.Transport) :
    ∃ result, clamp packet budget transport = some result ∧
      (result = packet ∨ ∃ b tcp ipv6 headerLen headerLen' options options',
        budget = some b ∧ transport = .http3 ∧
        Clamped packet result b tcp ipv6 headerLen headerLen' options options') ∧
      clamp result budget transport = some result := by
  obtain ⟨result, hresult, hclamped⟩ := clamp_spec packet budget transport
  refine ⟨result, hresult, hclamped, ?_⟩
  rcases hclamped with rfl | ⟨b, tcp, ipv6, n, n', options, options', rfl, rfl, hclamped⟩
  · exact hresult
  · obtain ⟨result', hresult', rfl | ⟨b', tcp', ipv6', m, m', os, os', hb, -, hclamped'⟩⟩ :=
      clamp_spec result (some b) .http3
    · exact hresult'
    · cases hb
      exact absurd (hclamped.final hclamped') id

end

end Usque.Transport.ChainMss
