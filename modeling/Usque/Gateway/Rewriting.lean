/-
  Rewriting an endpoint of a packet (`rewrite_endpoint`).
-/
import Usque.Gateway.Frame
import Usque.PacketMux.Rewrite

namespace Usque.Gateway
open Lib List Bool UInt16
open PacketMux (updateChecksum updateChecksum_residue SameExcept)

/-! ## Sums of words -/

@[simp] theorem words_cons_cons (a b : UInt8) (p : Bytes) :
    words (a :: b :: p) = be16 a b :: words p := rfl

theorem wordSum_eq_words : ∀ p : Bytes, p.length % 2 = 0 →
    wordSum p = ((words p).map UInt16.toNat).sum
  | [], _ => rfl
  | [a], h => by simp at h
  | a :: b :: p, h => by
    have hp : p.length % 2 = 0 := by
      simp only [length_cons] at h
      omega
    rw [words_cons_cons, map_cons, sum_cons, toNat_be16, wordSum, wordSum_eq_words p hp]

theorem length_words : ∀ p : Bytes, (words p).length = p.length / 2
  | [] => rfl
  | [a] => by simp [words]
  | a :: b :: p => by
    rw [words_cons_cons, length_cons, length_words p]
    simp only [length_cons]
    omega

theorem updateWords_residue (pairs : List (UInt16 × UInt16)) (checksum : UInt16) :
    ((updateWords checksum pairs).toNat + (pairs.map fun pair => pair.2.toNat).sum) % 65535 =
      (checksum.toNat + (pairs.map fun pair => pair.1.toNat).sum) % 65535 := by
  induction pairs generalizing checksum with
  | nil => rfl
  | cons pair pairs ih =>
    have hrest := ih (updateChecksum checksum pair.1 pair.2)
    have hstep := updateChecksum_residue checksum pair.1 pair.2
    simp only [updateWords, foldl_cons, map_cons, sum_cons] at hrest ⊢
    omega

def addressPairs (old new : IpAddr) : List (UInt16 × UInt16) :=
  (words old.octets).zip (words new.octets)

theorem even_octets (ip : IpAddr) : ip.octets.length % 2 = 0 := by
  rw [IpAddr.length_octets]
  split_ifs <;> rfl

variable {old new : IpAddr}

theorem updateWords_octets (checksum : UInt16) (h : old.isIpv4 = new.isIpv4) :
    ((updateWords checksum (addressPairs old new)).toNat + wordSum new.octets) % 65535 =
      (checksum.toNat + wordSum old.octets) % 65535 := by
  have hlen : (words old.octets).length = (words new.octets).length := by
    rw [length_words, length_words, IpAddr.length_octets, IpAddr.length_octets, h]
  have hresid := updateWords_residue (addressPairs old new) checksum
  have hold : (addressPairs old new).map (fun pair => pair.1.toNat) =
      (words old.octets).map UInt16.toNat := by
    rw [show (fun pair : UInt16 × UInt16 => pair.1.toNat) = UInt16.toNat ∘ Prod.fst from rfl,
      ← map_map, addressPairs, map_fst_zip hlen.le]
  have hnew : (addressPairs old new).map (fun pair => pair.2.toNat) =
      (words new.octets).map UInt16.toNat := by
    rw [show (fun pair : UInt16 × UInt16 => pair.2.toNat) = UInt16.toNat ∘ Prod.snd from rfl,
      ← map_map, addressPairs, map_snd_zip hlen.ge]
  rw [hold, hnew, ← wordSum_eq_words _ (even_octets _), ← wordSum_eq_words _ (even_octets _)]
    at hresid
  exact hresid

theorem updatedTransport_residue (protocol : UInt8) (checksum : UInt16)
    (h : old.isIpv4 = new.isIpv4) (oldPort newPort : UInt16) :
    ((updatedTransport protocol checksum (addressPairs old new) oldPort newPort).toNat +
        (wordSum new.octets + newPort.toNat)) % 65535 =
      (checksum.toNat + (wordSum old.octets + oldPort.toNat)) % 65535 := by
  have haddr := updateWords_octets checksum h
  have hport := updateChecksum_residue (updateWords checksum (addressPairs old new)) oldPort newPort
  unfold updatedTransport
  extract_lets updated
  change (updated.toNat + _) % 65535 = _ at hport
  split_ifs with hzero
  · rw [hzero.2] at hport
    change (65535 + _) % 65535 = _
    change (0 + _) % 65535 = _ at hport
    omega
  · omega

theorem updatedTransport_udp (checksum : UInt16) (pairs : List (UInt16 × UInt16))
    (oldPort newPort : UInt16) : updatedTransport 17 checksum pairs oldPort newPort ≠ 0 := by
  unfold updatedTransport
  extract_lets updated
  split_ifs with hzero
  · decide
  · intro heq
    exact hzero ⟨rfl, heq⟩

/-! ## Rewriting the fields of a frame -/

theorem copyFromSlice_field (x y z y' : Bytes) {off : ℕ} (h : x.length = off)
    (hy : y'.length = y.length) : copyFromSlice (x ++ (y ++ z)) off y' = x ++ (y' ++ z) := by
  subst h
  rw [copyFromSlice, hy, take_left, append_assoc, ← append_assoc x y z, ← length_append, drop_left]

variable {lead : Bytes} {tcp : Bool}

theorem Lead.even {ipv6 : Bool} (h : Lead ipv6 tcp lead) : lead.length % 2 = 0 := by
  cases h with
  | v4 hlen => rw [hlen]
  | v6 hlen => rw [hlen]

theorem Lead.wordSum_pos (h : Lead false tcp lead) : 0 < wordSum lead := by
  cases h with
  | @v4 _ _ first _ hlen hfst hver =>
    cases lead with
    | nil => cases hfst
    | cons a lead =>
      cases lead with
      | nil => cases hlen
      | cons b lead =>
        cases hfst
        have hne : first ≠ 0 := by
          rintro rfl
          revert hver
          decide
        have hpos : 0 < first.toNat := by
          refine Nat.pos_of_ne_zero fun heq => hne (UInt8.toNat_inj.1 heq)
        rw [wordSum]
        omega

variable {value : ℕ}

theorem finish_eq_zero : finish value = 0 ↔ 0 < value ∧ value % 65535 = 0 := by
  obtain ⟨-, hlt⟩ := foldCarry_spec value
  rw [← foldCarry_eq_ones, finish, ← UInt16.toNat_inj, toNat_not, toNat_ofNat']
  simp only [size, UInt16.toNat_zero]
  omega

/-- Sums of one residue finish as zero together, if neither wraps nor is zero. -/
theorem finish_congr {value' : ℕ} (hpos : 0 < value') (hlt : value < 2 ^ 32)
    (hlt' : value' < 2 ^ 32) (h : value' % 65535 = value % 65535) (hzero : finish (u32 value) = 0) :
    finish (u32 value') = 0 := by
  unfold u32 at hzero ⊢
  rw [Nat.mod_eq_of_lt hlt, finish_eq_zero] at hzero
  rw [Nat.mod_eq_of_lt hlt', finish_eq_zero]
  omega

namespace Frame
variable (f : Frame)

def address (source : Bool) : IpAddr := if source then f.source else f.destination

def port (source : Bool) : UInt16 := if source then f.sourcePort else f.destinationPort

theorem address_family (source : Bool) : (f.address source).isIpv4 = !f.ipv6 := by
  cases source
  · exact f.destination_family
  · exact f.source_family

def resealed (checksum headerChecksum : UInt16) : Frame := { f with checksum, headerChecksum }

def moved (source : Bool) (ip : IpAddr) (port : UInt16) (h : ip.isIpv4 = !f.ipv6) : Frame :=
  if source then { f with source := ip, sourcePort := port, source_family := h }
  else { f with destination := ip, destinationPort := port, destination_family := h }

def Summed : Prop := ¬((f.parsed.checksumOptional = true) ∧ f.checksum = 0)

instance : Decidable f.Summed := by
  unfold Summed
  infer_instance

def rewritten (source : Bool) (ip : IpAddr) (port : UInt16) (h : ip.isIpv4 = !f.ipv6) : Frame :=
  (f.resealed
    (if f.Summed then updatedTransport (protocolOf f.tcp) f.checksum
      (addressPairs (f.address source) ip) (f.port source) port else f.checksum)
    (if f.ipv6 then f.headerChecksum
      else updateWords f.headerChecksum (addressPairs (f.address source) ip))).moved
    source ip port h

theorem read_headerChecksum (h : f.ipv6 = false) : readU16 f.bytes 10 = some f.headerChecksum := by
  have hst := f.length_opening
  simp only [start, opening, h, false_eq_true, if_false, length_append, length_word] at hst
  simp only [bytes_source, opening, h, false_eq_true, if_false, append_assoc]
  exact readU16_field _ _ _ (by omega)

theorem write_headerChecksum (v : UInt16) (h : f.ipv6 = false) :
    writeU16 f.bytes 10 v = (f.resealed f.checksum v).bytes := by
  have hst := f.length_opening
  simp only [start, opening, h, false_eq_true, if_false, length_append, length_word] at hst
  have hnew : (f.resealed f.checksum v).bytes = f.lead ++ (word v ++
      (f.source.octets ++ (f.destination.octets ++ f.transport))) := by
    rw [bytes_source]
    simp only [opening, resealed, h, false_eq_true, if_false, append_assoc]
    rfl
  rw [hnew]
  simp only [bytes_source, opening, h, false_eq_true, if_false, append_assoc]
  exact writeU16_field _ _ _ _ (by omega)

theorem write_checksum (v : UInt16) :
    writeU16 f.bytes f.checksumOffset v = (f.resealed v f.headerChecksum).bytes := by
  rw [bytes_checksum]
  exact (writeU16_field _ _ _ _ f.length_before_checksum).trans
    (bytes_checksum (f.resealed v f.headerChecksum)).symm

theorem write_endpoint (source : Bool) (ip : IpAddr) (port : UInt16) (h : ip.isIpv4 = !f.ipv6) :
    writeU16 (copyFromSlice f.bytes (if source then f.start else f.start + f.width) ip.octets)
        (f.transportOffset + if source then 0 else 2) port = (f.moved source ip port h).bytes := by
  have hlen : ip.octets.length = f.width := by
    rw [IpAddr.length_octets, h, width]
    cases f.ipv6 <;> rfl
  cases source
  · let g : Frame := { f with destination := ip, destination_family := h }
    have hcopy : copyFromSlice f.bytes (f.start + f.width) ip.octets = g.bytes := by
      rw [f.bytes_destination, g.bytes_destination]
      refine copyFromSlice_field _ _ _ _ ?_ (hlen.trans f.length_destination.symm)
      rw [length_append, f.length_opening, f.length_source]
    simp only [false_eq_true, if_false, hcopy]
    rw [g.bytes_destinationPort, writeU16_field _ _ _ _ (by
      rw [length_append, g.length_header]; rfl)]
    exact (bytes_destinationPort (f.moved false ip port h)).symm
  · let g : Frame := { f with source := ip, source_family := h }
    have hcopy : copyFromSlice f.bytes f.start ip.octets = g.bytes := by
      rw [f.bytes_source, g.bytes_source]
      exact copyFromSlice_field _ _ _ _ f.length_opening (hlen.trans f.length_source.symm)
    simp only [if_true, hcopy, Nat.add_zero]
    exact writeU16_field _ _ _ _ g.length_header

theorem addressPlace_parsed (source : Bool) : addressPlace f.parsed.version source =
    some (if source then f.start else f.start + f.width, f.width) := by
  unfold addressPlace parsed start width
  cases f.ipv6 <;> cases source <;> rfl

/-- **A rewrite of the bytes of a frame succeeds**, and gives those of the rewritten frame. -/
theorem rewriteEndpoint_bytes (source : Bool) (ip : IpAddr) (port : UInt16)
    (h : ip.isIpv4 = !f.ipv6) :
    rewriteEndpoint f.bytes f.parsed (f.address source) ip (f.port source) port source =
      (true, (f.rewritten source ip port h).bytes) := by
  have hold : (f.address source).octets.length = f.width := by
    cases source
    · exact f.length_destination
    · exact f.length_source
  have hnew : ip.octets.length = f.width := by
    rw [IpAddr.length_octets, h, width]
    cases f.ipv6 <;> rfl
  have hlen := f.length_bytes
  have hmiddle := f.middle_length
  have hoff : f.transportOffset = f.start + f.width + f.width := by
    unfold transportOffset start width
    cases f.ipv6 <;> rfl
  have hck : f.checksumOffset = f.transportOffset + 4 + f.middle.length := by
    rw [checksumOffset, hmiddle]
    cases f.tcp <;> rfl
  have htrans : 20 ≤ f.transportOffset := by
    unfold transportOffset
    cases f.ipv6 <;> decide
  unfold rewriteEndpoint
  rw [if_neg (by rw [f.address_family, h]; simp), f.addressPlace_parsed]
  dsimp only
  rw [if_neg, if_neg (by rw [hold, hnew]; simp)]
  · -- all checks passed: the four writes, one after the other
    have hread : readU16 f.bytes f.parsed.checksumOffset = some f.checksum := f.read_checksum
    rw [hread, Option.getD_some]
    set sum := if f.Summed then updatedTransport (protocolOf f.tcp) f.checksum
      (addressPairs (f.address source) ip) (f.port source) port else f.checksum with hsum
    set headerSum := if f.ipv6 then f.headerChecksum
      else updateWords f.headerChecksum (addressPairs (f.address source) ip) with hheaderSum
    have htransportSum : (if f.parsed.checksumOptional ∧ f.checksum = 0 then f.bytes
        else writeU16 f.bytes f.parsed.checksumOffset (updatedTransport f.parsed.protocol f.checksum
          ((words (f.address source).octets).zip (words ip.octets)) (f.port source) port)) =
        (f.resealed sum f.headerChecksum).bytes := by
      by_cases hsummed : f.Summed
      · rw [if_neg hsummed, hsum, if_pos hsummed]
        exact f.write_checksum _
      · rw [if_pos (not_not.1 hsummed), hsum, if_neg hsummed]
        rfl
    have hipSum : (if f.parsed.version = 4 then writeU16 (f.resealed sum f.headerChecksum).bytes 10
        (updateWords ((readU16 f.bytes 10).getD 0)
          ((words (f.address source).octets).zip (words ip.octets)))
        else (f.resealed sum f.headerChecksum).bytes) = (f.resealed sum headerSum).bytes := by
      cases hipv6 : f.ipv6
      · have hver : f.parsed.version = 4 := by simp [parsed, hipv6]
        rw [if_pos hver, f.read_headerChecksum hipv6, hheaderSum, hipv6]
        exact (f.resealed sum f.headerChecksum).write_headerChecksum _ hipv6
      · have hver : f.parsed.version ≠ 4 := by simp [parsed, hipv6]
        rw [if_neg hver, hheaderSum, hipv6]
        rfl
    rw [htransportSum, hipSum]
    exact congrArg (Prod.mk true) ((f.resealed sum headerSum).write_endpoint source ip port h)
  · have hfields : f.parsed.transportOffset = f.transportOffset ∧
        f.parsed.checksumOffset = f.checksumOffset := ⟨rfl, rfl⟩
    cases source <;> simp only [false_eq_true, if_false, if_true] <;> omega

/-! ## The sums of a frame -/

/-- The sum that the transport checksum covers. -/
def total : ℕ :=
  wordSum f.source.octets + wordSum f.destination.octets + (protocolOf f.tcp).toNat +
    f.transport.length + wordSum f.transport

theorem even_middle : f.middle.length % 2 = 0 := by
  rw [f.middle_length]
  split_ifs <;> rfl

theorem wordSum_header (h : f.ipv6 = false) : wordSum f.header =
    wordSum f.lead + f.headerChecksum.toNat + wordSum f.source.octets +
      wordSum f.destination.octets := by
  simp only [header, opening, h, false_eq_true, if_false, append_assoc]
  rw [wordSum_append _ _ f.hlead.even, wordSum_word_append,
    wordSum_append _ _ (even_octets f.source)]
  omega

theorem wordSum_transport : wordSum f.transport =
    f.sourcePort.toNat + f.destinationPort.toNat + wordSum f.middle + f.checksum.toNat +
      wordSum f.rest := by
  rw [transport, wordSum_word_append, wordSum_word_append, wordSum_append _ _ f.even_middle,
    wordSum_word_append]
  omega

section
variable {f} {source : Bool} {ip : IpAddr} {port : UInt16} (h : ip.isIpv4 = !f.ipv6)
include h

theorem rewritten_header (hipv6 : f.ipv6 = false) :
    wordSum (f.rewritten source ip port h).header % 65535 = wordSum f.header % 65535 := by
  have hresid := updateWords_octets f.headerChecksum ((f.address_family source).trans h.symm)
  cases source
  · have hsame : (f.rewritten false ip port h).ipv6 = false := hipv6
    rw [wordSum_header _ hsame, wordSum_header f hipv6]
    simp only [rewritten, moved, resealed, address, hipv6, false_eq_true, if_false]
      at hresid ⊢
    omega
  · have hsame : (f.rewritten true ip port h).ipv6 = false := hipv6
    rw [wordSum_header _ hsame, wordSum_header f hipv6]
    simp only [rewritten, moved, resealed, address, hipv6, false_eq_true, if_false, if_true]
      at hresid ⊢
    omega

theorem length_rewritten_transport :
    (f.rewritten source ip port h).transport.length = f.transport.length := by
  rw [length_transport, length_transport]
  cases source <;> rfl

/-- A rewrite keeps the residue of what the transport checksum covers. -/
theorem rewritten_total (hsum : f.Summed) :
    (f.rewritten source ip port h).total % 65535 = f.total % 65535 := by
  have hresid := updatedTransport_residue (protocolOf f.tcp) f.checksum
    ((f.address_family source).trans h.symm) (f.port source) port
  have hlen : (f.rewritten source ip port h).transport.length = f.transport.length :=
    length_rewritten_transport h
  unfold total
  rw [hlen, wordSum_transport, wordSum_transport]
  cases source
  · simp only [rewritten, moved, resealed, address, Frame.port, if_pos hsum,
      false_eq_true, if_false] at hresid ⊢
    omega
  · simp only [rewritten, moved, resealed, address, Frame.port, if_pos hsum, if_true]
      at hresid ⊢
    omega

end

/-! ## Validity -/

theorem drop_header : f.bytes.drop f.transportOffset = f.transport := by
  rw [bytes, ← f.length_header, drop_left]

theorem take_header (h : f.ipv6 = false) : f.bytes.take 20 = f.header := by
  have hlen := f.length_header
  simp only [transportOffset, h, false_eq_true, if_false] at hlen
  rw [bytes, ← hlen, take_left]

theorem read_transport (off : ℕ) :
    readU16 f.transport off = readU16 f.bytes (f.transportOffset + off) := by
  rw [← f.drop_header, readU16_drop]

theorem pseudoChecksum_transport :
    pseudoChecksum f.source f.destination (protocolOf f.tcp) f.transport =
      finish (u32 f.total) := by
  rw [pseudoChecksum, if_pos (by rw [f.source_family, f.destination_family])]
  unfold sum u32 total
  congr 1
  omega

theorem validTransport_iff : validTransport f.bytes f.parsed ↔
    (f.ipv6 = false → finish (u32 (wordSum f.header)) = 0) ∧
    (f.tcp = false → ((readU16 f.transport 4).getD 0).toNat = f.transport.length) ∧
    (f.Summed → finish (u32 f.total) = 0) := by
  have hdrop : f.bytes.drop f.parsed.transportOffset = f.transport := f.drop_header
  have hproto : f.parsed.protocol = protocolOf f.tcp := rfl
  have hpseudo : pseudoChecksum f.parsed.source f.parsed.destination f.parsed.protocol f.transport =
    finish (u32 f.total) := f.pseudoChecksum_transport
  unfold validTransport
  rw [hdrop]
  dsimp only
  rw [hpseudo]
  have hver : f.parsed.version = 4 ↔ f.ipv6 = false := by
    cases hipv6 : f.ipv6 <;> simp [parsed, hipv6]
  have hudp : f.parsed.protocol = 17 ↔ f.tcp = false := by
    rw [hproto]
    cases f.tcp <;> decide
  have hsummed : f.Summed ↔ ¬(f.tcp = false ∧ f.ipv6 = false ∧ f.checksum = 0) := by
    unfold Summed parsed
    cases f.tcp <;> cases f.ipv6 <;> simp
  have hhdr : f.ipv6 = false →
      Gateway.checksum (f.bytes.take 20) = finish (u32 (wordSum f.header)) := by
    intro hipv6
    rw [f.take_header hipv6]
    rfl
  have hlen : f.tcp = false → 8 ≤ f.transport.length := by
    intro htcp
    rw [f.length_transport, f.middle_length, htcp]
    simp only [false_eq_true, if_false]
    omega
  have hread : f.tcp = false → readU16 f.transport 6 = some f.checksum := by
    intro htcp
    have hoff : f.checksumOffset = f.transportOffset + 6 := by
      rw [checksumOffset, htcp]
      rfl
    rw [f.read_transport, ← hoff, f.read_checksum]
  simp only [hver, hudp, hsummed]
  split_ifs with hbad hsht habsent
  · refine iff_of_false id fun hval => hbad.2 ?_
    rw [hhdr hbad.1, hval.1 hbad.1]
  · refine iff_of_false id fun hval => ?_
    have := hlen hsht.1
    rcases hsht.2 with hlt | hne
    · omega
    · exact hne (hval.2.1 hsht.1)
  · rw [hread habsent.1, Option.some.injEq] at habsent
    refine iff_of_true rfl ⟨fun hipv6 => ?_, fun htcp => ?_, fun hsum => absurd habsent hsum⟩
    · rw [← hhdr hipv6]
      exact not_not.1 fun hne => hbad ⟨hipv6, hne⟩
    · exact not_not.1 fun hne => hsht ⟨htcp, .inr hne⟩
  · rw [beq_iff_eq]
    constructor
    · refine fun hsum => ⟨fun hipv6 => ?_, fun htcp => ?_, fun _ => hsum⟩
      · rw [← hhdr hipv6]
        exact not_not.1 fun hne => hbad ⟨hipv6, hne⟩
      · exact not_not.1 fun hne => hsht ⟨htcp, .inr hne⟩
    · rintro ⟨-, -, hsum⟩
      refine hsum fun hzero => habsent ⟨hzero.1, hzero.2.1, ?_⟩
      rw [hread hzero.1, hzero.2.2]

theorem wordSum_octets_le (ip : IpAddr) : wordSum ip.octets ≤ 65535 * 8 := by
  have hle := wordSum_le ip.octets
  rw [IpAddr.length_octets] at hle
  split_ifs at hle <;> omega

/-- The sum over a body of at most `131038` bytes does not wrap. -/
theorem total_lt (h : f.transport.length ≤ 131038) : f.total < 2 ^ 32 := by
  have hsrc := wordSum_octets_le f.source
  have hdst := wordSum_octets_le f.destination
  have hbody := wordSum_le f.transport
  have hproto : (protocolOf f.tcp).toNat ≤ 17 := by
    cases f.tcp <;> decide
  unfold total
  omega

theorem total_pos : 0 < f.total := by
  have hproto : 0 < (protocolOf f.tcp).toNat := by
    cases f.tcp <;> decide
  unfold total
  omega

theorem wordSum_header_pos (h : f.ipv6 = false) : 0 < wordSum f.header := by
  have hlead := f.hlead
  rw [h] at hlead
  have := hlead.wordSum_pos
  rw [f.wordSum_header h]
  omega

theorem wordSum_header_lt (h : f.ipv6 = false) : wordSum f.header < 2 ^ 32 := by
  have hle := wordSum_le f.header
  rw [f.length_header, transportOffset, h] at hle
  simp only [false_eq_true, if_false] at hle
  omega

section
variable {f} {source : Bool} {ip : IpAddr} {port : UInt16} (h : ip.isIpv4 = !f.ipv6)
include h

theorem rewritten_ipv6 : (f.rewritten source ip port h).ipv6 = f.ipv6 := by
  cases source <;> rfl

theorem rewritten_tcp : (f.rewritten source ip port h).tcp = f.tcp := by
  cases source <;> rfl

theorem rewritten_checksum : (f.rewritten source ip port h).checksum =
    if f.Summed then updatedTransport (protocolOf f.tcp) f.checksum
      (addressPairs (f.address source) ip) (f.port source) port else f.checksum := by
  cases source <;> rfl

theorem rewritten_headerChecksum : (f.rewritten source ip port h).headerChecksum =
    if f.ipv6 then f.headerChecksum
      else updateWords f.headerChecksum (addressPairs (f.address source) ip) := by
  cases source <;> rfl

theorem rewritten_summed : (f.rewritten source ip port h).Summed ↔ f.Summed := by
  have hck : (f.rewritten source ip port h).checksum = _ := rewritten_checksum h
  have hoptional : (f.rewritten source ip port h).parsed.checksumOptional =
      f.parsed.checksumOptional := by
    cases source <;> rfl
  constructor
  · intro hsum
    by_contra hnot
    rw [if_neg hnot] at hck
    rw [Summed, hck, hoptional] at hsum
    exact hnot hsum
  · rintro hsum ⟨hopt, hzero⟩
    rw [hck, if_pos hsum] at hzero
    rw [hoptional] at hopt
    have htcp : f.tcp = false := by
      unfold parsed at hopt
      cases htcp : f.tcp
      · rfl
      · simp [htcp] at hopt
    rw [htcp] at hzero
    exact updatedTransport_udp _ _ _ _ hzero

/-- **A rewrite keeps a packet valid**, unless the sum over its body may wrap. -/
theorem rewritten_valid (hbody : f.transport.length ≤ 131038)
    (hval : validTransport f.bytes f.parsed) :
    validTransport (f.rewritten source ip port h).bytes (f.rewritten source ip port h).parsed =
      true := by
  rw [validTransport_iff] at hval ⊢
  obtain ⟨hhdr, hlen, htotal⟩ := hval
  have hsize : (f.rewritten source ip port h).transport.length = f.transport.length :=
    length_rewritten_transport h
  refine ⟨fun hipv6 => ?_, fun htcp => ?_, fun hsum => ?_⟩
  · rw [rewritten_ipv6 h] at hipv6
    have hsame : (f.rewritten source ip port h).ipv6 = false := by rw [rewritten_ipv6 h, hipv6]
    exact finish_congr (wordSum_header_pos _ hsame) (f.wordSum_header_lt hipv6)
      (wordSum_header_lt _ hsame) (rewritten_header h hipv6) (hhdr hipv6)
  · rw [rewritten_tcp h] at htcp
    rw [hsize, ← hlen htcp]
    -- the length field of UDP stands between the ports and the checksum
    have hfield : ∀ g : Frame, readU16 g.transport 4 =
        readU16 (g.middle ++ (word g.checksum ++ g.rest)) 0 := by
      intro g
      rw [transport, ← append_assoc, show (4 : ℕ) = (word g.sourcePort ++
        word g.destinationPort).length + 0 from rfl, ← readU16_drop, drop_left]
    have hmiddle : ∀ g : Frame, g.tcp = false → readU16 g.transport 4 = readU16 g.middle 0 := by
      intro g hg
      rw [hfield, readU16_lead]
      rw [g.middle_length, hg]
      simp
    rw [hmiddle f htcp, hmiddle _ (by rw [rewritten_tcp h, htcp])]
    cases source <;> rfl
  · rw [rewritten_summed h] at hsum
    exact finish_congr (total_pos _) (f.total_lt hbody) (total_lt _ (by rw [hsize]; exact hbody))
      (rewritten_total h hsum) (htotal hsum)

theorem parsed_rewritten : (f.rewritten source ip port h).parsed =
    if source then { f.parsed with source := ip, sourcePort := port }
    else { f.parsed with destination := ip, destinationPort := port } := by
  cases source <;> rfl

end

/-! ## Rewriting back -/

/-- Two spellings of one checksum. -/
def SameChecksum (a b : UInt16) : Prop := a = b ∨ (a = 0 ∧ b = 0xffff) ∨ (a = 0xffff ∧ b = 0)

theorem sameChecksum_of_residue {a b : UInt16} (h : a.toNat % 65535 = b.toNat % 65535) :
    SameChecksum a b := by
  have ha := a.toNat_lt
  have hb := b.toNat_lt
  unfold SameChecksum
  simp only [← UInt16.toNat_inj, UInt16.toNat_zero, show (0xffff : UInt16).toNat = 65535 from rfl]
  omega

section
variable {f} {g : Frame} {source : Bool} {ip : IpAddr} {port : UInt16} {h : ip.isIpv4 = !f.ipv6}
  (hg : g = f.rewritten source ip port h) (h' : (f.address source).isIpv4 = !g.ipv6)
include hg

theorem back_checksum : SameChecksum f.checksum
    (g.rewritten source (f.address source) (f.port source) h').checksum := by
  have hfam : (f.address source).isIpv4 = ip.isIpv4 := (f.address_family source).trans h.symm
  have haddr : g.address source = ip := by
    rw [hg]
    cases source <;> rfl
  have hport : g.port source = port := by
    rw [hg]
    cases source <;> rfl
  have htcp : g.tcp = f.tcp := by rw [hg, rewritten_tcp h]
  have hmid := congrArg Frame.checksum hg
  rw [rewritten_checksum h] at hmid
  rw [rewritten_checksum h', haddr, hport, htcp]
  by_cases hsum : f.Summed
  · have hsum' : g.Summed := by rwa [hg, rewritten_summed h]
    rw [if_pos hsum] at hmid
    have hforth := updatedTransport_residue (protocolOf f.tcp) f.checksum hfam (f.port source) port
    have hback := updatedTransport_residue (protocolOf f.tcp) g.checksum hfam.symm port
      (f.port source)
    rw [← hmid] at hforth
    rw [if_pos hsum']
    refine sameChecksum_of_residue ?_
    omega
  · have hsum' : ¬ g.Summed := by rwa [hg, rewritten_summed h]
    rw [if_neg hsum] at hmid
    rw [if_neg hsum', hmid]
    exact .inl rfl

theorem back_headerChecksum : SameChecksum f.headerChecksum
    (g.rewritten source (f.address source) (f.port source) h').headerChecksum := by
  have hfam : (f.address source).isIpv4 = ip.isIpv4 := (f.address_family source).trans h.symm
  have haddr : g.address source = ip := by
    rw [hg]
    cases source <;> rfl
  have hipv6 : g.ipv6 = f.ipv6 := by rw [hg, rewritten_ipv6 h]
  have hmid := congrArg Frame.headerChecksum hg
  rw [rewritten_headerChecksum h] at hmid
  rw [rewritten_headerChecksum h', haddr, hipv6]
  split_ifs at hmid ⊢
  · rw [hmid]
    exact .inl rfl
  · have hforth := updateWords_octets f.headerChecksum hfam
    have hback := updateWords_octets g.headerChecksum hfam.symm
    rw [← hmid] at hforth
    refine sameChecksum_of_residue ?_
    omega

theorem rewritten_back : g.rewritten source (f.address source) (f.port source) h' =
    f.resealed (g.rewritten source (f.address source) (f.port source) h').checksum
      (g.rewritten source (f.address source) (f.port source) h').headerChecksum := by
  subst hg
  cases source <;> rfl

end

end Frame

end Usque.Gateway
