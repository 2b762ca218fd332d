/-
  The round trip of capsules.
-/
import Usque.Protocol.Capsule

namespace Usque.Protocol
open Lib List ConnectIpCapsule IpAddr

variable {payload rest s : Bytes} {capsule : ConnectIpCapsule}

/-! ## Fields -/

theorem reads_takeU8 (byte : UInt8) : Reads takeU8 [byte] byte := fun _ => rfl

theorem takeU8_eq_ok {byte : UInt8} : takeU8 s = .ok (byte, rest) ↔ s = byte :: rest := by
  constructor
  · intro h
    cases s with
    | nil => cases h
    | cons => cases h; rfl
  · rintro rfl
    rfl

theorem reads_decodeAddress (address : IpAddr) :
    Reads (decodeAddress (addressFamily address)) address.octets address := by
  intro rest
  cases address with
  | v4 addr =>
    have hlen : (v4 addr).octets.length = 4 := length_beBytes _ _
    have hge : ¬ ((v4 addr).octets ++ rest).length < 4 := by
      rw [length_append]
      omega
    simp only [decodeAddress, addressFamily, if_true, if_neg hge]
    rw [take_left' hlen, drop_left' hlen, ofV4_octets]
  | v6 addr =>
    have hlen : (v6 addr).octets.length = 16 := length_beBytes _ _
    have hge : ¬ ((v6 addr).octets ++ rest).length < 16 := by
      rw [length_append]
      omega
    have hne : ¬ (6 : UInt8) = 4 := by decide
    simp only [decodeAddress, addressFamily, if_neg hne, if_true, if_neg hge]
    rw [take_left' hlen, drop_left' hlen, ofV6_octets]

theorem decodeAddress_spec {ipVersion : UInt8} {address : IpAddr}
    (h : decodeAddress ipVersion s = .ok (address, rest)) :
    s = address.octets ++ rest ∧ ipVersion = addressFamily address := by
  simp only [decodeAddress] at h
  split_ifs at h with h4 hlen h6 hlen
  · cases h
    have htake : (s.take 4).length = 4 := by rw [length_take]; omega
    refine ⟨?_, h4⟩
    rw [ofV4, octets, BitVec.toNat_ofNat, Nat.mod_eq_of_lt]
    · conv_lhs => rw [← take_append_drop 4 s, ← beBytes_beNat (s.take 4), htake]
    · have hlt := beNat_lt (s.take 4)
      rw [htake] at hlt
      exact hlt
  · cases h
    have htake : (s.take 16).length = 16 := by rw [length_take]; omega
    refine ⟨?_, h6⟩
    rw [ofV6, octets, BitVec.toNat_ofNat, Nat.mod_eq_of_lt]
    · conv_lhs => rw [← take_append_drop 16 s, ← beBytes_beNat (s.take 16), htake]
    · have hlt := beNat_lt (s.take 16)
      rw [htake] at hlt
      exact hlt

theorem lift_eq_ok {x : Except ProtocolError Unit} {u : Unit} :
    (StateT.lift x : Cursor ProtocolError Unit) s = .ok (u, rest) ↔ x = .ok () ∧ s = rest := by
  cases x with
  | error => simp [StateT.lift, bind, Except.bind]
  | ok => simp [StateT.lift, bind, Except.bind, pure, Except.pure]

theorem reads_lift {x : Except ProtocolError Unit} (h : x = .ok ()) :
    Reads (StateT.lift x : Cursor ProtocolError Unit) [] () := by
  intro rest
  exact lift_eq_ok.2 ⟨h, rfl⟩

/-! ## Entries -/

structure EntryCodec {α : Type} (encode : α → Except ProtocolError Bytes)
    (decode : Cursor ProtocolError α) : Prop where
  read : ∀ a bytes, encode a = .ok bytes → Reads decode bytes a ∧ bytes ≠ []
  write : ∀ s a rest, decode s = .ok (a, rest) →
    ∃ used bytes, s = used ++ rest ∧ encode a = .ok bytes ∧ bytes.length ≤ used.length

theorem prefixCodec : EntryCodec encodePrefix decodePrefix := by
  constructor
  · intro p bytes h
    simp only [encodePrefix, bindOk, pure, Except.pure, Except.ok.injEq] at h
    obtain ⟨_, hval, id, hid, rfl⟩ := h
    refine ⟨?_, by simp⟩
    have hread : Reads decodePrefix (id ++ ([addressFamily p.address] ++ (p.address.octets ++
        ([p.prefixLen] ++ ([] ++ []))))) p :=
      (decodeVarint_encodeVarint hid).bind ((reads_takeU8 _).bind
        ((reads_decodeAddress _).bind ((reads_takeU8 _).bind ((reads_lift hval).bind (.pure p)))))
    simpa [encodeAddress] using hread
  · intro s p rest h
    simp only [decodePrefix, Cursor.bind_eq_ok] at h
    obtain ⟨id, s1, hid, version, s2, hver, address, s3, haddr, len, s4, hlen, _, s5, hval, h⟩ := h
    cases h
    obtain ⟨hchecked, rfl⟩ := lift_eq_ok.1 hval
    obtain ⟨used, bytes, rfl, henc, hle⟩ := decodeVarint_spec hid
    obtain rfl := takeU8_eq_ok.1 hver
    obtain ⟨rfl, rfl⟩ := decodeAddress_spec haddr
    obtain rfl := takeU8_eq_ok.1 hlen
    refine ⟨used ++ encodeAddress address ++ [len], bytes ++ encodeAddress address ++ [len], ?_, ?_,
      ?_⟩
    · simp [encodeAddress]
    · simp only [encodePrefix, bindOk, pure, Except.pure]
      exact ⟨(), hchecked, bytes, henc, rfl⟩
    · simp only [length_append]
      omega

theorem encodeRange_eq_ok {range : IpAddressRange} {bytes : Bytes} :
    encodeRange range = .ok bytes ↔ addressFamily range.start = addressFamily range.end ∧
      bytes = addressFamily range.start :: range.start.octets ++ range.end.octets ++
        [range.protocol] := by
  obtain ⟨start, stop, protocol⟩ := range
  cases start <;> cases stop <;> simp [encodeRange, addressFamily, eq_comm]

theorem rangeCodec : EntryCodec encodeRange decodeRange := by
  constructor
  · intro range bytes h
    obtain ⟨hfam, rfl⟩ := encodeRange_eq_ok.1 h
    refine ⟨?_, by simp⟩
    have hread : Reads decodeRange ([addressFamily range.start] ++ (range.start.octets ++
        (range.end.octets ++ ([range.protocol] ++ [])))) range := by
      refine (reads_takeU8 _).bind ((reads_decodeAddress _).bind (.bind ?_ ((reads_takeU8 _).bind
        (.pure range))))
      rw [hfam]
      exact reads_decodeAddress _
    simpa using hread
  · intro s range rest h
    simp only [decodeRange, Cursor.bind_eq_ok] at h
    obtain ⟨version, s1, hver, start, s2, hst, stop, s3, hstop, protocol, s4, hproto, h⟩ := h
    cases h
    obtain rfl := takeU8_eq_ok.1 hver
    obtain ⟨rfl, rfl⟩ := decodeAddress_spec hst
    obtain ⟨rfl, hfam⟩ := decodeAddress_spec hstop
    obtain rfl := takeU8_eq_ok.1 hproto
    refine ⟨_, _, ?_, encodeRange_eq_ok.2 ⟨hfam, rfl⟩, le_rfl⟩
    simp

/-! ## Payloads -/

theorem ensureEntryCapacity_eq_ok {n : ℕ} :
    ensureEntryCapacity n = .ok () ↔ n < MAX_CAPSULE_ENTRIES := by
  rw [ensureEntryCapacity]
  split_ifs with h <;> simp <;> omega

theorem ensurePayloadSize_eq_ok {n : ℕ} :
    ensurePayloadSize n = .ok () ↔ n ≤ MAX_CAPSULE_PAYLOAD := by
  rw [ensurePayloadSize]
  split_ifs with h <;> simp <;> omega

section
variable {α : Type} {encode : α → Except ProtocolError Bytes} {decode : Cursor ProtocolError α}

/-- **The entries of an encoded payload are read back.** -/
theorem decodeEntries_encodeEntries (hc : EntryCodec encode decode) {as : List α} {index : ℕ}
    {out : Bytes} (h : encodeEntries encode index payload as = .ok out) :
    (as = [] ∨ index + as.length ≤ MAX_CAPSULE_ENTRIES) ∧
    ∃ bytes, out = payload ++ bytes ∧
      ∀ room, as.length ≤ room → decodeEntries decode room bytes = .ok as := by
  induction as generalizing index payload with
  | nil =>
    cases h
    refine ⟨.inl rfl, [], (append_nil _).symm, ?_⟩
    intro room _
    cases room <;> rfl
  | cons a as ih =>
    simp only [encodeEntries, bindOk] at h
    obtain ⟨_, hcap, bytes, henc, _, hsize, h⟩ := h
    obtain ⟨hroom, tail, rfl, hdec⟩ := ih h
    obtain ⟨hread, hne⟩ := hc.read a bytes henc
    refine ⟨.inr ?_, bytes ++ tail, append_assoc .., ?_⟩
    · have hlt := ensureEntryCapacity_eq_ok.1 hcap
      rw [length_cons]
      rcases hroom with rfl | hroom
      · rw [length_nil]
        omega
      · omega
    · intro room hle
      cases room with
      | zero => cases hle
      | succ room =>
        rw [length_cons] at hle
        rcases bytes with _ | ⟨byte, bytes⟩
        · exact absurd rfl hne
        · rw [cons_append, decodeEntries]
          have hfst := hread tail
          rw [cons_append] at hfst
          simp only [hfst, bindOk]
          exact ⟨(a, tail), rfl, as, hdec room (by omega), rfl⟩

/-- **The entries of a payload are encoded again**, in at most as many bytes. -/
theorem encodeEntries_decodeEntries (hc : EntryCodec encode decode) {room : ℕ} {as : List α}
    (h : decodeEntries decode room s = .ok as) {index : ℕ}
    (hroom : index + room ≤ MAX_CAPSULE_ENTRIES)
    (hsize : payload.length + s.length ≤ MAX_CAPSULE_PAYLOAD) :
    ∃ bytes, encodeEntries encode index payload as = .ok (payload ++ bytes) ∧
      bytes.length ≤ s.length := by
  induction room generalizing s as index payload with
  | zero =>
    cases s with
    | nil => cases h; exact ⟨[], by rw [append_nil]; rfl, le_rfl⟩
    | cons => cases h
  | succ room ih =>
    cases s with
    | nil => cases h; exact ⟨[], by rw [append_nil]; rfl, le_rfl⟩
    | cons byte s =>
      simp only [decodeEntries, bindOk] at h
      obtain ⟨⟨a, s1⟩, hdec, as', htail, h⟩ := h
      cases h
      obtain ⟨used, bytes, hs, henc, hle⟩ := hc.write _ a s1 hdec
      have hlen : (byte :: s).length = used.length + s1.length := by rw [hs, length_append]
      have hsize' : (payload ++ bytes).length + s1.length ≤ MAX_CAPSULE_PAYLOAD := by
        rw [length_append]
        omega
      obtain ⟨bytes', hrest, hle'⟩ := ih htail (by omega : index + 1 + room ≤ _) hsize'
      refine ⟨bytes ++ bytes', ?_, ?_⟩
      · simp only [encodeEntries, bindOk]
        refine ⟨(), ensureEntryCapacity_eq_ok.2 (by omega), bytes, henc, (),
          ensurePayloadSize_eq_ok.2 (by omega), ?_⟩
        rw [hrest, append_assoc]
      · have hle2 : bytes'.length ≤ s1.length := hle'
        rw [length_append]
        omega

end

def ConnectIpCapsule.Proper : ConnectIpCapsule → Prop
  | .unknown capsuleType _ => capsuleType ≠ ADDRESS_ASSIGN_CAPSULE_TYPE ∧
      capsuleType ≠ ADDRESS_REQUEST_CAPSULE_TYPE ∧ capsuleType ≠ ROUTE_ADVERTISEMENT_CAPSULE_TYPE
  | _ => True

theorem decodePayload_body {capsuleType : UInt64} (h : capsule.body = .ok (capsuleType, payload))
    (hp : capsule.Proper) : decodePayload capsuleType payload = .ok capsule := by
  have hlist : ∀ {α : Type} {encode : α → Except ProtocolError Bytes}
      {decode : Cursor ProtocolError α} {as : List α} {payload : Bytes},
      EntryCodec encode decode → encodeEntries encode 0 [] as = .ok payload →
      decodeEntries decode MAX_CAPSULE_ENTRIES payload = .ok as := by
    intro α encode decode as payload hc h
    obtain ⟨hroom, bytes, rfl, hdec⟩ := decodeEntries_encodeEntries hc h
    refine hdec _ ?_
    rcases hroom with rfl | hroom
    · exact Nat.zero_le _
    · omega
  cases capsule with
  | addressAssign addresses =>
    simp only [body, bindOk] at h
    obtain ⟨bytes, henc, h⟩ := h
    cases h
    have hdec := hlist prefixCodec henc
    simp only [decodePayload, if_true, decodePrefixes, bindOk]
    exact ⟨addresses, ⟨addresses, hdec, rfl⟩, rfl⟩
  | addressRequest addresses =>
    simp only [body, bindOk] at h
    obtain ⟨_, hval, bytes, henc, h⟩ := h
    cases h
    simp only [encodePrefixes, if_true, bindOk] at henc
    obtain ⟨_, -, henc⟩ := henc
    have hdec := hlist prefixCodec henc
    have hne : ¬ ADDRESS_REQUEST_CAPSULE_TYPE = ADDRESS_ASSIGN_CAPSULE_TYPE := by decide
    simp only [decodePayload, if_neg hne, if_true, decodePrefixes, bindOk]
    exact ⟨addresses, ⟨addresses, hdec, (), hval, rfl⟩, (), hval, rfl⟩
  | routeAdvertisement ranges =>
    simp only [body, bindOk] at h
    obtain ⟨_, hval, bytes, henc, h⟩ := h
    cases h
    have hdec := hlist rangeCodec henc
    have hne : ¬ ROUTE_ADVERTISEMENT_CAPSULE_TYPE = ADDRESS_ASSIGN_CAPSULE_TYPE := by decide
    have hne' : ¬ ROUTE_ADVERTISEMENT_CAPSULE_TYPE = ADDRESS_REQUEST_CAPSULE_TYPE := by decide
    simp only [decodePayload, if_neg hne, if_neg hne', if_true, decodeRoutes, bindOk]
    exact ⟨ranges, hdec, (), hval, rfl⟩
  | unknown =>
    simp only [body, bindOk] at h
    obtain ⟨_, -, h⟩ := h
    cases h
    obtain ⟨h1, h2, h3⟩ := hp
    simp only [decodePayload, if_neg h1, if_neg h2, if_neg h3]
    rfl

/-- A capsule that is decoded from a payload within the limit is encoded to one of
    the same type that is no longer. -/
theorem body_decodePayload {capsuleType : UInt64}
    (h : decodePayload capsuleType payload = .ok capsule)
    (hsize : payload.length ≤ MAX_CAPSULE_PAYLOAD) :
    capsule.Proper ∧ ∃ payload', capsule.body = .ok (capsuleType, payload') ∧
      payload'.length ≤ payload.length := by
  have hlist : ∀ {α : Type} {encode : α → Except ProtocolError Bytes}
      {decode : Cursor ProtocolError α} {as : List α}, EntryCodec encode decode →
      decodeEntries decode MAX_CAPSULE_ENTRIES payload = .ok as →
      ∃ bytes, encodeEntries encode 0 [] as = .ok bytes ∧ bytes.length ≤ payload.length := by
    intro α encode decode as hc h
    have hsize' : ([] : Bytes).length + payload.length ≤ MAX_CAPSULE_PAYLOAD := by
      rw [length_nil]
      omega
    exact encodeEntries_decodeEntries hc h (by omega : 0 + MAX_CAPSULE_ENTRIES ≤ _) hsize'
  rw [decodePayload] at h
  split_ifs at h with h1 h2 h3
  · simp only [bindOk, decodePrefixes] at h
    obtain ⟨addresses, ⟨_, hdec, h'⟩, h⟩ := h
    cases h'
    cases h
    obtain ⟨bytes, henc, hle⟩ := hlist prefixCodec hdec
    refine ⟨trivial, bytes, ?_, hle⟩
    simp only [body, bindOk]
    exact ⟨bytes, henc, by rw [h1]; rfl⟩
  · simp only [bindOk, decodePrefixes, if_true] at h
    obtain ⟨addresses, ⟨_, hdec, _, hval, h'⟩, _, -, h⟩ := h
    cases h'
    cases h
    obtain ⟨bytes, henc, hle⟩ := hlist prefixCodec hdec
    refine ⟨trivial, bytes, ?_, hle⟩
    simp only [body, bindOk, encodePrefixes, if_true]
    exact ⟨(), hval, bytes, ⟨(), hval, henc⟩, by rw [h2]; rfl⟩
  · simp only [bindOk, decodeRoutes] at h
    obtain ⟨ranges, hdec, _, hval, h⟩ := h
    cases h
    obtain ⟨bytes, henc, hle⟩ := hlist rangeCodec hdec
    refine ⟨trivial, bytes, ?_, hle⟩
    simp only [body, bindOk]
    exact ⟨(), hval, bytes, henc, by rw [h3]; rfl⟩
  · cases h
    refine ⟨⟨h1, h2, h3⟩, payload, ?_, le_rfl⟩
    simp only [body, bindOk]
    exact ⟨(), ensurePayloadSize_eq_ok.2 hsize, rfl⟩

/-! ## Frames -/

theorem decodeFrame_encode {bytes : Bytes} (h : capsule.encode = .ok bytes) (hp : capsule.Proper) :
    Reads decodeFrame bytes capsule := by
  simp only [encode, bindOk] at h
  obtain ⟨⟨capsuleType, payload⟩, hbody, _, hsize, typeBytes, htype, lenBytes, hlen, h⟩ := h
  cases h
  have hle : payload.length ≤ 65536 := ensurePayloadSize_eq_ok.1 hsize
  have hnat : (UInt64.ofNat payload.length).toNat = payload.length := by
    rw [UInt64.toNat_ofNat']
    omega
  have hspl : Reads (splitPayload payload.length) payload payload := by
    intro rest
    have hge : ¬ (payload ++ rest).length < payload.length := by
      rw [length_append]
      omega
    simp only [splitPayload, if_neg hge, take_left, drop_left]
  have hpay : Reads (StateT.lift (decodePayload capsuleType payload) :
      Cursor ProtocolError ConnectIpCapsule) [] capsule := by
    intro rest
    rw [decodePayload_body hbody hp]
    rfl
  have hread : Reads decodeFrame (typeBytes ++ (lenBytes ++ ([] ++ (payload ++ [])))) capsule := by
    refine (decodeVarint_encodeVarint htype).bind ((decodeVarint_encodeVarint hlen).bind ?_)
    rw [hnat]
    exact (reads_lift hsize).bind (hspl.bind hpay)
  simpa using hread

theorem encode_decodeFrame (h : decodeFrame s = .ok (capsule, rest)) :
    capsule.Proper ∧ ∃ used bytes, s = used ++ rest ∧ capsule.encode = .ok bytes ∧
      bytes.length ≤ used.length := by
  simp only [decodeFrame, Cursor.bind_eq_ok] at h
  obtain ⟨capsuleType, s1, htype, payloadLen, s2, hlen, _, s3, hlift, payload, s4, hspl, h⟩ := h
  obtain ⟨hsize, rfl⟩ := lift_eq_ok.1 hlift
  have hle : payloadLen.toNat ≤ 65536 := ensurePayloadSize_eq_ok.1 hsize
  obtain ⟨used, typeBytes, rfl, htype', hle1⟩ := decodeVarint_spec htype
  obtain ⟨used', lenBytes, rfl, hlen', hle2⟩ := decodeVarint_spec hlen
  simp only [splitPayload] at hspl
  split_ifs at hspl with hge
  cases hspl
  obtain ⟨capsule', hpay, h⟩ := bindOk.1 h
  cases h
  have htake : (s2.take payloadLen.toNat).length = payloadLen.toNat := by
    rw [length_take]
    omega
  obtain ⟨hproper, payload', hbody, hle3⟩ := body_decodePayload hpay (by rw [htake]; exact hle)
  rw [htake] at hle3
  refine ⟨hproper, used ++ used' ++ s2.take payloadLen.toNat, ?_⟩
  -- the shorter payload has a length field that is no longer
  obtain ⟨lenBytes', hlenBytes, hle4⟩ : ∃ bytes,
      encodeVarint (UInt64.ofNat payload'.length) = .ok bytes ∧ bytes.length ≤ lenBytes.length := by
    refine encodeVarint_mono ?_ hlen'
    exact (Nat.mod_le _ _).trans hle3
  refine ⟨typeBytes ++ lenBytes' ++ payload', ?_, ?_, ?_⟩
  · rw [append_assoc, append_assoc, take_append_drop]
  · simp only [encode, bindOk]
    exact ⟨_, hbody, (), ensurePayloadSize_eq_ok.2 (hle3.trans hle), typeBytes, htype', lenBytes',
      hlenBytes, rfl⟩
  · simp only [length_append, htake]
    omega

theorem decode_eq_ok {input : Bytes} :
    decode input = (.ok capsule, rest) ↔ decodeFrame input = .ok (capsule, rest) := by
  have hdrop : ∀ capsule' cursor, decodeFrame input = .ok (capsule', cursor) →
      input.drop (input.length - cursor.length) = cursor := by
    intro capsule' cursor h
    obtain ⟨-, used, -, rfl, -⟩ := encode_decodeFrame h
    rw [length_append, Nat.add_sub_cancel, drop_left]
  simp only [decode]
  rcases h : decodeFrame input with error | ⟨capsule', cursor⟩
  · simp
  · dsimp only
    rw [hdrop capsule' cursor h]
    simp

/-- **The round trip of capsules.**  What `encode` accepts is decoded from its bytes,
    whatever follows them; and what `decode` accepts is encoded again, in at most
    the bytes it took, and decoded to the same capsule. -/
theorem capsule_round_trip :
    (∀ (capsule : ConnectIpCapsule) (bytes : Bytes), capsule.Proper →
      capsule.encode = .ok bytes →
      ∀ suffix, decode (bytes ++ suffix) = (.ok capsule, suffix)) ∧
    ∀ (input rest : Bytes) (capsule : ConnectIpCapsule),
      decode input = (.ok capsule, rest) →
      ∃ used bytes, input = used ++ rest ∧ capsule.encode = .ok bytes ∧
        bytes.length ≤ used.length ∧
        ∀ suffix, decode (bytes ++ suffix) = (.ok capsule, suffix) := by
  have hread : ∀ (capsule : ConnectIpCapsule) (bytes : Bytes), capsule.Proper →
      capsule.encode = .ok bytes →
      ∀ suffix, decode (bytes ++ suffix) = (.ok capsule, suffix) := by
    intro capsule bytes hp henc suffix
    exact decode_eq_ok.2 (decodeFrame_encode henc hp suffix)
  refine ⟨hread, ?_⟩
  intro input rest capsule h
  obtain ⟨hp, used, bytes, hsplit, henc, hle⟩ := encode_decodeFrame (decode_eq_ok.1 h)
  exact ⟨used, bytes, hsplit, henc, hle, hread capsule bytes hp henc⟩

/-- An address assignment whose type and length are encoded in two bytes each is
    encoded again in two bytes less. -/
theorem capsule_round_trip_long_varints :
    ∃ used bytes : Bytes, [0x40, 1, 0x40, 7, 0, 4, 172, 16, 0, 0, 24, 9] = used ++ [9] ∧
      (addressAssign [⟨0, .v4 0xac100000, 24⟩]).encode = .ok bytes ∧
      bytes.length ≤ used.length ∧
      ∀ suffix, decode (bytes ++ suffix) =
        (.ok (.addressAssign [⟨0, .v4 0xac100000, 24⟩]), suffix) :=
  capsule_round_trip.2 _ _ _ (by decide +kernel)

end Usque.Protocol
