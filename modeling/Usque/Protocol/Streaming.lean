/-
  Capsules in a byte stream.
-/
import Usque.Protocol.RoundTrip

namespace Usque.Protocol
open Lib List ConnectIpCapsule

variable {first : UInt8} {s s' tail : Bytes} {headerLen n payloadLen : ℕ}

/-! ## Integers in a stream -/

theorem varintWidth_pos (first : UInt8) : 0 < varintWidth first := by
  obtain ⟨k, hw⟩ := width_varintWidth first
  generalize varintWidth first = w at hw
  cases hw <;> decide

theorem varintWidth_le (first : UInt8) : varintWidth first ≤ 8 := by
  obtain ⟨k, hw⟩ := width_varintWidth first
  generalize varintWidth first = w at hw
  cases hw <;> decide

theorem decodeVarint_short (h : (first :: tail).length < varintWidth first) :
    decodeVarint (first :: tail) = .error .truncatedVarint := by
  exact if_pos h

theorem decodeVarint_full (h : varintWidth first ≤ (first :: tail).length) :
    ∃ value, decodeVarint (first :: tail) = .ok (value, (first :: tail).drop (varintWidth first)) := by
  exact ⟨_, if_neg (not_lt.2 h)⟩

variable {value : UInt64} {rest : Bytes}

theorem decodeVarint_eq_ok (h : decodeVarint (first :: tail) = .ok (value, rest)) :
    varintWidth first ≤ (first :: tail).length ∧
      rest = (first :: tail).drop (varintWidth first) := by
  by_cases hlen : (first :: tail).length < varintWidth first
  · rw [decodeVarint_short hlen] at h
    cases h
  · rw [not_lt] at hlen
    obtain ⟨value', hv⟩ := decodeVarint_full hlen
    rw [hv] at h
    cases h
    exact ⟨hlen, rfl⟩

theorem decodeVarint_error {e : ProtocolError} (h : decodeVarint s = .error e) :
    e = .truncatedVarint := by
  rcases s with _ | ⟨first, tail⟩
  · cases h
    rfl
  · by_cases hlen : (first :: tail).length < varintWidth first
    · rw [decodeVarint_short hlen] at h
      cases h
      rfl
    · obtain ⟨value, hv⟩ := decodeVarint_full (not_lt.1 hlen)
      rw [hv] at h
      cases h

theorem decodeVarint_append (h : decodeVarint s = .ok (value, rest)) (t : Bytes) :
    decodeVarint (s ++ t) = .ok (value, rest ++ t) := by
  rcases s with _ | ⟨first, tail⟩
  · cases h
  simp only [decodeVarint] at h
  split_ifs at h with hlen
  cases h
  rw [not_lt] at hlen
  have hlen' : ¬ ((first :: tail) ++ t).length < 1 <<< (first >>> 6).toNat := by
    rw [length_append]
    omega
  rw [cons_append] at hlen' ⊢
  simp only [decodeVarint, if_neg hlen']
  rw [← cons_append, take_append_of_le_length hlen, drop_append_of_le_length hlen]

/-! ## Frames in a stream -/

/-- The length of the frame in front of `s`; `none` while its header is incomplete. -/
def frameLen (s : Bytes) : Except ProtocolError (Option ℕ) :=
  match decodeVarint s with
  | .error _ => .ok none
  | .ok (_, header) =>
    match decodeVarint header with
    | .error _ => .ok none
    | .ok (payloadLen, header) => do
      ensurePayloadSize payloadLen.toNat
      return some (s.length - header.length + payloadLen.toNat)

def takeFrame (s : Bytes) (n : ℕ) : Except ProtocolError (Option ConnectIpCapsule) × Bytes :=
  match (decode (s.take n)).1 with
  | .error error => (.error error, s)
  | .ok capsule => (.ok (some capsule), s.drop n)

/-- The header of `s`: widths of its integers, and the payload length it announces. -/
inductive Header (s : Bytes) : ℕ → ℕ → Prop where
  | mk {capsuleType payloadLen : UInt64} {header₁ header₂ : Bytes}
    (type : decodeVarint s = .ok (capsuleType, header₁))
    (len : decodeVarint header₁ = .ok (payloadLen, header₂)) :
    Header s (s.length - header₂.length) payloadLen.toNat

theorem Header.le (h : Header s headerLen payloadLen) : headerLen ≤ s.length := by
  obtain ⟨-, -⟩ := h
  exact Nat.sub_le _ _

theorem frameLen_of_header (h : Header s headerLen payloadLen) :
    frameLen s = (ensurePayloadSize payloadLen).map fun _ => some (headerLen + payloadLen) := by
  obtain ⟨htype, hlen⟩ := h
  rw [frameLen, htype]
  simp only [hlen]
  cases ensurePayloadSize _ <;> rfl

theorem frameLen_cases (s : Bytes) :
    frameLen s = .ok none ∨ ∃ headerLen payloadLen, Header s headerLen payloadLen := by
  rw [frameLen]
  rcases htype : decodeVarint s with _ | ⟨capsuleType, header₁⟩
  · exact .inl rfl
  rcases hlen : decodeVarint header₁ with _ | ⟨payloadLen, header₂⟩
  · simp only [hlen]
    exact .inl trivial
  · exact .inr ⟨_, _, .mk htype hlen⟩

theorem Header.append (h : Header s headerLen payloadLen) (t : Bytes) :
    Header (s ++ t) headerLen payloadLen := by
  obtain @⟨capsuleType, payloadLen, header₁, header₂, htype, hlen⟩ := h
  have happ := Header.mk (decodeVarint_append htype t) (decodeVarint_append hlen t)
  rwa [length_append, length_append, Nat.add_sub_add_right] at happ

/-- **The header decides the length**: it does not change when more bytes arrive. -/
theorem frameLen_append (h : frameLen s ≠ .ok none) (t : Bytes) :
    frameLen (s ++ t) = frameLen s := by
  rcases frameLen_cases s with hnone | ⟨headerLen, payloadLen, hs⟩
  · exact absurd hnone h
  · rw [frameLen_of_header hs, frameLen_of_header (hs.append t)]

/-- A frame in a stream is a header with its payload. -/
theorem frameLen_eq_some (h : frameLen s = .ok (some n)) :
    ∃ headerLen payloadLen, Header s headerLen payloadLen ∧ n = headerLen + payloadLen := by
  rcases frameLen_cases s with hnone | ⟨headerLen, payloadLen, hs⟩
  · rw [hnone] at h
    cases h
  · rw [frameLen_of_header hs] at h
    cases hsize : ensurePayloadSize payloadLen with
    | error =>
      rw [hsize] at h
      cases h
    | ok =>
      rw [hsize] at h
      cases h
      exact ⟨headerLen, payloadLen, hs, rfl⟩

theorem Header.widths (h : Header (first :: tail) headerLen payloadLen) :
    ∃ lengthFirst rest, (first :: tail).drop (varintWidth first) = lengthFirst :: rest ∧
      headerLen = varintWidth first + varintWidth lengthFirst := by
  obtain ⟨htype, hlen⟩ := h
  obtain ⟨hwidth, rfl⟩ := decodeVarint_eq_ok htype
  rcases hdrop : (first :: tail).drop (varintWidth first) with _ | ⟨lengthFirst, rest⟩
  · rw [hdrop] at hlen
    cases hlen
  · rw [hdrop] at hlen
    obtain ⟨hwidth', rfl⟩ := decodeVarint_eq_ok hlen
    refine ⟨lengthFirst, rest, rfl, ?_⟩
    rw [← hdrop, length_drop] at hwidth'
    rw [← hdrop, drop_drop, length_drop]
    omega

theorem two_le_frameLen (h : frameLen s = .ok (some n)) : 2 ≤ n := by
  obtain ⟨headerLen, payloadLen, hs, rfl⟩ := frameLen_eq_some h
  rcases s with _ | ⟨first, tail⟩
  · obtain ⟨htype, -⟩ := hs
    cases htype
  · obtain ⟨lengthFirst, rest, -, rfl⟩ := hs.widths
    have h1 := varintWidth_pos first
    have h2 := varintWidth_pos lengthFirst
    omega

/-- **`decode_if_complete` waits for the frame in front**, and decodes it. -/
theorem decodeIfComplete_eq (s : Bytes) :
    decodeIfComplete s =
      match frameLen s with
      | .error error => (.error error, s)
      | .ok none => (.ok none, s)
      | .ok (some n) => if s.length < n then (.ok none, s) else takeFrame s n := by
  rw [decodeIfComplete, frameLen]
  rcases htype : decodeVarint s with e | ⟨capsuleType, header₁⟩
  · cases decodeVarint_error htype
    rfl
  rcases hlen : decodeVarint header₁ with e | ⟨payloadLen, header₂⟩
  · cases decodeVarint_error hlen
    simp only [hlen]
  · simp only [hlen]
    cases ensurePayloadSize payloadLen.toNat <;> rfl

theorem takeFrame_append (h : n ≤ s.length) (t : Bytes) :
    takeFrame (s ++ t) n = ((takeFrame s n).1, (takeFrame s n).2 ++ t) := by
  rw [takeFrame, takeFrame, take_append_of_le_length h, drop_append_of_le_length h]
  cases (decode (s.take n)).1 <;> rfl

/-- The result does not change, and what has arrived later is left. -/
theorem decodeIfComplete_append {r : Except ProtocolError (Option ConnectIpCapsule)}
    (h : decodeIfComplete s = (r, s')) (hr : r ≠ .ok none) (t : Bytes) :
    decodeIfComplete (s ++ t) = (r, s' ++ t) := by
  rw [decodeIfComplete_eq] at h ⊢
  rcases hf : frameLen s with e | _ | n
  · rw [frameLen_append (by rw [hf]; exact nofun), hf]
    rw [hf] at h
    cases h
    rfl
  · rw [hf] at h
    cases h
    exact absurd rfl hr
  · rw [frameLen_append (by rw [hf]; exact nofun)]
    simp only [hf] at h ⊢
    split_ifs at h with hlt
    · cases h
      exact absurd rfl hr
    · rw [not_lt] at hlt
      have hlen : ¬ (s ++ t).length < n := by
        rw [length_append]
        omega
      rw [if_neg hlen, takeFrame_append hlt, h]

theorem decodeIfComplete_cases (s : Bytes) :
    (decodeIfComplete s = (.ok none, s) ∧ ∀ n, frameLen s = .ok (some n) → s.length < n) ∨
    (∃ error, decodeIfComplete s = (.error error, s)) ∨
    ∃ n capsule, decodeIfComplete s = (.ok (some capsule), s.drop n) ∧
      2 ≤ n ∧ n ≤ s.length ∧ (decode (s.take n)).1 = .ok capsule := by
  rw [decodeIfComplete_eq]
  rcases hf : frameLen s with error | _ | n
  · exact .inr (.inl ⟨error, rfl⟩)
  · exact .inl ⟨rfl, nofun⟩
  · by_cases hlt : s.length < n
    · refine .inl ⟨if_pos hlt, ?_⟩
      rintro m ⟨⟩
      exact hlt
    · simp only [if_neg hlt, takeFrame]
      cases hd : (decode (s.take n)).1 with
      | error error => exact .inr (.inl ⟨error, rfl⟩)
      | ok capsule => exact .inr (.inr ⟨n, capsule, rfl, two_le_frameLen hf, not_lt.1 hlt, hd⟩)

theorem decodeIfComplete_wait (h : decodeIfComplete s = (.ok none, s')) :
    s' = s ∧ ∀ n, frameLen s = .ok (some n) → s.length < n := by
  rcases decodeIfComplete_cases s with ⟨h', hwait⟩ | ⟨error, h'⟩ | ⟨n, capsule, h', -⟩
  · cases h.symm.trans h'
    exact ⟨rfl, hwait⟩
  · cases h.symm.trans h'
  · cases h.symm.trans h'

theorem decodeIfComplete_some {capsule : ConnectIpCapsule}
    (h : decodeIfComplete s = (.ok (some capsule), s')) :
    (∃ n, s' = s.drop n ∧ 2 ≤ n ∧ n ≤ s.length) ∧ ∃ bytes, capsule.encode = .ok bytes := by
  rcases decodeIfComplete_cases s with ⟨h', -⟩ | ⟨error, h'⟩ | ⟨n, capsule', h', htwo, hle, hd⟩
  · cases h.symm.trans h'
  · cases h.symm.trans h'
  · cases h.symm.trans h'
    refine ⟨⟨n, rfl, htwo, hle⟩, ?_⟩
    have hfr := decode_eq_ok.1 (Prod.ext hd rfl : decode (s.take n) = (.ok capsule, _))
    obtain ⟨-, -, bytes, -, henc, -⟩ := encode_decodeFrame hfr
    exact ⟨bytes, henc⟩

theorem decodeIfComplete_encode {capsule : ConnectIpCapsule} {bytes : Bytes}
    (h : capsule.encode = .ok bytes) (hp : capsule.Proper) :
    decodeIfComplete bytes = (.ok (some capsule), []) := by
  have hdec : decodeFrame bytes = .ok (capsule, []) := by simpa using decodeFrame_encode h hp []
  have hparts := hdec
  simp only [decodeFrame, Cursor.bind_eq_ok] at hparts
  obtain ⟨_, _, htype, len, rest, hlen, _, _, hlift, _, _, hspl, hpay⟩ := hparts
  obtain ⟨hsize, rfl⟩ := lift_eq_ok.1 hlift
  obtain ⟨_, -, hpay⟩ := bindOk.1 hpay
  cases hpay
  simp only [splitPayload] at hspl
  split_ifs at hspl with hge
  have hdrop : rest.drop len.toNat = [] := congrArg Prod.snd (Except.ok.inj hspl)
  -- the payload is all that follows the header
  have hn : bytes.length - rest.length + len.toNat = bytes.length := by
    obtain ⟨_, _, hused, -⟩ := decodeVarint_spec htype
    obtain ⟨_, _, hused', -⟩ := decodeVarint_spec hlen
    rw [drop_eq_nil_iff] at hdrop
    rw [hused, hused', length_append, length_append]
    omega
  rw [decodeIfComplete_eq, frameLen_of_header (.mk htype hlen), hsize]
  simp [Except.map, hn, takeFrame, decode_eq_ok.2 hdec]

/-- **Bytes that arrive later** change neither a capsule nor an error. -/
theorem stable_decodeIfComplete : Stable decodeIfComplete where
  idle h := (decodeIfComplete_wait h).1
  stays {s s' e} h := by
    rcases decodeIfComplete_cases s with ⟨h', -⟩ | ⟨error, h'⟩ | ⟨n, capsule, h', -⟩
    · cases h.symm.trans h'
    · cases h.symm.trans h'
      rfl
    · cases h.symm.trans h'
  item t h := decodeIfComplete_append h nofun t
  failed t h := decodeIfComplete_append h nofun t

/-! ## Completion -/

theorem exists_decodeVarint (s : Bytes) :
    ∃ t value rest, decodeVarint (s ++ t) = .ok (value, rest) := by
  rcases s with _ | ⟨first, tail⟩
  · exact ⟨[0], _, _, rfl⟩
  · have hlen : varintWidth first ≤
        (first :: (tail ++ replicate (varintWidth first) 0)).length := by
      rw [length_cons, length_append, length_replicate]
      omega
    obtain ⟨value, hval⟩ := decodeVarint_full hlen
    exact ⟨replicate (varintWidth first) 0, value, _, hval⟩

theorem exists_header (s : Bytes) : ∃ t headerLen payloadLen, Header (s ++ t) headerLen payloadLen := by
  obtain ⟨t1, capsuleType, rest1, htype⟩ := exists_decodeVarint s
  obtain ⟨t2, payloadLen, rest2, hlen⟩ := exists_decodeVarint rest1
  have htype' : decodeVarint (s ++ (t1 ++ t2)) = .ok (capsuleType, rest1 ++ t2) := by
    rw [← append_assoc]
    exact decodeVarint_append htype t2
  exact ⟨t1 ++ t2, _, _, .mk htype' hlen⟩

theorem exists_complete (s : Bytes) : ∃ t, (decodeIfComplete (s ++ t)).1 ≠ .ok none := by
  obtain ⟨t, headerLen, payloadLen, hs⟩ := exists_header s
  -- the payload, as long as the header announces it
  refine ⟨t ++ replicate payloadLen 0, fun hwait => ?_⟩
  rw [← append_assoc] at hwait
  have hlen := frameLen_of_header (hs.append (replicate payloadLen 0))
  have hle := hs.le
  rw [decodeIfComplete_eq, hlen] at hwait
  cases hsize : ensurePayloadSize payloadLen with
  | error =>
    rw [hsize] at hwait
    cases hwait
  | ok u =>
    rw [hsize] at hwait
    simp only [Except.map] at hwait
    rw [if_neg (by rw [length_append, length_replicate]; omega), takeFrame] at hwait
    split at hwait <;> cases hwait

/-- **Incomplete input is never mistaken.** -/
theorem incomplete_input_never_mistaken (s : Bytes) :
    (∀ capsule rest, decodeIfComplete s = (.ok (some capsule), rest) →
      ∀ t, decodeIfComplete (s ++ t) = (.ok (some capsule), rest ++ t)) ∧
    (∀ e rest, decodeIfComplete s = (.error e, rest) →
      ∀ t, ∃ e' rest', decodeIfComplete (s ++ t) = (.error e', rest')) ∧
    ((decodeIfComplete s).1 = .ok none → ∃ t, (decodeIfComplete (s ++ t)).1 ≠ .ok none) ∧
    (∀ r rest, decodeIfComplete s = (r, rest) → (∀ capsule, r ≠ .ok (some capsule)) → rest = s) ∧
    ∀ e rest, decode s = (.error e, rest) → rest = s := by
  refine ⟨?_, ?_, fun _ => exists_complete s, ?_, ?_⟩
  · intro capsule rest h t
    exact stable_decodeIfComplete.item t h
  · intro e rest h t
    exact ⟨e, _, stable_decodeIfComplete.failed t h⟩
  · rintro (e | _ | capsule) rest h hnone
    · exact stable_decodeIfComplete.stays h
    · exact stable_decodeIfComplete.idle h
    · exact absurd rfl (hnone capsule)
  · intro e rest h
    unfold decode at h
    split at h <;> cases h
    rfl

end Usque.Protocol
