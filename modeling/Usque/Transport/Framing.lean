/-
  Capsules in the DATA of an HTTP/2 stream (`usque-transport/src/h2/framing.rs`).

  The framer takes a capsule from the DATA it was given, or copies what is there
  of an incomplete one and completes it from later DATA. It copies no byte behind
  the capsule: `requiredBytes` tells how many bytes the next milestone of the
  frame needs.

  A call that panics has no result (`none`).
-/
import Usque.Lib.Loop
import Usque.Protocol.Streaming

namespace Usque.Transport
open Lib Protocol List ConnectIpCapsule Option Nat

variable {first : UInt8} {s tail : Bytes}

/-- The errors of `TransportError` that reading control capsules ends with. -/
inductive TransportError where
  | sendQueueFull
  | capsuleTooLarge
  | protocol (error : ProtocolError)

variable {lengthFirst : UInt8} {rest : Bytes} {n : ℕ}

namespace H2

structure H2CapsuleFramer where
  data : Bytes := []
  partialBytes : Bytes := []
  copied : ℕ := 0

variable {framer : H2CapsuleFramer}

/-- `decode_varint` of `h2.rs`: the value and its width. -/
def decodeVarint (buffer : Bytes) : Option (UInt64 × ℕ) :=
  match buffer with
  | [] => none
  | first :: _ =>
    let length := varintWidth first
    if buffer.length < length then none
    else
      let value := ((buffer.take length).drop 1).foldl
        (fun (value : UInt64) byte => (value <<< 8) ||| byte.toUInt64) (first &&& 0x3f).toUInt64
      some (value, length)

/-- `required_bytes`: the bytes that the next milestone needs, and whether the
    header is complete. -/
def requiredBytes (bytes : Bytes) : Option (Except TransportError (ℕ × Bool)) :=
  match bytes with
  | [] => some (.ok (1, false))
  | first :: _ =>
    let typeLen := varintWidth first
    match bytes.drop typeLen with
    | [] => some (.ok (typeLen + 1, false))
    | lengthFirst :: _ =>
      let lengthLen := varintWidth lengthFirst
      let header := typeLen + lengthLen
      if bytes.length < header then some (.ok (header, false))
      else
        match decodeVarint (bytes.drop typeLen) with
        | none => none
        | some (payload, _) =>
          if MAX_CAPSULE_PAYLOAD < payload.toNat then some (.error .capsuleTooLarge)
          else some (.ok (header + payload.toNat, true))

def decodeFrame (frame : Bytes) : Except TransportError ConnectIpCapsule :=
  (decode frame).1.mapError .protocol

namespace H2CapsuleFramer

section
variable (framer : H2CapsuleFramer)

/-- `feed`; it panics if the last DATA has not been consumed. -/
def feed (data : Bytes) : Option H2CapsuleFramer :=
  if framer.data = [] then some { framer with data := data } else none

/-- `copy_prefix`. Its debug assertion is left out: see `partialBytes_length_le`. -/
def copyPrefix (length : ℕ) : H2CapsuleFramer where
  data := framer.data.drop length
  partialBytes := framer.partialBytes ++ framer.data.take length
  copied := min (framer.copied + length) (2 ^ 64 - 1)

/-- What a call of `next` returns, and the framer after it. -/
abbrev Returned := Except TransportError (Option ConnectIpCapsule) × H2CapsuleFramer

/-- The second half of a round of `next`: the copied bytes. -/
def assemble : Option (H2CapsuleFramer ⊕ Returned) :=
  match requiredBytes framer.partialBytes with
  | none => none
  | some (.error error) => some (.inr (.error error, framer))
  | some (.ok (required, framed)) =>
    if framed ∧ required ≤ framer.partialBytes.length then
      some (.inr ((decodeFrame (framer.partialBytes.take required)).map some,
        { framer with partialBytes := framer.partialBytes.drop required }))
    else if framer.data = [] then some (.inr (.ok none, framer))
    else
      some (.inl (framer.copyPrefix
        (min (required - framer.partialBytes.length) framer.data.length)))

/-- One round of the loop of `next`. -/
def round : Option (H2CapsuleFramer ⊕ Returned) :=
  if framer.partialBytes = [] then
    if framer.data = [] then some (.inr (.ok none, framer))
    else
      match requiredBytes framer.data with
      | none => none
      | some (.error error) => some (.inr (.error error, framer))
      | some (.ok (required, framed)) =>
        if framed ∧ required ≤ framer.data.length then
          some (.inr ((decodeFrame (framer.data.take required)).map some,
            { framer with data := framer.data.drop required }))
        else (framer.copyPrefix framer.data.length).assemble
  else framer.assemble

def next : Option Returned :=
  loop round (framer.data.length + 1) framer

end

/-- The calls of `next` until it waits or fails: the capsules, the error, and the
    framer after them. -/
def drain : ℕ → H2CapsuleFramer →
    Option (List ConnectIpCapsule × Option TransportError × H2CapsuleFramer)
  | 0, _ => none
  | fuel + 1, framer => do
    match ← framer.next with
    | (.error error, framer) => return ([], some error, framer)
    | (.ok none, framer) => return ([], none, framer)
    | (.ok (some capsule), framer) =>
      let (capsules, error, framer) ← drain fuel framer
      return (capsule :: capsules, error, framer)

/-- The received DATA, one after the other, each drained, up to the first error. -/
def receive : H2CapsuleFramer → List Bytes →
    Option (List ConnectIpCapsule × Option TransportError × H2CapsuleFramer)
  | framer, [] => some ([], none, framer)
  | framer, chunk :: chunks => do
    let framer ← framer.feed chunk
    let (capsules, error, framer) ←
      framer.drain (framer.partialBytes.length + framer.data.length + 1)
    match error with
    | some error => return (capsules, some error, framer)
    | none =>
      let (more, error, framer) ← receive framer chunks
      return (capsules ++ more, error, framer)

end H2CapsuleFramer

/-! ## Milestones -/

/-- The loop of `decode_varint` reads the bytes as digits. -/
theorem foldl_shift (bytes : Bytes) (value : UInt64)
    (h : value.toNat * 256 ^ bytes.length + beNat bytes < 2 ^ 64) :
    (bytes.foldl (fun (value : UInt64) byte => (value <<< 8) ||| byte.toUInt64) value).toNat =
      value.toNat * 256 ^ bytes.length + beNat bytes := by
  induction bytes generalizing value with
  | nil => simp [beNat]
  | cons byte bytes ih =>
    have hbyte := byte.toNat_lt
    have hpos : 0 < 256 ^ bytes.length := by positivity
    have hdigits : value.toNat * 256 ^ (byte :: bytes).length + beNat (byte :: bytes) =
        (value.toNat * 256 + byte.toNat) * 256 ^ bytes.length + beNat bytes := by
      rw [beNat_cons, length_cons]
      ring
    rw [hdigits] at h ⊢
    have hval : value.toNat * 256 + byte.toNat < 2 ^ 64 :=
      (Nat.le_mul_of_pos_right _ hpos).trans_lt (lt_of_le_of_lt (Nat.le_add_right _ _) h)
    have hstep : ((value <<< 8) ||| byte.toUInt64).toNat = value.toNat * 256 + byte.toNat := by
      have hmod : value.toNat * 2 ^ 8 % 2 ^ 64 = 2 ^ 8 * value.toNat := by
        rw [Nat.mul_comm]
        exact mod_eq_of_lt (by omega)
      change value.toNat <<< 8 % 2 ^ 64 ||| byte.toNat = _
      rw [shiftLeft_eq, hmod, ← two_pow_add_eq_or_of_lt hbyte, Nat.mul_comm]
    rw [foldl_cons, ih _ (by rw [hstep]; exact h), hstep]

/-- Masking the first byte or the whole integer gives one value. -/
theorem mask_eq_foldl {bytes : Bytes} {k : ℕ} (hw : Width (bytes.length + 1) k) :
    UInt64.ofNat (beNat (first :: bytes)) &&& varintMask (bytes.length + 1) =
      bytes.foldl (fun (value : UInt64) byte => (value <<< 8) ||| byte.toUInt64)
        (first &&& 0x3f).toUInt64 := by
  have hbyt := beNat_lt bytes
  have hfst : (first &&& 0x3f).toUInt64.toNat = first.toNat % 64 := by
    exact and_two_pow_sub_one_eq_mod first.toNat 6
  apply UInt64.toNat_inj.1
  rw [foldl_shift, hfst, UInt64.toNat_and, hw.mask, and_two_pow_sub_one_eq_mod, beNat_cons]
  · generalize bytes.length = n at hw hbyt
    cases hw <;> norm_num at hbyt ⊢ <;> omega
  · rw [hfst]
    generalize bytes.length = n at hw hbyt
    cases hw <;> norm_num at hbyt ⊢ <;> omega

/-- **The two decoders of integers agree.** -/
theorem decodeVarint_eq (h : varintWidth first ≤ (first :: tail).length) :
    ∃ value, decodeVarint (first :: tail) = some (value, varintWidth first) ∧
      Protocol.decodeVarint (first :: tail) =
        .ok (value, (first :: tail).drop (varintWidth first)) := by
  obtain ⟨k, hw⟩ := width_varintWidth first
  obtain ⟨n, hn⟩ : ∃ n, varintWidth first = n + 1 :=
    ⟨_, (succ_pred (varintWidth_pos first).ne').symm⟩
  have htake : (first :: tail).take (varintWidth first) = first :: tail.take n := by
    rw [hn, take_succ_cons]
  have hlen : (tail.take n).length + 1 = varintWidth first := by
    rw [length_cons] at h
    rw [length_take]
    omega
  refine ⟨_, if_neg (not_lt.2 h), (if_neg (not_lt.2 h)).trans ?_⟩
  change Except.ok (UInt64.ofNat (beNat ((first :: tail).take (varintWidth first))) &&&
    varintMask (varintWidth first), _) =
      .ok (((first :: tail).take (varintWidth first)).drop 1 |>.foldl _ _, _)
  rw [htake, drop_one, tail_cons, ← mask_eq_foldl (by rwa [hlen]), hlen]
  rfl

/-- The bytes that a capsule may occupy. -/
def MAX_FRAME : ℕ := MAX_CAPSULE_PAYLOAD + 16

/-- What `required_bytes` says about the frame in front of `s`. -/
inductive Milestone (s : Bytes) : Prop where
  /-- The header is complete, and tells the length of the frame. -/
  | framed (n : ℕ) (required : requiredBytes s = some (.ok (n, true)))
    (frame : frameLen s = .ok (some n)) (le : n ≤ MAX_FRAME)
  /-- The payload is too long. -/
  | tooLarge (required : requiredBytes s = some (.error .capsuleTooLarge))
    (frame : ∃ error, frameLen s = .error error)
  /-- The header is incomplete; no frame is shorter than the milestone. -/
  | header (n : ℕ) (required : requiredBytes s = some (.ok (n, false)))
    (frame : frameLen s = .ok none) (lt : s.length < n) (le : n ≤ MAX_FRAME)
    (least : ∀ t m, frameLen (s ++ t) = .ok (some m) → n ≤ m)

theorem milestone_type (h : (first :: tail).drop (varintWidth first) = []) :
    Milestone (first :: tail) := by
  have hlen : (first :: tail).length ≤ varintWidth first := by
    rwa [drop_eq_nil_iff] at h
  have hwidth := varintWidth_le first
  refine .header (varintWidth first + 1) ?_ ?_ (by omega) (by rw [MAX_FRAME]; omega) ?_
  · simp only [requiredBytes, h]
  · rcases frameLen_cases (first :: tail) with hnone | ⟨headerLen, payloadLen, hs⟩
    · exact hnone
    · obtain ⟨lengthFirst, rest, hdrop, -⟩ := hs.widths
      rw [h] at hdrop
      cases hdrop
  · intro t m hm
    obtain ⟨headerLen, payloadLen, hs, rfl⟩ := frameLen_eq_some hm
    obtain ⟨lengthFirst, rest, -, rfl⟩ := hs.widths
    have hpos := varintWidth_pos lengthFirst
    omega

theorem milestone_length (h : (first :: tail).drop (varintWidth first) = lengthFirst :: rest)
    (hlt : (first :: tail).length < varintWidth first + varintWidth lengthFirst) :
    Milestone (first :: tail) := by
  have hwidth := varintWidth_le first
  have hwidth' := varintWidth_le lengthFirst
  -- the first byte of the length is there to stay
  have hhdr : ∀ t headerLen payloadLen,
      Header (first :: tail ++ t) headerLen payloadLen →
        headerLen = varintWidth first + varintWidth lengthFirst := by
    intro t headerLen payloadLen hs
    rw [cons_append] at hs
    obtain ⟨lengthFirst', rest', hdrop, rfl⟩ := hs.widths
    have hle : varintWidth first ≤ (first :: tail).length := by
      by_contra hlt'
      rw [drop_of_length_le (by omega)] at h
      cases h
    rw [← cons_append, drop_append_of_le_length hle, h] at hdrop
    cases hdrop
    rfl
  refine .header (varintWidth first + varintWidth lengthFirst) ?_ ?_ hlt
    (by rw [MAX_FRAME]; omega) ?_
  · simp only [requiredBytes, h, if_pos hlt]
  · rcases frameLen_cases (first :: tail) with hnone | ⟨headerLen, payloadLen, hs⟩
    · exact hnone
    · have heq := hhdr [] headerLen payloadLen (by rwa [append_nil])
      have hle := hs.le
      omega
  · intro t m hm
    obtain ⟨headerLen, payloadLen, hs, rfl⟩ := frameLen_eq_some hm
    have heq := hhdr t headerLen payloadLen hs
    omega

theorem milestone_frame (h : (first :: tail).drop (varintWidth first) = lengthFirst :: rest)
    (hle : varintWidth first + varintWidth lengthFirst ≤ (first :: tail).length) :
    Milestone (first :: tail) := by
  have hwidth := varintWidth_le first
  have hwidth' := varintWidth_le lengthFirst
  have hlen : (lengthFirst :: rest).length = (first :: tail).length - varintWidth first := by
    rw [← h, length_drop]
  have htypeLen : varintWidth first ≤ (first :: tail).length := by omega
  have hlengthLen : varintWidth lengthFirst ≤ (lengthFirst :: rest).length := by omega
  obtain ⟨capsuleType, htype⟩ := decodeVarint_full htypeLen
  obtain ⟨payloadLen, hpay, hlength⟩ := decodeVarint_eq hlengthLen
  rw [h] at htype
  have hs := Header.mk htype hlength
  have hhdr :
      (first :: tail).length - ((lengthFirst :: rest).drop (varintWidth lengthFirst)).length =
        varintWidth first + varintWidth lengthFirst := by
    rw [length_drop]
    omega
  rw [hhdr] at hs
  by_cases hsize : MAX_CAPSULE_PAYLOAD < payloadLen.toNat
  · refine .tooLarge ?_ ⟨.capsuleTooLarge payloadLen.toNat, ?_⟩
    · simp only [requiredBytes, h, if_neg (not_lt.2 hle), hpay, if_pos hsize]
    · rw [frameLen_of_header hs, ensurePayloadSize, if_pos hsize]
      rfl
  · refine .framed (varintWidth first + varintWidth lengthFirst + payloadLen.toNat) ?_ ?_ ?_
    · simp only [requiredBytes, h, if_neg (not_lt.2 hle), hpay, if_neg hsize]
    · rw [frameLen_of_header hs, ensurePayloadSize, if_neg hsize]
      rfl
    · rw [MAX_FRAME]
      omega

/-- **`required_bytes` never panics**, and agrees with `decode_if_complete` on the
    frame in front. -/
theorem milestone (s : Bytes) : Milestone s := by
  rcases s with _ | ⟨first, tail⟩
  · refine .header 1 rfl rfl Nat.one_pos (by decide) ?_
    intro t m hm
    have htwo := two_le_frameLen hm
    omega
  rcases h : (first :: tail).drop (varintWidth first) with _ | ⟨lengthFirst, rest⟩
  · exact milestone_type h
  · by_cases hlt : (first :: tail).length < varintWidth first + varintWidth lengthFirst
    · exact milestone_length h hlt
    · exact milestone_frame h (not_lt.1 hlt)

/-! ## Runs of the framer -/

namespace H2CapsuleFramer

/-- The bytes received and not yet returned. -/
def stream (framer : H2CapsuleFramer) : Bytes := framer.partialBytes ++ framer.data

/-- No byte behind the capsule in front was copied. -/
def Exact (bytes : Bytes) : Prop := ∀ n, frameLen bytes = .ok (some n) → bytes.length ≤ n

theorem exact_nil : Exact [] := fun _ _ => Nat.zero_le _

/-- What `next` returns for the stream `s`, as `decode_if_complete` sees it. -/
def Answers (s : Bytes) : Returned → Prop := fun (result, framer) =>
  match decodeIfComplete s with
  | (.error _, _) => ∃ error, result = .error error
  | (.ok none, _) => result = .ok none ∧ framer.partialBytes = s ∧ framer.data = []
  | (.ok (some capsule), rest) =>
    result = .ok (some capsule) ∧ framer.partialBytes = [] ∧ framer.data = rest

theorem stream_copyPrefix (framer : H2CapsuleFramer) (n : ℕ) :
    (framer.copyPrefix n).stream = framer.stream := by
  simp [stream, copyPrefix]

theorem answers_frame (hfr : frameLen s = .ok (some n)) (hle : n ≤ s.length)
    (hhalf : framer.partialBytes = []) (hdata : framer.data = s.drop n) :
    Answers s ((decodeFrame (s.take n)).map some, framer) := by
  rw [Answers, decodeIfComplete_eq, hfr]
  simp only [if_neg (not_lt.2 hle), takeFrame, decodeFrame]
  cases (decode (s.take n)).1 with
  | error => exact ⟨_, rfl⟩
  | ok => exact ⟨rfl, hhalf, hdata⟩

theorem answers_tooLarge (hfr : ∃ error, frameLen s = .error error) {error : TransportError} :
    Answers s (.error error, framer) := by
  obtain ⟨error', hfr⟩ := hfr
  rw [Answers, decodeIfComplete_eq, hfr]
  exact ⟨_, rfl⟩

theorem answers_wait (hhalf : framer.partialBytes = s) (hdata : framer.data = [])
    (hfr : frameLen s = .ok none ∨ ∃ n, frameLen s = .ok (some n) ∧ s.length < n) :
    Answers s (.ok none, framer) := by
  rw [Answers, decodeIfComplete_eq]
  rcases hfr with hfr | ⟨n, hfr, hlt⟩
  · rw [hfr]
    exact ⟨rfl, hhalf, hdata⟩
  · rw [hfr]
    simp only [if_pos hlt]
    exact ⟨trivial, hhalf, hdata⟩

theorem exact_copyPrefix (hlt : framer.partialBytes.length < n)
    (least : ∀ t m, frameLen (framer.partialBytes ++ t) = .ok (some m) → n ≤ m) :
    Exact (framer.copyPrefix
      (min (n - framer.partialBytes.length) framer.data.length)).partialBytes := by
  intro m hm
  have hle := least _ m hm
  simp only [copyPrefix, length_append, length_take]
  omega

/-- What a round may do: it copies bytes, or answers. -/
def Proceeds (framer : H2CapsuleFramer) (next : Option (H2CapsuleFramer ⊕ Returned)) : Prop :=
  (∃ framer', next = some (.inl framer') ∧ Exact framer'.partialBytes ∧
    framer'.data.length < framer.data.length ∧
    ∀ returned, Answers framer'.stream returned → Answers framer.stream returned) ∨
  ∃ returned, next = some (.inr returned) ∧ Answers framer.stream returned

theorem assemble_proceeds (hex : Exact framer.partialBytes) :
    framer.Proceeds framer.assemble := by
  rw [assemble]
  have hstr : frameLen framer.partialBytes ≠ .ok none →
      frameLen framer.stream = frameLen framer.partialBytes := fun h => frameLen_append h _
  have hcopy : ∀ n, framer.partialBytes.length < n → framer.data ≠ [] →
      let framer' := framer.copyPrefix (min (n - framer.partialBytes.length) framer.data.length)
      framer'.data.length < framer.data.length ∧
        ∀ returned, Answers framer'.stream returned → Answers framer.stream returned := by
    intro n hlt hdata
    have hpos := length_pos_iff.2 hdata
    refine ⟨?_, ?_⟩
    · simp only [copyPrefix, length_drop]
      omega
    · rw [stream_copyPrefix]
      exact fun _ => id
  rcases milestone framer.partialBytes with
    ⟨n, hreq, hfr, -⟩ | ⟨hreq, error, hfr⟩ | ⟨n, hreq, hfr, hlt, -, hleast⟩
  · simp only [hreq, true_and]
    have hfr' : frameLen framer.stream = .ok (some n) := by
      rw [hstr (by rw [hfr]; exact nofun), hfr]
    by_cases hle : n ≤ framer.partialBytes.length
    · have hlen := le_antisymm hle (hex n hfr)
      rw [if_pos hle]
      refine .inr ⟨_, rfl, ?_⟩
      have htake : framer.partialBytes.take n = framer.stream.take n := by
        rw [stream, take_append_of_le_length hle]
      rw [htake]
      refine answers_frame hfr' ?_ ?_ ?_
      · rw [stream, length_append]
        omega
      · simp [hlen]
      · simp [stream, hlen]
    · rw [if_neg hle]
      rw [not_le] at hle
      by_cases hdata : framer.data = []
      · rw [if_pos hdata]
        refine .inr ⟨_, rfl, answers_wait ?_ hdata (.inr ⟨n, hfr', ?_⟩)⟩
        · rw [stream, hdata, append_nil]
        · rwa [stream, hdata, append_nil]
      · rw [if_neg hdata]
        refine .inl ⟨_, rfl, exact_copyPrefix hle ?_, hcopy n hle hdata⟩
        intro t m hm
        rw [frameLen_append (by rw [hfr]; exact nofun), hfr] at hm
        cases hm
        exact le_rfl
  · simp only [hreq]
    refine .inr ⟨_, rfl, answers_tooLarge ⟨error, ?_⟩⟩
    rw [hstr (by rw [hfr]; exact nofun), hfr]
  · simp only [hreq, Bool.false_eq_true, false_and, if_false]
    by_cases hdata : framer.data = []
    · rw [if_pos hdata]
      have hnil : framer.stream = framer.partialBytes := by rw [stream, hdata, append_nil]
      exact .inr ⟨_, rfl, answers_wait hnil.symm hdata (.inl (by rw [hnil, hfr]))⟩
    · rw [if_neg hdata]
      exact .inl ⟨_, rfl, exact_copyPrefix hlt hleast, hcopy n hlt hdata⟩

theorem round_proceeds (hex : Exact framer.partialBytes) : framer.Proceeds framer.round := by
  by_cases hhalf : framer.partialBytes = []
  · have hstr : framer.stream = framer.data := by rw [stream, hhalf, nil_append]
    rw [round, if_pos hhalf]
    by_cases hdata : framer.data = []
    · rw [if_pos hdata]
      rw [hdata] at hstr
      have hfr : frameLen framer.stream = .ok none := by
        rw [hstr]
        rfl
      exact .inr ⟨_, rfl, answers_wait (hhalf.trans hstr.symm) hdata (.inl hfr)⟩
    rw [if_neg hdata]
    -- the copied DATA has the milestone of the DATA, so it waits
    have hcopied : (framer.copyPrefix framer.data.length).partialBytes = framer.data := by
      rw [copyPrefix, hhalf, nil_append, take_length]
    have hempty : (framer.copyPrefix framer.data.length).data = [] := by
      rw [copyPrefix, drop_length]
    have hwaits : ∀ n framed, requiredBytes framer.data = some (.ok (n, framed)) →
        ¬ (framed ∧ n ≤ framer.data.length) →
        (framer.copyPrefix framer.data.length).assemble =
          some (.inr (.ok none, framer.copyPrefix framer.data.length)) := by
      intro n framed hreq hinc
      simp only [assemble, hcopied, hreq, if_neg hinc, if_pos hempty]
    rcases milestone framer.data with
      ⟨n, hreq, hfr, -⟩ | ⟨hreq, hfr⟩ | ⟨n, hreq, hfr, -⟩
    · by_cases hle : n ≤ framer.data.length
      · simp only [hreq, true_and, if_pos hle]
        rw [← hstr]
        rw [← hstr] at hfr hle
        exact .inr ⟨_, rfl, answers_frame hfr hle hhalf rfl⟩
      · simp only [hreq, true_and, if_neg hle]
        rw [hwaits n true hreq (fun h => hle h.2)]
        refine .inr ⟨_, rfl, answers_wait (hcopied.trans hstr.symm) hempty (.inr ⟨n, ?_⟩)⟩
        rw [hstr]
        exact ⟨hfr, not_le.1 hle⟩
    · simp only [hreq]
      rw [← hstr] at hfr
      exact .inr ⟨_, rfl, answers_tooLarge hfr⟩
    · simp only [hreq, Bool.false_eq_true, false_and, if_false]
      rw [hwaits n false hreq (fun h => nomatch h.1)]
      rw [← hstr] at hfr
      exact .inr ⟨_, rfl, answers_wait (hcopied.trans hstr.symm) hempty (.inl hfr)⟩
  · rw [round, if_neg hhalf]
    exact assemble_proceeds hex

/-- **`next` returns**, with what `decode_if_complete` finds in the stream. -/
theorem next_spec (hex : Exact framer.partialBytes) :
    ∃ returned, framer.next = some returned ∧ Answers framer.stream returned := by
  exact loop_spec (I := fun f : H2CapsuleFramer => Exact f.partialBytes)
    (P := fun f returned => Answers f.stream returned)
    (fun f => f.data.length) (fun _ => round_proceeds) hex (lt_succ_self _)

/-- A drain of the framer and one of the stream `s` end alike. -/
def Follows (s : Bytes) : List ConnectIpCapsule × Option TransportError × H2CapsuleFramer → Prop :=
  fun (capsules, error, framer) => ∃ error' left,
    Drains decodeIfComplete s capsules error' left ∧
      error'.isSome = error.isSome ∧
      (error = none → framer.data = [] ∧ framer.partialBytes = left)

/-- **Draining returns**, with the capsules of the stream. -/
theorem drain_spec {fuel : ℕ} (framer : H2CapsuleFramer) (hex : Exact framer.partialBytes)
    (hfuel : framer.stream.length < fuel) :
    ∃ drained, framer.drain fuel = some drained ∧ Follows framer.stream drained := by
  induction fuel generalizing framer with
  | zero => exact absurd hfuel (Nat.not_lt_zero _)
  | succ fuel ih =>
    obtain ⟨⟨result, framer'⟩, hnext, hans⟩ := next_spec hex
    simp only [drain, hnext, bind_eq_bind, bind_some]
    rw [Answers] at hans
    rcases hdec : decodeIfComplete framer.stream with ⟨error | _ | capsule, rest⟩
    · rw [hdec] at hans
      obtain ⟨error', rfl⟩ := hans
      exact ⟨_, rfl, some error, rest, .failed hdec, rfl, nofun⟩
    · rw [hdec] at hans
      obtain ⟨rfl, hhalf, hdata⟩ := hans
      cases stable_decodeIfComplete.idle hdec
      exact ⟨_, rfl, none, _, .idle hdec, rfl, fun _ => ⟨hdata, hhalf⟩⟩
    · rw [hdec] at hans
      obtain ⟨rfl, hhalf, hdata⟩ := hans
      have hstr : framer'.stream = rest := by rw [stream, hhalf, hdata, nil_append]
      obtain ⟨⟨n, hrest, htwo, hle⟩, -⟩ := decodeIfComplete_some hdec
      have hshorter : rest.length < framer.stream.length := by
        rw [hrest, length_drop]
        omega
      obtain ⟨⟨capsules, error, framer''⟩, hdrain, error', left, hdrains, hend⟩ :=
        ih framer' (by rw [hhalf]; exact exact_nil) (by rw [hstr]; omega)
      rw [hstr] at hdrains
      simp only [hdrain, bind_some]
      exact ⟨_, rfl, error', left, .item hdec hdrains, hend⟩

/-- Bytes that are waited for are those of one capsule. -/
theorem exact_of_waits (h : Drains decodeIfComplete s [] none s) : Exact s := by
  cases h with
  | idle h => exact fun n hn => ((decodeIfComplete_wait h).2 n hn).le

/-- **All DATA is received**, whatever its boundaries are. -/
theorem receive_spec (framer : H2CapsuleFramer) (chunks : List Bytes) (hdata : framer.data = [])
    (hwaits : Drains decodeIfComplete framer.partialBytes [] none framer.partialBytes) :
    ∃ received, framer.receive chunks = some received ∧
      Follows (framer.partialBytes ++ chunks.flatten) received := by
  induction chunks generalizing framer with
  | nil =>
    refine ⟨_, rfl, none, framer.partialBytes, ?_, rfl, fun _ => ⟨hdata, rfl⟩⟩
    rwa [flatten_nil, append_nil]
  | cons chunk chunks ih =>
    obtain ⟨⟨capsules, error, framer1⟩, hdrain, error', left, hdrains, hsome, hend⟩ :=
      drain_spec { framer with data := chunk } (exact_of_waits hwaits)
        (lt_succ_of_le (length_append).le)
    simp only [receive, feed, if_pos hdata, bind_eq_bind, bind_some, hdrain,
      flatten_cons, ← append_assoc]
    cases error with
    | some error =>
      obtain ⟨error', rfl⟩ := isSome_iff_exists.1 (hsome.trans rfl)
      exact ⟨_, rfl, some error', _, hdrains.failed_append stable_decodeIfComplete _, rfl, nofun⟩
    | none =>
      obtain rfl := not_isSome_iff_eq_none.1 (ne_true_of_eq_false hsome)
      obtain ⟨hdata1, rfl⟩ := hend rfl
      obtain ⟨⟨more, error2, framer2⟩, hreceive, error2', left2, hdrains2, hend2⟩ :=
        ih framer1 hdata1 (hdrains.waits stable_decodeIfComplete)
      simp only [hreceive, bind_some]
      exact ⟨_, rfl, error2', left2, hdrains.append stable_decodeIfComplete hdrains2, hend2⟩

/-! ## The copied bytes -/

/-- The states of a framer: it is fed, and runs the rounds of `next`. -/
inductive Visited : H2CapsuleFramer → Prop where
  | init : Visited {}
  | fed {framer framer' : H2CapsuleFramer} {data : Bytes} (h : Visited framer)
    (hfeed : framer.feed data = some framer') : Visited framer'
  | continued {framer framer' : H2CapsuleFramer} (h : Visited framer)
    (hround : framer.round = some (.inl framer')) : Visited framer'
  | returned {framer framer' : H2CapsuleFramer}
    {result : Except TransportError (Option ConnectIpCapsule)} (h : Visited framer)
    (hround : framer.round = some (.inr (result, framer'))) : Visited framer'

/-- The copied bytes after a round are those of one capsule at most. -/
def Bounded : Option (H2CapsuleFramer ⊕ Returned) → Prop
  | none => True
  | some (.inl framer) => framer.partialBytes.length ≤ MAX_FRAME
  | some (.inr (_, framer)) => framer.partialBytes.length ≤ MAX_FRAME

theorem assemble_bounded (h : framer.partialBytes.length ≤ MAX_FRAME) :
    Bounded framer.assemble := by
  have hcopy : ∀ n, n ≤ MAX_FRAME →
      (framer.copyPrefix
        (min (n - framer.partialBytes.length) framer.data.length)).partialBytes.length ≤
          MAX_FRAME := by
    intro n hn
    simp only [copyPrefix, length_append, length_take]
    omega
  rw [assemble]
  rcases milestone framer.partialBytes with
    ⟨n, hreq, -, hle⟩ | ⟨hreq, -⟩ | ⟨n, hreq, -, -, hle, -⟩
  · simp only [hreq, true_and]
    split_ifs
    · simp only [Bounded, length_drop]
      omega
    · exact h
    · exact hcopy n hle
  · simp only [hreq]
    exact h
  · simp only [hreq, Bool.false_eq_true, false_and, if_false]
    split_ifs
    · exact h
    · exact hcopy n hle

theorem round_bounded (h : framer.partialBytes.length ≤ MAX_FRAME) : Bounded framer.round := by
  rw [round]
  split_ifs with hhalf hdata
  · exact h
  · have hcopied : (framer.copyPrefix framer.data.length).partialBytes = framer.data := by
      rw [copyPrefix, hhalf, nil_append, take_length]
    rcases milestone framer.data with
      ⟨n, hreq, -, hle⟩ | ⟨hreq, -⟩ | ⟨n, hreq, -, hlt, hle, -⟩
    · simp only [hreq, true_and]
      split_ifs with hlen
      · exact h
      · exact assemble_bounded (by rw [hcopied]; omega)
    · simp only [hreq]
      exact h
    · simp only [hreq, Bool.false_eq_true, false_and, if_false]
      exact assemble_bounded (by rw [hcopied]; omega)
  · exact assemble_bounded h

/-- **At most one capsule is copied**, which is what the debug assertion of
    `copy_prefix` checks. -/
theorem partialBytes_length_le (h : Visited framer) : framer.partialBytes.length ≤ MAX_FRAME := by
  induction h with
  | init => exact Nat.zero_le _
  | fed _ hfeed ih =>
    rw [feed] at hfeed
    split_ifs at hfeed
    cases hfeed
    exact ih
  | continued _ hround ih | returned _ hround ih =>
    have hbounded := round_bounded ih
    rwa [hround] at hbounded

/-- **The boundaries of the received DATA do not matter.** However a stream is
    split, the framer returns the capsules that `decode_if_complete` finds in the
    whole stream, fails if and only if that does, after the same capsules, and
    otherwise has consumed all DATA; it never holds more copied bytes than one
    capsule has. -/
theorem framing_chunk_independent (chunks : List Bytes) :
    (∃ capsules error framer error' left,
      ({} : H2CapsuleFramer).receive chunks = some (capsules, error, framer) ∧
      (∀ items e rest, Drains decodeIfComplete chunks.flatten items e rest ↔
        items = capsules ∧ e = error' ∧ rest = left) ∧
      (error.isSome ↔ error'.isSome) ∧
      (error = none → framer.data = [] ∧ framer.partialBytes = left)) ∧
    ∀ framer, Visited framer → framer.partialBytes.length ≤ 65536 + 16 := by
  refine ⟨?_, fun framer h => partialBytes_length_le h⟩
  obtain ⟨⟨capsules, error, framer⟩, hreceive, error', left, hdrains, hsome, hend⟩ :=
    receive_spec {} chunks rfl (.idle rfl)
  refine ⟨capsules, error, framer, error', left, hreceive, fun items e rest => ⟨?_, ?_⟩,
    by rw [hsome], hend⟩
  · intro h
    exact h.unique hdrains
  · rintro ⟨rfl, rfl, rfl⟩
    exact hdrains

/-! ## From the sender to the receiver -/

/-- The encodings are those of the capsules. -/
def Sent : List ConnectIpCapsule → List Bytes → Prop :=
  Forall₂ fun capsule bytes => capsule.Proper ∧ capsule.encode = .ok bytes

theorem Sent.drains {capsules : List ConnectIpCapsule} {encodings : List Bytes}
    (h : Sent capsules encodings) :
    Drains decodeIfComplete encodings.flatten capsules none [] := by
  induction h with
  | nil => exact .idle rfl
  | cons h _ ih =>
    exact .item (stable_decodeIfComplete.item _ (decodeIfComplete_encode h.2 h.1)) ih

/-- **Capsules arrive as they were sent.** However the bytes are split, and wherever
    they are cut off, the framer returns the first of the capsules that were encoded,
    without an error, and all of them once all bytes are there. -/
theorem sent_capsules_received {capsules : List ConnectIpCapsule} {encodings chunks : List Bytes}
    (hsent : Sent capsules encodings) (hchunks : chunks.flatten <+: encodings.flatten) :
    ∃ received framer, ({} : H2CapsuleFramer).receive chunks = some (received, none, framer) ∧
      received <+: capsules ∧ (chunks.flatten = encodings.flatten →
        received = capsules ∧ framer.data = [] ∧ framer.partialBytes = []) := by
  obtain ⟨rest, hrest⟩ := hchunks
  have hall := hsent.drains
  obtain ⟨⟨received, error, framer⟩, hreceive, error', left, hdrains, hsome, hend⟩ :=
    receive_spec {} chunks rfl (.idle rfl)
  cases error' with
  | some error' =>
    have hfailed := hdrains.failed_append stable_decodeIfComplete rest
    cases (hfailed.unique (hrest ▸ hall)).2.1
  | none =>
    obtain rfl := not_isSome_iff_eq_none.1 (ne_true_of_eq_false hsome.symm)
    refine ⟨received, framer, hreceive, ?_, fun heq => ?_⟩
    · obtain ⟨⟨more, _, _⟩, -, _, _, hmore, -⟩ := receive_spec {} [left ++ rest] rfl (.idle rfl)
      rw [flatten_singleton] at hmore
      have hboth := hdrains.append stable_decodeIfComplete hmore
      exact ⟨more, (hboth.unique (hrest ▸ hall)).1⟩
    · obtain ⟨rfl, -, rfl⟩ := hdrains.unique (heq ▸ hall)
      exact ⟨rfl, hend rfl⟩

/-- An assigned address and a route. -/
def sampleCapsules : List ConnectIpCapsule :=
  [addressAssign [⟨0, .v4 0x0a000002, 32⟩], routeAdvertisement [⟨.v4 0, .v4 0xffffffff, 0⟩]]

/-- Their bytes, cut inside both capsules. -/
def sampleChunks : List Bytes :=
  [[1, 7, 0, 4, 10, 0], [0, 2, 32, 3, 10, 4, 0], [0, 0, 0, 255, 255, 255, 255, 0]]

theorem sent_capsules_received_split : ∃ framer : H2CapsuleFramer,
    ({} : H2CapsuleFramer).receive sampleChunks = some (sampleCapsules, none, framer) := by
  have hsent : Sent sampleCapsules [sampleChunks.flatten.take 9, sampleChunks.flatten.drop 9] :=
    .cons ⟨trivial, by decide +kernel⟩ (.cons ⟨trivial, by decide +kernel⟩ .nil)
  obtain ⟨received, framer, hreceive, -, hall⟩ := sent_capsules_received hsent
    (show sampleChunks.flatten <+: _ from prefix_refl _)
  obtain ⟨rfl, -⟩ := hall rfl
  exact ⟨framer, hreceive⟩

end H2CapsuleFramer

end H2

end Usque.Transport
