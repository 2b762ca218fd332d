/-
  The options of a TCP header, and how `clamp` reads and changes them.
-/
import Usque.Transport.ChainMss

namespace Usque.Transport.ChainMss
open Lib Checked List

variable {before bytes header tail : Bytes} {start : ℕ} {mss mss₀ : Option ℕ} {ipv6 : Bool}

/-! ## Grammar -/

/-- An option with data: its kind and its data. -/
abbrev TcpOption := UInt8 × Bytes

variable {options os os' : List TcpOption}

/-- Options without the end of the list: no-operations and options with data. -/
inductive Encodes : Bytes → List TcpOption → Prop where
  | nil : Encodes [] []
  | nop {bytes : Bytes} {options : List TcpOption} (rest : Encodes bytes options) :
    Encodes (1 :: bytes) options
  | option {kind length : UInt8} {data bytes : Bytes} {options : List TcpOption}
    (hkind : kind ≠ 0 ∧ kind ≠ 1) (hlength : length.toNat = data.length + 2)
    (rest : Encodes bytes options) :
    Encodes (kind :: length :: (data ++ bytes)) ((kind, data) :: options)

/-- The options end with the header, or at an end mark. -/
def Ended (tail : Bytes) : Prop := tail = [] ∨ ∃ padding, tail = 0 :: padding

def Options (bytes : Bytes) (options : List TcpOption) : Prop :=
  ∃ before tail, bytes = before ++ tail ∧ Encodes before options ∧ Ended tail

variable {a b : Bytes}

theorem Encodes.append (ha : Encodes a os) (hb : Encodes b os') : Encodes (a ++ b) (os ++ os') := by
  induction ha with
  | nil => exact hb
  | nop _ ih => exact .nop ih
  | option hkind hlen _ ih =>
    simp only [cons_append, append_assoc]
    exact .option hkind hlen ih

theorem encodes_nops (n : ℕ) : Encodes (replicate n 1) [] := by
  induction n with
  | zero => exact .nil
  | succ n ih => exact .nop ih

theorem encodes_mssOption (mss : UInt16) : Encodes (mssOption mss) [(2, [hi8 mss, lo8 mss])] := by
  change Encodes (2 :: 4 :: ([hi8 mss, lo8 mss] ++ [])) _
  exact .option (by decide) rfl .nil

theorem Encodes.unique {t u : Bytes} (ha : Encodes a os) (hb : Encodes b os') (ht : Ended t)
    (hu : Ended u) (h : a ++ t = b ++ u) : os = os' := by
  induction ha generalizing b os' with
  | nil =>
    cases hb with
    | nil => rfl
    | nop => rcases ht with rfl | ⟨padding, rfl⟩ <;> simp at h
    | option hkind =>
      rcases ht with rfl | ⟨padding, rfl⟩
      · simp at h
      · simp only [nil_append, cons_append, cons.injEq] at h
        exact absurd h.1.symm hkind.1
  | nop _ ih =>
    cases hb with
    | nil => rcases hu with rfl | ⟨padding, rfl⟩ <;> simp at h
    | nop rest => exact ih rest (cons.inj h).2
    | option hkind =>
      simp only [cons_append, cons.injEq] at h
      exact absurd h.1.symm hkind.2
  | option hkind hlen _ ih =>
    cases hb with
    | nil =>
      rcases hu with rfl | ⟨padding, rfl⟩
      · simp at h
      · simp only [nil_append, cons_append, cons.injEq] at h
        exact absurd h.1 hkind.1
    | nop =>
      simp only [cons_append, cons.injEq] at h
      exact absurd h.1 hkind.2
    | option _ hlen' rest =>
      simp only [cons_append, cons.injEq, append_assoc] at h
      obtain ⟨rfl, rfl, h⟩ := h
      obtain ⟨rfl, htail⟩ := append_inj h (by omega)
      rw [ih rest htail]

theorem Options.unique (h : Options bytes os) (h' : Options bytes os') : os = os' := by
  obtain ⟨a, t, rfl, ha, ht⟩ := h
  obtain ⟨b, u, heq, hb, hu⟩ := h'
  exact ha.unique hb ht hu heq

/-! ## The walk -/

/-- No option authenticates the header. -/
def Unauthenticated (options : List TcpOption) : Prop := ∀ o ∈ options, o.1 ≠ 19 ∧ o.1 ≠ 29

/-- No option announces an MSS. -/
def Silent (options : List TcpOption) : Prop := ∀ o ∈ options, o.1 ≠ 2

/-- The options `bytes`, with one MSS, of which the value is at `offset`. -/
def Announced (start : ℕ) (bytes : Bytes) (options : List TcpOption) (offset : ℕ) : Prop :=
  ∃ b₁ b₂ os₁ os₂ hi lo, bytes = b₁ ++ ([2, 4, hi, lo] ++ b₂) ∧
    options = os₁ ++ (2, [hi, lo]) :: os₂ ∧ Encodes b₁ os₁ ∧ Encodes b₂ os₂ ∧
    Silent os₁ ∧ Silent os₂ ∧ offset = start + b₁.length + 2

/-- What the walk finds in the options from `start` on, behind an MSS at `mss₀`. -/
structure Found (bytes : Bytes) (start : ℕ) (mss₀ mss : Option ℕ) (before tail : Bytes)
    (options : List TcpOption) : Prop where
  eq : bytes = before ++ tail
  ended : Ended tail
  encodes : Encodes before options
  unauthenticated : Unauthenticated options
  mss : (mss = mss₀ ∧ Silent options) ∨
    (mss₀ = none ∧ ∃ offset, mss = some offset ∧ Announced start before options offset)

theorem Found.nop (h : Found bytes (start + 1) mss₀ mss before tail options) :
    Found (1 :: bytes) start mss₀ mss (1 :: before) tail options where
  eq := by rw [h.eq]; rfl
  ended := h.ended
  encodes := .nop h.encodes
  unauthenticated := h.unauthenticated
  mss := by
    refine h.mss.imp_right ?_
    rintro ⟨hnone, offset, hsome, b₁, b₂, os₁, os₂, hi, lo, rfl, rfl, h1, h2, hs1, hs2, rfl⟩
    refine ⟨hnone, _, hsome, 1 :: b₁, b₂, os₁, os₂, hi, lo, rfl, rfl, .nop h1, h2, hs1, hs2, ?_⟩
    rw [length_cons]
    omega

variable {length kind : UInt8}

theorem Found.option {data : Bytes}
    (h : Found bytes (start + length.toNat) mss₀ mss before tail options)
    (hkind : kind ≠ 0 ∧ kind ≠ 1) (hmss : kind ≠ 2) (hauth : kind ≠ 19 ∧ kind ≠ 29)
    (hlen : length.toNat = data.length + 2) :
    Found (kind :: length :: (data ++ bytes)) start mss₀ mss
      (kind :: length :: (data ++ before)) tail ((kind, data) :: options) where
  eq := by rw [h.eq]; simp
  ended := h.ended
  encodes := .option hkind hlen h.encodes
  unauthenticated := forall_mem_cons.2 ⟨hauth, h.unauthenticated⟩
  mss := by
    rcases h.mss with ⟨heq, hsil⟩ |
      ⟨hnone, offset, hsome, b₁, b₂, os₁, os₂, hi, lo, rfl, rfl, h1, h2, hs1, hs2, rfl⟩
    · exact .inl ⟨heq, forall_mem_cons.2 ⟨hmss, hsil⟩⟩
    · refine .inr ⟨hnone, _, hsome, kind :: length :: (data ++ b₁), b₂, (kind, data) :: os₁, os₂,
        hi, lo, by simp, rfl, .option hkind hlen h1, h2, forall_mem_cons.2 ⟨hmss, hs1⟩,
        hs2, ?_⟩
      simp only [length_cons, length_append]
      omega

variable {hi lo : UInt8}

theorem Found.announced (h : Found bytes (start + 4) (some (start + 2)) mss before tail options) :
    Found (2 :: 4 :: ([hi, lo] ++ bytes)) start none mss (2 :: 4 :: ([hi, lo] ++ before)) tail
      ((2, [hi, lo]) :: options) where
  eq := by rw [h.eq]; simp
  ended := h.ended
  encodes := .option (by decide) rfl h.encodes
  unauthenticated := forall_mem_cons.2
    ⟨(by decide : (2 : UInt8) ≠ 19 ∧ (2 : UInt8) ≠ 29), h.unauthenticated⟩
  mss := by
    rcases h.mss with ⟨rfl, hsil⟩ | ⟨hnone, -⟩
    · exact .inr ⟨rfl, _, rfl, [], before, [], options, hi, lo, rfl, rfl, .nil, h.encodes, nofun,
        hsil, rfl⟩
    · cases hnone

variable {option : ℕ}

theorem drop_option (hkind : header[option]? = some kind)
    (hlen : header[option + 1]? = some length) (htwo : 2 ≤ length.toNat)
    (hle : option + length.toNat ≤ header.length) :
    ∃ data, length.toNat = data.length + 2 ∧
      header.drop option = kind :: length :: (data ++ header.drop (option + length.toNat)) := by
  obtain ⟨hlt, rfl⟩ := List.getElem?_eq_some_iff.1 hkind
  obtain ⟨hlt', hl⟩ := List.getElem?_eq_some_iff.1 hlen
  refine ⟨(header.drop (option + 2)).take (length.toNat - 2), ?_, ?_⟩
  · rw [length_take, length_drop]
    omega
  · rw [drop_eq_getElem_cons hlt, drop_eq_getElem_cons hlt']
    congr 2
    have hspl := (take_append_drop (length.toNat - 2) (header.drop (option + 2))).symm
    rw [drop_drop, show option + 2 + (length.toNat - 2) = option + length.toNat by omega]
      at hspl
    exact hspl

/-- **The walk does not panic**, and finds what the options say. -/
theorem walk_spec {rounds : ℕ} (hoption : option ≤ header.length)
    (hrounds : header.length - option < rounds) :
    Safe (walk header rounds option mss₀) fun (mss, eol) => ∃ before tail options,
      eol = option + before.length ∧
        Found (header.drop option) option mss₀ mss before tail options := by
  induction rounds generalizing option mss₀ with
  | zero => omega
  | succ rounds ih =>
    rw [walk]
    by_cases hend : header.length ≤ option
    · rw [if_pos hend]
      refine ⟨[], [], [], ?_, ?_, .inl rfl, .nil, nofun, .inl ⟨rfl, nofun⟩⟩
      · rw [length_nil]
        omega
      · rw [drop_of_length_le hend]
        rfl
    rw [if_neg hend]
    refine .bind (.index (by omega) fun kind hkind => ?_)
    obtain ⟨hlt, rfl⟩ := List.getElem?_eq_some_iff.1 hkind
    have hcons := drop_eq_getElem_cons hlt
    by_cases h0 : header[option] = 0
    · rw [if_pos h0]
      refine ⟨[], header.drop option, [], rfl, rfl, .inr ⟨header.drop (option + 1), ?_⟩, .nil,
        nofun, .inl ⟨rfl, nofun⟩⟩
      rw [hcons, h0]
    rw [if_neg h0]
    by_cases h1 : header[option] = 1
    · rw [if_pos h1]
      refine (ih (by omega) (by omega)).mono ?_
      rintro ⟨mss, eol⟩ ⟨before, tail, options, rfl, hfnd⟩
      refine ⟨1 :: before, tail, options, ?_, ?_⟩
      · rw [length_cons]
        omega
      · rw [hcons, h1]
        exact hfnd.nop
    rw [if_neg h1]
    refine .bind (.require fun hauth => .bind (.require fun htwo => ?_))
    refine .bind (.index (by omega) fun length hlength => ?_)
    refine .bind (.require fun hle => ?_)
    obtain ⟨data, hdata, hdrop⟩ := drop_option hkind hlength hle.1 hle.2
    by_cases h2 : header[option] = 2
    · rw [if_pos h2]
      refine .bind (.require ?_)
      rintro ⟨hfour, rfl⟩
      refine (ih (by omega) (by omega)).mono ?_
      rintro ⟨mss, eol⟩ ⟨before, tail, options, rfl, hfnd⟩
      obtain ⟨hi, lo, rfl⟩ : ∃ hi lo, data = [hi, lo] := by
        rw [← length_eq_two]
        omega
      have hlen : length = 4 := UInt8.toNat_inj.1 hfour
      rw [hdrop, h2]
      rw [hfour] at hfnd ⊢
      rw [hlen]
      refine ⟨2 :: 4 :: ([hi, lo] ++ before), tail, _, ?_, hfnd.announced⟩
      simp only [length_cons, length_append, length_nil]
      omega
    · rw [if_neg h2]
      refine (ih (by omega) (by omega)).mono ?_
      rintro ⟨mss, eol⟩ ⟨before, tail, options, rfl, hfnd⟩
      rw [hdrop]
      refine ⟨_, tail, _, ?_, hfnd.option ⟨h0, h1⟩ h2 hauth hdata⟩
      simp only [length_cons, length_append]
      omega

/-! ## The new header -/

/-- The MSS that a connection may use: the announced or the implicit one. -/
def effectiveMss (ipv6 : Bool) (options : List TcpOption) : UInt16 :=
  match options.find? (·.1 = 2) with
  | some (_, [hi, lo]) => be16 hi lo
  | _ => implicitMss ipv6

theorem effectiveMss_silent (h : Silent options) :
    effectiveMss ipv6 options = implicitMss ipv6 := by
  have hfind : options.find? (·.1 = 2) = none := by
    rw [find?_eq_none]
    intro o ho
    simpa using h o ho
  rw [effectiveMss, hfind]

theorem effectiveMss_announced {os₁ os₂ : List TcpOption} (h : Silent os₁) :
    effectiveMss ipv6 (os₁ ++ (2, [hi, lo]) :: os₂) = be16 hi lo := by
  have hfind : (os₁ ++ (2, [hi, lo]) :: os₂).find? (·.1 = 2) = some (2, [hi, lo]) := by
    rw [find?_append]
    have hnone : os₁.find? (·.1 = 2) = none := by
      rw [find?_eq_none]
      intro o ho
      simpa using h o ho
    rw [hnone]
    rfl
  rw [effectiveMss, hfind]

def others (options : List TcpOption) : List TcpOption := options.filter (·.1 ≠ 2)

/-- `options'` are `options` with one MSS, which is `mss`. -/
structure Lowers (ipv6 : Bool) (mss : UInt16) (options options' : List TcpOption) : Prop where
  lower : mss < effectiveMss ipv6 options
  announced : ∃ os₁ os₂, options' = os₁ ++ (2, [hi8 mss, lo8 mss]) :: os₂ ∧ Silent os₁ ∧ Silent os₂
  others_eq : others options' = others options
  unauthenticated : Unauthenticated options'

/-- The header `header'` lowers the MSS of `header` to `mss`, and is otherwise the
    same up to its length; one that is longer leaves the packet in its budget. -/
structure Lowered (packet : Bytes) (budget : UInt16) (ipv6 : Bool) (mss : UInt16)
    (header header' : Bytes) (options : List TcpOption) : Prop where
  length : header'.length = header.length ∨
    (header'.length = header.length + 4 ∧ packet.length + 4 ≤ budget.toNat)
  fields : ∀ i < 20, i ≠ 12 → header'[i]? = header[i]?
  dataOffset : ∀ d : UInt8, header[12]? = some d → (d >>> 4).toNat * 4 = header.length →
    ∃ d' : UInt8, header'[12]? = some d' ∧ d' &&& 15 = d &&& 15 ∧ (d' >>> 4).toNat * 4 = header'.length
  options : ∃ options', Options (header'.drop 20) options' ∧ Lowers ipv6 mss options options'

theorem lowered_of_eq {packet fixed bytes' : Bytes} {budget mss : UInt16}
    (hfixed : fixed.length = 20) (hlen : bytes'.length = bytes.length)
    (hoptions : ∃ options', Options bytes' options' ∧ Lowers ipv6 mss options options') :
    Lowered packet budget ipv6 mss (fixed ++ bytes) (fixed ++ bytes') options where
  length := .inl (by simp [hlen])
  fields i hi _ := by
    rw [getElem?_append_left (by omega), getElem?_append_left (by omega)]
  dataOffset d hd hoff := by
    refine ⟨d, ?_, rfl, ?_⟩
    · rwa [getElem?_append_left (by omega)] at hd ⊢
    · rw [hoff]
      simp [hlen]
  options := by rwa [← hfixed, drop_left]

theorem withWords_eq (d words : UInt8) (h : words.toNat < 16) :
    withWords d words &&& 15 = d &&& 15 ∧ withWords d words >>> 4 = words := by
  have hd : (d &&& 15).toNat = d.toNat % 16 := by
    exact Nat.and_two_pow_sub_one_eq_mod d.toNat 4
  have hw : (words <<< 4).toNat = 2 ^ 4 * words.toNat := by
    change words.toNat <<< 4 % 2 ^ 8 = _
    omega
  have hor : (withWords d words).toNat = 2 ^ 4 * words.toNat + d.toNat % 16 := by
    rw [withWords, UInt8.toNat_or, hd, hw, Nat.or_comm, ← Nat.two_pow_add_eq_or_of_lt (by omega)]
  constructor
  · apply UInt8.toNat_inj.1
    rw [UInt8.toNat_and]
    refine (Nat.and_two_pow_sub_one_eq_mod _ 4).trans ?_
    omega
  · apply UInt8.toNat_inj.1
    rw [UInt8.toNat_shiftRight, hor]
    change (2 ^ 4 * words.toNat + d.toNat % 16) >>> 4 = _
    omega

section
variable {packet fixed before tail : Bytes} {budget maxMss : UInt16} {ipv6 : Bool}
  {options : List TcpOption}

theorem withMss_announced {offset eol : ℕ} (hfixed : fixed.length = 20) (hended : Ended tail)
    (hauth : Unauthenticated options) (hmss : Announced 20 before options offset) :
    Safe (withMss packet budget ipv6 maxMss (fixed ++ (before ++ tail)) (some offset) eol)
      fun header' =>
        Lowered packet budget ipv6 maxMss (fixed ++ (before ++ tail)) header' options := by
  obtain ⟨b₁, b₂, os₁, os₂, hi, lo, rfl, rfl, h1, h2, hs1, hs2, rfl⟩ := hmss
  have hhdr : fixed ++ (b₁ ++ ([2, 4, hi, lo] ++ b₂) ++ tail) =
      (fixed ++ b₁ ++ [2, 4]) ++ hi :: lo :: (b₂ ++ tail) := by simp
  have hoff : 20 + b₁.length + 2 = (fixed ++ b₁ ++ [2, 4]).length := by
    simp [hfixed, Nat.add_assoc]
  have hread := readU16_append_cons (fixed ++ b₁ ++ [2, 4]) (b₂ ++ tail) hi lo
  have hwrite := writeU16_append_cons (fixed ++ b₁ ++ [2, 4]) (b₂ ++ tail) hi lo maxMss
  rw [← hhdr, ← hoff] at hread hwrite
  have hle := length_of_readU16 hread
  refine .bind (.read16 hle fun old hold => .bind (.require fun hlt => .write16 hle ?_))
  cases hold.symm.trans hread
  rw [hwrite]
  have hnew : fixed ++ b₁ ++ [2, 4] ++ hi8 maxMss :: lo8 maxMss :: (b₂ ++ tail) =
      fixed ++ (b₁ ++ mssOption maxMss ++ b₂ ++ tail) := by simp [mssOption]
  rw [hnew]
  refine lowered_of_eq hfixed ?_ ?_
  · simp [mssOption]
  · refine ⟨os₁ ++ [(2, [hi8 maxMss, lo8 maxMss])] ++ os₂, ?_, ?_, ⟨os₁, os₂, by simp, hs1, hs2⟩, ?_, ?_⟩
    · exact ⟨_, tail, rfl, (h1.append (encodes_mssOption maxMss)).append h2, hended⟩
    · rwa [effectiveMss_announced hs1]
    · simp [others]
    · intro o ho
      simp only [mem_append, mem_singleton, or_assoc] at ho
      rcases ho with ho | rfl | ho
      · exact hauth o (by simp [ho])
      · exact (by decide : (2 : UInt8) ≠ 19 ∧ (2 : UInt8) ≠ 29)
      · exact hauth o (by simp [ho])

theorem lowers_append (hauth : Unauthenticated options) (hsil : Silent options)
    (hlt : maxMss < implicitMss ipv6) :
    Lowers ipv6 maxMss options (options ++ [(2, [hi8 maxMss, lo8 maxMss])]) where
  lower := by rwa [effectiveMss_silent hsil]
  announced := ⟨options, [], rfl, hsil, nofun⟩
  others_eq := by simp [others]
  unauthenticated := by
    intro o ho
    rcases mem_append.1 ho with ho | ho
    · exact hauth o ho
    · obtain rfl := mem_singleton.1 ho
      exact (by decide : (2 : UInt8) ≠ 19 ∧ (2 : UInt8) ≠ 29)

/-- The padding takes the new option. -/
theorem lowered_padded (hfixed : fixed.length = 20) (hroom : 4 ≤ tail.length)
    (henc : Encodes before options) (hlow : Lowers ipv6 maxMss options
      (options ++ [(2, [hi8 maxMss, lo8 maxMss])])) :
    Lowered packet budget ipv6 maxMss (fixed ++ (before ++ tail))
      (fixed ++ (before ++ mssOption maxMss ++ replicate (tail.length - 4) 0)) options := by
  refine lowered_of_eq hfixed ?_ ⟨_, ?_, hlow⟩
  · simp [mssOption]
    omega
  · refine ⟨_, _, rfl, henc.append (encodes_mssOption maxMss), ?_⟩
    rcases tail.length - 4 with _ | n
    · exact .inl rfl
    · exact .inr ⟨_, rfl⟩

/-- A longer header takes the new option, behind no-operations for the padding. -/
theorem lowered_grown {fixed' : Bytes} {d : UInt8} (hfixed : fixed.length = 20)
    (hwds : (fixed ++ (before ++ tail)).length % 4 = 0)
    (hle : (fixed ++ (before ++ tail)).length ≤ 56)
    (hbudget : packet.length + 4 ≤ budget.toNat) (henc : Encodes before options)
    (hlowers : Lowers ipv6 maxMss options (options ++ [(2, [hi8 maxMss, lo8 maxMss])]))
    (hd : fixed[12]? = some d) (hfixed' : fixed' = fixed.set 12 (withWords d
      (UInt8.ofNat (((fixed ++ (before ++ tail)).length + 4) / 4)))) :
    Lowered packet budget ipv6 maxMss (fixed ++ (before ++ tail))
      (fixed' ++ (before ++ replicate tail.length 1 ++ mssOption maxMss)) options := by
  have hlen' : fixed'.length = 20 := by rw [hfixed', length_set, hfixed]
  have hlen : (fixed' ++ (before ++ replicate tail.length 1 ++ mssOption maxMss)).length =
      (fixed ++ (before ++ tail)).length + 4 := by
    simp [hfixed, hlen', mssOption, Nat.add_assoc]
  constructor
  · exact .inr ⟨hlen, hbudget⟩
  · intro i hi hne
    rw [getElem?_append_left (by omega), getElem?_append_left (by omega), hfixed',
      getElem?_set_ne (by omega)]
  · intro d0 hd0 _
    rw [getElem?_append_left (by omega), hd] at hd0
    cases hd0
    have hnat : (UInt8.ofNat (((fixed ++ (before ++ tail)).length + 4) / 4)).toNat =
        ((fixed ++ (before ++ tail)).length + 4) / 4 := by
      rw [UInt8.toNat_ofNat']
      omega
    obtain ⟨hlow, hhigh⟩ := withWords_eq d
      (UInt8.ofNat (((fixed ++ (before ++ tail)).length + 4) / 4)) (by omega)
    refine ⟨_, ?_, hlow, ?_⟩
    · rw [getElem?_append_left (by omega), hfixed', getElem?_set_self (by omega)]
    · rw [hhigh]
      omega
  · refine ⟨_, ?_, hlowers⟩
    rw [← hlen', drop_left]
    have hnops := henc.append (encodes_nops tail.length)
    rw [append_nil] at hnops
    exact ⟨_, [], (append_nil _).symm, hnops.append (encodes_mssOption maxMss), .inl rfl⟩

theorem withMss_silent (hfixed : fixed.length = 20)
    (hwds : (fixed ++ (before ++ tail)).length % 4 = 0) (henc : Encodes before options)
    (hauth : Unauthenticated options) (hsil : Silent options) :
    Safe (withMss packet budget ipv6 maxMss (fixed ++ (before ++ tail)) none (20 + before.length))
      fun header' =>
        Lowered packet budget ipv6 maxMss (fixed ++ (before ++ tail)) header' options := by
  have hlen : (fixed ++ (before ++ tail)).length = 20 + before.length + tail.length := by
    simp [hfixed, Nat.add_assoc]
  have heol : 20 + before.length = (fixed ++ before).length := by simp [hfixed]
  have htake : (fixed ++ (before ++ tail)).take (20 + before.length) = fixed ++ before := by
    rw [heol, ← append_assoc, take_left]
  refine .bind (.require fun hlt => .bind (.sub (by omega) ?_))
  have hlow := lowers_append hauth hsil hlt
  split_ifs with hroom
  · have hroom' : 4 ≤ tail.length := by omega
    refine .bind (.copyFrom (by simp only [mssOption, length_cons, length_nil]; omega) ?_)
    have hcopied : (fixed ++ (before ++ tail)).take (20 + before.length) ++ mssOption maxMss ++
        (fixed ++ (before ++ tail)).drop (20 + before.length + (mssOption maxMss).length) =
          (fixed ++ before ++ mssOption maxMss) ++ tail.drop 4 := by
      rw [htake, heol, ← append_assoc fixed, ← drop_drop, drop_left]
      rfl
    have heol' : 20 + before.length + 4 = (fixed ++ before ++ mssOption maxMss).length := by
      simp [hfixed, mssOption, Nat.add_assoc]
    rw [hcopied, heol']
    refine .fill (prefix_append _ _).length_le ?_
    rw [take_left, length_append, Nat.add_sub_cancel_left, length_drop,
      append_assoc, append_assoc, ← append_assoc before]
    exact lowered_padded hfixed hroom' henc hlow
  · refine .bind (.require fun hfits => .bind (.fill (by omega) ?_))
    rw [htake, hlen, Nat.add_sub_cancel_left]
    have hhdr : fixed ++ before ++ replicate tail.length 1 ++ mssOption maxMss =
        fixed ++ (before ++ replicate tail.length 1 ++ mssOption maxMss) := by
      simp only [append_assoc]
    have hlen' : (fixed ++ before ++ replicate tail.length 1 ++ mssOption maxMss).length =
        (fixed ++ (before ++ tail)).length + 4 := by
      simp [mssOption, Nat.add_assoc]
    refine .bind (.index (by omega) fun d hd => .copyFrom (by simp; omega) ?_)
    rw [hlen']
    rw [hhdr] at hd ⊢
    rw [getElem?_append_left (by omega)] at hd
    have hset : ∀ x, (fixed ++ (before ++ replicate tail.length 1 ++ mssOption maxMss)).take 12 ++
        [x] ++ (fixed ++ (before ++ replicate tail.length 1 ++ mssOption maxMss)).drop
          (12 + [x].length) =
        fixed.set 12 x ++ (before ++ replicate tail.length 1 ++ mssOption maxMss) := by
      intro x
      rw [← set_append_left _ _ (by omega), set_eq_take_append_cons_drop,
        if_pos (by rw [length_append]; omega), append_assoc]
      rfl
    rw [hset]
    exact lowered_grown hfixed hwds hfits.1 hfits.2 henc hlow hd rfl

/-- **The new header** is the old one with a lower MSS. -/
theorem withMss_spec (hlen : 20 ≤ header.length) (hwds : header.length % 4 = 0)
    (hfnd : Found (header.drop 20) 20 none mss before tail options) :
    Safe (withMss packet budget ipv6 maxMss header mss (20 + before.length)) fun header' =>
      Lowered packet budget ipv6 maxMss header header' options := by
  have hfixed : (header.take 20).length = 20 := length_take_of_le hlen
  have hhdr : header = header.take 20 ++ (before ++ tail) := by
    rw [← hfnd.eq, take_append_drop]
  rw [hhdr] at hwds ⊢
  rcases hfnd.mss with ⟨rfl, hsil⟩ | ⟨-, offset, rfl, hmss⟩
  · exact withMss_silent hfixed hwds hfnd.encodes hfnd.unauthenticated hsil
  · exact withMss_announced hfixed hfnd.ended hfnd.unauthenticated hmss

end

end Usque.Transport.ChainMss
