/-
  What the peer withdraws is blocked (`apply_peer_network_state` of
  `usque-transport/src/netstack.rs`).

  A family is available while the assigned address is in an assigned prefix and the routes
  for all protocols cover the family, once the peer has said anything about them. One sweep
  decides the second, because decoded routes are in order and apart (`covers_iff`).
-/
import Usque.Lib.Checked
import Usque.Protocol.Routes
import Usque.Transport.Control

namespace Usque.Transport
open Lib Protocol ConnectIpCapsule ConnectIpControlPlane List Nat

/-! ## The code -/

/-- `RuntimePath`, as far as the peer changes it. -/
structure RuntimePath where
  ipv4Available : Bool
  ipv6Available : Bool

/-- `prefix_contains` in one family. -/
def familyContains {bits : ℕ} (network : BitVec bits) (prefixLen : UInt8) (address : BitVec bits) :
    Checked Bool := do
  let length := prefixLen.toNat
  if length > bits then return false
  let mask ←
    if length = 0 then pure 0
    else do
      let shift ← Checked.sub bits length
      if shift < bits then pure (BitVec.allOnes bits <<< shift) else .error .panicked
  return network &&& mask == address &&& mask

def prefixContains (address : IpAddr) (p : IpPrefix) : Checked Bool :=
  match p.address, address with
  | .v4 network, .v4 address => familyContains network p.prefixLen address
  | .v6 network, .v6 address => familyContains network p.prefixLen address
  | _, _ => pure false

def assignmentAllows (state : PeerNetworkState) (address : IpAddr) : Checked Bool :=
  if !state.assignmentsAdvertised then pure true
  else state.assignedAddresses.anyM (prefixContains address)

def numericRange (range : IpAddressRange) : Option (ℕ × ℕ) :=
  match range.start, range.end with
  | .v4 start, .v4 stop => some (start.toNat, stop.toNat)
  | .v6 start, .v6 stop => some (start.toNat, stop.toNat)
  | _, _ => none

/-- The filter of `routes_cover_family`. -/
def coversFamily (ipv4 : Bool) (range : IpAddressRange) : Bool :=
  range.protocol == 0 &&
    match ipv4, range.start, range.end with
    | true, .v4 _, .v4 _ | false, .v6 _, .v6 _ => true
    | _, _, _ => false

/-- The loop of `routes_cover_family`; what is below `next` is covered. -/
def covers (maximum : ℕ) : ℕ → List IpAddressRange → Bool
  | _, [] => false
  | next, range :: ranges =>
    match numericRange range with
    | none => covers maximum next ranges
    | some (start, stop) =>
      if start > next then false
      else if stop = maximum then true
      else covers maximum (min (stop + 1) (2 ^ 128 - 1)) ranges

def familyMaximum (ipv4 : Bool) : ℕ := if ipv4 then 2 ^ 32 - 1 else 2 ^ 128 - 1

def routesCoverFamily (state : PeerNetworkState) (ipv4 : Bool) : Bool :=
  if !state.routesAdvertised then true
  else covers (familyMaximum ipv4) 0 (state.availableRoutes.filter (coversFamily ipv4))

/-- `apply_peer_network_state` for one family. -/
def familyAvailable (available : Bool) (state : PeerNetworkState) (address : IpAddr)
    (ipv4 : Bool) : Checked Bool := do
  if available then
    if ← assignmentAllows state address then return routesCoverFamily state ipv4
  return false

def applyPeerNetworkState (path : RuntimePath) (state : PeerNetworkState)
    (assignedIpv4 : BitVec 32) (assignedIpv6 : BitVec 128) : Checked RuntimePath := do
  let ipv4Available ← familyAvailable path.ipv4Available state (.v4 assignedIpv4) true
  let ipv6Available ← familyAvailable path.ipv6Available state (.v6 assignedIpv6) false
  return { ipv4Available, ipv6Available }

def packetAllowedByPeerState (packet : Bytes) (path : RuntimePath) : Bool :=
  match packet.head?.map fun byte : UInt8 => byte >>> 4 with
  | some 4 => path.ipv4Available
  | some 6 => path.ipv6Available
  | _ => false

/-! ## Prefixes -/

/-- The address begins with the bits of the prefix. -/
def InPrefix (address : IpAddr) (p : IpPrefix) : Prop :=
  match p.address, address with
  | .v4 network, .v4 address => p.prefixLen.toNat ≤ 32 ∧
    network.toNat / 2 ^ (32 - p.prefixLen.toNat) = address.toNat / 2 ^ (32 - p.prefixLen.toNat)
  | .v6 network, .v6 address => p.prefixLen.toNat ≤ 128 ∧
    network.toNat / 2 ^ (128 - p.prefixLen.toNat) = address.toNat / 2 ^ (128 - p.prefixLen.toNat)
  | _, _ => False

theorem and_mask_eq {bits k : ℕ} (x y : BitVec bits) :
    x &&& (BitVec.allOnes bits <<< k) = y &&& (BitVec.allOnes bits <<< k) ↔
      x.toNat / 2 ^ k = y.toNat / 2 ^ k := by
  rw [← shiftRight_eq_div_pow, ← shiftRight_eq_div_pow, ← BitVec.toNat_ushiftRight,
    ← BitVec.toNat_ushiftRight, BitVec.toNat_inj]
  constructor
  · intro h
    ext i hi
    have hbit := congrArg (·.getLsbD (k + i)) h
    by_cases hlt : k + i < bits
    · simpa [hlt] using hbit
    · simp [BitVec.getLsbD_of_ge _ _ (Nat.le_of_not_lt hlt)]
  · intro h
    ext i hi
    by_cases hlt : i < k
    · simp [hlt]
    · have hbit := congrArg (·.getLsbD (i - k)) h
      simp only [BitVec.getLsbD_ushiftRight, Nat.add_sub_cancel' (Nat.le_of_not_lt hlt),
        BitVec.getLsbD_eq_getElem hi] at hbit
      simp [hbit]

theorem familyContains_eq {bits : ℕ} (network address : BitVec bits) (prefixLen : UInt8) :
    familyContains network prefixLen address = .ok (decide (prefixLen.toNat ≤ bits ∧
      network.toNat / 2 ^ (bits - prefixLen.toNat) =
        address.toNat / 2 ^ (bits - prefixLen.toNat))) := by
  unfold familyContains
  by_cases hlong : prefixLen.toNat > bits
  · simp [hlong, Nat.not_le.mpr hlong]
    rfl
  by_cases hzero : prefixLen.toNat = 0
  · simp [hzero, div_eq_of_lt network.isLt, div_eq_of_lt address.isLt]
    rfl
  · have hsub : Checked.sub bits prefixLen.toNat = .ok (bits - prefixLen.toNat) :=
      if_pos (Nat.le_of_not_lt hlong)
    have hshift : bits - prefixLen.toNat < bits := by omega
    simp [hlong, hzero, hsub, hshift, bind, Except.bind, pure, Except.pure, Bool.beq_eq_decide_eq,
      and_mask_eq]
    omega

instance (address : IpAddr) (p : IpPrefix) : Decidable (InPrefix address p) := by
  unfold InPrefix
  split <;> infer_instance

theorem prefixContains_eq (address : IpAddr) (p : IpPrefix) :
    prefixContains address p = .ok (decide (InPrefix address p)) := by
  obtain ⟨_, network, prefixLen⟩ := p
  cases network <;> cases address
  · exact familyContains_eq _ _ prefixLen
  · rfl
  · rfl
  · exact familyContains_eq _ _ prefixLen

/-! ## Routes -/

/-- **The sweep is complete** over routes that are in order and apart. -/
theorem covers_iff {maximum next : ℕ} {ranges : List IpAddressRange} (hmax : maximum < 2 ^ 128)
    (hval : ∀ range ∈ ranges, addressNumber range.start ≤ addressNumber range.end ∧
      addressNumber range.end ≤ maximum ∧
      numericRange range = some (addressNumber range.start, addressNumber range.end))
    (happart : ranges.Pairwise fun l r => addressNumber l.end < addressNumber r.start)
    (habove : ∀ range ∈ ranges, next ≤ addressNumber range.start) (hnext : next ≤ maximum) :
    covers maximum next ranges = true ↔ ∀ n, next ≤ n → n ≤ maximum →
      ∃ range ∈ ranges, addressNumber range.start ≤ n ∧ n ≤ addressNumber range.end := by
  induction ranges generalizing next with
  | nil => simpa [covers] using ⟨next, le_rfl, hnext⟩
  | cons range ranges ih =>
    obtain ⟨⟨hle, hstop, hnum⟩, hval⟩ := forall_mem_cons.mp hval
    obtain ⟨hfst, happart⟩ := pairwise_cons.mp happart
    obtain ⟨hst, -⟩ := forall_mem_cons.mp habove
    simp only [covers, hnum, exists_mem_cons_iff]
    split_ifs with hgap hlast
    · -- nothing covers `next`
      refine ⟨by simp, fun h => ?_⟩
      rcases h next le_rfl hnext with hr | ⟨r, hmem, hr⟩
      · omega
      · have := hfst r hmem
        omega
    · exact ⟨fun _ n hn hn' => .inl ⟨by omega, by omega⟩, fun _ => rfl⟩
    · rw [Nat.min_eq_left (by omega), ih hval happart (fun r hmem => hfst r hmem) (by omega)]
      constructor
      · intro h n hn hn'
        by_cases hin : n ≤ addressNumber range.end
        · exact .inl ⟨by omega, hin⟩
        · exact .inr (h n (by omega) hn')
      · intro h n hn hn'
        exact (h n (by omega) hn').resolve_left (by omega)

/-- The number is that of an address in a route of the family for all protocols. -/
def Covered (ipv4 : Bool) (ranges : List IpAddressRange) (n : ℕ) : Prop :=
  ∃ range ∈ ranges, range.protocol = 0 ∧ addressFamily range.start = (if ipv4 then 4 else 6) ∧
    addressNumber range.start ≤ n ∧ n ≤ addressNumber range.end

theorem coversFamily_iff {ipv4 : Bool} {range : IpAddressRange} (hval : range.Valid) :
    coversFamily ipv4 range = true ↔
      range.protocol = 0 ∧ addressFamily range.start = (if ipv4 then 4 else 6) := by
  obtain ⟨start, stop, protocol⟩ := range
  have hfam := hval.1
  cases ipv4 <;> cases start <;> cases stop <;> simp_all [coversFamily, addressFamily]

theorem range_of_coversFamily {ipv4 : Bool} {range : IpAddressRange}
    (h : coversFamily ipv4 range = true) : addressNumber range.end ≤ familyMaximum ipv4 ∧
      numericRange range = some (addressNumber range.start, addressNumber range.end) := by
  obtain ⟨start, stop, protocol⟩ := range
  cases ipv4 <;> cases start <;> cases stop <;> simp [coversFamily] at h
  · exact ⟨le_pred_of_lt (BitVec.isLt _), rfl⟩
  · exact ⟨le_pred_of_lt (BitVec.isLt _), rfl⟩

theorem routesCoverFamily_iff {state : PeerNetworkState} {ipv4 : Bool}
    (hroutes : validateRoutes state.availableRoutes = .ok ()) :
    routesCoverFamily state ipv4 = true ↔ (state.routesAdvertised = true →
      ∀ n ≤ familyMaximum ipv4, Covered ipv4 state.availableRoutes n) := by
  unfold validateRoutes at hroutes
  rw [seqOk, seqOk, validateRanges_eq_ok] at hroutes
  obtain ⟨hval, hord, -⟩ := hroutes
  rw [validateOrder_eq_ok hval, isChain_iff_pairwise] at hord
  unfold routesCoverFamily
  cases state.routesAdvertised with
  | false => simp
  | true =>
    rw [Bool.not_true, if_neg Bool.false_ne_true, covers_iff (by cases ipv4 <;> decide) ?_ ?_
      (fun _ _ => Nat.zero_le _) (Nat.zero_le _)]
    · simp only [Nat.zero_le, true_imp_iff, mem_filter, Covered, and_assoc]
      refine forall₂_congr fun n _ => exists_congr fun range => and_congr_right fun hmem => ?_
      rw [coversFamily_iff (hval range hmem), and_assoc]
    · intro range hmem
      obtain ⟨hmem, hcovers⟩ := mem_filter.mp hmem
      exact ⟨(hval range hmem).2, range_of_coversFamily hcovers⟩
    · -- routes of one family and protocol follow each other
      refine (hord.filter _).imp_of_mem fun {l r} hl hr hfollows => ?_
      obtain ⟨hl, hl'⟩ := mem_filter.mp hl
      obtain ⟨hr, hr'⟩ := mem_filter.mp hr
      rw [coversFamily_iff (hval _ ‹_›)] at hl' hr'
      rcases hfollows.2 with h | ⟨-, h | h⟩
      · exact absurd h (by simp [hl'.2, hr'.2])
      · exact absurd h (by simp [hl'.1, hr'.1])
      · exact h.2

/-! ## The state of the peer -/

/-- The peer leaves the family of an assigned address. -/
def Leaves (state : PeerNetworkState) (ipv4 : Bool) (assigned : IpAddr) : Prop :=
  (state.assignmentsAdvertised = true → ∃ p ∈ state.assignedAddresses, InPrefix assigned p) ∧
    (state.routesAdvertised = true → ∀ n ≤ familyMaximum ipv4, Covered ipv4 state.availableRoutes n)

theorem familyAvailable_eq {state : PeerNetworkState}
    (hroutes : validateRoutes state.availableRoutes = .ok ()) (available ipv4 : Bool)
    (assigned : IpAddr) : ∃ b, familyAvailable available state assigned ipv4 = .ok b ∧
      (b = true ↔ available = true ∧ Leaves state ipv4 assigned) := by
  obtain ⟨allowed, hallows, hassigned⟩ : ∃ allowed, assignmentAllows state assigned = .ok allowed ∧
      (allowed = true ↔ (state.assignmentsAdvertised = true →
        ∃ p ∈ state.assignedAddresses, InPrefix assigned p)) := by
    have hcont : prefixContains assigned = fun p => pure (decide (InPrefix assigned p)) :=
      funext (prefixContains_eq assigned)
    rw [assignmentAllows, hcont, anyM_pure]
    cases state.assignmentsAdvertised with
    | false => exact ⟨true, rfl, by simp⟩
    | true => exact ⟨_, rfl, by simp⟩
  refine ⟨available && allowed && routesCoverFamily state ipv4, ?_, ?_⟩
  · unfold familyAvailable
    rw [hallows]
    cases available <;> cases allowed <;> rfl
  · rw [Leaves, ← hassigned, ← routesCoverFamily_iff hroutes, Bool.and_eq_true, Bool.and_eq_true,
      and_assoc]

/-- The peer takes back prefixes or routes, or begins to name them. -/
def Withdraws (state state' : PeerNetworkState) : Prop :=
  (state.assignmentsAdvertised = true → state'.assignmentsAdvertised = true ∧
    state'.assignedAddresses ⊆ state.assignedAddresses) ∧
  (state.routesAdvertised = true → state'.routesAdvertised = true ∧
    state'.availableRoutes ⊆ state.availableRoutes)

theorem Withdraws.leaves {state state' : PeerNetworkState} {ipv4 : Bool} {assigned : IpAddr}
    (h : Withdraws state state') (hleaves : Leaves state' ipv4 assigned) :
    Leaves state ipv4 assigned := by
  refine ⟨fun hadv => ?_, fun hadv n hn => ?_⟩
  · obtain ⟨hadv', hsub⟩ := h.1 hadv
    obtain ⟨p, hmem, hp⟩ := hleaves.1 hadv'
    exact ⟨p, hsub hmem, hp⟩
  · obtain ⟨hadv', hsub⟩ := h.2 hadv
    obtain ⟨range, hmem, hrng⟩ := hleaves.2 hadv' n hn
    exact ⟨range, hsub hmem, hrng⟩

/-- The state after some decoded capsules. -/
def Received (capsules : List ConnectIpCapsule) (state : PeerNetworkState) : Prop :=
  (∀ capsule ∈ capsules, ∃ input rest, decode input = (.ok capsule, rest)) ∧
    state = applied {} capsules

theorem validateRoutes_of_decode {input rest : Bytes} {ranges : List IpAddressRange}
    (h : decode input = (.ok (.routeAdvertisement ranges), rest)) :
    validateRoutes ranges = .ok () := by
  obtain ⟨-, _, _, -, henc, -⟩ := encode_decodeFrame (decode_eq_ok.mp h)
  simp only [encode, body, bindOk] at henc
  obtain ⟨_, ⟨_, hval, -⟩, -⟩ := henc
  exact hval

theorem Received.spec {capsules : List ConnectIpCapsule} {state : PeerNetworkState}
    (h : Received capsules state) : validateRoutes state.availableRoutes = .ok () ∧
    (state.assignmentsAdvertised = true ↔ ∃ addresses, .addressAssign addresses ∈ capsules) ∧
    (state.routesAdvertised = true ↔ ∃ ranges, .routeAdvertisement ranges ∈ capsules) := by
  obtain ⟨hdecoded, rfl⟩ := h
  induction capsules using reverseRecOn with
  | nil => exact ⟨rfl, by simp [applied], by simp [applied]⟩
  | append_singleton _ capsule ih =>
    obtain ⟨hroutes, hassigned, hadv⟩ :=
      ih fun capsule' hmem => hdecoded capsule' (mem_append_left _ hmem)
    obtain ⟨input, rest, hdec⟩ := hdecoded capsule (by simp)
    rw [applied_append]
    cases capsule with
    | addressAssign addresses =>
      exact ⟨hroutes, iff_of_true rfl ⟨addresses, by simp⟩, hadv.trans (by simp)⟩
    | routeAdvertisement ranges =>
      exact ⟨validateRoutes_of_decode hdec, hassigned.trans (by simp),
        iff_of_true rfl ⟨ranges, by simp⟩⟩
    | _ => exact ⟨hroutes, hassigned.trans (by simp), hadv.trans (by simp)⟩

structure Restricts (state : PeerNetworkState) (assignedIpv4 : BitVec 32)
    (assignedIpv6 : BitVec 128) (path path' : RuntimePath) : Prop where
  applied : applyPeerNetworkState path state assignedIpv4 assignedIpv6 = .ok path'
  ipv4 : path'.ipv4Available = true ↔
    path.ipv4Available = true ∧ Leaves state true (.v4 assignedIpv4)
  ipv6 : path'.ipv6Available = true ↔
    path.ipv6Available = true ∧ Leaves state false (.v6 assignedIpv6)

/-- **What the peer withdraws is blocked, and nothing else.** After any decoded capsules:
    * the computation does not overflow, and a family is available if it was and the peer
      leaves it; the peer has advertised what it has sent;
    * what the peer withdraws further makes no family available;
    * a packet passes only in an available family. -/
theorem peer_withdrawal_fails_closed {capsules : List ConnectIpCapsule} {state : PeerNetworkState}
    (h : Received capsules state) (assignedIpv4 : BitVec 32) (assignedIpv6 : BitVec 128)
    (path : RuntimePath) :
    (state.assignmentsAdvertised = true ↔ ∃ addresses, .addressAssign addresses ∈ capsules) ∧
    (state.routesAdvertised = true ↔ ∃ ranges, .routeAdvertisement ranges ∈ capsules) ∧
    ∃ path', Restricts state assignedIpv4 assignedIpv6 path path' ∧
      (∀ capsules' state' path'', Received capsules' state' → Withdraws state state' →
        applyPeerNetworkState path state' assignedIpv4 assignedIpv6 = .ok path'' →
        (path''.ipv4Available = true → path'.ipv4Available = true) ∧
          (path''.ipv6Available = true → path'.ipv6Available = true)) ∧
      ∀ packet, packetAllowedByPeerState packet path' = true →
        packet.head?.map (fun byte : UInt8 => byte >>> 4) = some 4 ∧ path'.ipv4Available = true ∨
          packet.head?.map (fun byte : UInt8 => byte >>> 4) = some 6 ∧
            path'.ipv6Available = true := by
  have hrun : ∀ {capsules state}, Received capsules state →
      ∃ path', Restricts state assignedIpv4 assignedIpv6 path path' := by
    intro capsules state h
    obtain ⟨b4, h4, hb4⟩ := familyAvailable_eq h.spec.1 path.ipv4Available true (.v4 assignedIpv4)
    obtain ⟨b6, h6, hb6⟩ := familyAvailable_eq h.spec.1 path.ipv6Available false (.v6 assignedIpv6)
    exact ⟨⟨b4, b6⟩, bindOk.mpr ⟨b4, h4, bindOk.mpr ⟨b6, h6, rfl⟩⟩, hb4, hb6⟩
  obtain ⟨path', hpath⟩ := hrun h
  refine ⟨h.spec.2.1, h.spec.2.2, path', hpath, ?_, ?_⟩
  · intro capsules' state' path'' h' hwithdraws happlied
    obtain ⟨_, hpath''⟩ := hrun h'
    cases happlied.symm.trans hpath''.applied
    rw [hpath.ipv4, hpath.ipv6, hpath''.ipv4, hpath''.ipv6]
    exact ⟨And.imp_right hwithdraws.leaves, And.imp_right hwithdraws.leaves⟩
  · intro packet hallowed
    unfold packetAllowedByPeerState at hallowed
    split at hallowed
    · exact .inl ⟨by assumption, hallowed⟩
    · exact .inr ⟨by assumption, hallowed⟩
    · cases hallowed

/-- The two halves of the IPv4 addresses. -/
def ipv4Halves : ConnectIpCapsule :=
  .routeAdvertisement [⟨.v4 0, .v4 0x7fffffff, 0⟩, ⟨.v4 0x80000000, .v4 0xffffffff, 0⟩]

/-- Routes to the whole of IPv4 leave IPv4 and take IPv6 back. -/
theorem peer_withdrawal_fails_closed_sample : ∃ path',
    applyPeerNetworkState ⟨true, true⟩ (applied {} [ipv4Halves]) 1 1 = .ok path' ∧
      path'.ipv4Available = true ∧ ∀ packet, packetAllowedByPeerState packet path' = true →
        packet.head?.map (fun byte : UInt8 => byte >>> 4) = some 4 := by
  have h : Received [ipv4Halves] (applied {} [ipv4Halves]) := by
    refine ⟨fun capsule hmem => ⟨[3, 20, 4, 0, 0, 0, 0, 127, 255, 255, 255, 0,
      4, 128, 0, 0, 0, 255, 255, 255, 255, 0], [], ?_⟩, rfl⟩
    rw [mem_singleton.mp hmem]
    decide +kernel
  obtain ⟨-, hadv, path', hpath, -, hpacket⟩ := peer_withdrawal_fails_closed h 1 1 ⟨true, true⟩
  refine ⟨path', hpath.applied, hpath.ipv4.mpr ⟨rfl, by rintro ⟨⟩, fun _ n hn => ?_⟩, ?_⟩
  · rcases Nat.lt_or_ge n 0x80000000 with hlow | hhigh
    · exact ⟨_, .head _, rfl, rfl, n.zero_le, le_of_lt_succ hlow⟩
    · exact ⟨_, .tail _ (.head _), rfl, rfl, hhigh, hn⟩
  · intro packet hallowed
    rcases hpacket packet hallowed with ⟨h4, -⟩ | ⟨-, h6⟩
    · exact h4
    · obtain ⟨range, hmem, -, hfam, -⟩ := (hpath.ipv6.mp h6).2.2
        (hadv.mpr ⟨_, mem_singleton_self _⟩) 0 (Nat.zero_le _)
      rcases mem_pair.mp hmem with rfl | rfl <;> cases hfam

end Usque.Transport
