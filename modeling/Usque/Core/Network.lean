/-
  Addresses and networks as the configuration of `usque-core` reads them
  (`std::net::IpAddr`, `ipnet::IpNet` and `canonical_network` of
  `config/routing.rs`).

  `canonicalNetwork` clears the bits behind the prefix and writes a network of
  IPv4-mapped addresses as the IPv4 network; what it returns is `Truncated`.
-/
import Usque.IpNet

namespace Usque
open IpAddr

def toIpv4Mapped (addr : BitVec 128) : Option (BitVec 32) :=
  if addr.toNat / 2 ^ 32 = 0xFFFF then some (addr.setWidth 32) else none

def IpAddr.toCanonical : IpAddr → IpAddr
  | .v4 addr => .v4 addr
  | .v6 addr =>
    match toIpv4Mapped addr with
    | some mapped => .v4 mapped
    | none => .v6 addr

theorem IpAddr.toCanonical_toCanonical (addr : IpAddr) :
    addr.toCanonical.toCanonical = addr.toCanonical := by
  cases addr with
  | v4 => rfl
  | v6 addr =>
    cases h : toIpv4Mapped addr with
    | some => simp only [toCanonical, h]
    | none => simp only [toCanonical, h]

def isLanBypassAddress (addr : IpAddr) : Bool :=
  match addr.toCanonical with
  | .v4 addr =>
    let first := addr.toNat / 2 ^ 24
    let second := addr.toNat / 2 ^ 16 % 256
    first == 10 || (first == 172 && 16 ≤ second && second ≤ 31) ||
      (first == 192 && second == 168) || (first == 169 && second == 254)
  | .v6 addr =>
    let first := addr.toNat / 2 ^ 120
    let second := addr.toNat / 2 ^ 112 % 256
    first / 2 == 0xFC / 2 || (first == 0xFE && second / 64 == 0x80 / 64)

theorem isLanBypassAddress_toCanonical (addr : IpAddr) :
    isLanBypassAddress addr.toCanonical = isLanBypassAddress addr := by
  rw [isLanBypassAddress, toCanonical_toCanonical, ← isLanBypassAddress]

namespace IpNet

/-- `IpNet::from` on an address: the network of this one address. -/
def ofAddr (addr : IpAddr) : IpNet := ⟨addr, addr.width, le_rfl⟩

def trunc : IpNet → IpNet
  | ⟨.v4 addr, len, h⟩ =>
    ⟨.v4 (BitVec.ofNat 32 (addr.toNat / 2 ^ (32 - len) * 2 ^ (32 - len))), len, h⟩
  | ⟨.v6 addr, len, h⟩ =>
    ⟨.v6 (BitVec.ofNat 128 (addr.toNat / 2 ^ (128 - len) * 2 ^ (128 - len))), len, h⟩

def canonicalNetwork (net : IpNet) : IpNet :=
  match net.trunc with
  | ⟨.v4 addr, len, h⟩ => ⟨.v4 addr, len, h⟩
  | ⟨.v6 addr, len, h⟩ =>
    match toIpv4Mapped addr with
    | some mapped =>
      if 96 ≤ len then ⟨.v4 mapped, len - 96, by simp only [width] at h ⊢; omega⟩
      else ⟨.v6 addr, len, h⟩
    | none => ⟨.v6 addr, len, h⟩

def Truncated (net : IpNet) : Prop := 2 ^ (net.addr.width - net.prefixLen) ∣ net.addr.value

theorem toNat_ofNat_trunc {w : ℕ} (addr : BitVec w) (k : ℕ) :
    (BitVec.ofNat w (addr.toNat / k * k)).toNat = addr.toNat / k * k := by
  exact Nat.mod_eq_of_lt ((Nat.div_mul_le_self _ _).trans_lt addr.isLt)

theorem trunc_truncated (net : IpNet) : net.trunc.Truncated := by
  obtain ⟨addr, len, h⟩ := net
  cases addr with
  | v4 | v6 =>
    simp only [trunc, Truncated, width, value, toNat_ofNat_trunc]
    exact Nat.dvd_mul_left ..

theorem canonicalNetwork_truncated (net : IpNet) : net.canonicalNetwork.Truncated := by
  have htrunc := net.trunc_truncated
  rw [canonicalNetwork]
  generalize net.trunc = net' at htrunc ⊢
  obtain ⟨addr, len, h⟩ := net'
  cases addr with
  | v4 => exact htrunc
  | v6 addr =>
    simp only
    cases hm : toIpv4Mapped addr with
    | none => exact htrunc
    | some mapped =>
      split_ifs with hlen
      · -- the prefix covers the marker of mapped addresses, so it clears bits of the last word
        have hdvd : 2 ^ (128 - len) ∣ addr.toNat := htrunc
        rw [toIpv4Mapped] at hm
        split_ifs at hm
        cases hm
        have hk : 32 - (len - 96) = 128 - len := by omega
        simp only [Truncated, width, value, BitVec.toNat_setWidth, hk]
        exact (Nat.dvd_mod_iff (Nat.pow_dvd_pow 2 (by omega))).2 hdvd
      · exact htrunc

/-- **Two truncated networks of one prefix length around one address are one network.** -/
theorem eq_of_contains {net net' : IpNet} {addr : IpAddr} (ht : net.Truncated)
    (ht' : net'.Truncated) (hc : net.contains addr) (hc' : net'.contains addr)
    (hlen : net.prefixLen = net'.prefixLen) : net = net' := by
  simp only [contains, Bool.and_eq_true, beq_iff_eq] at hc hc'
  obtain ⟨base, len, h⟩ := net
  obtain ⟨base', len', h'⟩ := net'
  subst hlen
  obtain ⟨hfam, hbits⟩ := hc
  obtain ⟨hfam', hbits'⟩ := hc'
  have hsame : base.isIpv4 = base'.isIpv4 := hfam.trans hfam'.symm
  have key {a a' k : ℕ} (hd : k ∣ a) (hd' : k ∣ a') (he : a / k = a' / k) : a = a' := by
    rw [← Nat.div_mul_cancel hd, he, Nat.div_mul_cancel hd']
  cases base with
  | v4 base =>
    cases base' with
    | v4 base' =>
      have hbase : base = base' := BitVec.eq_of_toNat_eq (key ht ht' (hbits.trans hbits'.symm))
      subst hbase
      rfl
    | v6 => simp [isIpv4] at hsame
  | v6 base =>
    cases base' with
    | v4 => simp [isIpv4] at hsame
    | v6 base' =>
      have hbase : base = base' := BitVec.eq_of_toNat_eq (key ht ht' (hbits.trans hbits'.symm))
      subst hbase
      rfl

end IpNet

/-! ## Preset endpoints (`endpoints.rs`) -/

namespace Core

inductive EndpointPresetRegion where
  | us
  | de
  | fi

inductive EndpointPresetTier where
  | free
  | plus
  | zeroTrust

def EndpointPresetRegion.hostname : EndpointPresetRegion → EndpointPresetTier → String
  | .us, .free => "us.v6.free.orangesky.dev"
  | .us, .plus => "us.v6.plus.orangesky.dev"
  | .us, .zeroTrust => "us.v6.zt.orangesky.dev"
  | .de, .free => "de.v6.free.orangesky.dev"
  | .de, .plus => "de.v6.plus.orangesky.dev"
  | .de, .zeroTrust => "de.v6.zt.orangesky.dev"
  | .fi, .free => "fi.v6.free.orangesky.dev"
  | .fi, .plus => "fi.v6.plus.orangesky.dev"
  | .fi, .zeroTrust => "fi.v6.zt.orangesky.dev"

end Core

end Usque
