/-
  Networks (`ipnet::IpNet`) and identifiers (`uuid::Uuid`), as the crates share them.
-/
import Mathlib.Data.List.Destutter
import Mathlib.Data.List.Sort
import Usque.IpAddr

namespace Usque

/-- `if c { return Err(e) }`. -/
def rejectIf {ε : Type} (c : Prop) [Decidable c] (e : ε) : Except ε Unit :=
  if c then .error e else .ok ()

/-! ## Addresses -/

/-- The number of bits of the address. -/
def IpAddr.width : IpAddr → Nat
  | .v4 _ => 32
  | .v6 _ => 128

def IpAddr.value : IpAddr → Nat
  | .v4 addr => addr.toNat
  | .v6 addr => addr.toNat

def IpAddr.isIpv4 : IpAddr → Bool
  | .v4 _ => true
  | .v6 _ => false

def IpAddr.isIpv6 (addr : IpAddr) : Bool := !addr.isIpv4

def IpAddr.isUnspecified (addr : IpAddr) : Bool := addr.value == 0

def IpAddr.isMulticast : IpAddr → Bool
  | .v4 addr => addr.toNat / 2 ^ 28 == 0xE
  | .v6 addr => addr.toNat / 2 ^ 120 == 0xFF

/-! ## Identifiers and networks -/

abbrev Uuid := BitVec 128

def Uuid.isNil (id : Uuid) : Bool := id == 0

/-- The last `width` hexadecimal digits of `n`. -/
def hexDigits (width n : Nat) : List Char :=
  (List.range width).reverse.map fun i => Nat.digitChar (n / 16 ^ i % 16)

/-- The digits of `Uuid::simple`. -/
def Uuid.simple (id : Uuid) : List Char := hexDigits 32 id.toNat

/-- `Display for Uuid`. -/
def Uuid.hyphenated (id : Uuid) : String :=
  let block (start len : Nat) := String.ofList ((id.simple.drop start).take len)
  block 0 8 ++ "-" ++ block 8 4 ++ "-" ++ block 12 4 ++ "-" ++ block 16 4 ++ "-" ++ block 20 12

/-- `ipnet::IpNet`; the bits behind the prefix need not be zero. -/
structure IpNet where
  addr : IpAddr
  prefixLen : Nat
  bound : prefixLen ≤ addr.width
deriving DecidableEq

namespace IpNet

/-- `IpNet::contains` on an address. -/
def contains (net : IpNet) (addr : IpAddr) : Bool :=
  let shift := 2 ^ (net.addr.width - net.prefixLen)
  net.addr.isIpv4 == addr.isIpv4 && net.addr.value / shift == addr.value / shift

/-- The derived order of `IpNet`: the family, then the address, then the prefix
    length. -/
def rank (net : IpNet) : Nat :=
  (if net.addr.isIpv4 then 0 else 2 ^ 136) + net.addr.value * 2 ^ 8 + net.prefixLen

/-- `sort` and `dedup` of a vector of networks, which is also the order of a
    `BTreeSet`. -/
def sortDedup (nets : List IpNet) : List IpNet :=
  (nets.insertionSort fun a b => a.rank ≤ b.rank).destutter (· ≠ ·)

/-- The network of an IPv4 address given by its octets. -/
def v4 (a b c d len : Nat) (h : len ≤ 32 := by decide) : IpNet :=
  ⟨.v4 (BitVec.ofNat 32 (((a * 256 + b) * 256 + c) * 256 + d)), len, h⟩

/-- The network of an IPv6 address given by its first and its last segment; the
    segments between them are zero. -/
def v6 (first last len : Nat) (h : len ≤ 128 := by decide) : IpNet :=
  ⟨.v6 (BitVec.ofNat 128 (first * 2 ^ 112 + last)), len, h⟩

theorem le_width (addr : IpAddr) : addr.width ≤ addr.width := le_rfl
theorem le_16 : 16 ≤ 32 := by decide
theorem le_32 : 32 ≤ 32 := le_rfl
theorem le_128 : 128 ≤ 128 := le_rfl

end IpNet

end Usque
