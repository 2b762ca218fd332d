/-
  IP addresses (`std::net::IpAddr`) and socket addresses (`std::net::SocketAddr`).
-/
import Usque.Lib.Bytes

namespace Usque
open Lib

inductive IpAddr where
  | v4 (addr : BitVec 32)
  | v6 (addr : BitVec 128)
deriving DecidableEq

inductive SocketAddr where
  | v4 (addr : BitVec 32) (port : UInt16)
  | v6 (addr : BitVec 128) (port : UInt16) (flowinfo scopeId : UInt32)
deriving DecidableEq

/-- `Ipv4Addr::new` on the four octets of `bytes`. -/
def IpAddr.ofV4 (bytes : Bytes) : IpAddr := .v4 (BitVec.ofNat 32 (beNat bytes))

/-- `Ipv6Addr::from` on the sixteen octets of `bytes`. -/
def IpAddr.ofV6 (bytes : Bytes) : IpAddr := .v6 (BitVec.ofNat 128 (beNat bytes))

/-- `Ipv4Addr::octets` and `Ipv6Addr::octets`. -/
def IpAddr.octets : IpAddr → Bytes
  | .v4 addr => beBytes 4 addr.toNat
  | .v6 addr => beBytes 16 addr.toNat

theorem IpAddr.ofV4_octets (addr : BitVec 32) : IpAddr.ofV4 (IpAddr.v4 addr).octets = .v4 addr := by
  have hlt : addr.toNat < 256 ^ 4 := addr.isLt
  rw [octets, ofV4, beNat_beBytes, Nat.mod_eq_of_lt hlt, BitVec.ofNat_toNat, BitVec.setWidth_eq]

theorem IpAddr.ofV6_octets (addr : BitVec 128) :
    IpAddr.ofV6 (IpAddr.v6 addr).octets = .v6 addr := by
  have hlt : addr.toNat < 256 ^ 16 := addr.isLt
  rw [octets, ofV6, beNat_beBytes, Nat.mod_eq_of_lt hlt, BitVec.ofNat_toNat, BitVec.setWidth_eq]

end Usque
