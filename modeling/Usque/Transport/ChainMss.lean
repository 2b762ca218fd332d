/-
  The sizing of TCP connections through a nested tunnel
  (`usque-transport/src/chain_mss.rs`): `clamp` lowers the maximum segment size
  (MSS) that a TCP SYN announces, or adds the option that announces it.

  `rewritten` is the body of `clamp`: it gives up where `clamp` returns the packet
  it was given.
-/
import Usque.Lib.Checked

namespace Usque.Core

/-- `Transport` (`usque-core/src/state.rs`). -/
inductive Transport where
  | http3
  | http2
deriving DecidableEq

end Usque.Core

namespace Usque.Transport.ChainMss
open Lib Checked

/-! ## The TCP header of a packet -/

/-- The loop of `tcp_offset` over the extension headers of an IPv6 packet. -/
def ipv6Offset (packet : Bytes) : ℕ → UInt8 → ℕ → Checked (ℕ × Bool)
  | 0, _, _ => .error .gaveUp
  | rounds + 1, next, offset =>
    if next = 6 then .ok (offset, true)
    else do
      require ((next = 0 ∨ next = 43 ∨ next = 60) ∧ offset + 2 ≤ packet.length)
      let length ← index packet (offset + 1)
      let next ← index packet offset
      require (offset + (length.toNat + 1) * 8 ≤ packet.length)
      ipv6Offset packet rounds next (offset + (length.toNat + 1) * 8)

section
variable (packet : Bytes)

/-- `tcp_offset`: where the TCP header starts, and whether the packet is IPv6. -/
def tcpOffset : Checked (ℕ × Bool) := do
  require (packet ≠ [])
  let first ← index packet 0
  if first >>> 4 = 4 then do
    require (20 ≤ packet.length)
    let length := (first &&& 15).toNat * 4
    require (20 ≤ length ∧ length ≤ packet.length)
    let protocol ← index packet 9
    require (protocol = 6)
    let total ← read16 packet 2
    require (total.toNat = packet.length)
    let fragment ← read16 packet 6
    require (fragment &&& 0x3fff = 0)
    return (length, false)
  else do
    require (first >>> 4 = 6 ∧ 40 ≤ packet.length)
    let payload ← read16 packet 4
    require (payload.toNat + 40 = packet.length)
    let next ← index packet 6
    ipv6Offset packet 8 next 40

/-! ## The options -/

/-- The loop of `clamp` over the options from `option` on, with the place of the MSS
    found so far: the place of the MSS, and the end of the options. -/
def walk (header : Bytes) : ℕ → ℕ → Option ℕ → Checked (Option ℕ × ℕ)
  | 0, _, _ => .error .panicked
  | rounds + 1, option, mss =>
    if header.length ≤ option then .ok (mss, header.length)
    else do
      let kind ← index header option
      if kind = 0 then .ok (mss, option)
      else if kind = 1 then walk header rounds (option + 1) mss
      else do
        -- rewriting an authenticated SYN would invalidate it
        require (kind ≠ 19 ∧ kind ≠ 29)
        require (option + 2 ≤ header.length)
        let length ← index header (option + 1)
        require (2 ≤ length.toNat ∧ option + length.toNat ≤ header.length)
        if kind = 2 then do
          require (length.toNat = 4 ∧ mss = none)
          walk header rounds (option + length.toNat) (some (option + 2))
        else walk header rounds (option + length.toNat) mss

def implicitMss (ipv6 : Bool) : UInt16 := if ipv6 then 1220 else 536

def mssOption (mss : UInt16) : Bytes := [2, 4, hi8 mss, lo8 mss]

/-- The byte of the data offset, with a new number of words. -/
def withWords (dataOffset words : UInt8) : UInt8 :=
  (dataOffset &&& (15 : UInt8)) ||| (words <<< (4 : UInt8))

/-- The header of `packet` with the announced MSS lowered to `maxMss`, given the place
    of the MSS and the end of the options. -/
def withMss (budget : UInt16) (ipv6 : Bool) (maxMss : UInt16) (header : Bytes) :
    Option ℕ → ℕ → Checked Bytes
  | some offset, _ => do
    let old ← read16 header offset
    require (maxMss < old)
    write16 header offset maxMss
  | none, eol => do
    require (maxMss < implicitMss ipv6)
    let room ← sub header.length eol
    if 4 ≤ room then do
      let header ← copyFrom header eol (mssOption maxMss)
      fill header (eol + 4) 0
    else do
      require (header.length ≤ 56 ∧ packet.length + 4 ≤ budget.toNat)
      let header ← fill header eol 1
      let header := header ++ mssOption maxMss
      let dataOffset ← index header 12
      copyFrom header 12 [withWords dataOffset (UInt8.ofNat (header.length / 4))]

/-! ## The checksums -/

def finishChecksum (sum : ℕ) : UInt16 := ~~~UInt16.ofNat (foldCarry sum)

/-- `(0..len).step_by(2).filter(|o| *o != 16)`. -/
def wordOffsets (len : ℕ) : List ℕ := ((List.range ((len + 1) / 2)).map (2 * ·)).filter (· ≠ 16)

/-- A loop of `clamp` that adds words to the sum. -/
def addWords (term : UInt16 → UInt16) (bytes : Bytes) (start : ℕ) : List ℕ → ℕ → Checked ℕ
  | [], sum => .ok sum
  | offset :: offsets, sum => do
    let word ← read16 bytes (start + offset)
    let sum ← add 32 sum (term word).toNat
    addWords term bytes start offsets sum

def addLengths (tcp added sum : ℕ) : Checked ℕ :=
  if added = 0 then .ok sum
  else do
    let length ← sub packet.length tcp
    let sum ← add 32 sum (~~~UInt16.ofNat length).toNat
    add 32 sum ((length + added) % 2 ^ 32)

def updatedChecksum (tcp headerLen added : ℕ) (header : Bytes) :
    Checked UInt16 := do
  let old ← read16 packet (tcp + 16)
  let sum ← addWords (~~~·) packet tcp (wordOffsets headerLen) (~~~old).toNat
  let sum ← addWords id header 0 (wordOffsets header.length) sum
  let sum ← addLengths packet tcp added sum
  return finishChecksum sum

/-- Where the length field of the IP header is. -/
def lengthOffset (ipv6 : Bool) : ℕ := if ipv6 then 4 else 2

/-- The IP header of a packet that has grown by `added` bytes. -/
def grown (ipv6 : Bool) (added : ℕ) (output : Bytes) : Checked Bytes := do
  let old ← read16 output (lengthOffset ipv6)
  let new ← add 16 old.toNat added
  let output ← write16 output (lengthOffset ipv6) (UInt16.ofNat new)
  if ipv6 then return output
  else do
    let checksum ← read16 output 10
    let sum ← add 32 (~~~checksum).toNat (~~~old).toNat
    let sum ← add 32 sum new
    write16 output 10 (finishChecksum sum)

/-! ## Clamping -/

/-- The body of `clamp` for a packet with a budget. -/
def rewritten (budget : UInt16) : Checked Bytes := do
  let (tcp, ipv6) ← tcpOffset packet
  require (tcp + 20 ≤ packet.length)
  let flags ← index packet (tcp + 13)
  require (flags &&& 0x07 = 0x02)
  let dataOffset ← index packet (tcp + 12)
  let headerLen := (dataOffset >>> 4).toNat * 4
  require (20 ≤ headerLen ∧ tcp + headerLen ≤ packet.length)
  require (tcp + 20 ≤ budget.toNat ∧ 64 ≤ budget.toNat - (tcp + 20))
  let maxMss := UInt16.ofNat (budget.toNat - (tcp + 20))
  let header ← range packet tcp (tcp + headerLen)
  let (mss, eol) ← walk header (headerLen + 1) 20 none
  let header ← withMss packet budget ipv6 maxMss header mss eol
  let added ← sub header.length headerLen
  let checksum ← updatedChecksum packet tcp headerLen added header
  let header ← write16 header 16 checksum
  let before ← range packet 0 tcp
  let payload ← range packet (tcp + headerLen) packet.length
  let output := before ++ header ++ payload
  if added = 0 then return output else grown ipv6 added output

/-- `clamp`; there is no result if it panics. -/
def clamp (budget : Option UInt16) (transport : Core.Transport) : Option Bytes :=
  match budget with
  | none => some packet
  | some budget =>
    if transport ≠ .http3 then some packet
    else
      match rewritten packet budget with
      | .ok output => some output
      | .error .gaveUp => some packet
      | .error .panicked => none

end

end Usque.Transport.ChainMss
