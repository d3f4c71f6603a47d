import Mathlib.Algebra.Group.Nat.Defs
import Mathlib.Data.List.Induction

/-!
# Packets, addresses and time

The data that several parts of lightbringer share: raw packets (`types.rs`), identities, socket
addresses and instants. Identities and addresses are ordered as the source's `BTreeMap` keys are.
-/

namespace Lightbringer

/-- `solana_packet::PACKET_DATA_SIZE`. -/
def packetDataSize : Nat := 1232

/-- `types::PacketView`, an `ArrayVec` of at most `PACKET_DATA_SIZE` bytes. -/
structure PacketView where
  bytes : List UInt8
  fits : bytes.length ≤ packetDataSize
  deriving DecidableEq

/-- `types::PacketInfo` is a shared pointer to a `PacketView`; sharing has no effect on values. -/
abbrev PacketInfo := PacketView

/-- An Ed25519 identity: 32 bytes, ordered bytewise, read here as a big-endian number. -/
abbrev Pubkey := BitVec 256

/-- The 32 bytes of a hash, read as a big-endian number. -/
abbrev Hash := BitVec 256

/-- `std::net::IpAddr`, octets read as a big-endian number. -/
inductive IpAddr where
  | v4 (octets : BitVec 32)
  | v6 (octets : BitVec 128)
  deriving DecidableEq

/-- The place of an address in the order of `IpAddr`. -/
def IpAddr.key : IpAddr → Nat
  | .v4 octets => octets.toNat
  | .v6 octets => 2 ^ 32 + octets.toNat

theorem IpAddr.key_injective {a b : IpAddr} (same : a.key = b.key) : a = b := by
  cases a with
  | v4 x =>
    have small := x.isLt
    cases b with
    | v4 y => rw [BitVec.eq_of_toNat_eq (show x.toNat = y.toNat from same)]
    | v6 y => simp only [IpAddr.key] at same; omega
  | v6 x =>
    cases b with
    | v4 y =>
      have small := y.isLt
      simp only [IpAddr.key] at same
      omega
    | v6 y =>
      simp only [IpAddr.key] at same
      have octets : x = y := BitVec.eq_of_toNat_eq (by omega)
      rw [octets]

theorem IpAddr.key_lt (ip : IpAddr) : ip.key < 2 ^ 129 := by
  cases ip with
  | v4 x =>
    have small := x.isLt
    simp only [IpAddr.key]
    omega
  | v6 x =>
    have small := x.isLt
    simp only [IpAddr.key]
    omega

/-- `std::net::SocketAddr`, without the flow info and the scope id of the newer family. -/
structure SocketAddr where
  ip : IpAddr
  port : UInt16
  deriving DecidableEq

def SocketAddr.isIpv6 (addr : SocketAddr) : Bool :=
  match addr.ip with
  | .v4 _ => false
  | .v6 _ => true

/-- `u64::MAX`. -/
def u64Max : UInt64 := UInt64.ofNat (2 ^ 64 - 1)

/-- `u64::saturating_sub`. -/
def saturatingSub (a b : UInt64) : UInt64 := if b ≤ a then a - b else 0

/-- `slot.saturating_add(1)`. -/
def saturatingSucc (slot : UInt64) : UInt64 := UInt64.ofNat (min (slot.toNat + 1) (2 ^ 64 - 1))

theorem toNat_saturatingSucc (slot : UInt64) : (saturatingSucc slot).toNat = min (slot.toNat + 1) (2 ^ 64 - 1) := by
  rw [saturatingSucc, UInt64.toNat_ofNat']
  exact Nat.mod_eq_of_lt (by omega)

theorem lt_saturatingSucc {slot : UInt64} (small : slot < u64Max) : slot < saturatingSucc slot := by
  have bound : slot.toNat < 2 ^ 64 - 1 := UInt64.lt_iff_toNat_lt.mp small
  rw [UInt64.lt_iff_toNat_lt, toNat_saturatingSucc]
  omega

theorem saturatingSucc_le {slot later : UInt64} (less : slot < later) : saturatingSucc slot ≤ later := by
  have order : slot.toNat < later.toNat := UInt64.lt_iff_toNat_lt.mp less
  rw [UInt64.le_iff_toNat_le, toNat_saturatingSucc]
  omega

/-- Nanoseconds since an arbitrary start. -/
abbrev Instant := Nat

def fromMillis (ms : Nat) : Nat := ms * 1000000

def fromSecs (s : Nat) : Nat := s * 1000000000

/-! ### Addresses as map keys

`SocketAddr` is ordered by family, address and port, which is the order of these numbers. -/

def SocketAddr.key (addr : SocketAddr) : Nat :=
  match addr.ip with
  | .v4 octets => octets.toNat * 2 ^ 16 + addr.port.toNat
  | .v6 octets => 2 ^ 144 + octets.toNat * 2 ^ 16 + addr.port.toNat

theorem SocketAddr.key_injective {a b : SocketAddr} (h : a.key = b.key) : a = b := by
  obtain ⟨ipA, portA⟩ := a
  obtain ⟨ipB, portB⟩ := b
  have boundA := portA.toNat_lt
  have boundB := portB.toNat_lt
  cases ipA with
  | v4 x =>
    have small := x.isLt
    cases ipB with
    | v4 y =>
      simp only [SocketAddr.key] at h
      have sameIp : x = y := BitVec.eq_of_toNat_eq (by omega)
      have samePort : portA = portB := UInt16.toNat_inj.mp (by omega)
      rw [sameIp, samePort]
    | v6 y => simp only [SocketAddr.key] at h; omega
  | v6 x =>
    cases ipB with
    | v4 y =>
      have small := y.isLt
      simp only [SocketAddr.key] at h
      omega
    | v6 y =>
      simp only [SocketAddr.key] at h
      have sameIp : x = y := BitVec.eq_of_toNat_eq (by omega)
      have samePort : portA = portB := UInt16.toNat_inj.mp (by omega)
      rw [sameIp, samePort]

instance : Ord SocketAddr := ⟨compareOn SocketAddr.key⟩

instance : Std.TransOrd SocketAddr := inferInstanceAs (Std.TransCmp (compareOn SocketAddr.key))

instance : Std.LawfulEqOrd SocketAddr where
  compare_self := Std.ReflOrd.compare_self
  eq_of_compare h := SocketAddr.key_injective (Std.LawfulEqOrd.compare_eq_iff_eq.mp h)

end Lightbringer
