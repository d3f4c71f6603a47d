import Lightbringer.Types

/-!
# What is read off a shred

`solana_ledger::shred::layout` and the `wincode` header decoder are outside the repository. Everything
lightbringer reads off a raw shred goes through `ShredLayout`; the pipeline is generic in it.
`wireLayout` reads the offsets of Solana's shred format and serves for concrete packets.
-/

namespace Lightbringer

inductive ShredType where
  | data
  | code
  deriving DecidableEq, Repr

/-- `ShredCommonHeader`. Of the variant byte only the shred type it stands for is ever read. -/
structure ShredCommonHeader where
  shredVariant : ShredType
  slot : UInt64
  index : UInt32
  version : UInt16
  fecSetIndex : UInt32
  deriving DecidableEq

/-- `ShredFlags`: the one flag that is tested. -/
structure ShredFlags where
  lastShredInSlot : Bool
  deriving DecidableEq

class ShredLayout where
  /-- `get_common_header_bytes` followed by `wincode::deserialize`. -/
  commonHeader : PacketInfo → Option ShredCommonHeader
  getSlot : PacketInfo → Option UInt64
  getIndex : PacketInfo → Option UInt32
  getFlags : PacketInfo → Option ShredFlags

/-- Both ways to read the slot off a packet look at the same bytes. -/
def ShredLayout.SlotAgrees [ShredLayout] : Prop :=
  ∀ packet hdr slot, ShredLayout.commonHeader packet = some hdr → ShredLayout.getSlot packet = some slot →
    hdr.slot = slot

/-! ### The wire format -/

/-- A little-endian number of `width` bytes at `offset`. -/
def readLe (bytes : List UInt8) (offset width : Nat) : Option Nat :=
  if offset + width ≤ bytes.length then
    some (((bytes.drop offset).take width).foldr (fun byte rest => byte.toNat + 256 * rest) 0)
  else none

/-- The variant byte after the 64 bytes of the signature: its upper half is the tag of a chained Merkle shred, and the
legacy and the unchained tags are refused. -/
def readVariant (bytes : List UInt8) : Option ShredType :=
  match bytes[64]? with
  | none => none
  | some byte =>
    match byte.toNat / 16 with
    | 6 | 7 => some .code
    | 9 | 11 => some .data
    | _ => none

abbrev wireLayout : ShredLayout where
  commonHeader packet := do
    let shredVariant ← readVariant packet.bytes
    let slot ← readLe packet.bytes 65 8
    let index ← readLe packet.bytes 73 4
    let version ← readLe packet.bytes 77 2
    let fecSetIndex ← readLe packet.bytes 79 4
    return {
      shredVariant
      slot := UInt64.ofNat slot
      index := UInt32.ofNat index
      version := UInt16.ofNat version
      fecSetIndex := UInt32.ofNat fecSetIndex }
  getSlot packet := (readLe packet.bytes 65 8).map UInt64.ofNat
  getIndex packet := (readLe packet.bytes 73 4).map UInt32.ofNat
  getFlags packet :=
    match readVariant packet.bytes with
    | some .data => (packet.bytes[85]?).map (fun flags => ⟨flags &&& 0xc0 = 0xc0⟩)
    | _ => none

theorem slotAgrees_wireLayout : @ShredLayout.SlotAgrees wireLayout := by
  intro packet hdr slot header read
  have slotRead : (readLe packet.bytes 65 8).map UInt64.ofNat = some slot := read
  obtain ⟨_, _, rest⟩ := Option.bind_eq_some_iff.mp header
  obtain ⟨n, here, rest⟩ := Option.bind_eq_some_iff.mp rest
  obtain ⟨_, _, rest⟩ := Option.bind_eq_some_iff.mp rest
  obtain ⟨_, _, rest⟩ := Option.bind_eq_some_iff.mp rest
  obtain ⟨_, _, rest⟩ := Option.bind_eq_some_iff.mp rest
  rw [here] at slotRead
  cases rest
  exact Option.some.inj slotRead

def leBytes (width n : Nat) : List UInt8 := (List.range width).map (fun i => UInt8.ofNat (n / 256 ^ i))

/-- The headers of a shred with a zero signature: a chained Merkle variant, then the fields in wire order. -/
def wireShred (hdr : ShredCommonHeader) (flags : UInt8) : PacketInfo where
  bytes := List.replicate 64 0 ++ [match hdr.shredVariant with | .code => 0x66 | .data => 0x96] ++
    leBytes 8 hdr.slot.toNat ++ leBytes 4 hdr.index.toNat ++ leBytes 2 hdr.version.toNat ++
    leBytes 4 hdr.fecSetIndex.toNat ++ leBytes 2 1 ++ [flags] ++ leBytes 2 88
  fits := by simp [leBytes, packetDataSize]

end Lightbringer
