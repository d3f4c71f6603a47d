import Lightbringer.Types
import Lightbringer.Lib.Bytes
import Mathlib.Data.List.Basic

/-!
# Entries as gRPC messages

`grpc_slot_stream/slot_entry.rs`: the entries of Solana and the messages of `slot_entry.proto` that they are sent as. Keys,
hashes and signatures become byte vectors, small numbers become wide ones, and messages inside of others are optional.
-/

namespace Lightbringer.GrpcSlotStream.SlotEntry

/-- The 64 bytes of a signature, read as a big-endian number. -/
abbrev SolSignature := BitVec 512

/-! ### Solana's entries -/

@[ext] structure SolMessageAddressTableLookup where
  accountKey : Pubkey
  writableIndexes : List UInt8
  readonlyIndexes : List UInt8

@[ext] structure SolCompiledInstruction where
  programIdIndex : UInt8
  accounts : List UInt8
  data : List UInt8

@[ext] structure SolMessageHeader where
  numRequiredSignatures : UInt8
  numReadonlySignedAccounts : UInt8
  numReadonlyUnsignedAccounts : UInt8

@[ext] structure SolLegacyMessage where
  header : SolMessageHeader
  accountKeys : List Pubkey
  recentBlockhash : Hash
  instructions : List SolCompiledInstruction

@[ext] structure SolV0Message where
  header : SolMessageHeader
  accountKeys : List Pubkey
  recentBlockhash : Hash
  instructions : List SolCompiledInstruction
  addressTableLookups : List SolMessageAddressTableLookup

@[ext] structure SolTransactionConfig where
  priorityFee : Option UInt64
  computeUnitLimit : Option UInt32
  loadedAccountsDataSizeLimit : Option UInt32
  heapSize : Option UInt32

@[ext] structure SolV1Message where
  header : SolMessageHeader
  config : SolTransactionConfig
  lifetimeSpecifier : Hash
  accountKeys : List Pubkey
  instructions : List SolCompiledInstruction

inductive VersionedMessage where
  | legacy (msg : SolLegacyMessage)
  | v0 (msg : SolV0Message)
  | v1 (msg : SolV1Message)

@[ext] structure SolVersionedTransaction where
  signatures : List SolSignature
  message : VersionedMessage

@[ext] structure SolEntry where
  numHashes : UInt64
  hash : Hash
  transactions : List SolVersionedTransaction

/-! ### Messages -/

structure MessageAddressTableLookup where
  accountKey : List UInt8
  writableIndexes : List UInt8
  readonlyIndexes : List UInt8

structure CompiledInstruction where
  programIdIndex : UInt32
  accounts : List UInt8
  data : List UInt8

structure MessageHeader where
  numRequiredSignatures : UInt32
  numReadonlySignedAccounts : UInt32
  numReadonlyUnsignedAccounts : UInt32

structure VersionedMessageLegacy where
  header : Option MessageHeader
  accountKeys : List (List UInt8)
  recentBlockhash : List UInt8
  instructions : List CompiledInstruction

structure VersionedMessageV0 where
  header : Option MessageHeader
  accountKeys : List (List UInt8)
  recentBlockhash : List UInt8
  instructions : List CompiledInstruction
  addressTableLookups : List MessageAddressTableLookup

structure TransactionConfig where
  priorityFee : Option UInt64
  computeUnitLimit : Option UInt32
  loadedAccountsDataSizeLimit : Option UInt32
  heapSize : Option UInt32

structure VersionedMessageV1 where
  header : Option MessageHeader
  config : Option TransactionConfig
  lifetimeSpecifier : List UInt8
  accountKeys : List (List UInt8)
  instructions : List CompiledInstruction

/-- The `oneof` of a transaction. -/
inductive Message where
  | messageLegacy (msg : VersionedMessageLegacy)
  | messageV0 (msg : VersionedMessageV0)
  | messageV1 (msg : VersionedMessageV1)

structure VersionedTransaction where
  signatures : List (List UInt8)
  message : Option Message

structure Entry where
  numHashes : UInt64
  hash : List UInt8
  transactions : List VersionedTransaction

/-! ### Conversions -/

/-- The bytes of an array, as a vector. -/
def toVec (width : Nat) (array : BitVec (8 * width)) : List UInt8 := Bytes.ofNat width array.toNat

def MessageAddressTableLookup.ofSol (value : SolMessageAddressTableLookup) : MessageAddressTableLookup where
  accountKey := toVec 32 value.accountKey
  writableIndexes := value.writableIndexes
  readonlyIndexes := value.readonlyIndexes

def CompiledInstruction.ofSol (value : SolCompiledInstruction) : CompiledInstruction where
  programIdIndex := value.programIdIndex.toUInt32
  accounts := value.accounts
  data := value.data

def MessageHeader.ofSol (value : SolMessageHeader) : MessageHeader where
  numRequiredSignatures := value.numRequiredSignatures.toUInt32
  numReadonlySignedAccounts := value.numReadonlySignedAccounts.toUInt32
  numReadonlyUnsignedAccounts := value.numReadonlyUnsignedAccounts.toUInt32

def Message.ofSol : VersionedMessage → Message
  | .legacy msg => .messageLegacy {
      header := some (.ofSol msg.header)
      accountKeys := msg.accountKeys.map (toVec 32)
      recentBlockhash := toVec 32 msg.recentBlockhash
      instructions := msg.instructions.map .ofSol }
  | .v0 msg => .messageV0 {
      header := some (.ofSol msg.header)
      accountKeys := msg.accountKeys.map (toVec 32)
      recentBlockhash := toVec 32 msg.recentBlockhash
      instructions := msg.instructions.map .ofSol
      addressTableLookups := msg.addressTableLookups.map .ofSol }
  | .v1 msg => .messageV1 {
      header := some (.ofSol msg.header)
      config := some {
        priorityFee := msg.config.priorityFee
        computeUnitLimit := msg.config.computeUnitLimit
        loadedAccountsDataSizeLimit := msg.config.loadedAccountsDataSizeLimit
        heapSize := msg.config.heapSize }
      lifetimeSpecifier := toVec 32 msg.lifetimeSpecifier
      accountKeys := msg.accountKeys.map (toVec 32)
      instructions := msg.instructions.map .ofSol }

def VersionedTransaction.ofSol (value : SolVersionedTransaction) : VersionedTransaction where
  signatures := value.signatures.map (toVec 64)
  message := some (.ofSol value.message)

def Entry.ofSol (value : SolEntry) : Entry where
  numHashes := value.numHashes
  hash := toVec 32 value.hash
  transactions := value.transactions.map .ofSol

/-! ### Nothing is lost -/

theorem toVec_injective (width : Nat) : Function.Injective (toVec width) := by
  intro a b same
  have small : ∀ array : BitVec (8 * width), array.toNat < 256 ^ width := fun array => by
    have bound := array.isLt
    rwa [Nat.pow_mul] at bound
  have numbers := congrArg Bytes.toNat same
  rw [toVec, toVec, Bytes.toNat_ofNat, Bytes.toNat_ofNat, Nat.mod_eq_of_lt (small a), Nat.mod_eq_of_lt (small b)] at numbers
  exact BitVec.eq_of_toNat_eq numbers

theorem toUInt32_injective : Function.Injective UInt8.toUInt32 := by
  intro a b same
  have numbers := congrArg UInt32.toNat same
  rw [UInt8.toNat_toUInt32, UInt8.toNat_toUInt32] at numbers
  exact UInt8.toNat_inj.mp numbers

theorem keys_injective : Function.Injective (List.map (toVec 32)) := List.map_injective_iff.mpr (toVec_injective 32)

theorem MessageAddressTableLookup.ofSol_injective : Function.Injective MessageAddressTableLookup.ofSol := by
  intro a b same
  obtain ⟨keys, writable, readonly⟩ := MessageAddressTableLookup.mk.inj same
  exact SolMessageAddressTableLookup.ext (toVec_injective 32 keys) writable readonly

theorem CompiledInstruction.ofSol_injective : Function.Injective CompiledInstruction.ofSol := by
  intro a b same
  obtain ⟨programs, accounts, data⟩ := CompiledInstruction.mk.inj same
  exact SolCompiledInstruction.ext (toUInt32_injective programs) accounts data

theorem MessageHeader.ofSol_injective : Function.Injective MessageHeader.ofSol := by
  intro a b same
  obtain ⟨required, signed, unsigned⟩ := MessageHeader.mk.inj same
  exact SolMessageHeader.ext (toUInt32_injective required) (toUInt32_injective signed) (toUInt32_injective unsigned)

theorem lookups_injective : Function.Injective (List.map MessageAddressTableLookup.ofSol) :=
  List.map_injective_iff.mpr MessageAddressTableLookup.ofSol_injective

theorem instructions_injective : Function.Injective (List.map CompiledInstruction.ofSol) :=
  List.map_injective_iff.mpr CompiledInstruction.ofSol_injective

theorem Message.ofSol_injective : Function.Injective Message.ofSol := by
  intro a b same
  cases a with
  | legacy msg =>
    cases b with
    | legacy msg' =>
      obtain ⟨headers, keys, hashes, instructions⟩ := VersionedMessageLegacy.mk.inj (Message.messageLegacy.inj same)
      exact congrArg VersionedMessage.legacy (SolLegacyMessage.ext (MessageHeader.ofSol_injective (Option.some.inj headers))
        (keys_injective keys) (toVec_injective 32 hashes) (instructions_injective instructions))
    | v0 msg' => cases same
    | v1 msg' => cases same
  | v0 msg =>
    cases b with
    | legacy msg' => cases same
    | v0 msg' =>
      obtain ⟨headers, keys, hashes, instructions, lookups⟩ := VersionedMessageV0.mk.inj (Message.messageV0.inj same)
      exact congrArg VersionedMessage.v0 (SolV0Message.ext (MessageHeader.ofSol_injective (Option.some.inj headers))
        (keys_injective keys) (toVec_injective 32 hashes) (instructions_injective instructions) (lookups_injective lookups))
    | v1 msg' => cases same
  | v1 msg =>
    cases b with
    | legacy msg' => cases same
    | v0 msg' => cases same
    | v1 msg' =>
      obtain ⟨headers, configs, lifetimes, keys, instructions⟩ := VersionedMessageV1.mk.inj (Message.messageV1.inj same)
      obtain ⟨fee, units, loaded, heap⟩ := TransactionConfig.mk.inj (Option.some.inj configs)
      have config : msg.config = msg'.config := SolTransactionConfig.ext fee units loaded heap
      exact congrArg VersionedMessage.v1 (SolV1Message.ext (MessageHeader.ofSol_injective (Option.some.inj headers)) config
        (toVec_injective 32 lifetimes) (keys_injective keys) (instructions_injective instructions))

theorem VersionedTransaction.ofSol_injective : Function.Injective VersionedTransaction.ofSol := by
  intro a b same
  obtain ⟨signatures, messages⟩ := VersionedTransaction.mk.inj same
  exact SolVersionedTransaction.ext (List.map_injective_iff.mpr (toVec_injective 64) signatures)
    (Message.ofSol_injective (Option.some.inj messages))

/-- An entry can be told from its message. -/
theorem Entry.ofSol_lossless : Function.Injective Entry.ofSol := by
  intro a b same
  obtain ⟨numHashes, hashes, transactions⟩ := Entry.mk.inj same
  exact SolEntry.ext numHashes (toVec_injective 32 hashes)
    (List.map_injective_iff.mpr VersionedTransaction.ofSol_injective transactions)

end Lightbringer.GrpcSlotStream.SlotEntry
