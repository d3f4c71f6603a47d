import Lightbringer.Shred
import Std.Data.TreeMap.Lemmas
import Mathlib.Data.List.Basic

/-!
# Recovering the data shreds of a slot

`alpenglow/shred.rs` and `recover_shreds` of `util/shred.rs`. A `Shred` is what its methods answer; reading one off raw
bytes, Reed-Solomon recovery, hashing and the codec of block components are those of `SolanaLedger`.
-/

namespace Lightbringer.Alpenglow
open Std

/-- `solana_ledger::shred::Shred`. The Merkle root and the parent slot can fail to be read. -/
structure Shred where
  slot : UInt64
  shredType : ShredType
  index : UInt32
  fecSetIndex : UInt32
  merkleRoot : Except String Hash
  parent : Except String UInt64
  lastInSlot : Bool
  dataComplete : Bool
  payload : List UInt8

/-- An aggregated BLS signature, compressed, and the ranks that signed. -/
structure VotesAggregate where
  signature : List UInt8
  bitmap : List UInt8
  deriving DecidableEq

structure BlockFinalizationCert where
  slot : UInt64
  blockId : Hash
  finalAggregate : VotesAggregate
  notarAggregate : Option VotesAggregate
  deriving DecidableEq

/-- `BlockMarkerV1`. Each payload has one version so far. -/
inductive BlockMarker where
  | blockHeader (parentSlot : UInt64) (parentBlockId : Hash)
  | updateParent (newParentSlot : UInt64) (newParentBlockId : Hash)
  | blockFooter (blockFinalCert : Option BlockFinalizationCert)
  | genesisCertificate
  deriving DecidableEq

inductive BlockComponent where
  | entryBatch
  | blockMarker (marker : BlockMarker)
  deriving DecidableEq

/-- The parts of `solana_ledger`, `solana_entry` and `solana_sha256_hasher` that are called. Errors are their texts. -/
class SolanaLedger where
  newFromSerializedShred : List UInt8 → Except String Shred
  /-- `merkle::Shred::try_from`, which gives the same shred back. -/
  merkleTryFrom : Shred → Except String Shred
  /-- `merkle::recover`. -/
  merkleRecover : List Shred → Except String (List (Except String Shred))
  /-- `layout::get_flags`, then whether `DATA_COMPLETE_SHRED` is among them. -/
  dataCompleteFlag : List UInt8 → Except String Bool
  inferIsBlockMarker : List UInt8 → Option Bool
  deserializeComponent : List UInt8 → Except String BlockComponent
  hashv : List (List UInt8) → Hash
  /-- `MerkleTree::try_new_with_len`, then its root. -/
  merkleTreeRoot : List (Except String Hash) → Nat → Except String Hash

def dataShredsPerFecBlock : Nat := 32

structure FecBatch where
  shreds : List Shred
  dataShreds : TreeMap UInt32 Shred

instance : Inhabited FecBatch := ⟨⟨[], ∅⟩⟩

/-- One shred of the batch comes in: the first data shred of an index is kept. -/
def FecBatch.add (batch : FecBatch) (shred : Shred) : FecBatch where
  shreds := batch.shreds ++ [shred]
  dataShreds := if shred.shredType = .data then batch.dataShreds.insertIfNew shred.index shred else batch.dataShreds

def packetInfoFromShred (shred : Shred) : Except String PacketInfo :=
  if fits : shred.payload.length ≤ packetDataSize then .ok ⟨shred.payload, fits⟩
  else .error "recovered shred payload exceeds packet size"

variable [SolanaLedger]

def parseShred (raw : PacketInfo) : Except String Shred :=
  (SolanaLedger.newFromSerializedShred raw.bytes).mapError (fun e => s!"invalid shred: {e}")

def recoverShreds (shreds : List Shred) : Except String (List (Except String Shred)) := do
  let shreds ← shreds.mapM SolanaLedger.merkleTryFrom
  SolanaLedger.merkleRecover shreds

def FecBatch.addRecovered (dataShreds : TreeMap UInt32 Shred) (recovered : Except String Shred) :
    Except String (TreeMap UInt32 Shred) := do
  let shred ← recovered.mapError (fun e => s!"failed to recover alpenglow data shred: {e}")
  return if shred.shredType = .data then dataShreds.insertIfNew shred.index shred else dataShreds

/-- The data shreds of a batch, recovered where some are missing. -/
def FecBatch.recover (batch : FecBatch) : Except String (TreeMap UInt32 Shred) :=
  if batch.dataShreds.size < dataShredsPerFecBlock then do
    let recovered ← (recoverShreds batch.shreds).mapError (fun e => s!"failed to recover alpenglow data shreds: {e}")
    recovered.foldlM FecBatch.addRecovered batch.dataShreds
  else .ok batch.dataShreds

def addToBatches (batches : TreeMap UInt32 FecBatch) (raw : PacketInfo) : Except String (TreeMap UInt32 FecBatch) := do
  let shred ← parseShred raw
  return batches.insert shred.fecSetIndex ((batches.getD shred.fecSetIndex default).add shred)

def recoverDataShreds (shreds : List PacketInfo) : Except String (List PacketInfo) := do
  let batches ← shreds.foldlM addToBatches ∅
  let recovered ← batches.values.mapM (fun batch => do
    let dataShreds ← batch.recover
    dataShreds.values.mapM packetInfoFromShred)
  return recovered.flatten

end Lightbringer.Alpenglow
