import Lightbringer.Alpenglow.Shred
import Lightbringer.Lib.Batches

/-!
# The entries of a slot

`util/shred.rs`: the data shreds of a slot are recovered FEC set by FEC set and cut into groups where a set ends in a
data-complete shred; each group is deshredded by itself. A call that panics returns nothing, not even an error.
-/

namespace Lightbringer.Util
open Std Alpenglow

inductive CodingError where
  | shredDeser (e : String)
  | shredRecovery (e : String)
  | deshred (e : String)
  | invalidEntries (e : String)
  deriving DecidableEq

/-- How a call ends that does not end with a value. -/
inductive Stop where
  | err (e : CodingError)
  | panic
  deriving DecidableEq

/-- The part of `solana_entry` and of the shredder that is called. -/
class SolanaEntries where
  Entry : Type
  /-- `Shredder::deshred` on payloads. -/
  deshred : List (List UInt8) → Except String (List UInt8)
  /-- `wincode::deserialize`. -/
  deserialize : List UInt8 → Except String (List Entry)

structure BatchMeta where
  shreds : List Shred
  dataCnt : Nat

instance : Inhabited BatchMeta := ⟨⟨[], 0⟩⟩

def BatchMeta.add (batch : BatchMeta) (shred : Shred) : BatchMeta where
  dataCnt := if shred.shredType = .data then batch.dataCnt + 1 else batch.dataCnt
  shreds := batch.shreds ++ [shred]

/-- The groups that are closed, and the last one, which is open. -/
structure Partition where
  closed : List (TreeMap UInt32 Shred)
  last : TreeMap UInt32 Shred

def extend (group : TreeMap UInt32 Shred) (shreds : List Shred) : TreeMap UInt32 Shred :=
  shreds.foldl (fun group shred => group.insert shred.index shred) group

def dataOf (shreds : List Shred) : List Shred := shreds.filter (fun shred => shred.shredType = .data)

/-- Cut after a set that ends in a data-complete shred. The last shred of the open group is unwrapped. -/
def Partition.cut (partition : Partition) : Except Stop Partition :=
  match partition.last.values.getLast? with
  | none => .error .panic
  | some shred =>
    if shred.dataComplete then .ok ⟨partition.closed ++ [partition.last], ∅⟩ else .ok partition

section
variable [SolanaLedger]

def insertRecovered (last : TreeMap UInt32 Shred) (recovered : Except String Shred) :
    Except Stop (TreeMap UInt32 Shred) := do
  let shred ← recovered.mapError (fun e => .err (.shredRecovery e))
  return if shred.shredType = .data then last.insert shred.index shred else last

/-- A set that lacks data shreds is recovered into the open group first. -/
def BatchMeta.recoverInto (batch : BatchMeta) (last : TreeMap UInt32 Shred) : Except Stop (TreeMap UInt32 Shred) :=
  if batch.dataCnt < 32 then do
    let recovered ← (recoverShreds batch.shreds).mapError (fun e => .err (.shredRecovery e))
    recovered.foldlM insertRecovered last
  else .ok last

def Partition.addBatch (partition : Partition) (batch : BatchMeta) : Except Stop Partition := do
  let last ← batch.recoverInto partition.last
  Partition.cut { partition with last := extend last (dataOf batch.shreds) }

/-- The groups before the last one is dropped. -/
def groupByCompletion (shredsByFecSetIndex : TreeMap UInt32 BatchMeta) : Except Stop Partition :=
  shredsByFecSetIndex.values.foldlM Partition.addBatch ⟨[], ∅⟩

def recoverShredsAndGroupByCompletion (shredsByFecSetIndex : TreeMap UInt32 BatchMeta) :
    Except Stop (List (TreeMap UInt32 Shred)) :=
  (groupByCompletion shredsByFecSetIndex).map Partition.closed

def readShred (raw : List UInt8) : Except Stop Shred :=
  (SolanaLedger.newFromSerializedShred raw).mapError (fun e => .err (.shredDeser e))

def addShred (shredsForSlot : TreeMap UInt32 BatchMeta) (raw : List UInt8) :
    Except Stop (TreeMap UInt32 BatchMeta) := do
  let deser ← readShred raw
  return Batches.add Shred.fecSetIndex BatchMeta.add shredsForSlot deser

variable [SolanaEntries]

def deshredToEntries (shreds : List Shred) : Except Stop (List SolanaEntries.Entry) := do
  let payload ← (SolanaEntries.deshred (shreds.map Shred.payload)).mapError (fun e => Stop.err (.deshred e))
  (SolanaEntries.deserialize payload).mapError (fun e => Stop.err (.invalidEntries e))

/-- The parent of a group's first shred, whose failure to be read is a panic. -/
def groupParent (dataShreds : TreeMap UInt32 Shred) : Except Stop UInt64 :=
  match dataShreds.values.head? with
  | none => .error .panic
  | some shred => shred.parent.mapError (fun _ => .panic)

/-- The parent read so far, or else the one of this group. -/
def nextParent (parentSlot : UInt64) (dataShreds : TreeMap UInt32 Shred) : Except Stop UInt64 :=
  if parentSlot = 0 then groupParent dataShreds else .ok parentSlot

def addGroup (result : List SolanaEntries.Entry × UInt64) (dataShreds : TreeMap UInt32 Shred) :
    Except Stop (List SolanaEntries.Entry × UInt64) := do
  let parentSlot ← nextParent result.2 dataShreds
  let entries ← deshredToEntries dataShreds.values
  return (result.1 ++ entries, parentSlot)

def getSlotEntriesAndParentSlotFromRawShreds (shreds : List (List UInt8)) :
    Except Stop (List SolanaEntries.Entry × UInt64) := do
  let shredsForSlot ← shreds.foldlM addShred ∅
  let groups ← recoverShredsAndGroupByCompletion shredsForSlot
  groups.foldlM addGroup ([], 0)

end

end Lightbringer.Util
