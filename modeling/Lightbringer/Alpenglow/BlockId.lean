import Lightbringer.Alpenglow.Shred
import Lightbringer.Lib.Bytes

/-!
# The id of a block

`alpenglow/block_id.rs`: the root of a Merkle tree over the roots of a slot's FEC sets and the parent that the block's
markers name.
-/

namespace Lightbringer.Alpenglow
open Std

structure ParentInfo where
  parentSlot : UInt64
  parentBlockId : Hash
  replayFecSetIndex : UInt32
  deriving DecidableEq

def leaderSlotIndex (slot : UInt64) : Nat := slot.toNat % 4

def verifyShredSlots (slot parent : UInt64) : Bool := (slot = 0 ∧ parent = 0) ∨ parent < slot

namespace ParentInfo

variable (info : ParentInfo)

def block : UInt64 × Hash := (info.parentSlot, info.parentBlockId)

def hasUpdateParent : Bool := 0 < info.replayFecSetIndex

def populatedFromBlockHeader : Bool := info.replayFecSetIndex = 0

def validateUpdateParentSlot (slot : UInt64) : Except String Unit :=
  if info.hasUpdateParent ∧ leaderSlotIndex slot ≠ 0 then
    .error s!"slot {slot} has update-parent marker outside first leader slot"
  else .ok ()

def validateShredParent (slot shredParentSlot : UInt64) : Except String Unit :=
  let parent := info.parentSlot
  if !verifyShredSlots slot parent then .error s!"slot {slot} has invalid alpenglow parent slot {parent}"
  else if info.populatedFromBlockHeader ∧ parent ≠ shredParentSlot then
    .error s!"slot {slot} block-header parent {parent} does not match shred parent {shredParentSlot}"
  else if info.hasUpdateParent ∧ parent > shredParentSlot then
    .error s!"slot {slot} update-parent slot {parent} is greater than shred parent {shredParentSlot}"
  else .ok ()

/-- An update-parent marker against a block header: they must differ, and the update points further back. -/
def validateReplacement (slot : UInt64) (updateParent blockHeader : ParentInfo) (replace : Bool) : Except String Bool :=
  if updateParent.block = blockHeader.block then
    .error s!"slot {slot} update-parent matches block-header parent"
  else if updateParent.parentSlot > blockHeader.parentSlot then
    .error s!"slot {slot} update-parent slot is greater than block-header parent slot"
  else .ok replace

def shouldReplace (slot : UInt64) (new prev : ParentInfo) : Except String Bool :=
  match new.populatedFromBlockHeader, prev.populatedFromBlockHeader with
  | true, false => validateReplacement slot prev new false
  | false, true => validateReplacement slot new prev true
  | false, false => if new = prev then .ok false else .error s!"slot {slot} has multiple update-parent markers"
  | true, true => if new = prev then .ok false else .error s!"slot {slot} has multiple block headers"

end ParentInfo

/-- `apply_parent_info`, which writes the new value back only when it does not fail. -/
def applyParentInfo (slot shredParentSlot : UInt64) (parentInfo newParentInfo : Option ParentInfo) :
    Except String (Option ParentInfo) :=
  match newParentInfo with
  | none => .ok parentInfo
  | some new => do
    new.validateUpdateParentSlot slot
    new.validateShredParent slot shredParentSlot
    match parentInfo with
    | none => return some new
    | some prev =>
      let replace ← ParentInfo.shouldReplace slot new prev
      return if replace then some new else some prev

def sizeOfDataShredHeaders : Nat := 88

def getDataSize (payload : List UInt8) : Option Nat := readLe payload 86 2

def getData (shred : Shred) : Option (List UInt8) := do
  let size ← getDataSize shred.payload
  if sizeOfDataShredHeaders ≤ size ∧ size ≤ shred.payload.length then
    some ((shred.payload.take size).drop sizeOfDataShredHeaders)
  else none

variable [SolanaLedger]

/-- The marker that the data of a shred is, if it is one. -/
def parseMarker (shred : Shred) : Option BlockMarker := do
  let payload ← getData shred
  if !(SolanaLedger.inferIsBlockMarker payload).getD false then none
  else
    match SolanaLedger.deserializeComponent payload with
    | .ok (.blockMarker marker) => some marker
    | _ => none

def parseBlockHeader (shred : Shred) : Option ParentInfo :=
  if shred.index ≠ 0 then none
  else
    match parseMarker shred with
    | some (.blockHeader parentSlot parentBlockId) => some ⟨parentSlot, parentBlockId, 0⟩
    | _ => none

/-- Where an update-parent marker after `current` would start: at the FEC set after a complete batch, looked at from
its last shred and from the set's first one. -/
def updateParentTarget (current : Shred) (dataShreds : TreeMap UInt32 Shred) : Option (Shred × UInt32) :=
  if current.dataComplete then do
    let nextFecSetIndex := current.fecSetIndex + UInt32.ofNat dataShredsPerFecBlock
    let target ← dataShreds[nextFecSetIndex]?
    return (target, nextFecSetIndex)
  else if current.index.toNat % dataShredsPerFecBlock = 0 ∧ 0 < current.index then do
    let prev ← dataShreds[current.index - 1]?
    match SolanaLedger.dataCompleteFlag prev.payload with
    | .ok true => return (current, current.fecSetIndex)
    | _ => none
  else none

def parseUpdateParent (current : Shred) (dataShreds : TreeMap UInt32 Shred) : Option ParentInfo := do
  let (target, targetFecSetIndex) ← updateParentTarget current dataShreds
  match parseMarker target with
  | some (.updateParent newParentSlot newParentBlockId) =>
    return ⟨newParentSlot, newParentBlockId, targetFecSetIndex⟩
  | _ => none

def parseParentInfo (slot shredParentSlot : UInt64) (dataShreds : TreeMap UInt32 Shred) : Except String ParentInfo :=
  match dataShreds[(0 : UInt32)]? with
  | none => .error s!"slot {slot} missing data shred 0"
  | some first => do
    let header ← applyParentInfo slot shredParentSlot none (parseBlockHeader first)
    let parentInfo ← dataShreds.values.foldlM
      (fun parentInfo shred => applyParentInfo slot shredParentSlot parentInfo (parseUpdateParent shred dataShreds))
      header
    match parentInfo with
    | none => .error s!"slot {slot} has no alpenglow block header"
    | some parentInfo => return parentInfo

/-! ### The scan over a slot's shreds -/

/-- The locals of `compute_block_id` that its loop fills. -/
structure BlockScan where
  dataShreds : TreeMap UInt32 Shred
  fecRoots : TreeMap UInt32 Hash
  slot : Option UInt64
  shredParentSlot : Option UInt64
  lastIndex : Option UInt32

def BlockScan.new : BlockScan := ⟨∅, ∅, none, none, none⟩

/-- `replace(..).is_some_and(..)`: another value was there. -/
def conflicts {α : Type} [DecidableEq α] (previous : Option α) (value : α) : Bool :=
  previous.any (fun prev => prev ≠ value)

def BlockScan.addData (scan : BlockScan) (shred : Shred) : Except String BlockScan := do
  let slot := shred.slot
  let fecSetIndex := shred.fecSetIndex
  let merkleRoot ← shred.merkleRoot.mapError (fun e => s!"invalid shred merkle root: {e}")
  if conflicts scan.fecRoots[fecSetIndex]? merkleRoot then
    .error s!"slot {slot} has conflicting merkle roots for FEC set {fecSetIndex}"
  else
    let parentSlot ← shred.parent.mapError (fun e => s!"invalid shred parent: {e}")
    if conflicts scan.shredParentSlot parentSlot then
      .error s!"slot {slot} has conflicting shred-header parent slots"
    else if shred.lastInSlot && conflicts scan.lastIndex shred.index then
      .error s!"slot {slot} has conflicting last shred indexes"
    else
      return { scan with
        fecRoots := scan.fecRoots.insert fecSetIndex merkleRoot
        shredParentSlot := some parentSlot
        lastIndex := if shred.lastInSlot then some shred.index else scan.lastIndex
        dataShreds := scan.dataShreds.insertIfNew shred.index shred }

def BlockScan.add (scan : BlockScan) (raw : PacketInfo) : Except String BlockScan := do
  let shred ← parseShred raw
  if conflicts scan.slot shred.slot then .error "completed slot batch contains multiple slots"
  else if shred.shredType ≠ .data then return { scan with slot := some shred.slot }
  else BlockScan.addData { scan with slot := some shred.slot } shred

/-- The first index up to the last one that has no shred. -/
def BlockScan.missing (scan : BlockScan) (lastIndex : UInt32) : Option Nat :=
  (List.range (lastIndex.toNat + 1)).find? (fun index => !scan.dataShreds.contains (UInt32.ofNat index))

def BlockScan.fecRoot (scan : BlockScan) (i : Nat) : Except String Hash :=
  match scan.fecRoots[UInt32.ofNat (i * dataShredsPerFecBlock)]? with
  | some root => .ok root
  | none => .error "InvalidMerkleRoot"

def computeBlockId (shreds : List PacketInfo) : Except String Hash := do
  let scan ← shreds.foldlM BlockScan.add BlockScan.new
  match scan.slot with
  | none => .error "cannot compute alpenglow block id without shreds"
  | some slot =>
    match scan.shredParentSlot, scan.lastIndex with
    | none, _ => .error s!"slot {slot} has no data shreds"
    | _, none => .error s!"slot {slot} has no last-in-slot data shred"
    | some shredParentSlot, some lastIndex =>
      match scan.missing lastIndex with
      | some index => .error s!"slot {slot} is missing data shred {index}"
      | none =>
        let fecSetCount := lastIndex.toNat / dataShredsPerFecBlock + 1
        let parentInfo ← parseParentInfo slot shredParentSlot scan.dataShreds
        let parentLeaf := SolanaLedger.hashv [leBytes 8 parentInfo.parentSlot.toNat,
          Bytes.ofNat 32 parentInfo.parentBlockId.toNat, leBytes 4 fecSetCount]
        let leaves := (List.range fecSetCount).map scan.fecRoot ++ [.ok parentLeaf]
        (SolanaLedger.merkleTreeRoot leaves (fecSetCount + 1)).mapError
          (fun e => s!"failed to build double merkle tree: {e}")

end Lightbringer.Alpenglow
