import Lightbringer.Shred
import Lightbringer.Repair.Messages
import Mathlib.Data.Finset.Card

/-!
# Slot metadata

`store/slot_meta.rs`: what is known of one slot, how a shred is recorded in it, when a FEC set and the
slot count as complete, and which shreds to ask for when it stalls.

The `HashMap`s of the source are kept as `TreeMap`s here: iteration order is unspecified there, and
nothing below depends on it except the order inside the lists a drain or a scan returns.
-/

namespace Lightbringer.Store
open Std Repair

def dataShredsPerFecSet : Nat := 32

/-- `FecMap`: the shred indices seen in each FEC set. -/
abbrev FecMap := TreeMap UInt32 (Finset UInt32)

structure BatchRaw where
  shreds : List PacketInfo
  slot : UInt64
  deriving DecidableEq

structure SlotRaw where
  shreds : List PacketInfo
  slot : UInt64
  deriving DecidableEq

structure SlotMetadata where
  slotNum : UInt64
  fecDataMap : FecMap
  fecCodingMap : FecMap
  timestampMs : Nat
  completedBatches : Finset UInt32
  requiredBatches : Option Nat
  /-- Highest shred index seen. -/
  maxInclusiveShred : UInt32
  /-- Shreds grouped by FEC set index, drained to the store on slot completion. -/
  batchShreds : TreeMap UInt32 (List PacketInfo)
  timedOut : Bool

inductive SlotMetaStoreRes where
  | complete (storeBatch : BatchRaw) (grpcSlot : SlotRaw)
  | batchComplete (batch : BatchRaw)
  | incomplete
  | ignored
  deriving DecidableEq

namespace SlotMetadata

/-- The entry `or_put_with` creates for a slot seen for the first time. -/
def new (slot : UInt64) (timestampMs : Nat) : SlotMetadata where
  slotNum := slot
  fecDataMap := ∅
  fecCodingMap := ∅
  timestampMs := timestampMs
  completedBatches := ∅
  requiredBatches := none
  maxInclusiveShred := 0
  batchShreds := ∅
  timedOut := false

def isComplete (m : SlotMetadata) : Bool :=
  some m.completedBatches.card == m.requiredBatches

/-- The shreds `drain_all_shreds` collects. -/
def allShreds (m : SlotMetadata) : List PacketInfo := m.batchShreds.toList.flatMap (·.2)

def drainAllShreds (m : SlotMetadata) : SlotMetadata × List PacketInfo :=
  ({ m with batchShreds := ∅ }, m.allShreds)

/-- The FEC map a shred of the given type is tracked in. -/
def fecMap (m : SlotMetadata) : ShredType → FecMap
  | .data => m.fecDataMap
  | .code => m.fecCodingMap

def fecSet (m : SlotMetadata) (type : ShredType) (fecIndex : UInt32) : Finset UInt32 :=
  ((m.fecMap type)[fecIndex]?).getD ∅

/-- Distinct shreds of both types recorded for a FEC set. -/
def batchCount (m : SlotMetadata) (fecIndex : UInt32) : Nat :=
  (m.fecSet .code fecIndex).card + (m.fecSet .data fecIndex).card

variable [ShredLayout]

/-- A data shred that carries `LAST_SHRED_IN_SLOT`. -/
def lastInSlot (hdr : ShredCommonHeader) (shred : PacketInfo) : Bool :=
  hdr.shredVariant = .data && (ShredLayout.getFlags shred).any (·.lastShredInSlot)

/-- The number of batches of a slot whose last FEC set has the given index. -/
def batchesUpTo (fecIndex : UInt32) : Nat :=
  (fecIndex.toNat + dataShredsPerFecSet) / dataShredsPerFecSet

/-- A last-in-slot data shred fixes how many batches the slot has. -/
def learnRequired (m : SlotMetadata) (hdr : ShredCommonHeader) (shred : PacketInfo) : SlotMetadata :=
  if lastInSlot hdr shred then { m with requiredBatches := some (batchesUpTo hdr.fecSetIndex) } else m

/-- The bookkeeping for a shred not seen before. -/
def record (m : SlotMetadata) (timestampMs : Nat) (hdr : ShredCommonHeader) (shred : PacketInfo) :
    SlotMetadata :=
  let tracked := insert hdr.index (m.fecSet hdr.shredVariant hdr.fecSetIndex)
  let m := match hdr.shredVariant with
    | .data => { m with fecDataMap := m.fecDataMap.insert hdr.fecSetIndex tracked }
    | .code => { m with fecCodingMap := m.fecCodingMap.insert hdr.fecSetIndex tracked }
  { m with
    timestampMs := timestampMs
    maxInclusiveShred := max m.maxInclusiveShred hdr.index
    batchShreds := m.batchShreds.insert hdr.fecSetIndex
      ((m.batchShreds[hdr.fecSetIndex]?).getD [] ++ [shred]) }

def makeComplete (m : SlotMetadata) (storeBatch : BatchRaw) : SlotMetadata × SlotMetaStoreRes :=
  let (drained, grpcShreds) := m.drainAllShreds
  (drained, .complete storeBatch { shreds := grpcShreds, slot := m.slotNum })

/-- `store_shred` on the slot's entry. `timestampMs` is the system clock. -/
def storeShred (m : SlotMetadata) (timestampMs : Nat) (hdr : ShredCommonHeader) (shred : PacketInfo) :
    SlotMetadata × SlotMetaStoreRes :=
  if m.isComplete then (m, .ignored)
  else
    -- `required_batches` is learned before any early return.
    let m := m.learnRequired hdr shred
    if hdr.fecSetIndex ∈ m.completedBatches then
      -- A completed batch can still retroactively complete the slot.
      if m.isComplete then m.makeComplete { shreds := [], slot := hdr.slot } else (m, .ignored)
    else if hdr.index ∈ m.fecSet hdr.shredVariant hdr.fecSetIndex then (m, .ignored)
    else
      let m := m.record timestampMs hdr shred
      if dataShredsPerFecSet ≤ m.batchCount hdr.fecSetIndex then
        let m := { m with completedBatches := insert hdr.fecSetIndex m.completedBatches }
        let storeBatch : BatchRaw :=
          { shreds := (m.batchShreds[hdr.fecSetIndex]?).getD [], slot := hdr.slot }
        if m.isComplete then m.makeComplete storeBatch else (m, .batchComplete storeBatch)
      else if m.isComplete then m.makeComplete { shreds := [], slot := hdr.slot }
      else (m, .incomplete)

/-! ### Missing shreds

Arithmetic is that of a release build: `u32` additions wrap. An index outside the mask panics, here `none`. -/

def batchIndices (batch : UInt32) : List UInt32 :=
  (List.range dataShredsPerFecSet).map (fun i => batch + UInt32.ofNat i)

/-- Where a shred clears the mask of its FEC set; `none` outside of it. -/
def maskIndex (batch index : UInt32) : Option Nat :=
  if batch.toNat ≤ index.toNat ∧ index.toNat - batch.toNat < dataShredsPerFecSet then
    some (index.toNat - batch.toNat)
  else none

/-- The indices of a FEC set the mask leaves. -/
def unmasked (batch : UInt32) (shreds : Finset UInt32) : Option (List UInt32) :=
  let cleared := shreds.image (maskIndex batch)
  if none ∈ cleared then none
  else some (((List.range dataShredsPerFecSet).filter (fun i => some i ∉ cleared)).map (fun i => batch + UInt32.ofNat i))

/-- `(0..limit).step_by(32)`. -/
def batchesBelow (limit : UInt32) : List UInt32 :=
  (List.range ((limit.toNat + dataShredsPerFecSet - 1) / dataShredsPerFecSet)).map
    (fun k => UInt32.ofNat (k * dataShredsPerFecSet))

def calculateMissingShredsBounded (m : SlotMetadata) (requiredBatches : Nat) : Option (List UInt32) :=
  let missing := (batchesBelow (UInt32.ofNat (requiredBatches * dataShredsPerFecSet))).mapM (fun batch =>
    if batch ∈ m.completedBatches then some []
    else
      match m.fecDataMap[batch]? with
      | none => some (batchIndices batch)
      | some shreds => unmasked batch shreds)
  missing.map List.flatten

def calculateMissingShredsUnbounded (m : SlotMetadata) : Option (List UInt32) :=
  let maxBatch := m.fecDataMap.toList.foldl (fun largest entry => max largest entry.1) 0
  let missing := m.fecDataMap.toList.mapM (fun entry =>
    if entry.1 ∈ m.completedBatches then some [] else unmasked entry.1 entry.2)
  let absent := (batchesBelow maxBatch).flatMap (fun batch =>
    if batch ∈ m.fecDataMap then [] else batchIndices batch)
  missing.map (fun missing => missing.flatten ++ absent)

/-- Unbounded until the last shred of the slot has been seen. -/
def calculateMissingShreds (m : SlotMetadata) : Option RepairReq :=
  match m.requiredBatches with
  | some required =>
    (m.calculateMissingShredsBounded required).map (fun shreds => .missingBoundedShreds m.slotNum shreds)
  | none =>
    m.calculateMissingShredsUnbounded.map
      (fun holes => .missingUnboundedShreds m.slotNum holes m.maxInclusiveShred)

omit [ShredLayout] in
theorem asksFor_calculateMissingShreds {m : SlotMetadata} {req : RepairReq}
    (calculated : m.calculateMissingShreds = some req) : req.asksFor m.slotNum = true := by
  unfold calculateMissingShreds at calculated
  split at calculated
  · obtain ⟨shreds, _, rfl⟩ := Option.map_eq_some_iff.mp calculated
    simp [RepairReq.asksFor]
  · obtain ⟨holes, _, rfl⟩ := Option.map_eq_some_iff.mp calculated
    simp [RepairReq.asksFor]

omit [ShredLayout] in
theorem makeComplete_eq (m : SlotMetadata) (storeBatch : BatchRaw) :
    m.makeComplete storeBatch =
      ({ m with batchShreds := ∅ }, .complete storeBatch { shreds := m.allShreds, slot := m.slotNum }) := rfl

/-! ### The shreds of a FEC set -/

/-- The shreds recorded for a FEC set, told apart by type and index. -/
def shredIds (m : SlotMetadata) (fecIndex : UInt32) : Finset (ShredType × UInt32) :=
  (m.fecSet .code fecIndex).image (Prod.mk .code) ∪ (m.fecSet .data fecIndex).image (Prod.mk .data)

omit [ShredLayout] in
@[simp] theorem mem_shredIds (m : SlotMetadata) (type : ShredType) (index fecIndex : UInt32) :
    (type, index) ∈ m.shredIds fecIndex ↔ index ∈ m.fecSet type fecIndex := by
  cases type <;> simp [shredIds]

omit [ShredLayout] in
theorem card_shredIds (m : SlotMetadata) (fecIndex : UInt32) :
    (m.shredIds fecIndex).card = m.batchCount fecIndex := by
  have apart : Disjoint ((m.fecSet .code fecIndex).image (Prod.mk ShredType.code))
      ((m.fecSet .data fecIndex).image (Prod.mk ShredType.data)) := by
    rw [Finset.disjoint_left]
    intro id coding data
    simp only [Finset.mem_image] at coding data
    obtain ⟨_, _, rfl⟩ := coding
    obtain ⟨_, _, clash⟩ := data
    simp at clash
  rw [shredIds, Finset.card_union_of_disjoint apart,
    Finset.card_image_of_injective _ (Prod.mk_right_injective _),
    Finset.card_image_of_injective _ (Prod.mk_right_injective _), batchCount]

omit [ShredLayout] in
theorem shredIds_record (m : SlotMetadata) (timestampMs : Nat) (hdr : ShredCommonHeader)
    (shred : PacketInfo) (f : UInt32) :
    (m.record timestampMs hdr shred).shredIds f =
      if hdr.fecSetIndex = f then insert (hdr.shredVariant, hdr.index) (m.shredIds f) else m.shredIds f := by
  ext ⟨type, index⟩
  rw [mem_shredIds]
  cases variant : hdr.shredVariant <;> cases type <;> by_cases same : hdr.fecSetIndex = f <;>
    simp [record, fecSet, fecMap, variant, same, TreeMap.getElem?_insert]

section

variable (m : SlotMetadata) (timestampMs : Nat) (hdr : ShredCommonHeader) (shred : PacketInfo)

theorem learnRequired_requiredBatches :
    (m.learnRequired hdr shred).requiredBatches =
      if lastInSlot hdr shred then some (batchesUpTo hdr.fecSetIndex) else m.requiredBatches := by
  unfold learnRequired
  split <;> rfl

@[simp] theorem learnRequired_completedBatches :
    (m.learnRequired hdr shred).completedBatches = m.completedBatches := by
  unfold learnRequired
  split <;> rfl

@[simp] theorem learnRequired_batchShreds : (m.learnRequired hdr shred).batchShreds = m.batchShreds := by
  unfold learnRequired
  split <;> rfl

@[simp] theorem learnRequired_fecSet (type : ShredType) (f : UInt32) :
    (m.learnRequired hdr shred).fecSet type f = m.fecSet type f := by
  unfold learnRequired
  split <;> rfl

@[simp] theorem learnRequired_shredIds (f : UInt32) :
    (m.learnRequired hdr shred).shredIds f = m.shredIds f := by
  simp [shredIds]

omit [ShredLayout] in
@[simp] theorem record_requiredBatches :
    (m.record timestampMs hdr shred).requiredBatches = m.requiredBatches := by
  unfold record
  cases hdr.shredVariant <;> rfl

omit [ShredLayout] in
@[simp] theorem record_completedBatches :
    (m.record timestampMs hdr shred).completedBatches = m.completedBatches := by
  unfold record
  cases hdr.shredVariant <;> rfl

omit [ShredLayout] in
@[simp] theorem record_batchShreds :
    (m.record timestampMs hdr shred).batchShreds =
      m.batchShreds.insert hdr.fecSetIndex ((m.batchShreds[hdr.fecSetIndex]?).getD [] ++ [shred]) := by
  unfold record
  cases hdr.shredVariant <;> rfl

end

end SlotMetadata

end Lightbringer.Store
