import Lightbringer.Store.SlotRun
import Lightbringer.Lib.ArrayVec
import Lightbringer.Lib.Fallible
import Lightbringer.PacketFilter

/-!
# Where the scan for missing shreds panics

`calculate_missing_shreds` once more, with all that can go wrong in it: the subtraction and the index into the mask of a
FEC set, the room of the `ArrayVec` each FEC set is collected into, and the conversion of the limit.
-/

namespace Lightbringer.Store
open Std Machine Repair Fallible SlotMetadata

inductive ScanFault where
  | subtraction
  | maskIndex
  | arrayVecFull
  | truncatedCast
  deriving DecidableEq

namespace SlotMetadata

abbrev BatchVec := ArrayVec UInt32 dataShredsPerFecSet

def collectBatch (items : List UInt32) : Except ScanFault BatchVec :=
  if fits : items.length ≤ dataShredsPerFecSet then .ok ⟨items, fits⟩ else .error .arrayVecFull

/-- The places of the mask that the shreds clear. -/
def clearMask (batch : UInt32) (shreds : Finset UInt32) : Except ScanFault (Finset Nat) :=
  if ∃ index ∈ shreds, index.toNat < batch.toNat then .error .subtraction
  else if ∃ index ∈ shreds, dataShredsPerFecSet ≤ index.toNat - batch.toNat then .error .maskIndex
  else .ok (shreds.image (fun index => index.toNat - batch.toNat))

def unmaskedChecked (batch : UInt32) (shreds : Finset UInt32) : Except ScanFault BatchVec := do
  let cleared ← clearMask batch shreds
  collectBatch (((List.range dataShredsPerFecSet).filter (fun i => i ∉ cleared)).map (fun i => batch + UInt32.ofNat i))

/-- `max_batch_index as u32` -/
def limitChecked (requiredBatches : Nat) : Except ScanFault UInt32 :=
  if requiredBatches * dataShredsPerFecSet < 2 ^ 32 then .ok (UInt32.ofNat (requiredBatches * dataShredsPerFecSet))
  else .error .truncatedCast

section

variable (m : SlotMetadata)

def boundedBatchChecked (batch : UInt32) : Except ScanFault BatchVec :=
  if batch ∈ m.completedBatches then .ok .empty
  else
    match m.fecDataMap[batch]? with
    | none => collectBatch (batchIndices batch)
    | some shreds => unmaskedChecked batch shreds

def calculateMissingShredsBoundedChecked (requiredBatches : Nat) : Except ScanFault (List UInt32) := do
  let limit ← limitChecked requiredBatches
  let missing ← (batchesBelow limit).mapM m.boundedBatchChecked
  return missing.flatMap ArrayVec.items

def calculateMissingShredsUnboundedChecked : Except ScanFault (List UInt32) := do
  let maxBatch := m.fecDataMap.toList.foldl (fun largest entry => max largest entry.1) 0
  let missing ← m.fecDataMap.toList.mapM (fun entry =>
    if entry.1 ∈ m.completedBatches then .ok .empty else unmaskedChecked entry.1 entry.2)
  let absent ← (batchesBelow maxBatch).mapM (fun batch =>
    if batch ∈ m.fecDataMap then .ok .empty else collectBatch (batchIndices batch))
  return missing.flatMap ArrayVec.items ++ absent.flatMap ArrayVec.items

def calculateMissingShredsChecked : Except ScanFault RepairReq :=
  match m.requiredBatches with
  | some required => do
    return .missingBoundedShreds m.slotNum (← m.calculateMissingShredsBoundedChecked required)
  | none => do
    return .missingUnboundedShreds m.slotNum (← m.calculateMissingShredsUnboundedChecked) m.maxInclusiveShred

end

/-! ### Without a fault it is the scan itself -/

theorem collectBatch_items {items : List UInt32} {vec : BatchVec} (collected : collectBatch items = .ok vec) :
    vec.items = items := by
  unfold collectBatch at collected
  split at collected
  · cases collected
    rfl
  · cases collected

theorem unmasked_of_checked {batch : UInt32} {shreds : Finset UInt32} {vec : BatchVec}
    (checked : unmaskedChecked batch shreds = .ok vec) : unmasked batch shreds = some vec.items := by
  unfold unmaskedChecked clearMask at checked
  split at checked
  · cases checked
  next above =>
  split at checked
  · cases checked
  next below =>
  simp only [not_exists, not_and, Nat.not_lt, Nat.not_le] at above below
  have places : ∀ index ∈ shreds, maskIndex batch index = some (index.toNat - batch.toNat) :=
    fun index member => if_pos ⟨above index member, below index member⟩
  have inside : none ∉ shreds.image (maskIndex batch) := by
    intro outside
    obtain ⟨index, member, out⟩ := Finset.mem_image.mp outside
    rw [places index member] at out
    cases out
  have same : ∀ i, some i ∈ shreds.image (maskIndex batch) ↔
      i ∈ shreds.image (fun index => index.toNat - batch.toNat) := by
    intro i
    simp only [Finset.mem_image]
    refine exists_congr (fun index => and_congr_right (fun member => ?_))
    rw [places index member, Option.some.injEq]
  rw [collectBatch_items checked]
  simp only [unmasked, inside, if_false, same]

variable {m : SlotMetadata}

theorem bounded_of_checked {required : Nat} {indices : List UInt32}
    (checked : m.calculateMissingShredsBoundedChecked required = .ok indices) :
    m.calculateMissingShredsBounded required = some indices := by
  obtain ⟨limit, converted, checked⟩ := ok_of_bind checked
  obtain ⟨missing, listed, checked⟩ := ok_of_bind checked
  cases checked
  unfold limitChecked at converted
  split at converted
  · cases converted
    unfold calculateMissingShredsBounded
    rw [mapM_erase ArrayVec.items ?_ listed]
    · rfl
    intro batch vec found
    unfold boundedBatchChecked at found
    split at found
    next done =>
      cases found
      exact if_pos done
    next pending =>
      rw [if_neg pending]
      cases known : m.fecDataMap[batch]? with
      | none =>
        rw [known] at found
        exact congrArg some (collectBatch_items found).symm
      | some shreds =>
        rw [known] at found
        exact unmasked_of_checked found
  · cases converted

theorem unbounded_of_checked {indices : List UInt32} (checked : m.calculateMissingShredsUnboundedChecked = .ok indices) :
    m.calculateMissingShredsUnbounded = some indices := by
  obtain ⟨missing, seen, checked⟩ := ok_of_bind checked
  obtain ⟨absent, unseen, checked⟩ := ok_of_bind checked
  cases checked
  have scanned := mapM_erase (g := fun (entry : UInt32 × Finset UInt32) =>
    if entry.1 ∈ m.completedBatches then some [] else unmasked entry.1 entry.2) ArrayVec.items (by
      intro entry vec found
      split at found
      next done =>
        cases found
        exact if_pos done
      next pending =>
        rw [if_neg pending]
        exact unmasked_of_checked found) seen
  have filled := mapM_erase (g := fun batch =>
    some (if batch ∈ m.fecDataMap then [] else batchIndices batch)) ArrayVec.items (by
      intro batch vec found
      split at found
      next known =>
        cases found
        rw [if_pos known]
        rfl
      next unknown =>
        rw [if_neg unknown, collectBatch_items found]) unseen
  have filled := Option.some.inj ((List.mapM_pure).symm.trans filled)
  unfold calculateMissingShredsUnbounded
  rw [scanned]
  simp only [Option.map_some, List.flatMap, filled]

theorem calculateMissingShreds_of_checked {request : RepairReq}
    (checked : m.calculateMissingShredsChecked = .ok request) : m.calculateMissingShreds = some request := by
  unfold calculateMissingShredsChecked at checked
  unfold calculateMissingShreds
  cases known : m.requiredBatches with
  | some required =>
    rw [known] at checked
    obtain ⟨indices, listed, checked⟩ := ok_of_bind checked
    cases checked
    dsimp only
    rw [bounded_of_checked listed]
    rfl
  | none =>
    rw [known] at checked
    obtain ⟨indices, listed, checked⟩ := ok_of_bind checked
    cases checked
    dsimp only
    rw [unbounded_of_checked listed]
    rfl

/-! ### What keeps a run free of faults -/

/-- The data shreds of FEC sets still to be scanned lie in them, and the end of the slot fits in a `u32`. -/
structure Placed (m : SlotMetadata) : Prop where
  inside : ∀ f ∉ m.completedBatches, ∀ index ∈ m.fecSet .data f,
    f.toNat ≤ index.toNat ∧ index.toNat < f.toNat + dataShredsPerFecSet
  bounded : ∀ required, m.requiredBatches = some required → required * dataShredsPerFecSet < 2 ^ 32

theorem collectBatch_ok {items : List UInt32} (fits : items.length ≤ dataShredsPerFecSet) :
    ∃ vec, collectBatch items = .ok vec := ⟨⟨items, fits⟩, dif_pos fits⟩

theorem collectBatch_batchIndices (batch : UInt32) : ∃ vec, collectBatch (batchIndices batch) = .ok vec :=
  collectBatch_ok (by simp [batchIndices])

theorem unmaskedChecked_ok {batch : UInt32} {shreds : Finset UInt32}
    (inside : ∀ index ∈ shreds, batch.toNat ≤ index.toNat ∧ index.toNat < batch.toNat + dataShredsPerFecSet) :
    ∃ vec, unmaskedChecked batch shreds = .ok vec := by
  have above : ¬ ∃ index ∈ shreds, index.toNat < batch.toNat := by
    rintro ⟨index, member, under⟩
    exact Nat.not_lt.mpr (inside index member).1 under
  have below : ¬ ∃ index ∈ shreds, dataShredsPerFecSet ≤ index.toNat - batch.toNat := by
    rintro ⟨index, member, past⟩
    have place := inside index member
    omega
  unfold unmaskedChecked clearMask
  rw [if_neg above, if_neg below]
  apply collectBatch_ok
  rw [List.length_map]
  exact (List.length_filter_le ..).trans_eq List.length_range

theorem checked_of_placed (placed : Placed m) : ∃ request, m.calculateMissingShredsChecked = .ok request := by
  have scanned : ∀ f ∉ m.completedBatches, ∀ shreds, m.fecDataMap[f]? = some shreds →
      ∃ vec, unmaskedChecked f shreds = .ok vec := by
    intro f pending shreds known
    have here : m.fecSet .data f = shreds := by simp [fecSet, fecMap, known]
    exact unmaskedChecked_ok (here ▸ placed.inside f pending)
  unfold calculateMissingShredsChecked
  cases known : m.requiredBatches with
  | some required =>
    obtain ⟨missing, listed⟩ := mapM_ok (f := m.boundedBatchChecked)
      (batchesBelow (UInt32.ofNat (required * dataShredsPerFecSet))) (by
        intro batch _
        unfold boundedBatchChecked
        split
        · exact ⟨_, rfl⟩
        next pending =>
          split
          · exact collectBatch_batchIndices batch
          next shreds found => exact scanned batch pending shreds found)
    refine ⟨.missingBoundedShreds m.slotNum (missing.flatMap ArrayVec.items), ?_⟩
    simp only [calculateMissingShredsBoundedChecked, limitChecked, if_pos (placed.bounded required known), bind, Except.bind,
      listed, pure, Except.pure]
  | none =>
    obtain ⟨missing, seen⟩ := mapM_ok (f := fun (entry : UInt32 × Finset UInt32) =>
      if entry.1 ∈ m.completedBatches then .ok .empty else unmaskedChecked entry.1 entry.2) m.fecDataMap.toList (by
        intro entry member
        split
        · exact ⟨_, rfl⟩
        next pending => exact scanned entry.1 pending entry.2 (TreeMap.mem_toList_iff_getElem?_eq_some.mp member))
    obtain ⟨absent, unseen⟩ := mapM_ok (f := fun batch =>
      if batch ∈ m.fecDataMap then (.ok .empty : Except ScanFault BatchVec) else collectBatch (batchIndices batch))
      (batchesBelow (m.fecDataMap.toList.foldl (fun largest entry => max largest entry.1) 0)) (by
        intro batch _
        split
        · exact ⟨_, rfl⟩
        · exact collectBatch_batchIndices batch)
    refine ⟨.missingUnboundedShreds m.slotNum (missing.flatMap ArrayVec.items ++ absent.flatMap ArrayVec.items)
      m.maxInclusiveShred, ?_⟩
    simp only [calculateMissingShredsUnboundedChecked, bind, Except.bind, seen, unseen, pure, Except.pure]

theorem Placed.congr {after : SlotMetadata} (placed : Placed m) (data : after.fecDataMap = m.fecDataMap)
    (completed : after.completedBatches = m.completedBatches)
    (bounded : ∀ required, after.requiredBatches = some required → required * dataShredsPerFecSet < 2 ^ 32) :
    Placed after := by
  refine ⟨?_, bounded⟩
  simp only [fecSet, fecMap, data, completed]
  exact placed.inside

variable [ShredLayout] {a : Arrival}

/-- A shred the entry takes up leaves no place for a fault: if it ends the slot, the end fits in a `u32`, and a data
shred lies in the FEC set it names or completes it. -/
def Harmless (m : SlotMetadata) (a : Arrival) : Prop :=
  m.isComplete = false →
    (lastInSlot a.hdr a.shred = true → a.fec.toNat + dataShredsPerFecSet < 2 ^ 32) ∧
      (m.Fresh a → a.hdr.shredVariant = .data → m.batchCount a.fec + 1 < dataShredsPerFecSet →
        a.hdr.index.toNat < a.fec.toNat + dataShredsPerFecSet)

theorem bounded_learnRequired (placed : Placed m)
    (small : lastInSlot a.hdr a.shred = true → a.fec.toNat + dataShredsPerFecSet < 2 ^ 32) {required : Nat}
    (known : (m.learnRequired a.hdr a.shred).requiredBatches = some required) :
    required * dataShredsPerFecSet < 2 ^ 32 := by
  rw [learnRequired_requiredBatches] at known
  split at known
  next last =>
    cases known
    exact (Nat.div_mul_le_self ..).trans_lt (small last)
  · exact placed.bounded required known

theorem placed_absorb (placed : Placed m) (fresh : m.Fresh a)
    (small : lastInSlot a.hdr a.shred = true → a.fec.toNat + dataShredsPerFecSet < 2 ^ 32)
    (position : a.hdr.shredVariant = .data → m.batchCount a.fec + 1 < dataShredsPerFecSet →
      a.fec.toNat ≤ a.hdr.index.toNat ∧ a.hdr.index.toNat < a.fec.toNat + dataShredsPerFecSet) :
    Placed (m.absorb a) := by
  have count : (m.absorb a).batchCount a.fec = m.batchCount a.fec + 1 := by
    rw [← card_shredIds, ← card_shredIds, absorb_shredIds, if_pos rfl, Finset.card_insert_of_notMem fresh.2]
  refine ⟨?_, ?_⟩
  · intro f pending index held
    rw [absorb_completedBatches, count] at pending
    have before : f ∉ m.completedBatches := by
      split at pending
      · exact fun done => pending (Finset.mem_insert_of_mem done)
      · exact pending
    rw [← mem_shredIds, absorb_shredIds] at held
    split at held
    next same =>
      subst same
      obtain new | old := Finset.mem_insert.mp held
      · have type : a.hdr.shredVariant = .data := (congrArg Prod.fst new).symm
        have place : a.hdr.index = index := (congrArg Prod.snd new).symm
        have short : m.batchCount a.fec + 1 < dataShredsPerFecSet := by
          by_contra full
          rw [if_pos (Nat.le_of_not_lt full)] at pending
          exact pending (Finset.mem_insert_self ..)
        exact place ▸ position type short
      · exact placed.inside a.fec before index ((mem_shredIds ..).mp old)
    next => exact placed.inside f before index ((mem_shredIds ..).mp held)
  · intro required known
    apply bounded_learnRequired placed small
    rw [learnRequired_requiredBatches]
    rw [absorb_requiredBatches] at known
    exact known

theorem placed_step (placed : Placed m) (behind : a.hdr.shredVariant = .data → a.fec ≤ a.hdr.index)
    (harmless : m.Harmless a) : Placed (storeStep m a).1 := by
  change Placed (m.storeShred a.timestampMs a.hdr a.shred).1
  cases unfinished : m.isComplete with
  | true =>
    rw [storeShred_frozen unfinished]
    exact placed
  | false =>
    obtain ⟨small, position⟩ := harmless unfinished
    have learned : Placed (m.learnRequired a.hdr a.shred) :=
      placed.congr (by unfold learnRequired; split <;> rfl) (learnRequired_completedBatches ..)
        (fun _ known => bounded_learnRequired placed small known)
    by_cases late : m.Late a
    · rw [storeShred_late unfinished late]
      split
      · exact learned.congr rfl rfl learned.bounded
      · exact learned
    by_cases seen : a.id ∈ m.shredIds a.fec
    · rw [storeShred_duplicate unfinished late seen]
      exact learned
    have absorbed := placed_absorb placed ⟨late, seen⟩ small
      (fun type short => ⟨UInt32.le_iff_toNat_le.mp (behind type), position ⟨late, seen⟩ type short⟩)
    rw [storeShred_fresh unfinished ⟨late, seen⟩]
    split
    · exact absorbed.congr rfl rfl absorbed.bounded
    split
    · exact absorbed
    · exact absorbed

omit [ShredLayout] in
theorem placed_new (slot : UInt64) (createdMs : Nat) : Placed (SlotMetadata.new slot createdMs) := by
  refine ⟨?_, ?_⟩
  · intro f _ index held
    simp [SlotMetadata.new, fecSet, fecMap] at held
  · intro required known
    cases known

end SlotMetadata

variable [ShredLayout] [ShredWire]

/-- A packet the filter lets through, with the header that is read off it and the right version. -/
def Passed (version : UInt16) (a : Arrival) : Prop :=
  ShredLayout.commonHeader a.shred = some a.hdr ∧ a.hdr.version = version ∧
    ∃ overlay queue, .metaTx a.shred ∈ PacketProcessorPool.letThrough overlay queue

theorem Passed.behind {version : UInt16} {a : Arrival} (passed : Passed version a) (positioned : ShredWire.Positioned)
    (type : a.hdr.shredVariant = .data) : a.fec ≤ a.hdr.index := by
  obtain ⟨header, -, overlay, queue, through⟩ := passed
  obtain ⟨queued, -, same, -, -, leader, -, sig, data, -, root, -⟩ :=
    (PacketProcessorPool.mem_letThrough overlay queue a.shred).mp through
  exact positioned a.shred a.hdr data header (same ▸ root) type

/-- As long as the data shreds taken up lie in their FEC sets, or complete them, and no slot ends beyond what a `u32`
holds, the scan for missing shreds meets no fault after any run. -/
theorem scan_meets_no_fault (slot : UInt64) (createdMs : Nat) (version : UInt16) {arrivals : List Arrival}
    (positioned : ShredWire.Positioned) (passed : ∀ a ∈ arrivals, Passed version a)
    (harmless : Meets storeStep Harmless (SlotMetadata.new slot createdMs) arrivals) :
    ∃ request, (slotRun slot createdMs arrivals).1.calculateMissingShredsChecked = .ok request ∧
      (slotRun slot createdMs arrivals).1.calculateMissingShreds = some request := by
  have both : Meets storeStep (fun m a => Passed version a ∧ Harmless m a) (SlotMetadata.new slot createdMs) arrivals :=
    (meets_and arrivals).mpr ⟨meets_of_forall passed, harmless⟩
  have placed : Placed (slotRun slot createdMs arrivals).1 :=
    run_invariant (placed_new slot createdMs)
      (fun _ _ placed here => placed_step placed (here.1.behind positioned) here.2) arrivals both
  obtain ⟨request, checked⟩ := checked_of_placed placed
  exact ⟨request, checked, calculateMissingShreds_of_checked checked⟩

omit [ShredLayout] [ShredWire]

/-- A leader who signs with zeros, over Merkle trees of 64 leaves. -/
abbrev leafWire : ShredWire where
  getSignature packet := if 64 ≤ packet.bytes.length then some (packet.bytes.take 64) else none
  getMerkleRoot packet :=
    match wireLayout.commonHeader packet with
    | none => none
    | some hdr =>
      if hdr.fecSetIndex ≤ hdr.index ∧ hdr.index.toNat - hdr.fecSetIndex.toNat < 64 then some 0 else none
  verify sig _ _ := sig = List.replicate 64 0

theorem positioned_leafWire : @ShredWire.Positioned wireLayout leafWire := by
  intro packet hdr root header found _
  change (match wireLayout.commonHeader packet with
    | none => none
    | some hdr => if hdr.fecSetIndex ≤ hdr.index ∧ hdr.index.toNat - hdr.fecSetIndex.toNat < 64 then some 0
      else none) = some root at found
  rw [header] at found
  dsimp only at found
  split at found
  next place => exact place.1
  · cases found

theorem passed_leafWire {a : Arrival} (header : wireLayout.commonHeader a.shred = some a.hdr)
    (version : a.hdr.version = 1) (index : (wireLayout.getIndex a.shred).isSome) (slot : (wireLayout.getSlot a.shred).isSome)
    (sig : leafWire.getSignature a.shred = some (List.replicate 64 0)) (root : leafWire.getMerkleRoot a.shred = some 0) :
    @Passed wireLayout leafWire 1 a := by
  refine ⟨header, version, false, [⟨a.shred, some 0, fun _ => true⟩], ?_⟩
  rw [@PacketProcessorPool.mem_letThrough wireLayout leafWire]
  exact ⟨_, List.mem_singleton.mpr rfl, rfl, index, slot, 0, rfl, _, 0, sig, root, by decide⟩

theorem scan_meets_no_fault_first :
    ∃ request, (@slotRun wireLayout 7 0 [dataArrival 3 0 0]).1.calculateMissingShredsChecked = .ok request ∧
      (@slotRun wireLayout 7 0 [dataArrival 3 0 0]).1.calculateMissingShreds = some request := by
  refine @scan_meets_no_fault wireLayout leafWire 7 0 1 [dataArrival 3 0 0] positioned_leafWire ?_ ?_
  · intro a only
    rw [List.mem_singleton] at only
    subst only
    exact passed_leafWire (by decide) rfl (by decide) (by decide) (by decide) (by decide)
  · exact ⟨fun _ => ⟨by decide, fun _ _ _ => by decide⟩, trivial⟩

/-- The leaf of a data shred may lie beyond the 32 data shreds of its FEC set. -/
theorem signed_shred_outside_its_set :
    @ShredWire.Positioned wireLayout leafWire ∧ (∀ a ∈ [dataArrival 40 0 0], @Passed wireLayout leafWire 1 a) ∧
      (@slotRun wireLayout 7 0 [dataArrival 40 0 0]).1.calculateMissingShredsChecked = .error .maskIndex ∧
      (@slotRun wireLayout 7 0 [dataArrival 40 0 0]).1.calculateMissingShreds = none := by
  refine ⟨positioned_leafWire, ?_, by decide, by decide⟩
  intro a only
  rw [List.mem_singleton] at only
  subst only
  exact passed_leafWire (by decide) rfl (by decide) (by decide) (by decide) (by decide)

end Lightbringer.Store
