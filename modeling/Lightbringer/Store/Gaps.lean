import Lightbringer.Store.SlotRun
import Lightbringer.Lib.Entries

/-!
# The gaps of a slot of unknown length

What `calculate_missing_shreds_unbounded` lists while the last shred of the slot has not been seen,
against the data shreds that are really missing.
-/

namespace Lightbringer.Store
open Std Machine SlotMetadata

/-- The first index of the FEC set an index belongs to. -/
def fecStart (index : UInt32) : UInt32 := index / 32 * 32

theorem toNat_fecStart (index : UInt32) : (fecStart index).toNat = index.toNat / 32 * 32 := by
  have bound := index.toNat_lt
  simp only [fecStart, UInt32.toNat_mul, UInt32.toNat_div, UInt32.reduceToNat]
  omega

/-- A FEC set index that `step_by(32)` from zero can reach. -/
def IsFecStart (f : UInt32) : Prop := f.toNat % 32 = 0

instance (f : UInt32) : Decidable (IsFecStart f) := inferInstanceAs (Decidable (_ = _))

theorem isFecStart_fecStart (index : UInt32) : IsFecStart (fecStart index) := by
  have value := toNat_fecStart index
  unfold IsFecStart
  omega

theorem fecStart_eq_iff {index f : UInt32} (aligned : IsFecStart f) :
    fecStart index = f ↔ f.toNat ≤ index.toNat ∧ index.toNat < f.toNat + 32 := by
  have value := toNat_fecStart index
  unfold IsFecStart at aligned
  rw [← UInt32.toNat_inj]
  omega

theorem fecStart_mono {i j : UInt32} (below : i ≤ j) : fecStart i ≤ fecStart j := by
  rw [UInt32.le_iff_toNat_le] at below ⊢
  rw [toNat_fecStart, toNat_fecStart]
  omega

theorem toNat_max (i j : UInt32) : (max i j).toNat = max i.toNat j.toNat := by
  have value : max i j = if i ≤ j then j else i := rfl
  rw [value]
  split
  next below => exact (Nat.max_eq_right below).symm
  next above => exact (Nat.max_eq_left (Nat.le_of_not_le above)).symm

theorem index_le_max (i j : UInt32) : i ≤ max i j ∧ j ≤ max i j := by
  rw [UInt32.le_iff_toNat_le, UInt32.le_iff_toNat_le, toNat_max]
  exact ⟨Nat.le_max_left .., Nat.le_max_right ..⟩

/-- A shred that lies in the FEC set it names. -/
def WellFormed (a : Arrival) : Prop := IsFecStart a.fec ∧ fecStart a.hdr.index = a.fec

instance (a : Arrival) : Decidable (WellFormed a) := inferInstanceAs (Decidable (_ ∧ _))

namespace SlotMetadata

/-- A data shred not received, of a FEC set that is not completed and not above the highest shred seen. -/
def Gap (m : SlotMetadata) (index : UInt32) : Prop :=
  fecStart index ≤ fecStart m.maxInclusiveShred ∧ fecStart index ∉ m.completedBatches ∧
    index ∉ m.fecSet .data (fecStart index)

/-- The scan lists every gap once and nothing else. -/
def ListsGaps (m : SlotMetadata) : Prop :=
  ∃ holes, m.calculateMissingShredsUnbounded = some holes ∧ holes.Nodup ∧ ∀ index, index ∈ holes ↔ m.Gap index

/-- Each FEC set within reach that no data shred was seen of is completed when it lies above all those that data shreds
were seen of, and only then. -/
def CodedOnTop (m : SlotMetadata) : Prop :=
  ∀ f, IsFecStart f → f ≤ fecStart m.maxInclusiveShred → f ∉ m.fecDataMap →
    (f ∈ m.completedBatches ↔ ∀ g ∈ m.fecDataMap, g < f)

/-! ### What a run keeps -/

/-- The data shreds tracked lie in the FEC sets they are tracked under, none of which is tracked without one. -/
structure Tracked (m : SlotMetadata) : Prop where
  aligned : ∀ f ∈ m.fecDataMap, IsFecStart f
  held : ∀ f ∈ m.fecDataMap, ∃ index, index ∈ m.fecSet .data f
  within : ∀ f index, index ∈ m.fecSet .data f → fecStart index = f ∧ index ≤ m.maxInclusiveShred

theorem tracked_new (slot : UInt64) (createdMs : Nat) : Tracked (SlotMetadata.new slot createdMs) := by
  refine ⟨?_, ?_, ?_⟩
  · intro f member
    simp [SlotMetadata.new] at member
  · intro f member
    simp [SlotMetadata.new] at member
  · intro f index member
    simp [SlotMetadata.new, fecSet, fecMap] at member

/-- Only the data shreds and the highest index matter. -/
theorem Tracked.congr {m after : SlotMetadata} (tracked : Tracked m) (data : after.fecDataMap = m.fecDataMap)
    (top : after.maxInclusiveShred = m.maxInclusiveShred) : Tracked after := by
  refine ⟨?_, ?_, ?_⟩
  · rw [data]
    exact tracked.aligned
  · simp only [fecSet, fecMap, data]
    exact tracked.held
  · simp only [fecSet, fecMap, data, top]
    exact tracked.within

variable [ShredLayout] {m : SlotMetadata}

theorem tracked_learnRequired (tracked : Tracked m) (a : Arrival) : Tracked (m.learnRequired a.hdr a.shred) := by
  unfold learnRequired
  split
  · exact tracked.congr rfl rfl
  · exact tracked

omit [ShredLayout] in
theorem tracked_record (tracked : Tracked m) {a : Arrival} (formed : WellFormed a) :
    Tracked (m.record a.timestampMs a.hdr a.shred) := by
  obtain ⟨aligned, home⟩ := formed
  have top : (m.record a.timestampMs a.hdr a.shred).maxInclusiveShred = max m.maxInclusiveShred a.hdr.index := by
    unfold record
    cases a.hdr.shredVariant <;> rfl
  have raised : ∀ index, index ≤ m.maxInclusiveShred → index ≤ max m.maxInclusiveShred a.hdr.index :=
    fun index below => Std.le_trans below (index_le_max m.maxInclusiveShred a.hdr.index |>.1)
  cases variant : a.hdr.shredVariant with
  | code =>
    refine ⟨?_, ?_, ?_⟩
    · simpa [record, variant] using tracked.aligned
    · simpa [record, variant, fecSet, fecMap] using tracked.held
    · intro f index member
      have before : index ∈ m.fecSet .data f := by simpa [record, variant, fecSet, fecMap] using member
      rw [top]
      exact ⟨(tracked.within f index before).1, raised _ (tracked.within f index before).2⟩
  | data =>
    have data : (m.record a.timestampMs a.hdr a.shred).fecDataMap =
        m.fecDataMap.insert a.fec (insert a.hdr.index (m.fecSet .data a.fec)) := by
      simp [record, variant, Arrival.fec]
    have held : ∀ f, (m.record a.timestampMs a.hdr a.shred).fecSet .data f =
        if a.fec = f then insert a.hdr.index (m.fecSet .data f) else m.fecSet .data f := by
      intro f
      by_cases same : a.fec = f
      · subst same
        simp [fecSet, fecMap, data]
      · simp [fecSet, fecMap, data, same, TreeMap.getElem?_insert]
    have member : ∀ f, f ∈ (m.record a.timestampMs a.hdr a.shred).fecDataMap → a.fec = f ∨ f ∈ m.fecDataMap := by
      intro f there
      simpa [data] using there
    refine ⟨?_, ?_, ?_⟩
    · intro f there
      obtain rfl | before := member f there
      · exact aligned
      · exact tracked.aligned f before
    · intro f there
      rw [held]
      split
      · exact ⟨_, Finset.mem_insert_self ..⟩
      next other => exact tracked.held f ((member f there).resolve_left other)
    · intro f index there
      rw [held] at there
      rw [top]
      have known : index ∈ m.fecSet .data f → fecStart index = f ∧ index ≤ max m.maxInclusiveShred a.hdr.index :=
        fun before => ⟨(tracked.within f index before).1, raised _ (tracked.within f index before).2⟩
      split at there
      next same =>
        obtain rfl | before := Finset.mem_insert.mp there
        · exact ⟨home.trans same, (index_le_max ..).2⟩
        · exact known before
      next => exact known there

theorem tracked_absorb (tracked : Tracked m) {a : Arrival} (formed : WellFormed a) : Tracked (m.absorb a) := by
  have recorded := tracked_record (tracked_learnRequired tracked a) formed
  unfold absorb closeBatch
  split
  · exact recorded.congr rfl rfl
  · exact recorded

theorem tracked_step (tracked : Tracked m) {a : Arrival} (formed : WellFormed a) :
    Tracked (storeStep m a).1 := by
  change Tracked (m.storeShred a.timestampMs a.hdr a.shred).1
  cases unfinished : m.isComplete with
  | true =>
    rw [storeShred_frozen unfinished]
    exact tracked
  | false =>
    have learned := tracked_learnRequired tracked a
    by_cases late : m.Late a
    · rw [storeShred_late unfinished late]
      split
      · exact learned.congr rfl rfl
      · exact learned
    by_cases seen : a.id ∈ m.shredIds a.fec
    · rw [storeShred_duplicate unfinished late seen]
      exact learned
    have absorbed := tracked_absorb tracked formed
    rw [storeShred_fresh unfinished ⟨late, seen⟩]
    split
    · exact absorbed.congr rfl rfl
    split
    · exact absorbed
    · exact absorbed

theorem tracked_run (slot : UInt64) (createdMs : Nat) {arrivals : List Arrival} (formed : ∀ a ∈ arrivals, WellFormed a) :
    Tracked (slotRun slot createdMs arrivals).1 :=
  run_invariant (tracked_new slot createdMs) (fun _ _ tracked here => tracked_step tracked here) arrivals
    (meets_of_forall formed)

/-! ### What the scan lists -/

omit [ShredLayout] in
theorem toNat_add_index {f : UInt32} (aligned : IsFecStart f) {i : Nat} (small : i < dataShredsPerFecSet) :
    (f + UInt32.ofNat i).toNat = f.toNat + i := by
  have bound := f.toNat_lt
  unfold IsFecStart at aligned
  unfold dataShredsPerFecSet at small
  rw [UInt32.toNat_add, UInt32.toNat_ofNat']
  omega

omit [ShredLayout] in
theorem mem_batchIndices {f index : UInt32} (aligned : IsFecStart f) :
    index ∈ batchIndices f ↔ fecStart index = f := by
  rw [fecStart_eq_iff aligned]
  simp only [batchIndices, List.mem_map, List.mem_range]
  constructor
  · rintro ⟨i, small, rfl⟩
    rw [toNat_add_index aligned small]
    unfold dataShredsPerFecSet at small
    omega
  · rintro ⟨above, below⟩
    have small : index.toNat - f.toNat < dataShredsPerFecSet := by
      unfold dataShredsPerFecSet
      omega
    refine ⟨index.toNat - f.toNat, small, ?_⟩
    rw [← UInt32.toNat_inj, toNat_add_index aligned small]
    omega

omit [ShredLayout] in
theorem nodup_batchIndices {f : UInt32} (aligned : IsFecStart f) : (batchIndices f).Nodup := by
  refine List.Nodup.map_on ?_ List.nodup_range
  intro i small j small' same
  have values := congrArg UInt32.toNat same
  rw [toNat_add_index aligned (List.mem_range.mp small), toNat_add_index aligned (List.mem_range.mp small')] at values
  omega

omit [ShredLayout] in
theorem mem_batchesBelow {limit f : UInt32} : f ∈ batchesBelow limit ↔ IsFecStart f ∧ f < limit := by
  have bound := limit.toNat_lt
  simp only [batchesBelow, List.mem_map, List.mem_range, dataShredsPerFecSet, IsFecStart, UInt32.lt_iff_toNat_lt]
  constructor
  · rintro ⟨k, below, rfl⟩
    rw [UInt32.toNat_ofNat']
    omega
  · rintro ⟨aligned, below⟩
    refine ⟨f.toNat / 32, by omega, ?_⟩
    rw [← UInt32.toNat_inj, UInt32.toNat_ofNat']
    omega

omit [ShredLayout] in
theorem nodup_batchesBelow (limit : UInt32) : (batchesBelow limit).Nodup := by
  have bound := limit.toNat_lt
  refine List.Nodup.map_on ?_ List.nodup_range
  intro k below l below' same
  have values := congrArg UInt32.toNat same
  simp only [List.mem_range, dataShredsPerFecSet, UInt32.toNat_ofNat'] at below below' values
  omega

/-- The data shreds of a FEC set that are not among those received. -/
def holesIn (batch : UInt32) (shreds : Finset UInt32) : List UInt32 :=
  (batchIndices batch).filter (fun index => index ∉ shreds)

omit [ShredLayout] in
/-- The mask is never indexed out of bounds by shreds of the set, and leaves its holes. -/
theorem unmasked_eq {batch : UInt32} {shreds : Finset UInt32} (aligned : IsFecStart batch)
    (within : ∀ index ∈ shreds, fecStart index = batch) : unmasked batch shreds = some (holesIn batch shreds) := by
  have cleared : ∀ index ∈ shreds, maskIndex batch index = some (index.toNat - batch.toNat) := by
    intro index member
    have place := (fecStart_eq_iff aligned).mp (within index member)
    exact if_pos ⟨place.1, by unfold dataShredsPerFecSet; omega⟩
  have inside : none ∉ shreds.image (maskIndex batch) := by
    intro outside
    obtain ⟨index, member, out⟩ := Finset.mem_image.mp outside
    rw [cleared index member] at out
    cases out
  have same : ∀ i < dataShredsPerFecSet,
      some i ∈ shreds.image (maskIndex batch) ↔ batch + UInt32.ofNat i ∈ shreds := by
    intro i small
    have value := toNat_add_index aligned small
    constructor
    · intro image
      obtain ⟨index, member, place⟩ := Finset.mem_image.mp image
      rw [cleared index member, Option.some.injEq] at place
      have above := ((fecStart_eq_iff aligned).mp (within index member)).1
      have index_eq : batch + UInt32.ofNat i = index := by
        rw [← UInt32.toNat_inj, value]
        omega
      rw [index_eq]
      exact member
    · intro member
      refine Finset.mem_image.mpr ⟨_, member, ?_⟩
      rw [cleared _ member, value]
      congr 1
      omega
  unfold unmasked holesIn batchIndices
  rw [List.filter_map]
  simp only [inside, if_false]
  congr 2
  refine List.filter_congr (fun i member => ?_)
  simp [same i (List.mem_range.mp member)]

omit [ShredLayout] in
theorem mapM_eq_some {α β : Type*} {f : α → Option β} {g : α → β} {xs : List α} (each : ∀ x ∈ xs, f x = some (g x)) :
    xs.mapM f = some (xs.map g) := by
  induction xs with
  | nil => rfl
  | cons x rest ih =>
    rw [List.mapM_cons, each x (List.mem_cons_self ..), ih (fun y later => each y (List.mem_cons_of_mem _ later))]
    rfl

/-- What the scan asks for of a FEC set data shreds were seen of. -/
def seenHoles (m : SlotMetadata) (entry : UInt32 × Finset UInt32) : List UInt32 :=
  if entry.1 ∈ m.completedBatches then [] else holesIn entry.1 entry.2

/-- The largest FEC set index data shreds were seen of. -/
def maxBatch (m : SlotMetadata) : UInt32 := m.fecDataMap.toList.foldl (fun largest entry => max largest entry.1) 0

/-- What the scan asks for of a FEC set below that. -/
def unseenHoles (m : SlotMetadata) (batch : UInt32) : List UInt32 :=
  if batch ∈ m.fecDataMap then [] else batchIndices batch

omit [ShredLayout] in
theorem calculateMissingShredsUnbounded_eq (tracked : Tracked m) :
    m.calculateMissingShredsUnbounded =
      some (m.fecDataMap.toList.flatMap m.seenHoles ++ (batchesBelow m.maxBatch).flatMap m.unseenHoles) := by
  have each : ∀ entry ∈ m.fecDataMap.toList,
      (if entry.1 ∈ m.completedBatches then some [] else unmasked entry.1 entry.2) = some (m.seenHoles entry) := by
    intro entry member
    have found : m.fecDataMap[entry.1]? = some entry.2 := TreeMap.mem_toList_iff_getElem?_eq_some.mp member
    unfold seenHoles
    split
    · rfl
    · apply unmasked_eq
      · exact tracked.aligned _ (by simp [← TreeMap.isSome_getElem?_iff_mem, found])
      · intro index held
        exact (tracked.within entry.1 index (by simpa [fecSet, fecMap, found] using held)).1
  unfold calculateMissingShredsUnbounded
  rw [mapM_eq_some each]
  rfl

omit [ShredLayout] in
theorem mem_seenHoles (tracked : Tracked m) {index : UInt32} :
    index ∈ m.fecDataMap.toList.flatMap m.seenHoles ↔
      fecStart index ∈ m.fecDataMap ∧ fecStart index ∉ m.completedBatches ∧
        index ∉ m.fecSet .data (fecStart index) := by
  have entry_iff : ∀ f shreds, (f, shreds) ∈ m.fecDataMap.toList ↔ m.fecDataMap[f]? = some shreds :=
    fun f shreds => TreeMap.mem_toList_iff_getElem?_eq_some
  simp only [List.mem_flatMap, Prod.exists, entry_iff, seenHoles]
  constructor
  · rintro ⟨f, shreds, found, listed⟩
    have known : f ∈ m.fecDataMap := by simp [← TreeMap.isSome_getElem?_iff_mem, found]
    split at listed
    · cases listed
    next pending =>
      obtain ⟨inside, absent⟩ := List.mem_filter.mp listed
      have home := (mem_batchIndices (tracked.aligned f known)).mp inside
      subst home
      exact ⟨known, pending, by simpa [fecSet, fecMap, found] using absent⟩
  · rintro ⟨known, pending, absent⟩
    obtain ⟨shreds, found⟩ := Option.isSome_iff_exists.mp (TreeMap.isSome_getElem?_iff_mem.mpr known)
    refine ⟨fecStart index, shreds, found, ?_⟩
    rw [if_neg pending]
    refine List.mem_filter.mpr ⟨(mem_batchIndices (isFecStart_fecStart index)).mpr rfl, ?_⟩
    simpa [fecSet, fecMap, found] using absent

omit [ShredLayout] in
theorem lt_maxBatch (f : UInt32) : f < m.maxBatch ↔ ∃ g ∈ m.fecDataMap, f < g := by
  have below : ∀ (entries : List (UInt32 × Finset UInt32)) (start : UInt32),
      f < entries.foldl (fun largest entry => max largest entry.1) start ↔
        f < start ∨ ∃ g ∈ entries.map Prod.fst, f < g := by
    intro entries
    induction entries with
    | nil => simp
    | cons entry rest ih =>
      intro start
      have either : f < max start entry.1 ↔ f < start ∨ f < entry.1 := by
        simp only [UInt32.lt_iff_toNat_lt, toNat_max]
        omega
      rw [List.foldl_cons, ih, either]
      simp [or_assoc]
  unfold maxBatch
  rw [below]
  have none_below : ¬ f < 0 := by simp
  simp [none_below]

omit [ShredLayout] in
theorem mem_unseenHoles {index : UInt32} :
    index ∈ (batchesBelow m.maxBatch).flatMap m.unseenHoles ↔
      fecStart index ∉ m.fecDataMap ∧ ∃ g ∈ m.fecDataMap, fecStart index < g := by
  simp only [List.mem_flatMap, mem_batchesBelow, unseenHoles]
  constructor
  · rintro ⟨f, ⟨aligned, below⟩, listed⟩
    split at listed
    · cases listed
    next absent =>
      have home := (mem_batchIndices aligned).mp listed
      subst home
      exact ⟨absent, (lt_maxBatch _).mp below⟩
  · rintro ⟨absent, above⟩
    have aligned := isFecStart_fecStart index
    refine ⟨fecStart index, ⟨aligned, (lt_maxBatch _).mpr above⟩, ?_⟩
    rw [if_neg absent]
    exact (mem_batchIndices aligned).mpr rfl

omit [ShredLayout] in
/-- Lists made for distinct keys, whose elements each know their key, have no duplicates together. -/
theorem nodup_flatMap_of_home {α κ β : Type*} {xs : List α} (key : α → κ) (home : β → κ) {f : α → List β}
    (distinct : (xs.map key).Nodup) (each : ∀ x ∈ xs, (f x).Nodup ∧ ∀ y ∈ f x, home y = key x) :
    (xs.flatMap f).Nodup := by
  induction xs with
  | nil => exact List.nodup_nil
  | cons x rest ih =>
    rw [List.map_cons, List.nodup_cons] at distinct
    obtain ⟨new, distinct⟩ := distinct
    rw [List.flatMap_cons, List.nodup_append]
    refine ⟨(each x (List.mem_cons_self ..)).1, ih distinct (fun y later => each y (List.mem_cons_of_mem _ later)), ?_⟩
    intro y here z there same
    subst same
    obtain ⟨x', member, there⟩ := List.mem_flatMap.mp there
    have homes := ((each x (List.mem_cons_self ..)).2 y here).symm.trans
      ((each x' (List.mem_cons_of_mem _ member)).2 y there)
    exact new (homes ▸ List.mem_map_of_mem member)

omit [ShredLayout] in
theorem nodup_holes (tracked : Tracked m) :
    (m.fecDataMap.toList.flatMap m.seenHoles ++ (batchesBelow m.maxBatch).flatMap m.unseenHoles).Nodup := by
  rw [List.nodup_append]
  refine ⟨?_, ?_, ?_⟩
  · apply nodup_flatMap_of_home Prod.fst fecStart (Entries.nodup_keys m.fecDataMap)
    intro entry member
    have known : entry.1 ∈ m.fecDataMap := by
      rw [← TreeMap.isSome_getElem?_iff_mem, ← Entries.mem_keys]
      exact List.mem_map_of_mem member
    have aligned := tracked.aligned _ known
    unfold seenHoles
    split
    · simp
    · refine ⟨(nodup_batchIndices aligned).filter _, ?_⟩
      intro index listed
      exact (mem_batchIndices aligned).mp (List.mem_filter.mp listed).1
  · apply nodup_flatMap_of_home id fecStart (by simpa using nodup_batchesBelow m.maxBatch)
    intro f member
    have aligned := (mem_batchesBelow.mp member).1
    unfold unseenHoles
    split
    · simp
    · exact ⟨nodup_batchIndices aligned, fun index listed => (mem_batchIndices aligned).mp listed⟩
  · intro i seen j unseen same
    subst same
    exact (mem_unseenHoles.mp unseen).1 ((mem_seenHoles tracked).mp seen).1

omit [ShredLayout] in
/-- A FEC set data shreds were seen of lies within reach. -/
theorem fecDataMap_le_top (tracked : Tracked m) {f : UInt32} (known : f ∈ m.fecDataMap) :
    f ≤ fecStart m.maxInclusiveShred := by
  obtain ⟨index, held⟩ := tracked.held f known
  obtain ⟨home, below⟩ := tracked.within f index held
  rw [← home]
  exact fecStart_mono below

omit [ShredLayout] in
theorem exists_above_iff {f : UInt32} (absent : f ∉ m.fecDataMap) :
    (∃ g ∈ m.fecDataMap, f < g) ↔ ¬ ∀ g ∈ m.fecDataMap, g < f := by
  simp only [not_forall, exists_prop]
  refine exists_congr (fun g => and_congr_right (fun known => ?_))
  have other : f ≠ g := fun same => absent (same ▸ known)
  rw [ne_eq, ← UInt32.toNat_inj] at other
  rw [UInt32.lt_iff_toNat_lt, UInt32.lt_iff_toNat_lt]
  omega

omit [ShredLayout] in
theorem listsGaps_iff (tracked : Tracked m) : m.ListsGaps ↔ m.CodedOnTop := by
  have listed : m.ListsGaps ↔ ∀ index,
      ((fecStart index ∈ m.fecDataMap ∧ fecStart index ∉ m.completedBatches ∧
          index ∉ m.fecSet .data (fecStart index)) ∨
        (fecStart index ∉ m.fecDataMap ∧ ∃ g ∈ m.fecDataMap, fecStart index < g)) ↔ m.Gap index := by
    simp only [ListsGaps, calculateMissingShredsUnbounded_eq tracked, Option.some.injEq, exists_eq_left',
      nodup_holes tracked, true_and, List.mem_append, mem_seenHoles tracked, mem_unseenHoles]
  rw [listed]
  constructor
  · intro lists f aligned within absent
    have home : fecStart f = f := (fecStart_eq_iff aligned).mpr (by omega)
    have none_held : f ∉ m.fecSet .data f := by
      have missing : m.fecDataMap[f]? = none := TreeMap.getElem?_eq_none absent
      simp [fecSet, fecMap, missing]
    have here := lists f
    simp only [Gap, home, absent, within, none_held, false_and, false_or, not_false_eq_true, true_and,
      and_true] at here
    rw [← not_iff_not, ← here]
    exact exists_above_iff absent
  · intro coded index
    by_cases known : fecStart index ∈ m.fecDataMap
    · simp [Gap, known, fecDataMap_le_top tracked known]
    have missing : m.fecDataMap[fecStart index]? = none := TreeMap.getElem?_eq_none known
    have none_held : index ∉ m.fecSet .data (fecStart index) := by simp [fecSet, fecMap, missing]
    simp only [Gap, known, none_held, false_and, false_or, not_false_eq_true, true_and, and_true]
    by_cases within : fecStart index ≤ fecStart m.maxInclusiveShred
    · have here := coded _ (isFecStart_fecStart index) within known
      rw [here]
      simp only [within, true_and]
      exact exists_above_iff known
    · simp only [within, false_and, iff_false]
      rintro ⟨g, there, above⟩
      have reach := fecDataMap_le_top tracked there
      rw [UInt32.le_iff_toNat_le] at within reach
      rw [UInt32.lt_iff_toNat_lt] at above
      omega

end SlotMetadata

variable [ShredLayout]

/-- After any well-formed shreds the scan lists exactly the gaps if every FEC set seen without a data shred is completed
when it lies on top of the others, and not completed when it lies between them: the first kind is never asked for and
the second always. -/
theorem listsGaps_iff_codedOnTop (slot : UInt64) (createdMs : Nat) {arrivals : List Arrival}
    (formed : ∀ a ∈ arrivals, WellFormed a) :
    (slotRun slot createdMs arrivals).1.ListsGaps ↔ (slotRun slot createdMs arrivals).1.CodedOnTop :=
  listsGaps_iff (tracked_run slot createdMs formed)

omit [ShredLayout]

/-- A coding shred of slot 7 as it arrives off the wire. -/
def codingArrival (index fecSetIndex : UInt32) : Arrival where
  timestampMs := 0
  hdr := { shredVariant := .code, slot := 7, index, version := 1, fecSetIndex }
  shred := wireShred { shredVariant := .code, slot := 7, index, version := 1, fecSetIndex } 0

theorem listsGaps_iff_codedOnTop_batch :
    (@slotRun wireLayout 7 0 (dataBatch 0)).1.ListsGaps ↔ (@slotRun wireLayout 7 0 (dataBatch 0)).1.CodedOnTop :=
  @listsGaps_iff_codedOnTop wireLayout 7 0 (dataBatch 0) (by decide)

/-- The first data shred of the slot, then a coding shred of the next FEC set. -/
def codedAhead : List Arrival := [dataArrival 0 0 0, codingArrival 32 32]

/-- A FEC set seen through coding shreds only is not asked for. -/
theorem coded_set_not_asked_for :
    ¬ (@slotRun wireLayout 7 0 codedAhead).1.ListsGaps ∧
      (@slotRun wireLayout 7 0 codedAhead).1.requiredBatches = none ∧
      ∀ a ∈ codedAhead, WellFormed a ∧ wireLayout.commonHeader a.shred = some a.hdr := by
  refine ⟨?_, by decide, by decide⟩
  rintro ⟨holes, listed, -, lists⟩
  have asked : (@slotRun wireLayout 7 0 codedAhead).1.calculateMissingShredsUnbounded =
      some ((List.range 31).map (fun i => UInt32.ofNat (i + 1))) := by decide +kernel
  rw [asked, Option.some.injEq] at listed
  subst listed
  have gap : (@slotRun wireLayout 7 0 codedAhead).1.Gap 32 := by
    unfold Gap
    decide +kernel
  have absent := (lists 32).mpr gap
  revert absent
  decide

end Lightbringer.Store
