import Lightbringer.Store.SlotMeta
import Lightbringer.Lib.Machine
import Mathlib.Data.Finset.Dedup

/-!
# The life of a slot entry

Every sequence of `store_shred` calls on one entry of the slot cache: which FEC sets are handed to the
store, what is drained when the slot completes, and when completion means that the slot is whole.
-/

namespace Lightbringer.Store
open Std Machine SlotMetadata

/-- One call of `store_shred` on the entry, with the clock it reads. -/
structure Arrival where
  timestampMs : Nat
  hdr : ShredCommonHeader
  shred : PacketInfo
  deriving DecidableEq

def Arrival.fec (a : Arrival) : UInt32 := a.hdr.fecSetIndex

def Arrival.id (a : Arrival) : ShredType × UInt32 := (a.hdr.shredVariant, a.hdr.index)

/-- What a call did: whether the shred entered the FEC maps, and what was returned. -/
structure Stored where
  arrival : Arrival
  recorded : Bool
  result : SlotMetaStoreRes
  deriving DecidableEq

section

variable [ShredLayout]

def storeStep (m : SlotMetadata) (a : Arrival) : SlotMetadata × List Stored :=
  let (after, result) := m.storeShred a.timestampMs a.hdr a.shred
  (after, [{ arrival := a
             recorded := decide (a.id ∈ after.shredIds a.fec ∧ a.id ∉ m.shredIds a.fec)
             result }])

/-- The life of the entry created for `slot`. -/
def slotRun (slot : UInt64) (createdMs : Nat) (arrivals : List Arrival) : SlotMetadata × List Stored :=
  run storeStep (SlotMetadata.new slot createdMs) arrivals

/-! ### What one call can do -/

namespace SlotMetadata

variable (m : SlotMetadata) (a : Arrival)

/-- A FEC set that holds enough shreds is completed. -/
def closeBatch (m : SlotMetadata) (f : UInt32) : SlotMetadata :=
  if dataShredsPerFecSet ≤ m.batchCount f then { m with completedBatches := insert f m.completedBatches }
  else m

/-- The entry after a shred that was not seen before, before any drain. -/
def absorb : SlotMetadata :=
  ((m.learnRequired a.hdr a.shred).record a.timestampMs a.hdr a.shred).closeBatch a.fec

/-- The batch such a shred hands to the store: its FEC set if that is now completed, else nothing. -/
def closedShreds : List PacketInfo :=
  if dataShredsPerFecSet ≤ (m.absorb a).batchCount a.fec then ((m.absorb a).batchShreds[a.fec]?).getD []
  else []

/-- `Late` shreds belong to a completed FEC set. -/
def Late : Prop := a.fec ∈ m.completedBatches

/-- `Fresh` shreds are recorded. -/
def Fresh : Prop := a.fec ∉ m.completedBatches ∧ a.id ∉ m.shredIds a.fec

variable {m a}

theorem storeShred_frozen (done : m.isComplete = true) :
    m.storeShred a.timestampMs a.hdr a.shred = (m, .ignored) := by
  simp [storeShred, done]

theorem storeShred_late (unfinished : m.isComplete = false) (late : m.Late a) :
    m.storeShred a.timestampMs a.hdr a.shred =
      if (m.learnRequired a.hdr a.shred).isComplete then
        (m.learnRequired a.hdr a.shred).makeComplete { shreds := [], slot := a.hdr.slot }
      else (m.learnRequired a.hdr a.shred, .ignored) := by
  have member : a.hdr.fecSetIndex ∈ m.completedBatches := late
  simp [storeShred, unfinished, member]

theorem storeShred_duplicate (unfinished : m.isComplete = false) (early : ¬ m.Late a)
    (seen : a.id ∈ m.shredIds a.fec) :
    m.storeShred a.timestampMs a.hdr a.shred = (m.learnRequired a.hdr a.shred, .ignored) := by
  have absent : a.hdr.fecSetIndex ∉ m.completedBatches := early
  have present : a.hdr.index ∈ m.fecSet a.hdr.shredVariant a.hdr.fecSetIndex := (mem_shredIds ..).mp seen
  simp [storeShred, unfinished, absent, present]

omit [ShredLayout] in
@[simp] theorem closeBatch_batchCount (m : SlotMetadata) (f g : UInt32) :
    (m.closeBatch f).batchCount g = m.batchCount g := by
  unfold closeBatch
  split <;> rfl

omit [ShredLayout] in
@[simp] theorem closeBatch_batchShreds (m : SlotMetadata) (f : UInt32) :
    (m.closeBatch f).batchShreds = m.batchShreds := by
  unfold closeBatch
  split <;> rfl

omit [ShredLayout] in
@[simp] theorem closeBatch_shredIds (m : SlotMetadata) (f g : UInt32) :
    (m.closeBatch f).shredIds g = m.shredIds g := by
  unfold closeBatch
  split <;> rfl

omit [ShredLayout] in
@[simp] theorem closeBatch_requiredBatches (m : SlotMetadata) (f : UInt32) :
    (m.closeBatch f).requiredBatches = m.requiredBatches := by
  unfold closeBatch
  split <;> rfl

theorem storeShred_fresh (unfinished : m.isComplete = false) (fresh : m.Fresh a) :
    m.storeShred a.timestampMs a.hdr a.shred =
      if (m.absorb a).isComplete then
        (m.absorb a).makeComplete { shreds := m.closedShreds a, slot := a.hdr.slot }
      else if dataShredsPerFecSet ≤ (m.absorb a).batchCount a.fec then
        (m.absorb a, .batchComplete { shreds := m.closedShreds a, slot := a.hdr.slot })
      else (m.absorb a, .incomplete) := by
  have absent : a.hdr.fecSetIndex ∉ m.completedBatches := fresh.1
  have unseen : a.hdr.index ∉ m.fecSet a.hdr.shredVariant a.hdr.fecSetIndex :=
    fun present => fresh.2 ((mem_shredIds ..).mpr present)
  unfold storeShred closedShreds absorb
  rw [closeBatch_batchCount, closeBatch_batchShreds]
  simp only [unfinished, absent, unseen, learnRequired_completedBatches, learnRequired_fecSet, if_false,
    Bool.false_eq_true, Arrival.fec, closeBatch]
  generalize (m.learnRequired a.hdr a.shred).record a.timestampMs a.hdr a.shred = recorded
  by_cases full : dataShredsPerFecSet ≤ recorded.batchCount a.hdr.fecSetIndex
  · simp only [full, if_true]
  · simp only [full, if_false]

variable (m a)

theorem absorb_shredIds (f : UInt32) :
    (m.absorb a).shredIds f = if a.fec = f then insert a.id (m.shredIds f) else m.shredIds f := by
  rw [absorb, closeBatch_shredIds, shredIds_record, learnRequired_shredIds]
  rfl

theorem absorb_completedBatches :
    (m.absorb a).completedBatches =
      if dataShredsPerFecSet ≤ (m.absorb a).batchCount a.fec then insert a.fec m.completedBatches
      else m.completedBatches := by
  simp only [absorb, closeBatch_batchCount]
  unfold closeBatch
  split <;> simp

theorem absorb_requiredBatches :
    (m.absorb a).requiredBatches =
      if lastInSlot a.hdr a.shred then some (batchesUpTo a.fec) else m.requiredBatches := by
  simp [absorb, learnRequired_requiredBatches, Arrival.fec]

theorem absorb_batchShreds :
    (m.absorb a).batchShreds =
      m.batchShreds.insert a.fec ((m.batchShreds[a.fec]?).getD [] ++ [a.shred]) := by
  simp [absorb, Arrival.fec]

end SlotMetadata

/-! ### Counting what arrived -/

/-- The distinct shreds of a FEC set among the arrivals. -/
def distinctIn (arrivals : List Arrival) (f : UInt32) : Finset (ShredType × UInt32) :=
  ((arrivals.filter (·.fec = f)).map Arrival.id).toFinset

/-- The number of batches the last arrival flagged last-in-slot announces. -/
def announced (arrivals : List Arrival) : Option Nat :=
  arrivals.foldl
    (fun known a => if lastInSlot a.hdr a.shred then some (batchesUpTo a.fec) else known) none

omit [ShredLayout] in
theorem distinctIn_concat (arrivals : List Arrival) (a : Arrival) (f : UInt32) :
    distinctIn (arrivals ++ [a]) f =
      if a.fec = f then insert a.id (distinctIn arrivals f) else distinctIn arrivals f := by
  by_cases same : a.fec = f
  · ext id
    simp [distinctIn, same]
  · simp [distinctIn, same]

theorem announced_concat (arrivals : List Arrival) (a : Arrival) :
    announced (arrivals ++ [a]) =
      if lastInSlot a.hdr a.shred then some (batchesUpTo a.fec) else announced arrivals := by
  simp [announced]

theorem announced_le (arrivals : List Arrival) {required : Nat} (h : announced arrivals = some required) :
    required ≤ 2 ^ 27 := by
  induction arrivals using List.reverseRecOn with
  | nil => simp [announced] at h
  | append_singleton arrivals a ih =>
    rw [announced_concat] at h
    split at h
    · have bound := a.fec.toNat_lt
      simp only [Option.some.injEq, batchesUpTo, dataShredsPerFecSet] at h
      omega
    · exact ih h

/-- While the slot is unfinished the entry counts what arrived: an uncompleted FEC set holds every shred of it that
came in, and a completed one at least 32 of them. -/
structure Counted (arrivals : List Arrival) (m : SlotMetadata) : Prop where
  required : m.requiredBatches = announced arrivals
  pending : ∀ f ∉ m.completedBatches,
    m.shredIds f = distinctIn arrivals f ∧ (m.shredIds f).card < dataShredsPerFecSet
  closed : ∀ f ∈ m.completedBatches,
    m.shredIds f ⊆ distinctIn arrivals f ∧ dataShredsPerFecSet ≤ (m.shredIds f).card

theorem counted_new (slot : UInt64) (createdMs : Nat) : Counted [] (SlotMetadata.new slot createdMs) := by
  refine ⟨rfl, fun f _ => ⟨rfl, ?_⟩, ?_⟩
  · exact (by decide : 0 < dataShredsPerFecSet)
  · intro f member
    simp [SlotMetadata.new] at member

/-- A shred that is not recorded, because its batch is completed or it was seen before. -/
theorem counted_skip {arrivals : List Arrival} {m : SlotMetadata} {a : Arrival} (held : Counted arrivals m)
    (known : m.Late a ∨ a.id ∈ m.shredIds a.fec) :
    Counted (arrivals ++ [a]) (m.learnRequired a.hdr a.shred) := by
  refine ⟨?_, ?_, ?_⟩
  · rw [learnRequired_requiredBatches, announced_concat, held.required]
    rfl
  · intro f absent
    rw [learnRequired_completedBatches] at absent
    obtain ⟨same, small⟩ := held.pending f absent
    rw [learnRequired_shredIds, distinctIn_concat]
    refine ⟨?_, small⟩
    split
    next here =>
      subst here
      have seen : a.id ∈ m.shredIds a.fec := known.resolve_left absent
      rw [← same, Finset.insert_eq_of_mem seen]
    next => exact same
  · intro f member
    rw [learnRequired_completedBatches] at member
    obtain ⟨within, large⟩ := held.closed f member
    rw [learnRequired_shredIds, distinctIn_concat]
    refine ⟨within.trans ?_, large⟩
    split
    · exact Finset.subset_insert _ _
    · exact Finset.Subset.refl _

theorem counted_absorb {arrivals : List Arrival} {m : SlotMetadata} {a : Arrival} (held : Counted arrivals m)
    (fresh : m.Fresh a) : Counted (arrivals ++ [a]) (m.absorb a) := by
  have here : (m.absorb a).shredIds a.fec = distinctIn (arrivals ++ [a]) a.fec := by
    rw [absorb_shredIds, distinctIn_concat, if_pos rfl, if_pos rfl, (held.pending _ fresh.1).1]
  have elsewhere : ∀ f, a.fec ≠ f → (m.absorb a).shredIds f = m.shredIds f ∧
      distinctIn (arrivals ++ [a]) f = distinctIn arrivals f ∧
      (f ∈ (m.absorb a).completedBatches ↔ f ∈ m.completedBatches) := by
    intro f other
    refine ⟨by rw [absorb_shredIds, if_neg other], by rw [distinctIn_concat, if_neg other], ?_⟩
    rw [absorb_completedBatches]
    split
    · simp [Ne.symm other]
    · rfl
  have completed : a.fec ∈ (m.absorb a).completedBatches ↔
      dataShredsPerFecSet ≤ ((m.absorb a).shredIds a.fec).card := by
    rw [absorb_completedBatches, card_shredIds]
    split
    next full => simp [full]
    next short => simp [short, fresh.1]
  refine ⟨?_, ?_, ?_⟩
  · rw [absorb_requiredBatches, announced_concat, held.required]
  · intro f absent
    by_cases same : a.fec = f
    · subst same
      exact ⟨here, Nat.lt_of_not_le (fun full => absent (completed.mpr full))⟩
    · obtain ⟨ids, arrived, closed⟩ := elsewhere f same
      rw [ids, arrived]
      exact held.pending f (fun member => absent (closed.mpr member))
  · intro f member
    by_cases same : a.fec = f
    · subst same
      exact ⟨here.subset, completed.mp member⟩
    · obtain ⟨ids, arrived, closed⟩ := elsewhere f same
      rw [ids, arrived]
      exact held.closed f (closed.mp member)

/-- While the entry is unfinished a call keeps the count. -/
theorem counted_step {arrivals : List Arrival} {m : SlotMetadata} (a : Arrival) (held : Counted arrivals m)
    (unfinished : m.isComplete = false) :
    Counted (arrivals ++ [a]) (m.storeShred a.timestampMs a.hdr a.shred).1 := by
  by_cases late : m.Late a
  · rw [storeShred_late unfinished late]
    have kept := counted_skip held (.inl late)
    split
    · exact ⟨kept.required, kept.pending, kept.closed⟩
    · exact kept
  by_cases seen : a.id ∈ m.shredIds a.fec
  · rw [storeShred_duplicate unfinished late seen]
    exact counted_skip held (.inr seen)
  rw [storeShred_fresh unfinished ⟨late, seen⟩]
  have kept := counted_absorb held ⟨late, seen⟩
  split
  · exact ⟨kept.required, kept.pending, kept.closed⟩
  split
  · exact kept
  · exact kept

theorem counted_run (slot : UInt64) (createdMs : Nat) (arrivals : List Arrival)
    (unfinished : (slotRun slot createdMs arrivals).1.isComplete = false) :
    Counted arrivals (slotRun slot createdMs arrivals).1 := by
  refine run_history (P := fun xs m _ => m.isComplete = false → Counted xs m)
    (fun _ => counted_new slot createdMs) ?_ arrivals (meets_true arrivals) unfinished
  intro xs m out a held _ unfinished
  cases before : m.isComplete with
  | true =>
    -- A finished entry never changes, so it would still be finished.
    have frozen : (storeStep m a).1 = m := by simp [storeStep, storeShred_frozen before]
    rw [frozen, before] at unfinished
    cases unfinished
  | false => exact counted_step a (held before) before

theorem storeShred_completes {m after : SlotMetadata} {a : Arrival} {storeBatch : BatchRaw}
    {grpcSlot : SlotRaw}
    (h : m.storeShred a.timestampMs a.hdr a.shred = (after, .complete storeBatch grpcSlot)) :
    m.isComplete = false ∧ after.isComplete = true := by
  cases before : m.isComplete with
  | true =>
    rw [storeShred_frozen before] at h
    cases h
  | false =>
    refine ⟨rfl, ?_⟩
    by_cases late : m.Late a
    · rw [storeShred_late before late] at h
      split at h
      next done =>
        rw [makeComplete_eq] at h
        cases h
        exact done
      next => cases h
    by_cases seen : a.id ∈ m.shredIds a.fec
    · rw [storeShred_duplicate before late seen] at h
      cases h
    rw [storeShred_fresh before ⟨late, seen⟩] at h
    split at h
    next done =>
      rw [makeComplete_eq] at h
      cases h
      exact done
    next => split at h <;> cases h

/-! ### When completion means a whole slot -/

def fecIndexOf (k : Nat) : UInt32 := UInt32.ofNat (dataShredsPerFecSet * k)

omit [ShredLayout] in
theorem fecIndexOf_injOn {k l : Nat} (boundK : k < 2 ^ 27) (boundL : l < 2 ^ 27)
    (same : fecIndexOf k = fecIndexOf l) : k = l := by
  have values := congrArg UInt32.toNat same
  simp only [fecIndexOf, dataShredsPerFecSet, UInt32.toNat_ofNat'] at values
  omega

/-- Whenever the call returns `Complete`, each FEC set `0, 32, ..` below the required count has its 32 distinct shreds. -/
def CompleteIsWhole (slot : UInt64) (createdMs : Nat) (arrivals : List Arrival) (a : Arrival) : Prop :=
  ∀ after storeBatch grpcSlot,
    (slotRun slot createdMs arrivals).1.storeShred a.timestampMs a.hdr a.shred =
      (after, .complete storeBatch grpcSlot) →
    ∃ required, after.requiredBatches = some required ∧
      ∀ k < required, dataShredsPerFecSet ≤ after.batchCount (fecIndexOf k)

/-- No FEC set outside `0, 32, ..` below the announced count ever gathers 32 distinct shreds. -/
def Aligned (arrivals : List Arrival) : Prop :=
  ∀ f, dataShredsPerFecSet ≤ (distinctIn arrivals f).card →
    ∃ k < (announced arrivals).getD 0, f = fecIndexOf k

omit [ShredLayout] in
theorem whole_iff_within {completed : Finset UInt32} {required : Nat} (count : completed.card = required)
    (bound : required ≤ 2 ^ 27) :
    (∀ k < required, fecIndexOf k ∈ completed) ↔ ∀ f ∈ completed, ∃ k < required, f = fecIndexOf k := by
  let expected := (Finset.range required).image fecIndexOf
  have size : expected.card = required := by
    rw [Finset.card_image_of_injOn, Finset.card_range]
    intro k member l other same
    have boundK := Finset.mem_range.mp member
    have boundL := Finset.mem_range.mp other
    exact fecIndexOf_injOn (by omega) (by omega) same
  constructor
  · intro present f member
    have within : expected ⊆ completed := by
      intro g image
      obtain ⟨k, below, rfl⟩ := Finset.mem_image.mp image
      exact present k (Finset.mem_range.mp below)
    rw [← Finset.eq_of_subset_of_card_le within (by omega)] at member
    obtain ⟨k, below, rfl⟩ := Finset.mem_image.mp member
    exact ⟨k, Finset.mem_range.mp below, rfl⟩
  · intro aligned k below
    have within : completed ⊆ expected := by
      intro f member
      obtain ⟨l, small, rfl⟩ := aligned f member
      exact Finset.mem_image.mpr ⟨l, Finset.mem_range.mpr small, rfl⟩
    rw [Finset.eq_of_subset_of_card_le within (by omega)]
    exact Finset.mem_image.mpr ⟨k, Finset.mem_range.mpr below, rfl⟩

theorem completed_iff_distinct {arrivals : List Arrival} {m : SlotMetadata} (held : Counted arrivals m)
    (f : UInt32) :
    f ∈ m.completedBatches ↔ dataShredsPerFecSet ≤ (distinctIn arrivals f).card := by
  constructor
  · intro member
    obtain ⟨within, large⟩ := held.closed f member
    exact large.trans (Finset.card_le_card within)
  · intro large
    by_contra absent
    obtain ⟨same, small⟩ := held.pending f absent
    rw [same] at small
    omega

theorem completed_iff_counted {arrivals : List Arrival} {m : SlotMetadata} (held : Counted arrivals m)
    (f : UInt32) : f ∈ m.completedBatches ↔ dataShredsPerFecSet ≤ m.batchCount f := by
  rw [← card_shredIds]
  constructor
  · exact fun member => (held.closed f member).2
  · intro large
    by_contra absent
    have small := (held.pending f absent).2
    omega

/-- A call that returns `Complete` leaves a whole slot exactly when the batches that filled up were the expected ones:
completion compares two numbers, and FEC set indices are keys that are never checked. -/
theorem complete_whole_iff_aligned (slot : UInt64) (createdMs : Nat) (arrivals : List Arrival) (a : Arrival)
    {after : SlotMetadata} {storeBatch : BatchRaw} {grpcSlot : SlotRaw}
    (h : (slotRun slot createdMs arrivals).1.storeShred a.timestampMs a.hdr a.shred =
      (after, .complete storeBatch grpcSlot)) :
    CompleteIsWhole slot createdMs arrivals a ↔ Aligned (arrivals ++ [a]) := by
  obtain ⟨unfinished, done⟩ := storeShred_completes h
  have held := counted_step a (counted_run slot createdMs arrivals unfinished) unfinished
  rw [h] at held
  have count : announced (arrivals ++ [a]) = some after.completedBatches.card := by
    rw [← held.required]
    exact (beq_iff_eq.mp done).symm
  have bound := announced_le _ count
  have aligned : Aligned (arrivals ++ [a]) ↔
      ∀ f ∈ after.completedBatches, ∃ k < after.completedBatches.card, f = fecIndexOf k := by
    simp only [Aligned, count, Option.getD_some, completed_iff_distinct held]
  rw [aligned, ← whole_iff_within rfl bound]
  constructor
  · intro whole k below
    obtain ⟨required, known, filled⟩ := whole after storeBatch grpcSlot h
    rw [held.required, count] at known
    cases known
    exact (completed_iff_counted held _).mpr (filled k below)
  · intro present after' _ _ same
    rw [h] at same
    cases same
    refine ⟨after.completedBatches.card, held.required.trans count, ?_⟩
    intro k below
    exact (completed_iff_counted held _).mp (present k below)

end

/-- A data shred of slot 7 as it arrives off the wire. -/
def dataArrival (index fecSetIndex : UInt32) (flags : UInt8) : Arrival where
  timestampMs := 0
  hdr := { shredVariant := .data, slot := 7, index, version := 1, fecSetIndex }
  shred := wireShred { shredVariant := .data, slot := 7, index, version := 1, fecSetIndex } flags

/-- The 32 data shreds of a FEC set, none flagged. -/
def dataBatch (fecSetIndex : UInt32) : List Arrival :=
  (List.range 32).map (fun i => dataArrival (fecSetIndex + UInt32.ofNat i) fecSetIndex 0)

theorem complete_whole_iff_aligned_batch :
    @CompleteIsWhole wireLayout 7 0 (dataBatch 0) (dataArrival 3 0 0xc0) ↔
      @Aligned wireLayout (dataBatch 0 ++ [dataArrival 3 0 0xc0]) :=
  @complete_whole_iff_aligned wireLayout 7 0 (dataBatch 0) (dataArrival 3 0 0xc0) _ _ _ (Prod.ext rfl rfl)

/-- A FEC set with the unaligned index 1 fills up, then the first shred of FEC set 0 comes flagged last-in-slot. -/
theorem misaligned_batch_completes :
    ¬ @CompleteIsWhole wireLayout 7 0 (dataBatch 1) (dataArrival 0 0 0xc0) ∧
      ∀ a ∈ dataBatch 1 ++ [dataArrival 0 0 0xc0], wireLayout.commonHeader a.shred = some a.hdr := by
  refine ⟨?_, by decide⟩
  intro whole
  obtain ⟨required, known, filled⟩ := whole _ _ _ (Prod.ext rfl rfl)
  have one : some 1 = some required := by
    rw [← known]
    decide
  cases one
  have short := filled 0 Nat.one_pos
  revert short
  decide

end Lightbringer.Store
