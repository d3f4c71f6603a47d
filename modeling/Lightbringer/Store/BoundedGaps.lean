import Lightbringer.Store.Gaps

/-!
# The gaps of a slot of known length

What `calculate_missing_shreds_bounded` lists once the last shred of the slot has been seen, against the data shreds
that were received.
-/

namespace Lightbringer.Store
open Std Machine Repair SlotMetadata

section

variable [ShredLayout]

/-- The shreds `store_shred` takes up: what comes after the slot counts as complete is dropped unseen. -/
def takenBy (m : SlotMetadata) : List Arrival → List Arrival
  | [] => []
  | a :: rest => if m.isComplete then [] else a :: takenBy (storeStep m a).1 rest

theorem takenBy_concat (m : SlotMetadata) (arrivals : List Arrival) (a : Arrival) :
    takenBy m (arrivals ++ [a]) =
      takenBy m arrivals ++ if (run storeStep m arrivals).1.isComplete then [] else [a] := by
  induction arrivals generalizing m with
  | nil => rfl
  | cons b rest ih =>
    cases done : m.isComplete with
    | true =>
      -- A finished entry stays as it is.
      have still : (run storeStep m (b :: rest)).1 = m :=
        run_invariant (P := fun current => current = m) rfl
          (fun current i same _ => by
            subst same
            simp [storeStep, storeShred_frozen done])
          (b :: rest) (meets_true _)
      simp only [List.cons_append, takenBy, still, done, if_true, List.append_nil]
    | false =>
      simp only [List.cons_append, takenBy, done, Bool.false_eq_true, if_false, ih]
      rfl

theorem takenBy_subset (m : SlotMetadata) (arrivals : List Arrival) : takenBy m arrivals ⊆ arrivals := by
  induction arrivals generalizing m with
  | nil => exact List.nil_subset _
  | cons b rest ih =>
    unfold takenBy
    split
    · exact List.nil_subset _
    · exact List.cons_subset_cons b (ih _)

/-- The entry counts the shreds it took up, whether it is finished or not. -/
theorem counted_taken (slot : UInt64) (createdMs : Nat) (arrivals : List Arrival) :
    Counted (takenBy (SlotMetadata.new slot createdMs) arrivals) (slotRun slot createdMs arrivals).1 := by
  induction arrivals using List.reverseRecOn with
  | nil => exact counted_new slot createdMs
  | append_singleton arrivals a ih =>
    unfold slotRun at ih ⊢
    rw [takenBy_concat, run_concat]
    cases done : (run storeStep (SlotMetadata.new slot createdMs) arrivals).1.isComplete with
    | true => simpa [storeStep, storeShred_frozen done] using ih
    | false => exact counted_step a ih done

/-- A data shred of the slot was taken up. -/
def Received (slot : UInt64) (createdMs : Nat) (arrivals : List Arrival) (index : UInt32) : Prop :=
  ∃ a ∈ takenBy (SlotMetadata.new slot createdMs) arrivals, a.id = (.data, index)

/-- As long as a FEC set is not completed, all that was received of it is tracked. -/
theorem mem_fecSet_iff_received (slot : UInt64) (createdMs : Nat) {arrivals : List Arrival}
    (formed : ∀ a ∈ arrivals, WellFormed a) {index : UInt32}
    (pending : fecStart index ∉ (slotRun slot createdMs arrivals).1.completedBatches) :
    index ∈ (slotRun slot createdMs arrivals).1.fecSet .data (fecStart index) ↔
      Received slot createdMs arrivals index := by
  have counted := ((counted_taken slot createdMs arrivals).pending _ pending).1
  rw [← mem_shredIds, counted]
  simp only [distinctIn, List.mem_toFinset, List.mem_map, List.mem_filter, decide_eq_true_eq, Received]
  constructor
  · rintro ⟨a, ⟨taken, -⟩, id⟩
    exact ⟨a, taken, id⟩
  · rintro ⟨a, taken, id⟩
    have home := (formed a (takenBy_subset _ _ taken)).2
    rw [show a.hdr.index = index from congrArg Prod.snd id] at home
    exact ⟨a, ⟨taken, home.symm⟩, id⟩

end

/-! ### What the scan lists -/

namespace SlotMetadata

/-- What the scan asks for of one FEC set. -/
def boundedHoles (m : SlotMetadata) (batch : UInt32) : List UInt32 :=
  if batch ∈ m.completedBatches then [] else holesIn batch (m.fecSet .data batch)

variable {m : SlotMetadata}

theorem calculateMissingShredsBounded_eq (tracked : Tracked m) (required : Nat) :
    m.calculateMissingShredsBounded required =
      some ((batchesBelow (UInt32.ofNat (required * dataShredsPerFecSet))).flatMap m.boundedHoles) := by
  unfold calculateMissingShredsBounded
  rw [mapM_eq_some (g := m.boundedHoles)]
  · rfl
  intro batch listed
  have aligned := (mem_batchesBelow.mp listed).1
  unfold boundedHoles
  split
  · rfl
  cases known : m.fecDataMap[batch]? with
  | none => simp [fecSet, fecMap, known, holesIn]
  | some shreds =>
    have here : m.fecSet .data batch = shreds := by simp [fecSet, fecMap, known]
    rw [here]
    exact unmasked_eq aligned (fun index member => (tracked.within batch index (here ▸ member)).1)

theorem mem_boundedHoles {batch index : UInt32} (aligned : IsFecStart batch) :
    index ∈ m.boundedHoles batch ↔
      fecStart index = batch ∧ batch ∉ m.completedBatches ∧ index ∉ m.fecSet .data batch := by
  unfold boundedHoles
  split
  next done => simp [done]
  next pending => simp [holesIn, mem_batchIndices aligned, pending]

theorem pairwise_batchIndices {batch : UInt32} (aligned : IsFecStart batch) :
    (batchIndices batch).Pairwise (· < ·) := by
  unfold batchIndices
  rw [List.pairwise_map]
  refine List.pairwise_lt_range.imp_of_mem ?_
  intro i j member member' below
  rw [UInt32.lt_iff_toNat_lt, toNat_add_index aligned (List.mem_range.mp member),
    toNat_add_index aligned (List.mem_range.mp member')]
  omega

theorem pairwise_batchesBelow (limit : UInt32) : (batchesBelow limit).Pairwise (· < ·) := by
  have bound := limit.toNat_lt
  unfold batchesBelow
  rw [List.pairwise_map]
  refine List.pairwise_lt_range.imp_of_mem ?_
  intro k l member member' below
  simp only [List.mem_range, dataShredsPerFecSet] at member member'
  rw [UInt32.lt_iff_toNat_lt, UInt32.toNat_ofNat', UInt32.toNat_ofNat']
  unfold dataShredsPerFecSet
  omega

theorem pairwise_boundedHoles (m : SlotMetadata) {batch : UInt32} (aligned : IsFecStart batch) :
    (m.boundedHoles batch).Pairwise (· < ·) := by
  unfold boundedHoles
  split
  · exact List.Pairwise.nil
  · exact (pairwise_batchIndices aligned).filter _

/-- FEC sets come in ascending order and do not overlap. -/
theorem pairwise_bounded (m : SlotMetadata) (limit : UInt32) :
    ((batchesBelow limit).flatMap m.boundedHoles).Pairwise (· < ·) := by
  rw [List.pairwise_flatMap]
  refine ⟨fun batch listed => m.pairwise_boundedHoles (mem_batchesBelow.mp listed).1, ?_⟩
  refine (pairwise_batchesBelow limit).imp_of_mem ?_
  intro batch later listed listed' below index here index' there
  have aligned := (mem_batchesBelow.mp listed).1
  have aligned' := (mem_batchesBelow.mp listed').1
  have place := (fecStart_eq_iff aligned).mp ((mem_boundedHoles aligned).mp here).1
  have place' := (fecStart_eq_iff aligned').mp ((mem_boundedHoles aligned').mp there).1
  unfold IsFecStart at aligned aligned'
  rw [UInt32.lt_iff_toNat_lt] at below ⊢
  omega

/-- Below `32 * required`, not among the received, and of a FEC set that is not completed. -/
def Missing (m : SlotMetadata) (required : Nat) (received : UInt32 → Prop) (index : UInt32) : Prop :=
  index.toNat < 32 * required ∧ ¬ received index ∧ fecStart index ∉ m.completedBatches

/-- The scan lists the missing indices in ascending order, and none iff each FEC set is completed or all there. -/
def ListsMissing (m : SlotMetadata) (required : Nat) (received : UInt32 → Prop) : Prop :=
  ∃ indices, m.calculateMissingShreds = some (.missingBoundedShreds m.slotNum indices) ∧
    indices.Pairwise (· < ·) ∧ indices.Nodup ∧
    (∀ index, index ∈ indices ↔ m.Missing required received index) ∧
    (indices = [] ↔ ∀ batch, IsFecStart batch → batch.toNat < 32 * required →
      batch ∈ m.completedBatches ∨ ∀ index, fecStart index = batch → received index)

theorem none_missing_iff {required : Nat} {received : UInt32 → Prop} :
    (∀ index, ¬ m.Missing required received index) ↔
      ∀ batch, IsFecStart batch → batch.toNat < 32 * required →
        batch ∈ m.completedBatches ∨ ∀ index, fecStart index = batch → received index := by
  constructor
  · intro none_missing batch aligned below
    by_cases done : batch ∈ m.completedBatches
    · exact .inl done
    refine .inr (fun index home => ?_)
    by_contra unseen
    have place := (fecStart_eq_iff aligned).mp home
    unfold IsFecStart at aligned
    exact none_missing index ⟨by omega, unseen, home ▸ done⟩
  · rintro whole index ⟨below, unseen, pending⟩
    have start := toNat_fecStart index
    obtain done | all := whole (fecStart index) (isFecStart_fecStart index) (by omega)
    · exact pending done
    · exact unseen (all index rfl)

theorem listsMissing_iff {required : Nat} {received : UInt32 → Prop} (tracked : Tracked m)
    (known : m.requiredBatches = some required)
    (recorded : ∀ index, fecStart index ∉ m.completedBatches →
      (index ∈ m.fecSet .data (fecStart index) ↔ received index))
    (bounded : 32 * required ≤ 2 ^ 32) :
    m.ListsMissing required received ↔
      32 * required < 2 ^ 32 ∨ ∀ index, ¬ m.Missing required received index := by
  have listed : ∀ index, index ∈ (batchesBelow (UInt32.ofNat (required * dataShredsPerFecSet))).flatMap m.boundedHoles ↔
      fecStart index < UInt32.ofNat (required * dataShredsPerFecSet) ∧ ¬ received index ∧
        fecStart index ∉ m.completedBatches := by
    intro index
    rw [List.mem_flatMap]
    constructor
    · rintro ⟨batch, below, here⟩
      obtain ⟨aligned, below⟩ := mem_batchesBelow.mp below
      obtain ⟨rfl, pending, absent⟩ := (mem_boundedHoles aligned).mp here
      exact ⟨below, fun seen => absent ((recorded index pending).mpr seen), pending⟩
    · rintro ⟨below, unseen, pending⟩
      have aligned := isFecStart_fecStart index
      refine ⟨fecStart index, mem_batchesBelow.mpr ⟨aligned, below⟩, (mem_boundedHoles aligned).mpr ?_⟩
      exact ⟨rfl, pending, fun held => unseen ((recorded index pending).mp held)⟩
  have ascending := m.pairwise_bounded (UInt32.ofNat (required * dataShredsPerFecSet))
  simp only [ListsMissing, calculateMissingShreds, known, calculateMissingShredsBounded_eq tracked, Option.map_some,
    Option.some.injEq, RepairReq.missingBoundedShreds.injEq, true_and, exists_eq_left']
  constructor
  · rintro ⟨-, -, exact_list, -⟩
    by_cases small : 32 * required < 2 ^ 32
    · exact .inl small
    -- The limit has wrapped to zero: nothing is listed, so nothing may be missing.
    refine .inr (fun index missing => ?_)
    have wrapped : UInt32.ofNat (required * dataShredsPerFecSet) = 0 := by
      rw [← UInt32.toNat_inj, UInt32.toNat_ofNat']
      unfold dataShredsPerFecSet
      simp only [UInt32.toNat_zero]
      omega
    have below := ((listed index).mp ((exact_list index).mpr missing)).1
    rw [wrapped] at below
    simp at below
  · intro holds
    have exact_list : ∀ index,
        index ∈ (batchesBelow (UInt32.ofNat (required * dataShredsPerFecSet))).flatMap m.boundedHoles ↔
          m.Missing required received index := by
      intro index
      rw [listed, Missing]
      obtain small | none_missing := holds
      · have limit : (UInt32.ofNat (required * dataShredsPerFecSet)).toNat = 32 * required := by
          rw [UInt32.toNat_ofNat']
          unfold dataShredsPerFecSet
          omega
        have start := toNat_fecStart index
        rw [UInt32.lt_iff_toNat_lt, limit]
        refine and_congr_left (fun _ => ?_)
        omega
      · refine iff_of_false ?_ (none_missing index)
        rintro ⟨below, rest⟩
        refine none_missing index ⟨?_, rest⟩
        have start := toNat_fecStart index
        have wrap := Nat.mod_le (required * 32) (2 ^ 32)
        rw [UInt32.lt_iff_toNat_lt, UInt32.toNat_ofNat'] at below
        unfold dataShredsPerFecSet at below
        omega
    refine ⟨ascending, ascending.imp (fun below same => ?_), exact_list, ?_⟩
    · subst same
      simp at below
    · rw [List.eq_nil_iff_forall_not_mem, ← none_missing_iff]
      exact forall_congr' (fun index => not_congr (exact_list index))

end SlotMetadata

variable [ShredLayout]

/-- After any well-formed shreds the bounded scan is exact as long as the end of the slot fits in a `u32`: for the last
FEC set of all the limit wraps to zero, and nothing is asked for. -/
theorem listsMissing_iff_fits (slot : UInt64) (createdMs : Nat) {arrivals : List Arrival}
    (formed : ∀ a ∈ arrivals, WellFormed a) {required : Nat}
    (known : (slotRun slot createdMs arrivals).1.requiredBatches = some required) (bounded : 32 * required ≤ 2 ^ 32) :
    (slotRun slot createdMs arrivals).1.ListsMissing required (Received slot createdMs arrivals) ↔
      32 * required < 2 ^ 32 ∨
        ∀ index, ¬ (slotRun slot createdMs arrivals).1.Missing required (Received slot createdMs arrivals) index :=
  listsMissing_iff (tracked_run slot createdMs formed) known
    (fun _ pending => mem_fecSet_iff_received slot createdMs formed pending) bounded

omit [ShredLayout]

theorem listsMissing_iff_fits_first :
    (@slotRun wireLayout 7 0 [dataArrival 3 0 0xc0]).1.ListsMissing 1
        (@Received wireLayout 7 0 [dataArrival 3 0 0xc0]) ↔
      32 * 1 < 2 ^ 32 ∨ ∀ index, ¬ (@slotRun wireLayout 7 0 [dataArrival 3 0 0xc0]).1.Missing 1
        (@Received wireLayout 7 0 [dataArrival 3 0 0xc0]) index :=
  @listsMissing_iff_fits wireLayout 7 0 [dataArrival 3 0 0xc0] (by decide) 1 (by decide) (by decide)

/-- One shred of the last FEC set a `u32` can name, flagged last-in-slot. -/
def lastOfAll : List Arrival := [dataArrival 4294967295 4294967264 0xc0]

/-- The slot has 2^27 FEC sets, one shred came in, and the list of missing shreds is empty. -/
theorem last_fec_set_lists_nothing :
    (@slotRun wireLayout 7 0 lastOfAll).1.requiredBatches = some (2 ^ 27) ∧
      (@slotRun wireLayout 7 0 lastOfAll).1.calculateMissingShreds = some (.missingBoundedShreds 7 []) ∧
      ¬ (@slotRun wireLayout 7 0 lastOfAll).1.ListsMissing (2 ^ 27) (@Received wireLayout 7 0 lastOfAll) ∧
      ∀ a ∈ lastOfAll, WellFormed a ∧ wireLayout.commonHeader a.shred = some a.hdr := by
  have nothing : (@slotRun wireLayout 7 0 lastOfAll).1.calculateMissingShreds = some (.missingBoundedShreds 7 []) := by
    decide
  refine ⟨by decide, nothing, ?_, by decide⟩
  rintro ⟨indices, listed, -, -, exact_list, -⟩
  rw [nothing, Option.some.injEq, RepairReq.missingBoundedShreds.injEq] at listed
  obtain ⟨-, rfl⟩ := listed
  have missing : (@slotRun wireLayout 7 0 lastOfAll).1.Missing (2 ^ 27) (@Received wireLayout 7 0 lastOfAll) 0 := by
    refine ⟨by decide, ?_, by decide⟩
    rintro ⟨a, taken, id⟩
    have only := List.mem_singleton.mp (@takenBy_subset wireLayout _ lastOfAll a taken)
    subst only
    revert id
    decide
  exact absurd ((exact_list 0).mpr missing) List.not_mem_nil

end Lightbringer.Store
