import Lightbringer.Alpenglow.ArrivalOrder
import Lightbringer.Store.ShredStore
import Lightbringer.Store.SlotEmission
import Lightbringer.Util.Deshred

/-!
# Storing a batch

`ShredStore::store_batch`: the shreds of a FEC set are deserialized, missing data shreds recovered where there are fewer
than 32, and the data shreds written in one commit. A recovery that fails is passed over.
-/

namespace Lightbringer.Store
open Std Alpenglow Util SlotMetadata

/-- How the database answers a commit and the sync after it. -/
structure Disk where
  commit : Except FjallError Unit
  persist : Except FjallError Unit

inductive StoreError where
  | anyhow (text : String)
  | fjall (e : FjallError)

structure BatchStored where
  shredKeyspace : TreeMap Nat ShredInfoView
  /-- The slots given to `push_lowest_slot`. -/
  pushedLowest : List UInt64
  result : Except StoreError Unit

def dataCount (shreds : List Shred) : Nat := (dataOf shreds).length

/-- A recovered data shred is added unless its index is there. -/
def pushMissing (shreds : List Shred) (recovered : Shred) : List Shred :=
  if recovered.shredType = .data ∧ ¬ shreds.any (fun shred => shred.shredType = .data ∧ shred.index = recovered.index) then
    shreds ++ [recovered]
  else shreds

def writeBatch (slot : UInt64) (entries : TreeMap Nat ShredInfoView) (shreds : List Shred) : TreeMap Nat ShredInfoView :=
  (dataOf shreds).foldl (fun entries shred => entries.insert (makeKey slot shred.index) shred.payload) entries

section

variable [SolanaLedger]

/-- Errors of the recovery, and of single shreds in it, are dropped. -/
def withRecovered (deserialized : List Shred) : List Shred :=
  if dataCount deserialized < 32 then
    match recoverShreds deserialized with
    | .ok recovered => (recovered.filterMap Except.toOption).foldl pushMissing deserialized
    | .error _ => deserialized
  else deserialized

def storeBatch (disk : Disk) (clusterInfo : Bool) (entries : TreeMap Nat ShredInfoView) (slot : UInt64)
    (shreds : List PacketInfo) : BatchStored :=
  match shreds.mapM parseShred with
  | .error text => ⟨entries, [], .error (.anyhow text)⟩
  | .ok deserialized =>
    match disk.commit with
    | .error e => ⟨entries, [], .error (.fjall e)⟩
    | .ok () =>
      let written := writeBatch slot entries (withRecovered deserialized)
      -- The commit is not taken back when the sync fails.
      match disk.persist with
      | .error e => ⟨written, [], .error (.fjall e)⟩
      | .ok () => ⟨written, if clusterInfo then [slot] else [], .ok ()⟩

end

/-! ### What is written -/

theorem mem_dataOf {shreds : List Shred} {shred : Shred} : shred ∈ dataOf shreds ↔ shred ∈ shreds ∧ shred.shredType = .data := by
  rw [dataOf, List.mem_filter, decide_eq_true_eq]

/-- The data shred of an index that a batch of writes ends with. -/
def lastAt (shreds : List Shred) (index : UInt32) : Option Shred :=
  (dataOf shreds).reverse.find? (fun shred => shred.index = index)

theorem lastAt_isSome {shreds : List Shred} {index : UInt32} :
    (lastAt shreds index).isSome ↔ ∃ shred ∈ dataOf shreds, shred.index = index := by
  simp [lastAt]

theorem getElem?_writeBatch (slot : UInt64) (entries : TreeMap Nat ShredInfoView) (shreds : List Shred) (index : UInt32) :
    (writeBatch slot entries shreds)[makeKey slot index]? =
      ((lastAt shreds index).map Shred.payload).or entries[makeKey slot index]? := by
  have keys : (fun shred : Shred => decide (makeKey slot shred.index = makeKey slot index)) =
      fun shred : Shred => decide (shred.index = index) := by
    funext shred
    refine decide_eq_decide.mpr ⟨fun same => (makeKey_inj same).2, fun same => by rw [same]⟩
  rw [writeBatch, Entries.getElem?_insertAll (fun shred : Shred => makeKey slot shred.index) Shred.payload, keys]
  rfl

theorem getElem?_writeBatch_other (slot : UInt64) (entries : TreeMap Nat ShredInfoView) (shreds : List Shred) {key : Nat}
    (other : ∀ index, makeKey slot index ≠ key) : (writeBatch slot entries shreds)[key]? = entries[key]? := by
  rw [writeBatch, Entries.getElem?_insertAll (fun shred : Shred => makeKey slot shred.index) Shred.payload]
  have missed : (dataOf shreds).reverse.find? (fun shred => decide (makeKey slot shred.index = key)) = none :=
    List.find?_eq_none.mpr (fun shred _ same => other shred.index (of_decide_eq_true same))
  rw [missed]
  rfl

theorem mem_pushMissing {shreds : List Shred} {recovered : Shred} {index : UInt32} :
    (∃ shred ∈ dataOf (pushMissing shreds recovered), shred.index = index) ↔
      (∃ shred ∈ dataOf shreds, shred.index = index) ∨ recovered.shredType = .data ∧ recovered.index = index := by
  unfold pushMissing
  split
  next missing =>
    constructor
    · rintro ⟨shred, member, same⟩
      obtain ⟨member, data⟩ := mem_dataOf.mp member
      rcases List.mem_append.mp member with member | added
      · exact .inl ⟨shred, mem_dataOf.mpr ⟨member, data⟩, same⟩
      · rw [List.mem_singleton.mp added] at data same
        exact .inr ⟨data, same⟩
    · rintro (⟨shred, member, same⟩ | ⟨data, same⟩)
      · obtain ⟨member, data⟩ := mem_dataOf.mp member
        exact ⟨shred, mem_dataOf.mpr ⟨List.mem_append_left _ member, data⟩, same⟩
      · exact ⟨recovered, mem_dataOf.mpr ⟨List.mem_append_right _ (List.mem_singleton_self _), data⟩, same⟩
  next known =>
    constructor
    · exact .inl
    · rintro (held | ⟨data, same⟩)
      · exact held
      · have present : shreds.any (fun shred => shred.shredType = .data ∧ shred.index = recovered.index) = true := by
          by_contra absent
          exact known ⟨data, absent⟩
        obtain ⟨shred, member, found⟩ := List.any_eq_true.mp present
        obtain ⟨data', same'⟩ := of_decide_eq_true found
        exact ⟨shred, mem_dataOf.mpr ⟨member, data'⟩, same'.trans same⟩

theorem mem_foldl_pushMissing {recovered shreds : List Shred} {index : UInt32} :
    (∃ shred ∈ dataOf (recovered.foldl pushMissing shreds), shred.index = index) ↔
      (∃ shred ∈ dataOf shreds, shred.index = index) ∨ ∃ shred ∈ dataOf recovered, shred.index = index := by
  induction recovered generalizing shreds with
  | nil => simp [dataOf]
  | cons first rest ih =>
    rw [List.foldl_cons, ih, mem_pushMissing, or_assoc]
    refine or_congr_right ?_
    constructor
    · rintro (⟨data, same⟩ | ⟨shred, member, same⟩)
      · exact ⟨first, mem_dataOf.mpr ⟨List.mem_cons_self, data⟩, same⟩
      · obtain ⟨member, data⟩ := mem_dataOf.mp member
        exact ⟨shred, mem_dataOf.mpr ⟨List.mem_cons_of_mem _ member, data⟩, same⟩
    · rintro ⟨shred, member, same⟩
      obtain ⟨member, data⟩ := mem_dataOf.mp member
      rcases List.mem_cons.mp member with rfl | member
      · exact .inl ⟨data, same⟩
      · exact .inr ⟨shred, mem_dataOf.mpr ⟨member, data⟩, same⟩

section

variable [SolanaLedger]

/-- The batch has a data shred of the index, or recovery is asked for and yields one. -/
def Supplied (deserialized : List Shred) (index : UInt32) : Prop :=
  (∃ shred ∈ dataOf deserialized, shred.index = index) ∨
    dataCount deserialized < 32 ∧ ∃ recovered, recoverShreds deserialized = .ok recovered ∧
      ∃ shred, .ok shred ∈ recovered ∧ shred.shredType = .data ∧ shred.index = index

theorem supplied_iff {deserialized : List Shred} {index : UInt32} :
    Supplied deserialized index ↔ ∃ shred ∈ dataOf (withRecovered deserialized), shred.index = index := by
  unfold Supplied withRecovered
  split
  next few =>
    cases asked : recoverShreds deserialized with
    | error e => simp
    | ok recovered =>
      rw [mem_foldl_pushMissing]
      refine or_congr_right ?_
      constructor
      · rintro ⟨-, given, same, shred, member, data, index⟩
        cases same
        exact ⟨shred, mem_dataOf.mpr ⟨List.mem_filterMap.mpr ⟨_, member, rfl⟩, data⟩, index⟩
      · rintro ⟨shred, member, index⟩
        obtain ⟨member, data⟩ := mem_dataOf.mp member
        obtain ⟨read, listed, ok⟩ := List.mem_filterMap.mp member
        cases read with
        | error e => cases ok
        | ok given =>
          cases ok
          exact ⟨few, recovered, rfl, shred, listed, data, index⟩
  next enough =>
    constructor
    · rintro (held | ⟨few, -⟩)
      · exact held
      · exact absurd few enough
    · exact .inl

/-! ### Whole or not at all -/

/-- `Ok` leaves every data shred of the FEC set under its key, an error leaves the keyspace as it was. -/
def BatchStored.WholeOrUnchanged (before : TreeMap Nat ShredInfoView) (slot : UInt64) (fecSetIndex : UInt32)
    (stored : BatchStored) : Prop :=
  match stored.result with
  | .ok () => ∀ index ∈ batchIndices fecSetIndex, (stored.shredKeyspace[makeKey slot index]?).isSome
  | .error _ => ∀ key : Nat, stored.shredKeyspace[key]? = before[key]?

omit [SolanaLedger] in
theorem BatchStored.WholeOrUnchanged.whole {before : TreeMap Nat ShredInfoView} {slot : UInt64} {fecSetIndex : UInt32}
    {stored : BatchStored} (kept : stored.WholeOrUnchanged before slot fecSetIndex) (ok : stored.result.isOk = true) :
    ∀ index ∈ batchIndices fecSetIndex, (stored.shredKeyspace[makeKey slot index]?).isSome := by
  unfold WholeOrUnchanged at kept
  cases answer : stored.result with
  | error e =>
    rw [answer] at ok
    cases ok
  | ok done =>
    rw [answer] at kept
    exact kept

/-- Once committed: the batch supplies what the store lacks of the FEC set, or, where the sync fails, has nothing new. -/
def Suffices (disk : Disk) (before : TreeMap Nat ShredInfoView) (slot : UInt64) (fecSetIndex : UInt32)
    (deserialized : List Shred) : Prop :=
  match disk.persist with
  | .ok () => ∀ index ∈ batchIndices fecSetIndex, Supplied deserialized index ∨ (before[makeKey slot index]?).isSome
  | .error _ => ∀ index shred, lastAt (withRecovered deserialized) index = some shred →
      before[makeKey slot index]? = some shred.payload

omit [SolanaLedger] in
theorem unchanged_iff {before : TreeMap Nat ShredInfoView} {slot : UInt64} {shreds : List Shred} :
    (∀ key : Nat, (writeBatch slot before shreds)[key]? = before[key]?) ↔
      ∀ index shred, lastAt shreds index = some shred → before[makeKey slot index]? = some shred.payload := by
  constructor
  · intro same index shred last
    rw [← same, getElem?_writeBatch, last]
    rfl
  · intro old key
    by_cases own : ∃ index, makeKey slot index = key
    · obtain ⟨index, rfl⟩ := own
      rw [getElem?_writeBatch]
      cases last : lastAt shreds index with
      | none => rfl
      | some shred => exact (old index shred last).symm
    · exact getElem?_writeBatch_other slot before shreds (fun index same => own ⟨index, same⟩)

theorem whole_iff {before : TreeMap Nat ShredInfoView} {slot : UInt64} {deserialized : List Shred} {index : UInt32} :
    ((writeBatch slot before (withRecovered deserialized))[makeKey slot index]?).isSome ↔
      Supplied deserialized index ∨ (before[makeKey slot index]?).isSome := by
  rw [getElem?_writeBatch, Option.isSome_or, Bool.or_eq_true, Option.isSome_map, lastAt_isSome, supplied_iff]

/-- A batch is stored whole or not at all exactly if, wherever its shreds are read and committed, it supplies what the
store lacks and the sync does not fail on something new. -/
theorem batch_stored_whole_iff (disk : Disk) (clusterInfo : Bool) (before : TreeMap Nat ShredInfoView) (slot : UInt64)
    (fecSetIndex : UInt32) (shreds : List PacketInfo) :
    (storeBatch disk clusterInfo before slot shreds).WholeOrUnchanged before slot fecSetIndex ↔
      ∀ deserialized, shreds.mapM parseShred = .ok deserialized → disk.commit = .ok () →
        Suffices disk before slot fecSetIndex deserialized := by
  unfold storeBatch BatchStored.WholeOrUnchanged
  cases read : shreds.mapM parseShred with
  | error text => exact iff_of_true (fun _ => rfl) (fun _ impossible => by cases impossible)
  | ok deserialized =>
    cases committed : disk.commit with
    | error e => exact iff_of_true (fun _ => rfl) (fun _ _ impossible => by cases impossible)
    | ok done =>
      have alone : (∀ given, (.ok deserialized : Except String (List Shred)) = .ok given →
          (.ok done : Except FjallError Unit) = .ok () → Suffices disk before slot fecSetIndex given) ↔
          Suffices disk before slot fecSetIndex deserialized := by
        constructor
        · intro each
          exact each deserialized rfl rfl
        · intro here given same _
          cases same
          exact here
      rw [alone]
      unfold Suffices
      cases disk.persist with
      | error e => exact unchanged_iff
      | ok synced => exact forall₂_congr (fun index _ => whole_iff)

variable [ShredLayout] {arrivals : List Arrival} {earlier rest : List Stored} {o : Stored} {batch : BatchRaw}

/-- A FEC set handed on as data shreds of its own indices has them all. -/
theorem emitted_data_set_supplied (slot : UInt64) (createdMs : Nat)
    (alike : ∀ a ∈ arrivals, ∀ shred, parseShred a.shred = .ok shred →
      shred.shredType = a.hdr.shredVariant ∧ shred.index = a.hdr.index)
    (run : (slotRun slot createdMs arrivals).2 = earlier ++ o :: rest) (sent : o.result.storeBatch = some batch)
    (filled : batch.shreds ≠ [])
    (own : ∀ a ∈ recordedIn (earlier ++ [o]) o.arrival.fec,
      a.hdr.shredVariant = .data ∧ a.hdr.index ∈ batchIndices o.arrival.fec)
    {deserialized : List Shred} (read : batch.shreds.mapM parseShred = .ok deserialized) :
    ∀ index ∈ batchIndices o.arrival.fec, Supplied deserialized index := by
  intro index wanted
  obtain ⟨inputs, -, emissions⟩ := slot_emissions slot createdMs arrivals
  obtain ⟨-, whole, size, distinct⟩ := (emissions earlier o rest run).batch batch sent filled
  let indices := (recordedIn (earlier ++ [o]) o.arrival.fec).map (fun a => a.hdr.index)
  have once : indices.Nodup := by
    refine List.pairwise_map.mpr (List.Pairwise.imp_of_mem ?_ (List.pairwise_map.mp distinct))
    intro a b here there apart same
    exact apart (Prod.ext ((own a here).1.trans (own b there).1.symm) same)
  have inside : indices ⊆ batchIndices o.arrival.fec := by
    intro i member
    obtain ⟨a, here, rfl⟩ := List.mem_map.mp member
    exact (own a here).2
  have many : indices.length = (batchIndices o.arrival.fec).length := by simp [indices, size, batchIndices]
  have all : indices.Perm (batchIndices o.arrival.fec) := (once.subperm inside).perm_of_length_le many.ge
  obtain ⟨a, recorded, rfl⟩ := List.mem_map.mp (all.mem_iff.mpr wanted)
  obtain ⟨shred, given, parsed⟩ := Agreement.exists_of_mapM read (x := a.shred) (by
    rw [whole]
    exact List.mem_map_of_mem recorded)
  have arrived : a ∈ arrivals := by
    obtain ⟨stored, member, rfl⟩ := List.mem_map.mp recorded
    rw [← inputs, run]
    refine List.mem_map_of_mem ?_
    rcases List.mem_append.mp (List.mem_filter.mp member).1 with before | last
    · exact List.mem_append_left _ before
    · rw [List.mem_singleton.mp last]
      exact List.mem_append_right _ List.mem_cons_self
  obtain ⟨type, same⟩ := alike a arrived shred parsed
  exact .inl ⟨shred, mem_dataOf.mpr ⟨given, type.trans (own a recorded).1⟩, same⟩

end

/-! ### A set whose recovery fails -/

/-- A ledger that refuses to recover shreds signed under different Merkle roots. -/
abbrev strictLedger : SolanaLedger :=
  { codedLedger with
    merkleRecover := fun shreds =>
      if (shreds.map (fun shred => shred.payload.take 64)).dedup.length ≤ 1 then codedLedger.merkleRecover shreds
      else .error "InvalidMerkleRoot" }

/-- A coding shred of FEC set 0 whose signature is not that of the data shreds. -/
def otherRoot : Arrival where
  timestampMs := 0
  hdr := { shredVariant := .code, slot := 7, index := 0, version := 1, fecSetIndex := 0 }
  shred := {
    bytes := 1 :: (wireShred { shredVariant := .code, slot := 7, index := 0, version := 1, fecSetIndex := 0 } 0).bytes.tail
    fits := by decide }

/-- 31 data shreds of a FEC set and a coding shred that does not go with them. -/
def unrecoverable : List Arrival := (dataBatch 0).take 31 ++ [otherRoot]

def healthyDisk : Disk := ⟨.ok (), .ok ()⟩

def unrecoverableBatch : BatchRaw := ⟨unrecoverable.map (·.shred), 7⟩

/-- The batch is emitted and stored, the answer is `Ok`, and the last data shred of the FEC set is not there. -/
theorem failed_recovery_leaves_hole :
    (∃ o ∈ (@slotRun wireLayout 7 0 unrecoverable).2,
      o.result.storeBatch = some unrecoverableBatch ∧ o.arrival.fec = 0) ∧
    unrecoverableBatch.shreds.length = 32 ∧
    ¬ (@storeBatch strictLedger healthyDisk false ∅ 7 unrecoverableBatch.shreds).WholeOrUnchanged ∅ 7 0 := by
  refine ⟨by decide +kernel, by decide +kernel, ?_⟩
  intro kept
  have last := kept.whole (by decide +kernel) 31 (by decide +kernel)
  revert last
  decide +kernel

end Lightbringer.Store
