import Lightbringer.Store.BatchStore
import Lightbringer.Store.ShredLookup
import Lightbringer.Lib.Machine

/-!
# Dropping old slots

`slot_cleanup_loop` moves the cutoff slot, and compaction filters destroy keys of slots below the cutoff they loaded when
they were made. Batches are stored, cutoffs moved and keys filtered in any order.
-/

namespace Lightbringer.Store
open Std Alpenglow Util Machine SlotMetadata

/-- `RETENTION_SLOTS`, about 8 hours. -/
def retentionSlots : UInt64 := 72000

inductive Verdict where
  | keep
  | destroy
  deriving DecidableEq

/-- `ShredCutoffFilter::filter_item`. -/
def filterItem (cutoffSlot : UInt64) (key : List UInt8) : Verdict :=
  match slotFromKey key with
  | none => .keep
  | some slot => if slot < cutoffSlot then .destroy else .keep

structure Storage where
  keyspace : Keyspace
  cutoffSlot : UInt64
  /-- The cutoffs that compaction filters were made with. -/
  filters : List UInt64

/-- `shred_keyspace.last_key_value()`, then the slot of the key. -/
def Keyspace.latestSlot (held : Keyspace) : Option UInt64 :=
  held.entries.toList.getLast?.bind (fun entry => slotFromKey (keyBytes entry.1))

theorem twelve_makeKey (slot : UInt64) (index : UInt32) : makeKey slot index < 256 ^ 12 := by
  have high := slot.toNat_lt
  have low := index.toNat_lt
  rw [makeKey_eq]
  omega

theorem twelve_writeBatch (held : Keyspace) (slot : UInt64) (shreds : List Shred) (key : Nat)
    (present : ((writeBatch slot held.entries shreds)[key]?).isSome) : key < 256 ^ 12 := by
  by_cases own : ∃ index, makeKey slot index = key
  · obtain ⟨index, rfl⟩ := own
    exact twelve_makeKey slot index
  · rw [getElem?_writeBatch_other slot held.entries shreds (fun index same => own ⟨index, same⟩)] at present
    exact held.twelve key present

def Keyspace.erase (held : Keyspace) (key : Nat) : Keyspace where
  entries := held.entries.erase key
  twelve other present := by
    rw [Entries.getElem?_erase] at present
    split at present
    · cases present
    · exact held.twelve other present

inductive StorageEvent where
  | storeBatch (disk : Disk) (clusterInfo : Bool) (slot : UInt64) (shreds : List PacketInfo)
  /-- A round of the cleanup loop, up to where it starts the compaction; whether the last key can be read. -/
  | cleanup (readable : Bool)
  | makeFilter
  /-- A filter meets a key. -/
  | filterItem (filter key : Nat)

section

variable [SolanaLedger]

theorem storeBatch_keyspace (disk : Disk) (clusterInfo : Bool) (entries : TreeMap Nat ShredInfoView) (slot : UInt64)
    (shreds : List PacketInfo) :
    (storeBatch disk clusterInfo entries slot shreds).shredKeyspace = entries ∨
      ∃ written, (storeBatch disk clusterInfo entries slot shreds).shredKeyspace = writeBatch slot entries written := by
  unfold storeBatch
  cases shreds.mapM parseShred with
  | error text => exact .inl rfl
  | ok deserialized =>
    cases disk.commit with
    | error e => exact .inl rfl
    | ok done =>
      cases disk.persist with
      | error e => exact .inr ⟨_, rfl⟩
      | ok synced => exact .inr ⟨_, rfl⟩

def Keyspace.storeBatch (held : Keyspace) (disk : Disk) (clusterInfo : Bool) (slot : UInt64) (shreds : List PacketInfo) :
    Keyspace where
  entries := (Store.storeBatch disk clusterInfo held.entries slot shreds).shredKeyspace
  twelve key present := by
    rcases storeBatch_keyspace disk clusterInfo held.entries slot shreds with same | ⟨written, same⟩
    · rw [same] at present
      exact held.twelve key present
    · rw [same] at present
      exact twelve_writeBatch held slot written key present

/-- A step, and the keys it destroys. -/
def Storage.step (s : Storage) : StorageEvent → Storage × List Nat
  | .storeBatch disk clusterInfo slot shreds =>
    ({ s with keyspace := s.keyspace.storeBatch disk clusterInfo slot shreds }, [])
  | .cleanup readable =>
    match readable, s.keyspace.latestSlot with
    | true, some latestSlot => ({ s with cutoffSlot := saturatingSub latestSlot retentionSlots }, [])
    | _, _ => (s, [])
  | .makeFilter => ({ s with filters := s.filters ++ [s.cutoffSlot] }, [])
  | .filterItem filter key =>
    match s.filters[filter]? with
    | none => (s, [])
    | some cutoffSlot =>
      match filterItem cutoffSlot (keyBytes key) with
      | .keep => (s, [])
      | .destroy => ({ s with keyspace := s.keyspace.erase key }, [key])

/-- From what a start finds on disk, where the cutoff is 0. -/
def Storage.start (held : Keyspace) : Storage := ⟨held, 0, []⟩

end

/-! ### The latest slot -/

/-- A shred of the slot is stored. -/
def Keyspace.Stored (held : Keyspace) (slot : UInt64) : Prop := ∃ index, (held.entries[makeKey slot index]?).isSome

def Keyspace.Latest (held : Keyspace) (latest : UInt64) : Prop :=
  held.Stored latest ∧ ∀ slot, held.Stored slot → slot ≤ latest

theorem latest_of_latestSlot {held : Keyspace} {latest : UInt64} (found : held.latestSlot = some latest) :
    held.Latest latest := by
  obtain ⟨⟨key, shred⟩, last, read⟩ := Option.bind_eq_some_iff.mp found
  obtain ⟨here, highest⟩ := Entries.getLast_spec last
  have present : (held.entries[key]?).isSome := Option.isSome_iff_exists.mpr ⟨shred, here⟩
  obtain ⟨slot, index, rfl⟩ := exists_slot (held.twelve key present)
  dsimp only at read
  rw [slotFromKey_makeKey] at read
  cases read
  refine ⟨⟨index, present⟩, ?_⟩
  rintro other ⟨index', stored⟩
  have below := highest _ stored
  have small := index.toNat_lt
  dsimp only at below
  rw [makeKey_eq, makeKey_eq] at below
  rw [UInt64.le_iff_toNat_le]
  omega

theorem exists_latest {held : Keyspace} {slot : UInt64} (stored : held.Stored slot) : ∃ latest, held.Latest latest := by
  obtain ⟨index, present⟩ := stored
  cases last : held.entries.toList.getLast? with
  | none =>
    obtain ⟨shred, here⟩ := Option.isSome_iff_exists.mp present
    have member := TreeMap.mem_toList_iff_getElem?_eq_some.mpr here
    rw [List.getLast?_eq_none_iff.mp last] at member
    cases member
  | some entry =>
    obtain ⟨other, index', key⟩ := exists_slot (held.twelve entry.1 (by rw [(Entries.getLast_spec last).1]; rfl))
    have found : held.latestSlot = some other := by
      rw [Keyspace.latestSlot, last, Option.bind_some, ← key, slotFromKey_makeKey]
    exact ⟨other, latest_of_latestSlot found⟩

/-! ### Cutoffs stay behind -/

/-- Some stored slot is the retention ahead of the cutoff, unless the cutoff is 0. -/
def Keyspace.Behind (held : Keyspace) (cutoffSlot : UInt64) : Prop :=
  cutoffSlot = 0 ∨ ∃ slot, held.Stored slot ∧ cutoffSlot.toNat + 72000 ≤ slot.toNat

def Storage.Behind (s : Storage) : Prop := ∀ cutoffSlot ∈ s.cutoffSlot :: s.filters, s.keyspace.Behind cutoffSlot

theorem behind_saturatingSub {held : Keyspace} {latest : UInt64} (found : held.Latest latest) :
    held.Behind (saturatingSub latest retentionSlots) := by
  unfold saturatingSub
  split
  next enough =>
    refine .inr ⟨latest, found.1, ?_⟩
    have least := UInt64.le_iff_toNat_le.mp enough
    rw [UInt64.toNat_sub_of_le _ _ enough, show retentionSlots.toNat = 72000 from rfl] at *
    omega
  next => exact .inl rfl

theorem Keyspace.Behind.mono {held later : Keyspace} {cutoffSlot : UInt64} (behind : held.Behind cutoffSlot)
    (kept : ∀ slot, held.Stored slot → later.Stored slot) : later.Behind cutoffSlot := by
  rcases behind with zero | ⟨slot, stored, ahead⟩
  · exact .inl zero
  · exact .inr ⟨slot, kept slot stored, ahead⟩

theorem slot_of_destroy {cutoffSlot : UInt64} {key : Nat} {held : Keyspace} (present : (held.entries[key]?).isSome)
    (destroys : filterItem cutoffSlot (keyBytes key) = .destroy) :
    ∃ slot index, makeKey slot index = key ∧ slot < cutoffSlot := by
  obtain ⟨slot, index, rfl⟩ := exists_slot (held.twelve key present)
  unfold filterItem at destroys
  rw [slotFromKey_makeKey] at destroys
  dsimp only at destroys
  split at destroys
  next below => exact ⟨slot, index, rfl, below⟩
  next => cases destroys

/-- What one cutoff lets be destroyed is not what another needs: its own slot is further ahead. -/
theorem behind_erase {held : Keyspace} {cutoffSlot other : UInt64} {slot : UInt64} {index : UInt32}
    (behind : held.Behind cutoffSlot) (behind' : held.Behind other) (below : slot < cutoffSlot) :
    (held.erase (makeKey slot index)).Behind other := by
  have survives : ∀ further, held.Stored further → slot ≠ further → (held.erase (makeKey slot index)).Stored further := by
    rintro further ⟨index', present⟩ apart
    refine ⟨index', ?_⟩
    show ((held.entries.erase (makeKey slot index))[makeKey further index']?).isSome
    rw [Entries.getElem?_erase, if_neg (fun same => apart (makeKey_inj same).1)]
    exact present
  rcases behind' with zero | ⟨further, stored, ahead⟩
  · exact .inl zero
  by_cases same : slot = further
  · rcases behind with zero | ⟨top, stored', ahead'⟩
    · rw [zero] at below
      exact absurd (UInt64.lt_iff_toNat_lt.mp below) (Nat.not_lt_zero _)
    · have less := UInt64.lt_iff_toNat_lt.mp below
      subst same
      refine .inr ⟨top, survives top stored' ?_, ?_⟩
      · rintro rfl
        omega
      · omega
  · exact .inr ⟨further, survives further stored same, ahead⟩

theorem behind_start (held : Keyspace) : (Storage.start held).Behind := by
  intro cutoffSlot member
  exact .inl (List.mem_singleton.mp member)

section

variable [SolanaLedger] {s : Storage}

theorem stored_storeBatch {held : Keyspace} (disk : Disk) (clusterInfo : Bool) (target : UInt64) (shreds : List PacketInfo)
    {key : Nat} (present : (held.entries[key]?).isSome) :
    ((held.storeBatch disk clusterInfo target shreds).entries[key]?).isSome := by
  show ((storeBatch disk clusterInfo held.entries target shreds).shredKeyspace[key]?).isSome
  rcases storeBatch_keyspace disk clusterInfo held.entries target shreds with same | ⟨written, same⟩
  · rw [same]
    exact present
  · rw [same]
    by_cases own : ∃ index, makeKey target index = key
    · obtain ⟨index, rfl⟩ := own
      rw [getElem?_writeBatch, Option.isSome_or, present, Bool.or_true]
    · rw [getElem?_writeBatch_other target held.entries written (fun index same => own ⟨index, same⟩)]
      exact present

/-- Shreds stay, unless a filter destroys one. -/
theorem step_keyspace (s : Storage) (event : StorageEvent) :
    (∀ key : Nat, (s.keyspace.entries[key]?).isSome → ((s.step event).1.keyspace.entries[key]?).isSome) ∨
      ∃ cutoffSlot ∈ s.filters, ∃ key, filterItem cutoffSlot (keyBytes key) = .destroy ∧
        (s.step event).1.keyspace = s.keyspace.erase key := by
  cases event with
  | storeBatch disk clusterInfo slot shreds =>
    exact .inl (fun key present => stored_storeBatch disk clusterInfo slot shreds present)
  | cleanup readable =>
    refine .inl (fun key present => ?_)
    unfold Storage.step
    dsimp only
    split <;> exact present
  | makeFilter => exact .inl (fun key present => present)
  | filterItem filter key =>
    unfold Storage.step
    dsimp only
    split
    next => exact .inl (fun key present => present)
    next cutoffSlot loaded =>
      split
      next => exact .inl (fun key present => present)
      next destroys => exact .inr ⟨cutoffSlot, List.mem_of_getElem? loaded, key, destroys, rfl⟩

/-- A cutoff is one there was, or the retention below the latest slot. -/
theorem step_cutoffs (s : Storage) (event : StorageEvent) :
    ∀ cutoffSlot ∈ (s.step event).1.cutoffSlot :: (s.step event).1.filters,
      cutoffSlot ∈ s.cutoffSlot :: s.filters ∨
        (s.step event).1.keyspace = s.keyspace ∧
          ∃ latest, s.keyspace.Latest latest ∧ cutoffSlot = saturatingSub latest retentionSlots := by
  intro cutoffSlot member
  cases event with
  | storeBatch disk clusterInfo slot shreds => exact .inl member
  | cleanup readable =>
    unfold Storage.step at member ⊢
    dsimp only at member ⊢
    split at member
    next latest found =>
      rcases List.mem_cons.mp member with rfl | old
      · exact .inr ⟨rfl, latest, latest_of_latestSlot found, rfl⟩
      · exact .inl (List.mem_cons_of_mem _ old)
    next => exact .inl member
  | makeFilter =>
    rcases List.mem_cons.mp member with rfl | loaded
    · exact .inl List.mem_cons_self
    · rcases List.mem_append.mp loaded with old | new
      · exact .inl (List.mem_cons_of_mem _ old)
      · exact .inl (List.mem_singleton.mp new ▸ List.mem_cons_self)
  | filterItem filter key =>
    unfold Storage.step at member
    dsimp only at member
    split at member
    next => exact .inl member
    next =>
      split at member
      next => exact .inl member
      next => exact .inl member

theorem behind_step (behind : s.Behind) (event : StorageEvent) : (s.step event).1.Behind := by
  intro cutoffSlot member
  rcases step_cutoffs s event cutoffSlot member with old | ⟨same, latest, found, rfl⟩
  · have before := behind cutoffSlot old
    rcases step_keyspace s event with kept | ⟨destroying, working, key, destroys, erased⟩
    · exact before.mono (fun slot ⟨index, present⟩ => ⟨index, kept _ present⟩)
    · rw [erased]
      by_cases present : (s.keyspace.entries[key]?).isSome
      · obtain ⟨slot, index, rfl, below⟩ := slot_of_destroy present destroys
        exact behind_erase (behind destroying (List.mem_cons_of_mem _ working)) before below
      · refine before.mono ?_
        rintro slot ⟨index, stored⟩
        refine ⟨index, ?_⟩
        show ((s.keyspace.entries.erase key)[makeKey slot index]?).isSome
        rw [Entries.getElem?_erase, if_neg (fun same => present (by rw [same]; exact stored))]
        exact stored
  · rw [same]
    exact behind_saturatingSub found

theorem behind_run (held : Keyspace) (events : List StorageEvent) :
    (run Storage.step (Storage.start held) events).1.Behind :=
  run_invariant (behind_start held) (fun _ event behind _ => behind_step behind event) events (meets_true events)

/-- What a step takes out of the keyspace belongs to slots more than the retention below the latest one stored. -/
def DestroysOnlyOld (s : Storage) (event : StorageEvent) : Prop :=
  ∀ key : Nat, (s.keyspace.entries[key]?).isSome → (s.step event).1.keyspace.entries[key]? = none →
    ∃ slot index latest, makeKey slot index = key ∧ s.keyspace.Latest latest ∧ slot < saturatingSub latest retentionSlots

omit [SolanaLedger] in
theorem lt_saturatingSub {held : Keyspace} {cutoffSlot slot latest : UInt64} (behind : held.Behind cutoffSlot)
    (below : slot < cutoffSlot) (last : held.Latest latest) : slot < saturatingSub latest retentionSlots := by
  have less := UInt64.lt_iff_toNat_lt.mp below
  rcases behind with rfl | ⟨further, stored, ahead⟩
  · exact absurd less (Nat.not_lt_zero _)
  · have least := UInt64.le_iff_toNat_le.mp (last.2 further stored)
    have enough : retentionSlots ≤ latest := by
      rw [UInt64.le_iff_toNat_le, show retentionSlots.toNat = 72000 from rfl]
      omega
    rw [saturatingSub, if_pos enough, UInt64.lt_iff_toNat_lt, UInt64.toNat_sub_of_le _ _ enough,
      show retentionSlots.toNat = 72000 from rfl]
    omega

theorem destroys_only_old (behind : s.Behind) (event : StorageEvent) : DestroysOnlyOld s event := by
  intro key present gone
  rcases step_keyspace s event with kept | ⟨cutoffSlot, working, other, destroys, erased⟩
  · have still := kept key present
    rw [gone] at still
    cases still
  · rw [erased] at gone
    have target : other = key := by
      by_contra apart
      rw [show (s.keyspace.erase other).entries[key]? = s.keyspace.entries[key]? from
        (Entries.getElem?_erase ..).trans (if_neg apart)] at gone
      rw [gone] at present
      cases present
    subst target
    obtain ⟨slot, index, rfl, below⟩ := slot_of_destroy present destroys
    obtain ⟨latest, last⟩ := exists_latest ⟨index, present⟩
    exact ⟨slot, index, latest, rfl, last, lt_saturatingSub (behind cutoffSlot (List.mem_cons_of_mem _ working)) below last⟩

/-- Keys are injective and in the order of slot and index as bytes; of whatever is stored, the highest shred from an
index on and the shreds of a slot are found; and in every run only old slots are dropped. -/
theorem stored_shreds_ordered :
    (∀ (slot other : UInt64) (index index' : UInt32),
      (keyBytes (makeKey slot index) = keyBytes (makeKey other index') → slot = other ∧ index = index') ∧
      (keyBytes (makeKey slot index) < keyBytes (makeKey other index') ↔ slot < other ∨ slot = other ∧ index < index')) ∧
    (∀ held slot minIndex, HighestFound held slot minIndex) ∧
    (∀ held slot, SlotListed held slot) ∧
    ∀ held events event, DestroysOnlyOld (run Storage.step (Storage.start held) events).1 event :=
  ⟨fun _ _ _ _ => ⟨keyBytes_makeKey_inj, keyBytes_lt_iff⟩, highest_found, slot_listed,
    fun held events event => destroys_only_old (behind_run held events) event⟩

end

end Lightbringer.Store
