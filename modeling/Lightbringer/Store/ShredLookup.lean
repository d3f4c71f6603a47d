import Lightbringer.Store.ShredStore

/-!
# The shreds of a slot

Keys as bytes: `slot_from_key`, prefix reads and `get_slot_shreds`, and what the reads of the store find of whatever it
holds.
-/

namespace Lightbringer.Store
open Std

/-- The twelve bytes a key spells. -/
def keyBytes (key : Nat) : List UInt8 := Bytes.ofNat 12 key

def slotFromKey (key : List UInt8) : Option UInt64 :=
  if 8 ≤ key.length then some (UInt64.ofNat (Bytes.toNat (key.take 8))) else none

/-- What the keyspace holds, every key of it twelve bytes. -/
structure Keyspace where
  entries : TreeMap Nat ShredInfoView
  twelve : ∀ key, (entries[key]?).isSome → key < 256 ^ 12

/-- `prefix(slot.to_be_bytes())`. -/
def slotPrefixed (slot : UInt64) (entries : TreeMap Nat ShredInfoView) : List (Nat × ShredInfoView) :=
  entries.toList.filter (fun entry => (Bytes.ofNat 8 slot.toNat).isPrefixOf (keyBytes entry.1))

def ShredStore.getSlotShreds (store : ShredStore) (slot : UInt64) : Except FjallError (List ShredInfoView) :=
  store.shredKeyspace.map (fun entries => (slotPrefixed slot entries).map Prod.snd)

def Keyspace.store (held : Keyspace) : ShredStore := ⟨.ok held.entries⟩

/-! ### Keys as bytes -/

theorem keyBytes_makeKey (slot : UInt64) (index : UInt32) :
    keyBytes (makeKey slot index) = Bytes.ofNat 8 slot.toNat ++ Bytes.ofNat 4 index.toNat := by
  have small : makeKey slot index < 256 ^ 12 := by
    have high := slot.toNat_lt
    have low := index.toNat_lt
    rw [makeKey_eq]
    omega
  refine Bytes.toNat_inj (by simp [keyBytes]) ?_
  rw [keyBytes, Bytes.toNat_ofNat, Nat.mod_eq_of_lt small, makeKey]

theorem keyBytes_lt_iff {slot other : UInt64} {index index' : UInt32} :
    keyBytes (makeKey slot index) < keyBytes (makeKey other index') ↔ slot < other ∨ slot = other ∧ index < index' := by
  have low := index.toNat_lt
  have low' := index'.toNat_lt
  rw [Bytes.lt_iff_toNat_lt (by simp [keyBytes]), keyBytes_makeKey, keyBytes_makeKey]
  show makeKey slot index < makeKey other index' ↔ _
  rw [makeKey_eq, makeKey_eq, UInt64.lt_iff_toNat_lt, UInt32.lt_iff_toNat_lt, ← UInt64.toNat_inj]
  omega

theorem keyBytes_makeKey_inj {slot other : UInt64} {index index' : UInt32}
    (same : keyBytes (makeKey slot index) = keyBytes (makeKey other index')) : slot = other ∧ index = index' := by
  rw [keyBytes_makeKey, keyBytes_makeKey] at same
  exact makeKey_inj (congrArg Bytes.toNat same)

theorem slotFromKey_makeKey (slot : UInt64) (index : UInt32) : slotFromKey (keyBytes (makeKey slot index)) = some slot := by
  have small : slot.toNat < 256 ^ 8 := slot.toNat_lt
  have front : (keyBytes (makeKey slot index)).take 8 = Bytes.ofNat 8 slot.toNat := by
    rw [keyBytes_makeKey]
    exact List.take_left' (Bytes.length_ofNat ..)
  rw [slotFromKey, if_pos (by simp [keyBytes]), front, Bytes.toNat_ofNat, Nat.mod_eq_of_lt small, UInt64.ofNat_toNat]

/-- Twelve bytes are a slot and an index. -/
theorem exists_slot {key : Nat} (twelve : key < 256 ^ 12) : ∃ slot index, makeKey slot index = key := by
  have high : key / 2 ^ 32 < 2 ^ 64 := by omega
  have low : key % 2 ^ 32 < 2 ^ 32 := Nat.mod_lt _ (by decide)
  refine ⟨.ofNat (key / 2 ^ 32), .ofNat (key % 2 ^ 32), ?_⟩
  rw [makeKey_eq, UInt64.toNat_ofNat_of_lt' high, UInt32.toNat_ofNat_of_lt' low]
  omega

theorem prefix_makeKey_iff {slot other : UInt64} {index : UInt32} :
    (Bytes.ofNat 8 slot.toNat).isPrefixOf (keyBytes (makeKey other index)) = true ↔ slot = other := by
  have small : slot.toNat < 256 ^ 8 := slot.toNat_lt
  have small' : other.toNat < 256 ^ 8 := other.toNat_lt
  rw [List.isPrefixOf_iff_prefix, keyBytes_makeKey]
  constructor
  · intro front
    have same := (List.prefix_of_prefix_length_le front (List.prefix_append ..) (by simp)).eq_of_length (by simp)
    have numbers := congrArg Bytes.toNat same
    rw [Bytes.toNat_ofNat, Bytes.toNat_ofNat, Nat.mod_eq_of_lt small, Nat.mod_eq_of_lt small'] at numbers
    exact UInt64.toNat_inj.mp numbers
  · rintro rfl
    exact List.prefix_append ..

/-! ### What the reads find -/

variable (held : Keyspace) (slot : UInt64)

/-- The read from an index on finds the highest shred, and nothing only where there is none. -/
def HighestFound (minIndex : UInt64) : Prop :=
  ∃ found, held.store.getHighestDataShredFrom slot minIndex = .ok found ∧
    (∀ shred, found = some shred ↔ HighestHeld held.entries slot minIndex shred) ∧
    (found = none ↔ ∀ index : UInt32, minIndex.toNat ≤ index.toNat → held.entries[makeKey slot index]? = none)

theorem highest_found (minIndex : UInt64) : HighestFound held slot minIndex := by
  have unique : ∀ {shred shred'}, HighestHeld held.entries slot minIndex shred →
      HighestHeld held.entries slot minIndex shred' → shred = shred' := by
    rintro shred shred' ⟨index, _, here, last⟩ ⟨index', _, here', last'⟩
    rcases lt_trichotomy index index' with less | rfl | more
    · rw [last index' less] at here'
      cases here'
    · exact Option.some.inj (here.symm.trans here')
    · rw [last' index more] at here
      cases here
  obtain ⟨found, read, empty⟩ : ∃ found, held.store.getHighestDataShredFrom slot minIndex = .ok found ∧
      (found = none → ∀ index : UInt32, minIndex.toNat ≤ index.toNat → held.entries[makeKey slot index]? = none) := by
    unfold ShredStore.getHighestDataShredFrom
    cases asked : makeKeyFromRequest slot minIndex with
    | none =>
      refine ⟨none, rfl, fun _ index least => ?_⟩
      have small : minIndex.toNat < 2 ^ 32 := Nat.lt_of_le_of_lt least index.toNat_lt
      have key : makeKeyFromRequest slot minIndex = some (makeKey slot (.ofNat minIndex.toNat)) :=
        makeKeyFromRequest_iff.mpr ⟨_, UInt32.toNat_ofNat_of_lt' small, rfl⟩
      rw [asked] at key
      cases key
    | some start =>
      obtain ⟨first, same, rfl⟩ := makeKeyFromRequest_iff.mp asked
      refine ⟨_, rfl, fun none index least => ?_⟩
      have small := index.toNat_lt
      have top : (UInt32.ofNat (2 ^ 32 - 1)).toNat = 2 ^ 32 - 1 := by decide
      refine Entries.lastBetween_eq_none_iff.mp (Option.map_eq_none_iff.mp none) _ ?_ ?_
      · rw [makeKey_eq, makeKey_eq]
        omega
      · rw [makeKey_eq, makeKey_eq, top]
        omega
  refine ⟨found, read, ?_, empty, ?_⟩
  · intro shred
    constructor
    · rintro rfl
      obtain ⟨entries, same, highest⟩ := highestHeld_of_getHighestDataShredFrom read
      cases same
      exact highest
    · intro highest
      cases found with
      | none =>
        obtain ⟨index, least, here, _⟩ := highest
        rw [empty rfl index least] at here
        cases here
      | some other =>
        obtain ⟨entries, same, found⟩ := highestHeld_of_getHighestDataShredFrom read
        cases same
        rw [unique found highest]
  · intro absent
    cases found with
    | none => rfl
    | some shred =>
      obtain ⟨entries, same, index, least, here, _⟩ := highestHeld_of_getHighestDataShredFrom read
      cases same
      rw [absent index least] at here
      cases here

/-- The read of a slot lists its shreds, by ascending index. -/
def SlotListed : Prop :=
  ∃ indices : List UInt32, indices.Pairwise (· < ·) ∧ (∀ index, index ∈ indices ↔ (held.entries[makeKey slot index]?).isSome) ∧
    held.store.getSlotShreds slot = .ok (indices.filterMap (fun index => held.entries[makeKey slot index]?))

/-- The index a key ends with. -/
def indexOfKey (key : Nat) : UInt32 := UInt32.ofNat (key % 2 ^ 32)

theorem indexOfKey_makeKey (index : UInt32) : indexOfKey (makeKey slot index) = index := by
  have low : makeKey slot index % 2 ^ 32 = index.toNat := by
    have small := index.toNat_lt
    rw [makeKey_eq]
    omega
  rw [indexOfKey, low, UInt32.ofNat_toNat]

theorem mem_slotPrefixed {entry : Nat × ShredInfoView} :
    entry ∈ slotPrefixed slot held.entries ↔
      ∃ index, makeKey slot index = entry.1 ∧ held.entries[makeKey slot index]? = some entry.2 := by
  rw [slotPrefixed, List.mem_filter, show entry = (entry.1, entry.2) from rfl, TreeMap.mem_toList_iff_getElem?_eq_some]
  constructor
  · rintro ⟨here, front⟩
    obtain ⟨other, index, key⟩ := exists_slot (held.twelve entry.1 (by rw [here]; rfl))
    dsimp only at front
    rw [← key] at front here ⊢
    cases prefix_makeKey_iff.mp front
    exact ⟨index, rfl, here⟩
  · rintro ⟨index, key, here⟩
    rw [← key]
    exact ⟨here, prefix_makeKey_iff.mpr rfl⟩

theorem slot_listed : SlotListed held slot := by
  have keyed : ∀ entry ∈ slotPrefixed slot held.entries, makeKey slot (indexOfKey entry.1) = entry.1 ∧
      held.entries[makeKey slot (indexOfKey entry.1)]? = some entry.2 := by
    intro entry member
    obtain ⟨index, key, here⟩ := (mem_slotPrefixed held slot).mp member
    rw [← key, indexOfKey_makeKey]
    exact ⟨rfl, here⟩
  refine ⟨(slotPrefixed slot held.entries).map (fun entry => indexOfKey entry.1), ?_, ?_, ?_⟩
  · rw [List.pairwise_map]
    have ascending : (slotPrefixed slot held.entries).Pairwise (fun x y => compare x.1 y.1 = .lt) :=
      List.Pairwise.filter _ TreeMap.ordered_keys_toList
    refine List.Pairwise.imp_of_mem ?_ ascending
    intro x y here there less
    have numbers := Nat.compare_eq_lt.mp less
    rw [← (keyed x here).1, ← (keyed y there).1, makeKey_eq, makeKey_eq] at numbers
    rw [UInt32.lt_iff_toNat_lt]
    omega
  · intro index
    rw [List.mem_map, Option.isSome_iff_exists]
    constructor
    · rintro ⟨entry, member, rfl⟩
      exact ⟨entry.2, (keyed entry member).2⟩
    · rintro ⟨shred, here⟩
      exact ⟨(makeKey slot index, shred), (mem_slotPrefixed held slot).mpr ⟨index, rfl, here⟩, indexOfKey_makeKey slot index⟩
  · show Except.ok ((slotPrefixed slot held.entries).map Prod.snd) = _
    rw [List.filterMap_map]
    refine congrArg Except.ok ?_
    rw [← List.filterMap_eq_map]
    refine List.filterMap_congr (fun entry member => ?_)
    exact (keyed entry member).2.symm

end Lightbringer.Store
