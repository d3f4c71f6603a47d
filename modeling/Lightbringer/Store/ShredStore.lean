import Lightbringer.Lib.Bytes
import Lightbringer.Lib.Entries
import Lightbringer.Types

/-!
# Reading the shred store

`ShredStore` of `store/shred.rs`: data shreds under slot and index. A key is kept as the number its twelve bytes spell,
slot first, so that the keys of a slot are a range of numbers, ordered as the indices.
-/

namespace Lightbringer.Store
open Std

def makeKey (slot : UInt64) (shredIndex : UInt32) : Nat :=
  Bytes.toNat (Bytes.ofNat 8 slot.toNat ++ Bytes.ofNat 4 shredIndex.toNat)

/-- `None` for an index that is not a `u32`. -/
def makeKeyFromRequest (slot shredIndex : UInt64) : Option Nat :=
  if shredIndex.toNat < 2 ^ 32 then some (makeKey slot (UInt32.ofNat shredIndex.toNat)) else none

/-- `ShredInfoView`: the payload of a stored shred. -/
abbrev ShredInfoView := List UInt8

/-- `fjall::Error`. -/
inductive FjallError where
  | io

/-- What a read of the keyspace finds: its entries, or an error. -/
structure ShredStore where
  shredKeyspace : Except FjallError (TreeMap Nat ShredInfoView)

namespace ShredStore

variable (store : ShredStore)

def getShred (slot shredIndex : UInt64) : Except FjallError (Option ShredInfoView) :=
  match makeKeyFromRequest slot shredIndex with
  | none => .ok none
  | some key => store.shredKeyspace.map (·[key]?)

/-- `range(start..=end).next_back()`. -/
def getHighestDataShredFrom (slot minIndex : UInt64) : Except FjallError (Option ShredInfoView) :=
  match makeKeyFromRequest slot minIndex with
  | none => .ok none
  | some start =>
    store.shredKeyspace.map (fun entries =>
      (Entries.lastBetween entries start (makeKey slot (.ofNat (2 ^ 32 - 1)))).map Prod.snd)

end ShredStore

/-! ### Keys -/

theorem makeKey_eq (slot : UInt64) (index : UInt32) : makeKey slot index = slot.toNat * 2 ^ 32 + index.toNat := by
  have small : slot.toNat < 256 ^ 8 := slot.toNat_lt
  have low : index.toNat < 256 ^ 4 := index.toNat_lt
  rw [makeKey, Bytes.toNat_append, Bytes.toNat_ofNat, Bytes.toNat_ofNat, Bytes.length_ofNat, Nat.mod_eq_of_lt small,
    Nat.mod_eq_of_lt low]
  rfl

theorem makeKey_inj {slot other : UInt64} {index index' : UInt32} (same : makeKey slot index = makeKey other index') :
    slot = other ∧ index = index' := by
  rw [makeKey_eq, makeKey_eq] at same
  have low := index.toNat_lt
  have low' := index'.toNat_lt
  exact ⟨UInt64.toNat_inj.mp (by omega), UInt32.toNat_inj.mp (by omega)⟩

theorem makeKeyFromRequest_iff {slot index : UInt64} {key : Nat} :
    makeKeyFromRequest slot index = some key ↔ ∃ short : UInt32, short.toNat = index.toNat ∧ makeKey slot short = key := by
  unfold makeKeyFromRequest
  constructor
  · intro found
    split at found
    next small => exact ⟨_, UInt32.toNat_ofNat_of_lt' small, Option.some.inj found⟩
    next => cases found
  · rintro ⟨short, same, rfl⟩
    rw [if_pos (same ▸ short.toNat_lt), ← same, UInt32.ofNat_toNat]

/-- The keys from one of a slot's up to the last one are those of the slot. -/
theorem exists_makeKey {slot : UInt64} {start : UInt32} {key : Nat} (above : makeKey slot start ≤ key)
    (below : key ≤ makeKey slot (.ofNat (2 ^ 32 - 1))) : ∃ index : UInt32, start ≤ index ∧ makeKey slot index = key := by
  have last : (UInt32.ofNat (2 ^ 32 - 1)).toNat = 2 ^ 32 - 1 := by decide
  rw [makeKey_eq] at above below
  rw [last] at below
  have within : key - slot.toNat * 2 ^ 32 < 2 ^ 32 := by omega
  have same : (UInt32.ofNat (key - slot.toNat * 2 ^ 32)).toNat = key - slot.toNat * 2 ^ 32 :=
    UInt32.toNat_ofNat_of_lt' within
  refine ⟨.ofNat (key - slot.toNat * 2 ^ 32), ?_, ?_⟩
  · rw [UInt32.le_iff_toNat_le, same]
    omega
  · rw [makeKey_eq, same]
    omega

/-! ### What is found -/

variable {store : ShredStore} {slot asked : UInt64} {shred : ShredInfoView}

/-- The shred at the index, which no index beyond `u32` has. -/
def HeldAt (entries : TreeMap Nat ShredInfoView) (slot asked : UInt64) (shred : ShredInfoView) : Prop :=
  ∃ index : UInt32, index.toNat = asked.toNat ∧ entries[makeKey slot index]? = some shred

/-- The shred of the slot with the highest index, if that is not below the one asked for. -/
def HighestHeld (entries : TreeMap Nat ShredInfoView) (slot asked : UInt64) (shred : ShredInfoView) : Prop :=
  ∃ index : UInt32, asked.toNat ≤ index.toNat ∧ entries[makeKey slot index]? = some shred ∧
    ∀ other, index < other → entries[makeKey slot other]? = none

theorem heldAt_of_getShred (found : store.getShred slot asked = .ok (some shred)) :
    ∃ entries, store.shredKeyspace = .ok entries ∧ HeldAt entries slot asked shred := by
  unfold ShredStore.getShred at found
  split at found
  · cases found
  next key asks =>
    obtain ⟨index, same, rfl⟩ := makeKeyFromRequest_iff.mp asks
    cases read : store.shredKeyspace with
    | error => rw [read] at found; cases found
    | ok entries =>
      rw [read] at found
      exact ⟨entries, rfl, index, same, Except.ok.inj found⟩

theorem highestHeld_of_getHighestDataShredFrom (found : store.getHighestDataShredFrom slot asked = .ok (some shred)) :
    ∃ entries, store.shredKeyspace = .ok entries ∧ HighestHeld entries slot asked shred := by
  unfold ShredStore.getHighestDataShredFrom at found
  split at found
  · cases found
  next key asks =>
    obtain ⟨start, same, rfl⟩ := makeKeyFromRequest_iff.mp asks
    cases read : store.shredKeyspace with
    | error => rw [read] at found; cases found
    | ok entries =>
      rw [read] at found
      obtain ⟨⟨key, payload⟩, last, rfl⟩ := Option.map_eq_some_iff.mp (Except.ok.inj found)
      obtain ⟨holds, above, below, highest⟩ := Entries.lastBetween_spec last
      obtain ⟨index, least, rfl⟩ := exists_makeKey above below
      refine ⟨entries, rfl, index, ?_, holds, ?_⟩
      · rw [← same]
        exact UInt32.le_iff_toNat_le.mp least
      · intro other later
        have ahead := UInt32.lt_iff_toNat_lt.mp later
        have small := other.toNat_lt
        have top : (UInt32.ofNat (2 ^ 32 - 1)).toNat = 2 ^ 32 - 1 := by decide
        refine highest _ ?_ ?_
        · rw [makeKey_eq, makeKey_eq]
          omega
        · rw [makeKey_eq, makeKey_eq, top]
          omega

end Lightbringer.Store
