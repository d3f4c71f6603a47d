import Lightbringer.Repair.Cancellation

/-!
# The outstanding store as a map

What `OutstandingTimerStore` is meant to be: a finite map from slot, nonce and route to the request that waits. Its
byte-keyed form answers as the map does, up to two kinds of keys that it does not tell apart or does not find.
-/

namespace Lightbringer.Repair
open Std Machine

abbrev Triple := UInt64 × Nonce × RepairRoute

def OutstandingRequest.triple (request : OutstandingRequest) : Triple :=
  (request.slot, request.nonce, request.target.route)

/-- What a request is stored as. -/
def OutstandingRequest.entry (request : OutstandingRequest) : Outstanding :=
  ⟨request.kind, request.shred, ⟨request, true⟩, request.target⟩

def Triple.key (triple : Triple) : Nat := repairKey triple.1 triple.2.1 triple.2.2

def Outstanding.triple (entry : Outstanding) : Triple := entry.timer.request.triple

/-! ### The map -/

abbrev RequestMap := Triple → Option Outstanding

namespace RequestMap

variable (map : RequestMap)

def insert (request : OutstandingRequest) : RequestMap := Function.update map request.triple (some request.entry)

def remove (triple : Triple) : RequestMap × Option Outstanding := (Function.update map triple none, map triple)

open Classical in
noncomputable def contains (slot : UInt64) : Bool := decide (∃ triple, triple.1 = slot ∧ map triple ≠ none)

def removeSlot (slot : UInt64) : RequestMap := fun triple => if triple.1 = slot then none else map triple

end RequestMap

/-! ### Calls -/

inductive StoreCall where
  | insert (request : OutstandingRequest)
  | remove (slot : UInt64) (nonce : Nonce) (route : RepairRoute)
  | contains (slot : UInt64)
  | removeSlot (slot : UInt64)

inductive StoreAnswer where
  | removed (entry : Option Outstanding)
  | contained (answer : Bool)

namespace StoreCall

def onStore (store : OutstandingTimerStore) : StoreCall → OutstandingTimerStore × List StoreAnswer
  | insert request => (store.insert request, [])
  | remove slot nonce route =>
    ((store.remove slot nonce route).1, [.removed (store.remove slot nonce route).2])
  | contains slot => (store, [.contained (store.contains slot)])
  | removeSlot slot => (store.removeSlot slot, [])

noncomputable def onMap (map : RequestMap) : StoreCall → RequestMap × List StoreAnswer
  | insert request => (map.insert request, [])
  | remove slot nonce route =>
    ((map.remove (slot, nonce, route)).1, [.removed (map.remove (slot, nonce, route)).2])
  | contains slot => (map, [.contained (map.contains slot)])
  | removeSlot slot => (map.removeSlot slot, [])

/-- The store and the map side by side. -/
noncomputable def onBoth (both : OutstandingTimerStore × RequestMap) (call : StoreCall) :
    (OutstandingTimerStore × RequestMap) × List StoreAnswer :=
  (((call.onStore both.1).1, (call.onMap both.2).1), (call.onStore both.1).2)

end StoreCall

/-- The store holds the entries of the map and no others. -/
def Contents (store : OutstandingTimerStore) (map : RequestMap) : Prop :=
  ∀ triple entry, map triple = some entry ↔
    entry.triple = triple ∧ ∃ key : Nat, store.entries[key]? = some entry

/-- The two answer alike, and hold the same afterwards. -/
def StoreCall.Agrees (both : OutstandingTimerStore × RequestMap) (call : StoreCall) : Prop :=
  (call.onStore both.1).2 = (call.onMap both.2).2 ∧ Contents (call.onStore both.1).1 (call.onMap both.2).1

/-- No entry is kept under the key of the triple that belongs to the other family of addresses. -/
def NoTwin (store : OutstandingTimerStore) (triple : Triple) : Prop :=
  ∀ entry, store.entries[triple.key]? = some entry → ¬ Twins entry.triple.2.2 triple.2.2

/-- Nothing is stored for the slot, if it is the last one of all. -/
def NotLast (store : OutstandingTimerStore) (slot : UInt64) : Prop := slot = u64Max → ¬ store.Waits slot

def StoreCall.Clean (store : OutstandingTimerStore) : StoreCall → Prop
  | .insert request => NoTwin store request.triple
  | .remove slot nonce route => NoTwin store (slot, nonce, route)
  | .contains slot => NotLast store slot
  | .removeSlot slot => NotLast store slot

/-! ### One call -/

section

variable {store : OutstandingTimerStore} {map : RequestMap}

theorem Keyed.at_key (keyed : store.Keyed) {key : Nat} {entry : Outstanding} (found : store.entries[key]? = some entry) :
    key = entry.triple.key := keyed key entry found

/-- What is kept under the key of a triple is its own entry or that of a twin. -/
theorem own_or_twin (keyed : store.Keyed) {triple : Triple} {entry : Outstanding}
    (found : store.entries[triple.key]? = some entry) :
    entry.triple = triple ∨ Twins entry.triple.2.2 triple.2.2 := by
  obtain ⟨slots, nonces, routes | twins⟩ := repairKey_inj (Keyed.at_key keyed found).symm
  · exact .inl (Prod.ext slots (Prod.ext nonces routes))
  · exact .inr twins

theorem Contents.found (contents : Contents store map) (keyed : store.Keyed) {triple : Triple} {entry : Outstanding}
    (held : map triple = some entry) : store.entries[triple.key]? = some entry := by
  obtain ⟨rfl, key, found⟩ := (contents triple entry).mp held
  rw [← Keyed.at_key keyed found]
  exact found

theorem Contents.held (contents : Contents store map) {key : Nat} {entry : Outstanding}
    (found : store.entries[key]? = some entry) : map entry.triple = some entry :=
  (contents entry.triple entry).mpr ⟨rfl, key, found⟩

theorem stored_insert (store : OutstandingTimerStore) (request : OutstandingRequest) (key : Nat) :
    (store.insert request).entries[key]? =
      if request.triple.key = key then some request.entry else store.entries[key]? := by
  rw [OutstandingTimerStore.insert, TreeMap.getElem?_insert]
  simp only [LawfulEqOrd.compare_eq_iff_eq]
  rfl

theorem stored_remove (store : OutstandingTimerStore) (triple : Triple) (key : Nat) :
    (store.remove triple.1 triple.2.1 triple.2.2).1.entries[key]? =
      if triple.key = key then none else store.entries[key]? := by
  rw [OutstandingTimerStore.remove, TreeMap.getElem?_erase]
  simp only [LawfulEqOrd.compare_eq_iff_eq]
  rfl

theorem stored_removeSlot (store : OutstandingTimerStore) (slot : UInt64) (key : Nat) :
    (store.removeSlot slot).entries[key]? = (store.entries[key]?).filter (fun _ => !inSlotRange slot key) := by
  rw [OutstandingTimerStore.removeSlot, TreeMap.getElem?_filter']

theorem agrees_insert_iff (keyed : store.Keyed) (contents : Contents store map) (request : OutstandingRequest) :
    (StoreCall.insert request).Agrees (store, map) ↔ NoTwin store request.triple := by
  have keyed' := OutstandingTimerStore.keyed_insert keyed request
  constructor
  · rintro ⟨-, after⟩ entry found twins
    -- The twin is overwritten, while the map keeps both.
    have other : entry.triple ≠ request.triple := fun same => not_twins_self _ (same ▸ twins)
    have kept : map.insert request entry.triple = some entry := by
      rw [RequestMap.insert, Function.update_of_ne other]
      exact contents.held found
    have still := Contents.found after keyed' kept
    rw [← Keyed.at_key keyed found, show ((StoreCall.insert request).onStore (store, map).1).1 = store.insert request from rfl,
      stored_insert, if_pos rfl, Option.some.injEq] at still
    exact other (still ▸ rfl)
  · intro clean
    refine ⟨rfl, fun triple entry => ?_⟩
    change map.insert request triple = some entry ↔
      entry.triple = triple ∧ ∃ key : Nat, (store.insert request).entries[key]? = some entry
    by_cases mine : triple = request.triple
    · subst mine
      rw [RequestMap.insert, Function.update_self, Option.some.injEq]
      constructor
      · rintro rfl
        exact ⟨rfl, _, by rw [stored_insert, if_pos rfl]⟩
      · rintro ⟨own, key, found⟩
        have here := Keyed.at_key keyed' found
        rw [own] at here
        rw [stored_insert, if_pos here.symm, Option.some.injEq] at found
        exact found
    · rw [RequestMap.insert, Function.update_of_ne mine]
      constructor
      · intro held
        have own := ((contents triple entry).mp held).1
        have found := contents.found keyed held
        refine ⟨own, triple.key, ?_⟩
        rw [stored_insert, if_neg]
        · exact found
        · intro same
          rw [← same] at found
          obtain alike | twins := own_or_twin keyed found
          · exact mine (own.symm.trans alike)
          · exact clean entry found twins
      · rintro ⟨rfl, key, found⟩
        rw [stored_insert] at found
        split at found
        · cases found
          exact absurd rfl mine
        · exact contents.held found

theorem agrees_remove_iff (keyed : store.Keyed) (contents : Contents store map) (slot : UInt64) (nonce : Nonce)
    (route : RepairRoute) :
    (StoreCall.remove slot nonce route).Agrees (store, map) ↔ NoTwin store (slot, nonce, route) := by
  have answers : (store.remove slot nonce route).2 = store.entries[Triple.key (slot, nonce, route)]? := rfl
  constructor
  · rintro ⟨same, -⟩ entry found twins
    have removed : store.entries[Triple.key (slot, nonce, route)]? = map (slot, nonce, route) := by
      simpa [StoreCall.onStore, StoreCall.onMap, RequestMap.remove, answers] using same
    rw [found] at removed
    have own := ((contents _ _).mp removed.symm).1
    exact not_twins_self _ (own ▸ twins)
  · intro clean
    have same : store.entries[Triple.key (slot, nonce, route)]? = map (slot, nonce, route) := by
      cases found : store.entries[Triple.key (slot, nonce, route)]? with
      | some entry =>
        obtain own | twins := own_or_twin keyed found
        · rw [← own, contents.held found]
        · exact (clean entry found twins).elim
      | none =>
        cases held : map (slot, nonce, route) with
        | none => rfl
        | some entry =>
          rw [contents.found keyed held] at found
          cases found
    refine ⟨congrArg (fun entry => [StoreAnswer.removed entry]) same, fun triple entry => ?_⟩
    change (map.remove (slot, nonce, route)).1 triple = some entry ↔
      entry.triple = triple ∧ ∃ key : Nat, (store.remove slot nonce route).1.entries[key]? = some entry
    have stored := stored_remove store (slot, nonce, route)
    by_cases mine : triple = (slot, nonce, route)
    · subst mine
      rw [RequestMap.remove]
      dsimp only
      rw [Function.update_self]
      refine iff_of_false (by simp) ?_
      rintro ⟨own, key, found⟩
      rw [stored] at found
      split at found
      · cases found
      next other => exact other (own ▸ (Keyed.at_key keyed found).symm)
    · rw [RequestMap.remove]
      dsimp only
      rw [Function.update_of_ne mine, contents triple entry]
      refine and_congr_right (fun own => exists_congr (fun key => ?_))
      rw [stored]
      split
      next here =>
        refine iff_of_false (fun found => ?_) (by simp)
        rw [← here] at found
        have held := contents.held found
        rw [same] at found
        exact mine (own.symm.trans ((contents _ _).mp found).1)
      next => exact Iff.rfl

/-- The range of the last slot is empty. -/
theorem inSlotRange_last (key : Nat) : inSlotRange u64Max key = false := by
  have next : saturatingSucc u64Max = u64Max := by decide
  rw [inSlotRange, next, Bool.and_eq_false_iff, decide_eq_false_iff_not, decide_eq_false_iff_not]
  omega

theorem inSlotRange_iff (keyed : store.Keyed) {slot : UInt64} (known : NotLast store slot) {key : Nat} {entry : Outstanding}
    (found : store.entries[key]? = some entry) : inSlotRange slot key = true ↔ entry.triple.1 = slot := by
  rw [Keyed.at_key keyed found]
  constructor
  · exact slot_of_inSlotRange
  · rintro rfl
    apply Tasks.inSlotRange_key
    intro last
    exact known last ⟨key, entry, found, rfl⟩

theorem agrees_contains_iff (keyed : store.Keyed) (contents : Contents store map) (slot : UInt64) :
    (StoreCall.contains slot).Agrees (store, map) ↔ NotLast store slot := by
  have answer : map.contains slot = true ↔ store.Waits slot := by
    simp only [RequestMap.contains, decide_eq_true_eq]
    constructor
    · rintro ⟨triple, rfl, held⟩
      obtain ⟨entry, held⟩ := Option.ne_none_iff_exists'.mp held
      obtain ⟨own, key, found⟩ := (contents triple entry).mp held
      exact ⟨key, entry, found, congrArg Prod.fst own⟩
    · rintro ⟨key, entry, found, rfl⟩
      exact ⟨entry.triple, rfl, by rw [contents.held found]; exact Option.some_ne_none _⟩
  have agrees : (StoreCall.contains slot).Agrees (store, map) ↔ store.contains slot = map.contains slot := by
    refine ⟨fun same => by simpa [StoreCall.onStore, StoreCall.onMap] using same.1, fun same => ⟨?_, contents⟩⟩
    exact congrArg (fun answer => [StoreAnswer.contained answer]) same
  have looked : store.contains slot = true ↔
      ∃ (key : Nat) (entry : Outstanding), store.entries[key]? = some entry ∧ inSlotRange slot key = true := by
    rw [OutstandingTimerStore.contains, List.any_eq_true]
    constructor
    · rintro ⟨key, member, within⟩
      obtain ⟨entry, found⟩ := Option.isSome_iff_exists.mp (TreeMap.mem_iff_isSome_getElem?.mp (TreeMap.mem_keys.mp member))
      exact ⟨key, entry, found, within⟩
    · rintro ⟨key, entry, found, within⟩
      exact ⟨key, TreeMap.mem_keys.mpr (TreeMap.mem_iff_isSome_getElem?.mpr (by rw [found]; rfl)), within⟩
  rw [agrees, Bool.eq_iff_iff, answer, looked]
  constructor
  · rintro same rfl waits
    obtain ⟨key, entry, found, within⟩ := same.mpr waits
    rw [inSlotRange_last] at within
    cases within
  · intro known
    refine exists_congr (fun key => exists_congr (fun entry => and_congr_right (fun found => ?_)))
    exact inSlotRange_iff keyed known found

theorem agrees_removeSlot_iff (keyed : store.Keyed) (contents : Contents store map) (slot : UInt64) :
    (StoreCall.removeSlot slot).Agrees (store, map) ↔ NotLast store slot := by
  constructor
  · rintro ⟨-, after⟩ rfl ⟨key, entry, found, last⟩
    have kept : (store.removeSlot u64Max).entries[key]? = some entry := by
      rw [stored_removeSlot, found, inSlotRange_last]
      rfl
    have held : map.removeSlot u64Max entry.triple = some entry := (after entry.triple entry).mpr ⟨rfl, key, kept⟩
    rw [RequestMap.removeSlot, if_pos (show entry.triple.1 = u64Max from last)] at held
    cases held
  · intro known
    refine ⟨rfl, fun triple entry => ?_⟩
    change map.removeSlot slot triple = some entry ↔
      entry.triple = triple ∧ ∃ key : Nat, (store.removeSlot slot).entries[key]? = some entry
    have stored : ∀ key : Nat, (store.removeSlot slot).entries[key]? = some entry ↔
        store.entries[key]? = some entry ∧ entry.triple.1 ≠ slot := by
      intro key
      rw [stored_removeSlot, Option.filter_eq_some_iff]
      refine and_congr_right (fun found => ?_)
      rw [ne_eq, ← inSlotRange_iff keyed known found]
      cases inSlotRange slot key <;> simp
    simp only [stored, exists_and_right]
    unfold RequestMap.removeSlot
    split
    next here =>
      refine iff_of_false (by simp) ?_
      rintro ⟨rfl, -, apart⟩
      exact apart here
    next apart =>
      rw [contents triple entry]
      refine and_congr_right (fun own => ?_)
      rw [own]
      exact ⟨fun found => ⟨found, apart⟩, And.left⟩

theorem agrees_iff_clean (keyed : store.Keyed) (contents : Contents store map) (call : StoreCall) :
    call.Agrees (store, map) ↔ call.Clean store := by
  cases call with
  | insert request => exact agrees_insert_iff keyed contents request
  | remove slot nonce route => exact agrees_remove_iff keyed contents slot nonce route
  | contains slot => exact agrees_contains_iff keyed contents slot
  | removeSlot slot => exact agrees_removeSlot_iff keyed contents slot

theorem keyed_onStore (keyed : store.Keyed) (call : StoreCall) : (call.onStore store).1.Keyed := by
  cases call with
  | insert request => exact OutstandingTimerStore.keyed_insert keyed request
  | remove slot nonce route => exact OutstandingTimerStore.keyed_remove keyed nonce route
  | contains slot => exact keyed
  | removeSlot slot => exact OutstandingTimerStore.keyed_removeSlot keyed

end

/-! ### All calls -/

/-- Before any call. -/
def noRequests : OutstandingTimerStore × RequestMap := (⟨∅⟩, fun _ => none)

/-- After any sequence of calls the store is the map, as long as no call meets the key of a twin and none asks about the
last slot of all while a request of it waits. -/
theorem store_is_map_iff (calls : List StoreCall) :
    Meets StoreCall.onBoth (fun both call => call.Agrees both) noRequests calls ↔
      Meets StoreCall.onBoth (fun both call => call.Clean both.1) noRequests calls := by
  refine meets_congr_of_invariant (P := fun both => both.1.Keyed ∧ Contents both.1 both.2) ?_ ?_ ?_ calls
  · refine ⟨OutstandingTimerStore.keyed_empty, fun triple entry => ?_⟩
    simp [noRequests]
  · rintro ⟨store, map⟩ call ⟨keyed, contents⟩
    exact agrees_iff_clean keyed contents call
  · rintro ⟨store, map⟩ call ⟨keyed, -⟩ ⟨-, after⟩
    exact ⟨keyed_onStore keyed call, after⟩

/-- A request to 44.1.2.3:8008. -/
def fourRequest : OutstandingRequest := ⟨.windowIndex, 5, 7, 3, .udp ⟨.v4 0x2c010203, 8008⟩ 3⟩

/-- It waits, and an answer comes from [2c01:203::]:8008. -/
def twinCalls : List StoreCall :=
  [.insert fourRequest, .remove 7 5 (.addr ⟨.v6 0x2c010203000000000000000000000000, 8008⟩)]

def lastSlotRequest : OutstandingRequest := ⟨.windowIndex, 5, u64Max, 3, .overlay 3⟩

/-- A request for the last slot of all waits, and the slot is looked for. -/
def lastSlotCalls : List StoreCall := [.insert lastSlotRequest, .contains u64Max]

theorem twins_and_last_slot_differ :
    ¬ Meets StoreCall.onBoth (fun both call => call.Agrees both) noRequests twinCalls ∧
      ¬ Meets StoreCall.onBoth (fun both call => call.Agrees both) noRequests lastSlotCalls := by
  constructor
  · rintro ⟨-, ⟨answers, -⟩, -⟩
    have same : (((⟨∅⟩ : OutstandingTimerStore).insert fourRequest).remove 7 5
          (.addr ⟨.v6 0x2c010203000000000000000000000000, 8008⟩)).2 =
        (RequestMap.remove (RequestMap.insert (fun _ => none) fourRequest)
          (7, 5, .addr ⟨.v6 0x2c010203000000000000000000000000, 8008⟩)).2 :=
      StoreAnswer.removed.inj (List.cons.inj answers).1
    revert same
    decide
  · rintro ⟨-, ⟨answers, -⟩, -⟩
    have same : ((⟨∅⟩ : OutstandingTimerStore).insert lastSlotRequest).contains u64Max =
        RequestMap.contains (RequestMap.insert (fun _ => none) lastSlotRequest) u64Max :=
      StoreAnswer.contained.inj (List.cons.inj answers).1
    have there : RequestMap.contains (RequestMap.insert (fun _ => none) lastSlotRequest) u64Max = true :=
      (@decide_eq_true_iff _ (Classical.propDecidable _)).mpr ⟨lastSlotRequest.triple, rfl, by decide⟩
    rw [there] at same
    revert same
    decide

end Lightbringer.Repair
