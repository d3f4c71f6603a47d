import Lightbringer.Repair.Messages
import Lightbringer.Shred
import Lightbringer.Lib.Bytes

/-!
# Requests that wait for an answer

`OutstandingTimerStore` of `repair/outstanding_timers.rs`. The 45 bytes of a key are kept as the number they spell:
byte strings of one length are ordered as their numbers, so that a range of keys is a range of numbers.
-/

namespace Lightbringer.Repair
open Std

/-! ### Keys -/

def ipBytes : IpAddr → List UInt8
  | .v4 octets => Bytes.ofNat 4 octets.toNat ++ List.replicate 12 0
  | .v6 octets => Bytes.ofNat 16 octets.toNat

/-- The route tag, then address and port, or the peer's identity. -/
def routeBytes : RepairRoute → List UInt8
  | .addr socket => 0 :: (ipBytes socket.ip ++ leBytes 2 socket.port.toNat ++ List.replicate 14 0)
  | .peer pubkey => 1 :: Bytes.ofNat 32 pubkey.toNat

def repairKey (slot : UInt64) (nonce : Nonce) (route : RepairRoute) : Nat :=
  Bytes.toNat (Bytes.ofNat 8 slot.toNat ++ (leBytes 4 nonce.toNat ++ routeBytes route))

/-- The lowest key of a slot. -/
def prefixKey (slot : UInt64) : Nat := Bytes.toNat (Bytes.ofNat 8 slot.toNat ++ List.replicate 37 0)

/-- The range `contains` and `remove_slot` look at. -/
def inSlotRange (slot : UInt64) (key : Nat) : Bool := prefixKey slot ≤ key && key < prefixKey (saturatingSucc slot)

/-! ### The store -/

/-- The timer of a request: what it will report as timed out, and whether it is still to fire. -/
structure RequestTimer where
  request : OutstandingRequest
  armed : Bool
  deriving DecidableEq

structure Outstanding where
  kind : OutstandingRequestKind
  shredIndex : UInt32
  timer : RequestTimer
  target : RepairTarget
  deriving DecidableEq

structure OutstandingTimerStore where
  entries : TreeMap Nat Outstanding

namespace OutstandingTimerStore

variable (store : OutstandingTimerStore)

/-- A request enters the store with a timer of its own. -/
def insert (request : OutstandingRequest) : OutstandingTimerStore :=
  ⟨store.entries.insert (repairKey request.slot request.nonce request.target.route)
    ⟨request.kind, request.shred, ⟨request, true⟩, request.target⟩⟩

def remove (slot : UInt64) (nonce : Nonce) (route : RepairRoute) : OutstandingTimerStore × Option Outstanding :=
  (⟨store.entries.erase (repairKey slot nonce route)⟩, store.entries[repairKey slot nonce route]?)

def contains (slot : UInt64) : Bool := store.entries.keys.any (inSlotRange slot)

def removeSlot (slot : UInt64) : OutstandingTimerStore :=
  ⟨store.entries.filter (fun key _ => !inSlotRange slot key)⟩

/-- A request of the slot waits for an answer. -/
def Waits (slot : UInt64) : Prop :=
  ∃ (key : Nat) (entry : Outstanding), store.entries[key]? = some entry ∧ entry.timer.request.slot = slot

/-- Every entry is kept under the key of its own request. -/
def Keyed : Prop :=
  ∀ (key : Nat) entry, store.entries[key]? = some entry →
    key = repairKey entry.timer.request.slot entry.timer.request.nonce entry.timer.request.target.route

/-- Something holds of every entry and its key. -/
def Each (P : Nat → Outstanding → Prop) : Prop :=
  ∀ (key : Nat) entry, store.entries[key]? = some entry → P key entry

end OutstandingTimerStore

/-! ### The slot in a key -/

theorem length_routeBytes (route : RepairRoute) : (routeBytes route).length = 33 := by
  cases route with
  | addr socket =>
    obtain ⟨ip, port⟩ := socket
    cases ip <;> simp [routeBytes, ipBytes, leBytes]
  | peer pubkey => simp [routeBytes]

theorem toNat_slotBytes (slot : UInt64) (rest : List UInt8) :
    Bytes.toNat (Bytes.ofNat 8 slot.toNat ++ rest) = slot.toNat * 256 ^ rest.length + Bytes.toNat rest := by
  have small : slot.toNat < 256 ^ 8 := slot.toNat_lt
  rw [Bytes.toNat_append, Bytes.toNat_ofNat, Nat.mod_eq_of_lt small]

theorem slot_of_key (slot : UInt64) (nonce : Nonce) (route : RepairRoute) :
    repairKey slot nonce route / 256 ^ 37 = slot.toNat := by
  have length : (leBytes 4 nonce.toNat ++ routeBytes route).length = 37 := by
    rw [List.length_append, length_routeBytes]
    simp [leBytes]
  have small := Bytes.toNat_lt (leBytes 4 nonce.toNat ++ routeBytes route)
  rw [length] at small
  rw [repairKey, toNat_slotBytes, length]
  omega

theorem prefixKey_eq (slot : UInt64) : prefixKey slot = slot.toNat * 256 ^ 37 := by
  have zeros : Bytes.toNat (List.replicate 37 0) = 0 := by decide
  rw [prefixKey, toNat_slotBytes, zeros, List.length_replicate, Nat.add_zero]

/-- The range holds no key of another slot. -/
theorem slot_of_inSlotRange {slot other : UInt64} {nonce : Nonce} {route : RepairRoute}
    (within : inSlotRange slot (repairKey other nonce route) = true) : other = slot := by
  have key := slot_of_key other nonce route
  rw [inSlotRange, prefixKey_eq, prefixKey_eq, Bool.and_eq_true, decide_eq_true_eq, decide_eq_true_eq] at within
  have next := toNat_saturatingSucc slot
  refine UInt64.toNat_inj.mp ?_
  rw [← key]
  omega

theorem slot_of_repairKey {slot slot' : UInt64} {nonce nonce' : Nonce} {route route' : RepairRoute}
    (same : repairKey slot nonce route = repairKey slot' nonce' route') : slot = slot' := by
  have key := slot_of_key slot nonce route
  rw [same, slot_of_key] at key
  exact UInt64.toNat_inj.mp key.symm

/-! ### What a key tells apart

The bytes of a route do not say to which family its address belongs: an IPv4 address is followed by twelve zeros, and
is then spelled as the IPv6 address that starts with its octets. -/

def Twins : RepairRoute → RepairRoute → Prop
  | .addr ⟨.v4 short, port⟩, .addr ⟨.v6 long, port'⟩ => long.toNat = short.toNat * 2 ^ 96 ∧ port = port'
  | .addr ⟨.v6 long, port⟩, .addr ⟨.v4 short, port'⟩ => long.toNat = short.toNat * 2 ^ 96 ∧ port = port'
  | _, _ => False

instance (route other : RepairRoute) : Decidable (Twins route other) := by
  unfold Twins
  split <;> infer_instance

theorem not_twins_self (route : RepairRoute) : ¬ Twins route route := by
  rcases route with ⟨⟨_ | _⟩, _⟩ | _ <;> exact id

theorem toNat_ipBytes (ip : IpAddr) :
    Bytes.toNat (ipBytes ip) = match ip with | .v4 octets => octets.toNat * 2 ^ 96 | .v6 octets => octets.toNat := by
  cases ip with
  | v4 octets =>
    have zeros : Bytes.toNat (List.replicate 12 0) = 0 := by decide
    have small : octets.toNat < 256 ^ 4 := octets.isLt
    rw [ipBytes, Bytes.toNat_append, Bytes.toNat_ofNat, Nat.mod_eq_of_lt small, zeros, List.length_replicate]
    simp
  | v6 octets =>
    have small : octets.toNat < 256 ^ 16 := octets.isLt
    rw [ipBytes, Bytes.toNat_ofNat, Nat.mod_eq_of_lt small]

theorem ipBytes_inj {ip ip' : IpAddr} {port : UInt16} (same : ipBytes ip = ipBytes ip') :
    ip = ip' ∨ Twins (.addr ⟨ip, port⟩) (.addr ⟨ip', port⟩) := by
  have value := congrArg Bytes.toNat same
  rw [toNat_ipBytes, toNat_ipBytes] at value
  cases ip <;> cases ip' <;> dsimp only at value
  · exact .inl (congrArg _ (BitVec.eq_of_toNat_eq (by omega)))
  · exact .inr ⟨value.symm, rfl⟩
  · exact .inr ⟨value, rfl⟩
  · exact .inl (congrArg _ (BitVec.eq_of_toNat_eq value))

theorem leBytes_eq (width n : Nat) : leBytes width n = (Bytes.ofNat width n).reverse := by
  induction width generalizing n with
  | zero => rfl
  | succ width ih =>
    rw [Bytes.ofNat, List.reverse_append, ← ih, leBytes, List.range_succ_eq_map, List.map_cons, List.map_map]
    simp only [leBytes, List.reverse_singleton, List.singleton_append, Nat.pow_zero, Nat.div_one]
    refine congrArg _ (List.map_congr_left (fun i _ => ?_))
    rw [Function.comp_apply, Nat.div_div_eq_div_mul, Nat.pow_succ, Nat.mul_comm]

theorem leBytes_inj {width n m : Nat} (smallN : n < 256 ^ width) (smallM : m < 256 ^ width)
    (same : leBytes width n = leBytes width m) : n = m := by
  rw [leBytes_eq, leBytes_eq, List.reverse_inj] at same
  have value := congrArg Bytes.toNat same
  rwa [Bytes.toNat_ofNat, Bytes.toNat_ofNat, Nat.mod_eq_of_lt smallN, Nat.mod_eq_of_lt smallM] at value

theorem routeBytes_inj {route other : RepairRoute} (same : routeBytes route = routeBytes other) :
    route = other ∨ Twins route other := by
  cases route with
  | addr socket =>
    cases other with
    | addr socket' =>
      obtain ⟨ip, port⟩ := socket
      obtain ⟨ip', port'⟩ := socket'
      have rest := (List.cons.inj same).2
      have lengths : ∀ ip, (ipBytes ip).length = 16 := by
        rintro (_ | _) <;> simp [ipBytes]
      obtain ⟨front, _⟩ := List.append_inj rest (by simp [lengths, leBytes])
      obtain ⟨ips, ports⟩ := List.append_inj front (by simp [lengths])
      have samePort : port = port' := UInt16.toNat_inj.mp (leBytes_inj port.toNat_lt port'.toNat_lt ports)
      subst samePort
      rcases ipBytes_inj ips with rfl | twins
      · exact .inl rfl
      · exact .inr twins
    | peer pubkey => simp [routeBytes] at same
  | peer pubkey =>
    cases other with
    | addr socket => simp [routeBytes] at same
    | peer pubkey' =>
      have value := congrArg Bytes.toNat (List.cons.inj same).2
      have small : pubkey.toNat < 256 ^ 32 := pubkey.isLt
      have small' : pubkey'.toNat < 256 ^ 32 := pubkey'.isLt
      rw [Bytes.toNat_ofNat, Bytes.toNat_ofNat, Nat.mod_eq_of_lt small, Nat.mod_eq_of_lt small'] at value
      exact .inl (congrArg _ (BitVec.eq_of_toNat_eq value))

theorem repairKey_inj {slot slot' : UInt64} {nonce nonce' : Nonce} {route route' : RepairRoute}
    (same : repairKey slot nonce route = repairKey slot' nonce' route') :
    slot = slot' ∧ nonce = nonce' ∧ (route = route' ∨ Twins route route') := by
  have slots := slot_of_repairKey same
  subst slots
  have lengths : ∀ (n : Nonce) r, (leBytes 4 n.toNat ++ routeBytes r).length = 37 := by
    intro n r
    rw [List.length_append, length_routeBytes]
    simp [leBytes]
  rw [repairKey, repairKey, toNat_slotBytes, toNat_slotBytes, lengths, lengths] at same
  have rest := Bytes.toNat_inj ((lengths nonce route).trans (lengths nonce' route').symm) (Nat.add_left_cancel same)
  obtain ⟨nonces, routes⟩ := List.append_inj rest (by simp [leBytes])
  exact ⟨rfl, UInt32.toNat_inj.mp (leBytes_inj nonce.toNat_lt nonce'.toNat_lt nonces), routeBytes_inj routes⟩

/-! ### What the operations leave -/

namespace OutstandingTimerStore

variable {store : OutstandingTimerStore} {slot other : UInt64}

theorem each_empty {P : Nat → Outstanding → Prop} : Each ⟨∅⟩ P := by
  intro key entry found
  simp at found

theorem each_insert {P Q : Nat → Outstanding → Prop} (each : store.Each P) (request : OutstandingRequest)
    (others : ∀ key entry, key ≠ repairKey request.slot request.nonce request.target.route → P key entry → Q key entry)
    (fresh : Q (repairKey request.slot request.nonce request.target.route)
      ⟨request.kind, request.shred, ⟨request, true⟩, request.target⟩) : (store.insert request).Each Q := by
  intro key entry found
  rw [insert, TreeMap.getElem?_insert] at found
  split at found
  next here =>
    cases found
    rw [← LawfulEqOrd.compare_eq_iff_eq.mp here]
    exact fresh
  next apart =>
    refine others key entry (fun same => apart ?_) (each key entry found)
    rw [same]
    exact ReflOrd.compare_self

theorem each_remove {P Q : Nat → Outstanding → Prop} (each : store.Each P) {nonce : Nonce} {route : RepairRoute}
    (others : ∀ key entry, key ≠ repairKey slot nonce route → P key entry → Q key entry) :
    (store.remove slot nonce route).1.Each Q := by
  intro key entry found
  rw [remove, TreeMap.getElem?_erase] at found
  split at found
  · cases found
  next apart =>
    refine others key entry (fun same => apart ?_) (each key entry found)
    rw [same]
    exact ReflOrd.compare_self

theorem each_removeSlot {P Q : Nat → Outstanding → Prop} (each : store.Each P)
    (others : ∀ key entry, inSlotRange slot key = false → P key entry → Q key entry) :
    (store.removeSlot slot).Each Q := by
  intro key entry found
  rw [removeSlot, TreeMap.getElem?_filter'] at found
  obtain ⟨before, outside⟩ := Option.filter_eq_some_iff.mp found
  exact others key entry (by simpa using outside) (each key entry before)

theorem keyed_empty : Keyed ⟨∅⟩ := each_empty

theorem keyed_insert (keyed : store.Keyed) (request : OutstandingRequest) : (store.insert request).Keyed :=
  each_insert keyed request (fun _ _ _ held => held) rfl

theorem waits_insert (request : OutstandingRequest) : (store.insert request).Waits request.slot :=
  ⟨_, ⟨request.kind, request.shred, ⟨request, true⟩, request.target⟩, TreeMap.getElem?_insert_self, rfl⟩

/-- What is replaced is a request of the same slot. -/
theorem waits_insert_of (keyed : store.Keyed) (request : OutstandingRequest) (waits : store.Waits slot) :
    (store.insert request).Waits slot := by
  obtain ⟨key, entry, found, rfl⟩ := waits
  by_cases here : repairKey request.slot request.nonce request.target.route = key
  · have same := slot_of_repairKey (here.trans (keyed key entry found))
    rw [← same]
    exact waits_insert request
  · refine ⟨key, entry, ?_, rfl⟩
    rw [insert, TreeMap.getElem?_insert, if_neg (fun same => here (LawfulEqOrd.compare_eq_iff_eq.mp same))]
    exact found

theorem keyed_remove (keyed : store.Keyed) (nonce : Nonce) (route : RepairRoute) :
    (store.remove slot nonce route).1.Keyed := each_remove keyed (fun _ _ _ held => held)

/-- Only a request of `slot` can be removed. -/
theorem waits_remove_other (keyed : store.Keyed) (nonce : Nonce) (route : RepairRoute) (apart : other ≠ slot)
    (waits : store.Waits other) : (store.remove slot nonce route).1.Waits other := by
  obtain ⟨key, entry, found, rfl⟩ := waits
  refine ⟨key, entry, ?_, rfl⟩
  rw [remove, TreeMap.getElem?_erase, if_neg]
  · exact found
  · intro same
    have here := LawfulEqOrd.compare_eq_iff_eq.mp same
    exact apart (slot_of_repairKey (here.trans (keyed key entry found))).symm

theorem waits_of_contains (keyed : store.Keyed) (contained : store.contains slot = true) : store.Waits slot := by
  obtain ⟨key, member, within⟩ := List.any_eq_true.mp contained
  have present := TreeMap.mem_keys.mp member
  obtain ⟨entry, found⟩ := Option.isSome_iff_exists.mp (TreeMap.mem_iff_isSome_getElem?.mp present)
  refine ⟨key, entry, found, ?_⟩
  rw [keyed key entry found] at within
  exact slot_of_inSlotRange within

theorem keyed_removeSlot (keyed : store.Keyed) : (store.removeSlot slot).Keyed :=
  each_removeSlot keyed (fun _ _ _ held => held)

theorem waits_removeSlot_other (keyed : store.Keyed) (apart : other ≠ slot) (waits : store.Waits other) :
    (store.removeSlot slot).Waits other := by
  obtain ⟨key, entry, found, rfl⟩ := waits
  refine ⟨key, entry, ?_, rfl⟩
  rw [removeSlot, TreeMap.getElem?_filter', found, Option.filter_some, if_pos]
  rw [Bool.not_eq_true']
  refine Bool.eq_false_iff.mpr (fun within => apart ?_)
  rw [keyed key entry found] at within
  exact slot_of_inSlotRange within

end OutstandingTimerStore

end Lightbringer.Repair
