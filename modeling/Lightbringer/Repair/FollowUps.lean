import Lightbringer.Repair.Tasks

/-!
# What an answer to an unbounded request leads to

`handle_unbounded_packet_response` on a packet that matched, of which nothing but slot, nonce and route has been checked:
which requests it issues, and where the sum of its index and one does not fit.
-/

namespace Lightbringer.Repair
open Std

/-! ### The requests of a batch -/

/-- The indices a batch asks for one by one. -/
def windowIndices (batch : List SocketRequest) : List UInt32 :=
  (batch.filter (fun request => request.kind = .windowIndex)).map (·.shredIndex)

/-- The indices from which a batch asks for the highest shred. -/
def highestIndices (batch : List SocketRequest) : List UInt32 :=
  (batch.filter (fun request => request.kind = .highestWindowIndex)).map (·.shredIndex)

theorem windowIndices_append (batch more : List SocketRequest) :
    windowIndices (batch ++ more) = windowIndices batch ++ windowIndices more := by
  simp [windowIndices]

theorem highestIndices_append (batch more : List SocketRequest) :
    highestIndices (batch ++ more) = highestIndices batch ++ highestIndices more := by
  simp [highestIndices]

theorem processMissingShreds_range (draws : Nat → Draw) (slot : UInt64) (start limit : UInt32) :
    processMissingShreds draws slot (indexRange start limit) =
      (List.range (limit.toNat - start.toNat)).filterMap
        (fun k => mapShred (draws k) slot (start + UInt32.ofNat k) .windowIndex) := by
  have numbered : (indexRange start limit).zipIdx =
      (List.range (limit.toNat - start.toNat)).map (fun k => (start + UInt32.ofNat k, k)) := by
    apply List.ext_getElem
    · simp [indexRange]
    · intro k _ _
      simp [indexRange]
  rw [processMissingShreds, numbered, List.filterMap_map]
  rfl

/-- Nothing is asked for one by one but the indices of the range, each of which is asked for if a peer is found. -/
theorem mem_windowIndices_range {draws : Nat → Draw} {slot : UInt64} {start limit index : UInt32} :
    index ∈ windowIndices (processMissingShreds draws slot (indexRange start limit)) ↔
      start.toNat ≤ index.toNat ∧ index.toNat < limit.toNat ∧ (draws (index.toNat - start.toNat)).isSome = true := by
  have bound := limit.toNat_lt
  rw [processMissingShreds_range]
  simp only [windowIndices, List.mem_map, List.mem_filter, List.mem_filterMap, List.mem_range, decide_eq_true_eq]
  constructor
  · rintro ⟨request, ⟨⟨k, below, mapped⟩, -⟩, rfl⟩
    obtain ⟨drawn, found, rfl⟩ := Option.map_eq_some_iff.mp mapped
    have place : (start + UInt32.ofNat k).toNat = start.toNat + k := by
      rw [UInt32.toNat_add, UInt32.toNat_ofNat']
      omega
    dsimp only
    rw [place, Nat.add_sub_cancel_left, found]
    exact ⟨Nat.le_add_right .., by omega, rfl⟩
  · rintro ⟨above, below, found⟩
    obtain ⟨drawn, found⟩ := Option.isSome_iff_exists.mp found
    refine ⟨⟨drawn.1, drawn.2, .windowIndex, slot, index⟩, ⟨⟨index.toNat - start.toNat, by omega, ?_⟩, rfl⟩, rfl⟩
    have place : start + UInt32.ofNat (index.toNat - start.toNat) = index := by
      rw [← UInt32.toNat_inj, UInt32.toNat_add, UInt32.toNat_ofNat']
      omega
    rw [mapShred, found, place]
    rfl

theorem pairwise_windowIndices_range (draws : Nat → Draw) (slot : UInt64) (start limit : UInt32) :
    (windowIndices (processMissingShreds draws slot (indexRange start limit))).Pairwise (· < ·) := by
  have bound := limit.toNat_lt
  rw [processMissingShreds_range, windowIndices, List.pairwise_map]
  apply List.Pairwise.filter
  rw [List.pairwise_filterMap]
  refine List.pairwise_lt_range.imp_of_mem ?_
  intro k l member member' below request mapped request' mapped'
  rw [List.mem_range] at member member'
  obtain ⟨drawn, -, rfl⟩ := Option.map_eq_some_iff.mp mapped
  obtain ⟨drawn', -, rfl⟩ := Option.map_eq_some_iff.mp mapped'
  dsimp only
  rw [UInt32.lt_iff_toNat_lt, UInt32.toNat_add, UInt32.toNat_add, UInt32.toNat_ofNat', UInt32.toNat_ofNat']
  omega

theorem highestIndices_missing (draws : Nat → Draw) (slot : UInt64) (shreds : List UInt32) :
    highestIndices (processMissingShreds draws slot shreds) = [] := by
  unfold highestIndices
  rw [List.map_eq_nil_iff, List.filter_eq_nil_iff]
  intro request member
  obtain ⟨entry, -, mapped⟩ := List.mem_filterMap.mp member
  obtain ⟨drawn, -, rfl⟩ := Option.map_eq_some_iff.mp mapped
  simp

theorem length_missing_range (draws : Nat → Draw) (slot : UInt64) (start limit : UInt32) :
    (processMissingShreds draws slot (indexRange start limit)).length =
      (List.range (limit.toNat - start.toNat)).countP (fun k => (draws k).isSome) := by
  rw [processMissingShreds_range, List.length_filterMap_eq_countP]
  refine List.countP_congr (fun k _ => ?_)
  simp [mapShred]

/-! ### What has to be issued -/

variable [ShredLayout]

/-- The packet carries `LAST_SHRED_IN_SLOT`. -/
def flaggedLast (packet : PacketInfo) : Bool := (ShredLayout.getFlags packet).any (·.lastShredInSlot)

/-- How many requests there are to issue after an answer with this index, counting those a peer is found for. -/
def followUpsWanted (draws : Nat → Draw) (packet : PacketInfo) (reqShredIndex shredIndex : UInt32) : Nat :=
  (List.range (shredIndex.toNat - reqShredIndex.toNat)).countP (fun k => (draws (k + 1)).isSome) +
    if flaggedLast packet then 0 else if (draws 0).isSome then 1 else 0

/-- The shreds from the one asked for up to the answer, and from the next one on the highest unless the answer is the
last; each once, for a peer that is found, and `limit` requests at most. -/
structure FollowsExactly (limit : Nat) (draws : Nat → Draw) (packet : PacketInfo) (reqShredIndex shredIndex : UInt32)
    (batch : List SocketRequest) : Prop where
  fits : (ShredLayout.getFlags packet).any (fun flags => !flags.lastShredInSlot) = true → shredIndex.toNat + 1 < 2 ^ 32
  windows : ∀ index, index ∈ windowIndices batch ↔ reqShredIndex.toNat ≤ index.toNat ∧ index.toNat < shredIndex.toNat ∧
    (draws (index.toNat - reqShredIndex.toNat + 1)).isSome = true
  once : (windowIndices batch).Pairwise (· < ·)
  highest : (highestIndices batch).map UInt32.toNat =
    if flaggedLast packet then [] else if (draws 0).isSome then [shredIndex.toNat + 1] else []
  slots : ∀ request ∈ batch, ShredLayout.getSlot packet = some request.slot
  bounded : batch.length ≤ limit

/-- The answer can be read, unless there is nothing to ask for; the next index fits in a `u32` if it is asked for, and
there are not too many in between. -/
structure InReach (limit : Nat) (draws : Nat → Draw) (packet : PacketInfo) (reqShredIndex shredIndex : UInt32) : Prop where
  readable : ShredLayout.getFlags packet = none → followUpsWanted draws packet reqShredIndex shredIndex = 0
  fits : (ShredLayout.getFlags packet).any (fun flags => !flags.lastShredInSlot) = true → shredIndex.toNat + 1 < 2 ^ 32
  bounded : followUpsWanted draws packet reqShredIndex shredIndex ≤ limit

theorem batch_eq {packet : PacketInfo} {shredIndex : UInt32} {slot : UInt64} {flags : ShredFlags} (draws : Nat → Draw)
    (reqShredIndex : UInt32) (flagsRead : ShredLayout.getFlags packet = some flags)
    (indexRead : ShredLayout.getIndex packet = some shredIndex) (slotRead : ShredLayout.getSlot packet = some slot) :
    ∃ announced, handleUnboundedPacketResponse draws packet reqShredIndex =
      some (announced, processMissingShreds (fun k => draws (k + 1)) slot (indexRange reqShredIndex shredIndex) ++
        (if flags.lastShredInSlot then none else mapShred (draws 0) slot (shredIndex + 1) .highestWindowIndex).toList) := by
  have range : (if shredIndex = reqShredIndex then [] else indexRange reqShredIndex shredIndex) =
      indexRange reqShredIndex shredIndex := by
    split
    next same => simp [same, indexRange]
    next => rfl
  unfold handleUnboundedPacketResponse
  rw [flagsRead, indexRead, slotRead]
  dsimp only
  rw [range]
  exact ⟨_, rfl⟩

section

variable {limit : Nat} {draws : Nat → Draw} {packet : PacketInfo} {reqShredIndex shredIndex : UInt32}

theorem wanted_zero_iff : followUpsWanted draws packet reqShredIndex shredIndex = 0 ↔
    (∀ index : UInt32, reqShredIndex.toNat ≤ index.toNat → index.toNat < shredIndex.toNat →
      draws (index.toNat - reqShredIndex.toNat + 1) = none) ∧ (flaggedLast packet = false → draws 0 = none) := by
  have bound := shredIndex.toNat_lt
  unfold followUpsWanted
  rw [Nat.add_eq_zero_iff, List.countP_eq_zero]
  refine and_congr ⟨fun none_found index above below => ?_, fun none_found k member => ?_⟩ ?_
  · simpa using none_found (index.toNat - reqShredIndex.toNat) (List.mem_range.mpr (by omega))
  · rw [List.mem_range] at member
    have place : (UInt32.ofNat (reqShredIndex.toNat + k)).toNat = reqShredIndex.toNat + k := by
      rw [UInt32.toNat_ofNat']
      omega
    have absent := none_found (UInt32.ofNat (reqShredIndex.toNat + k)) (by omega) (by omega)
    rw [place, Nat.add_sub_cancel_left] at absent
    simp [absent]
  · cases flaggedLast packet <;> cases draws 0 <;> simp

/-- An answer that cannot be read issues nothing. -/
theorem follows_nothing_iff (unread : ShredLayout.getFlags packet = none) :
    FollowsExactly limit draws packet reqShredIndex shredIndex [] ↔ InReach limit draws packet reqShredIndex shredIndex := by
  have plain : flaggedLast packet = false := by simp [flaggedLast, unread]
  have nothing : (∀ index : UInt32, index ∈ windowIndices [] ↔ reqShredIndex.toNat ≤ index.toNat ∧
        index.toNat < shredIndex.toNat ∧ (draws (index.toNat - reqShredIndex.toNat + 1)).isSome = true) ∧
      (highestIndices []).map UInt32.toNat =
        (if flaggedLast packet then [] else if (draws 0).isSome then [shredIndex.toNat + 1] else []) ↔
      followUpsWanted draws packet reqShredIndex shredIndex = 0 := by
    rw [wanted_zero_iff, plain]
    refine and_congr (forall_congr' (fun index => ?_)) ?_
    · simp [windowIndices]
    · cases draws 0 <;> simp [highestIndices]
  constructor
  · rintro ⟨fits, windows, -, highest, -, -⟩
    have zero := nothing.mp ⟨windows, highest⟩
    exact ⟨fun _ => zero, fits, zero ▸ Nat.zero_le limit⟩
  · rintro ⟨readable, fits, -⟩
    obtain ⟨windows, highest⟩ := nothing.mpr (readable unread)
    exact ⟨fits, windows, List.Pairwise.nil, highest, by simp, Nat.zero_le limit⟩

theorem follows_batch_iff {slot : UInt64} {flags : ShredFlags} (flagsRead : ShredLayout.getFlags packet = some flags)
    (slotRead : ShredLayout.getSlot packet = some slot) :
    FollowsExactly limit draws packet reqShredIndex shredIndex
        (processMissingShreds (fun k => draws (k + 1)) slot (indexRange reqShredIndex shredIndex) ++
          (if flags.lastShredInSlot then none
            else mapShred (draws 0) slot (shredIndex + 1) .highestWindowIndex).toList) ↔
      InReach limit draws packet reqShredIndex shredIndex := by
  have flagged : flaggedLast packet = flags.lastShredInSlot := by simp [flaggedLast, flagsRead]
  have windowsOf : ∀ last : Option SocketRequest, (∀ request ∈ last, request.kind = .highestWindowIndex) →
      windowIndices (processMissingShreds (fun k => draws (k + 1)) slot (indexRange reqShredIndex shredIndex) ++ last.toList) =
        windowIndices (processMissingShreds (fun k => draws (k + 1)) slot (indexRange reqShredIndex shredIndex)) := by
    intro last highest
    rw [windowIndices_append]
    cases last with
    | none => exact List.append_nil _
    | some request => simp [windowIndices, highest request rfl]
  have kinds : ∀ request ∈ (if flags.lastShredInSlot then none
      else mapShred (draws 0) slot (shredIndex + 1) .highestWindowIndex), request.kind = .highestWindowIndex := by
    intro request member
    split at member
    · cases member
    · obtain ⟨drawn, -, rfl⟩ := Option.map_eq_some_iff.mp member
      rfl
  have length : (processMissingShreds (fun k => draws (k + 1)) slot (indexRange reqShredIndex shredIndex) ++
      (if flags.lastShredInSlot then none
        else mapShred (draws 0) slot (shredIndex + 1) .highestWindowIndex).toList).length =
      followUpsWanted draws packet reqShredIndex shredIndex := by
    rw [List.length_append, length_missing_range, followUpsWanted, flagged]
    cases flags.lastShredInSlot <;> cases draws 0 <;> simp [mapShred]
  have plain : flags.lastShredInSlot = false →
      (ShredLayout.getFlags packet).any (fun flags => !flags.lastShredInSlot) = true := by
    intro last
    simp [flagsRead, last]
  constructor
  · rintro ⟨fits, -, -, -, -, bounded⟩
    refine ⟨fun unread => ?_, fits, length ▸ bounded⟩
    rw [flagsRead] at unread
    cases unread
  · rintro ⟨-, fits, bounded⟩
    refine ⟨fits, ?_, ?_, ?_, ?_, length ▸ bounded⟩
    · intro index
      rw [windowsOf _ kinds]
      exact mem_windowIndices_range
    · rw [windowsOf _ kinds]
      exact pairwise_windowIndices_range ..
    · rw [highestIndices_append, highestIndices_missing, flagged, List.nil_append]
      cases last : flags.lastShredInSlot with
      | true => rfl
      | false =>
        cases drawn : draws 0 with
        | none => rfl
        | some peer =>
          have small := fits (plain last)
          have next : (shredIndex + 1).toNat = shredIndex.toNat + 1 := by
            rw [UInt32.toNat_add, UInt32.toNat_one]
            omega
          simp [mapShred, highestIndices, next]
    · intro request member
      rw [slotRead]
      obtain missing | last := List.mem_append.mp member
      · rw [RepairManager.slot_processMissingShreds missing]
      · rw [Option.mem_toList] at last
        split at last
        · cases last
        · rw [RepairManager.slot_mapShred last]

end

/-- Whatever answer matches an unbounded request, it is followed up exactly as it should be iff it can be read, the next
index fits in a `u32` where it is asked for, and the index is not too far from the one asked for. -/
theorem follows_exactly_iff (limit : Nat) (manager : RepairManager) (route : RepairRoute) (packet : PacketInfo)
    (draws : Nat → Draw) {nonce : Nonce} {slot : UInt64} {shredIndex : UInt32} {store : OutstandingTimerStore}
    {entry : Outstanding} (nonceRead : repairNonce packet = some nonce) (slotRead : ShredLayout.getSlot packet = some slot)
    (indexRead : ShredLayout.getIndex packet = some shredIndex)
    (matched : manager.outstanding.remove slot nonce route = (store, some entry))
    (unbounded : entry.kind = .highestWindowIndex) :
    FollowsExactly limit draws packet entry.shredIndex shredIndex
        ((manager.receive route packet draws).2.filterMap Event.sentRequest) ↔
      InReach limit draws packet entry.shredIndex shredIndex := by
  unfold RepairManager.receive
  rw [nonceRead, slotRead]
  dsimp only
  rw [matched]
  dsimp only
  rw [if_pos unbounded]
  cases flagsRead : ShredLayout.getFlags packet with
  | none =>
    have unread : handleUnboundedPacketResponse draws packet entry.shredIndex = none := by
      rw [handleUnboundedPacketResponse, flagsRead]
    rw [unread]
    exact follows_nothing_iff flagsRead
  | some flags =>
    obtain ⟨announced, followed⟩ := batch_eq draws entry.shredIndex flagsRead indexRead slotRead
    rw [followed]
    dsimp only
    rw [List.filterMap_append, List.filterMap_map, eventSentRequest_sent, List.filterMap_some,
      show [Event.forwarded packet].filterMap Event.sentRequest = [] from rfl, List.append_nil]
    exact follows_batch_iff flagsRead slotRead

omit [ShredLayout]

/-- `MAX_DATA_SHREDS_PER_SLOT` of `solana_ledger`. -/
def maxDataShredsPerSlot : Nat := 32768

/-- Slot 7 is asked for from this index on. -/
def askedFrom (index : UInt32) : RepairManager :=
  RepairManager.track .new ⟨.highestWindowIndex, 88 * 65536, 7, index, .udp ⟨.v4 0xC6336401, 8008⟩ 3⟩

def askedRoute : RepairRoute := .addr ⟨.v4 0xC6336401, 8008⟩

/-- An unsigned shred of slot 7, not flagged. Its last four bytes are read as the nonce. -/
def unsignedShred (index : UInt32) : PacketInfo := wireShred ⟨.data, 7, index, 1, 0⟩ 0

def aPeer : Nat → Draw := fun _ => some (.udp ⟨.v4 0xC6336401, 8008⟩ 3, 6)

theorem follows_exactly_iff_third :
    @FollowsExactly wireLayout maxDataShredsPerSlot aPeer (unsignedShred 3) 1 3
        ((@RepairManager.receive (askedFrom 1) wireLayout askedRoute (unsignedShred 3) aPeer).2.filterMap Event.sentRequest) ↔
      @InReach wireLayout maxDataShredsPerSlot aPeer (unsignedShred 3) 1 3 := by
  have nonceRead : repairNonce (unsignedShred 3) = some (88 * 65536) := by decide
  have slotRead : wireLayout.getSlot (unsignedShred 3) = some 7 := by decide
  have indexRead : wireLayout.getIndex (unsignedShred 3) = some 3 := by decide
  have matched : (askedFrom 1).outstanding.remove 7 (88 * 65536) askedRoute =
      (((askedFrom 1).outstanding.remove 7 (88 * 65536) askedRoute).1,
        some ⟨.highestWindowIndex, 1, ⟨⟨.highestWindowIndex, 88 * 65536, 7, 1, .udp ⟨.v4 0xC6336401, 8008⟩ 3⟩, true⟩,
          .udp ⟨.v4 0xC6336401, 8008⟩ 3⟩) := Prod.ext rfl (by decide)
  exact @follows_exactly_iff wireLayout maxDataShredsPerSlot (askedFrom 1) askedRoute (unsignedShred 3) aPeer _ _ _ _ _
    nonceRead slotRead indexRead matched rfl

/-- The index after the highest a `u32` can hold is asked for as index 0. -/
theorem highest_index_overflows :
    (((askedFrom 4294967295).outstanding.remove 7 (88 * 65536) askedRoute).2.map (fun entry => (entry.kind, entry.shredIndex)) =
        some (.highestWindowIndex, 4294967295)) ∧
      repairNonce (unsignedShred 4294967295) = some (88 * 65536) ∧
      (@RepairManager.receive (askedFrom 4294967295) wireLayout askedRoute (unsignedShred 4294967295) aPeer).2.filterMap
          Event.sentRequest = [⟨.udp ⟨.v4 0xC6336401, 8008⟩ 3, 6, .highestWindowIndex, 7, 0⟩] ∧
      ∀ limit, ¬ @FollowsExactly wireLayout limit aPeer (unsignedShred 4294967295) 4294967295 4294967295
        ((@RepairManager.receive (askedFrom 4294967295) wireLayout askedRoute (unsignedShred 4294967295) aPeer).2.filterMap
          Event.sentRequest) := by
  refine ⟨by decide, by decide, by decide, ?_⟩
  intro limit follows
  have small := @FollowsExactly.fits wireLayout _ _ _ _ _ _ follows (by decide)
  revert small
  decide

end Lightbringer.Repair
