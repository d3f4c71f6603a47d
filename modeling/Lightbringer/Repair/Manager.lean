import Lightbringer.Repair.Outstanding

/-!
# The repair manager

The three loops of `repair/request.rs` and `repair/outstanding_timers.rs`: one turns requests for missing shreds into
requests to peers, one keeps track of those and retries them, one takes in answers. Peers and nonces are drawn at
random and come with the input of a step.
-/

namespace Lightbringer.Repair
open Std

/-- `random_peer` and the nonce drawn with it; `none` when there are no peers. -/
abbrev Draw := Option (RepairTarget × Nonce)

/-- `map_shred`. -/
def mapShred (draw : Draw) (slot : UInt64) (shredIndex : UInt32) (kind : OutstandingRequestKind) :
    Option SocketRequest :=
  draw.map (fun drawn => ⟨drawn.1, drawn.2, kind, slot, shredIndex⟩)

/-- The message that announces a request to the outstanding loop. -/
def SocketRequest.announce (request : SocketRequest) (shred : UInt32) : OutstandingRequestMsg :=
  .new ⟨request.kind, request.nonce, request.slot, shred, request.target⟩

/-- A request for each shred a peer is found for. -/
def processMissingShreds (draws : Nat → Draw) (slot : UInt64) (shreds : List UInt32) : List SocketRequest :=
  shreds.zipIdx.filterMap (fun entry => mapShred (draws entry.2) slot entry.1 .windowIndex)

def announceAll (requests : List SocketRequest) : List OutstandingRequestMsg :=
  requests.map (fun request => request.announce request.shredIndex)

/-- The nonce in the last four bytes. -/
def repairNonce (packet : PacketInfo) : Option Nonce :=
  if 4 ≤ packet.bytes.length then (readLe packet.bytes (packet.bytes.length - 4) 4).map UInt32.ofNat else none

/-- `from..limit`. -/
def indexRange (start limit : UInt32) : List UInt32 :=
  (List.range (limit.toNat - start.toNat)).map (fun i => start + UInt32.ofNat i)

/-- What an answer to a `HighestWindowIndex` request asks for next: the shreds up to it, and the highest one again
unless it is the last. -/
def handleUnboundedPacketResponse [ShredLayout] (draws : Nat → Draw) (packet : PacketInfo) (reqShredIndex : UInt32) :
    Option (List OutstandingRequestMsg × List SocketRequest) :=
  match ShredLayout.getFlags packet, ShredLayout.getIndex packet, ShredLayout.getSlot packet with
  | some flags, some shredIndex, some shredSlot =>
    let lastShredReq :=
      if flags.lastShredInSlot then none else mapShred (draws 0) shredSlot (shredIndex + 1) .highestWindowIndex
    let range := if shredIndex = reqShredIndex then [] else indexRange reqShredIndex shredIndex
    let reqs := processMissingShreds (fun i => draws (i + 1)) shredSlot range
    -- The follow-up is remembered under the index of this answer, not the one it asks for.
    some (announceAll reqs ++ lastShredReq.toList.map (·.announce shredIndex), reqs ++ lastShredReq.toList)
  | _, _, _ => none

structure RepairManager where
  /-- `req_rx`. -/
  requests : List RepairReq
  outstanding : OutstandingTimerStore
  /-- `outstanding_rx`. -/
  messages : List OutstandingRequestMsg
  /-- Timers of entries that were overwritten. Nothing destroys them, so they may still fire. -/
  loose : List OutstandingRequest

namespace RepairManager

def new : RepairManager := ⟨[], ⟨∅⟩, [], []⟩

variable (manager : RepairManager)

/-! ### Requests -/

/-- The request processor on one request. -/
def processRequest (draws : Nat → Draw) : RepairReq → RepairManager × List Event
  | .missingBoundedShreds slot shreds =>
    if manager.outstanding.contains slot then (manager, [])
    else if shreds = [] then (manager, [.gaveUp slot .emptyRequest])
    else
      let reqs := processMissingShreds draws slot shreds
      ({ manager with messages := manager.messages ++ announceAll reqs },
        if reqs = [] then [.gaveUp slot .noPeers] else reqs.map .sent)
  | .missingUnboundedShreds slot shreds maxInclusiveShred =>
    if manager.outstanding.contains slot then (manager, [])
    else
      match mapShred (draws 0) slot maxInclusiveShred .highestWindowIndex with
      | none => (manager, [.gaveUp slot .noPeers])
      | some last =>
        let reqs := processMissingShreds (fun i => draws (i + 1)) slot shreds
        ({ manager with messages := manager.messages ++ announceAll reqs ++ [last.announce maxInclusiveShred] },
          (reqs ++ [last]).map .sent)
  | .cancelRepair slot => ({ manager with outstanding := manager.outstanding.removeSlot slot }, [])

def requestProcessorStep (draws : Nat → Draw) : RepairManager × List Event :=
  match manager.requests with
  | [] => (manager, [])
  | request :: rest => { manager with requests := rest }.processRequest draws request

/-! ### Outstanding requests -/

/-- A request enters the store. An entry it replaces loses its timer's handle, not the timer. -/
def track (request : OutstandingRequest) : RepairManager :=
  let replaced := manager.outstanding.entries[repairKey request.slot request.nonce request.target.route]?
  { manager with
    outstanding := manager.outstanding.insert request
    loose := (replaced.filter (·.timer.armed)).toList.map (·.timer.request) ++ manager.loose }

/-- The outstanding loop on one message. -/
def handleMessage (draw : Draw) : OutstandingRequestMsg → RepairManager × List Event
  | .new request => (manager.track request, [])
  | .timeout request =>
    match manager.outstanding.remove request.slot request.nonce request.target.route with
    -- Already answered.
    | (_, none) => (manager, [])
    | (store, some _) =>
      let manager := { manager with outstanding := store }
      match mapShred draw request.slot request.shred request.kind with
      | none => (manager, [.gaveUp request.slot .noPeers])
      | some again =>
        (manager.track { request with nonce := again.nonce, target := again.target }, [.sent again])

def outstandingStep (draw : Draw) : RepairManager × List Event :=
  match manager.messages with
  | [] => (manager, [])
  | message :: rest => { manager with messages := rest }.handleMessage draw message

/-- The timer of an entry fires. -/
def fire (key : Nat) : RepairManager :=
  match manager.outstanding.entries[key]? with
  | none => manager
  | some entry =>
    if entry.timer.armed then
      { manager with
        outstanding :=
          ⟨manager.outstanding.entries.insert key { entry with timer := { entry.timer with armed := false } }⟩
        messages := manager.messages ++ [.timeout entry.timer.request] }
    else manager

def fireLoose (index : Nat) : RepairManager :=
  match manager.loose[index]? with
  | none => manager
  | some request =>
    { manager with
      loose := manager.loose.eraseIdx index
      messages := manager.messages ++ [.timeout request] }

/-! ### Answers -/

/-- The receive loop on one packet. -/
def receive [ShredLayout] (route : RepairRoute) (packet : PacketInfo) (draws : Nat → Draw) :
    RepairManager × List Event :=
  match repairNonce packet, ShredLayout.getSlot packet with
  | some nonce, some slot =>
    match manager.outstanding.remove slot nonce route with
    | (_, none) => (manager, [])
    | (store, some entry) =>
      let manager := { manager with outstanding := store }
      if entry.kind = .highestWindowIndex then
        match handleUnboundedPacketResponse draws packet entry.shredIndex with
        | none => (manager, [.gaveUp slot .invalidResponse])
        | some (announced, sent) =>
          ({ manager with messages := manager.messages ++ announced }, sent.map .sent ++ [.forwarded packet])
      else (manager, [.forwarded packet])
  | _, _ => (manager, [])

/-! ### Who works on a slot -/

/-- A queued message announces a request for the slot. -/
def Announces (slot : UInt64) : Prop := ∃ request, .new request ∈ manager.messages ∧ request.slot = slot

/-- A request for the slot is outstanding or announced. -/
def Engaged (slot : UInt64) : Prop := manager.outstanding.Waits slot ∨ manager.Announces slot

variable {manager} {slot : UInt64}

theorem engaged_more {messages : List OutstandingRequestMsg} (engaged : manager.Engaged slot) :
    Engaged { manager with messages := manager.messages ++ messages } slot := by
  rcases engaged with waits | ⟨request, member, same⟩
  · exact .inl waits
  · exact .inr ⟨request, List.mem_append_left _ member, same⟩

theorem engaged_announce {messages : List OutstandingRequestMsg} {request : SocketRequest} {shred : UInt32}
    (announced : request.announce shred ∈ messages) (same : request.slot = slot) :
    Engaged { manager with messages := messages } slot :=
  .inr ⟨_, announced, same⟩

theorem slot_processMissingShreds {draws : Nat → Draw} {shreds : List UInt32} {request : SocketRequest}
    (member : request ∈ processMissingShreds draws slot shreds) : request.slot = slot := by
  obtain ⟨entry, _, mapped⟩ := List.mem_filterMap.mp member
  obtain ⟨drawn, _, rfl⟩ := Option.map_eq_some_iff.mp mapped
  rfl

theorem slot_mapShred {draw : Draw} {shredIndex : UInt32} {kind : OutstandingRequestKind} {request : SocketRequest}
    (mapped : mapShred draw slot shredIndex kind = some request) : request.slot = slot := by
  obtain ⟨drawn, _, rfl⟩ := Option.map_eq_some_iff.mp mapped
  rfl

/-- A request for missing shreds ends with somebody on it or at an exit. -/
theorem processRequest_asks (keyed : manager.outstanding.Keyed) (draws : Nat → Draw) {request : RepairReq}
    (asks : request.asksFor slot = true) :
    (manager.processRequest draws request).1.Engaged slot ∨
      ∃ exit, .gaveUp slot exit ∈ (manager.processRequest draws request).2 := by
  cases request with
  | missingBoundedShreds asked shreds =>
    have same : asked = slot := of_decide_eq_true asks
    subst same
    dsimp only [processRequest]
    split
    next contained => exact .inl (.inl (OutstandingTimerStore.waits_of_contains keyed contained))
    split
    · exact .inr ⟨_, List.mem_singleton.mpr rfl⟩
    dsimp only
    cases found : processMissingShreds draws asked shreds with
    | nil => exact .inr ⟨.noPeers, by simp⟩
    | cons first rest =>
      have mapped : first ∈ processMissingShreds draws asked shreds := by rw [found]; exact List.mem_cons_self ..
      have announced : first.announce first.shredIndex ∈ announceAll (first :: rest) :=
        List.mem_map.mpr ⟨first, List.mem_cons_self .., rfl⟩
      exact .inl (engaged_announce (List.mem_append_right _ announced) (slot_processMissingShreds mapped))
  | missingUnboundedShreds asked shreds maxInclusiveShred =>
    have same : asked = slot := of_decide_eq_true asks
    subst same
    dsimp only [processRequest]
    split
    next contained => exact .inl (.inl (OutstandingTimerStore.waits_of_contains keyed contained))
    split
    · exact .inr ⟨_, List.mem_singleton.mpr rfl⟩
    next last mapped =>
      exact .inl (engaged_announce (List.mem_append_right _ (List.mem_singleton.mpr rfl)) (slot_mapShred mapped))
  | cancelRepair asked => cases asks

theorem processRequest_keeps (keyed : manager.outstanding.Keyed) (draws : Nat → Draw) (request : RepairReq) :
    (manager.processRequest draws request).1.outstanding.Keyed ∧
    (manager.processRequest draws request).1.requests = manager.requests ∧
    (request ≠ .cancelRepair slot → manager.Engaged slot → (manager.processRequest draws request).1.Engaged slot) := by
  cases request with
  | missingBoundedShreds asked shreds =>
    dsimp only [processRequest]
    split
    · exact ⟨keyed, rfl, fun _ engaged => engaged⟩
    split
    · exact ⟨keyed, rfl, fun _ engaged => engaged⟩
    · exact ⟨keyed, rfl, fun _ engaged => engaged_more engaged⟩
  | missingUnboundedShreds asked shreds maxInclusiveShred =>
    dsimp only [processRequest]
    split
    · exact ⟨keyed, rfl, fun _ engaged => engaged⟩
    split
    · exact ⟨keyed, rfl, fun _ engaged => engaged⟩
    · exact ⟨keyed, rfl, fun _ engaged => engaged_more (engaged_more engaged)⟩
  | cancelRepair asked =>
    refine ⟨OutstandingTimerStore.keyed_removeSlot keyed, rfl, fun other engaged => ?_⟩
    rcases engaged with waits | announces
    · refine .inl (OutstandingTimerStore.waits_removeSlot_other keyed (fun same => other ?_) waits)
      rw [same]
    · exact .inr announces

theorem track_keeps (keyed : manager.outstanding.Keyed) (request : OutstandingRequest) :
    (manager.track request).outstanding.Keyed ∧ (manager.track request).Engaged request.slot ∧
    (manager.Engaged slot → (manager.track request).Engaged slot) := by
  refine ⟨OutstandingTimerStore.keyed_insert keyed request, .inl (OutstandingTimerStore.waits_insert request), ?_⟩
  rintro (waits | announces)
  · exact .inl (OutstandingTimerStore.waits_insert_of keyed request waits)
  · exact .inr announces

/-- Removing a request leaves the other slots alone. -/
theorem removed_keeps (keyed : manager.outstanding.Keyed) {answered : UInt64} {nonce : Nonce} {route : RepairRoute}
    {store : OutstandingTimerStore} {entry : Option Outstanding}
    (removed : manager.outstanding.remove answered nonce route = (store, entry)) :
    store.Keyed ∧ (answered ≠ slot → manager.Engaged slot → Engaged { manager with outstanding := store } slot) := by
  have stores : store = (manager.outstanding.remove answered nonce route).1 := by
    rw [removed]
  refine ⟨stores ▸ OutstandingTimerStore.keyed_remove keyed _ _, ?_⟩
  rintro apart (waits | announces)
  · refine .inl ?_
    rw [stores]
    exact OutstandingTimerStore.waits_remove_other keyed _ _ (Ne.symm apart) waits
  · exact .inr announces

/-- Retrying loses a slot only for want of a peer. -/
theorem handleMessage_keeps (keyed : manager.outstanding.Keyed) (draw : Draw) (message : OutstandingRequestMsg) :
    (manager.handleMessage draw message).1.outstanding.Keyed ∧
    (manager.handleMessage draw message).1.requests = manager.requests ∧
    (manager.Engaged slot → (manager.handleMessage draw message).1.Engaged slot ∨
      ∃ exit, .gaveUp slot exit ∈ (manager.handleMessage draw message).2) := by
  cases message with
  | new request =>
    obtain ⟨kept, _, engaged⟩ := @track_keeps manager slot keyed request
    exact ⟨kept, rfl, fun before => .inl (engaged before)⟩
  | timeout request =>
    dsimp only [handleMessage]
    split
    · exact ⟨keyed, rfl, fun before => .inl before⟩
    next store entry removed =>
      obtain ⟨kept, others⟩ := @removed_keeps manager slot keyed _ _ _ _ _ removed
      split
      · refine ⟨kept, rfl, fun before => ?_⟩
        by_cases mine : request.slot = slot
        · exact .inr ⟨.noPeers, by rw [mine]; exact List.mem_singleton.mpr rfl⟩
        · exact .inl (others mine before)
      next again _ =>
        obtain ⟨tracked, holds, engaged⟩ := @track_keeps { manager with outstanding := store } slot kept
          { request with nonce := again.nonce, target := again.target }
        refine ⟨tracked, rfl, fun before => .inl ?_⟩
        by_cases mine : request.slot = slot
        · rw [← mine]
          exact holds
        · exact engaged (others mine before)

theorem fire_keeps (keyed : manager.outstanding.Keyed) (key : Nat) :
    (manager.fire key).outstanding.Keyed ∧ (manager.fire key).requests = manager.requests ∧
    (manager.Engaged slot → (manager.fire key).Engaged slot) := by
  unfold fire
  split
  · exact ⟨keyed, rfl, fun before => before⟩
  next entry found =>
    split
    · refine ⟨fun other held kept => ?_, rfl, ?_⟩
      · rw [TreeMap.getElem?_insert] at kept
        split at kept
        next here =>
          cases kept
          rw [← LawfulEqOrd.compare_eq_iff_eq.mp here]
          exact keyed key entry found
        next => exact keyed other held kept
      · rintro (⟨other, held, waits, same⟩ | ⟨request, member, same⟩)
        · refine .inl ?_
          by_cases here : key = other
          · subst here
            rw [found] at waits
            cases waits
            exact ⟨key, _, TreeMap.getElem?_insert_self, same⟩
          · refine ⟨other, held, ?_, same⟩
            rw [TreeMap.getElem?_insert, if_neg (fun same => here (LawfulEqOrd.compare_eq_iff_eq.mp same))]
            exact waits
        · exact .inr ⟨request, List.mem_append_left _ member, same⟩
    · exact ⟨keyed, rfl, fun before => before⟩

theorem fireLoose_keeps (keyed : manager.outstanding.Keyed) (index : Nat) :
    (manager.fireLoose index).outstanding.Keyed ∧ (manager.fireLoose index).requests = manager.requests ∧
    (manager.Engaged slot → (manager.fireLoose index).Engaged slot) := by
  unfold fireLoose
  split
  · exact ⟨keyed, rfl, fun before => before⟩
  · refine ⟨keyed, rfl, ?_⟩
    rintro (waits | ⟨request, member, same⟩)
    · exact .inl waits
    · exact .inr ⟨request, List.mem_append_left _ member, same⟩

/-- Of the slot of an answer, the answer itself goes on, unless it is not valid. -/
theorem receive_keeps [ShredLayout] (keyed : manager.outstanding.Keyed) (route : RepairRoute) (packet : PacketInfo)
    (draws : Nat → Draw) :
    (manager.receive route packet draws).1.outstanding.Keyed ∧
    (manager.receive route packet draws).1.requests = manager.requests ∧
    (manager.Engaged slot → (manager.receive route packet draws).1.Engaged slot ∨
      (∃ exit, .gaveUp slot exit ∈ (manager.receive route packet draws).2) ∨
      .forwarded packet ∈ (manager.receive route packet draws).2 ∧ ShredLayout.getSlot packet = some slot) := by
  unfold receive
  split
  next nonce answered _ slotRead =>
    split
    · exact ⟨keyed, rfl, fun before => .inl before⟩
    next store entry removed =>
      obtain ⟨kept, others⟩ := @removed_keeps manager slot keyed _ _ _ _ _ removed
      dsimp only
      split
      · split
        · refine ⟨kept, rfl, fun before => ?_⟩
          by_cases mine : answered = slot
          · exact .inr (.inl ⟨.invalidResponse, by rw [mine]; exact List.mem_singleton.mpr rfl⟩)
          · exact .inl (others mine before)
        · refine ⟨kept, rfl, fun before => ?_⟩
          by_cases mine : answered = slot
          · exact .inr (.inr ⟨List.mem_append_right _ (List.mem_singleton.mpr rfl), mine ▸ slotRead⟩)
          · exact .inl (engaged_more (others mine before))
      · refine ⟨kept, rfl, fun before => ?_⟩
        by_cases mine : answered = slot
        · exact .inr (.inr ⟨List.mem_singleton.mpr rfl, mine ▸ slotRead⟩)
        · exact .inl (others mine before)
  next => exact ⟨keyed, rfl, fun before => .inl before⟩

/-- One turn of the outstanding loop. -/
theorem outstandingStep_keeps (keyed : manager.outstanding.Keyed) (draw : Draw) :
    (manager.outstandingStep draw).1.outstanding.Keyed ∧
    (manager.outstandingStep draw).1.requests = manager.requests ∧
    (manager.Engaged slot → (manager.outstandingStep draw).1.Engaged slot ∨
      ∃ exit, .gaveUp slot exit ∈ (manager.outstandingStep draw).2) := by
  unfold outstandingStep
  split
  · exact ⟨keyed, rfl, fun before => .inl before⟩
  next message rest queue =>
    obtain ⟨kept, requests, engaged⟩ := @handleMessage_keeps { manager with messages := rest } slot keyed draw message
    refine ⟨kept, requests, ?_⟩
    rintro (waits | ⟨request, member, same⟩)
    · exact engaged (.inl waits)
    · rw [queue] at member
      rcases List.mem_cons.mp member with rfl | later
      · rw [← same]
        exact .inl (@track_keeps { manager with messages := rest } slot keyed request).2.1
      · exact engaged (.inr ⟨request, later, same⟩)

theorem requestProcessorStep_keyed (keyed : manager.outstanding.Keyed) (draws : Nat → Draw) :
    (manager.requestProcessorStep draws).1.outstanding.Keyed := by
  unfold requestProcessorStep
  split
  · exact keyed
  next request rest _ => exact (@processRequest_keeps { manager with requests := rest } 0 keyed draws request).1

/-! ### Acceptance is not the manager's -/

theorem processRequest_silent (draws : Nat → Draw) (request : RepairReq) :
    .accepted slot ∉ (manager.processRequest draws request).2 := by
  cases request with
  | missingBoundedShreds asked shreds =>
    dsimp only [processRequest]
    split
    · simp
    split
    · simp
    · dsimp only
      split <;> simp
  | missingUnboundedShreds asked shreds maxInclusiveShred =>
    dsimp only [processRequest]
    split
    · simp
    split <;> simp
  | cancelRepair asked => simp [processRequest]

theorem outstandingStep_silent (draw : Draw) : .accepted slot ∉ (manager.outstandingStep draw).2 := by
  unfold outstandingStep
  split
  · simp
  next message rest _ =>
    cases message with
    | new request => simp [handleMessage]
    | timeout request =>
      dsimp only [handleMessage]
      split
      · simp
      · split <;> simp

theorem receive_silent [ShredLayout] (route : RepairRoute) (packet : PacketInfo) (draws : Nat → Draw) :
    .accepted slot ∉ (manager.receive route packet draws).2 := by
  unfold receive
  split
  · split
    · simp
    · dsimp only
      split
      · split <;> simp
      · simp
  · simp

end RepairManager

end Lightbringer.Repair
