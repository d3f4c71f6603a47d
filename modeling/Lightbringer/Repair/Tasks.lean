import Lightbringer.Repair.Manager
import Lightbringer.Lib.Machine
import Lightbringer.Lib.Trace

/-!
# The loops of the repair manager between their awaits

The request processor, the outstanding loop and the receive loop share one thread, and each of them may be suspended
where it hands a batch to the socket's bounded channel (`send_socket.send(..).await`). A turn here is what a loop does
up to that point; the channel takes the batch in a step of its own, and the loop goes on in another. When there is room
in the channel the three steps are one, as in `RepairManager`.
-/

namespace Lightbringer.Repair
open Std Machine

/-- A loop inside `send_socket.send(batch).await`, and what it goes on with. -/
structure Sending (α : Type) where
  batch : List SocketRequest
  /-- The channel has the batch; the loop is still to be woken. -/
  taken : Bool
  next : α

inductive Loop where
  | processor
  | outstanding
  | receiver
  deriving DecidableEq

structure Tasks where
  manager : RepairManager
  /-- `recv_socket`, an unbounded channel. -/
  arrivals : List (RepairRoute × PacketInfo)
  processor : Option (Sending Unit)
  /-- The request to track once it is sent again. Its entry is already gone. -/
  retry : Option (Sending OutstandingRequest)
  /-- The answer to forward once its follow-ups are sent. -/
  answer : Option (Sending PacketInfo)

/-- What happens to requests and answers. -/
inductive TaskEvent where
  /-- A request was announced to the outstanding loop, or is sent again by it. -/
  | created (request : OutstandingRequest)
  | sent (request : SocketRequest)
  | tracked (request : OutstandingRequest)
  /-- Its entry was removed for a timeout. -/
  | timedOut (request : OutstandingRequest)
  | cancelled (slot : UInt64)
  /-- Its entry was removed by a cancellation. -/
  | dropped (request : OutstandingRequest)
  | arrived (route : RepairRoute) (packet : PacketInfo)
  /-- The answer took the entry of the request. -/
  | matched (request : OutstandingRequest) (route : RepairRoute) (packet : PacketInfo)
  | unmatched (route : RepairRoute) (packet : PacketInfo)
  | forwarded (packet : PacketInfo)
  deriving DecidableEq

@[simp] def Event.sentRequest : Event → Option SocketRequest
  | .sent request => some request
  | _ => none

@[simp] def TaskEvent.sentRequest : TaskEvent → Option SocketRequest
  | .sent request => some request
  | _ => none

@[simp] theorem sentRequest_sent : TaskEvent.sentRequest ∘ TaskEvent.sent = some := rfl

@[simp] theorem eventSentRequest_sent : Event.sentRequest ∘ Event.sent = some := rfl

@[simp] theorem sentRequest_created (requests : List OutstandingRequest) :
    requests.filterMap (TaskEvent.sentRequest ∘ TaskEvent.created) = [] :=
  List.filterMap_eq_nil_iff.mpr (fun _ _ => rfl)

@[simp] theorem sentRequest_dropped (requests : List OutstandingRequest) :
    requests.filterMap (TaskEvent.sentRequest ∘ TaskEvent.dropped) = [] :=
  List.filterMap_eq_nil_iff.mpr (fun _ _ => rfl)

def OutstandingRequest.key (request : OutstandingRequest) : Nat :=
  repairKey request.slot request.nonce request.target.route

def SocketRequest.key (request : SocketRequest) : Nat := repairKey request.slot request.nonce request.target.route

/-- What `remove_slot` drains. -/
def OutstandingTimerStore.swept (store : OutstandingTimerStore) (slot : UInt64) : List OutstandingRequest :=
  (store.entries.toList.filter (fun entry => inSlotRange slot entry.1)).map (·.2.timer.request)

/-- What the request processor announces and sends for a request; `none` where it goes on to the next one. -/
def RepairManager.socketReqs (manager : RepairManager) (draws : Nat → Draw) :
    RepairReq → Option (List OutstandingRequestMsg × List SocketRequest)
  | .missingBoundedShreds slot shreds =>
    if manager.outstanding.contains slot then none
    else if shreds = [] then none
    else
      let reqs := processMissingShreds draws slot shreds
      some (announceAll reqs, reqs)
  | .missingUnboundedShreds slot shreds maxInclusiveShred =>
    if manager.outstanding.contains slot then none
    else
      match mapShred (draws 0) slot maxInclusiveShred .highestWindowIndex with
      | none => none
      | some last =>
        let reqs := processMissingShreds (fun i => draws (i + 1)) slot shreds
        some (announceAll reqs ++ [last.announce maxInclusiveShred], reqs ++ [last])
  | .cancelRepair _ => none

namespace Tasks

def new : Tasks := ⟨RepairManager.new, [], none, none, none⟩

inductive Input where
  /-- The metadata task asks for something. -/
  | request (request : RepairReq)
  | arrive (route : RepairRoute) (packet : PacketInfo)
  | process (draws : Nat → Draw)
  | outstanding (draw : Draw)
  | receive (draws : Nat → Draw)
  | requestTimer (key : Nat)
  | looseRequestTimer (index : Nat)
  /-- The socket's channel takes the batch a loop waits with. -/
  | take (loop : Loop)
  /-- The socket's channel is closed, and the send fails. -/
  | refuse (loop : Loop)
  /-- A loop whose batch was taken goes on. -/
  | wake (loop : Loop)

/-- The requests among the messages. -/
def announcedIn (messages : List OutstandingRequestMsg) : List OutstandingRequest :=
  messages.filterMap (fun message => match message with | .new request => some request | .timeout _ => none)

variable (t : Tasks)

/-- A turn of the request processor. -/
def process (draws : Nat → Draw) : Tasks × List TaskEvent :=
  match t.processor, t.manager.requests with
  | none, .cancelRepair slot :: rest =>
    ({ t with manager :=
        { t.manager with requests := rest, outstanding := t.manager.outstanding.removeSlot slot } },
      .cancelled slot :: (t.manager.outstanding.swept slot).map .dropped)
  | none, request :: rest =>
    match t.manager.socketReqs draws request with
    | none => ({ t with manager := { t.manager with requests := rest } }, [])
    | some (announced, batch) =>
      ({ t with
          manager := { t.manager with requests := rest, messages := t.manager.messages ++ announced }
          processor := some ⟨batch, false, ()⟩ },
        (announcedIn announced).map .created)
  | _, _ => (t, [])

/-- A turn of the outstanding loop. -/
def outstanding (draw : Draw) : Tasks × List TaskEvent :=
  match t.retry, t.manager.messages with
  | none, .new request :: rest =>
    ({ t with manager := { t.manager with messages := rest }.track request }, [.tracked request])
  | none, .timeout request :: rest =>
    match t.manager.outstanding.remove request.slot request.nonce request.target.route with
    -- Already answered.
    | (_, none) => ({ t with manager := { t.manager with messages := rest } }, [])
    | (store, some entry) =>
      let t := { t with manager := { t.manager with messages := rest, outstanding := store } }
      match mapShred draw request.slot request.shred request.kind with
      | none => (t, [.timedOut entry.timer.request])
      | some again =>
        ({ t with retry := some ⟨[again], false, { request with nonce := again.nonce, target := again.target }⟩ },
          [.timedOut entry.timer.request])
  | _, _ => (t, [])

/-- A turn of the receive loop. -/
def receive [ShredLayout] (draws : Nat → Draw) : Tasks × List TaskEvent :=
  match t.answer, t.arrivals with
  | none, (route, packet) :: rest =>
    let t := { t with arrivals := rest }
    match repairNonce packet, ShredLayout.getSlot packet with
    | some nonce, some slot =>
      match t.manager.outstanding.remove slot nonce route with
      | (_, none) => (t, [.unmatched route packet])
      | (store, some entry) =>
        let t := { t with manager := { t.manager with outstanding := store } }
        let matched := .matched entry.timer.request route packet
        if entry.kind = .highestWindowIndex then
          match handleUnboundedPacketResponse draws packet entry.shredIndex with
          | none => (t, [matched])
          | some (announced, batch) =>
            ({ t with
                manager := { t.manager with messages := t.manager.messages ++ announced }
                answer := some ⟨batch, false, packet⟩ },
              matched :: (announcedIn announced).map .created)
        else (t, [matched, .forwarded packet])
    | _, _ => (t, [])
  | _, _ => (t, [])

/-- The channel takes a batch. -/
def take : Loop → Tasks × List TaskEvent
  | .processor =>
    match t.processor with
    | some ⟨batch, false, next⟩ => ({ t with processor := some ⟨batch, true, next⟩ }, batch.map .sent)
    | _ => (t, [])
  | .outstanding =>
    match t.retry with
    | some ⟨batch, false, next⟩ => ({ t with retry := some ⟨batch, true, next⟩ }, .created next :: batch.map .sent)
    | _ => (t, [])
  | .receiver =>
    match t.answer with
    | some ⟨batch, false, next⟩ => ({ t with answer := some ⟨batch, true, next⟩ }, batch.map .sent)
    | _ => (t, [])

/-- Only the outstanding loop looks at whether its send failed. -/
def refuse : Loop → Tasks × List TaskEvent
  | .processor =>
    match t.processor with
    | some ⟨_, false, _⟩ => ({ t with processor := none }, [])
    | _ => (t, [])
  | .outstanding =>
    match t.retry with
    | some ⟨_, false, _⟩ => ({ t with retry := none }, [])
    | _ => (t, [])
  | .receiver =>
    match t.answer with
    | some ⟨_, false, packet⟩ => ({ t with answer := none }, [.forwarded packet])
    | _ => (t, [])

def wake : Loop → Tasks × List TaskEvent
  | .processor =>
    match t.processor with
    | some ⟨_, true, _⟩ => ({ t with processor := none }, [])
    | _ => (t, [])
  | .outstanding =>
    match t.retry with
    | some ⟨_, true, request⟩ => ({ t with manager := t.manager.track request, retry := none }, [.tracked request])
    | _ => (t, [])
  | .receiver =>
    match t.answer with
    | some ⟨_, true, packet⟩ => ({ t with answer := none }, [.forwarded packet])
    | _ => (t, [])

def step [ShredLayout] (t : Tasks) : Input → Tasks × List TaskEvent
  | .request request => ({ t with manager := { t.manager with requests := t.manager.requests ++ [request] } }, [])
  | .arrive route packet => ({ t with arrivals := t.arrivals ++ [(route, packet)] }, [.arrived route packet])
  | .process draws => t.process draws
  | .outstanding draw => t.outstanding draw
  | .receive draws => t.receive draws
  | .requestTimer key => ({ t with manager := t.manager.fire key }, [])
  | .looseRequestTimer index => ({ t with manager := t.manager.fireLoose index }, [])
  | .take loop => t.take loop
  | .refuse loop => t.refuse loop
  | .wake loop => t.wake loop

/-! ### Turns that are not interrupted -/

/-- The three steps of a loop that finds room in the channel. -/
def turnOf (loop : Loop) (turn : Input) : List Input := [turn, .take loop, .wake loop]

variable {t : Tasks}

theorem process_uninterrupted [ShredLayout] (idle : t.processor = none) (draws : Nat → Draw) :
    (run step t (turnOf .processor (.process draws))).1 =
      { t with manager := (t.manager.requestProcessorStep draws).1 } ∧
    (run step t (turnOf .processor (.process draws))).2.filterMap TaskEvent.sentRequest =
      (t.manager.requestProcessorStep draws).2.filterMap Event.sentRequest := by
  obtain ⟨⟨requests, outstanding, messages, loose⟩, arrivals, processor, retry, answer⟩ := t
  cases idle
  cases requests with
  | nil => exact ⟨rfl, rfl⟩
  | cons request rest =>
    simp only [turnOf, run_cons, run_nil, step, process, RepairManager.requestProcessorStep]
    cases request with
    | cancelRepair slot =>
      simp [take, wake, RepairManager.processRequest, List.filterMap_cons]
    | missingBoundedShreds slot shreds =>
      by_cases contained : outstanding.contains slot
      · simp [RepairManager.socketReqs, RepairManager.processRequest, contained, take, wake]
      by_cases empty : shreds = []
      · simp [RepairManager.socketReqs, RepairManager.processRequest, contained, empty, take, wake, List.filterMap_cons]
      by_cases found : processMissingShreds draws slot shreds = []
      · simp [RepairManager.socketReqs, RepairManager.processRequest, contained, empty, found, take, wake,
          List.filterMap_cons]
      · simp [RepairManager.socketReqs, RepairManager.processRequest, contained, empty, found, take, wake]
    | missingUnboundedShreds slot shreds max =>
      by_cases contained : outstanding.contains slot
      · simp [RepairManager.socketReqs, RepairManager.processRequest, contained, take, wake]
      cases drawn : mapShred (draws 0) slot max .highestWindowIndex <;>
        simp [RepairManager.socketReqs, RepairManager.processRequest, contained, drawn, take, wake, List.filterMap_cons]

theorem outstanding_uninterrupted [ShredLayout] (idle : t.retry = none) (draw : Draw) :
    (run step t (turnOf .outstanding (.outstanding draw))).1 =
      { t with manager := (t.manager.outstandingStep draw).1 } ∧
    (run step t (turnOf .outstanding (.outstanding draw))).2.filterMap TaskEvent.sentRequest =
      (t.manager.outstandingStep draw).2.filterMap Event.sentRequest := by
  obtain ⟨⟨requests, store, messages, loose⟩, arrivals, processor, retry, answer⟩ := t
  cases idle
  simp only [turnOf, run_cons, run_nil, step, outstanding, RepairManager.outstandingStep]
  cases messages with
  | nil => exact ⟨rfl, rfl⟩
  | cons message rest =>
    cases message with
    | new request => exact ⟨rfl, rfl⟩
    | timeout request =>
      rcases removed : store.remove request.slot request.nonce request.target.route with ⟨after, _ | entry⟩
      · simp [RepairManager.handleMessage, removed, take, wake]
      · cases drawn : mapShred draw request.slot request.shred request.kind <;>
          simp [RepairManager.handleMessage, removed, drawn, take, wake, List.filterMap_cons]

theorem receive_uninterrupted [ShredLayout] {route : RepairRoute} {packet : PacketInfo}
    {rest : List (RepairRoute × PacketInfo)} (idle : t.answer = none) (next : t.arrivals = (route, packet) :: rest)
    (draws : Nat → Draw) :
    (run step t (turnOf .receiver (.receive draws))).1 =
      { t with manager := (t.manager.receive route packet draws).1, arrivals := rest } ∧
    (run step t (turnOf .receiver (.receive draws))).2.filterMap TaskEvent.sentRequest =
      (t.manager.receive route packet draws).2.filterMap Event.sentRequest := by
  obtain ⟨⟨requests, store, messages, loose⟩, arrivals, processor, retry, answer⟩ := t
  cases idle
  cases next
  simp only [turnOf, run_cons, run_nil, step, receive, RepairManager.receive]
  cases nonceRead : repairNonce packet with
  | none => exact ⟨rfl, rfl⟩
  | some nonce =>
    cases slotRead : ShredLayout.getSlot packet with
    | none => exact ⟨rfl, rfl⟩
    | some slot =>
      rcases removed : store.remove slot nonce route with ⟨after, _ | entry⟩
      · simp [removed, take, wake, List.filterMap_cons]
      by_cases highest : entry.kind = .highestWindowIndex
      · cases followed : handleUnboundedPacketResponse draws packet entry.shredIndex <;>
          simp [removed, highest, followed, take, wake, List.filterMap_cons]
      · simp [removed, highest, take, wake, List.filterMap_cons]

end Tasks

/-! ### What the steps leave -/

namespace RepairManager

variable {manager : RepairManager} {P : Nat → Outstanding → Prop}

/-- Timers change an entry only in whether its timer is armed. -/
theorem each_fire (each : manager.outstanding.Each P)
    (same : ∀ key entry armed, P key entry → P key { entry with timer := { entry.timer with armed := armed } })
    (key : Nat) : (manager.fire key).outstanding.Each P := by
  unfold fire
  split
  · exact each
  next entry found =>
    split
    · intro other held kept
      rw [TreeMap.getElem?_insert] at kept
      split at kept
      next here =>
        cases kept
        rw [← LawfulEqOrd.compare_eq_iff_eq.mp here]
        exact same _ _ _ (each key entry found)
      next => exact each other held kept
    · exact each

theorem fire_found {key : Nat} {entry : Outstanding} (fired : Nat) (found : manager.outstanding.entries[key]? = some entry) :
    ∃ entry', (manager.fire fired).outstanding.entries[key]? = some entry' := by
  unfold fire
  split
  · exact ⟨entry, found⟩
  split
  · dsimp only
    rw [TreeMap.getElem?_insert]
    split
    · exact ⟨_, rfl⟩
    · exact ⟨entry, found⟩
  · exact ⟨entry, found⟩

theorem mem_fire_new {request : OutstandingRequest} (key : Nat) :
    .new request ∈ (manager.fire key).messages ↔ .new request ∈ manager.messages := by
  unfold fire
  split
  · exact Iff.rfl
  split <;> simp

theorem fireLoose_outstanding (index : Nat) : (manager.fireLoose index).outstanding = manager.outstanding := by
  unfold fireLoose
  split <;> rfl

theorem mem_fireLoose_new {request : OutstandingRequest} (index : Nat) :
    .new request ∈ (manager.fireLoose index).messages ↔ .new request ∈ manager.messages := by
  unfold fireLoose
  split <;> simp

variable {slot : UInt64} {draws : Nat → Draw} {announced : List OutstandingRequestMsg} {batch : List SocketRequest}

theorem slot_announceAll {reqs : List SocketRequest} (slots : ∀ request ∈ reqs, request.slot = slot)
    {request : OutstandingRequest} (member : .new request ∈ announceAll reqs) : request.slot = slot := by
  obtain ⟨asked, listed, same⟩ := List.mem_map.mp member
  cases same
  exact slots asked listed

/-- Everything done for a request is for its slot. -/
theorem slot_socketReqs {request : RepairReq} (served : manager.socketReqs draws request = some (announced, batch)) :
    ∃ slot, request.asksFor slot = true ∧ (∀ request, .new request ∈ announced → request.slot = slot) ∧
      ∀ request ∈ batch, request.slot = slot := by
  cases request with
  | missingBoundedShreds slot shreds =>
    refine ⟨slot, decide_eq_true rfl, ?_⟩
    dsimp only [socketReqs] at served
    split at served
    · cases served
    split at served
    · cases served
    · cases served
      have slots : ∀ request ∈ processMissingShreds draws slot shreds, request.slot = slot :=
        fun _ => slot_processMissingShreds
      exact ⟨fun _ => slot_announceAll slots, slots⟩
  | missingUnboundedShreds slot shreds maxInclusiveShred =>
    refine ⟨slot, decide_eq_true rfl, ?_⟩
    dsimp only [socketReqs] at served
    split at served
    · cases served
    split at served
    · cases served
    next last mapped =>
      cases served
      have slots : ∀ request ∈ processMissingShreds (fun i => draws (i + 1)) slot shreds, request.slot = slot :=
        fun _ => slot_processMissingShreds
      refine ⟨fun request member => ?_, fun request member => ?_⟩
      · rcases List.mem_append.mp member with listed | final
        · exact slot_announceAll slots listed
        · cases List.mem_singleton.mp final
          exact slot_mapShred mapped
      · rcases List.mem_append.mp member with listed | final
        · exact slots request listed
        · rw [List.mem_singleton.mp final]
          exact slot_mapShred mapped
  | cancelRepair slot => cases served

/-- What an answer asks for next is of its own slot. -/
theorem slot_handleUnbounded [ShredLayout] {packet : PacketInfo} {reqShredIndex : UInt32}
    (read : ShredLayout.getSlot packet = some slot)
    (followed : handleUnboundedPacketResponse draws packet reqShredIndex = some (announced, batch)) :
    (∀ request, .new request ∈ announced → request.slot = slot) ∧ ∀ request ∈ batch, request.slot = slot := by
  unfold handleUnboundedPacketResponse at followed
  split at followed
  next flags shredIndex shredSlot _ _ slotRead =>
    have own : shredSlot = slot := Option.some.inj (slotRead.symm.trans read)
    subst own
    dsimp only at followed
    generalize lastly : (if flags.lastShredInSlot = true then none
      else mapShred (draws 0) shredSlot (shredIndex + 1) .highestWindowIndex) = last at followed
    have lastSlot : ∀ request ∈ last.toList, request.slot = shredSlot := by
      intro request member
      rw [Option.mem_toList] at member
      rw [member] at lastly
      split at lastly
      · cases lastly
      · exact slot_mapShred lastly
    cases followed
    have slots : ∀ range, ∀ request ∈ processMissingShreds (fun i => draws (i + 1)) shredSlot range,
        request.slot = shredSlot := fun _ _ => slot_processMissingShreds
    refine ⟨fun request member => ?_, fun request member => ?_⟩
    · rcases List.mem_append.mp member with listed | final
      · exact slot_announceAll (slots _) listed
      · obtain ⟨asked, listed, same⟩ := List.mem_map.mp final
        cases same
        exact lastSlot asked listed
    · rcases List.mem_append.mp member with listed | final
      · exact slots _ request listed
      · exact lastSlot request final
  next => cases followed

end RepairManager

namespace Tasks

variable {t : Tasks} {P : Nat → Outstanding → Prop}

/-- What holds of an entry when it is inserted, and does not depend on whether its timer is armed, holds of all. -/
theorem each_step [ShredLayout]
    (fresh : ∀ request, P request.key ⟨request.kind, request.shred, ⟨request, true⟩, request.target⟩)
    (same : ∀ key entry armed, P key entry → P key { entry with timer := { entry.timer with armed := armed } })
    (each : t.manager.outstanding.Each P) (input : Input) : (t.step input).1.manager.outstanding.Each P := by
  have removed : ∀ {slot nonce route store} {entry : Option Outstanding},
      t.manager.outstanding.remove slot nonce route = (store, entry) → store.Each P := by
    intro slot nonce route store entry removed
    have stores : store = (t.manager.outstanding.remove slot nonce route).1 := by
      rw [removed]
    rw [stores]
    exact OutstandingTimerStore.each_remove each (fun _ _ _ held => held)
  have tracked : ∀ request, (t.manager.outstanding.insert request).Each P := fun request =>
    OutstandingTimerStore.each_insert each request (fun _ _ _ held => held) (fresh request)
  cases input with
  | request request => exact each
  | arrive route packet => exact each
  | process draws =>
    dsimp only [step, process]
    split
    · exact OutstandingTimerStore.each_removeSlot each (fun _ _ _ held => held)
    · split <;> exact each
    · exact each
  | outstanding draw =>
    dsimp only [step, outstanding]
    split
    · exact tracked _
    · split
      · exact each
      next left =>
        split
        · exact removed left
        · exact removed left
    · exact each
  | receive draws =>
    dsimp only [step, receive]
    split
    · split
      · split
        · exact each
        next left =>
          split
          · split
            · exact removed left
            · exact removed left
          · exact removed left
      · exact each
    · exact each
  | requestTimer key => exact RepairManager.each_fire each same key
  | looseRequestTimer index =>
    dsimp only [step]
    rw [RepairManager.fireLoose_outstanding]
    exact each
  | take loop => cases loop <;> dsimp only [step, take] <;> split <;> exact each
  | refuse loop => cases loop <;> dsimp only [step, refuse] <;> split <;> exact each
  | wake loop =>
    cases loop with
    | processor => dsimp only [step, wake]; split <;> exact each
    | outstanding =>
      dsimp only [step, wake]
      split
      · exact tracked _
      · exact each
    | receiver => dsimp only [step, wake]; split <;> exact each

/-- The events a step may report. -/
def Input.mayReport : Input → TaskEvent → Bool
  | .arrive route packet, event => event = .arrived route packet
  | .process _, .cancelled _ | .process _, .dropped _ | .process _, .created _ => true
  | .outstanding _, .tracked _ | .outstanding _, .timedOut _ => true
  | .receive _, .unmatched _ _ | .receive _, .matched _ _ _ | .receive _, .created _ | .receive _, .forwarded _ => true
  | .take _, .created _ | .take _, .sent _ => true
  | .refuse _, .forwarded _ => true
  | .wake _, .tracked _ | .wake _, .forwarded _ => true
  | _, _ => false

theorem reports_step [ShredLayout] (input : Input) : ∀ event ∈ (t.step input).2, input.mayReport event = true := by
  cases input with
  | process draws =>
    dsimp only [step, process]
    split
    · simp [Input.mayReport]
    · split <;> simp [Input.mayReport]
    · simp
  | outstanding draw =>
    dsimp only [step, outstanding]
    split
    · simp [Input.mayReport]
    · split
      · simp
      · split <;> simp [Input.mayReport]
    · simp
  | receive draws =>
    dsimp only [step, receive]
    split
    · split
      · split
        · simp [Input.mayReport]
        · split
          · split <;> simp [Input.mayReport]
          · simp [Input.mayReport]
      · simp
    · simp
  | take loop => cases loop <;> dsimp only [step, take] <;> split <;> simp [Input.mayReport]
  | refuse loop => cases loop <;> dsimp only [step, refuse] <;> split <;> simp [Input.mayReport]
  | wake loop => cases loop <;> dsimp only [step, wake] <;> split <;> simp [Input.mayReport]
  | _ => simp [step, Input.mayReport]

/-- An entry is kept under the key of its request, with the kind of its request. -/
def Recorded (key : Nat) (entry : Outstanding) : Prop :=
  key = entry.timer.request.key ∧ entry.kind = entry.timer.request.kind

theorem recorded_run [ShredLayout] (inputs : List Input) :
    (run step new inputs).1.manager.outstanding.Each Recorded := by
  refine run_invariant (P := fun (t : Tasks) => t.manager.outstanding.Each Recorded) OutstandingTimerStore.each_empty ?_ inputs
    (meets_true inputs)
  intro t input each _
  exact each_step (fun _ => ⟨rfl, rfl⟩) (fun _ _ _ held => held) each input

end Tasks

end Lightbringer.Repair
