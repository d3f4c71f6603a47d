import Lightbringer.PacketFilter
import Lightbringer.Repair.Tasks

/-!
# How a request for a shred comes to its end

A request for one shred is kept in the store, or by the outstanding loop while it is sent again. An answer takes it by
slot, nonce and route alone; what the packet filter makes of the answer is not reported back.
-/

namespace Lightbringer.Repair.Tasks
open Std Machine

/-- The request kept under a key. -/
def heldAt (t : Tasks) (key : Nat) : Option OutstandingRequest :=
  (t.manager.outstanding.entries[key]?).map (·.timer.request)

/-- The request that is being sent again. -/
def waiting (t : Tasks) : Option OutstandingRequest := t.retry.map (·.next)

/-- The request was in the store and is not any more, or was to be sent again and neither is nor was it entered. -/
def Retired (t t' : Tasks) (request : OutstandingRequest) : Prop :=
  (t.heldAt request.key = some request ∨ t.waiting = some request ∧ t'.waiting ≠ some request) ∧
    t'.heldAt request.key ≠ some request

variable [ShredLayout]

/-- The next answer takes this request. -/
structure Takes (t : Tasks) (route : RepairRoute) (packet : PacketInfo) (held : OutstandingRequest) : Prop where
  idle : t.answer = none
  next : ∃ rest, t.arrivals = (route, packet) :: rest
  found : ∃ nonce slot, repairNonce packet = some nonce ∧ ShredLayout.getSlot packet = some slot ∧
    t.heldAt (repairKey slot nonce route) = some held

section

variable [ShredWire] (leaderOf : UInt64 → Option Pubkey)

/-- The packet filter lets the packet through. -/
def Passes (packet : PacketInfo) : Prop :=
  PacketProcessorPool.Admissible ⟨packet, (ShredLayout.getSlot packet).bind leaderOf, fun _ => true⟩

/-- The ends a request may come to: the shred it asks for has arrived, it is sent again, or its slot is cancelled. -/
inductive Rightful (t : Tasks) (input : Input) (request : OutstandingRequest) : Prop where
  | answered {draws route packet rest} (receives : input = .receive draws) (next : t.arrivals = (route, packet) :: rest)
      (slot : ShredLayout.getSlot packet = some request.slot) (index : ShredLayout.getIndex packet = some request.shred)
      (forwarded : .forwarded packet ∈ (t.receive draws).2) (passes : Passes leaderOf packet)
  | retried {draw again} (times : input = .outstanding draw) (retry : (t.outstanding draw).1.waiting = some again)
      (kind : again.kind = request.kind) (slot : again.slot = request.slot) (shred : again.shred = request.shred)
  | cancelled {draws rest} (processes : input = .process draws)
      (next : t.manager.requests = .cancelRepair request.slot :: rest)

/-- Every request for one shred that comes to its end does so rightfully. -/
def KeepsRequests (t : Tasks) (input : Input) : Prop :=
  ∀ request, request.kind = .windowIndex → Retired t (t.step input).1 request → Rightful leaderOf t input request

omit [ShredLayout] [ShredWire] in
/-- No request for another shred is kept under the key. -/
def Room (t : Tasks) (request : OutstandingRequest) : Prop :=
  ∀ held, t.heldAt request.key = some held → held.kind = .windowIndex → held = request

omit [ShredLayout] [ShredWire] in
/-- The next message of the outstanding loop enters no request over another, and a timeout finds its own and a peer. -/
def CarefulMessage (t : Tasks) (draw : Draw) : OutstandingRequestMsg → Prop
  | .new request => Room t request
  | .timeout request => ∀ held, t.heldAt request.key = some held → held.kind = .windowIndex →
      draw.isSome = true ∧ request.kind = held.kind ∧ request.shred = held.shred

/-- What is about to happen leaves no request unanswered: an answer that takes one is the shred it asks for and passes
the filter, a timeout finds its own request and a peer, nothing is entered over another request, and the socket takes
what is sent again. -/
def Careful (t : Tasks) : Input → Prop
  | .receive _ => ∀ route packet held, Takes t route packet held → held.kind = .windowIndex →
      ShredLayout.getIndex packet = some held.shred ∧ Passes leaderOf packet
  | .outstanding draw => ∀ message rest, t.retry = none → t.manager.messages = message :: rest →
      CarefulMessage t draw message
  | .wake .outstanding => ∀ sending, t.retry = some sending → sending.taken = true → Room t sending.next
  | .refuse .outstanding => ∀ sending, t.retry = some sending → sending.taken = false →
      sending.next.kind = .windowIndex → t.heldAt sending.next.key = some sending.next
  | _ => True

end

variable {t t' : Tasks}

omit [ShredLayout] in
theorem not_retired (held : ∀ key, t'.heldAt key = t.heldAt key) (waits : t'.waiting = t.waiting)
    (request : OutstandingRequest) : ¬ Retired t t' request := by
  rintro ⟨kept | ⟨waited, gone⟩, absent⟩
  · exact absent ((held _).trans kept)
  · exact gone (waits.trans waited)

omit [ShredLayout] in
theorem heldAt_congr (same : t'.manager.outstanding = t.manager.outstanding) (key : Nat) : t'.heldAt key = t.heldAt key := by
  rw [heldAt, same, heldAt]

omit [ShredLayout] in
theorem heldAt_key (recorded : t.manager.outstanding.Each Recorded) {key : Nat} {request : OutstandingRequest}
    (held : t.heldAt key = some request) : request.key = key := by
  obtain ⟨entry, found, rfl⟩ := Option.map_eq_some_iff.mp held
  exact (recorded key entry found).1.symm

omit [ShredLayout] in
theorem heldAt_track (t : Tasks) (request : OutstandingRequest) (key : Nat) :
    heldAt { t with manager := t.manager.track request } key =
      if request.key = key then some request else t.heldAt key := by
  simp only [heldAt, RepairManager.track, OutstandingTimerStore.insert, TreeMap.getElem?_insert,
    LawfulEqOrd.compare_eq_iff_eq]
  by_cases same : request.key = key
  · simp [OutstandingRequest.key] at same
    simp [OutstandingRequest.key, same]
  · have apart : ¬ repairKey request.slot request.nonce request.target.route = key := same
    simp [same, apart]

omit [ShredLayout] in
theorem heldAt_remove {slot : UInt64} {nonce : Nonce} {route : RepairRoute} {store : OutstandingTimerStore}
    {entry : Option Outstanding} (removed : t.manager.outstanding.remove slot nonce route = (store, entry)) (key : Nat) :
    (store.entries[key]?).map (·.timer.request) = if repairKey slot nonce route = key then none else t.heldAt key := by
  have stores : store = (t.manager.outstanding.remove slot nonce route).1 := by rw [removed]
  rw [stores, OutstandingTimerStore.remove, TreeMap.getElem?_erase]
  simp only [LawfulEqOrd.compare_eq_iff_eq]
  split
  · rfl
  · rfl

omit [ShredLayout] in
theorem heldAt_fire (t : Tasks) (fired key : Nat) : heldAt { t with manager := t.manager.fire fired } key = t.heldAt key := by
  unfold heldAt RepairManager.fire
  dsimp only
  split
  · rfl
  next entry found =>
    split
    · dsimp only
      rw [TreeMap.getElem?_insert]
      split
      next here =>
        rw [← LawfulEqOrd.compare_eq_iff_eq.mp here, found]
        rfl
      next => rfl
    · rfl

omit [ShredLayout] in
/-- Entering a request retires nothing iff there is room for it. -/
theorem tracked_iff (recorded : t.manager.outstanding.Each Recorded) {request : OutstandingRequest}
    (held : ∀ key, t'.heldAt key = if request.key = key then some request else t.heldAt key)
    (waits : t.waiting = none ∨ t.waiting = some request) :
    (∀ other, other.kind = .windowIndex → ¬ Retired t t' other) ↔ Room t request := by
  constructor
  · intro none_retired other here window
    by_contra apart
    refine none_retired other window ⟨.inl ?_, ?_⟩
    · rw [heldAt_key recorded here]
      exact here
    · rw [held, heldAt_key recorded here, if_pos rfl, ne_eq, Option.some.injEq]
      exact Ne.symm apart
  · rintro room other window ⟨kept | ⟨waited, -⟩, absent⟩
    · rw [held] at absent
      split at absent
      next same =>
        have here := room other (by rw [same]; exact kept) window
        exact absent (congrArg some here.symm)
      next => exact absent kept
    · obtain idle | own := waits
      · rw [idle] at waited
        cases waited
      · rw [own, Option.some.injEq] at waited
        subst waited
        rw [held, if_pos rfl] at absent
        exact absent rfl

section

variable [ShredWire] {leaderOf : UInt64 → Option Pubkey}

theorem keeps_of_same {input : Input} (held : ∀ key, (t.step input).1.heldAt key = t.heldAt key)
    (waits : (t.step input).1.waiting = t.waiting) : KeepsRequests leaderOf t input :=
  fun request _ retired => (not_retired held waits request retired).elim

/-- Only a cancellation lets the request processor take requests out. -/
theorem keeps_process (draws : Nat → Draw) :
    KeepsRequests leaderOf t (.process draws) := by
  cases busy : t.processor with
  | some sending =>
    have same : (t.step (.process draws)).1 = t := by simp [step, process, busy]
    exact keeps_of_same (fun _ => by rw [same]) (by rw [same])
  | none =>
    cases queue : t.manager.requests with
    | nil =>
      have same : (t.step (.process draws)).1 = t := by simp [step, process, busy, queue]
      exact keeps_of_same (fun _ => by rw [same]) (by rw [same])
    | cons asked rest =>
      cases asked with
      | cancelRepair slot =>
        rintro request - ⟨kept | ⟨waited, gone⟩, absent⟩
        · have own : request.slot = slot := by
            obtain ⟨entry, found, same⟩ := Option.map_eq_some_iff.mp kept
            by_contra other
            refine absent ?_
            have outside : inSlotRange slot request.key = false :=
              Bool.eq_false_iff.mpr (fun within => other (slot_of_inSlotRange within))
            simp only [heldAt, step, process, busy, queue, OutstandingTimerStore.removeSlot, TreeMap.getElem?_filter', found,
              Option.filter_some, outside, Bool.not_false, if_true, Option.map_some, same]
          exact .cancelled rfl (own ▸ queue)
        · refine absurd ?_ gone
          simpa [waiting, step, process, busy, queue] using waited
      | _ =>
        refine keeps_of_same (fun key => ?_) ?_
        · simp only [step, process, busy, queue]
          split <;> rfl
        · simp only [step, process, busy, queue]
          split <;> rfl

omit [ShredWire] in
/-- An answer takes one request out, and goes on to the packet filter at once if it was for one shred. -/
theorem receive_takes (recorded : t.manager.outstanding.Each Recorded) {route : RepairRoute} {packet : PacketInfo}
    {held : OutstandingRequest} (takes : Takes t route packet held) (draws : Nat → Draw) :
    (∀ key, (t.receive draws).1.heldAt key = if held.key = key then none else t.heldAt key) ∧
      (t.receive draws).1.waiting = t.waiting ∧
      ShredLayout.getSlot packet = some held.slot ∧
      (held.kind = .windowIndex → .forwarded packet ∈ (t.receive draws).2) := by
  obtain ⟨idle, ⟨rest, queue⟩, nonce, slot, nonceRead, slotRead, kept⟩ := takes
  have own := heldAt_key recorded kept
  obtain ⟨entry, found, rfl⟩ := Option.map_eq_some_iff.mp kept
  have kind := (recorded _ entry found).2
  have removed : t.manager.outstanding.remove slot nonce route =
      ((t.manager.outstanding.remove slot nonce route).1, some entry) := Prod.ext rfl found
  have left := heldAt_remove removed
  rw [slotRead, ← slot_of_repairKey own, own]
  by_cases highest : entry.kind = .highestWindowIndex
  · refine ⟨?_, ?_, rfl, fun window => ?_⟩
    · intro key
      rw [← left]
      simp only [receive, idle, queue, nonceRead, slotRead]
      rw [removed]
      simp only [highest, if_true]
      split <;> rfl
    · simp only [receive, idle, queue, nonceRead, slotRead]
      rw [removed]
      simp only [highest, if_true]
      split <;> rfl
    · rw [← kind, highest] at window
      cases window
  · refine ⟨?_, ?_, rfl, fun _ => ?_⟩
    · intro key
      rw [← left]
      simp only [receive, idle, queue, nonceRead, slotRead]
      rw [removed]
      simp only [highest, if_false]
      rfl
    · simp only [receive, idle, queue, nonceRead, slotRead]
      rw [removed]
      simp only [highest, if_false]
      rfl
    · simp only [receive, idle, queue, nonceRead, slotRead]
      rw [removed]
      simp [highest]

omit [ShredWire] in
theorem receive_idle (untaken : ∀ route packet held, ¬ Takes t route packet held) (draws : Nat → Draw) :
    (∀ key, (t.receive draws).1.heldAt key = t.heldAt key) ∧ (t.receive draws).1.waiting = t.waiting := by
  have same_of : ∀ next : Tasks, (t.receive draws).1 = next → next.manager = t.manager → next.retry = t.retry →
      (∀ key, (t.receive draws).1.heldAt key = t.heldAt key) ∧ (t.receive draws).1.waiting = t.waiting := by
    rintro next rfl manager retry
    exact ⟨fun key => by rw [heldAt, manager]; rfl, by rw [waiting, retry]; rfl⟩
  cases idle : t.answer with
  | some sending => exact same_of t (by simp [receive, idle]) rfl rfl
  | none =>
    cases queue : t.arrivals with
    | nil => exact same_of t (by simp [receive, idle, queue]) rfl rfl
    | cons arrival rest =>
      obtain ⟨route, packet⟩ := arrival
      cases nonceRead : repairNonce packet with
      | none => exact same_of { t with arrivals := rest } (by simp [receive, idle, queue, nonceRead]) rfl rfl
      | some nonce =>
        cases slotRead : ShredLayout.getSlot packet with
        | none => exact same_of { t with arrivals := rest } (by simp [receive, idle, queue, nonceRead, slotRead]) rfl rfl
        | some slot =>
          cases found : t.manager.outstanding.entries[repairKey slot nonce route]? with
          | none =>
            exact same_of { t with arrivals := rest }
              (by simp [receive, idle, queue, nonceRead, slotRead, OutstandingTimerStore.remove, found]) rfl rfl
          | some entry =>
            refine (untaken route packet entry.timer.request ⟨idle, ⟨rest, queue⟩, nonce, slot, nonceRead, slotRead, ?_⟩).elim
            rw [heldAt, found]
            rfl

/-- An entry that an answer takes is retired, rightfully iff the answer is its shred and passes. -/
theorem keeps_receive_iff (recorded : t.manager.outstanding.Each Recorded) (draws : Nat → Draw) :
    KeepsRequests leaderOf t (.receive draws) ↔ Careful leaderOf t (.receive draws) := by
  constructor
  · intro keeps route packet held takes window
    obtain ⟨after, -, -, -⟩ := receive_takes recorded takes draws
    have kept : t.heldAt held.key = some held := by
      obtain ⟨nonce, slot, -, -, kept⟩ := takes.found
      rw [heldAt_key recorded kept]
      exact kept
    have retired : Retired t (t.step (.receive draws)).1 held :=
      ⟨.inl kept, by rw [show (t.step (.receive draws)).1 = (t.receive draws).1 from rfl, after, if_pos rfl]; simp⟩
    cases keeps held window retired with
    | answered receives next slot index forwarded passes =>
      obtain ⟨rest, queue⟩ := takes.next
      rw [queue] at next
      cases next
      exact ⟨index, passes⟩
    | retried times => cases times
    | cancelled processes => cases processes
  · intro careful request window retired
    by_cases taken : ∃ route packet held, Takes t route packet held
    · obtain ⟨route, packet, held, takes⟩ := taken
      obtain ⟨after, waits, slot, forwarded⟩ := receive_takes recorded takes draws
      obtain ⟨kept | ⟨waited, gone⟩, absent⟩ := retired
      · rw [show (t.step (.receive draws)).1 = (t.receive draws).1 from rfl, after] at absent
        split at absent
        next same =>
          have own : held = request := by
            obtain ⟨nonce, slot, -, -, there⟩ := takes.found
            rw [← heldAt_key recorded there, same, kept] at there
            exact (Option.some.inj there).symm
          subst own
          obtain ⟨index, passes⟩ := careful route packet held takes window
          obtain ⟨rest, queue⟩ := takes.next
          exact .answered rfl queue slot index (forwarded window) passes
        next => exact (absent kept).elim
      · exact (gone (waits.trans waited)).elim
    · have idle := receive_idle (fun route packet held takes => taken ⟨route, packet, held, takes⟩) draws
      exact (not_retired idle.1 idle.2 request retired).elim

/-- Retrying is rightful iff the timeout is the request's own and a peer is found; entering a request iff there is room. -/
theorem keeps_outstanding_iff (recorded : t.manager.outstanding.Each Recorded) (draw : Draw) :
    KeepsRequests leaderOf t (.outstanding draw) ↔ Careful leaderOf t (.outstanding draw) := by
  have same_of : (t.outstanding draw).1 = t → KeepsRequests leaderOf t (.outstanding draw) := by
    intro same
    exact keeps_of_same (fun key => by rw [show (t.step (.outstanding draw)).1 = t from same])
      (by rw [show (t.step (.outstanding draw)).1 = t from same])
  cases busy : t.retry with
  | some sending =>
    refine iff_of_true (same_of (by simp [outstanding, busy])) ?_
    intro message rest idle
    rw [busy] at idle
    cases idle
  | none =>
    have idle : t.waiting = none := by rw [waiting, busy]; rfl
    cases queue : t.manager.messages with
    | nil =>
      refine iff_of_true (same_of (by simp [outstanding, busy, queue])) ?_
      intro message rest _ next
      rw [queue] at next
      cases next
    | cons message rest =>
      have careful : Careful leaderOf t (.outstanding draw) ↔ CarefulMessage t draw message := by
        constructor
        · exact fun careful => careful message rest busy queue
        · intro here message' rest' _ next
          rw [queue] at next
          cases next
          exact here
      rw [careful]
      cases message with
      | new request =>
        have after : ∀ key, (t.step (.outstanding draw)).1.heldAt key = if request.key = key then some request else t.heldAt key := by
          intro key
          have moved : (t.step (.outstanding draw)).1 =
              { t with manager := { t.manager with messages := rest }.track request } := by
            simp [step, outstanding, busy, queue]
          rw [moved]
          exact heldAt_track { t with manager := { t.manager with messages := rest } } request key
        have stays : (t.step (.outstanding draw)).1.waiting = none := by simp [step, outstanding, busy, queue, waiting]
        rw [CarefulMessage, ← tracked_iff recorded after (.inl idle)]
        constructor
        · intro keeps other window retired
          cases keeps other window retired with
          | answered receives => cases receives
          | retried times retry =>
            cases times
            rw [show (t.outstanding draw).1.waiting = none from stays] at retry
            cases retry
          | cancelled processes => cases processes
        · exact fun none_retired other window retired => (none_retired other window retired).elim
      | timeout request =>
        cases found : t.manager.outstanding.entries[request.key]? with
        | none =>
          have moved : (t.outstanding draw).1 = { t with manager := { t.manager with messages := rest } } := by
            have removed : (t.manager.outstanding.remove request.slot request.nonce request.target.route).2 = none := found
            unfold outstanding
            rw [busy, queue]
            dsimp only
            rw [show t.manager.outstanding.remove request.slot request.nonce request.target.route = (_, none) from
              Prod.ext rfl removed]
          refine iff_of_true (keeps_of_same (fun key => ?_) ?_) ?_
          · rw [show (t.step (.outstanding draw)).1 = (t.outstanding draw).1 from rfl, moved]
            rfl
          · rw [show (t.step (.outstanding draw)).1 = (t.outstanding draw).1 from rfl, moved]
            rfl
          · intro held kept
            rw [heldAt, found] at kept
            cases kept
        | some entry =>
          have removed : t.manager.outstanding.remove request.slot request.nonce request.target.route =
              ((t.manager.outstanding.remove request.slot request.nonce request.target.route).1, some entry) :=
            Prod.ext rfl found
          have kept : t.heldAt request.key = some entry.timer.request := by rw [heldAt, found]; rfl
          have after : ∀ key, (t.outstanding draw).1.heldAt key = if request.key = key then none else t.heldAt key := by
            intro key
            have left := heldAt_remove removed key
            rw [show request.key = repairKey request.slot request.nonce request.target.route from rfl, ← left]
            unfold outstanding
            rw [busy, queue]
            dsimp only
            rw [removed]
            dsimp only
            split <;> rfl
          have again : (t.outstanding draw).1.waiting =
              draw.map (fun drawn => { request with nonce := drawn.2, target := drawn.1 }) := by
            unfold outstanding
            rw [busy, queue]
            dsimp only
            rw [removed]
            cases draw with
            | none => simp [mapShred, waiting]
            | some drawn => simp [mapShred, waiting]
          constructor
          · intro keeps held there window
            have retired : Retired t (t.step (.outstanding draw)).1 held := by
              have own := heldAt_key recorded there
              refine ⟨.inl (by rw [own]; exact there), ?_⟩
              rw [show (t.step (.outstanding draw)).1 = (t.outstanding draw).1 from rfl, after, own, if_pos rfl]
              simp
            cases keeps held window retired with
            | answered receives => cases receives
            | retried times retry kind slot shred =>
              cases times
              rw [again, Option.map_eq_some_iff] at retry
              obtain ⟨drawn, rfl, rfl⟩ := retry
              exact ⟨rfl, kind, shred⟩
            | cancelled processes => cases processes
          · rintro careful held window ⟨there | ⟨waited, -⟩, absent⟩
            · rw [show (t.step (.outstanding draw)).1 = (t.outstanding draw).1 from rfl, after] at absent
              split at absent
              next same =>
                obtain ⟨peer, kind, shred⟩ := careful held (by rw [same]; exact there) window
                obtain ⟨drawn, rfl⟩ := Option.isSome_iff_exists.mp peer
                exact .retried rfl again kind (slot_of_repairKey same) shred
              next => exact (absent there).elim
            · rw [idle] at waited
              cases waited

theorem keeps_wake_iff (recorded : t.manager.outstanding.Each Recorded) :
    KeepsRequests leaderOf t (.wake .outstanding) ↔ Careful leaderOf t (.wake .outstanding) := by
  have same_of : (t.wake .outstanding).1 = t → KeepsRequests leaderOf t (.wake .outstanding) := by
    intro same
    exact keeps_of_same (fun key => by rw [show (t.step (.wake .outstanding)).1 = t from same])
      (by rw [show (t.step (.wake .outstanding)).1 = t from same])
  cases retry : t.retry with
  | none =>
    refine iff_of_true (same_of (by simp [wake, retry])) ?_
    intro sending next
    rw [retry] at next
    cases next
  | some sending =>
    obtain ⟨batch, taken, next⟩ := sending
    cases taken with
    | false =>
      refine iff_of_true (same_of (by simp [wake, retry])) ?_
      intro sending there taken
      rw [retry] at there
      cases there
      cases taken
    | true =>
      have careful : Careful leaderOf t (.wake .outstanding) ↔ Room t next := by
        constructor
        · exact fun careful => careful ⟨batch, true, next⟩ retry rfl
        · intro room sending there _
          rw [retry] at there
          cases there
          exact room
      have moved : (t.step (.wake .outstanding)).1 = { t with manager := t.manager.track next, retry := none } := by
        simp [step, wake, retry]
      have after : ∀ key, (t.step (.wake .outstanding)).1.heldAt key = if next.key = key then some next else t.heldAt key := by
        intro key
        rw [← heldAt_track, moved]
        exact heldAt_congr rfl key
      rw [careful, ← tracked_iff recorded after (.inr (by rw [waiting, retry]; rfl))]
      constructor
      · intro keeps other window retired
        cases keeps other window retired with
        | answered receives => cases receives
        | retried times => cases times
        | cancelled processes => cases processes
      · exact fun none_retired other window retired => (none_retired other window retired).elim

theorem keeps_refuse_iff : KeepsRequests leaderOf t (.refuse .outstanding) ↔ Careful leaderOf t (.refuse .outstanding) := by
  have same_of : (t.refuse .outstanding).1 = t → KeepsRequests leaderOf t (.refuse .outstanding) := by
    intro same
    exact keeps_of_same (fun key => by rw [show (t.step (.refuse .outstanding)).1 = t from same])
      (by rw [show (t.step (.refuse .outstanding)).1 = t from same])
  cases retry : t.retry with
  | none =>
    refine iff_of_true (same_of (by simp [refuse, retry])) ?_
    intro sending next
    rw [retry] at next
    cases next
  | some sending =>
    obtain ⟨batch, taken, next⟩ := sending
    cases taken with
    | true =>
      refine iff_of_true (same_of (by simp [refuse, retry])) ?_
      intro sending there untaken
      rw [retry] at there
      cases there
      cases untaken
    | false =>
      have moved : (t.step (.refuse .outstanding)).1 = { t with retry := none } := by simp [step, refuse, retry]
      have after : ∀ key, (t.step (.refuse .outstanding)).1.heldAt key = t.heldAt key := fun key => by rw [moved]; rfl
      have waited : t.waiting = some next := by rw [waiting, retry]; rfl
      constructor
      · intro keeps sending there _ window
        rw [retry] at there
        cases there
        by_contra absent
        have retired : Retired t (t.step (.refuse .outstanding)).1 next := by
          refine ⟨.inr ⟨waited, ?_⟩, by rw [after]; exact absent⟩
          rw [moved]
          simp [waiting]
        cases keeps next window retired with
        | answered receives => cases receives
        | retried times => cases times
        | cancelled processes => cases processes
      · rintro careful other window ⟨kept | ⟨same, -⟩, absent⟩
        · exact (absent ((after _).trans kept)).elim
        · rw [waited, Option.some.injEq] at same
          subst same
          exact (absent ((after _).trans (careful ⟨batch, false, next⟩ retry rfl window))).elim

theorem keeps_iff (recorded : t.manager.outstanding.Each Recorded) (input : Input) :
    KeepsRequests leaderOf t input ↔ Careful leaderOf t input := by
  cases input with
  | request request => exact iff_of_true (keeps_of_same (fun _ => rfl) rfl) trivial
  | arrive route packet => exact iff_of_true (keeps_of_same (fun _ => rfl) rfl) trivial
  | process draws => exact iff_of_true (keeps_process draws) trivial
  | outstanding draw => exact keeps_outstanding_iff recorded draw
  | receive draws => exact keeps_receive_iff recorded draws
  | requestTimer fired =>
    refine iff_of_true (keeps_of_same (fun key => ?_) rfl) trivial
    dsimp only [step]
    exact heldAt_fire t fired key
  | looseRequestTimer index =>
    refine iff_of_true (keeps_of_same (fun key => ?_) rfl) trivial
    simp only [heldAt, step, RepairManager.fireLoose_outstanding]
  | take loop =>
    refine iff_of_true (keeps_of_same (fun key => ?_) ?_) trivial
    · cases loop <;> dsimp only [step, take] <;> split <;> rfl
    · cases loop with
      | outstanding =>
        dsimp only [step, take]
        split
        next batch next retry =>
          rw [waiting, waiting, retry]
          rfl
        next => rfl
      | _ => dsimp only [step, take]; split <;> rfl
  | refuse loop =>
    cases loop with
    | outstanding => exact keeps_refuse_iff
    | _ =>
      refine iff_of_true (keeps_of_same (fun key => ?_) ?_) trivial
      · dsimp only [step, refuse]
        split <;> rfl
      · dsimp only [step, refuse]
        split <;> rfl
  | wake loop =>
    cases loop with
    | outstanding => exact keeps_wake_iff recorded
    | _ =>
      refine iff_of_true (keeps_of_same (fun key => ?_) ?_) trivial
      · dsimp only [step, wake]
        split <;> rfl
      · dsimp only [step, wake]
        split <;> rfl

/-- In a run requests for one shred come to their end only by the shred, by being sent again or by a cancellation, as long
as every step is careful. -/
theorem requests_kept_iff (leaderOf : UInt64 → Option Pubkey) (inputs : List Input) :
    Meets step (KeepsRequests leaderOf) new inputs ↔ Meets step (Careful leaderOf) new inputs := by
  refine meets_congr_of_invariant (P := fun (t : Tasks) => t.manager.outstanding.Each Recorded)
    OutstandingTimerStore.each_empty (fun t input recorded => keeps_iff recorded input) ?_ inputs
  exact fun t input recorded _ => each_step (fun _ => ⟨rfl, rfl⟩) (fun _ _ _ held => held) recorded input

end

omit [ShredLayout]

/-- No signature is ever valid. -/
abbrev unsignedWire : ShredWire := ⟨fun _ => none, fun _ => none, fun _ _ _ => false⟩

def windowPeer : RepairTarget := .udp ⟨.v4 0xC6336401, 8008⟩ 3

/-- Shred 3 of slot 7 is asked for. -/
def fourthAsked : OutstandingRequest := ⟨.windowIndex, 88 * 65536, 7, 3, windowPeer⟩

/-- Shred 0 of slot 7, unsigned, with the nonce of the request in its last bytes. -/
def firstShred : PacketInfo := wireShred ⟨.data, 7, 0, 1, 0⟩ 0

def askFourthHearFirst : List Input :=
  .request (.missingBoundedShreds 7 [3]) :: turnOf .processor (.process (fun _ => some (windowPeer, 88 * 65536))) ++
    [.outstanding none, .arrive windowPeer.route firstShred]

/-- The request for shred 3 is gone, and nothing is left to ask for it. -/
theorem wrong_shred_retires_request :
    (run (@step wireLayout) new askFourthHearFirst).1.heldAt fourthAsked.key = some fourthAsked ∧
      (@step wireLayout (run (@step wireLayout) new askFourthHearFirst).1 (.receive (fun _ => none))).1.heldAt fourthAsked.key =
        none ∧
      ∀ leaderOf, ¬ Meets (@step wireLayout) (@KeepsRequests wireLayout unsignedWire leaderOf) new
        (askFourthHearFirst ++ [.receive (fun _ => none)]) := by
  have asked : (run (@step wireLayout) new askFourthHearFirst).1.heldAt fourthAsked.key = some fourthAsked := by decide
  have gone : (@step wireLayout (run (@step wireLayout) new askFourthHearFirst).1
      (.receive (fun _ => none))).1.heldAt fourthAsked.key = none := by decide
  refine ⟨asked, gone, fun leaderOf kept => ?_⟩
  have here := ((meets_concat askFourthHearFirst _).mp kept).2 fourthAsked rfl ⟨.inl asked, by rw [gone]; simp⟩
  cases here with
  | answered receives next slot index =>
    have arrivals : (run (@step wireLayout) new askFourthHearFirst).1.arrivals = [(windowPeer.route, firstShred)] := by decide
    rw [arrivals] at next
    cases next
    revert index
    decide
  | retried times => cases times
  | cancelled processes => cases processes

end Lightbringer.Repair.Tasks
