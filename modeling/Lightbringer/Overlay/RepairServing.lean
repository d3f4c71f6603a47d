import Lightbringer.Overlay.StreamHandles
import Lightbringer.Lib.Entries

/-!
# One answer for every request served

The server side of repair, followed stream by stream: a stream is announced once, read until its FIN, handed to the
driver if what was read is a request the rate limit admits, and then answered or dropped.
-/

namespace Lightbringer.Overlay
open Std Machine

def StreamEvent.stream : StreamEvent → OverlayStreamId
  | .opened stream _ => stream
  | .data stream _ => stream
  | .finished stream => stream
  | .failed stream => stream

namespace RepairCore

variable {T : Type} [StreamTransport T]

/-- What a step does to the server side of a stream. -/
def concerns (stream : OverlayStreamId) : RepairAction → Bool
  | .polled event => event.stream = stream
  | .pushed (.repairRequest asked _ _) => asked = stream
  | .responded answered _ => answered = stream
  | .reset dropped => dropped = stream
  | _ => false

/-- The rate limit, asked during a poll, admits the peer. -/
def admits (core : RepairCore T) : Input T → Pubkey → Bool
  | .poll now, peer => (core.repairRate.checkAndIncrement peer now).2
  | _, _ => false

def answers (stream : OverlayStreamId) : Input T → Bool
  | .answer answered _ => answered = stream
  | _ => false

/-- The ways in which a step can change the entry of a stream, with the actions that concern the stream. -/
inductive Serves (admits : Pubkey → Bool) (answers : Bool) (stream : OverlayStreamId) :
    Option InboundRepair → List RepairAction → Option InboundRepair → Prop where
  | idle (entry actions) (resets : ∀ action ∈ actions, action = .reset stream) : Serves admits answers stream entry actions entry
  | ignored (event actions) (plain : event.opens = none) (resets : ∀ action ∈ actions, action = .reset stream) :
      Serves admits answers stream none (.polled event :: actions) none
  | opened (entry peer deadline) :
      Serves admits answers stream entry [.polled (.opened stream peer)] (some ⟨peer, [], false, deadline⟩)
  | refused (entry peer) : Serves admits answers stream entry [.polled (.opened stream peer), .reset stream] entry
  | received (repair bytes) (reading : repair.awaitingLookup = false)
      (fits : (repair.buf ++ bytes).length ≤ maxRepairReqWire) :
      Serves admits answers stream (some repair) [.polled (.data stream bytes)] (some { repair with buf := repair.buf ++ bytes })
  | admitted (repair request) (reading : repair.awaitingLookup = false)
      (decoded : decodeRequest repair.buf = some request)
      (granted : admits repair.peer = true) :
      Serves admits answers stream (some repair)
        [.polled (.finished stream), .pushed (.repairRequest stream repair.peer request)]
        (some { repair with awaitingLookup := true, buf := [] })
  /-- A second FIN. -/
  | waiting (repair) (handed : repair.awaitingLookup = true) :
      Serves admits answers stream (some repair) [.polled (.finished stream)] (some repair)
  | dropped (repair actions) (reset : .reset stream ∈ actions)
      (plain : ∀ action ∈ actions, action = .reset stream ∨ ∃ event, action = .polled event ∧ event.opens = none) :
      Serves admits answers stream (some repair) actions none
  | failed (entry) : Serves admits answers stream entry [.polled (.failed stream)] none
  | answered (repair raw) (handed : repair.awaitingLookup = true) :
      Serves admits answers stream (some repair) [.responded stream raw] none
  /-- An answer for a stream the driver was not asked about. -/
  | unasked (repair) (reading : repair.awaitingLookup = false) (unasked : answers = true) :
      Serves admits answers stream (some repair) [] none

variable {core : RepairCore T} {stream : OverlayStreamId} {answers : Bool}

/-! ### Stream events -/

theorem getElem?_dropInbound (core : RepairCore T) (stream other : OverlayStreamId) :
    (core.dropInbound stream).1.inboundRepairs[other]? =
      if stream = other then none else core.inboundRepairs[other]? :=
  Entries.getElem?_erase core.inboundRepairs stream other

/-- Nothing about other streams. -/
theorem handleStreamEvent_other (core : RepairCore T) (now : Instant) (event : StreamEvent)
    (apart : event.stream ≠ stream) :
    (core.handleStreamEvent now event).2.filter (concerns stream) = [] ∧
    (core.handleStreamEvent now event).1.inboundRepairs[stream]? = core.inboundRepairs[stream]? := by
  cases event with
  | opened opened peer =>
    change opened ≠ stream at apart
    dsimp only [handleStreamEvent, handleOpened]
    split
    · exact ⟨by simp [resetStream, concerns, apart], rfl⟩
    · exact ⟨rfl, by rw [Entries.getElem?_insert, if_neg apart]⟩
  | data named bytes =>
    change named ≠ stream at apart
    dsimp only [handleStreamEvent, handleData]
    split
    · split
      · exact ⟨by simp [dropInbound, resetStream, concerns, apart], by rw [getElem?_dropInbound, if_neg apart]; rfl⟩
      split
      · exact ⟨by simp [dropInbound, resetStream, concerns, apart], by rw [getElem?_dropInbound, if_neg apart]; rfl⟩
      · exact ⟨rfl, by rw [Entries.getElem?_insert, if_neg apart]⟩
    · split
      · split
        · exact ⟨by simp [dropOutbound, push, resetStream, concerns, apart], rfl⟩
        · exact ⟨rfl, rfl⟩
      · exact ⟨rfl, rfl⟩
  | finished named =>
    change named ≠ stream at apart
    dsimp only [handleStreamEvent, handleFinished, finishInbound, finishOutbound]
    split
    · split
      · exact ⟨rfl, rfl⟩
      split
      · exact ⟨by simp [dropInbound, resetStream, concerns, apart], by rw [getElem?_dropInbound, if_neg apart]; rfl⟩
      split
      · exact ⟨by simp [push, concerns, apart], by rw [push, Entries.getElem?_insert, if_neg apart]⟩
      · exact ⟨by simp [dropInbound, resetStream, concerns, apart], by rw [getElem?_dropInbound, if_neg apart]; rfl⟩
    · split
      · split
        · exact ⟨by simp [push, concerns], rfl⟩
        · exact ⟨by simp [push, concerns], rfl⟩
        · exact ⟨by simp [push, concerns], rfl⟩
      · exact ⟨rfl, rfl⟩
  | failed named =>
    change named ≠ stream at apart
    dsimp only [handleStreamEvent, handleFailed]
    split
    · exact ⟨by simp [push, concerns], by rw [push, Entries.getElem?_erase, if_neg apart]⟩
    · exact ⟨rfl, by rw [Entries.getElem?_erase, if_neg apart]⟩

theorem serves_data (core : RepairCore T) (admits : Pubkey → Bool) (stream : OverlayStreamId) (bytes : List UInt8) :
    Serves admits answers stream core.inboundRepairs[stream]?
      (.polled (.data stream bytes) :: (core.handleData stream bytes).2.filter (concerns stream))
      (core.handleData stream bytes).1.inboundRepairs[stream]? := by
  have drops : ∀ (repair : InboundRepair), core.inboundRepairs[stream]? = some repair →
      Serves admits answers stream core.inboundRepairs[stream]?
        (.polled (.data stream bytes) :: (core.malformed.dropInbound stream).2.filter (concerns stream))
        (core.malformed.dropInbound stream).1.inboundRepairs[stream]? := by
    intro repair found
    rw [getElem?_dropInbound, if_pos rfl, found]
    refine .dropped repair _ (by simp [dropInbound, resetStream, concerns]) ?_
    simp [dropInbound, resetStream, concerns, StreamEvent.opens]
  unfold handleData
  split
  next repair found =>
    split
    · exact drops repair found
    next reading =>
      dsimp only
      split
      · exact drops repair found
      next fits =>
        rw [Entries.getElem?_insert, if_pos rfl, found]
        exact .received repair bytes (by simpa using reading) (Nat.le_of_not_lt fits)
  next absent =>
    split
    · dsimp only
      split
      · refine absent ▸ .ignored _ _ rfl ?_
        simp [dropOutbound, push, resetStream, concerns]
      · exact absent ▸ .ignored _ _ rfl (by simp)
    · exact absent ▸ .ignored _ _ rfl (by simp)

theorem serves_finished (core : RepairCore T) (now : Instant) (stream : OverlayStreamId) :
    Serves (core.admits (.poll now)) answers stream core.inboundRepairs[stream]?
      (.polled (.finished stream) :: (core.handleFinished now stream).2.filter (concerns stream))
      (core.handleFinished now stream).1.inboundRepairs[stream]? := by
  unfold handleFinished
  split
  next repair found =>
    have drops : ∀ dropped : RepairCore T,
        Serves (core.admits (.poll now)) answers stream core.inboundRepairs[stream]?
          (.polled (.finished stream) :: (dropped.dropInbound stream).2.filter (concerns stream))
          (dropped.dropInbound stream).1.inboundRepairs[stream]? := by
      intro dropped
      rw [getElem?_dropInbound, if_pos rfl, found]
      refine .dropped repair _ (by simp [dropInbound, resetStream, concerns]) ?_
      simp [dropInbound, resetStream, concerns, StreamEvent.opens]
    unfold finishInbound
    split
    next handed => exact found ▸ .waiting repair handed
    next reading =>
      split
      · exact drops _
      next request decoded =>
        dsimp only
        split
        next granted =>
          have kept : (core.inboundRepairs.insert stream { repair with awaitingLookup := true, buf := [] })[stream]? =
              some { repair with awaitingLookup := true, buf := [] } := by
            rw [Entries.getElem?_insert, if_pos rfl]
          simp only [push, kept, found, List.filter_cons, List.filter_nil, concerns, decide_true, if_true]
          exact .admitted repair request (by simpa using reading) decoded granted
        next => exact drops _
  next absent =>
    split
    · unfold finishOutbound
      dsimp only
      split
      all_goals exact absent ▸ .ignored _ _ rfl (by simp [push, concerns])
    · exact absent ▸ .ignored _ _ rfl (by simp)

omit [StreamTransport T] in
theorem serves_failed (core : RepairCore T) (admits : Pubkey → Bool) (stream : OverlayStreamId) :
    Serves admits answers stream core.inboundRepairs[stream]?
      (.polled (.failed stream) :: (core.handleFailed stream).2.filter (concerns stream))
      (core.handleFailed stream).1.inboundRepairs[stream]? := by
  have gone : (core.inboundRepairs.erase stream)[stream]? = none := by
    rw [Entries.getElem?_erase, if_pos rfl]
  unfold handleFailed
  dsimp only
  split
  · simp only [push, gone, List.filter_cons, List.filter_nil, concerns, Bool.false_eq_true, if_false]
    exact .failed _
  · simp only [gone, List.filter_nil]
    exact .failed _

theorem serves_opened (core : RepairCore T) (admits : Pubkey → Bool) (now : Instant) (stream : OverlayStreamId)
    (peer : Pubkey) : Serves admits answers stream core.inboundRepairs[stream]?
      (.polled (.opened stream peer) :: (core.handleOpened now stream peer).2.filter (concerns stream))
      (core.handleOpened now stream peer).1.inboundRepairs[stream]? := by
  unfold handleOpened
  split
  · simp only [resetStream, List.filter_cons, List.filter_nil, concerns, decide_true, if_true]
    exact .refused _ peer
  · rw [Entries.getElem?_insert, if_pos rfl]
    exact .opened _ peer _

theorem serves_event (core : RepairCore T) (now : Instant) (event : StreamEvent) (stream : OverlayStreamId) :
    Serves (core.admits (.poll now)) answers stream core.inboundRepairs[stream]?
      ((.polled event :: (core.handleStreamEvent now event).2).filter (concerns stream))
      (core.handleStreamEvent now event).1.inboundRepairs[stream]? := by
  by_cases here : event.stream = stream
  · have front : concerns stream (.polled event) = true := by simp [concerns, here]
    rw [List.filter_cons, if_pos front]
    subst here
    cases event with
    | opened stream peer => exact serves_opened core _ now stream peer
    | data stream bytes => exact serves_data core _ stream bytes
    | finished stream => exact serves_finished core now stream
    | failed stream => exact serves_failed core _ stream
  · have front : concerns stream (.polled event) = false := by simp [concerns, here]
    obtain ⟨silent, same⟩ := handleStreamEvent_other core now event here
    rw [List.filter_cons, if_neg (by simp [front]), silent, same]
    exact .idle _ [] (by simp)

theorem serves_poll (core : RepairCore T) (now : Instant) (stream : OverlayStreamId) :
    Serves (core.admits (.poll now)) answers stream core.inboundRepairs[stream]? ((core.poll now).2.filter (concerns stream))
      (core.poll now).1.inboundRepairs[stream]? := by
  unfold poll
  split
  · exact .idle _ [] (by simp)
  next transport event _ => exact serves_event { core with transport := transport } now event stream

/-! ### Answers and timeouts -/

theorem serves_answer (core : RepairCore T) (admits : Pubkey → Bool) (answered stream : OverlayStreamId)
    (shred : Option (List UInt8)) : Serves admits (decide (answered = stream)) stream core.inboundRepairs[stream]?
      ((core.onRepairResponse answered shred).2.filter (concerns stream))
      (core.onRepairResponse answered shred).1.inboundRepairs[stream]? := by
  unfold onRepairResponse
  split
  · exact .idle _ [] (by simp)
  next repair found =>
    dsimp only
    by_cases here : answered = stream
    · subst here
      have gone : (core.inboundRepairs.erase answered)[answered]? = none := by
        rw [Entries.getElem?_erase, if_pos rfl]
      rw [found]
      split
      next reading =>
        rw [gone]
        exact .unasked repair (by simpa using reading) (by simp)
      next handed =>
        split
        next raw _ =>
          rw [gone, List.filter_cons, if_pos (by simp [concerns])]
          exact .answered repair raw (by simpa using handed)
        next =>
          rw [resetStream, gone]
          exact .dropped repair _ (by simp [concerns]) (by simp [concerns])
    · have kept : (core.inboundRepairs.erase answered)[stream]? = core.inboundRepairs[stream]? := by
        rw [Entries.getElem?_erase, if_neg here]
      split
      · rw [kept]
        exact .idle _ [] (by simp)
      split
      · rw [kept]
        exact .idle _ _ (by simp [concerns, here])
      · rw [resetStream, kept]
        exact .idle _ _ (by simp [concerns, here])

theorem expireOutbound_inbound (stream : OverlayStreamId) (entries : List (OverlayStreamId × OutboundRepair))
    (core : RepairCore T) :
    (run expireOutbound core entries).1.inboundRepairs = core.inboundRepairs ∧
    ∀ action ∈ (run expireOutbound core entries).2, concerns stream action = true → action = .reset stream := by
  induction entries generalizing core with
  | nil => exact ⟨rfl, by simp⟩
  | cons entry rest ih =>
    obtain ⟨same, resets⟩ := ih (core.dropOutbound entry.1 entry.2.peer).1
    refine ⟨same, fun action member about => ?_⟩
    rcases List.mem_append.mp member with here | later
    · have both : action ∈ [RepairAction.reset entry.1, .pushed (.repairFailed entry.1 entry.2.peer)] := here
      simp only [List.mem_cons, List.not_mem_nil, or_false] at both
      rcases both with rfl | rfl
      · rw [of_decide_eq_true about]
      · cases about
    · exact resets action later about

/-- The streams named are taken off with a reset. -/
theorem expireInbound_inbound (stream : OverlayStreamId) (entries : List (OverlayStreamId × InboundRepair))
    (core : RepairCore T) :
    (run expireInbound core entries).2 = entries.map (fun entry => .reset entry.1) ∧
    (run expireInbound core entries).1.inboundRepairs[stream]? =
      if stream ∈ entries.map (·.1) then none else core.inboundRepairs[stream]? := by
  induction entries generalizing core with
  | nil => exact ⟨rfl, by simp⟩
  | cons entry rest ih =>
    obtain ⟨resets, left⟩ := ih (core.dropInbound entry.1).1
    refine ⟨by rw [run_cons]; exact congrArg (.reset entry.1 :: ·) resets, ?_⟩
    refine left.trans ?_
    rw [getElem?_dropInbound]
    by_cases here : entry.1 = stream
    · simp [here]
    · rw [if_neg here]
      simp only [List.map_cons, List.mem_cons, Ne.symm here, false_or]

theorem serves_timer (core : RepairCore T) (admits : Pubkey → Bool) (now : Instant) (stream : OverlayStreamId) :
    Serves admits answers stream core.inboundRepairs[stream]? ((core.expireRepairs now).2.filter (concerns stream))
      (core.expireRepairs now).1.inboundRepairs[stream]? := by
  unfold expireRepairs
  dsimp only
  obtain ⟨same, resets⟩ := expireOutbound_inbound stream
    (core.outboundRepairs.toList.filter (fun entry => entry.2.deadline ≤ now)) core
  generalize run expireOutbound core _ = between at same resets
  obtain ⟨dropped, left⟩ := expireInbound_inbound stream
    (between.1.inboundRepairs.toList.filter (fun entry => entry.2.deadline ≤ now)) between.1
  rw [left, dropped, same]
  have only : ∀ action ∈ (between.2 ++ (core.inboundRepairs.toList.filter (fun entry => entry.2.deadline ≤ now)).map
      (fun entry => RepairAction.reset entry.1)).filter (concerns stream), action = .reset stream := by
    intro action member
    obtain ⟨member, about⟩ := List.mem_filter.mp member
    rcases List.mem_append.mp member with early | late
    · exact resets action early about
    · obtain ⟨entry, _, rfl⟩ := List.mem_map.mp late
      rw [of_decide_eq_true about]
  split
  next due =>
    obtain ⟨entry, member, rfl⟩ := List.mem_map.mp due
    rw [TreeMap.mem_toList_iff_getElem?_eq_some.mp (List.mem_of_mem_filter member)]
    refine .dropped entry.2 _ (List.mem_filter.mpr ⟨?_, by simp [concerns]⟩) (fun action member => .inl (only action member))
    exact List.mem_append_right _ (List.mem_map.mpr ⟨entry, member, rfl⟩)
  next => exact .idle _ _ only

theorem serves_step (core : RepairCore T) (input : Input T) (stream : OverlayStreamId) :
    Serves (core.admits input) (RepairCore.answers stream input) stream core.inboundRepairs[stream]? ((step core input).2.filter (concerns stream))
      (step core input).1.inboundRepairs[stream]? := by
  cases input with
  | call call => exact .idle _ [] (by simp)
  | request now peer request =>
    dsimp only [step, requestRepair]
    split
    · exact .idle _ [] (by simp)
    split
    · exact .idle _ [] (by simp)
    · exact .idle _ _ (by simp [concerns])
  | answer answered shred => exact serves_answer core _ answered stream shred
  | poll now => exact serves_poll core now stream
  | timer now => exact serves_timer core _ now stream

/-! ### What the log tells about a stream -/

def announces (stream : OverlayStreamId) : RepairAction → Bool
  | .polled event => event.opens = some stream
  | _ => false

def hands (stream : OverlayStreamId) : RepairAction → Bool
  | .pushed (.repairRequest asked _ _) => asked = stream
  | _ => false

def responds (stream : OverlayStreamId) : RepairAction → Bool
  | .responded answered _ => answered = stream
  | _ => false

/-- The times the stream was announced, handed to the driver and answered. -/
def openings (stream : OverlayStreamId) (log : List RepairAction) : Nat := log.countP (announces stream)

def handings (stream : OverlayStreamId) (log : List RepairAction) : Nat := log.countP (hands stream)

def responses (stream : OverlayStreamId) (log : List RepairAction) : Nat := log.countP (responds stream)

def receive (stream : OverlayStreamId) (bytes : List UInt8) : RepairAction → List UInt8
  | .polled (.opened opened _) => if opened = stream then [] else bytes
  | .polled (.data named more) => if named = stream then bytes ++ more else bytes
  | _ => bytes

/-- The bytes that came in since the stream was announced. -/
def received (stream : OverlayStreamId) (log : List RepairAction) : List UInt8 := log.foldl (receive stream) []

theorem countP_concerns {p : RepairAction → Bool} (about : ∀ action, p action = true → concerns stream action = true)
    (log actions : List RepairAction) :
    (log ++ actions).countP p = log.countP p + (actions.filter (concerns stream)).countP p := by
  rw [List.countP_append, List.countP_filter]
  congr 1
  refine List.countP_congr (fun action _ => ?_)
  simp only [Bool.and_eq_true]
  exact ⟨fun holds => ⟨holds, about action holds⟩, And.left⟩

theorem announces_concerns (action : RepairAction) (holds : announces stream action = true) :
    concerns stream action = true := by
  cases action with
  | polled event =>
    cases event with
    | opened opened peer => exact decide_eq_true (Option.some.inj (of_decide_eq_true holds))
    | _ => simp [announces, StreamEvent.opens] at holds
  | _ => cases holds

theorem hands_concerns (action : RepairAction) (holds : hands stream action = true) : concerns stream action = true := by
  cases action with
  | pushed event =>
    cases event with
    | repairRequest asked peer request => exact holds
    | _ => cases holds
  | _ => cases holds

theorem responds_concerns (action : RepairAction) (holds : responds stream action = true) :
    concerns stream action = true := by
  cases action with
  | responded answered raw => exact holds
  | _ => cases holds

theorem openings_append (stream : OverlayStreamId) (log actions : List RepairAction) :
    openings stream (log ++ actions) = openings stream log + openings stream (actions.filter (concerns stream)) :=
  countP_concerns announces_concerns log actions

theorem handings_append (stream : OverlayStreamId) (log actions : List RepairAction) :
    handings stream (log ++ actions) = handings stream log + handings stream (actions.filter (concerns stream)) :=
  countP_concerns hands_concerns log actions

theorem responses_append (stream : OverlayStreamId) (log actions : List RepairAction) :
    responses stream (log ++ actions) = responses stream log + responses stream (actions.filter (concerns stream)) :=
  countP_concerns responds_concerns log actions

theorem receive_other {action : RepairAction} (apart : concerns stream action = false) (bytes : List UInt8) :
    receive stream bytes action = bytes := by
  cases action with
  | polled event =>
    cases event with
    | opened opened peer => exact if_neg (of_decide_eq_false apart)
    | data named more => exact if_neg (of_decide_eq_false apart)
    | _ => rfl
  | _ => rfl

theorem received_append (stream : OverlayStreamId) (log actions : List RepairAction) :
    received stream (log ++ actions) = (actions.filter (concerns stream)).foldl (receive stream) (received stream log) := by
  rw [received, List.foldl_append, ← received]
  generalize received stream log = bytes
  induction actions generalizing bytes with
  | nil => rfl
  | cons action rest ih =>
    rw [List.foldl_cons, List.filter_cons]
    split
    next => exact ih _
    next apart => rw [receive_other (by simpa using apart), ih]

/-! ### Whole runs -/

/-- What is known of a stream from its entry and the log. -/
structure Served (stream : OverlayStreamId) (entry : Option InboundRepair) (log : List RepairAction) : Prop where
  unopened : openings stream log = 0 → entry = none ∧ handings stream log = 0 ∧ responses stream log = 0
  handed : handings stream log ≤ 1
  answered : responses stream log ≤ 1
  announced : ∀ repair, entry = some repair → .polled (.opened stream repair.peer) ∈ log ∧ responses stream log = 0
  reading : ∀ repair, entry = some repair → repair.awaitingLookup = false →
    handings stream log = 0 ∧ repair.buf = received stream log ∧ repair.buf.length ≤ maxRepairReqWire

theorem served_nil (stream : OverlayStreamId) : Served stream none [] where
  unopened _ := ⟨rfl, rfl, rfl⟩
  handed := Nat.zero_le 1
  answered := Nat.zero_le 1
  announced _ held := nomatch held
  reading _ held := nomatch held

/-- Resets and events that announce nothing count for nothing. -/
def Plain (stream : OverlayStreamId) (action : RepairAction) : Prop :=
  action = .reset stream ∨ ∃ event, action = .polled event ∧ event.opens = none

theorem plain_counts {actions : List RepairAction} (plain : ∀ action ∈ actions, Plain stream action) :
    openings stream actions = 0 ∧ handings stream actions = 0 ∧ responses stream actions = 0 := by
  refine ⟨List.countP_eq_zero.mpr ?_, List.countP_eq_zero.mpr ?_, List.countP_eq_zero.mpr ?_⟩
  all_goals
    intro action member
    rcases plain action member with rfl | ⟨event, rfl, quiet⟩
    · simp [announces, hands, responds]
    · simp [announces, hands, responds, quiet]

theorem foldl_receive_resets {actions : List RepairAction} (resets : ∀ action ∈ actions, action = .reset stream)
    (bytes : List UInt8) : actions.foldl (receive stream) bytes = bytes := by
  induction actions with
  | nil => rfl
  | cons action rest ih =>
    rw [List.foldl_cons, resets action (List.mem_cons_self ..)]
    exact ih (fun later member => resets later (List.mem_cons_of_mem _ member))

/-- A stream that is gone stays as it was known. -/
theorem served_gone {entry : Option InboundRepair} {log log' : List RepairAction} (held : Served stream entry log)
    (opened : openings stream log ≤ openings stream log') (handed : handings stream log' = handings stream log)
    (answered : responses stream log' = responses stream log) : Served stream none log' where
  unopened none := by
    obtain ⟨_, first, second⟩ := held.unopened (by omega)
    exact ⟨rfl, handed.trans first, answered.trans second⟩
  handed := handed ▸ held.handed
  answered := answered ▸ held.answered
  announced _ found := nomatch found
  reading _ found := nomatch found

/-- A stream that is there has been announced. -/
theorem openings_pos {log : List RepairAction} {peer : Pubkey} (announced : .polled (.opened stream peer) ∈ log) :
    0 < openings stream log := List.countP_pos_iff.mpr ⟨_, announced, by simp [announces, StreamEvent.opens]⟩

theorem served_live {repair : InboundRepair} {log : List RepairAction}
    (announced : .polled (.opened stream repair.peer) ∈ log) (handed : handings stream log ≤ 1)
    (unanswered : responses stream log = 0)
    (reading : repair.awaitingLookup = false → handings stream log = 0 ∧ repair.buf = received stream log ∧
      repair.buf.length ≤ maxRepairReqWire) : Served stream (some repair) log where
  unopened none := by
    have pos := openings_pos announced
    omega
  handed := handed
  answered := by omega
  announced other found := by
    cases found
    exact ⟨announced, unanswered⟩
  reading other found := by
    cases found
    exact reading

/-- Whatever happens to a stream, if it is announced only once. -/
theorem served_serves {admits : Pubkey → Bool} {entry entry' : Option InboundRepair} {log actions : List RepairAction}
    (held : Served stream entry log) (serves : Serves admits answers stream entry (actions.filter (concerns stream)) entry')
    (fresh : 0 < openings stream (actions.filter (concerns stream)) → openings stream log = 0) :
    Served stream entry' (log ++ actions) := by
  have opened := openings_append stream log actions
  have handed := handings_append stream log actions
  have answered := responses_append stream log actions
  have bytes := received_append stream log actions
  have within : ∀ action ∈ actions.filter (concerns stream), action ∈ log ++ actions :=
    fun action member => List.mem_append_right _ (List.mem_of_mem_filter member)
  generalize actions.filter (concerns stream) = about at serves fresh opened handed answered bytes within
  cases serves with
  | idle entry about resets =>
    obtain ⟨first, second, third⟩ := plain_counts (fun action member => .inl (resets action member))
    rw [foldl_receive_resets resets] at bytes
    cases entry with
    | none => exact served_gone held (by omega) (by omega) (by omega)
    | some repair =>
      obtain ⟨announced, unanswered⟩ := held.announced repair rfl
      refine served_live (List.mem_append_left _ announced) (by rw [handed, second]; exact held.handed) (by omega) ?_
      intro reading
      obtain ⟨unhanded, buf, short⟩ := held.reading repair rfl reading
      exact ⟨by omega, buf.trans bytes.symm, short⟩
  | ignored event about plain resets =>
    have each : ∀ action ∈ RepairAction.polled event :: about, Plain stream action := by
      intro action member
      rcases List.mem_cons.mp member with rfl | later
      · exact .inr ⟨event, rfl, plain⟩
      · exact .inl (resets action later)
    obtain ⟨first, second, third⟩ := plain_counts each
    exact served_gone held (by omega) (by omega) (by omega)
  | opened entry peer deadline =>
    have counts : openings stream [.polled (.opened stream peer)] = 1 ∧
        handings stream [.polled (.opened stream peer)] = 0 ∧
        responses stream [.polled (.opened stream peer)] = 0 := by
      simp [openings, handings, responses, announces, hands, responds, StreamEvent.opens]
    obtain ⟨_, unhanded, unanswered⟩ := held.unopened (fresh (by omega))
    refine served_live (within _ (List.mem_cons_self ..)) (by omega) (by omega) (fun _ => ⟨by omega, ?_, Nat.zero_le _⟩)
    rw [bytes]
    simp [receive]
  | refused entry peer =>
    have counts : openings stream [.polled (.opened stream peer), .reset stream] = 1 ∧
        handings stream [.polled (.opened stream peer), .reset stream] = 0 ∧
        responses stream [.polled (.opened stream peer), .reset stream] = 0 := by
      simp [openings, handings, responses, announces, hands, responds, StreamEvent.opens]
    obtain ⟨absent, _, _⟩ := held.unopened (fresh (by omega))
    rw [absent]
    exact served_gone held (by omega) (by omega) (by omega)
  | received repair more reading fits =>
    have each : ∀ action ∈ [RepairAction.polled (.data stream more)], Plain stream action := by
      intro action member
      exact .inr ⟨_, List.mem_singleton.mp member, rfl⟩
    obtain ⟨first, second, third⟩ := plain_counts each
    obtain ⟨announced, unanswered⟩ := held.announced repair rfl
    obtain ⟨unhanded, buf, _⟩ := held.reading repair rfl reading
    refine served_live (List.mem_append_left _ announced) (by omega) (by omega) (fun _ => ⟨by omega, ?_, fits⟩)
    rw [bytes, buf]
    simp [receive]
  | admitted repair request reading decoded granted =>
    have counts : handings stream [.polled (.finished stream), .pushed (.repairRequest stream repair.peer request)] = 1 ∧
        responses stream [.polled (.finished stream), .pushed (.repairRequest stream repair.peer request)] = 0 := by
      simp [handings, responses, hands, responds]
    obtain ⟨announced, unanswered⟩ := held.announced repair rfl
    obtain ⟨unhanded, _, _⟩ := held.reading repair rfl reading
    exact served_live (List.mem_append_left _ announced) (by omega) (by omega) nofun
  | waiting repair awaiting =>
    have each : ∀ action ∈ [RepairAction.polled (.finished stream)], Plain stream action := by
      intro action member
      exact .inr ⟨_, List.mem_singleton.mp member, rfl⟩
    obtain ⟨first, second, third⟩ := plain_counts each
    obtain ⟨announced, unanswered⟩ := held.announced repair rfl
    refine served_live (List.mem_append_left _ announced) (by rw [handed, second]; exact held.handed) (by omega) ?_
    intro reading
    rw [awaiting] at reading
    cases reading
  | dropped repair about reset plain =>
    obtain ⟨first, second, third⟩ := plain_counts plain
    exact served_gone held (by omega) (by omega) (by omega)
  | failed entry =>
    have each : ∀ action ∈ [RepairAction.polled (.failed stream)], Plain stream action := by
      intro action member
      exact .inr ⟨_, List.mem_singleton.mp member, rfl⟩
    obtain ⟨first, second, third⟩ := plain_counts each
    exact served_gone held (by omega) (by omega) (by omega)
  | answered repair raw awaiting =>
    have counts : openings stream [.responded stream raw] = 0 ∧ handings stream [.responded stream raw] = 0 ∧
        responses stream [.responded stream raw] = 1 := by
      simp [openings, handings, responses, announces, hands, responds]
    obtain ⟨announced, unanswered⟩ := held.announced repair rfl
    have pos := openings_pos announced
    refine ⟨fun none => by omega, by rw [handed, counts.2.1]; exact held.handed, by omega, nofun, nofun⟩
  | unasked repair reading _ => exact served_gone held (by omega) handed answered

/-! ### Streams are announced once -/

/-- Nothing was polled. -/
def unpolled : RepairAction → Bool
  | .polled _ => false
  | _ => true

theorem openings_unpolled {actions : List RepairAction} (unheard : ∀ action ∈ actions, unpolled action = true)
    (stream : OverlayStreamId) : openings stream actions = 0 := by
  refine List.countP_eq_zero.mpr (fun action member => ?_)
  have silent := unheard action member
  cases action with
  | polled event => cases silent
  | _ => simp [announces]

theorem unpolled_handleStreamEvent (core : RepairCore T) (now : Instant) (event : StreamEvent) :
    ∀ action ∈ (core.handleStreamEvent now event).2, unpolled action = true := by
  cases event with
  | opened stream peer =>
    dsimp only [handleStreamEvent, handleOpened]
    split
    · simp [resetStream, unpolled]
    · simp
  | data stream bytes =>
    dsimp only [handleStreamEvent, handleData]
    split
    · split
      · simp [dropInbound, resetStream, unpolled]
      split
      · simp [dropInbound, resetStream, unpolled]
      · simp
    · split
      · split
        · simp [dropOutbound, push, resetStream, unpolled]
        · simp
      · simp
  | finished stream =>
    dsimp only [handleStreamEvent, handleFinished, finishInbound, finishOutbound]
    split
    · split
      · simp
      split
      · simp [dropInbound, resetStream, unpolled]
      split
      · simp [push, unpolled]
      · simp [dropInbound, resetStream, unpolled]
    · split
      · split
        all_goals simp [push, unpolled]
      · simp
  | failed stream =>
    dsimp only [handleStreamEvent, handleFailed]
    split
    · simp [push, unpolled]
    · simp

theorem unpolled_step (core : RepairCore T) {input : Input T} (other : ∀ now, input ≠ .poll now) :
    ∀ action ∈ (step core input).2, unpolled action = true := by
  cases input with
  | call call => simp [step]
  | request now peer request =>
    dsimp only [step, requestRepair]
    split
    · simp
    split
    · simp
    · simp [unpolled]
  | answer stream shred =>
    dsimp only [step, onRepairResponse]
    split
    · simp
    split
    · simp
    split
    · simp [unpolled]
    · simp [resetStream, unpolled]
  | poll now => exact (other now rfl).elim
  | timer now =>
    intro action member
    rcases List.mem_append.mp member with early | late
    · cases action with
      | polled event =>
        obtain ⟨_, resets⟩ := expireOutbound_inbound event.stream
          (core.outboundRepairs.toList.filter (fun entry => entry.2.deadline ≤ now)) core
        cases resets _ early (by simp [concerns])
      | _ => rfl
    · rw [(expireInbound_inbound 0 _ _).1] at late
      obtain ⟨entry, _, rfl⟩ := List.mem_map.mp late
      rfl

structure Heralded (core : RepairCore T) (log : List RepairAction) : Prop where
  distinct : (StreamTransport.announced core.transport).Nodup
  unopened : ∀ stream ∈ StreamTransport.announced core.transport,
    stream < StreamTransport.nextStream core.transport ∧ openings stream log = 0
  used : ∀ stream, 0 < openings stream log → stream < StreamTransport.nextStream core.transport

theorem heralded_grown {core core' : RepairCore T} {log actions : List RepairAction} (held : Heralded core log)
    (grown : Grown core core') (silent : ∀ stream, openings stream actions = 0) : Heralded core' (log ++ actions) := by
  obtain ⟨le, opened, within, fresh, range⟩ := grown
  have same : ∀ stream, openings stream (log ++ actions) = openings stream log := by
    intro stream
    have none := silent stream
    simp only [openings, List.countP_append] at none ⊢
    omega
  refine ⟨?_, fun stream member => ?_, fun stream some => ?_⟩
  · refine List.Nodup.sublist within (List.nodup_append'.mpr ⟨held.distinct, fresh, fun stream old new => ?_⟩)
    exact Nat.not_le.mpr (held.unopened stream old).1 (range stream new).1
  · rw [same]
    rcases List.mem_append.mp (within.subset member) with old | new
    · have before := held.unopened stream old
      exact ⟨Nat.lt_of_lt_of_le before.1 le, before.2⟩
    · refine ⟨(range stream new).2, ?_⟩
      by_contra some
      exact Nat.not_le.mpr (held.used stream (Nat.pos_of_ne_zero some)) (range stream new).1
  · rw [same] at some
    exact Nat.lt_of_lt_of_le (held.used stream some) le

/-- The stream that a poll announces was waiting to be announced, and is not any more. -/
theorem heralded_polled {core : RepairCore T} (core' : RepairCore T) {log : List RepairAction}
    (held : Heralded core log) {event : StreamEvent}
    (next : StreamTransport.nextStream core'.transport = StreamTransport.nextStream core.transport)
    (taken : StreamTransport.announced core.transport =
      event.opens.toList ++ StreamTransport.announced core'.transport) :
    Heralded core' (log ++ [.polled event]) ∧ ∀ stream, event.opens = some stream → openings stream log = 0 := by
  have distinct := held.distinct
  have unopened := held.unopened
  rw [taken] at distinct unopened
  obtain ⟨_, left, apart⟩ := List.nodup_append'.mp distinct
  have counted : ∀ stream, openings stream (log ++ [.polled event]) =
      openings stream log + if event.opens = some stream then 1 else 0 := by
    intro stream
    by_cases here : event.opens = some stream
    · simp [openings, announces, here]
    · simp [openings, announces, here]
  refine ⟨⟨left, fun stream member => ?_, fun stream some => ?_⟩, fun stream opens => ?_⟩
  · have before := unopened stream (List.mem_append_right _ member)
    have other : event.opens ≠ some stream := by
      intro opens
      exact apart (by rw [opens]; exact List.mem_singleton_self stream) member
    rw [next, counted, if_neg other]
    exact before
  · rw [next]
    rw [counted] at some
    by_cases here : event.opens = Option.some stream
    · exact (unopened stream (List.mem_append_left _ (by rw [here]; exact List.mem_singleton_self stream))).1
    · rw [if_neg here] at some
      exact held.used stream some
  · exact (unopened stream (List.mem_append_left _ (by rw [opens]; exact List.mem_singleton_self stream))).2

theorem heralded_step {core : RepairCore T} {log : List RepairAction} (held : Heralded core log) (input : Input T) :
    Heralded (step core input).1 (log ++ (step core input).2) ∧
    ∀ stream, 0 < openings stream (step core input).2 → openings stream log = 0 := by
  by_cases polls : ∃ now, input = .poll now
  · obtain ⟨now, rfl⟩ := polls
    have next := StreamTransport.pollStreamEvent_next core.transport
    have taken := StreamTransport.pollStreamEvent_announced core.transport
    dsimp only [step, poll]
    split
    next transport polled =>
      rw [polled] at next taken
      have grown : Grown core { core with transport := transport } := by
        rw [Grown, taken, next]
        exact announcing_refl _ _
      exact ⟨heralded_grown held grown (fun stream => rfl), fun stream some => (Nat.not_lt_zero 0 some).elim⟩
    next transport event polled =>
      rw [polled] at next taken
      obtain ⟨after, fresh⟩ := heralded_polled { core with transport := transport } held next taken
      have unheard := unpolled_handleStreamEvent { core with transport := transport } now event
      have grown := grown_handleStreamEvent { core with transport := transport } now event
      have whole := heralded_grown after grown (openings_unpolled unheard)
      rw [List.append_assoc] at whole
      refine ⟨whole, fun stream some => fresh stream ?_⟩
      have none := openings_unpolled unheard stream
      by_contra other
      have front : announces stream (.polled event) = false := by simpa [announces] using other
      simp only [openings, List.countP_cons, front] at some none
      rw [none] at some
      cases some
  · have other : ∀ now, input ≠ .poll now := fun now same => polls ⟨now, same⟩
    have unheard := unpolled_step core other
    refine ⟨heralded_grown held (grown_step core other) (openings_unpolled unheard), fun stream some => ?_⟩
    rw [openings_unpolled unheard stream] at some
    cases some

/-! ### The server's side of a run -/

structure Serving (core : RepairCore T) (log : List RepairAction) : Prop where
  heralded : Heralded core log
  served : ∀ stream, Served stream core.inboundRepairs[stream]? log

theorem serving_step {core : RepairCore T} {log : List RepairAction} (held : Serving core log) (input : Input T) :
    Serving (step core input).1 (log ++ (step core input).2) := by
  obtain ⟨heralded, fresh⟩ := heralded_step held.heralded input
  refine ⟨heralded, fun stream => served_serves (held.served stream) (serves_step core input stream) (fun some => ?_)⟩
  refine fresh stream (Nat.lt_of_lt_of_le some ?_)
  exact List.filter_sublist.countP_le

theorem serving_run {transport : T} (quiet : StreamTransport.announced transport = []) (inputs : List (Input T)) :
    Serving (run step (RepairCore.new transport) inputs).1 (run step (RepairCore.new transport) inputs).2 := by
  have start : Serving (RepairCore.new transport) [] := by
    refine ⟨⟨?_, ?_, fun stream some => nomatch some⟩, fun stream => ?_⟩
    · rw [show (RepairCore.new transport).transport = transport from rfl, quiet]
      exact List.nodup_nil
    · rw [show (RepairCore.new transport).transport = transport from rfl, quiet]
      nofun
    · rw [show (RepairCore.new transport).inboundRepairs = ∅ from rfl, TreeMap.getElem?_emptyc]
      exact served_nil stream
  exact run_history (P := fun _ core log => Serving core log) start (fun _ _ _ input held _ => serving_step held input)
    inputs (meets_true inputs)

/-- The driver answers only for streams it was handed a request for. -/
def AnswersAsked (transport : T) (inputs : List (Input T)) : Prop :=
  ∀ before stream shred after, inputs = before ++ .answer stream shred :: after →
    0 < handings stream (run step (RepairCore.new transport) before).2

/-- The FIN of a stream, at which the request read from it is handed over. -/
structure Admitted (core : RepairCore T) (log : List RepairAction) (input : Input T) (stream : OverlayStreamId)
    (peer : Pubkey) (request : RepairReq) : Prop where
  finished : .polled (.finished stream) ∈ (step core input).2
  announced : .polled (.opened stream peer) ∈ log
  short : (received stream log).length ≤ maxRepairReqWire
  decoded : decodeRequest (received stream log) = some request
  admitted : core.admits input peer = true

theorem admitted_of_handed {core : RepairCore T} {log : List RepairAction} (held : Serving core log) (input : Input T)
    {peer : Pubkey} {request : RepairReq}
    (handed : .pushed (.repairRequest stream peer request) ∈ (step core input).2) :
    Admitted core log input stream peer request := by
  have about : RepairAction.pushed (.repairRequest stream peer request) ∈ (step core input).2.filter (concerns stream) :=
    List.mem_filter.mpr ⟨handed, by simp [concerns]⟩
  have within : ∀ action ∈ (step core input).2.filter (concerns stream), action ∈ (step core input).2 :=
    fun action member => List.mem_of_mem_filter member
  have serves := serves_step core input stream
  have served := held.served stream
  generalize core.inboundRepairs[stream]? = entry at serves served
  generalize (step core input).1.inboundRepairs[stream]? = entry' at serves
  generalize (step core input).2.filter (concerns stream) = actions at serves about within
  cases serves with
  | admitted repair asked reading decoded granted =>
    simp only [List.mem_cons, reduceCtorEq, RepairAction.pushed.injEq, CoreEvent.repairRequest.injEq, true_and,
      List.not_mem_nil, or_false, false_or] at about
    obtain ⟨rfl, rfl⟩ := about
    obtain ⟨announced, _⟩ := served.announced repair rfl
    obtain ⟨_, buf, short⟩ := served.reading repair rfl reading
    exact ⟨within _ (List.mem_cons_self ..), announced, buf ▸ short, buf ▸ decoded, granted⟩
  | idle _ _ resets => cases resets _ about
  | ignored event _ _ resets =>
    rcases List.mem_cons.mp about with front | later
    · cases front
    · cases resets _ later
  | dropped _ _ _ plain =>
    rcases plain _ about with reset | ⟨event, polled, _⟩
    · cases reset
    · cases polled
  | _ => simp at about

/-- A stream is taken off with an answer, after the transport lost it, or with a reset. -/
theorem leaves_accounted {core : RepairCore T} {log : List RepairAction} (held : Serving core log) (input : Input T)
    (asked : RepairCore.answers stream input = true → 0 < handings stream log) (there : stream ∈ core.inboundRepairs)
    (gone : stream ∉ (step core input).1.inboundRepairs) :
    (∃ raw, .responded stream raw ∈ (step core input).2) ∨ .polled (.failed stream) ∈ (step core input).2 ∨
    .reset stream ∈ (step core input).2 := by
  have within : ∀ action ∈ (step core input).2.filter (concerns stream), action ∈ (step core input).2 :=
    fun action member => List.mem_of_mem_filter member
  have serves := serves_step core input stream
  have served := held.served stream
  rw [TreeMap.mem_iff_isSome_getElem?] at there gone
  generalize core.inboundRepairs[stream]? = entry at serves served there
  generalize (step core input).1.inboundRepairs[stream]? = entry' at serves gone
  generalize (step core input).2.filter (concerns stream) = actions at serves within
  cases serves with
  | idle => exact absurd there gone
  | ignored => cases there
  | refused => exact absurd there gone
  | dropped repair actions reset plain => exact .inr (.inr (within _ reset))
  | failed => exact .inr (.inl (within _ (List.mem_cons_self ..)))
  | answered repair raw => exact .inl ⟨raw, within _ (List.mem_cons_self ..)⟩
  | unasked repair reading unasked =>
    have pos := asked unasked
    have none := (served.reading repair rfl reading).1
    omega
  | _ => exact absurd rfl gone

/-- A stream's request is handed over at most once, at its FIN, and answered at most once; a stream that goes without
an answer is reset unless the transport lost it, and a late answer changes nothing. -/
theorem repair_stream_served (transport : T) (quiet : StreamTransport.announced transport = [])
    (inputs : List (Input T)) (asked : AnswersAsked transport inputs) :
    (∀ stream, handings stream (run step (RepairCore.new transport) inputs).2 ≤ 1 ∧
      responses stream (run step (RepairCore.new transport) inputs).2 ≤ 1) ∧
    (∀ before input after, inputs = before ++ input :: after → ∀ stream,
      (∀ peer request,
        .pushed (.repairRequest stream peer request) ∈ (step (run step (RepairCore.new transport) before).1 input).2 →
        Admitted (run step (RepairCore.new transport) before).1 (run step (RepairCore.new transport) before).2 input
          stream peer request) ∧
      (stream ∈ (run step (RepairCore.new transport) before).1.inboundRepairs →
        stream ∉ (step (run step (RepairCore.new transport) before).1 input).1.inboundRepairs →
        (∃ raw, .responded stream raw ∈ (step (run step (RepairCore.new transport) before).1 input).2) ∨
        .polled (.failed stream) ∈ (step (run step (RepairCore.new transport) before).1 input).2 ∨
        .reset stream ∈ (step (run step (RepairCore.new transport) before).1 input).2) ∧
      (∀ shred, stream ∉ (run step (RepairCore.new transport) before).1.inboundRepairs →
        step (run step (RepairCore.new transport) before).1 (.answer stream shred) =
          ((run step (RepairCore.new transport) before).1, []))) := by
  refine ⟨fun stream => ?_, fun before input after split stream => ⟨fun peer request handed => ?_, ?_, ?_⟩⟩
  · have served := (serving_run quiet inputs).served stream
    exact ⟨served.handed, served.answered⟩
  · exact admitted_of_handed (serving_run quiet before) input handed
  · intro there gone
    refine leaves_accounted (serving_run quiet before) input (fun answer => ?_) there gone
    cases input with
    | answer answered shred =>
      have same : answered = stream := of_decide_eq_true answer
      exact same ▸ asked before answered shred after split
    | _ => cases answer
  · intro shred absent
    dsimp only [step, onRepairResponse]
    rw [TreeMap.mem_iff_isSome_getElem?, Option.not_isSome_iff_eq_none] at absent
    rw [absent]

/-! ### A served stream -/

/-- A connection on which the peer has opened a stream, sent a request and finished. -/
def askingConn : QuinnConn Nat :=
  { QuinnConn.idle with
    identity := some 7
    events := [.handshakeDataReady, .connected, .stream .openedBi, .stream (.readable 0)]
    acceptable := [0]
    reads := [(0, encodeRequest (.windowIndex 5 3), .finished)] }

def beforeAnswer : List (Input (OverlayQuicTransport Nat)) :=
  [.call (.onDatagram (.newConnection ⟨.v4 0xC0000207, 8001⟩ 0 (some (1, askingConn)))), .poll 0, .poll 0, .poll 0]

def servedRun : List (Input (OverlayQuicTransport Nat)) := beforeAnswer ++ [.answer 0 none]

theorem servedRun_handed :
    handings 0 (run step (RepairCore.new (OverlayQuicTransport.new 0 none)) beforeAnswer).2 = 1 := by decide +kernel

theorem servedRun_asked : AnswersAsked (OverlayQuicTransport.new 0 none) servedRun := by
  intro before stream shred after split
  rcases before with _ | ⟨a, _ | ⟨b, _ | ⟨c, _ | ⟨d, _ | ⟨e, rest⟩⟩⟩⟩⟩
  case cons.cons.cons.cons.nil =>
    simp only [servedRun, beforeAnswer, List.cons_append, List.nil_append, List.cons.injEq, Input.answer.injEq] at split
    obtain ⟨rfl, rfl, rfl, rfl, ⟨rfl, rfl⟩, rfl⟩ := split
    exact Nat.lt_of_lt_of_eq Nat.one_pos servedRun_handed.symm
  all_goals simp [servedRun, beforeAnswer] at split

/-- The stream is handed over once, and then answered. -/
theorem repair_stream_served_quic :
    responses 0 (run step (RepairCore.new (OverlayQuicTransport.new 0 none)) servedRun).2 = 1 ∧
    handings 0 (run step (RepairCore.new (OverlayQuicTransport.new 0 none)) servedRun).2 ≤ 1 :=
  ⟨by decide +kernel, ((repair_stream_served (OverlayQuicTransport.new 0 none) rfl servedRun servedRun_asked).1 0).1⟩

end RepairCore

end Lightbringer.Overlay
