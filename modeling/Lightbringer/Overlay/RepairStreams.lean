import Lightbringer.Overlay.Core
import Lightbringer.Lib.Bincode

/-!
# Repair over streams

The repair sub-protocol of the overlay core (`overlay/service.rs`, `overlay/repair.rs`): one request for each stream,
ended by the sender's FIN, and one answer on the same stream. The core is generic in its transport. `pump` is a step
for each event it polls, so that whatever an operation finds in the transport's queue comes as steps right after it.
-/

namespace Lightbringer.Overlay
open Std Machine Bincode

/-! ### The wire -/

def maxRepairReqWire : Nat := 64

def maxRepairRespWire : Nat := 2048

inductive RepairReq where
  | windowIndex (slot : UInt64) (shredIndex : UInt32)
  | highestWindowIndex (slot : UInt64) (shredIndex : UInt32)
  deriving DecidableEq

inductive RepairResp where
  | shred (bytes : List UInt8)
  | notFound
  deriving DecidableEq

def encodeRequest : RepairReq → List UInt8
  | .windowIndex slot shredIndex => varint 0 ++ varint slot.toNat ++ varint shredIndex.toNat
  | .highestWindowIndex slot shredIndex => varint 1 ++ varint slot.toNat ++ varint shredIndex.toNat

def requestDecoder : Decoder RepairReq := do
  let variant ← Decoder.bounded 32 Decoder.varint
  let slot ← Decoder.varint
  let shredIndex ← Decoder.bounded 32 Decoder.varint
  match variant with
  | 0 => return .windowIndex (.ofNat slot) (.ofNat shredIndex)
  | 1 => return .highestWindowIndex (.ofNat slot) (.ofNat shredIndex)
  | _ => failure

def decodeRequest (raw : List UInt8) : Option RepairReq := requestDecoder.whole maxRepairReqWire raw

/-- `none` when the answer does not fit the wire. -/
def encodeResponse (response : RepairResp) : Option (List UInt8) :=
  let raw := match response with
    | .shred bytes => varint 0 ++ varint bytes.length ++ bytes
    | .notFound => varint 1
  if maxRepairRespWire < raw.length then none else some raw

def responseDecoder : Decoder RepairResp := do
  match ← Decoder.bounded 32 Decoder.varint with
  | 0 => return .shred (← Decoder.take (← Decoder.varint))
  | 1 => return .notFound
  | _ => failure

def decodeResponse (raw : List UInt8) : Option RepairResp := responseDecoder.whole maxRepairRespWire raw

/-! ### The transport -/

/-- The stream an event announces. -/
def StreamEvent.opens : StreamEvent → Option OverlayStreamId
  | .opened stream _ => some stream
  | _ => none

/-- Handles are given out once: what was free stays so or is given out, and the streams to be announced next are the
ones already waiting to be, or new. -/
structure Announcing (next next' : Nat) (announced announced' : List OverlayStreamId) : Prop where
  le : next ≤ next'
  added : ∃ opened, announced'.Sublist (announced ++ opened) ∧ opened.Nodup ∧
    ∀ stream ∈ opened, next ≤ stream ∧ stream < next'

theorem announcing_refl (next : Nat) (announced : List OverlayStreamId) : Announcing next next announced announced :=
  ⟨Nat.le_refl next, [], by simp, List.nodup_nil, by simp⟩

theorem announcing_trans {next next' next'' : Nat} {announced announced' announced'' : List OverlayStreamId}
    (first : Announcing next next' announced announced') (second : Announcing next' next'' announced' announced'') :
    Announcing next next'' announced announced'' := by
  obtain ⟨le, opened, within, distinct, range⟩ := first
  obtain ⟨le', opened', within', distinct', range'⟩ := second
  refine ⟨Nat.le_trans le le', opened ++ opened', ?_, ?_, fun stream member => ?_⟩
  · rw [← List.append_assoc]
    exact within'.trans (within.append_right opened')
  · refine List.nodup_append'.mpr ⟨distinct, distinct', fun stream early late => ?_⟩
    exact Nat.not_le.mpr (range stream early).2 (range' stream late).1
  · rcases List.mem_append.mp member with early | late
    · have bounds := range stream early
      exact ⟨bounds.1, Nat.lt_of_lt_of_le bounds.2 le'⟩
    · have bounds := range' stream late
      exact ⟨Nat.le_trans le bounds.1, bounds.2⟩

/-- The part of `OverlayTransport` that repair uses, with what its documentation promises about handles. `Call` is what
else happens to the transport. -/
class StreamTransport (T : Type) where
  Call : Type
  call : T → Call → T
  openStream : T → Pubkey → T × Option OverlayStreamId
  writeStream : T → OverlayStreamId → List UInt8 → T
  finishStream : T → OverlayStreamId → T
  resetStream : T → OverlayStreamId → T
  pollStreamEvent : T → T × Option StreamEvent
  /-- Handles from here on are free. -/
  nextStream : T → Nat
  /-- The streams whose `Opened` event waits to be polled. -/
  announced : T → List OverlayStreamId
  call_grows : ∀ t c, Announcing (nextStream t) (nextStream (call t c)) (announced t) (announced (call t c))
  openStream_fresh : ∀ t pubkey stream, (openStream t pubkey).2 = some stream →
    nextStream t ≤ stream ∧ stream < nextStream (openStream t pubkey).1
  openStream_grows : ∀ t pubkey, Announcing (nextStream t) (nextStream (openStream t pubkey).1) (announced t)
    (announced (openStream t pubkey).1)
  writeStream_grows : ∀ t stream bytes, Announcing (nextStream t) (nextStream (writeStream t stream bytes)) (announced t)
    (announced (writeStream t stream bytes))
  finishStream_grows : ∀ t stream, Announcing (nextStream t) (nextStream (finishStream t stream)) (announced t)
    (announced (finishStream t stream))
  resetStream_grows : ∀ t stream, Announcing (nextStream t) (nextStream (resetStream t stream)) (announced t)
    (announced (resetStream t stream))
  pollStreamEvent_next : ∀ t, nextStream (pollStreamEvent t).1 = nextStream t
  pollStreamEvent_announced : ∀ t,
    announced t = ((pollStreamEvent t).2.bind StreamEvent.opens).toList ++ announced (pollStreamEvent t).1

/-! ### The core -/

def maxCoreEvents : Nat := 8192

def repairStreamTimeout : Nat := fromSecs 3

def maxOutboundRepairs : Nat := 1024

def maxInboundRepairs : Nat := 1024

def maxRepairRequestsPerSecond : Nat := 100

/-- The part of `CoreEvent` about repair. -/
inductive CoreEvent where
  | repairRequest (stream : OverlayStreamId) (peer : Pubkey) (request : RepairReq)
  | repairResponse (stream : OverlayStreamId) (peer : Pubkey) (shred : Option (List UInt8))
  | repairFailed (stream : OverlayStreamId) (peer : Pubkey)
  deriving DecidableEq

structure OutboundRepair where
  peer : Pubkey
  buf : List UInt8
  deadline : Instant
  deriving DecidableEq

structure InboundRepair where
  peer : Pubkey
  buf : List UInt8
  awaitingLookup : Bool
  deadline : Instant
  deriving DecidableEq

structure RepairState where
  outboundRepairs : TreeMap OverlayStreamId OutboundRepair
  inboundRepairs : TreeMap OverlayStreamId InboundRepair
  repairRate : RepairRateLimiter
  droppedUnreachable : Nat
  repairsRefused : Nat
  repairsMalformed : Nat
  events : List CoreEvent

structure RepairCore (T : Type) extends RepairState where
  transport : T

inductive RepairAction where
  /-- `request_repair` opened this stream. -/
  | requested (stream : OverlayStreamId) (deadline : Instant)
  | polled (event : StreamEvent)
  | pushed (event : CoreEvent)
  /-- An answer was written and the stream finished. -/
  | responded (stream : OverlayStreamId) (raw : List UInt8)
  | reset (stream : OverlayStreamId)
  deriving DecidableEq

def RepairState.new : RepairState where
  outboundRepairs := ∅
  inboundRepairs := ∅
  repairRate := RepairRateLimiter.new maxRepairRequestsPerSecond
  droppedUnreachable := 0
  repairsRefused := 0
  repairsMalformed := 0
  events := []

namespace RepairCore

variable {T : Type} [StreamTransport T]

def new (transport : T) : RepairCore T := { RepairState.new with transport := transport }

variable (core : RepairCore T)

def push (event : CoreEvent) : RepairCore T × List RepairAction :=
  ({ core with events := pushBounded core.events event maxCoreEvents }, [.pushed event])

def resetStream (stream : OverlayStreamId) : RepairCore T × List RepairAction :=
  ({ core with transport := StreamTransport.resetStream core.transport stream }, [.reset stream])

def malformed : RepairCore T := { core with repairsMalformed := core.repairsMalformed + 1 }

def refused : RepairCore T := { core with repairsRefused := core.repairsRefused + 1 }

/-- An inbound stream is given up. -/
def dropInbound (stream : OverlayStreamId) : RepairCore T × List RepairAction :=
  { core with inboundRepairs := core.inboundRepairs.erase stream }.resetStream stream

/-- An outbound stream is given up. -/
def dropOutbound (stream : OverlayStreamId) (peer : Pubkey) : RepairCore T × List RepairAction :=
  let (core, actions) := { core with outboundRepairs := core.outboundRepairs.erase stream }.resetStream stream
  let (core, more) := core.push (.repairFailed stream peer)
  (core, actions ++ more)

def requestRepair (now : Instant) (peer : Pubkey) (request : RepairReq) : RepairCore T × List RepairAction :=
  if maxOutboundRepairs ≤ core.outboundRepairs.size then (core, [])
  else
    match StreamTransport.openStream core.transport peer with
    | (transport, none) => ({ core with transport := transport, droppedUnreachable := core.droppedUnreachable + 1 }, [])
    | (transport, some stream) =>
      let transport := StreamTransport.writeStream transport stream (encodeRequest request)
      let deadline := now + repairStreamTimeout
      ({ core with
          transport := StreamTransport.finishStream transport stream
          outboundRepairs := core.outboundRepairs.insert stream ⟨peer, [], deadline⟩ },
        [.requested stream deadline])

def onRepairResponse (stream : OverlayStreamId) (shred : Option (List UInt8)) : RepairCore T × List RepairAction :=
  match core.inboundRepairs[stream]? with
  | none => (core, [])
  | some repair =>
    let core := { core with inboundRepairs := core.inboundRepairs.erase stream }
    if !repair.awaitingLookup then (core, [])
    else
      match encodeResponse (shred.elim .notFound .shred) with
      | some raw =>
        let transport := StreamTransport.writeStream core.transport stream raw
        ({ core with transport := StreamTransport.finishStream transport stream }, [.responded stream raw])
      | none => core.resetStream stream

/-! ### Stream events -/

def handleOpened (now : Instant) (stream : OverlayStreamId) (peer : Pubkey) : RepairCore T × List RepairAction :=
  if maxInboundRepairs ≤ core.inboundRepairs.size then core.refused.resetStream stream
  else
    ({ core with
        inboundRepairs := core.inboundRepairs.insert stream ⟨peer, [], false, now + repairStreamTimeout⟩ }, [])

def handleData (stream : OverlayStreamId) (bytes : List UInt8) : RepairCore T × List RepairAction :=
  match core.inboundRepairs[stream]? with
  | some repair =>
    -- Bytes after the FIN-delimited request are garbage.
    if repair.awaitingLookup then core.malformed.dropInbound stream
    else
      let repair := { repair with buf := repair.buf ++ bytes }
      if maxRepairReqWire < repair.buf.length then core.malformed.dropInbound stream
      else ({ core with inboundRepairs := core.inboundRepairs.insert stream repair }, [])
  | none =>
    match core.outboundRepairs[stream]? with
    | some repair =>
      let repair := { repair with buf := repair.buf ++ bytes }
      if maxRepairRespWire < repair.buf.length then core.malformed.dropOutbound stream repair.peer
      else ({ core with outboundRepairs := core.outboundRepairs.insert stream repair }, [])
    | none => (core, [])

/-- The FIN of a request. -/
def finishInbound (now : Instant) (stream : OverlayStreamId) (repair : InboundRepair) :
    RepairCore T × List RepairAction :=
  if repair.awaitingLookup then (core, [])
  else
    match decodeRequest repair.buf with
    | none => core.malformed.dropInbound stream
    | some request =>
      let (rate, admitted) := core.repairRate.checkAndIncrement repair.peer now
      let core := { core with repairRate := rate }
      if admitted then
        { core with
          inboundRepairs :=
            core.inboundRepairs.insert stream { repair with awaitingLookup := true, buf := [] } }.push
          (.repairRequest stream repair.peer request)
      else core.refused.dropInbound stream

/-- The FIN of an answer. -/
def finishOutbound (stream : OverlayStreamId) (repair : OutboundRepair) : RepairCore T × List RepairAction :=
  let core := { core with outboundRepairs := core.outboundRepairs.erase stream }
  match decodeResponse repair.buf with
  | some (.shred bytes) => core.push (.repairResponse stream repair.peer (some bytes))
  | some .notFound => core.push (.repairResponse stream repair.peer none)
  | none => core.malformed.push (.repairFailed stream repair.peer)

def handleFinished (now : Instant) (stream : OverlayStreamId) : RepairCore T × List RepairAction :=
  match core.inboundRepairs[stream]? with
  | some repair => core.finishInbound now stream repair
  | none =>
    match core.outboundRepairs[stream]? with
    | some repair => core.finishOutbound stream repair
    | none => (core, [])

def handleFailed (stream : OverlayStreamId) : RepairCore T × List RepairAction :=
  let core := { core with inboundRepairs := core.inboundRepairs.erase stream }
  match core.outboundRepairs[stream]? with
  | some repair =>
    { core with outboundRepairs := core.outboundRepairs.erase stream }.push (.repairFailed stream repair.peer)
  | none => (core, [])

def handleStreamEvent (now : Instant) : StreamEvent → RepairCore T × List RepairAction
  | .opened stream peer => core.handleOpened now stream peer
  | .data stream bytes => core.handleData stream bytes
  | .finished stream => core.handleFinished now stream
  | .failed stream => core.handleFailed stream

/-- One round of the loop over stream events in `pump`. -/
def poll (now : Instant) : RepairCore T × List RepairAction :=
  match StreamTransport.pollStreamEvent core.transport with
  | (transport, none) => ({ core with transport := transport }, [])
  | (transport, some event) =>
    let (core, actions) := { core with transport := transport }.handleStreamEvent now event
    (core, .polled event :: actions)

/-! ### Timeouts -/

def expireOutbound (core : RepairCore T) (entry : OverlayStreamId × OutboundRepair) :
    RepairCore T × List RepairAction :=
  core.dropOutbound entry.1 entry.2.peer

def expireInbound (core : RepairCore T) (entry : OverlayStreamId × InboundRepair) : RepairCore T × List RepairAction :=
  core.dropInbound entry.1

def expireRepairs (now : Instant) : RepairCore T × List RepairAction :=
  let (core, out) := run expireOutbound core (core.outboundRepairs.toList.filter (fun entry => entry.2.deadline ≤ now))
  let (core, back) := run expireInbound core (core.inboundRepairs.toList.filter (fun entry => entry.2.deadline ≤ now))
  (core, out ++ back)

/-! ### Runs -/

inductive Input (T : Type) [StreamTransport T] where
  | call (call : StreamTransport.Call T)
  | request (now : Instant) (peer : Pubkey) (request : RepairReq)
  /-- The driver's answer to a request it was handed. -/
  | answer (stream : OverlayStreamId) (shred : Option (List UInt8))
  | poll (now : Instant)
  | timer (now : Instant)

def step (core : RepairCore T) (input : Input T) : RepairCore T × List RepairAction :=
  match input with
  | .call call => ({ core with transport := StreamTransport.call core.transport call }, [])
  | .request now peer request => core.requestRepair now peer request
  | .answer stream shred => core.onRepairResponse stream shred
  | .poll now => core.poll now
  | .timer now => core.expireRepairs now

/-! ### Handles -/

def Grown (core core' : RepairCore T) : Prop :=
  Announcing (StreamTransport.nextStream core.transport) (StreamTransport.nextStream core'.transport)
    (StreamTransport.announced core.transport) (StreamTransport.announced core'.transport)

variable {core}

theorem grown_of_same {core' : RepairCore T} (same : core'.transport = core.transport) : Grown core core' := by
  rw [Grown, same]
  exact announcing_refl _ _

theorem grown_resetStream (core : RepairCore T) (stream : OverlayStreamId) : Grown core (core.resetStream stream).1 :=
  StreamTransport.resetStream_grows core.transport stream

theorem grown_handleStreamEvent (core : RepairCore T) (now : Instant) (event : StreamEvent) :
    Grown core (core.handleStreamEvent now event).1 := by
  cases event with
  | opened stream peer =>
    dsimp only [handleStreamEvent, handleOpened]
    split
    · exact grown_resetStream core stream
    · exact grown_of_same rfl
  | data stream bytes =>
    dsimp only [handleStreamEvent, handleData]
    split
    · split
      · exact grown_resetStream core stream
      split
      · exact grown_resetStream core stream
      · exact grown_of_same rfl
    · split
      · split
        · exact grown_resetStream core stream
        · exact grown_of_same rfl
      · exact grown_of_same rfl
  | finished stream =>
    dsimp only [handleStreamEvent, handleFinished, finishInbound, finishOutbound]
    split
    · split
      · exact grown_of_same rfl
      split
      · exact grown_resetStream core stream
      split
      · exact grown_of_same rfl
      · exact grown_resetStream core stream
    · split
      · split
        · exact grown_of_same rfl
        · exact grown_of_same rfl
        · exact grown_of_same rfl
      · exact grown_of_same rfl
  | failed stream =>
    dsimp only [handleStreamEvent, handleFailed]
    split
    · exact grown_of_same rfl
    · exact grown_of_same rfl

theorem grown_requestRepair (core : RepairCore T) (now : Instant) (peer : Pubkey) (request : RepairReq) :
    Grown core (core.requestRepair now peer request).1 := by
  unfold requestRepair
  split
  · exact grown_of_same rfl
  have opened := StreamTransport.openStream_grows core.transport peer
  split
  next transport none =>
    rw [none] at opened
    exact opened
  next transport stream some =>
    rw [some] at opened
    have written := StreamTransport.writeStream_grows transport stream (encodeRequest request)
    exact announcing_trans opened (announcing_trans written (StreamTransport.finishStream_grows _ stream))

theorem grown_onRepairResponse (core : RepairCore T) (stream : OverlayStreamId) (shred : Option (List UInt8)) :
    Grown core (core.onRepairResponse stream shred).1 := by
  unfold onRepairResponse
  split
  · exact grown_of_same rfl
  dsimp only
  split
  · exact grown_of_same rfl
  split
  next raw _ =>
    have written := StreamTransport.writeStream_grows core.transport stream raw
    exact announcing_trans written (StreamTransport.finishStream_grows _ stream)
  · exact grown_resetStream core stream

/-- A run of resets. -/
theorem grown_run {α : Type} {expire : RepairCore T → α → RepairCore T × List RepairAction}
    (each : ∀ core entry, Grown core (expire core entry).1) (entries : List α) (core : RepairCore T) :
    Grown core (run expire core entries).1 := by
  induction entries generalizing core with
  | nil => exact grown_of_same rfl
  | cons entry rest ih => exact announcing_trans (each core entry) (ih _)

theorem grown_expireRepairs (core : RepairCore T) (now : Instant) : Grown core (core.expireRepairs now).1 := by
  have out : ∀ (core : RepairCore T) entry, Grown core (expireOutbound core entry).1 :=
    fun core entry => grown_resetStream core entry.1
  have back : ∀ (core : RepairCore T) entry, Grown core (expireInbound core entry).1 :=
    fun core entry => grown_resetStream core entry.1
  exact announcing_trans (grown_run out _ core) (grown_run back _ _)

/-- Only polling takes a stream off those to be announced. -/
theorem grown_step (core : RepairCore T) {input : Input T} (other : ∀ now, input ≠ .poll now) :
    Grown core (step core input).1 := by
  cases input with
  | call call => exact StreamTransport.call_grows core.transport call
  | request now peer request => exact grown_requestRepair core now peer request
  | answer stream shred => exact grown_onRepairResponse core stream shred
  | poll now => exact (other now rfl).elim
  | timer now => exact grown_expireRepairs core now

theorem nextStream_step (core : RepairCore T) (input : Input T) :
    StreamTransport.nextStream core.transport ≤ StreamTransport.nextStream (step core input).1.transport := by
  by_cases polls : ∃ now, input = .poll now
  · obtain ⟨now, rfl⟩ := polls
    have same := StreamTransport.pollStreamEvent_next core.transport
    dsimp only [step, poll]
    split
    next transport polled =>
      rw [polled] at same
      exact Nat.le_of_eq same.symm
    next transport event polled =>
      rw [polled] at same
      have grown := grown_handleStreamEvent { core with transport := transport } now event
      exact Nat.le_trans (Nat.le_of_eq same.symm) grown.le
  · exact (grown_step core (fun now same => polls ⟨now, same⟩)).le

end RepairCore

end Lightbringer.Overlay
