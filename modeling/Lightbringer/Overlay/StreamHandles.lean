import Lightbringer.Overlay.RepairStreams

/-!
# The QUIC transport gives out each stream handle once

`overlay/transport.rs` numbers the streams it opens and the ones it accepts from one counter, and announces an accepted
stream when it numbers it. So the QUIC transport is a transport that repair can use.
-/

namespace Lightbringer.Overlay.OverlayQuicTransport
open Std Machine

variable {ν : Type}

def announced (t : OverlayQuicTransport ν) : List OverlayStreamId := t.streamEvents.filterMap StreamEvent.opens

def Handles (t t' : OverlayQuicTransport ν) : Prop := Announcing t.nextStream t'.nextStream t.announced t'.announced

variable {t t' t'' : OverlayQuicTransport ν} {peer : SocketAddr} {c : QuicConnection ν} {stream : OverlayStreamId}

theorem handles_of_same (next : t'.nextStream = t.nextStream) (events : t'.streamEvents = t.streamEvents) :
    Handles t t' := by
  rw [Handles, announced, announced, next, events]
  exact announcing_refl _ _

theorem handles_trans (first : Handles t t') (second : Handles t' t'') : Handles t t'' := announcing_trans first second

/-- A change of what handles have nothing to do with, and then a step. -/
theorem handles_after (moved : Handles t' t'') (next : t'.nextStream = t.nextStream)
    (events : t'.streamEvents = t.streamEvents) : Handles t t'' :=
  handles_trans (handles_of_same next events) moved

theorem announced_pushStreamEvent (t : OverlayQuicTransport ν) (event : StreamEvent) :
    (t.pushStreamEvent event).announced.Sublist (t.announced ++ event.opens.toList) := by
  have queued : (t.pushStreamEvent event).streamEvents.Sublist (t.streamEvents ++ [event]) := by
    dsimp only [pushStreamEvent, pushBounded]
    split
    · exact (List.drop_sublist 1 _).append_right [event]
    · exact List.Sublist.refl _
  have mapped := queued.filterMap StreamEvent.opens
  rw [List.filterMap_append] at mapped
  cases opens : event.opens with
  | none => simpa [announced, opens] using mapped
  | some stream => simpa [announced, opens] using mapped

/-- An event that announces nothing. -/
theorem handles_pushStreamEvent (t : OverlayQuicTransport ν) {event : StreamEvent} (quiet : event.opens = none) :
    Handles t (t.pushStreamEvent event) := by
  refine ⟨Nat.le_refl _, [], ?_, List.nodup_nil, by simp⟩
  have within := announced_pushStreamEvent t event
  rw [quiet] at within
  exact within

theorem handles_allocateStream (t : OverlayQuicTransport ν) (peer : SocketAddr) (c : QuicConnection ν)
    (id : QuicStreamId) : Handles t (t.allocateStream peer c id) := by
  refine ⟨Nat.le_succ _, [], ?_, List.nodup_nil, by simp⟩
  rw [List.append_nil]
  exact List.Sublist.refl _

/-- A stream is announced under the number it has just been given. -/
theorem handles_accepted (t : OverlayQuicTransport ν) (peer : SocketAddr) (c : QuicConnection ν) (id : QuicStreamId)
    (pubkey : Pubkey) : Handles t ((t.allocateStream peer c id).pushStreamEvent (.opened t.nextStream pubkey)) := by
  refine ⟨Nat.le_succ _, [t.nextStream], ?_, List.nodup_singleton _, ?_⟩
  · exact announced_pushStreamEvent (t.allocateStream peer c id) (.opened t.nextStream pubkey)
  · intro stream member
    rw [List.mem_singleton.mp member]
    exact ⟨Nat.le_refl _, Nat.lt_succ_self _⟩

theorem handles_foldl {α : Type} {f : OverlayQuicTransport ν → α → OverlayQuicTransport ν}
    (each : ∀ t a, Handles t (f t a)) (xs : List α) (t : OverlayQuicTransport ν) : Handles t (xs.foldl f t) := by
  induction xs generalizing t with
  | nil => exact handles_of_same rfl rfl
  | cons x rest ih => exact handles_trans (each t x) (ih (f t x))

theorem handles_failStreams (t : OverlayQuicTransport ν) (streams : List OverlayStreamId) :
    Handles t (t.failStreams streams) := by
  refine handles_foldl (fun t stream => ?_) streams t
  split
  · exact handles_pushStreamEvent { t with streamStates := t.streamStates.erase stream } rfl
  · exact handles_of_same rfl rfl

theorem handles_removeConnection (t : OverlayQuicTransport ν) (peer : SocketAddr) :
    Handles t (t.removeConnection peer) := by
  unfold removeConnection
  split
  · exact handles_of_same rfl rfl
  · exact handles_after (handles_failStreams _ _) rfl rfl

theorem handles_acceptStreams (t : OverlayQuicTransport ν) (peer : SocketAddr) :
    Handles t (t.acceptStreams peer) := by
  unfold acceptStreams
  split
  · exact handles_of_same rfl rfl
  refine handles_after (handles_foldl (fun t id => ?_) _ _) rfl rfl
  unfold acceptStream
  split
  · exact handles_of_same rfl rfl
  split
  · exact handles_of_same rfl rfl
  split
  · exact handles_of_same rfl rfl
  · exact handles_accepted ..

theorem handles_reapStream (t : OverlayQuicTransport ν) (stream : OverlayStreamId) :
    Handles t (t.reapStream stream) := by
  unfold reapStream
  split
  · exact handles_of_same rfl rfl
  split
  · dsimp only
    split
    · exact handles_of_same rfl rfl
    · exact handles_of_same rfl rfl
  · exact handles_of_same rfl rfl

theorem handles_readStream (t : OverlayQuicTransport ν) (peer : SocketAddr) (id : QuicStreamId) :
    Handles t (t.readStream peer id) := by
  unfold readStream
  split
  · exact handles_of_same rfl rfl
  next c _ =>
    split
    next stream conn bytes ending _ _ =>
      have data : Handles t (if bytes.isEmpty then t.setConnection peer { c with conn := conn }
          else (t.setConnection peer { c with conn := conn }).pushStreamEvent (.data stream bytes)) := by
        split
        · exact handles_of_same rfl rfl
        · exact handles_after (handles_pushStreamEvent _ rfl) rfl rfl
      cases ending with
      | blocked => exact data
      | finished =>
        refine handles_trans data (handles_trans ?_ (handles_reapStream _ stream))
        exact handles_after (handles_pushStreamEvent _ rfl) rfl rfl
      | reset =>
        refine handles_trans data (handles_trans ?_ (handles_reapStream _ stream))
        exact handles_after (handles_pushStreamEvent _ rfl) rfl rfl
    next => exact handles_of_same rfl rfl

theorem handles_failStream (t : OverlayQuicTransport ν) (peer : SocketAddr) (id : QuicStreamId) :
    Handles t (t.failStream peer id) := by
  unfold failStream
  split
  · exact handles_of_same rfl rfl
  split
  · exact handles_of_same rfl rfl
  dsimp only
  split
  · exact handles_after (handles_pushStreamEvent _ rfl) rfl rfl
  · exact handles_of_same rfl rfl

theorem handles_flushStream (t : OverlayQuicTransport ν) (stream : OverlayStreamId) :
    Handles t (t.flushStream stream) := by
  unfold flushStream
  split
  · exact handles_of_same rfl rfl
  split
  · exact handles_of_same rfl rfl
  dsimp only
  split
  · exact handles_after (handles_reapStream _ stream) rfl rfl
  · exact handles_of_same rfl rfl

theorem handles_handleStreamEvent (t : OverlayQuicTransport ν) (peer : SocketAddr) (event : QuinnStreamEvent) :
    Handles t (t.handleStreamEvent peer event) := by
  cases event with
  | openedBi => exact handles_acceptStreams t peer
  | readable id => exact handles_readStream t peer id
  | writable id =>
    dsimp only [handleStreamEvent]
    split
    · exact handles_flushStream t _
    · exact handles_of_same rfl rfl
  | stopped id => exact handles_failStream t peer id
  | _ => exact handles_of_same rfl rfl

theorem handles_handleConnectionEvent (t : OverlayQuicTransport ν) (peer : SocketAddr) (event : QuinnEvent) :
    Handles t (t.handleConnectionEvent peer event).1 := by
  cases event with
  | stream event => exact handles_handleStreamEvent t peer event
  | connectionLost reason =>
    dsimp only [handleConnectionEvent]
    split
    · exact handles_of_same rfl rfl
    · exact handles_after (handles_removeConnection _ peer) rfl rfl
  | _ =>
    dsimp only [handleConnectionEvent]
    split
    · exact handles_of_same rfl rfl
    · exact handles_of_same rfl rfl

theorem handles_drive (t : OverlayQuicTransport ν) : Handles t t.drive.1 := by
  have each : ∀ (events : List (SocketAddr × QuinnEvent)) (t : OverlayQuicTransport ν),
      Handles t (run handleAppEvent t events).1 := by
    intro events
    induction events with
    | nil => exact fun t => handles_of_same rfl rfl
    | cons event rest ih =>
      exact fun t => handles_trans (handles_handleConnectionEvent t event.1 event.2) (ih _)
  exact handles_after (each _ _) rfl rfl

theorem handles_handleProbeEvent (t : OverlayQuicTransport ν) (probe : ProbeId) (event : QuinnEvent) :
    Handles t (t.handleProbeEvent probe event) := by
  unfold handleProbeEvent
  split
  · exact handles_of_same rfl rfl
  dsimp only
  split
  · split
    · exact handles_of_same rfl rfl
    · exact handles_of_same rfl rfl
  · split
    · exact handles_of_same rfl rfl
    · exact handles_of_same rfl rfl
  · exact handles_of_same rfl rfl
  · exact handles_of_same rfl rfl

theorem handles_driveProbes (t : OverlayQuicTransport ν) : Handles t t.driveProbes := by
  refine handles_after (handles_foldl (fun t entry => ?_) _ _) rfl rfl
  exact handles_handleProbeEvent t entry.1 entry.2

theorem handles_dialAnd (t : OverlayQuicTransport ν) (dest : SocketAddr) (socket : Option SocketId)
    (dialed : Option (ConnectionHandle × QuinnConn ν)) (f : QuicConnection ν → QuicConnection ν) :
    Handles t (t.dialAnd dest socket dialed f).1 := by
  unfold dialAnd
  split
  · exact handles_of_same rfl rfl
  next reached ensured =>
    have dialed : Handles t reached := by
      unfold ensureConnection at ensured
      split at ensured
      · cases ensured
        exact handles_of_same rfl rfl
      split at ensured
      · cases ensured
      split at ensured
      · cases ensured
      split at ensured
      · cases ensured
      · cases ensured
        exact handles_of_same rfl rfl
    refine handles_trans dialed (handles_trans ?_ (handles_drive _))
    unfold withConnection
    split
    · exact handles_of_same rfl rfl
    · exact handles_of_same rfl rfl

theorem handles_openStream (t : OverlayQuicTransport ν) (pubkey : Pubkey) : Handles t (t.openStream pubkey) := by
  unfold openStream
  split
  · exact handles_of_same rfl rfl
  split
  · exact handles_of_same rfl rfl
  split
  · exact handles_allocateStream ..
  · exact handles_of_same rfl rfl

theorem handles_queueDatagramToPeer (t : OverlayQuicTransport ν) (pubkey : Pubkey) (payload : ν) :
    Handles t (t.queueDatagramToPeer pubkey payload).1 := by
  unfold queueDatagramToPeer
  split
  · exact handles_of_same rfl rfl
  split
  · exact handles_of_same rfl rfl
  · exact handles_after (handles_drive _) rfl rfl

theorem handles_writeStream (t : OverlayQuicTransport ν) (stream : OverlayStreamId) (bytes : List UInt8) :
    Handles t (t.writeStream stream bytes).1 := by
  unfold writeStream
  split
  · exact handles_of_same rfl rfl
  split
  · exact handles_of_same rfl rfl
  · exact handles_after (handles_trans (handles_flushStream _ stream) (handles_drive _)) rfl rfl

theorem handles_finishStream (t : OverlayQuicTransport ν) (stream : OverlayStreamId) :
    Handles t (t.finishStream stream).1 := by
  unfold finishStream
  split
  · exact handles_of_same rfl rfl
  · exact handles_after (handles_trans (handles_flushStream _ stream) (handles_drive _)) rfl rfl

theorem handles_resetStream (t : OverlayQuicTransport ν) (stream : OverlayStreamId) :
    Handles t (t.resetStream stream).1 := by
  unfold resetStream
  split
  · exact handles_of_same rfl rfl
  dsimp only
  split
  · exact handles_of_same rfl rfl
  · exact handles_after (handles_drive _) rfl rfl

theorem handles_handleDatagramEvent (t : OverlayQuicTransport ν) (event : DatagramEvent ν) :
    Handles t (t.handleDatagramEvent event) := by
  cases event with
  | connectionEvent handle next =>
    dsimp only [handleDatagramEvent, handleConnectionEventForHandle]
    split
    · split
      · exact handles_of_same rfl rfl
      · exact handles_of_same rfl rfl
    · split
      · exact handles_of_same rfl rfl
      · exact handles_of_same rfl rfl
  | newConnection peer socket accepted =>
    dsimp only [handleDatagramEvent]
    split
    · exact handles_of_same rfl rfl
    split
    · exact handles_of_same rfl rfl
    · exact handles_of_same rfl rfl
  | nothing => exact handles_of_same rfl rfl

theorem handles_closeProbe (t : OverlayQuicTransport ν) (probe : ProbeId) : Handles t (t.closeProbe probe) := by
  unfold closeProbe
  split
  · exact handles_of_same rfl rfl
  · exact handles_of_same rfl rfl

theorem handles_startProbe (t : OverlayQuicTransport ν) (socket : SocketId) (addr : SocketAddr)
    (dialed : Option (ConnectionHandle × QuinnConn ν)) : Handles t (t.startProbe socket addr dialed).1 := by
  unfold startProbe
  split
  · exact handles_of_same rfl rfl
  split
  · exact handles_of_same rfl rfl
  · exact handles_after (handles_driveProbes _) rfl rfl

/-- Polling the stream events takes at most one off. -/
theorem handles_pollStreamEvent (t : OverlayQuicTransport ν) :
    Handles t { t with streamEvents := t.streamEvents.tail } := by
  refine ⟨Nat.le_refl _, [], ?_, List.nodup_nil, by simp⟩
  rw [List.append_nil]
  exact (List.tail_sublist _).filterMap _

theorem handles_step (t : OverlayQuicTransport ν) (op : Op ν) : Handles t (t.step op).1 := by
  cases op with
  | queueDatagram dest payload dialed => exact handles_dialAnd ..
  | queueDatagramToPeer pubkey payload => exact handles_queueDatagramToPeer t pubkey payload
  | queueDatagramExpecting dest expected payload dialed => exact handles_dialAnd ..
  | dialExpecting dest expected dialed => exact handles_dialAnd ..
  | dialExpectingFrom socket dest expected dialed => exact handles_dialAnd ..
  | dropConnection addr => exact handles_removeConnection t addr
  | onDatagram event =>
    refine handles_trans (handles_handleDatagramEvent t event) ?_
    exact handles_trans (handles_drive _) (handles_driveProbes _)
  | onTimer due dueProbes =>
    exact handles_after (handles_trans (handles_drive _) (handles_driveProbes _)) rfl rfl
  | openStream pubkey => exact handles_openStream t pubkey
  | writeStream stream bytes => exact handles_writeStream t stream bytes
  | finishStream stream => exact handles_finishStream t stream
  | resetStream stream => exact handles_resetStream t stream
  | startProbe socket addr dialed => exact handles_startProbe t socket addr dialed
  | closeProbe probe => exact handles_closeProbe t probe
  | pollStreamEvent => exact handles_pollStreamEvent t
  | _ => exact handles_of_same rfl rfl

theorem announced_tail (t : OverlayQuicTransport ν) :
    t.announced = (t.streamEvents.head?.bind StreamEvent.opens).toList ++
      { t with streamEvents := t.streamEvents.tail }.announced := by
  unfold announced
  cases t.streamEvents with
  | nil => rfl
  | cons event rest =>
    cases opens : event.opens with
    | none => simp [opens]
    | some stream => simp [opens]

instance : StreamTransport (OverlayQuicTransport ν) where
  Call := Op ν
  call t op := (t.step op).1
  openStream t pubkey :=
    (t.openStream pubkey, if t.nextStream < (t.openStream pubkey).nextStream then some t.nextStream else none)
  writeStream t stream bytes := (t.writeStream stream bytes).1
  finishStream t stream := (t.finishStream stream).1
  resetStream t stream := (t.resetStream stream).1
  pollStreamEvent t := ({ t with streamEvents := t.streamEvents.tail }, t.streamEvents.head?)
  nextStream := nextStream
  announced := announced
  call_grows := handles_step
  openStream_fresh t pubkey stream opened := by
    dsimp only at opened ⊢
    split at opened
    next grew =>
      cases opened
      exact ⟨Nat.le_refl _, grew⟩
    next => cases opened
  openStream_grows := handles_openStream
  writeStream_grows := handles_writeStream
  finishStream_grows := handles_finishStream
  resetStream_grows := handles_resetStream
  pollStreamEvent_next _ := rfl
  pollStreamEvent_announced := announced_tail

end Lightbringer.Overlay.OverlayQuicTransport
