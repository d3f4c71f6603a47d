import Lightbringer.Overlay.Transport

/-!
# What streams leave alone

Of a connection the datagram path reads and writes its gate: whether it is established, whom it was verified to be
and expected to be, what is queued and how quinn will answer. No stream or probe operation touches a gate or the
identity index.
-/

namespace Lightbringer.Overlay
open Std Machine

variable {ν : Type}

structure Gate (ν : Type) where
  handle : ConnectionHandle
  established : Bool
  peerPubkey : Option Pubkey
  expectPubkey : Option Pubkey
  pending : List ν
  identity : Option Pubkey
  events : List QuinnEvent
  sendAnswers : List SendAnswer

def QuicConnection.gate (c : QuicConnection ν) : Gate ν where
  handle := c.handle
  established := c.established
  peerPubkey := c.peerPubkey
  expectPubkey := c.expectPubkey
  pending := c.pending
  identity := c.conn.identity
  events := c.conn.events
  sendAnswers := c.conn.sendAnswers

namespace OverlayQuicTransport

def gateAt (t : OverlayQuicTransport ν) (addr : SocketAddr) : Option (Gate ν) :=
  (t.connections[addr]?).map QuicConnection.gate

structure SameGates (t t' : OverlayQuicTransport ν) : Prop where
  gates : ∀ addr, t'.gateAt addr = t.gateAt addr
  index : t'.byPubkey = t.byPubkey

theorem SameGates.refl (t : OverlayQuicTransport ν) : SameGates t t := ⟨fun _ => rfl, rfl⟩

theorem SameGates.trans {t t' t'' : OverlayQuicTransport ν} (first : SameGates t t') (second : SameGates t' t'') :
    SameGates t t'' :=
  ⟨fun addr => (second.gates addr).trans (first.gates addr), second.index.trans first.index⟩

theorem connections_setConnection (t : OverlayQuicTransport ν) (peer addr : SocketAddr) (c : QuicConnection ν) :
    (t.setConnection peer c).connections[addr]? = if peer = addr then some c else t.connections[addr]? := by
  simp [setConnection, TreeMap.getElem?_insert]

theorem gateAt_setConnection (t : OverlayQuicTransport ν) (peer addr : SocketAddr) (c : QuicConnection ν) :
    (t.setConnection peer c).gateAt addr = if peer = addr then some c.gate else t.gateAt addr := by
  rw [gateAt, connections_setConnection]
  split <;> rfl

theorem sameGates_setConnection {t : OverlayQuicTransport ν} {peer : SocketAddr} {c c' : QuicConnection ν}
    (found : t.connections[peer]? = some c) (same : c'.gate = c.gate) : SameGates t (t.setConnection peer c') := by
  refine ⟨fun addr => ?_, rfl⟩
  rw [gateAt_setConnection]
  split
  next here => rw [← here, gateAt, found, Option.map_some, same]
  next => rfl

theorem sameGates_foldl {α : Type} {f : OverlayQuicTransport ν → α → OverlayQuicTransport ν}
    (each : ∀ t x, SameGates t (f t x)) (xs : List α) (t : OverlayQuicTransport ν) :
    SameGates t (xs.foldl f t) := by
  induction xs generalizing t with
  | nil => exact .refl t
  | cons x rest ih => exact (each t x).trans (ih _)

theorem sameGates_failStreams (t : OverlayQuicTransport ν) (streams : List OverlayStreamId) :
    SameGates t (t.failStreams streams) := by
  refine sameGates_foldl (fun t stream => ?_) streams t
  split
  · exact ⟨fun _ => rfl, rfl⟩
  · exact .refl t

theorem sameGates_acceptStream (t : OverlayQuicTransport ν) (peer : SocketAddr) (id : QuicStreamId) :
    SameGates t (t.acceptStream peer id) := by
  unfold acceptStream
  cases found : t.connections[peer]? with
  | none => exact .refl t
  | some c =>
    dsimp only
    split
    · exact .refl t
    split
    · exact .refl t
    · have same : ({ c with streams := c.streams.insert id t.nextStream } : QuicConnection ν).gate = c.gate := rfl
      have kept := sameGates_setConnection found same
      exact ⟨kept.gates, kept.index⟩

theorem sameGates_acceptStreams (t : OverlayQuicTransport ν) (peer : SocketAddr) :
    SameGates t (t.acceptStreams peer) := by
  unfold acceptStreams
  cases found : t.connections[peer]? with
  | none => exact .refl t
  | some c =>
    have same : ({ c with conn := { c.conn with acceptable := [] } } : QuicConnection ν).gate = c.gate := rfl
    exact (sameGates_setConnection found same).trans
      (sameGates_foldl (fun t id => sameGates_acceptStream t peer id) _ _)

theorem sameGates_reapStream (t : OverlayQuicTransport ν) (stream : OverlayStreamId) :
    SameGates t (t.reapStream stream) := by
  unfold reapStream
  cases live : t.streamStates[stream]? with
  | none => exact .refl t
  | some state =>
    dsimp only
    split
    · cases found : t.connections[state.peerAddr]? with
      | none => exact ⟨fun _ => rfl, rfl⟩
      | some c =>
        have same : ({ c with streams := c.streams.erase state.quicId } : QuicConnection ν).gate = c.gate := rfl
        have kept := sameGates_setConnection found same
        exact ⟨kept.gates, kept.index⟩
    · exact .refl t

theorem read_gate (c : QuicConnection ν) (id : QuicStreamId) :
    ({ c with conn := (c.conn.read id).1 } : QuicConnection ν).gate = c.gate := by
  obtain ⟨left, same⟩ := c.conn.read_spec id
  rw [same]
  rfl

theorem sameGates_pushStreamEvent (t : OverlayQuicTransport ν) (event : StreamEvent) :
    SameGates t (t.pushStreamEvent event) := ⟨fun _ => rfl, rfl⟩

theorem sameGates_readStream (t : OverlayQuicTransport ν) (peer : SocketAddr) (id : QuicStreamId) :
    SameGates t (t.readStream peer id) := by
  unfold readStream
  cases found : t.connections[peer]? with
  | none => exact .refl t
  | some c =>
    dsimp only
    split
    next stream conn bytes ending _ answer =>
      have same := read_gate c id
      rw [answer] at same
      have first := sameGates_setConnection found same
      have second : SameGates t (if bytes.isEmpty then t.setConnection peer { c with conn := conn }
          else (t.setConnection peer { c with conn := conn }).pushStreamEvent (.data stream bytes)) := by
        split
        · exact first
        · exact first.trans (sameGates_pushStreamEvent _ _)
      split
      · exact second
      · refine SameGates.trans ?_ (sameGates_reapStream _ _)
        exact second.trans ⟨fun _ => rfl, rfl⟩
    next => exact .refl t

theorem sameGates_failStream (t : OverlayQuicTransport ν) (peer : SocketAddr) (id : QuicStreamId) :
    SameGates t (t.failStream peer id) := by
  unfold failStream
  cases found : t.connections[peer]? with
  | none => exact .refl t
  | some c =>
    dsimp only
    split
    · exact .refl t
    have same : ({ c with streams := c.streams.erase id } : QuicConnection ν).gate = c.gate := rfl
    have first := sameGates_setConnection found same
    split
    · exact first.trans ⟨fun _ => rfl, rfl⟩
    · exact first

theorem writeAll_gate (c : QuicConnection ν) (buffer : List UInt8) :
    ({ c with conn := (c.conn.writeAll buffer).1 } : QuicConnection ν).gate = c.gate := by
  obtain ⟨left, same⟩ := c.conn.writeAll_spec buffer
  rw [same]
  rfl

theorem sameGates_flushStream (t : OverlayQuicTransport ν) (stream : OverlayStreamId) :
    SameGates t (t.flushStream stream) := by
  unfold flushStream
  cases found : t.streamStates[stream]? with
  | none => exact .refl t
  | some state =>
    dsimp only
    cases there : t.connections[state.peerAddr]? with
    | none => exact .refl t
    | some c =>
      have first := sameGates_setConnection there (writeAll_gate c state.sendBuf)
      dsimp only
      split
      · refine SameGates.trans ?_ (sameGates_reapStream _ _)
        exact first.trans ⟨fun _ => rfl, rfl⟩
      · exact first.trans ⟨fun _ => rfl, rfl⟩

theorem sameGates_handleStreamEvent (t : OverlayQuicTransport ν) (peer : SocketAddr) (event : QuinnStreamEvent) :
    SameGates t (t.handleStreamEvent peer event) := by
  cases event with
  | openedBi => exact sameGates_acceptStreams t peer
  | openedUni => exact .refl t
  | readable id => exact sameGates_readStream t peer id
  | writable id =>
    unfold handleStreamEvent
    dsimp only
    split
    · exact sameGates_flushStream t _
    · exact .refl t
  | finished id => exact .refl t
  | stopped id => exact sameGates_failStream t peer id
  | available => exact .refl t

theorem sameGates_openStream (t : OverlayQuicTransport ν) (pubkey : Pubkey) : SameGates t (t.openStream pubkey) := by
  unfold openStream
  split
  · exact .refl t
  split
  · exact .refl t
  next addr c located =>
    split
    next id rest established openable =>
      obtain ⟨indexed, _, here⟩ := Option.bind_eq_some_iff.mp located
      obtain ⟨found, there, pair⟩ := Option.map_eq_some_iff.mp here
      cases pair
      have same : ({ c with
          conn := { c.conn with openable := rest },
          streams := c.streams.insert id t.nextStream } : QuicConnection ν).gate = c.gate := rfl
      have kept := sameGates_setConnection there same
      exact ⟨kept.gates, kept.index⟩
    next => exact .refl t

/-! ### Probes -/

theorem sameGates_handleProbeEvent (t : OverlayQuicTransport ν) (probe : ProbeId) (event : QuinnEvent) :
    SameGates t (t.handleProbeEvent probe event) := by
  unfold handleProbeEvent
  split
  · exact .refl t
  dsimp only
  split
  · split
    · exact .refl t
    · exact ⟨fun _ => rfl, rfl⟩
  · split
    · exact .refl t
    · exact ⟨fun _ => rfl, rfl⟩
  · exact ⟨fun _ => rfl, rfl⟩
  · exact .refl t

theorem sameGates_driveProbes (t : OverlayQuicTransport ν) : SameGates t t.driveProbes := by
  have quieted : ∀ probes, SameGates t { t with probes := probes } := fun _ => ⟨fun _ => rfl, rfl⟩
  have each : ∀ t (entry : ProbeId × QuinnEvent), SameGates (ν := ν) t (t.handleProbeEvent entry.1 entry.2) :=
    fun t entry => sameGates_handleProbeEvent t entry.1 entry.2
  exact (quieted _).trans (sameGates_foldl each _ _)

theorem sameGates_startProbe (t : OverlayQuicTransport ν) (socket : SocketId) (addr : SocketAddr)
    (dialed : Option (ConnectionHandle × QuinnConn ν)) : SameGates t (t.startProbe socket addr dialed).1 := by
  unfold startProbe
  split
  · exact .refl t
  split
  · exact .refl t
  · refine SameGates.trans ?_ (sameGates_driveProbes _)
    exact ⟨fun _ => rfl, rfl⟩

theorem sameGates_closeProbe (t : OverlayQuicTransport ν) (probe : ProbeId) : SameGates t (t.closeProbe probe) := by
  unfold closeProbe
  split
  · exact .refl t
  · exact ⟨fun _ => rfl, rfl⟩

end OverlayQuicTransport

end Lightbringer.Overlay
