import Lightbringer.Overlay.Quinn
import Lightbringer.Lib.Machine

/-!
# The QUIC transport

`overlay/transport.rs`: connections by address, the index of established identities, streams, and the isolated
connections of dial-back probes. Every operation ends by driving the connections; what it hands to quinn on the
way is its output.
-/

namespace Lightbringer.Overlay
open Std Machine

def maxConnections : Nat := 1024

def maxInboundFrames : Nat := 8192

def maxTransportEvents : Nat := 1024

def maxStreamEvents : Nat := 8192

def maxStreamStates : Nat := 4096

def maxProbes : Nat := 256

def maxProbeEvents : Nat := 1024

inductive TransportEvent where
  | connected (peer : SocketAddr) (pubkey : Option Pubkey)
  | disconnected (peer : SocketAddr) (reason : String)
  deriving DecidableEq

inductive StreamEvent where
  | opened (stream : OverlayStreamId) (peer : Pubkey)
  | data (stream : OverlayStreamId) (bytes : List UInt8)
  | finished (stream : OverlayStreamId)
  | failed (stream : OverlayStreamId)
  deriving DecidableEq

structure StreamState where
  peerAddr : SocketAddr
  quicId : QuicStreamId
  sendBuf : List UInt8
  finPending : Bool
  finDone : Bool
  recvDone : Bool
  deriving DecidableEq

def StreamState.new (peerAddr : SocketAddr) (quicId : QuicStreamId) : StreamState :=
  ⟨peerAddr, quicId, [], false, false, false⟩

/-- The connection of a dial-back probe. -/
structure ProbeConn (ν : Type) where
  handle : ConnectionHandle
  conn : QuinnConn ν
  socket : SocketId
  remote : SocketAddr
  resolved : Bool

structure ProbeEvent where
  probe : ProbeId
  addr : SocketAddr
  identity : Option Pubkey
  deriving DecidableEq

/-- A payload handed to a QUIC connection, with the identity quinn verified for it. -/
structure Handed (ν : Type) where
  addr : SocketAddr
  handle : ConnectionHandle
  identity : Option Pubkey
  payload : ν
  deriving DecidableEq

structure OverlayQuicTransport (ν : Type) where
  socket : SocketId
  socketV6 : Option SocketId
  connections : TreeMap SocketAddr (QuicConnection ν)
  byPubkey : TreeMap Pubkey SocketAddr
  handles : TreeMap ConnectionHandle SocketAddr
  inboundFrames : List (SocketAddr × ν)
  events : List TransportEvent
  streamEvents : List StreamEvent
  streamStates : TreeMap OverlayStreamId StreamState
  nextStream : Nat
  probes : TreeMap ProbeId (ProbeConn ν)
  probeHandles : TreeMap ConnectionHandle ProbeId
  probeSockets : TreeMap SocketId Unit
  probeEvents : List ProbeEvent
  nextProbe : Nat

namespace OverlayQuicTransport

variable {ν : Type}

def new (socket : SocketId) (socketV6 : Option SocketId) : OverlayQuicTransport ν where
  socket := socket
  socketV6 := socketV6
  connections := ∅
  byPubkey := ∅
  handles := ∅
  inboundFrames := []
  events := []
  streamEvents := []
  streamStates := ∅
  nextStream := 0
  probes := ∅
  probeHandles := ∅
  probeSockets := ∅
  probeEvents := []
  nextProbe := 0

variable (t : OverlayQuicTransport ν)

def egress (dest : SocketAddr) : SocketId :=
  match t.socketV6 with
  | some socketV6 => if dest.isIpv6 then socketV6 else t.socket
  | none => t.socket

def pushEvent (event : TransportEvent) : OverlayQuicTransport ν :=
  { t with events := pushBounded t.events event maxTransportEvents }

def pushStreamEvent (event : StreamEvent) : OverlayQuicTransport ν :=
  { t with streamEvents := pushBounded t.streamEvents event maxStreamEvents }

def setConnection (peer : SocketAddr) (c : QuicConnection ν) : OverlayQuicTransport ν :=
  { t with connections := t.connections.insert peer c }

/-- `ensure_connection_from`; `dialed` is what `endpoint.connect` returns. `none` is the error. -/
def ensureConnection (peer : SocketAddr) (socket : Option SocketId)
    (dialed : Option (ConnectionHandle × QuinnConn ν)) : Option (OverlayQuicTransport ν) :=
  if peer ∈ t.connections then some t
  else if peer.isIpv6 && t.socketV6.isNone then none
  else if maxConnections ≤ t.connections.size then none
  else
    match dialed with
    | none => none
    | some (handle, conn) =>
      some { t.setConnection peer (QuicConnection.new handle conn socket) with
        handles := t.handles.insert handle peer }

/-! ### Streams -/

/-- Every stream of a removed connection dies with it. -/
def failStreams (streams : List OverlayStreamId) : OverlayQuicTransport ν :=
  streams.foldl (fun t stream =>
    if stream ∈ t.streamStates then
      { t with streamStates := t.streamStates.erase stream }.pushStreamEvent (.failed stream)
    else t) t

/-- The part of a connection's removal that losing and dropping it share. -/
def removeConnection (peer : SocketAddr) : OverlayQuicTransport ν :=
  match t.connections[peer]? with
  | none => t
  | some c =>
    let byPubkey := match c.peerPubkey with
      | some pubkey => if t.byPubkey[pubkey]? = some peer then t.byPubkey.erase pubkey else t.byPubkey
      | none => t.byPubkey
    let t := { t with
      connections := t.connections.erase peer
      handles := t.handles.erase c.handle
      byPubkey := byPubkey }
    t.failStreams (c.streams.toList.map Prod.snd)

def allocateStream (peer : SocketAddr) (c : QuicConnection ν) (id : QuicStreamId) : OverlayQuicTransport ν :=
  { t.setConnection peer { c with streams := c.streams.insert id t.nextStream } with
    streamStates := t.streamStates.insert t.nextStream (StreamState.new peer id)
    nextStream := t.nextStream + 1 }

/-- One round of the loop of `accept_streams`. A refused stream costs no state. -/
def acceptStream (peer : SocketAddr) (id : QuicStreamId) : OverlayQuicTransport ν :=
  match t.connections[peer]? with
  | none => t
  | some c =>
    match c.peerPubkey with
    | none => t
    | some pubkey =>
      if maxStreamStates ≤ t.streamStates.size then t
      else (t.allocateStream peer c id).pushStreamEvent (.opened t.nextStream pubkey)

def acceptStreams (peer : SocketAddr) : OverlayQuicTransport ν :=
  match t.connections[peer]? with
  | none => t
  | some c =>
    c.conn.acceptable.foldl (fun t id => t.acceptStream peer id)
      (t.setConnection peer { c with conn := { c.conn with acceptable := [] } })

def reapStream (stream : OverlayStreamId) : OverlayQuicTransport ν :=
  match t.streamStates[stream]? with
  | none => t
  | some state =>
    if state.recvDone && state.finDone then
      let t := { t with streamStates := t.streamStates.erase stream }
      match t.connections[state.peerAddr]? with
      | none => t
      | some c => t.setConnection state.peerAddr { c with streams := c.streams.erase state.quicId }
    else t

def readStream (peer : SocketAddr) (id : QuicStreamId) : OverlayQuicTransport ν :=
  match t.connections[peer]? with
  | none => t
  | some c =>
    match c.streams[id]?, c.conn.read id with
    | some stream, (conn, some (bytes, ending)) =>
      let t := t.setConnection peer { c with conn := conn }
      let t := if bytes.isEmpty then t else t.pushStreamEvent (.data stream bytes)
      let outcome := match ending with
        | .finished => some (StreamEvent.finished stream)
        | .reset => some (StreamEvent.failed stream)
        | .blocked => none
      match outcome with
      | none => t
      | some event =>
        let streamStates := t.streamStates.modify stream (fun state => { state with recvDone := true })
        ({ t with streamStates := streamStates }.pushStreamEvent event).reapStream stream
    | _, _ => t

def failStream (peer : SocketAddr) (id : QuicStreamId) : OverlayQuicTransport ν :=
  match t.connections[peer]? with
  | none => t
  | some c =>
    match c.streams[id]? with
    | none => t
    | some stream =>
      let t := t.setConnection peer { c with streams := c.streams.erase id }
      if stream ∈ t.streamStates then
        { t with streamStates := t.streamStates.erase stream }.pushStreamEvent (.failed stream)
      else t

def flushStream (stream : OverlayStreamId) : OverlayQuicTransport ν :=
  match t.streamStates[stream]? with
  | none => t
  | some state =>
    match t.connections[state.peerAddr]? with
    | none => t
    | some c =>
      let (conn, sendBuf, drained) := c.conn.writeAll state.sendBuf
      let t := t.setConnection state.peerAddr { c with conn := conn }
      if drained && state.finPending && !state.finDone then
        let state := { state with sendBuf := sendBuf, finDone := true }
        { t with streamStates := t.streamStates.insert stream state }.reapStream stream
      else { t with streamStates := t.streamStates.insert stream { state with sendBuf := sendBuf } }

def handleStreamEvent (peer : SocketAddr) : QuinnStreamEvent → OverlayQuicTransport ν
  | .openedBi => t.acceptStreams peer
  | .openedUni => t
  | .readable id => t.readStream peer id
  | .writable id =>
    match (t.connections[peer]?).bind (fun c => c.streams[id]?) with
    | some stream => t.flushStream stream
    | none => t
  | .finished _ => t
  | .stopped id => t.failStream peer id
  | .available => t

/-! ### Driving the connections -/

def handed (addr : SocketAddr) (c : QuicConnection ν) : List (Handed ν) :=
  c.flushPending.2.map (fun payload => ⟨addr, c.handle, c.conn.identity, payload⟩)

/-- `handle_connection_event` on the connection at `peer`, streams apart. -/
def onConnected (peer : SocketAddr) (c : QuicConnection ν) : OverlayQuicTransport ν × List (Handed ν) :=
  let c := { c with established := true, peerPubkey := c.peerPubkey.or c.conn.identity }
  -- The first live connection of an identity keeps it.
  let byPubkey := match c.peerPubkey with
    | some pubkey => t.byPubkey.insertIfNew pubkey peer
    | none => t.byPubkey
  ({ t.setConnection peer c.flushPending.1 with byPubkey := byPubkey }.pushEvent (.connected peer c.peerPubkey),
    handed peer c)

def onDatagramReceived (peer : SocketAddr) (c : QuicConnection ν) : OverlayQuicTransport ν :=
  { t.setConnection peer { c with conn := { c.conn with received := [] } } with
    inboundFrames := c.conn.received.foldl
      (fun frames payload => pushBounded frames (peer, payload) maxInboundFrames) t.inboundFrames }

def handleConnectionEvent (peer : SocketAddr) (event : QuinnEvent) :
    OverlayQuicTransport ν × List (Handed ν) :=
  match event with
  | .stream event => (t.handleStreamEvent peer event, [])
  | event =>
    match t.connections[peer]? with
    | none => (t, [])
    | some c =>
      match event with
      | .handshakeDataReady => (t.setConnection peer { c with peerPubkey := c.conn.identity }, [])
      | .connected => t.onConnected peer c
      | .datagramReceived => (t.onDatagramReceived peer c, [])
      | .datagramsUnblocked => (t.setConnection peer c.flushPending.1, handed peer c)
      | .connectionLost reason => ((t.pushEvent (.disconnected peer reason)).removeConnection peer, [])
      | .stream _ => (t, [])

/-- The first pass of `drive` over a connection: what is pending goes out and the events are taken. -/
def pumped (c : QuicConnection ν) : QuicConnection ν :=
  { c.flushPending.1 with conn := { c.flushPending.1.conn with events := [] } }

def appEvents : List (SocketAddr × QuinnEvent) :=
  t.connections.toList.flatMap (fun entry => entry.2.flushPending.1.conn.events.map (Prod.mk entry.1))

def handleAppEvent (entry : SocketAddr × QuinnEvent) : OverlayQuicTransport ν × List (Handed ν) :=
  t.handleConnectionEvent entry.1 entry.2

def drive : OverlayQuicTransport ν × List (Handed ν) :=
  let flushed := t.connections.toList.flatMap (fun entry => handed entry.1 entry.2)
  let (driven, late) := run handleAppEvent
    { t with connections := t.connections.map (fun _ c => pumped c) } t.appEvents
  (driven, flushed ++ late)

/-! ### Dial-back probes -/

def handleProbeEvent (probe : ProbeId) (event : QuinnEvent) : OverlayQuicTransport ν :=
  match t.probes[probe]? with
  | none => t
  | some conn =>
    let report (identity : Option Pubkey) : OverlayQuicTransport ν :=
      { t with
        probes := t.probes.insert probe { conn with resolved := true }
        probeEvents := pushBounded t.probeEvents ⟨probe, conn.remote, identity⟩ maxProbeEvents }
    match event with
    | .connected => if conn.resolved then t else report conn.conn.identity
    | .connectionLost _ => if conn.resolved then t else report none
    | .datagramReceived =>
      { t with probes := t.probes.insert probe { conn with conn := { conn.conn with received := [] } } }
    | _ => t

def driveProbes : OverlayQuicTransport ν :=
  let events := t.probes.toList.flatMap (fun entry => entry.2.conn.events.map (Prod.mk entry.1))
  let probes := t.probes.map (fun _ conn => { conn with conn := { conn.conn with events := [] } })
  events.foldl (fun t (probe, event) => t.handleProbeEvent probe event) { t with probes := probes }

def startProbe (socket : SocketId) (addr : SocketAddr) (dialed : Option (ConnectionHandle × QuinnConn ν)) :
    OverlayQuicTransport ν × Option ProbeId :=
  if maxProbes ≤ t.probes.size then (t, none)
  else
    match dialed with
    | none => (t, none)
    | some (handle, conn) =>
      ({ t with
        probes := t.probes.insert t.nextProbe ⟨handle, conn, socket, addr, false⟩
        probeHandles := t.probeHandles.insert handle t.nextProbe
        probeSockets := t.probeSockets.insert socket ()
        nextProbe := t.nextProbe + 1 }.driveProbes, some t.nextProbe)

def closeProbe (probe : ProbeId) : OverlayQuicTransport ν :=
  match t.probes[probe]? with
  | none => t
  | some conn =>
    { t with
      probes := t.probes.erase probe
      probeHandles := t.probeHandles.erase conn.handle
      probeSockets := t.probeSockets.erase conn.socket }

/-! ### Operations -/

/-- What `endpoint.handle` makes of a datagram. -/
inductive DatagramEvent (ν : Type) where
  | connectionEvent (handle : ConnectionHandle) (next : QuinnConn ν)
  /-- A new connection; `accepted` is what `endpoint.accept` returns. -/
  | newConnection (peer : SocketAddr) (socket : SocketId) (accepted : Option (ConnectionHandle × QuinnConn ν))
  | nothing

/-- `handle_connection_event_for_handle`: the event goes to whatever connection the handle leads to. -/
def handleConnectionEventForHandle (handle : ConnectionHandle) (next : QuinnConn ν) : OverlayQuicTransport ν :=
  match t.handles[handle]? with
  | some peer =>
    match t.connections[peer]? with
    | some c => t.setConnection peer { c with conn := c.conn.evolve next }
    | none => t
  | none =>
    match (t.probeHandles[handle]?).bind (fun probe => (t.probes[probe]?).map (Prod.mk probe)) with
    | some (probe, conn) =>
      { t with probes := t.probes.insert probe { conn with conn := conn.conn.evolve next } }
    | none => t

def handleDatagramEvent : DatagramEvent ν → OverlayQuicTransport ν
  | .connectionEvent handle next => t.handleConnectionEventForHandle handle next
  | .newConnection peer socket accepted =>
    if maxConnections ≤ t.connections.size then t
    else
      match accepted with
      | none => t
      | some (handle, conn) =>
        let pinned := if socket ≠ t.egress peer then some socket else none
        { t.setConnection peer (QuicConnection.new handle conn pinned) with
          handles := t.handles.insert handle peer }
  | .nothing => t

/-- `handle_timeouts`: the connections named took in a timeout. -/
def handleTimeouts (due : List (SocketAddr × QuinnConn ν)) (dueProbes : List (ProbeId × QuinnConn ν)) :
    OverlayQuicTransport ν :=
  let connections := due.foldl (fun connections (peer, next) =>
    connections.modify peer (fun c => { c with conn := c.conn.evolve next })) t.connections
  let probes := dueProbes.foldl (fun probes (probe, next) =>
    probes.modify probe (fun conn => { conn with conn := conn.conn.evolve next })) t.probes
  { t with connections := connections, probes := probes }

/-- The calls on the transport. `dialed` is what `endpoint.connect` would return. -/
inductive Op (ν : Type) where
  | queueDatagram (dest : SocketAddr) (payload : ν) (dialed : Option (ConnectionHandle × QuinnConn ν))
  | queueDatagramToPeer (pubkey : Pubkey) (payload : ν)
  | queueDatagramExpecting (dest : SocketAddr) (expected : Pubkey) (payload : ν)
      (dialed : Option (ConnectionHandle × QuinnConn ν))
  | dialExpecting (dest : SocketAddr) (expected : Pubkey) (dialed : Option (ConnectionHandle × QuinnConn ν))
  | dialExpectingFrom (socket : SocketId) (dest : SocketAddr) (expected : Pubkey)
      (dialed : Option (ConnectionHandle × QuinnConn ν))
  | dropConnection (addr : SocketAddr)
  | onDatagram (event : DatagramEvent ν)
  | onTimer (due : List (SocketAddr × QuinnConn ν)) (dueProbes : List (ProbeId × QuinnConn ν))
  | openStream (pubkey : Pubkey)
  | writeStream (stream : OverlayStreamId) (bytes : List UInt8)
  | finishStream (stream : OverlayStreamId)
  | resetStream (stream : OverlayStreamId)
  | startProbe (socket : SocketId) (addr : SocketAddr) (dialed : Option (ConnectionHandle × QuinnConn ν))
  | closeProbe (probe : ProbeId)
  | registerPunchSocket (socket : SocketId)
  | unregisterPunchSocket (socket : SocketId)
  | pollInbound
  | pollEvent
  | pollStreamEvent
  | pollProbeEvent

/-- The operations that only dial-back performs. -/
def Op.ofProbes : Op ν → Bool
  | .startProbe .. | .closeProbe .. | .pollProbeEvent => true
  | _ => false

/-- Change the connection at an address, if there is one. -/
def withConnection (addr : SocketAddr) (f : QuicConnection ν → QuicConnection ν) : OverlayQuicTransport ν :=
  match t.connections[addr]? with
  | some c => t.setConnection addr (f c)
  | none => t

/-- The dialing operations: make sure there is a connection, change it, drive. -/
def dialAnd (dest : SocketAddr) (socket : Option SocketId) (dialed : Option (ConnectionHandle × QuinnConn ν))
    (f : QuicConnection ν → QuicConnection ν) : OverlayQuicTransport ν × List (Handed ν) :=
  match t.ensureConnection dest socket dialed with
  | none => (t, [])
  | some t => (t.withConnection dest f).drive

def queueDatagram (dest : SocketAddr) (payload : ν) (dialed : Option (ConnectionHandle × QuinnConn ν)) :
    OverlayQuicTransport ν × List (Handed ν) :=
  t.dialAnd dest none dialed (fun c => c.queue payload)

def queueDatagramExpecting (dest : SocketAddr) (expected : Pubkey) (payload : ν)
    (dialed : Option (ConnectionHandle × QuinnConn ν)) : OverlayQuicTransport ν × List (Handed ν) :=
  t.dialAnd dest none dialed (fun c => (c.expect expected).queue payload)

def dialExpecting (dest : SocketAddr) (expected : Pubkey) (dialed : Option (ConnectionHandle × QuinnConn ν)) :
    OverlayQuicTransport ν × List (Handed ν) :=
  t.dialAnd dest none dialed (fun c => c.expect expected)

def dialExpectingFrom (socket : SocketId) (dest : SocketAddr) (expected : Pubkey)
    (dialed : Option (ConnectionHandle × QuinnConn ν)) : OverlayQuicTransport ν × List (Handed ν) :=
  t.dialAnd dest (some socket) dialed (fun c => c.expect expected)

/-- The address `queue_datagram_to_peer` uses, when there is a connection at it. -/
def queueDatagramToPeer (pubkey : Pubkey) (payload : ν) : OverlayQuicTransport ν × List (Handed ν) :=
  match t.byPubkey[pubkey]? with
  | none => (t, [])
  | some addr =>
    match t.connections[addr]? with
    | none => (t, [])
    | some c => (t.setConnection addr (c.queue payload)).drive

def openStream (pubkey : Pubkey) : OverlayQuicTransport ν :=
  if maxStreamStates ≤ t.streamStates.size then t
  else
    match (t.byPubkey[pubkey]?).bind (fun addr => (t.connections[addr]?).map (Prod.mk addr)) with
    | none => t
    | some (addr, c) =>
      match c.established, c.conn.openable with
      | true, id :: rest => t.allocateStream addr { c with conn := { c.conn with openable := rest } } id
      | _, _ => t

def writeStream (stream : OverlayStreamId) (bytes : List UInt8) : OverlayQuicTransport ν × List (Handed ν) :=
  match t.streamStates[stream]? with
  | none => (t, [])
  | some state =>
    if state.finPending then (t, [])
    else
      let state := { state with sendBuf := state.sendBuf ++ bytes }
      ({ t with streamStates := t.streamStates.insert stream state }.flushStream stream).drive

def finishStream (stream : OverlayStreamId) : OverlayQuicTransport ν × List (Handed ν) :=
  match t.streamStates[stream]? with
  | none => (t, [])
  | some state =>
    let state := { state with finPending := true }
    ({ t with streamStates := t.streamStates.insert stream state }.flushStream stream).drive

def resetStream (stream : OverlayStreamId) : OverlayQuicTransport ν × List (Handed ν) :=
  match t.streamStates[stream]? with
  | none => (t, [])
  | some state =>
    let t := { t with streamStates := t.streamStates.erase stream }
    match t.connections[state.peerAddr]? with
    | none => (t, [])
    | some c => (t.setConnection state.peerAddr { c with streams := c.streams.erase state.quicId }).drive

def step (t : OverlayQuicTransport ν) (op : Op ν) : OverlayQuicTransport ν × List (Handed ν) :=
  match op with
  | .queueDatagram dest payload dialed => t.queueDatagram dest payload dialed
  | .queueDatagramToPeer pubkey payload => t.queueDatagramToPeer pubkey payload
  | .queueDatagramExpecting dest expected payload dialed => t.queueDatagramExpecting dest expected payload dialed
  | .dialExpecting dest expected dialed => t.dialExpecting dest expected dialed
  | .dialExpectingFrom socket dest expected dialed => t.dialExpectingFrom socket dest expected dialed
  | .dropConnection addr => (t.removeConnection addr, [])
  | .onDatagram event =>
    let (t, sent) := (t.handleDatagramEvent event).drive
    (t.driveProbes, sent)
  | .onTimer due dueProbes =>
    let (t, sent) := (t.handleTimeouts due dueProbes).drive
    (t.driveProbes, sent)
  | .openStream pubkey => (t.openStream pubkey, [])
  | .writeStream stream bytes => t.writeStream stream bytes
  | .finishStream stream => t.finishStream stream
  | .resetStream stream => t.resetStream stream
  | .startProbe socket addr dialed => ((t.startProbe socket addr dialed).1, [])
  | .closeProbe probe => (t.closeProbe probe, [])
  | .registerPunchSocket socket => ({ t with probeSockets := t.probeSockets.insert socket () }, [])
  | .unregisterPunchSocket socket => ({ t with probeSockets := t.probeSockets.erase socket }, [])
  | .pollInbound => ({ t with inboundFrames := t.inboundFrames.tail }, [])
  | .pollEvent => ({ t with events := t.events.tail }, [])
  | .pollStreamEvent => ({ t with streamEvents := t.streamEvents.tail }, [])
  | .pollProbeEvent => ({ t with probeEvents := t.probeEvents.tail }, [])

end OverlayQuicTransport

end Lightbringer.Overlay
