import Lightbringer.Overlay.Transport
import Lightbringer.Lib.Switchboard

/-!
# Streams stay on their connection

The transport as a switchboard: its connections are the lines, `stream_states` the directory of streams. What quinn
promises of handles and stream ids is a condition on the calls (`Lawful`), and so is that no connection is accepted
from an address that already has one (`Vacant`).
-/

namespace Lightbringer.Overlay
open Std Machine Switchboard

variable {ν : Type}

def QuicConnection.line (c : QuicConnection ν) : Line ConnectionHandle QuicStreamId where
  handle := c.handle
  streams id := c.streams[id]?
  offers := c.conn.acceptable ++ c.conn.openable

namespace OverlayQuicTransport

def board (t : OverlayQuicTransport ν) : Board SocketAddr ConnectionHandle QuicStreamId where
  handles handle := t.handles[handle]?
  lines addr := (t.connections[addr]?).map QuicConnection.line
  places stream := (t.streamStates[stream]?).map (fun state => (state.peerAddr, state.quicId))
  next := t.nextStream

variable {t t' : OverlayQuicTransport ν} {peer : SocketAddr} {c c' : QuicConnection ν}

theorem lines_found (found : t.connections[peer]? = some c) : t.board.lines peer = some c.line := by
  show (t.connections[peer]?).map QuicConnection.line = some c.line
  rw [found]
  rfl

theorem found_setConnection (t : OverlayQuicTransport ν) (peer : SocketAddr) (c : QuicConnection ν) :
    (t.setConnection peer c).connections[peer]? = some c := TreeMap.getElem?_insert_self

theorem board_setConnection (t : OverlayQuicTransport ν) (peer : SocketAddr) (c : QuicConnection ν) :
    (t.setConnection peer c).board = { t.board with lines := Function.update t.board.lines peer (some c.line) } := by
  have lines : (t.setConnection peer c).board.lines = Function.update t.board.lines peer (some c.line) := by
    funext addr
    by_cases here : addr = peer
    · subst here
      simp [board, setConnection]
    · simp [board, setConnection, TreeMap.getElem?_insert, here, Ne.symm here]
  show ({ t.board with lines := (t.setConnection peer c).board.lines } : Board _ _ _) = _
  rw [lines]

theorem board_sameLine (found : t.connections[peer]? = some c) (same : c'.line = c.line) :
    (t.setConnection peer c').board = t.board := by
  rw [board_setConnection, same, ← lines_found found, Function.update_eq_self]

theorem board_allocate (t : OverlayQuicTransport ν) (peer : SocketAddr) (c : QuicConnection ν) (id : QuicStreamId) :
    (t.allocateStream peer c id).board = allocate t.board peer c.line id := by
  have line : ({ c with streams := c.streams.insert id t.nextStream } : QuicConnection ν).line =
      { c.line with streams := Function.update c.line.streams id (some t.nextStream) } := by
    have streams : (fun key => (c.streams.insert id t.nextStream)[key]?) =
        Function.update (fun key => c.streams[key]?) id (some t.nextStream) := by
      funext key
      by_cases same : key = id
      · subst same
        simp
      · simp [TreeMap.getElem?_insert, same, Ne.symm same]
    rw [QuicConnection.line, QuicConnection.line, streams]
  refine Board.ext rfl ?_ ?_ rfl
  · have lines := congrArg Board.lines (board_setConnection t peer { c with streams := c.streams.insert id t.nextStream })
    rw [line] at lines
    exact lines
  · funext stream
    by_cases same : stream = t.nextStream
    · subst same
      simp [board, allocateStream, allocate, StreamState.new]
    · simp [board, allocateStream, allocate, TreeMap.getElem?_insert, same, Ne.symm same]

/-- A stream leaves both directories. -/
theorem board_release (t : OverlayQuicTransport ν) (peer : SocketAddr) (c : QuicConnection ν) (id : QuicStreamId)
    (stream : OverlayStreamId) :
    ({ t with streamStates := t.streamStates.erase stream }.setConnection peer
      { c with streams := c.streams.erase id }).board = release t.board peer c.line id stream := by
  have line : ({ c with streams := c.streams.erase id } : QuicConnection ν).line =
      { c.line with streams := Function.update c.line.streams id none } := by
    have streams : (fun key => (c.streams.erase id)[key]?) = Function.update (fun key => c.streams[key]?) id none := by
      funext key
      by_cases same : key = id
      · subst same
        simp
      · simp [TreeMap.getElem?_erase, same, Ne.symm same]
    rw [QuicConnection.line, QuicConnection.line, streams]
  refine Board.ext rfl ?_ ?_ rfl
  · have lines := congrArg Board.lines (board_setConnection t peer { c with streams := c.streams.erase id })
    rw [line] at lines
    exact lines
  · funext other
    by_cases same : other = stream
    · subst same
      simp [board, setConnection, release]
    · simp [board, setConnection, release, TreeMap.getElem?_erase, same, Ne.symm same]

/-- Rewriting what is buffered or done of a stream moves no stream. -/
theorem board_restated {stream : OverlayStreamId} {state : StreamState}
    (live : t.streamStates[stream]? = some state) (state' : StreamState) (peerAddr : state'.peerAddr = state.peerAddr)
    (quicId : state'.quicId = state.quicId) :
    { t with streamStates := t.streamStates.insert stream state' }.board = t.board := by
  refine Board.ext rfl rfl ?_ rfl
  funext other
  by_cases same : other = stream
  · subst same
    simp [board, live, peerAddr, quicId]
  · simp [board, TreeMap.getElem?_insert, Ne.symm same]

theorem board_recvDone (t : OverlayQuicTransport ν) (stream : OverlayStreamId) :
    { t with streamStates := t.streamStates.modify stream (fun state => { state with recvDone := true }) }.board =
      t.board := by
  refine Board.ext rfl rfl ?_ rfl
  funext other
  by_cases same : other = stream
  · subst same
    simp [board, Function.comp_def]
  · simp [board, TreeMap.getElem?_modify, Ne.symm same]

theorem steady_of_eq (held : Isolated t.board) (same : t'.board = t.board) : Steady t.board t'.board := by
  rw [same]
  exact .refl held

/-! ### Connections come and go -/

/-- What quinn gives with a new connection: a handle that is not in use, and no id twice. -/
def freshHandle (t : OverlayQuicTransport ν) : Option (ConnectionHandle × QuinnConn ν) → Bool
  | none => true
  | some (handle, conn) => (t.handles[handle]?).isNone && decide (conn.acceptable ++ conn.openable).Nodup

theorem steady_newConnection (held : Isolated t.board) {handle : ConnectionHandle} {conn : QuinnConn ν}
    (vacant : t.connections[peer]? = none) (fresh : t.freshHandle (some (handle, conn)) = true) (socket : Option SocketId) :
    Steady t.board { t.setConnection peer (QuicConnection.new handle conn socket) with
      handles := t.handles.insert handle peer }.board := by
  obtain ⟨unused, distinct⟩ : t.handles[handle]? = none ∧ (conn.acceptable ++ conn.openable).Nodup := by
    simpa [freshHandle] using fresh
  have same : { t.setConnection peer (QuicConnection.new handle conn socket) with
      handles := t.handles.insert handle peer }.board =
      connect t.board peer handle (conn.acceptable ++ conn.openable) := by
    have line : (QuicConnection.new handle conn socket).line =
        ⟨handle, fun _ => none, conn.acceptable ++ conn.openable⟩ := by
      simp [QuicConnection.line, QuicConnection.new]
    refine Board.ext ?_ ?_ rfl rfl
    · funext other
      by_cases same : other = handle
      · subst same
        simp [board, connect]
      · simp [board, connect, TreeMap.getElem?_insert, same, Ne.symm same]
    · have lines := congrArg Board.lines (board_setConnection t peer (QuicConnection.new handle conn socket))
      rw [line] at lines
      exact lines
  rw [same]
  exact steady_connect held (by simp [board, vacant]) unused distinct

theorem steady_ensureConnection (held : Isolated t.board) {socket : Option SocketId}
    {dialed : Option (ConnectionHandle × QuinnConn ν)} (fresh : t.freshHandle dialed = true)
    (dialing : t.ensureConnection peer socket dialed = some t') : Steady t.board t'.board := by
  unfold ensureConnection at dialing
  split at dialing
  · cases dialing
    exact .refl held
  next absent =>
    split at dialing
    · cases dialing
    split at dialing
    · cases dialing
    split at dialing
    · cases dialing
    · cases dialing
      have vacant : t.connections[peer]? = none := TreeMap.getElem?_eq_none absent
      exact steady_newConnection held vacant fresh socket

theorem failStreams_frame (t : OverlayQuicTransport ν) (streams : List OverlayStreamId) :
    (t.failStreams streams).connections = t.connections ∧ (t.failStreams streams).handles = t.handles ∧
    (t.failStreams streams).nextStream = t.nextStream ∧
    ∀ stream, (t.failStreams streams).streamStates[stream]? =
      if stream ∈ streams then none else t.streamStates[stream]? := by
  unfold failStreams
  induction streams generalizing t with
  | nil => exact ⟨rfl, rfl, rfl, fun stream => by simp⟩
  | cons first rest ih =>
    rw [List.foldl_cons]
    split
    next live =>
      obtain ⟨connections, handles, next, states⟩ :=
        ih ({ t with streamStates := t.streamStates.erase first }.pushStreamEvent (.failed first))
      refine ⟨connections, handles, next, fun stream => ?_⟩
      rw [states stream]
      show (if stream ∈ rest then none else (t.streamStates.erase first)[stream]?) = _
      by_cases same : stream = first
      · subst same
        simp
      · simp [TreeMap.getElem?_erase, same, Ne.symm same]
    next dead =>
      obtain ⟨connections, handles, next, states⟩ := ih t
      refine ⟨connections, handles, next, fun stream => ?_⟩
      rw [states stream]
      by_cases same : stream = first
      · subst same
        simp [TreeMap.getElem?_eq_none dead]
      · simp [same]

theorem mem_streams (c : QuicConnection ν) (stream : OverlayStreamId) :
    stream ∈ c.streams.toList.map Prod.snd ↔ ∃ id : QuicStreamId, c.streams[id]? = some stream := by
  rw [List.mem_map]
  constructor
  · rintro ⟨⟨id, listed⟩, member, rfl⟩
    exact ⟨id, TreeMap.mem_toList_iff_getElem?_eq_some.mp member⟩
  · rintro ⟨id, listed⟩
    exact ⟨(id, stream), TreeMap.mem_toList_iff_getElem?_eq_some.mpr listed, rfl⟩

theorem board_disconnect (held : Isolated t.board) (found : t.connections[peer]? = some c)
    (index : TreeMap Pubkey SocketAddr) :
    (failStreams
      { t with connections := t.connections.erase peer, handles := t.handles.erase c.handle, byPubkey := index }
      (c.streams.toList.map Prod.snd)).board = disconnect t.board peer c.line := by
  obtain ⟨connections, handles, next, states⟩ := failStreams_frame
    { t with connections := t.connections.erase peer, handles := t.handles.erase c.handle, byPubkey := index }
    (c.streams.toList.map Prod.snd)
  refine Board.ext ?_ ?_ ?_ next
  · funext handle
    rw [board, handles]
    by_cases same : handle = c.handle
    · subst same
      simp [disconnect, QuicConnection.line]
    · simp [disconnect, board, QuicConnection.line, TreeMap.getElem?_erase, same, Ne.symm same]
  · funext addr
    rw [board, connections]
    by_cases same : addr = peer
    · subst same
      simp [disconnect]
    · simp [disconnect, board, TreeMap.getElem?_erase, same, Ne.symm same]
  · funext stream
    show Option.map _ _ = (t.board.places stream).filter _
    rw [states stream]
    split
    next listed =>
      obtain ⟨id, here⟩ := (mem_streams c stream).mp listed
      rw [(held.streams stream peer id).mpr ⟨c.line, lines_found found, here⟩]
      simp [Option.filter]
    next unlisted =>
      show t.board.places stream = _
      cases placed : t.board.places stream with
      | none => rfl
      | some place =>
        obtain ⟨addr, id⟩ := place
        have apart : addr ≠ peer := by
          rintro rfl
          obtain ⟨line, there, here⟩ := (held.streams stream addr id).mp placed
          rw [lines_found found] at there
          cases there
          exact unlisted ((mem_streams c stream).mpr ⟨id, here⟩)
        simp [Option.filter, apart]

theorem steady_removeConnection (held : Isolated t.board) (peer : SocketAddr) :
    Steady t.board (t.removeConnection peer).board := by
  unfold removeConnection
  cases found : t.connections[peer]? with
  | none => exact .refl held
  | some c =>
    dsimp only
    rw [board_disconnect held found]
    exact steady_disconnect held (lines_found found)

/-! ### Streams -/

/-- Of a connection only the ids on offer change. -/
theorem steady_offered (held : Isolated t.board) (found : t.connections[peer]? = some c)
    (handle : c'.handle = c.handle) (streams : c'.streams = c.streams)
    (distinct : (c'.conn.acceptable ++ c'.conn.openable).Nodup)
    (unused : ∀ id ∈ c'.conn.acceptable ++ c'.conn.openable, c.streams[id]? = none) :
    Steady t.board (t.setConnection peer c').board := by
  have line : c'.line = { c.line with offers := c'.conn.acceptable ++ c'.conn.openable } := by
    rw [QuicConnection.line, QuicConnection.line, handle, streams]
  rw [board_setConnection, line]
  exact steady_offer held (lines_found found) distinct unused

/-- A stream that is refused, or comes before its peer is known, leaves the transport as it was. -/
theorem acceptStream_cases (found : t.connections[peer]? = some c) (id : QuicStreamId) :
    t.acceptStream peer id = t ∨ ∃ event, t.acceptStream peer id = (t.allocateStream peer c id).pushStreamEvent event := by
  unfold acceptStream
  rw [found]
  dsimp only
  split
  · exact .inl rfl
  split
  · exact .inl rfl
  · exact .inr ⟨_, rfl⟩

theorem steady_acceptStream_foldl (ids : List QuicStreamId) (held : Isolated t.board)
    (found : t.connections[peer]? = some c) (distinct : ids.Nodup) (unused : ∀ id ∈ ids, c.streams[id]? = none)
    (taken : ∀ id ∈ ids, id ∉ c.line.offers) :
    Steady t.board (ids.foldl (fun t id => t.acceptStream peer id) t).board := by
  induction ids generalizing t c with
  | nil => exact .refl held
  | cons id rest ih =>
    obtain ⟨fresh, distinct⟩ := List.nodup_cons.mp distinct
    have first := unused id (List.mem_cons_self ..)
    have gone := taken id (List.mem_cons_self ..)
    have later : ∀ key ∈ rest, c.streams[key]? = none := fun key member => unused key (List.mem_cons_of_mem _ member)
    have away : ∀ key ∈ rest, key ∉ c.line.offers := fun key member => taken key (List.mem_cons_of_mem _ member)
    rw [List.foldl_cons]
    rcases acceptStream_cases found id with refused | ⟨event, accepted⟩
    · rw [refused]
      exact ih held found distinct later away
    · rw [accepted]
      have allocated : Steady t.board ((t.allocateStream peer c id).pushStreamEvent event).board := by
        show Steady t.board (t.allocateStream peer c id).board
        rw [board_allocate]
        exact steady_allocate held (lines_found found) first gone
      have there : ((t.allocateStream peer c id).pushStreamEvent event).connections[peer]? =
          some { c with streams := c.streams.insert id t.nextStream } := found_setConnection t peer _
      refine allocated.trans (ih allocated.isolated there distinct (fun key member => ?_) away)
      have apart : id ≠ key := by
        rintro rfl
        exact fresh member
      rw [TreeMap.getElem?_insert, if_neg (by simpa using apart)]
      exact later key member

theorem steady_acceptStreams (held : Isolated t.board) (peer : SocketAddr) :
    Steady t.board (t.acceptStreams peer).board := by
  unfold acceptStreams
  cases found : t.connections[peer]? with
  | none => exact .refl held
  | some c =>
    obtain ⟨distinct, unused⟩ := held.offered peer c.line (lines_found found)
    obtain ⟨accepted, openable, apart⟩ := List.nodup_append.mp distinct
    have emptied : Steady t.board
        (t.setConnection peer { c with conn := { c.conn with acceptable := [] } }).board :=
      steady_offered held found rfl rfl openable (fun id member => unused id (List.mem_append_right _ member))
    refine emptied.trans (steady_acceptStream_foldl _ emptied.isolated (found_setConnection t peer _) accepted ?_ ?_)
    · exact fun id member => unused id (List.mem_append_left _ member)
    · exact fun id member offered => apart id member id offered rfl

/-- The connection a live stream is recorded on, with the id it has there. -/
theorem listed_of_live (held : Isolated t.board) {stream : OverlayStreamId} {state : StreamState}
    (live : t.streamStates[stream]? = some state) :
    ∃ c, t.connections[state.peerAddr]? = some c ∧ c.streams[state.quicId]? = some stream := by
  have placed : t.board.places stream = some (state.peerAddr, state.quicId) := by
    simp [board, live]
  obtain ⟨line, found, listed⟩ := (held.streams _ _ _).mp placed
  obtain ⟨c, there, rfl⟩ := Option.map_eq_some_iff.mp found
  exact ⟨c, there, listed⟩

theorem steady_release_stream (held : Isolated t.board) {id : QuicStreamId} {stream : OverlayStreamId}
    (found : t.connections[peer]? = some c) (listed : c.streams[id]? = some stream) :
    Steady t.board ({ t with streamStates := t.streamStates.erase stream }.setConnection peer
      { c with streams := c.streams.erase id }).board := by
  rw [board_release]
  exact steady_release held (lines_found found) listed

theorem steady_reapStream (held : Isolated t.board) (stream : OverlayStreamId) :
    Steady t.board (t.reapStream stream).board := by
  unfold reapStream
  cases live : t.streamStates[stream]? with
  | none => exact .refl held
  | some state =>
    obtain ⟨c, found, listed⟩ := listed_of_live held live
    dsimp only
    split
    · rw [found]
      exact steady_release_stream held found listed
    · exact .refl held

theorem steady_readStream (held : Isolated t.board) (peer : SocketAddr) (id : QuicStreamId) :
    Steady t.board (t.readStream peer id).board := by
  unfold readStream
  cases found : t.connections[peer]? with
  | none => exact .refl held
  | some c =>
    dsimp only
    split
    next stream conn bytes ending _ answer =>
      obtain ⟨left, same⟩ := c.conn.read_spec id
      rw [answer] at same
      dsimp only at same
      have first : (t.setConnection peer { c with conn := conn }).board = t.board := by
        refine board_sameLine found ?_
        rw [same]
        rfl
      have second : (if bytes.isEmpty then t.setConnection peer { c with conn := conn }
          else (t.setConnection peer { c with conn := conn }).pushStreamEvent (.data stream bytes)).board = t.board := by
        split
        · exact first
        · exact first
      split
      · exact steady_of_eq held second
      next event _ =>
        generalize (if bytes.isEmpty then t.setConnection peer { c with conn := conn }
          else (t.setConnection peer { c with conn := conn }).pushStreamEvent (.data stream bytes)) = read at second
        have done := (board_recvDone read stream).trans second
        rw [← done]
        refine steady_reapStream (t := { read with
          streamStates := read.streamStates.modify stream (fun state => { state with recvDone := true })
          }.pushStreamEvent event) ?_ stream
        show Isolated (OverlayQuicTransport.board { read with
          streamStates := read.streamStates.modify stream (fun state => { state with recvDone := true }) })
        rw [done]
        exact held
    next => exact .refl held

theorem steady_failStream (held : Isolated t.board) (peer : SocketAddr) (id : QuicStreamId) :
    Steady t.board (t.failStream peer id).board := by
  unfold failStream
  cases found : t.connections[peer]? with
  | none => exact .refl held
  | some c =>
    dsimp only
    cases listed : c.streams[id]? with
    | none => exact .refl held
    | some stream =>
      have placed := (held.streams stream peer id).mpr ⟨c.line, lines_found found, listed⟩
      have live : stream ∈ t.streamStates := by
        obtain ⟨state, there, _⟩ := Option.map_eq_some_iff.mp placed
        exact TreeMap.mem_iff_isSome_getElem?.mpr (by rw [there]; rfl)
      dsimp only
      split
      · exact steady_release_stream held found listed
      next dead => exact (dead live).elim

theorem steady_flushStream (held : Isolated t.board) (stream : OverlayStreamId) :
    Steady t.board (t.flushStream stream).board := by
  unfold flushStream
  cases live : t.streamStates[stream]? with
  | none => exact .refl held
  | some state =>
    obtain ⟨c, found, listed⟩ := listed_of_live held live
    dsimp only
    rw [found]
    dsimp only
    obtain ⟨left, same⟩ := c.conn.writeAll_spec state.sendBuf
    have written : (t.setConnection state.peerAddr { c with conn := (c.conn.writeAll state.sendBuf).1 }).board =
        t.board := by
      refine board_sameLine found ?_
      rw [same]
      rfl
    have still : (t.setConnection state.peerAddr { c with conn := (c.conn.writeAll state.sendBuf).1 }).streamStates[
        stream]? = some state := live
    split
    · have restated := (board_restated still
        { state with sendBuf := (c.conn.writeAll state.sendBuf).2.1, finDone := true } rfl rfl).trans written
      rw [← restated]
      exact steady_reapStream (by rw [restated]; exact held) stream
    · have restated := board_restated still { state with sendBuf := (c.conn.writeAll state.sendBuf).2.1 } rfl rfl
      exact steady_of_eq held (restated.trans written)

theorem steady_handleStreamEvent (held : Isolated t.board) (peer : SocketAddr) (event : QuinnStreamEvent) :
    Steady t.board (t.handleStreamEvent peer event).board := by
  cases event with
  | openedBi => exact steady_acceptStreams held peer
  | openedUni => exact .refl held
  | readable id => exact steady_readStream held peer id
  | writable id =>
    unfold handleStreamEvent
    dsimp only
    split
    · exact steady_flushStream held _
    · exact .refl held
  | finished id => exact .refl held
  | stopped id => exact steady_failStream held peer id
  | available => exact .refl held

theorem steady_openStream (held : Isolated t.board) (pubkey : Pubkey) : Steady t.board (t.openStream pubkey).board := by
  unfold openStream
  split
  · exact .refl held
  split
  · exact .refl held
  next addr c located =>
    split
    next id rest established openable =>
      obtain ⟨indexed, _, here⟩ := Option.bind_eq_some_iff.mp located
      obtain ⟨found, there, pair⟩ := Option.map_eq_some_iff.mp here
      cases pair
      obtain ⟨distinct, unused⟩ := held.offered addr c.line (lines_found there)
      have offers : c.line.offers = c.conn.acceptable ++ id :: rest := by
        rw [← openable]
        rfl
      rw [offers] at distinct unused
      obtain ⟨away, fewer⟩ := List.nodup_cons.mp (List.nodup_middle.mp distinct)
      have granted : Steady t.board (t.setConnection addr { c with conn := { c.conn with openable := rest } }).board := by
        refine steady_offered held there rfl rfl fewer (fun key member => unused key ?_)
        rcases List.mem_append.mp member with accepted | opened
        · exact List.mem_append_left _ accepted
        · exact List.mem_append_right _ (List.mem_cons_of_mem _ opened)
      have twice : (t.allocateStream addr { c with conn := { c.conn with openable := rest } } id).board =
          allocate (t.setConnection addr { c with conn := { c.conn with openable := rest } }).board addr
            { c.line with offers := c.conn.acceptable ++ rest } id := by
        rw [board_allocate, board_setConnection, allocate, allocate, Function.update_idem]
        rfl
      rw [twice]
      refine granted.trans (steady_allocate granted.isolated ?_ (unused id ?_) away)
      · exact lines_found (found_setConnection t addr _)
      · exact List.mem_append_right _ (List.mem_cons_self ..)
    next => exact .refl held

/-! ### Driving -/

theorem flushPending_line (c : QuicConnection ν) : c.flushPending.1.line = c.line := by
  obtain ⟨answers, left, _, same⟩ := c.flushPending_spec
  rw [same]
  rfl

theorem pumped_line (c : QuicConnection ν) : (pumped c).line = c.line := flushPending_line c

theorem steady_handleAppEvent (held : Isolated t.board) (entry : SocketAddr × QuinnEvent) :
    Steady t.board (t.handleAppEvent entry).1.board := by
  obtain ⟨peer, event⟩ := entry
  unfold handleAppEvent handleConnectionEvent
  split
  · exact steady_handleStreamEvent held peer _
  cases found : t.connections[peer]? with
  | none => exact .refl held
  | some c =>
    dsimp only
    split
    · exact steady_of_eq held (board_sameLine found rfl)
    · refine steady_of_eq held ?_
      exact board_sameLine found (flushPending_line
        { c with established := true, peerPubkey := c.peerPubkey.or c.conn.identity })
    · exact steady_of_eq held (board_sameLine found rfl)
    · exact steady_of_eq held (board_sameLine found (flushPending_line c))
    · exact steady_removeConnection (t := t.pushEvent _) held peer
    · exact .refl held

theorem steady_drive (held : Isolated t.board) : Steady t.board t.drive.1.board := by
  have pumping : { t with connections := t.connections.map (fun _ c => pumped c) }.board = t.board := by
    refine Board.ext rfl ?_ rfl rfl
    funext addr
    simp [board, Function.comp_def, pumped_line]
  show Steady t.board (run handleAppEvent
    { t with connections := t.connections.map (fun _ c => pumped c) } t.appEvents).1.board
  refine run_invariant (P := fun t' : OverlayQuicTransport ν => Steady t.board t'.board) (steady_of_eq held pumping)
    (fun current entry steady _ => steady.trans (steady_handleAppEvent steady.isolated entry)) _ (meets_true _)

/-! ### Calls -/

/-- What quinn grants a connection later: ids it has not given before. -/
def grants (c : QuicConnection ν) (next : QuinnConn ν) : Bool :=
  decide (next.acceptable ++ next.openable).Nodup &&
    (next.acceptable ++ next.openable).all (fun id => (c.streams[id]?).isNone)

def evolves (t : OverlayQuicTransport ν) (peer : SocketAddr) (next : QuinnConn ν) : Bool :=
  (t.connections[peer]?).all (fun c => grants c next)

/-- What quinn promises of handles and stream ids, for the call at hand. -/
def lawful (t : OverlayQuicTransport ν) : Op ν → Bool
  | .queueDatagram _ _ dialed | .queueDatagramExpecting _ _ _ dialed | .dialExpecting _ _ dialed
  | .dialExpectingFrom _ _ _ dialed => t.freshHandle dialed
  | .onDatagram (.newConnection _ _ accepted) => t.freshHandle accepted
  | .onDatagram (.connectionEvent handle next) => (t.handles[handle]?).all (fun peer => t.evolves peer next)
  | .onTimer due _ => due.all (fun entry => t.evolves entry.1 entry.2)
  | _ => true

def Lawful (t : OverlayQuicTransport ν) (op : Op ν) : Prop := t.lawful op = true

instance (t : OverlayQuicTransport ν) (op : Op ν) : Decidable (Lawful t op) := instDecidableEqBool (t.lawful op) true

/-- A connection is accepted only from an address that has none. -/
def vacant (t : OverlayQuicTransport ν) : Op ν → Bool
  | .onDatagram (.newConnection peer _ (some _)) => maxConnections ≤ t.connections.size || (t.connections[peer]?).isNone
  | _ => true

def Vacant (t : OverlayQuicTransport ν) (op : Op ν) : Prop := t.vacant op = true

instance (t : OverlayQuicTransport ν) (op : Op ν) : Decidable (Vacant t op) := instDecidableEqBool (t.vacant op) true

theorem steady_evolve (held : Isolated t.board) (found : t.connections[peer]? = some c) {next : QuinnConn ν}
    (promised : t.evolves peer next = true) :
    Steady t.board (t.setConnection peer { c with conn := c.conn.evolve next }).board := by
  rw [evolves, found, Option.all_some, grants, Bool.and_eq_true, decide_eq_true_eq, List.all_eq_true] at promised
  obtain ⟨distinct, unused⟩ := promised
  exact steady_offered held found rfl rfl distinct (fun id member => Option.isNone_iff_eq_none.mp (unused id member))

theorem steady_handleDatagramEvent (held : Isolated t.board) {event : DatagramEvent ν}
    (law : Lawful t (.onDatagram event)) (free : Vacant t (.onDatagram event)) :
    Steady t.board (t.handleDatagramEvent event).board := by
  cases event with
  | connectionEvent handle next =>
    have promised : (t.handles[handle]?).all (fun peer => t.evolves peer next) = true := law
    show Steady t.board (t.handleConnectionEventForHandle handle next).board
    unfold handleConnectionEventForHandle
    cases known : t.handles[handle]? with
    | some peer =>
      rw [known] at promised
      dsimp only
      cases found : t.connections[peer]? with
      | some c => exact steady_evolve held found promised
      | none => exact .refl held
    | none =>
      dsimp only
      split
      · exact steady_of_eq held rfl
      · exact .refl held
  | newConnection peer socket accepted =>
    unfold handleDatagramEvent
    dsimp only
    split
    · exact .refl held
    next below =>
      cases accepted with
      | none => exact .refl held
      | some pair =>
        have absent : t.connections[peer]? = none := by simpa [Vacant, vacant, below] using free
        exact steady_newConnection held absent law _
  | nothing => exact .refl held

def timedOut (t : OverlayQuicTransport ν) (peer : SocketAddr) (next : QuinnConn ν) : OverlayQuicTransport ν :=
  { t with connections := t.connections.modify peer (fun c => { c with conn := c.conn.evolve next }) }

theorem evolves_timedOut (t : OverlayQuicTransport ν) (peer addr : SocketAddr) (next later : QuinnConn ν) :
    (t.timedOut peer next).evolves addr later = t.evolves addr later := by
  by_cases here : peer = addr
  · subst here
    cases found : t.connections[peer]? with
    | none => simp [timedOut, evolves, found]
    | some c => simp [timedOut, evolves, found, grants]
  · simp [timedOut, evolves, TreeMap.getElem?_modify, here]

theorem steady_timedOut (held : Isolated t.board) {next : QuinnConn ν} (promised : t.evolves peer next = true) :
    Steady t.board (t.timedOut peer next).board := by
  cases found : t.connections[peer]? with
  | none =>
    refine steady_of_eq held (Board.ext rfl ?_ rfl rfl)
    funext addr
    by_cases here : peer = addr
    · subst here
      simp [board, timedOut, found]
    · simp [board, timedOut, TreeMap.getElem?_modify, here]
  | some c =>
    have same : (t.timedOut peer next).board = (t.setConnection peer { c with conn := c.conn.evolve next }).board := by
      refine Board.ext rfl ?_ rfl rfl
      funext addr
      by_cases here : peer = addr
      · subst here
        simp [board, timedOut, found, setConnection]
      · simp [board, timedOut, setConnection, TreeMap.getElem?_insert, TreeMap.getElem?_modify, here]
    rw [same]
    exact steady_evolve held found promised

theorem steady_handleTimeouts (held : Isolated t.board) {due : List (SocketAddr × QuinnConn ν)}
    {dueProbes : List (ProbeId × QuinnConn ν)} (law : Lawful t (.onTimer due dueProbes)) :
    Steady t.board (t.handleTimeouts due dueProbes).board := by
  have promised : ∀ entry ∈ due, t.evolves entry.1 entry.2 = true := List.all_eq_true.mp law
  show Steady t.board (OverlayQuicTransport.board { t with connections := due.foldl (fun connections entry =>
    connections.modify entry.1 (fun c => { c with conn := c.conn.evolve entry.2 })) t.connections })
  clear law
  induction due generalizing t with
  | nil => exact .refl held
  | cons entry rest ih =>
    obtain ⟨peer, next⟩ := entry
    have first := steady_timedOut held (promised (peer, next) (List.mem_cons_self ..))
    refine first.trans (ih (t := t.timedOut peer next) first.isolated (fun entry member => ?_))
    rw [evolves_timedOut]
    exact promised entry (List.mem_cons_of_mem _ member)

theorem board_handleProbeEvent (t : OverlayQuicTransport ν) (probe : ProbeId) (event : QuinnEvent) :
    (t.handleProbeEvent probe event).board = t.board := by
  unfold handleProbeEvent
  split
  · rfl
  dsimp only
  split
  · split
    · rfl
    · rfl
  · split
    · rfl
    · rfl
  · rfl
  · rfl

theorem board_driveProbes (t : OverlayQuicTransport ν) : t.driveProbes.board = t.board := by
  have each : ∀ (events : List (ProbeId × QuinnEvent)) (current : OverlayQuicTransport ν),
      (events.foldl (fun t entry => t.handleProbeEvent entry.1 entry.2) current).board = current.board := by
    intro events
    induction events with
    | nil => exact fun _ => rfl
    | cons entry rest ih => exact fun current => (ih _).trans (board_handleProbeEvent current entry.1 entry.2)
  exact each _ _

theorem steady_dialAnd (held : Isolated t.board) {socket : Option SocketId}
    {dialed : Option (ConnectionHandle × QuinnConn ν)} (fresh : t.freshHandle dialed = true)
    {f : QuicConnection ν → QuicConnection ν} (same : ∀ c, (f c).line = c.line) :
    Steady t.board (t.dialAnd peer socket dialed f).1.board := by
  unfold dialAnd
  cases dialing : t.ensureConnection peer socket dialed with
  | none => exact .refl held
  | some t' =>
    have first := steady_ensureConnection held fresh dialing
    have second : (t'.withConnection peer f).board = t'.board := by
      unfold withConnection
      cases found : t'.connections[peer]? with
      | none => rfl
      | some c => exact board_sameLine found (same c)
    have driven : Steady t.board (t'.withConnection peer f).board := by
      rw [second]
      exact first
    exact driven.trans (steady_drive driven.isolated)

theorem steady_flushed (held : Isolated t.board) {stream : OverlayStreamId} {state state' : StreamState}
    (live : t.streamStates[stream]? = some state) (peerAddr : state'.peerAddr = state.peerAddr)
    (quicId : state'.quicId = state.quicId) :
    Steady t.board
      ({ t with streamStates := t.streamStates.insert stream state' }.flushStream stream).drive.1.board := by
  have restated := board_restated live state' peerAddr quicId
  rw [← restated]
  have flushed := steady_flushStream (by rw [restated]; exact held) stream
  exact flushed.trans (steady_drive flushed.isolated)

theorem steady_resetStream (held : Isolated t.board) (stream : OverlayStreamId) :
    Steady t.board (t.resetStream stream).1.board := by
  unfold resetStream
  cases live : t.streamStates[stream]? with
  | none => exact .refl held
  | some state =>
    obtain ⟨c, found, listed⟩ := listed_of_live held live
    dsimp only
    rw [found]
    have released := steady_release_stream held found listed
    exact released.trans (steady_drive released.isolated)

theorem steady_step (held : Isolated t.board) {op : Op ν} (law : Lawful t op) (free : Vacant t op) :
    Steady t.board (t.step op).1.board := by
  cases op with
  | queueDatagram dest payload dialed => exact steady_dialAnd held law (fun _ => rfl)
  | queueDatagramToPeer pubkey payload =>
    show Steady t.board (t.queueDatagramToPeer pubkey payload).1.board
    unfold queueDatagramToPeer
    split
    · exact .refl held
    next addr _ =>
      cases found : t.connections[addr]? with
      | none => exact .refl held
      | some c =>
        have queued : Steady t.board (t.setConnection addr (c.queue payload)).board :=
          steady_of_eq held (board_sameLine found rfl)
        exact queued.trans (steady_drive queued.isolated)
  | queueDatagramExpecting dest expected payload dialed => exact steady_dialAnd held law (fun _ => rfl)
  | dialExpecting dest expected dialed => exact steady_dialAnd held law (fun _ => rfl)
  | dialExpectingFrom socket dest expected dialed => exact steady_dialAnd held law (fun _ => rfl)
  | dropConnection addr => exact steady_removeConnection held addr
  | onDatagram event =>
    show Steady t.board (t.handleDatagramEvent event).drive.1.driveProbes.board
    rw [board_driveProbes]
    have taken := steady_handleDatagramEvent held law free
    exact taken.trans (steady_drive taken.isolated)
  | onTimer due dueProbes =>
    show Steady t.board (t.handleTimeouts due dueProbes).drive.1.driveProbes.board
    rw [board_driveProbes]
    have timed := steady_handleTimeouts held law
    exact timed.trans (steady_drive timed.isolated)
  | openStream pubkey => exact steady_openStream held pubkey
  | writeStream stream bytes =>
    show Steady t.board (t.writeStream stream bytes).1.board
    unfold writeStream
    cases live : t.streamStates[stream]? with
    | none => exact .refl held
    | some state =>
      dsimp only
      split
      · exact .refl held
      · exact steady_flushed held live rfl rfl
  | finishStream stream =>
    show Steady t.board (t.finishStream stream).1.board
    unfold finishStream
    cases live : t.streamStates[stream]? with
    | none => exact .refl held
    | some state => exact steady_flushed held live rfl rfl
  | resetStream stream => exact steady_resetStream held stream
  | startProbe socket addr dialed =>
    show Steady t.board (t.startProbe socket addr dialed).1.board
    unfold startProbe
    split
    · exact .refl held
    split
    · exact .refl held
    · exact steady_of_eq held (board_driveProbes _)
  | closeProbe probe =>
    show Steady t.board (t.closeProbe probe).board
    unfold closeProbe
    split
    · exact .refl held
    · exact .refl held
  | registerPunchSocket socket => exact .refl held
  | unregisterPunchSocket socket => exact .refl held
  | pollInbound => exact .refl held
  | pollEvent => exact .refl held
  | pollStreamEvent => exact .refl held
  | pollProbeEvent => exact .refl held

/-! ### Runs -/

/-- The two pairs of directories agree. -/
structure StreamsIsolated (t : OverlayQuicTransport ν) : Prop where
  handles : ∀ (handle : ConnectionHandle) (addr : SocketAddr),
    t.handles[handle]? = some addr ↔ ∃ c, t.connections[addr]? = some c ∧ c.handle = handle
  streams : ∀ (stream : OverlayStreamId) (addr : SocketAddr) (id : QuicStreamId),
    (∃ state, t.streamStates[stream]? = some state ∧ state.peerAddr = addr ∧ state.quicId = id) ↔
      ∃ c, t.connections[addr]? = some c ∧ c.streams[id]? = some stream

/-- The connection, by its handle, and the stream of it that the operations on `stream` act on. -/
def names (t : OverlayQuicTransport ν) (stream : OverlayStreamId) : Option (ConnectionHandle × QuicStreamId) :=
  (t.streamStates[stream]?).bind (fun state =>
    (t.connections[state.peerAddr]?).map (fun c => (c.handle, state.quicId)))

theorem streamsIsolated_of_board (held : Isolated t.board) : StreamsIsolated t := by
  refine ⟨fun handle addr => ?_, fun stream addr id => ?_⟩
  · refine (held.handles handle addr).trans ?_
    simp only [board, Option.map_eq_some_iff]
    constructor
    · rintro ⟨_, ⟨c, found, rfl⟩, own⟩
      exact ⟨c, found, own⟩
    · rintro ⟨c, found, own⟩
      exact ⟨c.line, ⟨c, found, rfl⟩, own⟩
  · have both := held.streams stream addr id
    simp only [board, Option.map_eq_some_iff, Prod.mk.injEq] at both
    refine both.trans ?_
    constructor
    · rintro ⟨_, ⟨c, found, rfl⟩, listed⟩
      exact ⟨c, found, listed⟩
    · rintro ⟨c, found, listed⟩
      exact ⟨c.line, ⟨c, found, rfl⟩, listed⟩

theorem names_eq (t : OverlayQuicTransport ν) (stream : OverlayStreamId) :
    t.names stream =
      (t.board.places stream).bind (fun place => (handleAt t.board place.1).map (fun handle => (handle, place.2))) := by
  unfold names
  cases live : t.streamStates[stream]? with
  | none => simp [board, live]
  | some state => simp [board, live, handleAt, Function.comp_def, QuicConnection.line]

theorem names_of_steady (steady : Steady t.board t'.board) {stream : OverlayStreamId} (old : stream < t.nextStream) :
    t'.names stream = none ∨ t'.names stream = t.names stream := by
  rw [names_eq, names_eq]
  cases placed : t'.board.places stream with
  | none => exact .inl rfl
  | some place =>
    rcases steady.stays stream place placed with fresh | ⟨before, same⟩
    · exact (Nat.lt_irrefl _ (Nat.lt_of_lt_of_le old fresh)).elim
    · rw [before, Option.bind_some, Option.bind_some, same]
      exact .inr rfl

theorem isolated_new (socket : SocketId) (socketV6 : Option SocketId) :
    Isolated (OverlayQuicTransport.new socket socketV6 : OverlayQuicTransport ν).board where
  handles handle addr := by simp [board, OverlayQuicTransport.new]
  streams stream addr id := by simp [board, OverlayQuicTransport.new]
  numbered stream place placed := by simp [board, OverlayQuicTransport.new] at placed
  offered addr line found := by simp [board, OverlayQuicTransport.new] at found

theorem steady_run (held : Isolated t.board) (ops : List (Op ν))
    (met : Meets step (fun t op => Lawful t op ∧ Vacant t op) t ops) :
    Steady t.board (run step t ops).1.board :=
  run_invariant (P := fun t' : OverlayQuicTransport ν => Steady t.board t'.board) (.refl held)
    (fun _ _ steady here => steady.trans (steady_step steady.isolated here.1 here.2)) ops met

/-- Every stream allotted so far is gone later, or leads to the same stream of the same connection. -/
theorem streams_isolated (socket : SocketId) (socketV6 : Option SocketId) (before after : List (Op ν))
    (met : Meets step (fun t op => Lawful t op ∧ Vacant t op) (OverlayQuicTransport.new socket socketV6) (before ++ after)) :
    let earlier := (run step (OverlayQuicTransport.new socket socketV6) before).1
    let later := (run step (OverlayQuicTransport.new socket socketV6) (before ++ after)).1
    StreamsIsolated later ∧
    ∀ stream < earlier.nextStream, later.names stream = none ∨ later.names stream = earlier.names stream := by
  intro earlier later
  obtain ⟨first, second⟩ := (meets_append before after).mp met
  have reached := steady_run (isolated_new socket socketV6) before first
  have onward : Steady earlier.board later.board := by
    have same : later = (run step earlier after).1 := by
      show (run step _ (before ++ after)).1 = _
      rw [run_append]
    rw [same]
    exact steady_run reached.isolated after second
  exact ⟨streamsIsolated_of_board onward.isolated, fun stream old => names_of_steady onward old⟩

def peerAddress : SocketAddr := ⟨.v4 0xC0000207, 8001⟩

def otherAddress : SocketAddr := ⟨.v4 0xC0000208, 8001⟩

/-- The peer is dialed, proves to be identity 1, and a stream is opened to it. -/
def openedStream : List (Op Nat) :=
  [.dialExpecting peerAddress 1 (some (0, QuinnConn.idle)),
    .onDatagram (.connectionEvent 0 { QuinnConn.idle with
      identity := some 1
      events := [.handshakeDataReady, .connected]
      openable := [4] }),
    .openStream 1]

def acceptsFrom (peer : SocketAddr) : List (Op Nat) :=
  [.onDatagram (.newConnection peer 0 (some (1, QuinnConn.idle))), .writeStream 0 [7]]

theorem streams_isolated_other_address :
    let earlier := (run step (OverlayQuicTransport.new 0 none) openedStream).1
    let later := (run step (OverlayQuicTransport.new 0 none) (openedStream ++ acceptsFrom otherAddress)).1
    Meets step (fun t op => Lawful t op ∧ Vacant t op) (OverlayQuicTransport.new 0 none)
      (openedStream ++ acceptsFrom otherAddress) ∧
    0 < earlier.nextStream ∧ later.names 0 = some (0, 4) ∧ StreamsIsolated later ∧
    ∀ stream < earlier.nextStream, later.names stream = none ∨ later.names stream = earlier.names stream :=
  ⟨by decide +kernel, by decide +kernel, by decide +kernel,
    streams_isolated 0 none openedStream (acceptsFrom otherAddress) (by decide +kernel)⟩

/-- A second connection from the address takes the place of the first, whose handle and stream stay on record: a write
to the stream reaches the new connection. -/
theorem stream_of_replaced_connection :
    let earlier := (run step (OverlayQuicTransport.new 0 none) openedStream).1
    let later := (run step (OverlayQuicTransport.new 0 none) (openedStream ++ acceptsFrom peerAddress)).1
    Meets step Lawful (OverlayQuicTransport.new 0 none) (openedStream ++ acceptsFrom peerAddress) ∧
    ¬ StreamsIsolated later ∧ earlier.names 0 = some (0, 4) ∧ later.names 0 = some (1, 4) := by
  intro earlier later
  refine ⟨by decide +kernel, fun held => ?_, by decide +kernel, by decide +kernel⟩
  have stale : later.handles[0]? = some peerAddress := by decide +kernel
  obtain ⟨c, found, own⟩ := (held.handles 0 peerAddress).mp stale
  have replaced : (later.connections[peerAddress]?).map QuicConnection.handle = some 1 := by decide +kernel
  rw [found, Option.map_some, own] at replaced
  cases replaced

end OverlayQuicTransport

end Lightbringer.Overlay
