import Lightbringer.Overlay.Transport
import Lightbringer.Lib.Entries
import Mathlib.Data.Nat.Basic
import Mathlib.Order.Basic

/-!
# The tables of the transport

How many connections, streams and probes there can be, and how much waits for a connection. Every way to add one looks
at the size of its table first, and the rest replaces or removes.
-/

namespace Lightbringer.Overlay
open Std Machine

variable {ν : Type}

theorem length_pushBounded {α : Type} {queue : List α} {cap : Nat} (short : queue.length ≤ cap) (room : 0 < cap)
    (value : α) : (pushBounded queue value cap).length ≤ cap := by
  unfold pushBounded
  rw [List.length_append, List.length_singleton]
  split
  · rw [List.length_drop]
    omega
  · omega

/-- What quinn did not take is left. -/
theorem QuinnConn.length_sendAll (conn : QuinnConn ν) (pending : List ν) :
    (conn.sendAll pending).2.1.length ≤ pending.length := by
  induction pending generalizing conn with
  | nil => exact Nat.le_refl 0
  | cons payload rest ih =>
    unfold sendAll
    rcases conn.send with ⟨next, _ | _ | _⟩
    · exact Nat.le_trans (ih next) (Nat.le_succ _)
    · exact Nat.le_refl _
    · exact Nat.le_trans (ih next) (Nat.le_succ _)

theorem QuicConnection.length_flushPending (c : QuicConnection ν) : c.flushPending.1.pending.length ≤ c.pending.length := by
  unfold flushPending
  split
  · exact Nat.le_refl _
  split
  · exact Nat.zero_le _
  · exact c.conn.length_sendAll c.pending

section
variable {κ α β : Type} [Ord κ] [TransOrd κ]

theorem size_foldl_modify (due : List (κ × β)) (m : TreeMap κ α) (f : β → α → α) :
    (due.foldl (fun m (k, x) => m.modify k (f x)) m).size = m.size := by
  induction due generalizing m with
  | nil => rfl
  | cons entry rest ih => exact (ih _).trans TreeMap.size_modify

theorem foldl_modify_forall [LawfulEqOrd κ] [DecidableEq κ] {P : α → Prop} {f : β → α → α} (due : List (κ × β))
    (keep : ∀ x v, P v → P (f x v)) {m : TreeMap κ α} (holds : ∀ (k : κ) v, m[k]? = some v → P v) :
    ∀ (k : κ) v, (due.foldl (fun m (k, x) => m.modify k (f x)) m)[k]? = some v → P v := by
  induction due generalizing m with
  | nil => exact holds
  | cons entry rest ih =>
    refine ih (fun k v found => ?_)
    rw [Entries.getElem?_modify] at found
    split at found
    · obtain ⟨before, there, rfl⟩ := Option.map_eq_some_iff.mp found
      exact keep _ _ (holds _ before there)
    · exact holds k v found

end

namespace OverlayQuicTransport

/-- No table is over its limit. -/
structure Capped (t : OverlayQuicTransport ν) : Prop where
  connections : t.connections.size ≤ maxConnections
  streams : t.streamStates.size ≤ maxStreamStates
  probes : t.probes.size ≤ maxProbes
  pending : ∀ (addr : SocketAddr) (c : QuicConnection ν), t.connections[addr]? = some c → c.pending.length ≤ maxPendingDatagrams

variable {t : OverlayQuicTransport ν} {peer : SocketAddr} {c c' : QuicConnection ν}

theorem capped_new (socket : SocketId) (socketV6 : Option SocketId) : (new socket socketV6 : OverlayQuicTransport ν).Capped := by
  refine ⟨Nat.zero_le _, Nat.zero_le _, Nat.zero_le _, fun addr c found => ?_⟩
  rw [new, TreeMap.getElem?_emptyc] at found
  cases found

theorem pending_setConnection (capped : t.Capped) (short : c.pending.length ≤ maxPendingDatagrams) (addr : SocketAddr)
    (other : QuicConnection ν) (found : (t.setConnection peer c).connections[addr]? = some other) :
    other.pending.length ≤ maxPendingDatagrams := by
  rw [setConnection, Entries.getElem?_insert] at found
  split at found
  · cases found
    exact short
  · exact capped.pending addr other found

theorem capped_setConnection (capped : t.Capped) (found : t.connections[peer]? = some c)
    (short : c'.pending.length ≤ maxPendingDatagrams) : (t.setConnection peer c').Capped := by
  refine ⟨?_, capped.streams, capped.probes, pending_setConnection capped short⟩
  refine (Entries.size_le (fun addr present => ?_)).trans capped.connections
  rw [setConnection, Entries.getElem?_insert] at present
  split at present
  next here =>
    rw [← here, found]
    rfl
  · exact present

/-- A connection begins with nothing pending. -/
theorem capped_addConnection (capped : t.Capped) (room : t.connections.size < maxConnections) (peer : SocketAddr)
    (handle : ConnectionHandle) (conn : QuinnConn ν) (socket : Option SocketId)
    (handles : TreeMap ConnectionHandle SocketAddr) :
    Capped { t.setConnection peer (QuicConnection.new handle conn socket) with handles := handles } :=
  ⟨TreeMap.size_insert_le.trans room, capped.streams, capped.probes, pending_setConnection capped (Nat.zero_le _)⟩

theorem capped_streamStates (capped : t.Capped) {states : TreeMap OverlayStreamId StreamState}
    (size : states.size ≤ t.streamStates.size) : Capped { t with streamStates := states } :=
  ⟨capped.connections, size.trans capped.streams, capped.probes, capped.pending⟩

theorem capped_restate (capped : t.Capped) {stream : OverlayStreamId} {state state' : StreamState}
    (found : t.streamStates[stream]? = some state) :
    Capped { t with streamStates := t.streamStates.insert stream state' } := by
  refine capped_streamStates capped (Entries.size_le (fun other present => ?_))
  rw [Entries.getElem?_insert] at present
  split at present
  next here =>
    rw [← here, found]
    rfl
  · exact present

theorem capped_eraseStream (capped : t.Capped) (stream : OverlayStreamId) :
    Capped { t with streamStates := t.streamStates.erase stream } := capped_streamStates capped TreeMap.size_erase_le

theorem capped_pushStreamEvent (capped : t.Capped) (event : StreamEvent) : (t.pushStreamEvent event).Capped :=
  ⟨capped.connections, capped.streams, capped.probes, capped.pending⟩

theorem capped_foldl {α : Type} {f : OverlayQuicTransport ν → α → OverlayQuicTransport ν}
    (each : ∀ t x, t.Capped → (f t x).Capped) (xs : List α) {t : OverlayQuicTransport ν} (capped : t.Capped) :
    (xs.foldl f t).Capped := by
  induction xs generalizing t with
  | nil => exact capped
  | cons x rest ih => exact ih (each t x capped)

/-! ### Streams -/

theorem capped_failStreams (capped : t.Capped) (streams : List OverlayStreamId) : (t.failStreams streams).Capped := by
  refine capped_foldl (fun t stream capped => ?_) streams capped
  split
  · exact capped_pushStreamEvent (capped_eraseStream capped stream) _
  · exact capped

theorem capped_removeConnection (capped : t.Capped) (peer : SocketAddr) : (t.removeConnection peer).Capped := by
  unfold removeConnection
  split
  · exact capped
  next lost there =>
    have erased : ∀ handles byPubkey, Capped { t with
        connections := t.connections.erase peer, handles := handles, byPubkey := byPubkey } := by
      intro handles byPubkey
      refine ⟨TreeMap.size_erase_le.trans capped.connections, capped.streams, capped.probes, fun addr c found => ?_⟩
      rw [Entries.getElem?_erase] at found
      split at found
      · cases found
      · exact capped.pending addr c found
    exact capped_failStreams (erased _ _) _

theorem capped_allocateStream (capped : t.Capped) (found : t.connections[peer]? = some c)
    (same : c'.pending = c.pending) (room : t.streamStates.size < maxStreamStates) (id : QuicStreamId) :
    (t.allocateStream peer c' id).Capped := by
  have set : (t.setConnection peer { c' with streams := c'.streams.insert id t.nextStream }).Capped :=
    capped_setConnection capped found (same ▸ capped.pending peer c found)
  exact ⟨set.connections, TreeMap.size_insert_le.trans room, set.probes, set.pending⟩

theorem capped_acceptStream (capped : t.Capped) (peer : SocketAddr) (id : QuicStreamId) :
    (t.acceptStream peer id).Capped := by
  unfold acceptStream
  split
  · exact capped
  next found =>
    split
    · exact capped
    split
    · exact capped
    next room =>
      exact capped_pushStreamEvent (capped_allocateStream capped found rfl (Nat.not_le.mp room) id) _

theorem capped_acceptStreams (capped : t.Capped) (peer : SocketAddr) : (t.acceptStreams peer).Capped := by
  unfold acceptStreams
  split
  · exact capped
  next c found =>
    exact capped_foldl (fun t id capped => capped_acceptStream capped peer id) _
      (capped_setConnection capped found (capped.pending peer c found))

theorem capped_reapStream (capped : t.Capped) (stream : OverlayStreamId) : (t.reapStream stream).Capped := by
  unfold reapStream
  split
  · exact capped
  split
  · dsimp only
    have erased := capped_eraseStream capped stream
    split
    · exact erased
    next c found => exact capped_setConnection erased found (capped.pending _ c found)
  · exact capped

theorem capped_readStream (capped : t.Capped) (peer : SocketAddr) (id : QuicStreamId) : (t.readStream peer id).Capped := by
  unfold readStream
  split
  · exact capped
  next c found =>
    split
    next stream conn bytes ending _ _ =>
      have read : (t.setConnection peer { c with conn := conn }).Capped :=
        capped_setConnection capped found (capped.pending peer c found)
      have pushed : (if bytes.isEmpty then t.setConnection peer { c with conn := conn }
          else (t.setConnection peer { c with conn := conn }).pushStreamEvent (.data stream bytes)).Capped := by
        split
        · exact read
        · exact capped_pushStreamEvent read _
      dsimp only
      split
      · exact pushed
      · refine capped_reapStream (capped_pushStreamEvent (capped_streamStates pushed ?_) _) stream
        exact Nat.le_of_eq TreeMap.size_modify
    · exact capped

theorem capped_failStream (capped : t.Capped) (peer : SocketAddr) (id : QuicStreamId) : (t.failStream peer id).Capped := by
  unfold failStream
  split
  · exact capped
  next c found =>
    split
    · exact capped
    next stream _ =>
      have freed : (t.setConnection peer { c with streams := c.streams.erase id }).Capped :=
        capped_setConnection capped found (capped.pending peer c found)
      dsimp only
      split
      · exact capped_pushStreamEvent (capped_eraseStream freed stream) _
      · exact freed

theorem capped_flushStream (capped : t.Capped) (stream : OverlayStreamId) : (t.flushStream stream).Capped := by
  unfold flushStream
  split
  · exact capped
  next state there =>
    split
    · exact capped
    next c found =>
      dsimp only
      have written : (t.setConnection state.peerAddr { c with conn := (c.conn.writeAll state.sendBuf).1 }).Capped :=
        capped_setConnection capped found (capped.pending _ c found)
      split
      · exact capped_reapStream (capped_restate written there) stream
      · exact capped_restate written there

theorem capped_handleStreamEvent (capped : t.Capped) (peer : SocketAddr) (event : QuinnStreamEvent) :
    (t.handleStreamEvent peer event).Capped := by
  cases event with
  | openedBi => exact capped_acceptStreams capped peer
  | openedUni => exact capped
  | readable id => exact capped_readStream capped peer id
  | writable id =>
    dsimp only [handleStreamEvent]
    split
    · exact capped_flushStream capped _
    · exact capped
  | finished id => exact capped
  | stopped id => exact capped_failStream capped peer id
  | available => exact capped

/-! ### Driving the connections -/

theorem capped_onConnected (capped : t.Capped) (found : t.connections[peer]? = some c) : (t.onConnected peer c).1.Capped := by
  have set := capped_setConnection capped found
    ((QuicConnection.length_flushPending { c with
      established := true
      peerPubkey := c.peerPubkey.or c.conn.identity }).trans (capped.pending peer c found))
  exact ⟨set.connections, set.streams, set.probes, set.pending⟩

theorem capped_handleConnectionEvent (capped : t.Capped) (peer : SocketAddr) (event : QuinnEvent) :
    (t.handleConnectionEvent peer event).1.Capped := by
  unfold handleConnectionEvent
  split
  · exact capped_handleStreamEvent capped peer _
  split
  · exact capped
  next c found =>
    have short := capped.pending peer c found
    split
    · exact capped_setConnection capped found short
    · exact capped_onConnected capped found
    · have set : (t.setConnection peer { c with conn := { c.conn with received := [] } }).Capped :=
        capped_setConnection capped found short
      exact ⟨set.connections, set.streams, set.probes, set.pending⟩
    · exact capped_setConnection capped found (c.length_flushPending.trans short)
    · refine capped_removeConnection ?_ peer
      exact ⟨capped.connections, capped.streams, capped.probes, capped.pending⟩
    · exact capped

theorem capped_drive (capped : t.Capped) : t.drive.1.Capped := by
  have pumped : Capped { t with connections := t.connections.map (fun _ c => pumped c) } := by
    refine ⟨(Nat.le_of_eq TreeMap.size_map).trans capped.connections, capped.streams, capped.probes, fun addr c found => ?_⟩
    rw [TreeMap.getElem?_map] at found
    obtain ⟨before, there, rfl⟩ := Option.map_eq_some_iff.mp found
    exact before.length_flushPending.trans (capped.pending addr before there)
  exact run_invariant (P := Capped) pumped
    (fun t entry capped _ => capped_handleConnectionEvent capped entry.1 entry.2) t.appEvents (meets_true _)

/-! ### Probes -/

theorem capped_setProbe (capped : t.Capped) {probe : ProbeId} {conn conn' : ProbeConn ν}
    (found : t.probes[probe]? = some conn) : Capped { t with probes := t.probes.insert probe conn' } := by
  refine ⟨capped.connections, capped.streams, (Entries.size_le (fun other present => ?_)).trans capped.probes, capped.pending⟩
  rw [Entries.getElem?_insert] at present
  split at present
  next here =>
    rw [← here, found]
    rfl
  · exact present

theorem capped_handleProbeEvent (capped : t.Capped) (probe : ProbeId) (event : QuinnEvent) :
    (t.handleProbeEvent probe event).Capped := by
  unfold handleProbeEvent
  split
  · exact capped
  next conn found =>
    have reported : ∀ events, Capped { t with
        probes := t.probes.insert probe { conn with resolved := true }, probeEvents := events } := by
      intro events
      have set : Capped { t with probes := t.probes.insert probe { conn with resolved := true } } :=
        capped_setProbe capped found
      exact ⟨set.connections, set.streams, set.probes, set.pending⟩
    dsimp only
    split
    · split
      · exact capped
      · exact reported _
    · split
      · exact capped
      · exact reported _
    · exact capped_setProbe capped found
    · exact capped

theorem capped_driveProbes (capped : t.Capped) : t.driveProbes.Capped := by
  refine capped_foldl (fun t entry capped => capped_handleProbeEvent capped entry.1 entry.2) _ ?_
  exact ⟨capped.connections, capped.streams, (Nat.le_of_eq TreeMap.size_map).trans capped.probes, capped.pending⟩

theorem capped_startProbe (capped : t.Capped) (socket : SocketId) (addr : SocketAddr)
    (dialed : Option (ConnectionHandle × QuinnConn ν)) : (t.startProbe socket addr dialed).1.Capped := by
  unfold startProbe
  split
  · exact capped
  next room =>
    split
    · exact capped
    · refine capped_driveProbes ?_
      exact ⟨capped.connections, capped.streams, TreeMap.size_insert_le.trans (Nat.not_le.mp room), capped.pending⟩

theorem capped_closeProbe (capped : t.Capped) (probe : ProbeId) : (t.closeProbe probe).Capped := by
  unfold closeProbe
  split
  · exact capped
  · exact ⟨capped.connections, capped.streams, TreeMap.size_erase_le.trans capped.probes, capped.pending⟩

/-! ### Operations -/

theorem capped_ensureConnection (capped : t.Capped) {socket : Option SocketId}
    {dialed : Option (ConnectionHandle × QuinnConn ν)} {t' : OverlayQuicTransport ν}
    (ensured : t.ensureConnection peer socket dialed = some t') : t'.Capped := by
  unfold ensureConnection at ensured
  split at ensured
  · cases ensured
    exact capped
  split at ensured
  · cases ensured
  split at ensured
  · cases ensured
  next room =>
    split at ensured
    · cases ensured
    · cases ensured
      exact capped_addConnection capped (Nat.not_le.mp room) peer _ _ _ _

theorem length_queue (short : c.pending.length ≤ maxPendingDatagrams) (payload : ν) :
    (c.queue payload).pending.length ≤ maxPendingDatagrams := length_pushBounded short (by decide) payload

theorem capped_dialAnd (capped : t.Capped) (dest : SocketAddr) (socket : Option SocketId)
    (dialed : Option (ConnectionHandle × QuinnConn ν)) {f : QuicConnection ν → QuicConnection ν}
    (short : ∀ c, c.pending.length ≤ maxPendingDatagrams → (f c).pending.length ≤ maxPendingDatagrams) :
    (t.dialAnd dest socket dialed f).1.Capped := by
  unfold dialAnd
  split
  · exact capped
  next t' ensured =>
    have there := capped_ensureConnection capped ensured
    refine capped_drive ?_
    unfold withConnection
    split
    next c found => exact capped_setConnection there found (short c (there.pending dest c found))
    · exact there

theorem capped_handleDatagramEvent (capped : t.Capped) (event : DatagramEvent ν) : (t.handleDatagramEvent event).Capped := by
  cases event with
  | connectionEvent handle next =>
    dsimp only [handleDatagramEvent, handleConnectionEventForHandle]
    split
    · split
      next c found => exact capped_setConnection capped found (capped.pending _ c found)
      · exact capped
    · split
      next probe conn there =>
        obtain ⟨id, _, found⟩ := Option.bind_eq_some_iff.mp there
        obtain ⟨before, found, same⟩ := Option.map_eq_some_iff.mp found
        cases same
        exact capped_setProbe capped found
      · exact capped
  | newConnection peer socket accepted =>
    dsimp only [handleDatagramEvent]
    split
    · exact capped
    next room =>
      split
      · exact capped
      · exact capped_addConnection capped (Nat.not_le.mp room) peer _ _ _ _
  | nothing => exact capped

theorem capped_handleTimeouts (capped : t.Capped) (due : List (SocketAddr × QuinnConn ν))
    (dueProbes : List (ProbeId × QuinnConn ν)) : (t.handleTimeouts due dueProbes).Capped := by
  refine ⟨?_, capped.streams, ?_, ?_⟩
  · exact (Nat.le_of_eq (size_foldl_modify due t.connections
      (fun next c => { c with conn := c.conn.evolve next }))).trans capped.connections
  · exact (Nat.le_of_eq (size_foldl_modify dueProbes t.probes
      (fun next conn => { conn with conn := conn.conn.evolve next }))).trans capped.probes
  · exact foldl_modify_forall (f := fun next (c : QuicConnection ν) => { c with conn := c.conn.evolve next }) due
      (fun _ _ short => short) capped.pending

theorem capped_step (capped : t.Capped) (op : Op ν) : (t.step op).1.Capped := by
  cases op with
  | queueDatagram dest payload dialed =>
    exact capped_dialAnd capped dest none dialed (fun _ short => length_queue short payload)
  | queueDatagramToPeer pubkey payload =>
    dsimp only [step, queueDatagramToPeer]
    split
    · exact capped
    split
    · exact capped
    next c found =>
      exact capped_drive (capped_setConnection capped found (length_queue (capped.pending _ c found) payload))
  | queueDatagramExpecting dest expected payload dialed =>
    exact capped_dialAnd capped dest none dialed (fun c short => length_queue (c := c.expect expected) short payload)
  | dialExpecting dest expected dialed => exact capped_dialAnd capped dest none dialed (fun _ short => short)
  | dialExpectingFrom socket dest expected dialed =>
    exact capped_dialAnd capped dest (some socket) dialed (fun _ short => short)
  | dropConnection addr => exact capped_removeConnection capped addr
  | onDatagram event => exact capped_driveProbes (capped_drive (capped_handleDatagramEvent capped event))
  | onTimer due dueProbes => exact capped_driveProbes (capped_drive (capped_handleTimeouts capped due dueProbes))
  | openStream pubkey =>
    dsimp only [step, openStream]
    split
    · exact capped
    next room =>
      split
      · exact capped
      next addr c there =>
        obtain ⟨_, _, there⟩ := Option.bind_eq_some_iff.mp there
        obtain ⟨_, found, same⟩ := Option.map_eq_some_iff.mp there
        cases same
        split
        next id rest _ _ =>
          have same : ({ c with conn := { c.conn with openable := rest } } : QuicConnection ν).pending = c.pending := rfl
          exact capped_allocateStream capped found same (Nat.not_le.mp room) _
        · exact capped
  | writeStream stream bytes =>
    dsimp only [step, writeStream]
    split
    · exact capped
    next state found =>
      split
      · exact capped
      · exact capped_drive (capped_flushStream (capped_restate capped found) stream)
  | finishStream stream =>
    dsimp only [step, finishStream]
    split
    · exact capped
    next state found => exact capped_drive (capped_flushStream (capped_restate capped found) stream)
  | resetStream stream =>
    dsimp only [step, resetStream]
    split
    · exact capped
    next state found =>
      have erased := capped_eraseStream capped stream
      split
      · exact erased
      next c there => exact capped_drive (capped_setConnection erased there (capped.pending _ c there))
  | startProbe socket addr dialed => exact capped_startProbe capped socket addr dialed
  | closeProbe probe => exact capped_closeProbe capped probe
  | registerPunchSocket socket | unregisterPunchSocket socket | pollInbound | pollEvent | pollStreamEvent
  | pollProbeEvent => exact ⟨capped.connections, capped.streams, capped.probes, capped.pending⟩

end OverlayQuicTransport

end Lightbringer.Overlay
