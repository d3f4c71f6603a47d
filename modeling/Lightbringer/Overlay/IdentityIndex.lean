import Lightbringer.Overlay.Gates
import Lightbringer.Lib.Registry

/-!
# The index of identities

`by_pubkey` as a registry: the established connections hold identities, and the index names one connection for each.
The first connection of an identity keeps the entry and takes it along when it goes, whether or not another connection
of the identity is left.
-/

namespace Lightbringer.Overlay
open Std Machine Registry

variable {ν : Type}

/-- The identity under which an established connection is listed. -/
def Gate.verified (g : Gate ν) : Option Pubkey := if g.established then g.peerPubkey else none

namespace OverlayQuicTransport

/-- `connections()`. -/
def connectionList (t : OverlayQuicTransport ν) : List (Pubkey × SocketAddr) :=
  t.connections.toList.filterMap (fun entry =>
    if entry.2.established then entry.2.peerPubkey.map (fun pubkey => (pubkey, entry.1)) else none)

def holds (t : OverlayQuicTransport ν) (addr : SocketAddr) : Option Pubkey := (t.gateAt addr).bind Gate.verified

def index (t : OverlayQuicTransport ν) (pubkey : Pubkey) : Option SocketAddr := t.byPubkey[pubkey]?

def Indexed (t : OverlayQuicTransport ν) : Prop := Complete t.index t.holds

variable {t t' : OverlayQuicTransport ν} {peer : SocketAddr} {c c' : QuicConnection ν}

theorem holds_found (found : t.connections[peer]? = some c) : t.holds peer = c.gate.verified := by
  rw [holds, gateAt, found]
  rfl

theorem mem_connectionList (t : OverlayQuicTransport ν) (pubkey : Pubkey) (addr : SocketAddr) :
    (pubkey, addr) ∈ t.connectionList ↔ t.holds addr = some pubkey := by
  unfold connectionList
  rw [List.mem_filterMap]
  constructor
  · rintro ⟨⟨there, c⟩, member, listed⟩
    have found := TreeMap.mem_toList_iff_getElem?_eq_some.mp member
    dsimp only at listed
    split at listed
    next established =>
      obtain ⟨known, verified, pair⟩ := Option.map_eq_some_iff.mp listed
      cases pair
      rw [holds_found found, Gate.verified, QuicConnection.gate, if_pos established, verified]
    next => cases listed
  · intro held
    obtain ⟨g, gate, verified⟩ := Option.bind_eq_some_iff.mp held
    obtain ⟨c, found, rfl⟩ := Option.map_eq_some_iff.mp gate
    refine ⟨(addr, c), TreeMap.mem_toList_iff_getElem?_eq_some.mpr found, ?_⟩
    unfold Gate.verified at verified
    split at verified
    next established =>
      have known : c.peerPubkey = some pubkey := verified
      have live : c.established = true := established
      simp [live, known]
    next => cases verified

theorem indexed_of_sameGates (held : Indexed t) (same : SameGates t t') : Indexed t' := by
  have holds : t'.holds = t.holds := by
    funext addr
    rw [OverlayQuicTransport.holds, same.gates]
    rfl
  have index : t'.index = t.index := by
    funext pubkey
    rw [OverlayQuicTransport.index, same.index]
    rfl
  rw [Indexed, holds, index]
  exact held

theorem holds_setConnection (t : OverlayQuicTransport ν) (peer : SocketAddr) (c : QuicConnection ν) :
    (t.setConnection peer c).holds = Function.update t.holds peer c.gate.verified := by
  funext addr
  rw [holds, gateAt_setConnection]
  split
  next here =>
    subst here
    rw [Function.update_self]
    rfl
  next other =>
    rw [Function.update_of_ne (Ne.symm other)]
    rfl

/-- A connection that is listed as before, or not listed as before. -/
theorem indexed_setConnection (held : Indexed t) (same : c'.gate.verified = t.holds peer) :
    Indexed (t.setConnection peer c') := by
  have holds : (t.setConnection peer c').holds = t.holds := by
    rw [holds_setConnection, same, Function.update_eq_self]
  rw [Indexed, holds]
  exact held

/-! ### Events -/

theorem flushPending_verified (c : QuicConnection ν) : c.flushPending.1.gate.verified = c.gate.verified := by
  obtain ⟨answers, left, _, same⟩ := c.flushPending_spec
  rw [same]
  rfl

theorem index_join (t : OverlayQuicTransport ν) (pubkey : Pubkey) (peer : SocketAddr) :
    (fun wanted : Pubkey => (t.byPubkey.insertIfNew pubkey peer)[wanted]?) = join t.index pubkey peer := by
  funext wanted
  unfold join
  rw [TreeMap.getElem?_insertIfNew]
  by_cases same : wanted = pubkey
  · subst same
    rw [Function.update_self]
    cases entry : t.byPubkey[wanted]? with
    | none =>
      have absent : wanted ∉ t.byPubkey := by
        intro member
        rw [TreeMap.mem_iff_isSome_getElem?, entry] at member
        cases member
      rw [if_pos ⟨ReflOrd.compare_self, absent⟩, index, entry]
      rfl
    | some first =>
      have present : wanted ∈ t.byPubkey := TreeMap.mem_iff_isSome_getElem?.mpr (by rw [entry]; rfl)
      rw [if_neg (fun missing => missing.2 present), index, entry]
      rfl
  · rw [Function.update_of_ne same, if_neg (fun here => same (LawfulEqOrd.compare_eq_iff_eq.mp here.1).symm)]
    rfl

theorem indexed_join (held : Indexed t) {pubkey : Pubkey} (free : ∀ other, t.holds peer = some other → other = pubkey)
    (verified : c'.gate.verified = some pubkey) :
    Indexed { t.setConnection peer c' with byPubkey := t.byPubkey.insertIfNew pubkey peer } := by
  have holds := holds_setConnection t peer c'
  rw [verified] at holds
  have joined := complete_join held free
  rw [← index_join, ← holds] at joined
  exact joined

theorem indexed_onConnected (held : Indexed t) (found : t.connections[peer]? = some c) :
    Indexed (t.onConnected peer c).1 := by
  have before := holds_found found
  unfold onConnected
  cases known : c.peerPubkey.or c.conn.identity with
  | none =>
    obtain ⟨unknown, _⟩ := Option.or_eq_none_iff.mp known
    refine indexed_setConnection held ?_
    rw [flushPending_verified, before]
    simp [Gate.verified, QuicConnection.gate, unknown]
  | some pubkey =>
    refine indexed_join held (fun other has => ?_) (flushPending_verified _)
    rw [before, Gate.verified] at has
    split at has
    · have own : c.peerPubkey = some other := has
      rw [own] at known
      exact Option.some.inj known
    · cases has

/-! ### Connections that go -/

/-- Whether the connection at `peer` can go: it is not the indexed one of its identity, or the identity has no other. -/
def sole (t : OverlayQuicTransport ν) (peer : SocketAddr) : Bool :=
  (t.connections[peer]?).all (fun c => c.peerPubkey.all (fun pubkey =>
    decide (t.byPubkey[pubkey]? ≠ some peer) || t.connectionList.all (fun entry => entry.1 ≠ pubkey || entry.2 = peer)))

theorem sole_iff (found : t.connections[peer]? = some c) {pubkey : Pubkey} (known : c.peerPubkey = some pubkey) :
    t.sole peer = true ↔ (t.index pubkey = some peer → ∀ other, t.holds other = some pubkey → other = peer) := by
  rw [sole, found, Option.all_some, known, Option.all_some]
  simp only [ne_eq, Bool.or_eq_true, decide_eq_true_eq, List.all_eq_true, Prod.forall, mem_connectionList, index]
  constructor
  · rintro (elsewhere | alone) indexed other also
    · exact (elsewhere indexed).elim
    · rcases alone pubkey other also with apart | same
      · exact (apart rfl).elim
      · exact same
  · intro alone
    by_cases indexed : t.byPubkey[pubkey]? = some peer
    · refine .inr (fun wanted other also => ?_)
      by_cases same : wanted = pubkey
      · subst same
        exact .inr (alone indexed other also)
      · exact .inl same
    · exact .inl indexed

theorem index_leave (t : OverlayQuicTransport ν) (pubkey : Pubkey) (peer : SocketAddr) :
    (fun wanted : Pubkey => (if t.byPubkey[pubkey]? = some peer then t.byPubkey.erase pubkey else t.byPubkey)[wanted]?) =
      leave t.index pubkey peer := by
  unfold leave
  split
  next indexed =>
    rw [if_pos (show t.index pubkey = some peer from indexed)]
    funext wanted
    by_cases same : wanted = pubkey
    · subst same
      simp
    · rw [Function.update_of_ne same, TreeMap.getElem?_erase]
      simp [index, Ne.symm same]
  next other =>
    rw [if_neg (show t.index pubkey ≠ some peer from other)]
    rfl

theorem indexed_removeConnection_iff (held : Indexed t) (peer : SocketAddr) :
    Indexed (t.removeConnection peer) ↔ t.sole peer = true := by
  unfold removeConnection
  cases found : t.connections[peer]? with
  | none =>
    rw [sole, found]
    exact iff_of_true held rfl
  | some c =>
    have gone : ∀ byPubkey : TreeMap Pubkey SocketAddr, Indexed (failStreams
        { t with connections := t.connections.erase peer, handles := t.handles.erase c.handle, byPubkey := byPubkey }
        (c.streams.toList.map Prod.snd)) ↔
        Complete (fun wanted : Pubkey => byPubkey[wanted]?) (Function.update t.holds peer none) := by
      intro byPubkey
      have same := sameGates_failStreams
        { t with connections := t.connections.erase peer, handles := t.handles.erase c.handle, byPubkey := byPubkey }
        (c.streams.toList.map Prod.snd)
      have back : SameGates (failStreams _ _) _ := ⟨fun addr => (same.gates addr).symm, same.index.symm⟩
      have holds : OverlayQuicTransport.holds
          { t with connections := t.connections.erase peer, handles := t.handles.erase c.handle, byPubkey := byPubkey } =
          Function.update t.holds peer none := by
        funext addr
        by_cases here : addr = peer
        · subst here
          simp [OverlayQuicTransport.holds, gateAt]
        · simp [OverlayQuicTransport.holds, gateAt, TreeMap.getElem?_erase, here, Ne.symm here]
      rw [← holds]
      constructor
      · exact fun after => indexed_of_sameGates after back
      · intro before
        refine indexed_of_sameGates ?_ same
        exact before
    dsimp only
    rw [gone]
    have before := holds_found found
    have unlisted : t.holds peer = none → Function.update t.holds peer none = t.holds := by
      intro idle
      rw [← idle, Function.update_eq_self]
    cases known : c.peerPubkey with
    | none =>
      have idle : t.holds peer = none := by
        rw [before]
        simp [Gate.verified, QuicConnection.gate, known]
      rw [unlisted idle, sole, found, Option.all_some, known]
      exact iff_of_true held rfl
    | some pubkey =>
      rw [sole_iff found known]
      dsimp only
      rw [index_leave]
      by_cases established : c.established = true
      · have has : t.holds peer = some pubkey := by
          rw [before]
          simp [Gate.verified, QuicConnection.gate, known, established]
        exact complete_leave_iff held has
      · have idle : t.holds peer = none := by
          rw [before]
          simp [Gate.verified, QuicConnection.gate, established]
        have unnamed : t.index pubkey ≠ some peer := by
          intro entry
          rw [held.sound pubkey peer entry] at idle
          cases idle
        rw [unlisted idle, leave, if_neg unnamed]
        exact iff_of_true held (fun entry => (unnamed entry).elim)

/-! ### Driving -/

/-- Quinn has the handshake data ready before it reports the connection. -/
def timely (t : OverlayQuicTransport ν) (entry : SocketAddr × QuinnEvent) : Bool :=
  match entry.2 with
  | .handshakeDataReady => (t.connections[entry.1]?).all (fun c => !c.established)
  | _ => true

def orderly (t : OverlayQuicTransport ν) (entry : SocketAddr × QuinnEvent) : Bool :=
  match entry.2 with
  | .connectionLost _ => t.sole entry.1
  | _ => true

theorem indexed_handleAppEvent (held : Indexed t) {entry : SocketAddr × QuinnEvent} (early : t.timely entry = true)
    (order : t.orderly entry = true) : Indexed (t.handleAppEvent entry).1 := by
  obtain ⟨peer, event⟩ := entry
  unfold handleAppEvent handleConnectionEvent
  split
  · exact indexed_of_sameGates held (sameGates_handleStreamEvent t peer _)
  cases found : t.connections[peer]? with
  | none => exact held
  | some c =>
    have before := holds_found found
    dsimp only
    split
    · have unlisted : c.established = false := by simpa [timely, found] using early
      refine indexed_setConnection held ?_
      rw [before]
      simp [Gate.verified, QuicConnection.gate, unlisted]
    · exact indexed_onConnected held found
    · exact indexed_setConnection held before.symm
    · refine indexed_setConnection held ?_
      rw [flushPending_verified, before]
    · refine (indexed_removeConnection_iff ?_ peer).mpr order
      exact held
    · exact held

/-- The connections as the events of a drive find them. -/
def pumpedAll (t : OverlayQuicTransport ν) : OverlayQuicTransport ν :=
  { t with connections := t.connections.map (fun _ c => pumped c) }

theorem indexed_pumpedAll (held : Indexed t) : Indexed t.pumpedAll := by
  have holds : t.pumpedAll.holds = t.holds := by
    funext addr
    unfold OverlayQuicTransport.holds gateAt pumpedAll
    rw [TreeMap.getElem?_map]
    cases t.connections[addr]? with
    | none => rfl
    | some c => exact flushPending_verified c
  rw [Indexed, holds]
  exact held

theorem indexed_drive (held : Indexed t)
    (met : Meets handleAppEvent (fun t entry => t.timely entry = true ∧ t.orderly entry = true) t.pumpedAll t.appEvents) :
    Indexed t.drive.1 :=
  run_invariant (P := Indexed) (indexed_pumpedAll held)
    (fun _ _ held here => indexed_handleAppEvent held here.1 here.2) t.appEvents met

/-! ### Calls -/

/-- The transport as a call begins to drive the connections; `none` when the call does not. -/
def entering (t : OverlayQuicTransport ν) : Op ν → Option (OverlayQuicTransport ν)
  | .queueDatagram dest payload dialed =>
    (t.ensureConnection dest none dialed).map (fun t => t.withConnection dest (fun c => c.queue payload))
  | .queueDatagramToPeer pubkey payload =>
    (t.byPubkey[pubkey]?).bind (fun addr => (t.connections[addr]?).map (fun c => t.setConnection addr (c.queue payload)))
  | .queueDatagramExpecting dest expected payload dialed =>
    (t.ensureConnection dest none dialed).map (fun t => t.withConnection dest (fun c => (c.expect expected).queue payload))
  | .dialExpecting dest expected dialed =>
    (t.ensureConnection dest none dialed).map (fun t => t.withConnection dest (fun c => c.expect expected))
  | .dialExpectingFrom socket dest expected dialed =>
    (t.ensureConnection dest (some socket) dialed).map (fun t => t.withConnection dest (fun c => c.expect expected))
  | .onDatagram event => some (t.handleDatagramEvent event)
  | .onTimer due dueProbes => some (t.handleTimeouts due dueProbes)
  | .writeStream stream bytes =>
    (t.streamStates[stream]?).bind (fun state => if state.finPending then none
      else some ({ t with streamStates :=
        t.streamStates.insert stream { state with sendBuf := state.sendBuf ++ bytes } }.flushStream stream))
  | .finishStream stream =>
    (t.streamStates[stream]?).map (fun state =>
      { t with streamStates := t.streamStates.insert stream { state with finPending := true } }.flushStream stream)
  | .resetStream stream =>
    (t.streamStates[stream]?).bind (fun state => (t.connections[state.peerAddr]?).map (fun c =>
      { t with streamStates := t.streamStates.erase stream }.setConnection state.peerAddr
        { c with streams := c.streams.erase state.quicId }))
  | _ => none

theorem dialAnd_entering (t : OverlayQuicTransport ν) (dest : SocketAddr) (socket : Option SocketId)
    (dialed : Option (ConnectionHandle × QuinnConn ν)) (f : QuicConnection ν → QuicConnection ν) :
    (t.dialAnd dest socket dialed f).1 =
      (((t.ensureConnection dest socket dialed).map (fun t => t.withConnection dest f)).map
        (fun t => t.drive.1)).getD t := by
  unfold dialAnd
  cases t.ensureConnection dest socket dialed with
  | none => rfl
  | some t' => rfl

/-- A call is what it does before it drives, the drive, and nothing more that the index could see. -/
theorem step_entering (t : OverlayQuicTransport ν) {op : Op ν} (kept : ∀ addr, op ≠ .dropConnection addr) :
    SameGates (((t.entering op).map (fun t => t.drive.1)).getD t) (t.step op).1 := by
  cases op with
  | queueDatagram dest payload dialed =>
    show SameGates _ (t.queueDatagram dest payload dialed).1
    rw [queueDatagram, dialAnd_entering]
    exact .refl _
  | queueDatagramToPeer pubkey payload =>
    show SameGates _ (t.queueDatagramToPeer pubkey payload).1
    unfold queueDatagramToPeer
    dsimp only [entering]
    cases t.byPubkey[pubkey]? with
    | none => exact .refl t
    | some addr =>
      dsimp only [Option.bind]
      cases t.connections[addr]? with
      | none => exact .refl t
      | some c => exact .refl _
  | queueDatagramExpecting dest expected payload dialed =>
    show SameGates _ (t.queueDatagramExpecting dest expected payload dialed).1
    rw [queueDatagramExpecting, dialAnd_entering]
    exact .refl _
  | dialExpecting dest expected dialed =>
    show SameGates _ (t.dialExpecting dest expected dialed).1
    rw [dialExpecting, dialAnd_entering]
    exact .refl _
  | dialExpectingFrom socket dest expected dialed =>
    show SameGates _ (t.dialExpectingFrom socket dest expected dialed).1
    rw [dialExpectingFrom, dialAnd_entering]
    exact .refl _
  | dropConnection addr => exact (kept addr rfl).elim
  | onDatagram event => exact sameGates_driveProbes _
  | onTimer due dueProbes => exact sameGates_driveProbes _
  | openStream pubkey => exact sameGates_openStream t pubkey
  | writeStream stream bytes =>
    show SameGates _ (t.writeStream stream bytes).1
    unfold writeStream
    dsimp only [entering]
    cases t.streamStates[stream]? with
    | none => exact .refl t
    | some state =>
      dsimp only [Option.bind]
      split
      · exact .refl t
      · exact .refl _
  | finishStream stream =>
    show SameGates _ (t.finishStream stream).1
    unfold finishStream
    dsimp only [entering]
    cases t.streamStates[stream]? with
    | none => exact .refl t
    | some state => exact .refl _
  | resetStream stream =>
    show SameGates _ (t.resetStream stream).1
    unfold resetStream
    dsimp only [entering]
    cases t.streamStates[stream]? with
    | none => exact .refl t
    | some state =>
      dsimp only [Option.bind]
      cases t.connections[state.peerAddr]? with
      | none => exact ⟨fun _ => rfl, rfl⟩
      | some c => exact .refl _
  | startProbe socket addr dialed => exact sameGates_startProbe t socket addr dialed
  | closeProbe probe => exact sameGates_closeProbe t probe
  | registerPunchSocket socket => exact ⟨fun _ => rfl, rfl⟩
  | unregisterPunchSocket socket => exact ⟨fun _ => rfl, rfl⟩
  | pollInbound => exact ⟨fun _ => rfl, rfl⟩
  | pollEvent => exact ⟨fun _ => rfl, rfl⟩
  | pollStreamEvent => exact ⟨fun _ => rfl, rfl⟩
  | pollProbeEvent => exact ⟨fun _ => rfl, rfl⟩

theorem indexed_ensureConnection (held : Indexed t) {socket : Option SocketId}
    {dialed : Option (ConnectionHandle × QuinnConn ν)} (dialing : t.ensureConnection peer socket dialed = some t') :
    Indexed t' := by
  unfold ensureConnection at dialing
  split at dialing
  · cases dialing
    exact held
  next absent =>
    split at dialing
    · cases dialing
    split at dialing
    · cases dialing
    split at dialing
    · cases dialing
    · cases dialing
      have nobody : t.holds peer = none := by
        rw [holds, gateAt, TreeMap.getElem?_eq_none absent]
        rfl
      exact indexed_setConnection held nobody.symm

theorem indexed_dialed (held : Indexed t) {socket : Option SocketId} {dialed : Option (ConnectionHandle × QuinnConn ν)}
    {f : QuicConnection ν → QuicConnection ν}
    (ready : (t.ensureConnection peer socket dialed).map (fun t => t.withConnection peer f) = some t')
    (same : ∀ c, (f c).gate.verified = c.gate.verified) : Indexed t' := by
  obtain ⟨dialing, ensured, rfl⟩ := Option.map_eq_some_iff.mp ready
  have kept := indexed_ensureConnection held ensured
  unfold withConnection
  cases found : dialing.connections[peer]? with
  | none => exact kept
  | some c =>
    refine indexed_setConnection kept ?_
    rw [same, holds_found found]

/-- Whether a call leaves the indexed connections alone: it accepts none in the place of one, and drops none whose
identity has another. -/
def spares (t : OverlayQuicTransport ν) : Op ν → Bool
  | .onDatagram (.newConnection peer _ (some _)) =>
    maxConnections ≤ t.connections.size || t.byPubkey.toList.all (fun entry => entry.2 ≠ peer)
  | .dropConnection addr => t.sole addr
  | _ => true

theorem indexed_handleDatagramEvent (held : Indexed t) {event : DatagramEvent ν}
    (spared : t.spares (.onDatagram event) = true) : Indexed (t.handleDatagramEvent event) := by
  cases event with
  | nothing => exact held
  | newConnection peer socket accepted =>
    unfold handleDatagramEvent
    dsimp only
    split
    · exact held
    next below =>
      cases accepted with
      | none => exact held
      | some pair =>
        obtain ⟨handle, conn⟩ := pair
        have unnamed : ∀ pubkey, t.index pubkey ≠ some peer := by
          intro pubkey entry
          have others : ∀ named ∈ t.byPubkey.toList, named.2 ≠ peer := by simpa [spares, below] using spared
          exact others (pubkey, peer) (TreeMap.mem_toList_iff_getElem?_eq_some.mpr entry) rfl
        have forgotten := (complete_forget_iff held).mpr unnamed
        have holds := holds_setConnection t peer
          (QuicConnection.new handle conn (if socket ≠ t.egress peer then some socket else none))
        rw [← show (QuicConnection.new handle conn (if socket ≠ t.egress peer then some socket else none)).gate.verified =
          none from rfl, ← holds] at forgotten
        exact forgotten
  | connectionEvent handle next =>
    show Indexed (t.handleConnectionEventForHandle handle next)
    unfold handleConnectionEventForHandle
    split
    next peer _ =>
      cases found : t.connections[peer]? with
      | none => exact held
      | some c =>
        refine indexed_setConnection held ?_
        rw [holds_found found]
        rfl
    next =>
      split
      · exact held
      · exact held

theorem verified_timeouts (due : List (SocketAddr × QuinnConn ν)) (connections : TreeMap SocketAddr (QuicConnection ν))
    (addr : SocketAddr) :
    ((due.foldl (fun connections entry =>
      connections.modify entry.1 (fun c => { c with conn := c.conn.evolve entry.2 })) connections)[addr]?).map
        (fun c => c.gate.verified) = (connections[addr]?).map (fun c => c.gate.verified) := by
  induction due generalizing connections with
  | nil => rfl
  | cons entry rest ih =>
    rw [List.foldl_cons, ih, TreeMap.getElem?_modify]
    split
    next here =>
      rw [LawfulEqOrd.compare_eq_iff_eq.mp here]
      cases connections[addr]? with
      | none => rfl
      | some c => rfl
    next => rfl

theorem indexed_handleTimeouts (held : Indexed t) (due : List (SocketAddr × QuinnConn ν))
    (dueProbes : List (ProbeId × QuinnConn ν)) : Indexed (t.handleTimeouts due dueProbes) := by
  have listing : ∀ (t : OverlayQuicTransport ν) (addr : SocketAddr),
      t.holds addr = ((t.connections[addr]?).map (fun c => c.gate.verified)).join := by
    intro t addr
    rw [holds, gateAt]
    cases t.connections[addr]? with
    | none => rfl
    | some c => rfl
  have holds : (t.handleTimeouts due dueProbes).holds = t.holds := by
    funext addr
    rw [listing, listing]
    exact congrArg Option.join (verified_timeouts due t.connections addr)
  rw [Indexed, holds]
  exact held

theorem indexed_entering (held : Indexed t) {op : Op ν} (spared : t.spares op = true)
    (ready : t.entering op = some t') : Indexed t' := by
  cases op with
  | queueDatagram dest payload dialed => exact indexed_dialed held ready (fun _ => rfl)
  | queueDatagramToPeer pubkey payload =>
    obtain ⟨addr, _, here⟩ := Option.bind_eq_some_iff.mp ready
    obtain ⟨c, found, rfl⟩ := Option.map_eq_some_iff.mp here
    refine indexed_setConnection held ?_
    rw [holds_found found]
    rfl
  | queueDatagramExpecting dest expected payload dialed => exact indexed_dialed held ready (fun _ => rfl)
  | dialExpecting dest expected dialed => exact indexed_dialed held ready (fun _ => rfl)
  | dialExpectingFrom socket dest expected dialed => exact indexed_dialed held ready (fun _ => rfl)
  | onDatagram event =>
    cases ready
    exact indexed_handleDatagramEvent held spared
  | onTimer due dueProbes =>
    cases ready
    exact indexed_handleTimeouts held due dueProbes
  | writeStream stream bytes =>
    obtain ⟨state, _, here⟩ := Option.bind_eq_some_iff.mp ready
    split at here
    · cases here
    · cases here
      refine indexed_of_sameGates ?_ (sameGates_flushStream _ stream)
      exact held
  | finishStream stream =>
    obtain ⟨state, _, rfl⟩ := Option.map_eq_some_iff.mp ready
    refine indexed_of_sameGates ?_ (sameGates_flushStream _ stream)
    exact held
  | resetStream stream =>
    obtain ⟨state, _, here⟩ := Option.bind_eq_some_iff.mp ready
    obtain ⟨c, found, rfl⟩ := Option.map_eq_some_iff.mp here
    have erased : Indexed { t with streamStates := t.streamStates.erase stream } := held
    refine indexed_setConnection erased ?_
    exact (holds_found (t := t) found).symm
  | dropConnection addr => cases ready
  | openStream pubkey => cases ready
  | startProbe socket addr dialed => cases ready
  | closeProbe probe => cases ready
  | registerPunchSocket socket => cases ready
  | unregisterPunchSocket socket => cases ready
  | pollInbound => cases ready
  | pollEvent => cases ready
  | pollStreamEvent => cases ready
  | pollProbeEvent => cases ready

/-! ### Runs -/

/-- What quinn promises of the events a call handles. -/
def Timely (t : OverlayQuicTransport ν) (op : Op ν) : Prop :=
  ∀ ready ∈ t.entering op, Meets handleAppEvent (fun t entry => t.timely entry = true) ready.pumpedAll ready.appEvents

instance (t : OverlayQuicTransport ν) (op : Op ν) : Decidable (Timely t op) :=
  inferInstanceAs (Decidable (∀ ready ∈ t.entering op,
    Meets handleAppEvent (fun t entry => t.timely entry = true) ready.pumpedAll ready.appEvents))

/-- No indexed connection goes in this call, by accepting, dropping or losing one, that leaves another of its identity
or an unproven one in its place. -/
def Orderly (t : OverlayQuicTransport ν) (op : Op ν) : Prop :=
  t.spares op = true ∧ ∀ ready ∈ t.entering op,
    Meets handleAppEvent (fun t entry => t.orderly entry = true) ready.pumpedAll ready.appEvents

instance (t : OverlayQuicTransport ν) (op : Op ν) : Decidable (Orderly t op) :=
  inferInstanceAs (Decidable (t.spares op = true ∧ ∀ ready ∈ t.entering op,
    Meets handleAppEvent (fun t entry => t.orderly entry = true) ready.pumpedAll ready.appEvents))

theorem indexed_step (held : Indexed t) {op : Op ν} (early : Timely t op) (order : Orderly t op) :
    Indexed (t.step op).1 := by
  by_cases dropping : ∃ addr, op = .dropConnection addr
  · obtain ⟨addr, rfl⟩ := dropping
    exact (indexed_removeConnection_iff held addr).mpr order.1
  · refine indexed_of_sameGates ?_ (step_entering t (fun addr same => dropping ⟨addr, same⟩))
    cases ready : t.entering op with
    | none => exact held
    | some t' =>
      have first := indexed_entering held order.1 ready
      exact indexed_drive first ((meets_and _).mpr ⟨early t' ready, order.2 t' ready⟩)

theorem identity_index_complete (socket : SocketId) (socketV6 : Option SocketId) (ops : List (Op ν))
    (met : Meets step (fun t op => Timely t op ∧ Orderly t op) (OverlayQuicTransport.new socket socketV6) ops) :
    let t := (run step (OverlayQuicTransport.new socket socketV6) ops).1
    ∀ pubkey, (pubkey ∈ t.byPubkey ↔ ∃ addr, (pubkey, addr) ∈ t.connectionList) ∧
      ∀ addr, t.byPubkey[pubkey]? = some addr → (pubkey, addr) ∈ t.connectionList := by
  intro t pubkey
  have start : Indexed (OverlayQuicTransport.new socket socketV6 : OverlayQuicTransport ν) := by
    constructor
    · intro key holder entry
      simp [index, OverlayQuicTransport.new] at entry
    · intro holder key has
      simp [holds, gateAt, OverlayQuicTransport.new] at has
  have held : Indexed t :=
    run_invariant (P := Indexed) start (fun _ _ held here => indexed_step held here.1 here.2) ops met
  have registered := held.registered_iff pubkey
  refine ⟨?_, fun addr entry => (mem_connectionList t pubkey addr).mpr (held.sound pubkey addr entry)⟩
  simp only [mem_connectionList, ← registered]
  rw [TreeMap.mem_iff_isSome_getElem?, Option.isSome_iff_ne_none]
  rfl

/-- Identity 1 is dialed at one address and dials us from another. -/
def firstAddress : SocketAddr := ⟨.v4 0xC0000207, 8001⟩

def secondAddress : SocketAddr := ⟨.v4 0xC0000207, 40001⟩

def handshakes (handle : ConnectionHandle) : Op Nat :=
  .onDatagram (.connectionEvent handle { QuinnConn.idle with
    identity := some 1
    events := [.handshakeDataReady, .connected] })

def twoConnections : List (Op Nat) :=
  [.dialExpecting firstAddress 1 (some (0, QuinnConn.idle)), handshakes 0,
    .onDatagram (.newConnection secondAddress 0 (some (1, QuinnConn.idle))), handshakes 1]

def losing (handle : ConnectionHandle) : Op Nat :=
  .onDatagram (.connectionEvent handle { QuinnConn.idle with events := [.connectionLost "timed out"] })

theorem identity_index_complete_second_lost :
    let t := (run step (OverlayQuicTransport.new 0 none) (twoConnections ++ [losing 1])).1
    Meets step (fun t op => Timely t op ∧ Orderly t op) (OverlayQuicTransport.new 0 none) (twoConnections ++ [losing 1]) ∧
    t.connectionList = [(1, firstAddress)] ∧
    ∀ pubkey, (pubkey ∈ t.byPubkey ↔ ∃ addr, (pubkey, addr) ∈ t.connectionList) ∧
      ∀ addr, t.byPubkey[pubkey]? = some addr → (pubkey, addr) ∈ t.connectionList :=
  ⟨by decide +kernel, by decide +kernel,
    identity_index_complete 0 none (twoConnections ++ [losing 1]) (by decide +kernel)⟩

/-- The indexed connection is lost; the other one is still listed, and its identity is not in the index. -/
theorem second_connection_orphaned :
    let t := (run step (OverlayQuicTransport.new 0 none) (twoConnections ++ [losing 0])).1
    Meets step Timely (OverlayQuicTransport.new 0 none) (twoConnections ++ [losing 0]) ∧
    (1, secondAddress) ∈ t.connectionList ∧ (1 : Pubkey) ∉ t.byPubkey := by
  refine ⟨by decide +kernel, by decide +kernel, by decide +kernel⟩

end OverlayQuicTransport

end Lightbringer.Overlay
