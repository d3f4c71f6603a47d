import Lightbringer.Overlay.Gates

/-!
# Whom a payload reaches

All payloads queued for an address share one queue and one expected identity. A payload addressed to an identity is
safe in a queue if the connection is verified to be that identity, will be checked against it, or is bound to
discard its queue. Runs in which every addressed payload is queued safely never hand one to anybody else.
-/

namespace Lightbringer.Overlay
open Std Machine OverlayQuicTransport

/-- A payload together with the identity its sender addressed it to. The transport never looks inside. -/
structure Addressed where
  addressee : Option Pubkey
  bytes : List UInt8
  deriving DecidableEq

namespace Gate

variable (g : Gate Addressed)

def mismatch : Bool := g.expectPubkey.any (fun expected => g.peerPubkey ≠ some expected)

/-- A payload for `p` queued here can only be handed to `p`. -/
structure SafeFor (p : Pubkey) : Prop where
  verified : ∀ x, g.peerPubkey = some x → x = p ∨ g.mismatch = true
  unverified : g.peerPubkey = none → g.expectPubkey = some p

instance (p : Pubkey) : Decidable (g.SafeFor p) :=
  decidable_of_iff ((g.peerPubkey.all (fun x => x = p ∨ g.mismatch)) ∧ (g.peerPubkey = none → g.expectPubkey = some p))
    ⟨fun safe => ⟨by simpa [Option.all_eq_true] using safe.1, safe.2⟩,
      fun safe => ⟨by simpa [Option.all_eq_true] using safe.verified, safe.unverified⟩⟩

structure Sealed : Prop where
  known : ∀ x, g.peerPubkey = some x → g.identity = some x
  safe : ∀ payload ∈ g.pending, ∀ p, payload.addressee = some p → g.SafeFor p

variable {g}

theorem mismatch_of_unverified {p : Pubkey} (unknown : g.peerPubkey = none) (expected : g.expectPubkey = some p) :
    g.mismatch = true := by
  simp [mismatch, unknown, expected]

/-- Through an open gate a payload reaches the identity it is safe for. -/
theorem SafeFor.identity {p : Pubkey} (safe : g.SafeFor p) (known : ∀ x, g.peerPubkey = some x → g.identity = some x)
    (passes : g.mismatch = false) : g.identity = some p := by
  cases verified : g.peerPubkey with
  | none =>
    rw [mismatch_of_unverified verified (safe.unverified verified)] at passes
    cases passes
  | some x =>
    rcases safe.verified x verified with rfl | closed
    · exact known x verified
    · rw [passes] at closed
      cases closed

end Gate

/-! ### Flushing a queue -/

variable {c : QuicConnection Addressed}

theorem gate_mismatch (c : QuicConnection Addressed) : c.gate.mismatch = c.mismatch := rfl

theorem sealed_flush (held : c.gate.Sealed) : c.flushPending.1.gate.Sealed := by
  obtain ⟨answers, left, kept, same⟩ := c.flushPending_spec
  rw [same]
  refine ⟨held.known, fun payload member p addressed => ?_⟩
  have safe := held.safe payload (kept member) p addressed
  exact ⟨safe.verified, safe.unverified⟩

/-- What a flush hands to quinn reaches the identity it was addressed to. -/
def Delivered (h : Handed Addressed) : Prop := ∀ p, h.payload.addressee = some p → h.identity = some p

theorem delivered_flush (held : c.gate.Sealed) (addr : SocketAddr) : ∀ h ∈ handed addr c, Delivered h := by
  intro h member p addressed
  unfold handed QuicConnection.flushPending at member
  split at member
  · cases member
  split at member
  · cases member
  next passes =>
    obtain ⟨_, _, sent⟩ := QuinnConn.sendAll_spec c.conn c.pending
    obtain ⟨payload, taken, rfl⟩ := List.mem_map.mp member
    have safe := held.safe payload (sent taken) p addressed
    exact safe.identity held.known (by rw [gate_mismatch]; simpa using passes)

/-! ### Events -/

def AllSealed (t : OverlayQuicTransport Addressed) : Prop := ∀ addr g, t.gateAt addr = some g → g.Sealed

variable {t t' : OverlayQuicTransport Addressed}

theorem allSealed_of_sameGates (held : AllSealed t) (same : SameGates t t') : AllSealed t' := by
  intro addr g found
  rw [same.gates] at found
  exact held addr g found

theorem sealed_of_found (held : AllSealed t) {addr : SocketAddr} (found : t.connections[addr]? = some c) :
    c.gate.Sealed := held addr c.gate (by rw [gateAt, found]; rfl)

theorem allSealed_setConnection (held : AllSealed t) (addr : SocketAddr) (own : c.gate.Sealed) :
    AllSealed (t.setConnection addr c) := by
  intro other g found
  rw [gateAt_setConnection] at found
  split at found
  · cases found
    exact own
  · exact held other g found

theorem sealed_new (handle : ConnectionHandle) (conn : QuinnConn Addressed) (socket : Option SocketId) :
    (QuicConnection.new handle conn socket).gate.Sealed := by
  refine ⟨fun x known => ?_, fun payload member => ?_⟩
  · cases known
  · cases member

/-- Learning the verified identity makes no difference to what is safe. -/
theorem sealed_identify (held : c.gate.Sealed) (established : Bool) :
    ({ c with peerPubkey := c.conn.identity, established := established } : QuicConnection Addressed).gate.Sealed := by
  refine ⟨fun x known => known, fun payload member p addressed => ?_⟩
  have safe := held.safe payload member p addressed
  cases before : c.peerPubkey with
  | none =>
    have expected : c.expectPubkey = some p := safe.unverified before
    refine ⟨fun x known => ?_, fun _ => expected⟩
    by_cases same : x = p
    · exact .inl same
    · have other : c.conn.identity = some x := known
      exact .inr (by simp [Gate.mismatch, QuicConnection.gate, expected, other, same])
  | some y =>
    have stays : c.conn.identity = some y := held.known y before
    refine ⟨fun x known => ?_, fun unknown => ?_⟩
    · have same : y = x := Option.some.inj (stays.symm.trans known)
      subst same
      rcases safe.verified y before with here | closed
      · exact .inl here
      · refine .inr ?_
        simpa [Gate.mismatch, QuicConnection.gate, before, stays] using closed
    · have none : c.conn.identity = Option.none := unknown
      rw [stays] at none
      cases none

theorem peerPubkey_or_identity (held : c.gate.Sealed) : c.peerPubkey.or c.conn.identity = c.conn.identity := by
  cases before : c.peerPubkey with
  | none => rfl
  | some x =>
    have stays : c.conn.identity = some x := held.known x before
    rw [stays]
    rfl

theorem sealed_received (held : c.gate.Sealed) :
    ({ c with conn := { c.conn with received := [] } } : QuicConnection Addressed).gate.Sealed :=
  ⟨held.known, held.safe⟩

theorem allSealed_removeConnection (held : AllSealed t) (peer : SocketAddr) : AllSealed (t.removeConnection peer) := by
  unfold removeConnection
  cases found : t.connections[peer]? with
  | none => exact held
  | some c =>
    refine allSealed_of_sameGates ?_ (sameGates_failStreams _ _)
    intro addr g kept
    refine held addr g ?_
    unfold gateAt at kept ⊢
    simp only [TreeMap.getElem?_erase] at kept
    split at kept
    · cases kept
    · exact kept

/-- What an event leaves behind and hands out. -/
def Safe (result : OverlayQuicTransport Addressed × List (Handed Addressed)) : Prop :=
  AllSealed result.1 ∧ ∀ h ∈ result.2, Delivered h

theorem safe_silent (held : AllSealed t) : Safe (t, []) := ⟨held, fun h member => by cases member⟩

theorem safe_connected (held : AllSealed t) (peer : SocketAddr) (own : c.gate.Sealed) :
    Safe (t.onConnected peer c) := by
  have identified := sealed_identify own true
  unfold onConnected
  rw [peerPubkey_or_identity own]
  exact ⟨allSealed_setConnection held peer (sealed_flush identified), delivered_flush identified peer⟩

theorem safe_event (held : AllSealed t) (peer : SocketAddr) (event : QuinnEvent) :
    Safe (t.handleConnectionEvent peer event) := by
  unfold handleConnectionEvent
  split
  · exact safe_silent (allSealed_of_sameGates held (sameGates_handleStreamEvent t peer _))
  cases found : t.connections[peer]? with
  | none => exact safe_silent held
  | some c =>
    have own := sealed_of_found held found
    dsimp only
    split
    · exact safe_silent (allSealed_setConnection held peer (sealed_identify own c.established))
    · exact safe_connected held peer own
    · exact safe_silent (allSealed_setConnection held peer (sealed_received own))
    · exact ⟨allSealed_setConnection held peer (sealed_flush own), delivered_flush own peer⟩
    · refine safe_silent (allSealed_removeConnection ?_ peer)
      exact held
    · exact safe_silent held

theorem sealed_pumped (held : c.gate.Sealed) : (pumped c).gate.Sealed := by
  have flushed := sealed_flush held
  refine ⟨flushed.known, fun payload member p addressed => ?_⟩
  have safe := flushed.safe payload member p addressed
  exact ⟨safe.verified, safe.unverified⟩

theorem safe_drive (held : AllSealed t) : Safe t.drive := by
  have pumping : AllSealed { t with connections := t.connections.map (fun _ c => pumped c) } := by
    intro addr g found
    unfold gateAt at found
    simp only [TreeMap.getElem?_map] at found
    cases before : t.connections[addr]? with
    | none =>
      rw [before] at found
      cases found
    | some c =>
      rw [before] at found
      cases found
      exact sealed_pumped (sealed_of_found held before)
  have events := @run_safe _ _ _ handleAppEvent (fun _ _ => True) _ AllSealed Delivered pumping
    (fun _ entry held _ => safe_event held entry.1 entry.2) t.appEvents (meets_true _)
  refine ⟨events.1, fun h member => ?_⟩
  rcases List.mem_append.mp member with flushed | late
  · obtain ⟨⟨addr, c⟩, entry, sent⟩ := List.mem_flatMap.mp flushed
    exact delivered_flush (sealed_of_found held (TreeMap.mem_toList_iff_getElem?_eq_some.mp entry)) addr h sent
  · exact events.2 h late

/-! ### Operations -/

theorem allSealed_ensureConnection (held : AllSealed t) {peer : SocketAddr} {socket : Option SocketId}
    {dialed : Option (ConnectionHandle × QuinnConn Addressed)}
    (h : t.ensureConnection peer socket dialed = some t') : AllSealed t' := by
  unfold ensureConnection at h
  split at h
  · cases h
    exact held
  split at h
  · cases h
  split at h
  · cases h
  split at h
  · cases h
  next handle conn =>
    cases h
    exact allSealed_setConnection held peer (sealed_new handle conn socket)

theorem allSealed_withConnection (held : AllSealed t) {addr : SocketAddr}
    {f : QuicConnection Addressed → QuicConnection Addressed}
    (kept : ∀ c, t.connections[addr]? = some c → c.gate.Sealed → (f c).gate.Sealed) :
    AllSealed (t.withConnection addr f) := by
  unfold withConnection
  cases found : t.connections[addr]? with
  | none => exact held
  | some c => exact allSealed_setConnection held addr (kept c found (sealed_of_found held found))

theorem safe_dialAnd (held : AllSealed t) {dest : SocketAddr} {socket : Option SocketId}
    {dialed : Option (ConnectionHandle × QuinnConn Addressed)}
    {f : QuicConnection Addressed → QuicConnection Addressed}
    (kept : ∀ t' c, t.ensureConnection dest socket dialed = some t' → t'.connections[dest]? = some c →
      c.gate.Sealed → (f c).gate.Sealed) : Safe (t.dialAnd dest socket dialed f) := by
  unfold dialAnd
  cases dialing : t.ensureConnection dest socket dialed with
  | none => exact safe_silent held
  | some t' =>
    exact safe_drive (allSealed_withConnection (allSealed_ensureConnection held dialing)
      (fun c found own => kept t' c dialing found own))

theorem safe_expect {g : Gate Addressed} {p q : Pubkey} (safe : g.SafeFor p) :
    ({ g with expectPubkey := g.expectPubkey.or (some q) } : Gate Addressed).SafeFor p := by
  cases before : g.expectPubkey with
  | some expected =>
    have same : ({ g with expectPubkey := some expected } : Gate Addressed) = g := by rw [← before]
    rw [Option.some_or, same]
    exact safe
  | none =>
    refine ⟨fun x known => ?_, fun unknown => ?_⟩
    · rcases safe.verified x known with here | closed
      · exact .inl here
      · simp [Gate.mismatch, before] at closed
    · have expected := safe.unverified unknown
      rw [before] at expected
      cases expected

theorem sealed_expect (held : c.gate.Sealed) (expected : Pubkey) : (c.expect expected).gate.Sealed :=
  ⟨held.known, fun payload member p addressed => safe_expect (held.safe payload member p addressed)⟩

theorem sealed_queue (held : c.gate.Sealed) {payload : Addressed}
    (safe : ∀ p, payload.addressee = some p → c.gate.SafeFor p) : (c.queue payload).gate.Sealed := by
  refine ⟨held.known, fun other member p addressed => ?_⟩
  have kept : c.gate.SafeFor p := by
    rcases mem_pushBounded member with old | rfl
    · exact held.safe other old p addressed
    · exact safe p addressed
  exact ⟨kept.verified, kept.unverified⟩

theorem sealed_evolve (held : c.gate.Sealed) (next : QuinnConn Addressed) :
    ({ c with conn := c.conn.evolve next } : QuicConnection Addressed).gate.Sealed := by
  refine ⟨fun x known => ?_, fun payload member p addressed => ?_⟩
  · have before : c.conn.identity = some x := held.known x known
    simp [QuicConnection.gate, QuinnConn.evolve, before]
  · have safe := held.safe payload member p addressed
    exact ⟨safe.verified, safe.unverified⟩

theorem allSealed_handleDatagramEvent (held : AllSealed t) (event : DatagramEvent Addressed) :
    AllSealed (t.handleDatagramEvent event) := by
  cases event with
  | nothing => exact held
  | newConnection peer socket accepted =>
    unfold handleDatagramEvent
    dsimp only
    split
    · exact held
    split
    · exact held
    next handle conn => exact allSealed_setConnection held peer (sealed_new handle conn _)
  | connectionEvent handle next =>
    unfold handleDatagramEvent handleConnectionEventForHandle
    dsimp only
    split
    next peer _ =>
      cases found : t.connections[peer]? with
      | none => exact held
      | some c => exact allSealed_setConnection held peer (sealed_evolve (sealed_of_found held found) next)
    next =>
      split
      · exact held
      · exact held

def SealedIn (connections : TreeMap SocketAddr (QuicConnection Addressed)) : Prop :=
  ∀ (addr : SocketAddr) (c : QuicConnection Addressed), connections[addr]? = some c → c.gate.Sealed

theorem sealedIn_modify {connections : TreeMap SocketAddr (QuicConnection Addressed)} (held : SealedIn connections)
    (peer : SocketAddr) (next : QuinnConn Addressed) :
    SealedIn (connections.modify peer (fun c => { c with conn := c.conn.evolve next })) := by
  intro addr c found
  rw [TreeMap.getElem?_modify] at found
  split at found
  · obtain ⟨before, there, rfl⟩ := Option.map_eq_some_iff.mp found
    exact sealed_evolve (held peer before there) next
  · exact held addr c found

theorem allSealed_handleTimeouts (held : AllSealed t) (due : List (SocketAddr × QuinnConn Addressed))
    (dueProbes : List (ProbeId × QuinnConn Addressed)) : AllSealed (t.handleTimeouts due dueProbes) := by
  have start : SealedIn t.connections := fun addr c found => sealed_of_found held found
  have timedOut : SealedIn (t.handleTimeouts due dueProbes).connections :=
    List.foldlRecOn due _ start (fun _ sealed entry _ => sealedIn_modify sealed entry.1 entry.2)
  intro addr g found
  obtain ⟨c, there, rfl⟩ := Option.map_eq_some_iff.mp found
  exact timedOut addr c there

/-! ### Runs -/

/-- Payloads carry the identity their call names. -/
def Labelled : Op Addressed → Prop
  | .queueDatagram _ payload _ => payload.addressee = none
  | .queueDatagramToPeer pubkey payload => payload.addressee = some pubkey
  | .queueDatagramExpecting _ expected payload _ => payload.addressee = some expected
  | _ => True

/-- An addressed payload joins the queue of a connection only if that connection is safe for its addressee: it may
be new or without an expectation where the call records one, and must be safe already where it does not. -/
def Reserved (t : OverlayQuicTransport Addressed) : Op Addressed → Prop
  | .queueDatagramToPeer pubkey _ =>
    ∀ c ∈ (t.byPubkey[pubkey]?).bind (t.connections[·]?), c.gate.SafeFor pubkey
  | .queueDatagramExpecting dest expected _ _ =>
    ∀ c ∈ t.connections[dest]?, c.expectPubkey = none ∨ c.gate.SafeFor expected
  | _ => True

instance (op : Op Addressed) : Decidable (Labelled op) := by
  cases op with
  | queueDatagram | queueDatagramToPeer | queueDatagramExpecting => exact inferInstanceAs (Decidable (_ = _))
  | _ => exact .isTrue trivial

instance (t : OverlayQuicTransport Addressed) (op : Op Addressed) : Decidable (Reserved t op) := by
  cases op with
  | queueDatagramToPeer | queueDatagramExpecting => exact inferInstanceAs (Decidable (∀ c ∈ _, _))
  | _ => exact .isTrue trivial

theorem safeFor_expected {p : Pubkey} (unclaimed : c.expectPubkey = none) : (c.expect p).gate.SafeFor p := by
  have claimed : (c.expect p).gate.expectPubkey = some p := by simp [QuicConnection.expect, QuicConnection.gate, unclaimed]
  refine ⟨fun x known => ?_, fun _ => claimed⟩
  by_cases same : x = p
  · exact .inl same
  · exact .inr (by simp [Gate.mismatch, claimed, known, same])

theorem connection_after_ensure {peer : SocketAddr} {socket : Option SocketId}
    {dialed : Option (ConnectionHandle × QuinnConn Addressed)} (h : t.ensureConnection peer socket dialed = some t')
    (found : t'.connections[peer]? = some c) : t.connections[peer]? = some c ∨ c.expectPubkey = none := by
  unfold ensureConnection at h
  split at h
  · cases h
    exact .inl found
  split at h
  · cases h
  split at h
  · cases h
  split at h
  · cases h
  next handle conn =>
    cases h
    have fresh : some (QuicConnection.new handle conn socket) = some c := by
      simpa [connections_setConnection] using found
    cases fresh
    exact .inr rfl

theorem safe_queueDatagramExpecting (held : AllSealed t) {dest : SocketAddr} {expected : Pubkey} {payload : Addressed}
    {dialed : Option (ConnectionHandle × QuinnConn Addressed)} (label : payload.addressee = some expected)
    (reserved : ∀ c ∈ t.connections[dest]?, c.expectPubkey = none ∨ c.gate.SafeFor expected) :
    Safe (t.queueDatagramExpecting dest expected payload dialed) := by
  refine safe_dialAnd held (fun t' c dialing found own => ?_)
  refine sealed_queue (sealed_expect own expected) (fun p addressed => ?_)
  rw [label] at addressed
  cases addressed
  have admitted : c.expectPubkey = none ∨ c.gate.SafeFor expected := by
    rcases connection_after_ensure dialing found with old | fresh
    · exact reserved c old
    · exact .inl fresh
  rcases admitted with unclaimed | safe
  · exact safeFor_expected unclaimed
  · exact safe_expect safe

theorem safe_queueDatagramToPeer (held : AllSealed t) {pubkey : Pubkey} {payload : Addressed}
    (label : payload.addressee = some pubkey)
    (reserved : ∀ c ∈ (t.byPubkey[pubkey]?).bind (t.connections[·]?), c.gate.SafeFor pubkey) :
    Safe (t.queueDatagramToPeer pubkey payload) := by
  unfold queueDatagramToPeer
  cases indexed : t.byPubkey[pubkey]? with
  | none => exact safe_silent held
  | some addr =>
    dsimp only
    cases found : t.connections[addr]? with
    | none => exact safe_silent held
    | some c =>
      refine safe_drive (allSealed_setConnection held addr (sealed_queue (sealed_of_found held found) ?_))
      intro p addressed
      rw [label] at addressed
      cases addressed
      exact reserved c (by rw [indexed]; exact found)

theorem safe_driveProbes {result : OverlayQuicTransport Addressed × List (Handed Addressed)} (safe : Safe result) :
    Safe (result.1.driveProbes, result.2) :=
  ⟨allSealed_of_sameGates safe.1 (sameGates_driveProbes result.1), safe.2⟩

theorem safe_flushStream (held : AllSealed t) (stream : OverlayStreamId) (state : StreamState) :
    Safe ({ t with streamStates := t.streamStates.insert stream state }.flushStream stream).drive := by
  refine safe_drive (allSealed_of_sameGates ?_ (sameGates_flushStream _ stream))
  exact held

theorem safe_resetStream (held : AllSealed t) (stream : OverlayStreamId) : Safe (t.resetStream stream) := by
  unfold resetStream
  split
  · exact safe_silent held
  next state _ =>
    have erased : AllSealed { t with streamStates := t.streamStates.erase stream } := held
    dsimp only
    cases found : t.connections[state.peerAddr]? with
    | none => exact safe_silent erased
    | some c =>
      have same : ({ c with streams := c.streams.erase state.quicId } : QuicConnection Addressed).gate = c.gate := rfl
      refine safe_drive (allSealed_setConnection erased _ ?_)
      rw [same]
      exact sealed_of_found held found

theorem safe_step (held : AllSealed t) {op : Op Addressed} (label : Labelled op) (reserved : Reserved t op) :
    Safe (t.step op) := by
  cases op with
  | queueDatagram dest payload dialed =>
    refine safe_dialAnd held (fun t' c dialing found own => sealed_queue own (fun p addressed => ?_))
    have unaddressed : payload.addressee = none := label
    rw [unaddressed] at addressed
    cases addressed
  | queueDatagramToPeer pubkey payload => exact safe_queueDatagramToPeer held label reserved
  | queueDatagramExpecting dest expected payload dialed => exact safe_queueDatagramExpecting held label reserved
  | dialExpecting dest expected dialed => exact safe_dialAnd held (fun _ _ _ _ own => sealed_expect own expected)
  | dialExpectingFrom socket dest expected dialed =>
    exact safe_dialAnd held (fun _ _ _ _ own => sealed_expect own expected)
  | dropConnection addr => exact safe_silent (allSealed_removeConnection held addr)
  | onDatagram event => exact safe_driveProbes (safe_drive (allSealed_handleDatagramEvent held event))
  | onTimer due dueProbes => exact safe_driveProbes (safe_drive (allSealed_handleTimeouts held due dueProbes))
  | openStream pubkey => exact safe_silent (allSealed_of_sameGates held (sameGates_openStream t pubkey))
  | writeStream stream bytes =>
    show Safe (t.writeStream stream bytes)
    unfold writeStream
    split
    · exact safe_silent held
    split
    · exact safe_silent held
    · exact safe_flushStream held stream _
  | finishStream stream =>
    show Safe (t.finishStream stream)
    unfold finishStream
    split
    · exact safe_silent held
    · exact safe_flushStream held stream _
  | resetStream stream => exact safe_resetStream held stream
  | startProbe socket addr dialed =>
    exact safe_silent (allSealed_of_sameGates held (sameGates_startProbe t socket addr dialed))
  | closeProbe probe => exact safe_silent (allSealed_of_sameGates held (sameGates_closeProbe t probe))
  | registerPunchSocket socket => exact safe_silent held
  | unregisterPunchSocket socket => exact safe_silent held
  | pollInbound => exact safe_silent held
  | pollEvent => exact safe_silent held
  | pollStreamEvent => exact safe_silent held
  | pollProbeEvent => exact safe_silent held

theorem addressed_delivery (socket : SocketId) (socketV6 : Option SocketId) (ops : List (Op Addressed))
    (met : Meets step (fun t op => Labelled op ∧ Reserved t op) (OverlayQuicTransport.new socket socketV6) ops) :
    ∀ h ∈ (run step (OverlayQuicTransport.new socket socketV6) ops).2,
      ∀ p, h.payload.addressee = some p → h.identity = some p := by
  have start : AllSealed (OverlayQuicTransport.new socket socketV6) := by
    intro addr g found
    simp [gateAt, OverlayQuicTransport.new] at found
  exact (run_safe start (fun _ _ held here => safe_step held here.1 here.2) ops met).2

def sharedAddress : SocketAddr := ⟨.v4 0xC0000207, 8001⟩

/-- The handshake of the connection with handle 0 completes as the identity given. -/
def authenticates (identity : Pubkey) : Op Addressed :=
  .onDatagram (.connectionEvent 0 { QuinnConn.idle with
    identity := some identity
    events := [.handshakeDataReady, .connected] })

/-- A dial on demand, its handshake and a later send, all for identity 1. -/
def soleAddressee : List (Op Addressed) :=
  [.queueDatagramExpecting sharedAddress 1 ⟨some 1, [10]⟩ (some (0, QuinnConn.idle)),
    authenticates 1, .queueDatagramToPeer 1 ⟨some 1, [11]⟩]

theorem addressed_delivery_sole :
    Meets step (fun t op => Labelled op ∧ Reserved t op) (OverlayQuicTransport.new 0 none) soleAddressee ∧
    (run step (OverlayQuicTransport.new 0 none) soleAddressee).2.length = 2 ∧
    ∀ h ∈ (run step (OverlayQuicTransport.new 0 none) soleAddressee).2,
      ∀ p, h.payload.addressee = some p → h.identity = some p :=
  ⟨by decide, by decide, addressed_delivery 0 none soleAddressee (by decide)⟩

/-- Two identities are dialed at one address before its handshake completes; the first expectation wins. -/
def twoAddressees : List (Op Addressed) :=
  [.queueDatagramExpecting sharedAddress 1 ⟨some 1, [10]⟩ (some (0, QuinnConn.idle)),
    .queueDatagramExpecting sharedAddress 2 ⟨some 2, [20]⟩ none, authenticates 1]

theorem second_addressee_misdelivered :
    (∀ op ∈ twoAddressees, Labelled op) ∧
    ∃ h ∈ (run step (OverlayQuicTransport.new 0 none) twoAddressees).2,
      h.payload.addressee = some 2 ∧ h.identity = some 1 := by
  refine ⟨by decide, ⟨sharedAddress, 0, some 1, ⟨some 2, [20]⟩⟩, ?_, rfl, rfl⟩
  decide

end Lightbringer.Overlay
