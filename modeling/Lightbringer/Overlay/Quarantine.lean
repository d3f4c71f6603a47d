import Lightbringer.Overlay.AdvertFlood
import Lightbringer.Overlay.Relay
import Lightbringer.Overlay.Transport

/-!
# Quarantined addresses

The part of `OverlayCore` (`overlay/service.rs`) that dials peers by their adverts and decides whom it may send to. A
dial waits for its connection to prove the advertised identity; when it proves another or none in time, the address is
quarantined. Nothing but the arrival of other addresses ever takes one out again.
-/

namespace Lightbringer.Overlay
open Std Machine

def confirmTimeout : Nat := fromSecs 3

def maxQuarantine : Nat := 4096

/-- The part of `OverlayTransport` that routing uses. `Dial` is what starting a connection yields, `Call` what else
happens to the transport. -/
class RoutingTransport (T : Type) where
  Payload : Type
  Dial : Type
  Call : Type
  call : T → Call → T
  peerIdentity : T → SocketAddr → Option Pubkey
  connectedPeers : T → List Pubkey
  connectionAddr : T → Pubkey → Option SocketAddr
  queueDatagramToPeer : T → Pubkey → Payload → T
  queueDatagramExpecting : T → SocketAddr → Pubkey → Payload → Dial → T × Bool
  dialExpecting : T → SocketAddr → Pubkey → Dial → T × Bool
  dropConnection : T → SocketAddr → T
  mem_connectedPeers : ∀ t pubkey, pubkey ∈ connectedPeers t ↔ (connectionAddr t pubkey).isSome

structure ConfirmDial where
  expected : Pubkey
  deadline : Instant
  deriving DecidableEq

structure RoutingCore (T : Type) extends GossipNode where
  transport : T
  /-- Whether the node has an address of the newer family bound. -/
  hasV6 : Bool
  confirming : TreeMap SocketAddr ConfirmDial
  quarantined : Lru SocketAddr Unit
  quarantinedCount : Nat
  droppedUnreachable : Nat

/-- What the environment answers during a step: the clock, `endpoint.connect` and `begin_punch`. -/
structure RoutingEnv (T : Type) [RoutingTransport T] where
  now : Instant
  dial : RoutingTransport.Dial T
  punch : Bool

inductive RoutingAction where
  | timedOut (addr : SocketAddr) (expected : Pubkey)
  | mismatched (addr : SocketAddr) (expected : Pubkey)
  | accepted (advert : PeerAdvert)
  /-- The payload for a peer went to the transport, to a punch, or nowhere. -/
  | handed (pubkey : Pubkey)
  | punched (pubkey : Pubkey)
  | dropped (pubkey : Pubkey)
  deriving DecidableEq

namespace RoutingCore

variable {T : Type} [RoutingTransport T]

def new (localPubkey : Pubkey) (transport : T) (hasV6 : Bool) (ttl : Nat) : RoutingCore T where
  localPubkey := localPubkey
  gossip := LightbringerGossip.new ttl
  invalidAdverts := 0
  transport := transport
  hasV6 := hasV6
  confirming := ∅
  quarantined := Lru.new maxQuarantine
  quarantinedCount := 0
  droppedUnreachable := 0

variable (core : RoutingCore T)

def isQuarantined (addr : SocketAddr) : Bool := (core.quarantined.peek addr).isSome

def quarantine (addr : SocketAddr) : RoutingCore T :=
  { core with
    quarantinedCount := if core.isQuarantined addr then core.quarantinedCount else core.quarantinedCount + 1
    quarantined := core.quarantined.push addr () }

def view (now : Instant) : PeerView where
  connectedPeers := RoutingTransport.connectedPeers core.transport
  connectionAddr := RoutingTransport.connectionAddr core.transport
  quarantined := core.isQuarantined
  directPeers := core.gossip.directPeers now
  directAddrs pubkey := ((core.gossip.get pubkey now).2.map PeerAdvert.directAddrs).getD []
  hasV6 := core.hasV6

def usablePeers (now : Instant) (exclude : Option Pubkey) : List Pubkey :=
  (core.view now).usablePeers core.localPubkey exclude

/-- A dial that waits for an identity; the first expectation of an address stays. -/
def dialFor (addr : SocketAddr) (expected : Pubkey) (payload : Option (RoutingTransport.Payload T)) (deadline : Instant)
    (dial : RoutingTransport.Dial T) : RoutingCore T × Bool :=
  let (transport, queued) := match payload with
    | some payload => RoutingTransport.queueDatagramExpecting core.transport addr expected payload dial
    | none => RoutingTransport.dialExpecting core.transport addr expected dial
  if queued then
    ({ core with transport := transport, confirming := core.confirming.insertIfNew addr ⟨expected, deadline⟩ }, true)
  else ({ core with transport := transport }, false)

def sendToPeer (env : RoutingEnv T) (pubkey : Pubkey) (payload : RoutingTransport.Payload T) :
    RoutingCore T × List RoutingAction :=
  let dropped : RoutingCore T := { core with droppedUnreachable := core.droppedUnreachable + 1 }
  match (core.view env.now).route pubkey with
  | .connection _ =>
    ({ core with transport := RoutingTransport.queueDatagramToPeer core.transport pubkey payload }, [.handed pubkey])
  | .drop => (dropped, [.dropped pubkey])
  | .dial addr =>
    let core := { core with gossip := (core.gossip.get pubkey env.now).1 }
    let (core, queued) := core.dialFor addr pubkey (some payload) (env.now + confirmTimeout) env.dial
    (core, [if queued then .handed pubkey else .dropped pubkey])
  | .punch =>
    let gossip := (core.gossip.get pubkey env.now).1
    if env.punch then ({ core with gossip := gossip }, [.punched pubkey])
    else ({ dropped with gossip := gossip }, [.dropped pubkey])

def resolveConfirm (addr : SocketAddr) (connectedPubkey : Pubkey) : RoutingCore T × List RoutingAction :=
  let resolved := { core with confirming := core.confirming.erase addr }
  match core.confirming[addr]? with
  | some confirm =>
    if confirm.expected ≠ connectedPubkey then
      let core := resolved.quarantine addr
      ({ core with transport := RoutingTransport.dropConnection core.transport addr },
        [.mismatched addr confirm.expected])
    else (resolved, [])
  | none => (resolved, [])

def expireConfirm (core : RoutingCore T) (entry : SocketAddr × ConfirmDial) : RoutingCore T × List RoutingAction :=
  ({ core with confirming := core.confirming.erase entry.1 }.quarantine entry.1, [.timedOut entry.1 entry.2.expected])

def expireConfirms (now : Instant) : RoutingCore T × List RoutingAction :=
  run expireConfirm core (core.confirming.toList.filter (fun entry => entry.2.deadline ≤ now))

/-- `handle_frame` on an advert; `raw` is the frame as it came. -/
def handleAdvert [AdvertSignature] (source : SocketAddr) (signed : SignedPeerAdvert) (raw : RoutingTransport.Payload T)
    (now : Instant) : RoutingCore T × List RoutingAction :=
  match core.toGossipNode.handlePeerAdvertisement signed now (RoutingTransport.peerIdentity core.transport source)
      (RoutingTransport.connectedPeers core.transport) with
  | (node, none) => ({ core with toGossipNode := node }, [])
  | (node, some targets) =>
    ({ core with
        toGossipNode := node
        transport := targets.foldl (fun t target => RoutingTransport.queueDatagramToPeer t target raw) core.transport },
      [.accepted signed.advert])

inductive Input (T : Type) [RoutingTransport T] where
  | call (call : RoutingTransport.Call T)
  | advert (source : SocketAddr) (signed : SignedPeerAdvert) (raw : RoutingTransport.Payload T) (now : Instant)
  | send (env : RoutingEnv T) (pubkey : Pubkey) (payload : RoutingTransport.Payload T)
  /-- The other dials for an identity: requested paths, punches and v6 probing. -/
  | dial (addr : SocketAddr) (expected : Pubkey) (payload : Option (RoutingTransport.Payload T)) (deadline : Instant)
      (dial : RoutingTransport.Dial T)
  /-- A `Connected` event is polled. -/
  | connected (addr : SocketAddr) (pubkey : Pubkey)
  | timer (now : Instant)

def step [AdvertSignature] (core : RoutingCore T) (input : Input T) : RoutingCore T × List RoutingAction :=
  match input with
  | .call call => ({ core with transport := RoutingTransport.call core.transport call }, [])
  | .advert source signed raw now => core.handleAdvert source signed raw now
  | .send env pubkey payload => core.sendToPeer env pubkey payload
  | .dial addr expected payload deadline dial => ((core.dialFor addr expected payload deadline dial).1, [])
  | .connected addr pubkey => core.resolveConfirm addr pubkey
  | .timer now => core.expireConfirms now

/-! ### What a step does to the quarantine -/

def quarantinings (log : List RoutingAction) : List SocketAddr :=
  log.filterMap (fun action => match action with
    | .timedOut addr _ => some addr
    | .mismatched addr _ => some addr
    | _ => none)

theorem quarantinings_append (log more : List RoutingAction) :
    quarantinings (log ++ more) = quarantinings log ++ quarantinings more := List.filterMap_append

/-- Addresses enter the quarantine as they are reported, and only adverts of others are accepted. -/
structure Follows (core core' : RoutingCore T) (actions : List RoutingAction) : Prop where
  localPubkey : core'.localPubkey = core.localPubkey
  foreign : ∀ advert, .accepted advert ∈ actions → advert.pubkey ≠ core.localPubkey
  tracks : ∀ history, core.quarantined.Tracks maxQuarantine history →
    core'.quarantined.Tracks maxQuarantine (history ++ quarantinings actions)

variable {core core' core'' : RoutingCore T} {actions more : List RoutingAction}

omit [RoutingTransport T] in
theorem Follows.trans (first : Follows core core' actions) (second : Follows core' core'' more) :
    Follows core core'' (actions ++ more) := by
  refine ⟨second.localPubkey.trans first.localPubkey, fun advert member => ?_, fun history held => ?_⟩
  · rcases List.mem_append.mp member with old | new
    · exact first.foreign advert old
    · rw [← first.localPubkey]
      exact second.foreign advert new
  · rw [quarantinings_append, ← List.append_assoc]
    exact second.tracks _ (first.tracks history held)

omit [RoutingTransport T] in
/-- A step that neither quarantines nor accepts. -/
theorem follows_plain (localPubkey : core'.localPubkey = core.localPubkey) (same : core'.quarantined = core.quarantined)
    (silent : quarantinings actions = []) (none : ∀ advert, .accepted advert ∉ actions) : Follows core core' actions := by
  refine ⟨localPubkey, fun advert member => (none advert member).elim, fun history held => ?_⟩
  rw [silent, List.append_nil, same]
  exact held

omit [RoutingTransport T] in
theorem follows_quarantine {addr : SocketAddr} {action : RoutingAction} (localPubkey : core'.localPubkey = core.localPubkey)
    (pushed : core'.quarantined = core.quarantined.push addr ()) (reported : quarantinings [action] = [addr])
    (none : ∀ advert, action ≠ .accepted advert) : Follows core core' [action] := by
  refine ⟨localPubkey, fun advert member => ?_, fun history held => ?_⟩
  · exact (none advert (List.mem_singleton.mp member).symm).elim
  · rw [reported, pushed]
    exact Lru.tracks_push held addr ()

theorem follows_dialFor (core : RoutingCore T) (addr : SocketAddr) (expected : Pubkey)
    (payload : Option (RoutingTransport.Payload T)) (deadline : Instant) (dial : RoutingTransport.Dial T) :
    (core.dialFor addr expected payload deadline dial).1.localPubkey = core.localPubkey ∧
    (core.dialFor addr expected payload deadline dial).1.quarantined = core.quarantined := by
  unfold dialFor
  generalize (match payload with
    | some payload => RoutingTransport.queueDatagramExpecting core.transport addr expected payload dial
    | none => RoutingTransport.dialExpecting core.transport addr expected dial) = sent
  dsimp only
  split
  · exact ⟨rfl, rfl⟩
  · exact ⟨rfl, rfl⟩

theorem follows_sendToPeer (core : RoutingCore T) (env : RoutingEnv T) (pubkey : Pubkey)
    (payload : RoutingTransport.Payload T) :
    Follows core (core.sendToPeer env pubkey payload).1 (core.sendToPeer env pubkey payload).2 := by
  unfold sendToPeer
  dsimp only
  split
  · exact follows_plain rfl rfl rfl (by simp)
  · exact follows_plain rfl rfl rfl (by simp)
  next addr _ =>
    obtain ⟨localPubkey, same⟩ := follows_dialFor { core with gossip := (core.gossip.get pubkey env.now).1 } addr pubkey
      (some payload) (env.now + confirmTimeout) env.dial
    refine follows_plain localPubkey same ?_ ?_
    · split
      · rfl
      · rfl
    · intro advert
      split
      · simp
      · simp
  · split
    · exact follows_plain rfl rfl rfl (by simp)
    · exact follows_plain rfl rfl rfl (by simp)

theorem follows_resolveConfirm (core : RoutingCore T) (addr : SocketAddr) (pubkey : Pubkey) :
    Follows core (core.resolveConfirm addr pubkey).1 (core.resolveConfirm addr pubkey).2 := by
  unfold resolveConfirm
  dsimp only
  split
  · split
    · exact follows_quarantine rfl rfl rfl (by simp)
    · exact follows_plain rfl rfl rfl (by simp)
  · exact follows_plain rfl rfl rfl (by simp)

omit [RoutingTransport T] in
theorem follows_expireConfirms (entries : List (SocketAddr × ConfirmDial)) (core : RoutingCore T) :
    Follows core (run expireConfirm core entries).1 (run expireConfirm core entries).2 := by
  induction entries generalizing core with
  | nil => exact follows_plain rfl rfl rfl (by simp)
  | cons entry rest ih =>
    have first : Follows core (expireConfirm core entry).1 (expireConfirm core entry).2 :=
      follows_quarantine rfl rfl rfl (by simp)
    exact first.trans (ih _)

theorem follows_handleAdvert [AdvertSignature] (core : RoutingCore T) (source : SocketAddr) (signed : SignedPeerAdvert)
    (raw : RoutingTransport.Payload T) (now : Instant) :
    Follows core (core.handleAdvert source signed raw now).1 (core.handleAdvert source signed raw now).2 := by
  unfold handleAdvert
  rcases GossipMesh.handle_cases core.toGossipNode signed now (RoutingTransport.peerIdentity core.transport source)
      (RoutingTransport.connectedPeers core.transport) with
    ⟨invalid, ignored⟩ | ⟨foreign, _, ⟨_, refused⟩ | ⟨_, targets, _, forwards⟩⟩
  · rw [ignored]
    exact follows_plain rfl rfl rfl (by simp)
  · rw [refused]
    exact follows_plain rfl rfl rfl (by simp)
  · rw [forwards]
    refine ⟨rfl, fun advert member => ?_, fun history held => ?_⟩
    · cases List.mem_singleton.mp member
      exact foreign
    · exact (List.append_nil history).symm ▸ held

theorem follows_step [AdvertSignature] (core : RoutingCore T) (input : Input T) :
    Follows core (core.step input).1 (core.step input).2 := by
  cases input with
  | call call => exact follows_plain rfl rfl rfl (by simp [step])
  | advert source signed raw now => exact follows_handleAdvert core source signed raw now
  | send env pubkey payload => exact follows_sendToPeer core env pubkey payload
  | dial addr expected payload deadline dial =>
    obtain ⟨localPubkey, same⟩ := follows_dialFor core addr expected payload deadline dial
    exact follows_plain localPubkey same rfl (by simp [step])
  | connected addr pubkey => exact follows_resolveConfirm core addr pubkey
  | timer now => exact follows_expireConfirms _ core

theorem follows_run [AdvertSignature] (inputs : List (Input T)) (core : RoutingCore T) :
    Follows core (run step core inputs).1 (run step core inputs).2 := by
  induction inputs generalizing core with
  | nil => exact follows_plain rfl rfl rfl (by simp)
  | cons input rest ih => exact (follows_step core input).trans (ih _)

/-! ### A peer that comes back -/

/-- A connected peer is used and sent to exactly when its address is not quarantined. -/
theorem usable_and_handed_iff (core : RoutingCore T) (env : RoutingEnv T) {pubkey : Pubkey} {addr : SocketAddr}
    (foreign : pubkey ≠ core.localPubkey) (connected : RoutingTransport.connectionAddr core.transport pubkey = some addr)
    (payload : RoutingTransport.Payload T) :
    pubkey ∈ core.usablePeers env.now none ∧ (core.sendToPeer env pubkey payload).2 = [.handed pubkey] ↔
      core.isQuarantined addr = false := by
  have route : (core.view env.now).route pubkey = if core.isQuarantined addr then .drop else .connection addr := by
    have seen : (core.view env.now).connectionAddr pubkey = some addr := connected
    unfold PeerView.route
    rw [seen]
    rfl
  constructor
  · rintro ⟨_, handed⟩
    cases quarantined : core.isQuarantined addr with
    | false => rfl
    | true =>
      rw [quarantined, if_pos rfl] at route
      rw [sendToPeer, route] at handed
      simp at handed
  · intro free
    rw [free] at route
    constructor
    · have there : pubkey ∈ RoutingTransport.connectedPeers core.transport :=
        (RoutingTransport.mem_connectedPeers core.transport pubkey).mpr (by rw [connected]; rfl)
      unfold usablePeers PeerView.usablePeers
      simp [Shuffle.mem_canonical, view, there, connected, free, foreign]
    · rw [sendToPeer, route]
      simp

/-- The dial for the peer timed out at the address, a higher advert of it for the address was accepted since, and its
connection is at the address now. -/
structure Returned (core : RoutingCore T) (log : List RoutingAction) (pubkey : Pubkey) (addr : SocketAddr) : Prop where
  superseded : ∃ before between after advert,
    log = before ++ .timedOut addr pubkey :: between ++ .accepted advert :: after ∧ advert.pubkey = pubkey ∧
    addr ∈ advert.directAddrs ∧
    ∀ older, .accepted older ∈ before → older.pubkey = pubkey → older.advertSeq < advert.advertSeq
  connected : RoutingTransport.connectionAddr core.transport pubkey = some addr

/-- Such a peer is used and sent to exactly when so many other addresses were quarantined since that its own was pushed
out. -/
theorem quarantine_recovers_iff [AdvertSignature] (localPubkey : Pubkey) (transport : T) (hasV6 : Bool) (ttl : Nat)
    (inputs : List (Input T)) {pubkey : Pubkey} {addr : SocketAddr}
    (back : Returned (run step (new localPubkey transport hasV6 ttl) inputs).1
      (run step (new localPubkey transport hasV6 ttl) inputs).2 pubkey addr)
    (env : RoutingEnv T) (payload : RoutingTransport.Payload T) :
    let core := (run step (new localPubkey transport hasV6 ttl) inputs).1
    let log := (run step (new localPubkey transport hasV6 ttl) inputs).2
    pubkey ∈ core.usablePeers env.now none ∧ (core.sendToPeer env pubkey payload).2 = [.handed pubkey] ↔
      addr ∉ (Lru.recent (quarantinings log)).take maxQuarantine := by
  intro core log
  have follows := follows_run inputs (new localPubkey transport hasV6 ttl)
  have held : core.quarantined.Tracks maxQuarantine (quarantinings log) :=
    follows.tracks [] (Lru.tracks_new maxQuarantine)
  obtain ⟨before, between, after, advert, split, own, _, _⟩ := back.superseded
  have foreign : pubkey ≠ core.localPubkey := by
    rw [follows.localPubkey, ← own]
    refine follows.foreign advert ?_
    rw [split]
    exact List.mem_append_right _ (List.mem_cons_self ..)
  rw [usable_and_handed_iff core env foreign back.connected, ← held.keys, ← Lru.peek_isSome_iff]
  exact (Bool.not_eq_true _).symm.to_iff

end RoutingCore

/-! ### The QUIC transport -/

instance {ν : Type} : RoutingTransport (OverlayQuicTransport ν) where
  Payload := ν
  Dial := Option (ConnectionHandle × QuinnConn ν)
  Call := OverlayQuicTransport.Op ν
  call t op := (t.step op).1
  peerIdentity t addr := (t.connections[addr]?).bind (·.peerPubkey)
  connectedPeers t := t.byPubkey.keys
  connectionAddr t pubkey := t.byPubkey[pubkey]?
  queueDatagramToPeer t pubkey payload := (t.queueDatagramToPeer pubkey payload).1
  queueDatagramExpecting t addr expected payload dial :=
    ((t.queueDatagramExpecting addr expected payload dial).1, (t.ensureConnection addr none dial).isSome)
  dialExpecting t addr expected dial :=
    ((t.dialExpecting addr expected dial).1, (t.ensureConnection addr none dial).isSome)
  dropConnection t addr := t.removeConnection addr
  mem_connectedPeers t pubkey := by rw [TreeMap.mem_keys, TreeMap.mem_iff_isSome_getElem?]

namespace RoutingCore

def lateAddress : SocketAddr := ⟨.v4 0xC0000207, 8001⟩

def advertNumbered (seq : UInt64) : SignedPeerAdvert :=
  ⟨⟨1, seq, 60000, .direct [lateAddress], .inConnection⟩, List.replicate 64 0⟩

def frame : Nat := 7

/-- A dial for identity 1 times out; then its next advert arrives and the connection comes up as identity 1. -/
def outage : List (Input (OverlayQuicTransport Nat)) :=
  [.advert lateAddress (advertNumbered 1) frame (fromSecs 1),
    .send ⟨fromSecs 2, some (0, QuinnConn.idle), false⟩ 1 frame,
    .timer (fromSecs 6), .advert lateAddress (advertNumbered 2) frame (fromSecs 7),
    .call (.onDatagram (.connectionEvent 0 { QuinnConn.idle with
      identity := some 1
      events := [.handshakeDataReady, .connected] })),
    .connected lateAddress 1]

def afterOutage : RoutingCore (OverlayQuicTransport Nat) × List RoutingAction :=
  run (@step _ _ GossipMesh.allValid) (new 9 (OverlayQuicTransport.new 0 none) false (fromSecs 60)) outage

theorem returned_afterOutage : Returned afterOutage.1 afterOutage.2 1 lateAddress := by
  have log : afterOutage.2 = [.accepted (advertNumbered 1).advert, .handed 1] ++ .timedOut lateAddress 1 :: [] ++
      .accepted (advertNumbered 2).advert :: [] := by decide +kernel
  refine ⟨⟨_, _, _, _, log, rfl, by decide, ?_⟩, by decide +kernel⟩
  intro older member own
  simp only [List.mem_cons, RoutingAction.accepted.injEq, reduceCtorEq, List.not_mem_nil, or_false] at member
  subst member
  decide

theorem quarantine_recovers_iff_outage :
    Returned afterOutage.1 afterOutage.2 1 lateAddress ∧
    (1 ∈ afterOutage.1.usablePeers (fromSecs 8) none ∧
      (afterOutage.1.sendToPeer ⟨fromSecs 8, none, false⟩ 1 frame).2 = [.handed 1] ↔
      lateAddress ∉ (Lru.recent (quarantinings afterOutage.2)).take maxQuarantine) :=
  ⟨returned_afterOutage, @quarantine_recovers_iff _ _ GossipMesh.allValid 9 (OverlayQuicTransport.new 0 none) false
    (fromSecs 60) outage _ _ returned_afterOutage ⟨fromSecs 8, none, false⟩ frame⟩

/-- The peer is back at its address, and what is sent to it is dropped. -/
theorem returned_peer_dropped :
    Returned afterOutage.1 afterOutage.2 1 lateAddress ∧ 1 ∉ afterOutage.1.usablePeers (fromSecs 8) none ∧
    (afterOutage.1.sendToPeer ⟨fromSecs 8, none, false⟩ 1 frame).2 = [.dropped 1] :=
  ⟨returned_afterOutage, by decide +kernel, by decide +kernel⟩

end RoutingCore

end Lightbringer.Overlay
