import Lightbringer.Overlay.Transport
import Lightbringer.Overlay.Discovery
import Lightbringer.Overlay.Gossip

/-!
# Dial-back in the overlay core

`overlay/service.rs`, as far as it finds out and advertises where this node can be reached: address observations,
dial-back requests and results, the helper's probes, and the timer that advertises and expires. The core is generic
in its transport, as in the source. What the environment answers during a step comes with its input. What the rest
of the core does to the transport (shreds, gossip, repair, hole punching) are calls of their own.
-/

namespace Lightbringer.Overlay
open Std Machine

/-- `OverlayFrame`; the frames handled elsewhere are opaque here. -/
inductive OverlayFrame where
  | addressObservation (observed : SocketAddr)
  | dialBackRequest (nonce : Nat) (probePort : Option UInt16)
  | dialBackResult (nonce : Nat) (ok : Bool)
  | other (raw : List UInt8)
  deriving DecidableEq

/-- The part of `OverlayTransport` that dial-back uses. `Dial` is what starting a connection yields, `Call` what
else happens to the transport: the network, timeouts, and the rest of the core. -/
class OverlayTransport (T : Type) where
  Dial : Type
  Call : Type
  call : T → Call → T
  peerIdentity : T → SocketAddr → Option Pubkey
  connectedPeers : T → List Pubkey
  connections : T → List (Pubkey × SocketAddr)
  queueDatagramToPeer : T → Pubkey → OverlayFrame → T × Bool
  queueDatagram : T → SocketAddr → OverlayFrame → Dial → T × Bool
  startProbe : T → SocketId → SocketAddr → Dial → T × Option ProbeId
  closeProbe : T → ProbeId → T
  pollProbeEvent : T → T × Option ProbeEvent

/-! ### Rate limit -/

def rateLimitWindow : Nat := fromSecs 1

def maxRateLimitPeers : Nat := 2048

structure RateWindow where
  windowStart : Instant
  count : Nat

structure RepairRateLimiter where
  peers : Lru Pubkey RateWindow
  maxPerWindow : Nat

namespace RepairRateLimiter

def new (maxPerWindow : Nat) : RepairRateLimiter := ⟨Lru.new maxRateLimitPeers, maxPerWindow⟩

def checkAndIncrement (l : RepairRateLimiter) (peer : Pubkey) (now : Instant) : RepairRateLimiter × Bool :=
  let (peers, found) := l.peers.get peer
  let window := found.getD ⟨now, 0⟩
  let window := if rateLimitWindow ≤ now - window.windowStart then ⟨now, 0⟩ else window
  if l.maxPerWindow ≤ window.count then ({ l with peers := peers.push peer window }, false)
  else ({ l with peers := peers.push peer { window with count := window.count + 1 } }, true)

end RepairRateLimiter

/-! ### The core -/

def advertInterval : Nat := fromSecs 10

def dialbackTimeout : Nat := fromSecs 3

def maxDialbackPerSecond : Nat := 4

def minUnprivilegedPort : UInt16 := 1024

def maxHelperProbes : Nat := 64

inductive CandidateKind where
  | observed
  | portMapped
  | v6
  deriving DecidableEq

structure DialBackPending where
  helper : Pubkey
  kind : CandidateKind
  candidate : SocketAddr
  deadline : Instant
  deriving DecidableEq

structure HelperProbe where
  requester : Pubkey
  nonce : Nat
  socket : SocketId
  deadline : Instant
  deriving DecidableEq

/-- A mapping a gateway granted, with its lease. -/
structure Mapped where
  external : SocketAddr
  lease : Nat
  grantedAt : Instant
  deriving DecidableEq

def Mapped.expired (m : Mapped) (now : Instant) : Bool := m.grantedAt + m.lease ≤ now

/-- Of the port mapper only the mapping it holds; its conversation with the gateway is the environment's. -/
structure PortMapper where
  mapped : Option Mapped

def PortMapper.mappedExternal (p : PortMapper) (now : Instant) : Option SocketAddr :=
  (p.mapped.filter (fun mapped => !mapped.expired now)).map (·.external)

structure OverlayCore (T : Type) where
  localPubkey : Pubkey
  transport : T
  discovery : AddressDiscovery
  discoveryV6 : Option AddressDiscovery
  advertisedAddr : Option SocketAddr
  advertisedAddrV6 : Option SocketAddr
  portmap : Option PortMapper
  nextAdvert : Instant
  confirmedDirect : Option SocketAddr
  confirmedPortmap : Option SocketAddr
  confirmedV6 : Option SocketAddr
  dialbackPending : TreeMap Nat DialBackPending
  nextDialbackNonce : Nat
  helperProbes : TreeMap ProbeId HelperProbe
  dialbackRate : RepairRateLimiter
  dialbacksRefused : Nat

/-- What the environment answers during a step: the clock, `bind` and `endpoint.connect`. -/
structure Env (T : Type) [OverlayTransport T] where
  now : Instant
  bind : Option SocketId
  dial : OverlayTransport.Dial T

inductive Action where
  | advertised (now : Instant) (reachability : Reachability)
  /-- A dial-back request was queued to a helper. -/
  | asked (helper : Pubkey) (nonce : Nat) (probePort : Option UInt16)
  /-- A dial-back request came in from an authenticated peer. -/
  | requested (peer : Pubkey) (nonce : Nat)
  | bound (socket : SocketId)
  | closed (socket : SocketId)
  | probed (probe : ProbeId) (requester : Pubkey) (source target : SocketAddr)
  /-- `send_dialback_result`, with the probe event that decided it, if one did. -/
  | verdict (peer : Pubkey) (nonce : Nat) (ok : Bool) (event : Option ProbeEvent)
  deriving DecidableEq

namespace OverlayCore

variable {T : Type} [OverlayTransport T]

def new (localPubkey : Pubkey) (transport : T) (bindAddr : SocketAddr) (bindAddrV6 : Option SocketAddr)
    (advertisedAddr advertisedAddrV6 : Option SocketAddr) (gateway : Bool) (now : Instant) : OverlayCore T where
  localPubkey := localPubkey
  transport := transport
  discovery := AddressDiscovery.new bindAddr
  discoveryV6 := bindAddrV6.map AddressDiscovery.new
  advertisedAddr := advertisedAddr
  advertisedAddrV6 := advertisedAddrV6
  portmap := if gateway then some ⟨none⟩ else none
  nextAdvert := now + advertInterval
  confirmedDirect := none
  confirmedPortmap := none
  confirmedV6 := none
  dialbackPending := ∅
  nextDialbackNonce := 0
  helperProbes := ∅
  dialbackRate := RepairRateLimiter.new maxDialbackPerSecond
  dialbacksRefused := 0

variable (core : OverlayCore T) (env : Env T)

/-! ### Requester -/

/-- The tail of both request functions: send, and remember the candidate if the request was queued. -/
def rememberRequest (helper : Pubkey) (kind : CandidateKind) (candidate : SocketAddr) (probePort : Option UInt16)
    (sent : T × Bool) : OverlayCore T × List Action :=
  let nonce := core.nextDialbackNonce
  let core := { core with nextDialbackNonce := nonce + 1, transport := sent.1 }
  if sent.2 then
    ({ core with
        dialbackPending := core.dialbackPending.insert nonce ⟨helper, kind, candidate, env.now + dialbackTimeout⟩ },
      [.asked helper nonce probePort])
  else (core, [])

def awaiting (kind : CandidateKind) : Bool := core.dialbackPending.values.any (fun pending => pending.kind = kind)

def requestDialback (kind : CandidateKind) (candidate : Option SocketAddr) (probePort : Option UInt16) :
    OverlayCore T × List Action :=
  match candidate with
  | none => (core, [])
  | some candidate =>
    if core.awaiting kind then (core, [])
    else
      match (OverlayTransport.connectedPeers core.transport).find? (fun pubkey => pubkey ≠ core.localPubkey) with
      | none => (core, [])
      | some helper =>
        core.rememberRequest env helper kind candidate probePort
          (OverlayTransport.queueDatagramToPeer core.transport helper
            (.dialBackRequest core.nextDialbackNonce probePort))

def requestUnconfirmed (confirmed : Option SocketAddr) (kind : CandidateKind) (candidate : Option SocketAddr)
    (probePort : Option UInt16) : OverlayCore T × List Action :=
  if confirmed.isNone then core.requestDialback env kind candidate probePort else (core, [])

/-- A confirmation is dropped when the candidate it was made for is no longer the current one. -/
def dropStale (confirmed candidate : Option SocketAddr) : Option SocketAddr :=
  if confirmed ≠ candidate then none else confirmed

def candidateV6 : Option SocketAddr := core.discoveryV6.bind AddressDiscovery.consistentMapping

def requestDialbackV6 (candidate : Option SocketAddr) : OverlayCore T × List Action :=
  match candidate with
  | none => (core, [])
  | some candidate =>
    if core.awaiting .v6 then (core, [])
    else
      match (OverlayTransport.connections core.transport).find?
          (fun entry => entry.2.isIpv6 && entry.1 ≠ core.localPubkey) with
      | none => (core, [])
      | some (helper, helperAddr) =>
        -- Address-directed, so that it rides the v6 connection.
        core.rememberRequest env helper .v6 candidate none
          (OverlayTransport.queueDatagram core.transport helperAddr
            (.dialBackRequest core.nextDialbackNonce none) env.dial)

def maybeRequestDialbackV6 : OverlayCore T × List Action :=
  if core.advertisedAddrV6.isSome then ({ core with confirmedV6 := none }, [])
  else
    let candidate := core.candidateV6
    let core := { core with confirmedV6 := dropStale core.confirmedV6 candidate }
    if core.confirmedV6.isSome then (core, []) else core.requestDialbackV6 env candidate

/-- The granted port at the address the world sees us at. -/
def portmapCandidate (now : Instant) : Option SocketAddr :=
  (core.portmap.bind (fun portmap => portmap.mappedExternal now)).map
    (fun mapped => ⟨core.discovery.externalIp.getD mapped.ip, mapped.port⟩)

def maybeRequestDialback : OverlayCore T × List Action :=
  if core.advertisedAddr.isSome then ({ core with confirmedDirect := none, confirmedPortmap := none }, [])
  else
    let observed := core.discovery.consistentMapping
    let portmapped := core.portmapCandidate env.now
    -- One confirmation suffices for a candidate that is both.
    let portmapped := if portmapped = observed then none else portmapped
    let core := { core with
      confirmedDirect := dropStale core.confirmedDirect observed
      confirmedPortmap := dropStale core.confirmedPortmap portmapped }
    let (core, first) := core.requestUnconfirmed env core.confirmedDirect .observed observed none
    let (core, second) :=
      core.requestUnconfirmed env core.confirmedPortmap .portMapped portmapped (portmapped.map (·.port))
    let (core, third) := core.maybeRequestDialbackV6 env
    (core, first ++ second ++ third)

/-- The sender plays no part. -/
def handleDialbackResult (nonce : Nat) (ok : Bool) : OverlayCore T :=
  match core.dialbackPending[nonce]? with
  | none => core
  | some pending =>
    let core := { core with dialbackPending := core.dialbackPending.erase nonce }
    if ok then
      match pending.kind with
      | .observed => { core with confirmedDirect := some pending.candidate }
      | .portMapped => { core with confirmedPortmap := some pending.candidate }
      | .v6 => { core with confirmedV6 := some pending.candidate }
    else core

/-! ### Helper -/

def sendDialbackResult (requester : Pubkey) (nonce : Nat) (ok : Bool) (event : Option ProbeEvent) :
    OverlayCore T × List Action :=
  ({ core with
      transport := (OverlayTransport.queueDatagramToPeer core.transport requester (.dialBackResult nonce ok)).1 },
    [.verdict requester nonce ok event])

/-- The probed address: the host the request came from, at its port or the one it asks for. -/
def probeTarget (source : SocketAddr) (probePort : Option UInt16) : SocketAddr :=
  ⟨source.ip, probePort.getD source.port⟩

/-- `handle_dialback_request` once the sender is known. -/
def serveDialback (requester : Pubkey) (source : SocketAddr) (nonce : Nat) (probePort : Option UInt16) :
    OverlayCore T × List Action :=
  let (rate, admitted) := core.dialbackRate.checkAndIncrement requester env.now
  let core := { core with dialbackRate := rate }
  if !admitted || maxHelperProbes ≤ core.helperProbes.size then
    { core with dialbacksRefused := core.dialbacksRefused + 1 }.sendDialbackResult requester nonce false none
  else
    let target := probeTarget source probePort
    if target.port < minUnprivilegedPort then
      { core with dialbacksRefused := core.dialbacksRefused + 1 }.sendDialbackResult requester nonce false none
    else
      match env.bind with
      | none => core.sendDialbackResult requester nonce false none
      | some socket =>
        match OverlayTransport.startProbe core.transport socket target env.dial with
        | (transport, some probe) =>
          let helper : HelperProbe := ⟨requester, nonce, socket, env.now + dialbackTimeout⟩
          ({ core with transport := transport, helperProbes := core.helperProbes.insert probe helper },
            [.bound socket, .probed probe requester source target])
        | (transport, none) =>
          let (core, verdict) := { core with transport := transport }.sendDialbackResult requester nonce false none
          (core, .bound socket :: .closed socket :: verdict)

def handleDialbackRequest (source : SocketAddr) (nonce : Nat) (probePort : Option UInt16) :
    OverlayCore T × List Action :=
  match OverlayTransport.peerIdentity core.transport source with
  | none => (core, [])
  | some requester =>
    let (core, actions) := core.serveDialback env requester source nonce probePort
    (core, .requested requester nonce :: actions)

/-- A probe is over: its verdict goes out and its socket is released. -/
def concludeProbe (probe : ProbeId) (helper : HelperProbe) (ok : Bool) (event : Option ProbeEvent) :
    OverlayCore T × List Action :=
  let core := { core with helperProbes := core.helperProbes.erase probe }
  let (core, verdict) := core.sendDialbackResult helper.requester helper.nonce ok event
  ({ core with transport := OverlayTransport.closeProbe core.transport probe }, verdict ++ [.closed helper.socket])

def onProbeEvent (event : ProbeEvent) : OverlayCore T × List Action :=
  match core.helperProbes[event.probe]? with
  | none => (core, [])
  | some helper => core.concludeProbe event.probe helper (event.identity = some helper.requester) (some event)

def expireProbe (entry : ProbeId × HelperProbe) : OverlayCore T × List Action :=
  core.concludeProbe entry.1 entry.2 false none

def expireDialbacks (now : Instant) : OverlayCore T × List Action :=
  let core := { core with dialbackPending := core.dialbackPending.filter (fun _ pending => now < pending.deadline) }
  let expired := core.helperProbes.toList.filter (fun entry => entry.2.deadline ≤ now)
  run expireProbe core expired

/-! ### Advertising -/

/-- One mapping for each port peers observe us from. -/
def observedHints : List (UInt16 × SocketAddr) :=
  let byPort := core.discovery.tagged.foldl
    (fun groups observation => groups.insertIfNew observation.observer.port observation.mapping)
    (∅ : TreeMap UInt16 SocketAddr)
  byPort.toList.take maxAdvertAddrs

def computeReachability : Reachability :=
  let v4 := core.advertisedAddr.or (core.confirmedDirect.or core.confirmedPortmap)
  let v6 := core.advertisedAddrV6.or core.confirmedV6
  if v4.isSome || v6.isSome then .direct (v6.toList ++ v4.toList)
  else
    let observed := if core.discovery.classify = some .symmetric then [] else core.observedHints
    let via := (OverlayTransport.connectedPeers core.transport).filter (fun pubkey => pubkey ≠ core.localPubkey)
    .coordinated observed (via.take maxAdvertVia)

/-- `on_timer`. `sends` is what flooding the advert, reporting observations and dialing for v6 do to the transport. -/
def onTimer (sends : List (OverlayTransport.Call T)) : OverlayCore T × List Action :=
  let (core, actions) :=
    if core.nextAdvert ≤ env.now then
      let advert := Action.advertised env.now core.computeReachability
      let core := { core with
        nextAdvert := env.now + advertInterval
        transport := sends.foldl OverlayTransport.call core.transport }
      let (core, asked) := core.maybeRequestDialback env
      (core, advert :: asked)
    else (core, [])
  let (core, expired) := core.expireDialbacks env.now
  (core, actions ++ expired)

def handleObservation (source observed : SocketAddr) : OverlayCore T :=
  match OverlayTransport.peerIdentity core.transport source with
  | none => core
  | some observer =>
    if observed.isIpv6 then
      { core with discoveryV6 := core.discoveryV6.map (fun discovery => discovery.record observer source observed) }
    else { core with discovery := core.discovery.record observer source observed }

def handleFrame (source : SocketAddr) : OverlayFrame → OverlayCore T × List Action
  | .addressObservation observed => (core.handleObservation source observed, [])
  | .dialBackRequest nonce probePort => core.handleDialbackRequest env source nonce probePort
  | .dialBackResult nonce ok => (core.handleDialbackResult nonce ok, [])
  | .other _ => (core, [])

inductive Input (T : Type) [OverlayTransport T] where
  | call (call : OverlayTransport.Call T)
  | portmap (mapped : Option Mapped)
  | frame (env : Env T) (source : SocketAddr) (frame : OverlayFrame)
  | probeEvent
  | timer (env : Env T) (sends : List (OverlayTransport.Call T))

def step (core : OverlayCore T) (input : Input T) : OverlayCore T × List Action :=
  match input with
  | .call call => ({ core with transport := OverlayTransport.call core.transport call }, [])
  | .portmap mapped => ({ core with portmap := core.portmap.map (fun _ => ⟨mapped⟩) }, [])
  | .frame env source frame => core.handleFrame env source frame
  | .probeEvent =>
    match OverlayTransport.pollProbeEvent core.transport with
    | (transport, some event) => { core with transport := transport }.onProbeEvent event
    | (transport, none) => ({ core with transport := transport }, [])
  | .timer env sends => core.onTimer env sends

end OverlayCore

/-! ### The QUIC transport -/

instance : OverlayTransport (OverlayQuicTransport OverlayFrame) where
  Dial := Option (ConnectionHandle × QuinnConn OverlayFrame)
  Call := { op : OverlayQuicTransport.Op OverlayFrame // op.ofProbes = false }
  call t op := (t.step op.1).1
  peerIdentity t addr := (t.connections[addr]?).bind (·.peerPubkey)
  connectedPeers t := t.byPubkey.keys
  connections t := t.connections.toList.filterMap (fun (addr, c) =>
    if c.established then c.peerPubkey.map (fun pubkey => (pubkey, addr)) else none)
  queueDatagramToPeer t pubkey frame :=
    ((t.queueDatagramToPeer pubkey frame).1, ((t.byPubkey[pubkey]?).bind (fun addr => t.connections[addr]?)).isSome)
  queueDatagram t dest frame dial := ((t.queueDatagram dest frame dial).1, (t.ensureConnection dest none dial).isSome)
  startProbe t socket addr dial := t.startProbe socket addr dial
  closeProbe t probe := t.closeProbe probe
  pollProbeEvent t := ({ t with probeEvents := t.probeEvents.tail }, t.probeEvents.head?)

end Lightbringer.Overlay
