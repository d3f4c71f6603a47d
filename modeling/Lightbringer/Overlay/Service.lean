import Lightbringer.Overlay.PortMap
import Lightbringer.Overlay.StreamHandles
import Lightbringer.Lib.Deadlines

/-!
# The overlay core as a whole

`overlay/service.rs` with its parts on one transport and one platform: the port mapper, dial-back, routing, repair and
hole punching. `on_timer` fires the deadlines of all of them in the order of the source and then pumps. What `pump`
takes off the transport, and the other calls of the driver, are events; they may come in any order.
-/

namespace Lightbringer.Overlay
open Std Machine PortMap Deadlines

/-- The rest of `OverlayTransport`: what the network, and sends nobody waits for, do to it, and its own deadlines. -/
class ServiceTransport (T : Type) where
  Activity : Type
  act : T → Activity → T
  Timeouts : Type
  onTimer : T → Timeouts → T

inductive ServiceAction where
  | portmap (action : PortMapAction)
  | dialback (action : Action)
  | routing (action : RoutingAction)
  | repair (action : RepairAction)
  | punch (action : PunchAction)
  deriving DecidableEq

variable [Ed25519]

/-- The parts keep what is theirs; the transport, the platform and the dials to be confirmed are shared. -/
structure Service (T : Type) where
  transport : T
  platform : Platform
  confirming : TreeMap SocketAddr ConfirmDial
  portmap : Option PortMap.PortMapper
  dialback : OverlayCore Unit
  routing : RoutingCore Unit
  repair : RepairState
  punch : PunchCore Unit

namespace Service

variable {T : Type}

/-! ### The parts on the shared transport -/

section
variable (service : Service T)

def overlayCore : OverlayCore T :=
  { service.dialback with
    transport := service.transport
    portmap := service.portmap.map (fun mapper =>
      ⟨mapper.mapped.map (fun mapped => ⟨mapped.external, mapped.lease, mapped.grantedAt⟩)⟩) }

def routingCore : RoutingCore T :=
  { service.routing with transport := service.transport, confirming := service.confirming }

def repairCore : RepairCore T := { service.repair with transport := service.transport }

def punchCore : PunchCore T :=
  { service.punch with
    transport := service.transport
    platform := service.platform
    confirming := service.confirming }

def withOverlay (result : OverlayCore T × List Action) : Service T × List ServiceAction :=
  ({ service with transport := result.1.transport, dialback := { result.1 with transport := () } },
    result.2.map .dialback)

def withRouting (result : RoutingCore T × List RoutingAction) : Service T × List ServiceAction :=
  ({ service with
      transport := result.1.transport
      confirming := result.1.confirming
      routing := { result.1 with transport := () } }, result.2.map .routing)

def withRepair (result : RepairCore T × List RepairAction) : Service T × List ServiceAction :=
  ({ service with transport := result.1.transport, repair := result.1.toRepairState }, result.2.map .repair)

def withPunch (result : PunchCore T × List PunchAction) : Service T × List ServiceAction :=
  ({ service with
      transport := result.1.transport
      platform := result.1.platform
      confirming := result.1.confirming
      punch := { result.1 with transport := () } }, result.2.map .punch)

/-- A step of the port mapper, if there is one. `granted` is whether its binds succeed. -/
def withPortmap (granted : List Bool) (act : PortMap.PortMapper → PortMap.PortMapper × List PortMapAction) :
    Service T × List ServiceAction :=
  match service.portmap with
  | none => (service, [])
  | some mapper =>
    let (mapper, actions) := act { mapper with platform := { service.platform with granted := granted } }
    ({ service with portmap := some mapper, platform := mapper.platform }, actions.map .portmap)

end

/-! ### Start -/

/-- What `OverlayConfig` says to the parts above. -/
structure Config where
  bindAddr : SocketAddr
  bindAddrV6 : Option SocketAddr
  advertisedAddr : Option SocketAddr
  advertisedAddrV6 : Option SocketAddr
  gatewayAddr : Option SocketAddr
  portmapLocalIp : Option IpAddr
  birthdayPunch : Bool
  peerTtl : Nat

def Config.portmap (config : Config) (gateway : SocketAddr) : PortMapConfig :=
  ⟨gateway, config.bindAddr.port, config.portmapLocalIp.getD config.bindAddr.ip, config.bindAddrV6⟩

def new (transport : T) (config : Config) (keypair : Ed25519.Keypair) (sockets : Nat) (now : Instant) :
    Service T where
  transport := transport
  platform := ⟨sockets, [], []⟩
  confirming := ∅
  portmap := config.gatewayAddr.map (fun gateway => PortMap.PortMapper.new (config.portmap gateway) ⟨sockets, [], []⟩ now)
  dialback := OverlayCore.new (Ed25519.pubkey keypair) () config.bindAddr config.bindAddrV6 config.advertisedAddr
    config.advertisedAddrV6 config.gatewayAddr.isSome now
  routing := RoutingCore.new (Ed25519.pubkey keypair) () config.bindAddrV6.isSome config.peerTtl
  repair := RepairState.new
  punch := PunchCore.new () keypair config.birthdayPunch sockets

/-! ### Deadlines -/

section
variable (service : Service T)

/-- `poll_timeout`, given that of the transport. -/
def pollTimeout (own : Option Instant) : Instant :=
  let deadline := match own with
    | some own => min own service.dialback.nextAdvert
    | none => service.dialback.nextAdvert
  let deadline := match service.portmap with
    | some mapper => min deadline mapper.pollTimeout
    | none => deadline
  let deadline := earliest deadline service.repair.outboundRepairs OutboundRepair.deadline
  let deadline := earliest deadline service.repair.inboundRepairs InboundRepair.deadline
  let deadline := earliest deadline service.dialback.dialbackPending DialBackPending.deadline
  let deadline := earliest deadline service.dialback.helperProbes HelperProbe.deadline
  let deadline := earliest deadline service.confirming ConfirmDial.deadline
  let deadline := earliest deadline service.punch.punchSessions
    (fun session => min session.deadline session.nextProbe)
  let deadline := earliest deadline service.punch.punchForwards PunchForward.deadline
  earliest deadline service.punch.punchHelpers PunchHelper.deadline

end

/-! ### Timers -/

variable [OverlayTransport T] [RoutingTransport T] [StreamTransport T] [PunchTransport T] [ServiceTransport T]

/-- A dial of `maybe_probe_v6`. -/
structure ProbeDial (T : Type) [RoutingTransport T] where
  addr : SocketAddr
  expected : Pubkey
  payload : RoutingTransport.Payload T
  dial : RoutingTransport.Dial T

/-- What the environment answers during `on_timer`. `sends` is what flooding the advert and the observations does to
the transport, `dials` whom `maybe_probe_v6` picks. -/
structure TimerEnv (T : Type) [OverlayTransport T] [RoutingTransport T] [ServiceTransport T] where
  now : Instant
  timeouts : ServiceTransport.Timeouts T
  portmap : PortMapEnv
  granted : List Bool
  sends : List (ServiceTransport.Activity T)
  dials : List (ProbeDial T)
  dial : OverlayTransport.Dial T

section
variable (service : Service T)

def probeDial (now : Instant) (service : Service T) (probe : ProbeDial T) : Service T × List ServiceAction :=
  service.withRouting
    ((service.routingCore.dialFor probe.addr probe.expected (some probe.payload) (now + confirmTimeout) probe.dial).1,
      [])

/-- The branch of `on_timer` for a due advert. -/
def advertise (env : TimerEnv T) : Service T × List ServiceAction :=
  let advert := Action.advertised env.now service.overlayCore.computeReachability
  let service := { service with
    dialback := { service.dialback with nextAdvert := env.now + advertInterval }
    transport := env.sends.foldl ServiceTransport.act service.transport }
  let (service, dialed) := run (probeDial env.now) service env.dials
  let (service, asked) :=
    service.withOverlay (service.overlayCore.maybeRequestDialback ⟨env.now, none, env.dial⟩)
  (service, .dialback advert :: (dialed ++ asked))

/-- One part of `on_timer` after another. -/
def andThen (before : Service T × List ServiceAction) (next : Service T → Service T × List ServiceAction) :
    Service T × List ServiceAction :=
  let (service, actions) := next before.1
  (service, before.2 ++ actions)

/-- `on_timer` up to its pump. -/
def fireDeadlines (env : TimerEnv T) : Service T × List ServiceAction :=
  let start := { service with transport := ServiceTransport.onTimer service.transport env.timeouts }
  let mapped := start.withPortmap env.granted (fun mapper => mapper.onTimer { env.portmap with now := env.now })
  let advertised := andThen mapped (fun service =>
    if service.dialback.nextAdvert ≤ env.now then service.advertise env else (service, []))
  let repaired := andThen advertised (fun service => service.withRepair (service.repairCore.expireRepairs env.now))
  let answered := andThen repaired (fun service => service.withOverlay (service.overlayCore.expireDialbacks env.now))
  let confirmed := andThen answered (fun service => service.withRouting (service.routingCore.expireConfirms env.now))
  andThen confirmed (fun service => service.withPunch (service.punchCore.step (.timer env.now)))

end

/-! ### Events -/

inductive Event (T : Type) [OverlayTransport T] [RoutingTransport T] [PunchTransport T] [ServiceTransport T] where
  | activity (activity : ServiceTransport.Activity T)
  /-- A datagram on the socket of the port mapper. -/
  | gateway (env : PortMapEnv) (granted : List Bool) (source : SocketAddr) (payload : List UInt8)
  | tcp (env : PortMapEnv) (granted : List Bool) (event : TcpEvent)
  /-- A frame of dial-back. `grant` is whether a bind for it succeeds. -/
  | frame (grant : Bool) (dial : OverlayTransport.Dial T) (source : SocketAddr) (frame : OverlayFrame)
  | probeEvent
  | connected (addr : SocketAddr) (pubkey : Pubkey)
  | advert (source : SocketAddr) (signed : SignedPeerAdvert) (raw : RoutingTransport.Payload T)
  /-- `send_to_peer`, with the payload as the transport and as a punch takes it. -/
  | send (env : PunchEnv T) (dial : RoutingTransport.Dial T) (pubkey : Pubkey) (payload : RoutingTransport.Payload T)
      (raw : List UInt8)
  /-- The parts of `request_direct_path`. -/
  | dial (addr : SocketAddr) (expected : Pubkey) (dial : RoutingTransport.Dial T)
  | punch (env : PunchEnv T) (peer : Pubkey)
  | punchFrame (env : PunchEnv T) (source : SocketAddr) (frame : PunchFrame)
  | punchProbe (env : PunchEnv T) (event : PunchProbeEvent)
  | requestRepair (peer : Pubkey) (request : RepairReq)
  | repairResponse (stream : OverlayStreamId) (shred : Option (List UInt8))
  | streamEvent

section
variable (service : Service T)

/-- The platform gives out a socket only when the step took one. -/
def handleFrame (now : Instant) (grant : Bool) (dial : OverlayTransport.Dial T) (source : SocketAddr)
    (frame : OverlayFrame) : Service T × List ServiceAction :=
  let (platform, socket) := { service.platform with granted := [grant] }.bind
  let result := service.overlayCore.handleFrame ⟨now, socket, dial⟩ source frame
  let (service, actions) := service.withOverlay result
  let took := result.2.any (fun action => match action with | .bound _ => true | _ => false)
  (if took then { service with platform := platform } else service, actions)

/-- A connection that proved who it is completes the punches for it, and the peer is told its address. -/
def onConnected (addr : SocketAddr) (pubkey : Pubkey) : Service T × List ServiceAction :=
  let resolved := service.routingCore.resolveConfirm addr pubkey
  let kept := service.withRouting resolved
  if resolved.2 = [] then
    let completed := andThen kept (fun service => service.withPunch (service.punchCore.step (.connected pubkey)))
    andThen completed (fun service =>
      ({ service with
          transport :=
            (OverlayTransport.queueDatagramToPeer service.transport pubkey (.addressObservation addr)).1 }, []))
  else kept

/-- The clock of a step is the driver's. -/
def timed (env : PunchEnv T) (now : Instant) : PunchEnv T := { env with now := now }

def beginPunch (env : PunchEnv T) (peer : Pubkey) (payload : Option (List UInt8)) :
    Service T × Bool × List ServiceAction :=
  let (punch, begun, actions) := (service.punchCore.supplied env).beginPunch env peer payload
  let (service, actions) := service.withPunch (punch, actions)
  (service, begun, actions)

def sendToPeer (now : Instant) (env : PunchEnv T) (dial : RoutingTransport.Dial T) (pubkey : Pubkey)
    (payload : RoutingTransport.Payload T) (raw : List UInt8) : Service T × List ServiceAction :=
  match (service.routingCore.view now).route pubkey with
  | .punch =>
    let (service, begun, actions) := service.beginPunch (timed env now) pubkey (some raw)
    let gossip := (service.routing.gossip.get pubkey now).1
    if begun then
      ({ service with routing := { service.routing with gossip := gossip } },
        actions ++ [.routing (.punched pubkey)])
    else
      ({ service with
          routing := { service.routing with
            gossip := gossip, droppedUnreachable := service.routing.droppedUnreachable + 1 } },
        actions ++ [.routing (.dropped pubkey)])
  | _ => service.withRouting (service.routingCore.sendToPeer ⟨now, dial, false⟩ pubkey payload)

variable [AdvertSignature]

def onEvent (now : Instant) (service : Service T) (event : Event T) : Service T × List ServiceAction :=
  match event with
  | .activity activity => ({ service with transport := ServiceTransport.act service.transport activity }, [])
  | .gateway env granted source payload =>
    service.withPortmap granted (fun mapper => mapper.onDatagram { env with now := now } source payload)
  | .tcp env granted event =>
    service.withPortmap granted (fun mapper => mapper.onTcpEvent { env with now := now } event)
  | .frame grant dial source frame => service.handleFrame now grant dial source frame
  | .probeEvent => service.withOverlay (service.overlayCore.step .probeEvent)
  | .connected addr pubkey => service.onConnected addr pubkey
  | .advert source signed raw => service.withRouting (service.routingCore.handleAdvert source signed raw now)
  | .send env dial pubkey payload raw => service.sendToPeer now env dial pubkey payload raw
  | .dial addr expected dial =>
    service.withRouting ((service.routingCore.dialFor addr expected none (now + confirmTimeout) dial).1, [])
  | .punch env peer =>
    let (service, _, actions) := service.beginPunch (timed env now) peer none
    (service, actions)
  | .punchFrame env source frame =>
    service.withPunch (service.punchCore.step (.frame (timed env now) source frame))
  | .punchProbe env event => service.withPunch (service.punchCore.step (.probe (timed env now) event))
  | .requestRepair peer request => service.withRepair (service.repairCore.requestRepair now peer request)
  | .repairResponse stream shred => service.withRepair (service.repairCore.onRepairResponse stream shred)
  | .streamEvent => service.withRepair (service.repairCore.poll now)

/-- `on_timer` with the events its pump takes. -/
def onTimer (env : TimerEnv T) (pumped : List (Event T)) : Service T × List ServiceAction :=
  andThen (service.fireDeadlines env) (fun service => run (onEvent env.now) service pumped)

end

/-- A call of the driver, as the events it comes to, or `on_timer`. -/
inductive Call (T : Type) [OverlayTransport T] [RoutingTransport T] [PunchTransport T] [ServiceTransport T] where
  | event (now : Instant) (event : Event T)
  | onTimer (env : TimerEnv T) (pumped : List (Event T))

variable [AdvertSignature]

def step (service : Service T) (call : Call T) : Service T × List ServiceAction :=
  match call with
  | .event now event => service.onEvent now event
  | .onTimer env pumped => service.onTimer env pumped

end Service

/-! ### The QUIC transport -/

instance : RoutingTransport (OverlayQuicTransport OverlayFrame) where
  Payload := OverlayFrame
  Dial := Option (ConnectionHandle × QuinnConn OverlayFrame)
  Call := OverlayQuicTransport.Op OverlayFrame
  call t op := (t.step op).1
  peerIdentity t addr := (t.connections[addr]?).bind (·.peerPubkey)
  connectedPeers t := t.byPubkey.keys
  connectionAddr t pubkey := t.byPubkey[pubkey]?
  queueDatagramToPeer t pubkey frame := (t.queueDatagramToPeer pubkey frame).1
  queueDatagramExpecting t dest expected frame dial :=
    ((t.queueDatagramExpecting dest expected frame dial).1, (t.ensureConnection dest none dial).isSome)
  dialExpecting t dest expected dial :=
    ((t.dialExpecting dest expected dial).1, (t.ensureConnection dest none dial).isSome)
  dropConnection t addr := (t.step (.dropConnection addr)).1
  mem_connectedPeers t pubkey := by
    rw [TreeMap.mem_keys, TreeMap.mem_iff_isSome_getElem?]

instance : ServiceTransport (OverlayQuicTransport OverlayFrame) where
  Activity := { op : OverlayQuicTransport.Op OverlayFrame // op.ofProbes = false }
  act t op := (t.step op.1).1
  Timeouts := List (SocketAddr × QuinnConn OverlayFrame) × List (ProbeId × QuinnConn OverlayFrame)
  onTimer t due := (t.step (.onTimer due.1 due.2)).1

end Lightbringer.Overlay
