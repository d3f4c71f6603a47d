import Lightbringer.Lib.Agenda
import Lightbringer.Overlay.RepairStreams
import Lightbringer.Overlay.Sim.LeaseAgreement

/-!
# The simulated world

`overlay/sim/mod.rs`: hosts behind chains of NATs, links with delays, losses, duplicates and reordering, and the loop
that dispatches deliveries and timers in virtual time. What runs on a host is a parameter, and so is the gateway of its
LAN; both act on the world only by the calls the world offers them. Arithmetic on virtual time wraps.
-/

namespace Lightbringer.Overlay.Sim
open Std PortMap

abbrev HostId := Nat

inductive IpFamily where
  | v4
  | v6

def ephemeralPortStart : UInt16 := 49152

/-- The sockets and the randomness of a host, and what its node asked for since the last drain. A closed socket leaves
its place in `sockets` empty. -/
structure HostEnvState (R : Type) where
  lanIp : IpAddr
  lanIpV6 : Option IpAddr
  sockets : List (Option SocketAddr)
  outbox : List (SocketId × SocketAddr × List UInt8)
  tcpConnects : List (TcpId × SocketAddr)
  tcpOut : List (TcpId × List UInt8)
  tcpCloses : List TcpId
  nextTcp : TcpId
  rng : R
  nextEphemeral : UInt16

/-- What the simulator draws from a `StdRng`. -/
class SimRng (R : Type) extends PortRng R where
  nextU64 : R → UInt64 × R
  randomBool : R → ℚ → Bool × R
  randomDelay : R → UInt64 → UInt64 → UInt64 × R
  le_randomDelay : ∀ (rng : R) (low high : UInt64), low ≤ high → low ≤ (randomDelay rng low high).1
  randomDelay_le : ∀ (rng : R) (low high : UInt64), low ≤ high → (randomDelay rng low high).1 ≤ high

namespace HostEnvState
variable {R : Type} (env : HostEnvState R)

def bind (port : Option UInt16) (family : IpFamily) : HostEnvState R × Option SocketId :=
  let (env, port) := match port with
    | some port => (env, port)
    | none =>
      let following := if env.nextEphemeral = 65535 then ephemeralPortStart else env.nextEphemeral + 1
      ({ env with nextEphemeral := following }, env.nextEphemeral)
  let ip := match family with
    | .v4 => some env.lanIp
    | .v6 => env.lanIpV6
  match ip with
  | none => (env, none)
  | some ip =>
    let addr : SocketAddr := ⟨ip, port⟩
    if some addr ∈ env.sockets then (env, none)
    else if 2 ^ 32 ≤ env.sockets.length then (env, none)
    else ({ env with sockets := env.sockets ++ [some addr] }, some (UInt32.ofNat env.sockets.length))

/-- The primary socket stays. -/
def close (socket : SocketId) : HostEnvState R :=
  if socket ≠ 0 then { env with sockets := env.sockets.set socket.toNat none } else env

def addrOf (socket : SocketId) : Option SocketAddr := env.sockets[socket.toNat]?.join

end HostEnvState

/-- A node's use of the seam `OverlayEnv`: what it does next may depend on what it is given. -/
inductive EnvProg (α : Type) where
  | done (value : α)
  | draw (next : UInt64 → EnvProg α)
  | send (source : SocketId) (dest : SocketAddr) (datagram : List UInt8) (next : EnvProg α)
  | bind (port : Option UInt16) (family : IpFamily) (next : Option SocketId → EnvProg α)
  | close (socket : SocketId) (next : EnvProg α)
  | tcpConnect (dest : SocketAddr) (next : TcpId → EnvProg α)
  | tcpSend (conn : TcpId) (bytes : List UInt8) (next : EnvProg α)
  | tcpClose (conn : TcpId) (next : EnvProg α)

/-- `SimEnv`. -/
def EnvProg.run {R α : Type} [SimRng R] : EnvProg α → HostEnvState R → α × HostEnvState R
  | .done value, env => (value, env)
  | .draw next, env =>
    let (bits, rng) := SimRng.nextU64 env.rng
    (next bits).run { env with rng := rng }
  | .send source dest datagram next, env => next.run { env with outbox := env.outbox ++ [(source, dest, datagram)] }
  | .bind port family next, env =>
    let (env, socket) := env.bind port family
    (next socket).run env
  | .close socket next, env => next.run (env.close socket)
  | .tcpConnect dest next, env =>
    (next env.nextTcp).run
      { env with nextTcp := env.nextTcp + 1, tcpConnects := env.tcpConnects ++ [(env.nextTcp, dest)] }
  | .tcpSend conn bytes next, env => next.run { env with tcpOut := env.tcpOut ++ [(conn, bytes)] }
  | .tcpClose conn next, env => next.run { env with tcpCloses := env.tcpCloses ++ [conn] }

/-- `net::LinkParams`, durations in nanoseconds. -/
structure LinkParams where
  delayMin : Nat
  delayMax : Nat
  dropProbability : ℚ
  duplicateProbability : ℚ
  reorderProbability : ℚ
  mtu : Option Nat
  up : Bool

def LinkParams.standard : LinkParams := ⟨fromMillis 1, fromMillis 2, 0, 0, 0, none, true⟩

/-- `trace::TraceEvent`. -/
inductive TraceEvent where
  | hostSend (host : HostId) (source dest : SocketAddr) (len : Nat)
  | delivered (host : HostId) (src dst : SocketAddr) (len : Nat)
  | linkDropped (source dest : HostId) (len : Nat)
  | linkDuplicated (source dest : HostId)
  | linkDown (source dest : HostId)
  | mtuDropped (source dest : HostId) (len mtu : Nat)
  | noRoute (source : HostId) (dest : SocketAddr)
  | natMapped (host : HostId) (level : Nat) (internal external : SocketAddr)
  | natDropped (host : HostId) (level : Nat) (reason : NatDropReason)
  | noSocket (host : HostId) (dst : SocketAddr)
  | peerConnected (host : HostId) (peer : SocketAddr) (pubkey : Option Pubkey)
  | peerDisconnected (host : HostId) (peer : SocketAddr)
  | shredDelivered (host : HostId) (payloadHash : UInt64)
  | appDatagram (host : HostId) (source : SocketAddr) (payloadHash : UInt64)
  | hostDown (host : HostId)
  | hostUp (host : HostId)
  | repairServed (host : HostId) (slot : UInt64) (index : UInt32) (highest found : Bool)
  | repairConcluded (host : HostId) (found : Bool)
  | repairFailed (host : HostId)
  | firewallDropped (host : HostId) (reason : NatDropReason)
  | gatewayRequest (host : HostId) (len : Nat)

/-- What the world asks of a node. `passes` is how often `post_process` drains the node until no lookup is left. -/
structure NodeOps (N : Type) where
  onTimer : Instant → N → EnvProg N
  onDatagram : Instant → SocketId → SocketAddr → List UInt8 → N → EnvProg N
  onTcpEvent : Instant → TcpEvent → N → EnvProg N
  onRepairResponse : Instant → OverlayStreamId → Option (List UInt8) → N → EnvProg N
  lookupRepair : N → RepairReq → Option (List UInt8)
  pollTimeout : N → Option Instant
  pollEvents : HostId → N → N × List TraceEvent × List (OverlayStreamId × RepairReq)
  passes : N → Nat

/-- What the world asks of the gateway of a LAN, which programs the NAT next to the host and its firewall. -/
structure LanOps (G R : Type) where
  isGatewayDst : G → SocketAddr → Bool
  handleUdp : G → UInt64 → SocketAddr → SocketAddr → List UInt8 → NatBox R → Option FirewallBox →
    G × NatBox R × Option FirewallBox × List (SocketAddr × List UInt8)
  tcpOpen : G → TcpId → SocketAddr → G × Bool
  tcpBytes : G → UInt64 → TcpId → List UInt8 → NatBox R → G × NatBox R × List (List UInt8)
  tcpClosed : G → TcpId → G

/-- A request that panics, which would end the simulation, gets no answer here. -/
def Gateway.lan {R : Type} : LanOps Gateway R where
  isGatewayDst := Gateway.isGatewayDst
  handleUdp gateway now src dest payload nat firewall :=
    let served := gateway.handleUdp now src payload nat firewall dest
    (served.gateway, served.nat, served.firewall, served.responses)
  tcpOpen := Gateway.tcpOpen
  tcpBytes gateway now conn bytes nat :=
    match gateway.tcpBytes now nat conn bytes with
    | .ok served => served
    | .error _ => (gateway, nat, [])
  tcpClosed := Gateway.tcpClosed

structure HostV6 where
  addr : IpAddr
  firewall : Option FirewallBox

structure ProbeDatagram where
  atNanos : UInt64
  socket : SocketId
  src : SocketAddr
  dst : SocketAddr
  payload : List UInt8

def maxProbeReceived : Nat := 8192

/-- Overlay nodes and bare transports are one kind here. -/
inductive HostKind (N : Type) where
  | node (node : N)
  | probe (received : List ProbeDatagram)

/-- The NAT next to the host comes first in `natChain`. -/
structure Host (N G R : Type) where
  up : Bool
  natChain : List (NatBox R)
  v6 : Option HostV6
  gateway : Option G
  env : HostEnvState R
  kind : HostKind N
  timerGeneration : Nat
  nextTimer : Option UInt64
  sentDatagrams : Nat
  sentBytes : Nat

structure Link where
  sender : HostId
  owner : HostId
  deriving DecidableEq

instance : Ord Link := ⟨compareLex (compareOn Link.sender) (compareOn Link.owner)⟩

instance : TransOrd Link := inferInstanceAs (TransCmp (compareLex (compareOn Link.sender) (compareOn Link.owner)))

instance : LawfulEqOrd Link where
  compare_self := ReflOrd.compare_self
  eq_of_compare {a b} h := by
    obtain ⟨sender, owner⟩ := a
    obtain ⟨sender', owner'⟩ := b
    obtain ⟨sameSender, sameOwner⟩ := compareLex_eq_eq.mp h
    have senders : sender = sender' := LawfulEqOrd.compare_eq_iff_eq.mp sameSender
    have owners : owner = owner' := LawfulEqOrd.compare_eq_iff_eq.mp sameOwner
    rw [senders, owners]

/-- `via` is the link whose order a delivery keeps. The source does not carry it; the theorems speak of it. -/
inductive EventKind where
  | delivery (toHost : HostId) (src dst : SocketAddr) (payload : List UInt8) (via : Option Link)
  | timer (host : HostId) (generation : Nat)
  | tcpDeliver (host : HostId) (event : TcpEvent)

instance linearOrderUInt64 : LinearOrder UInt64 where
  toMin := inferInstance
  toMax := inferInstance
  le_refl := UInt64.le_refl
  le_trans _ _ _ := UInt64.le_trans
  le_antisymm _ _ := UInt64.le_antisymm
  le_total := UInt64.le_total
  lt_iff_le_not_ge a b := by rw [UInt64.le_iff_toNat_le, UInt64.le_iff_toNat_le, UInt64.lt_iff_toNat_lt]; omega
  toDecidableLE := inferInstance

/-- `linkHorizon` holds the latest delivery of each link, `ipOwner` the host of each public address. -/
structure SimWorld (N G R : Type) where
  base : Instant
  agenda : Agenda UInt64 EventKind
  hosts : List (Host N G R)
  defaultLink : LinkParams
  links : TreeMap Link LinkParams
  linkHorizon : TreeMap Link UInt64
  ipOwner : TreeMap Nat HostId
  rng : R
  trace : List (UInt64 × TraceEvent)

/-- `TIMER_MIN_ADVANCE_NANOS`. -/
def timerMinAdvance : UInt64 := 1000

namespace SimWorld
variable {N G R : Type} [SimRng R]

def virtualNow (world : SimWorld N G R) : Instant := world.base + world.agenda.now.toNat

def record (world : SimWorld N G R) (event : TraceEvent) : SimWorld N G R :=
  { world with trace := world.trace ++ [(world.agenda.now, event)] }

def pushEvent (world : SimWorld N G R) (due : UInt64) (kind : EventKind) : SimWorld N G R :=
  { world with agenda := world.agenda.push due kind }

def setHost (world : SimWorld N G R) (id : HostId) (host : Host N G R) : SimWorld N G R :=
  { world with hosts := world.hosts.set id host }

def withRng (world : SimWorld N G R) (rng : R) : SimWorld N G R := { world with rng := rng }

/-- Hosts are never removed, and every id is that of a host. -/
def withHost (world : SimWorld N G R) (id : HostId) (f : Instant → N → EnvProg N) : SimWorld N G R :=
  match world.hosts[id]? with
  | none => world
  | some host =>
    match host.kind with
    | .probe _ => world
    | .node node =>
      let (node, env) := (f world.virtualNow node).run host.env
      world.setHost id { host with kind := .node node, env := env }

/-! ### Out of a host -/

/-- Outbound through the chain of NATs. -/
def traverse (now : UInt64) (sender : HostId) (dest : SocketAddr) :
    Nat → SocketAddr → List (NatBox R) → List (NatBox R) × List TraceEvent × Except NatDropReason SocketAddr
  | _, src, [] => ([], [], .ok src)
  | level, src, nat :: rest =>
    match nat.outbound now src dest with
    | (nat, .ok pass) =>
      let mapped := if pass.created then [.natMapped sender level src pass.external] else []
      let (rest, events, result) := traverse now sender dest (level + 1) pass.external rest
      (nat :: rest, mapped ++ events, result)
    | (nat, .error reason) => (nat :: rest, [.natDropped sender level reason], .error reason)

/-- One copy of a datagram is put on a link. -/
def carry (link : Link) (params : LinkParams) (src dest : SocketAddr) (payload : List UInt8) (world : SimWorld N G R) :
    SimWorld N G R :=
  let delayMin := asNanos params.delayMin
  let delayMax := asNanos params.delayMax
  let (delay, rng) := if delayMin < delayMax then SimRng.randomDelay world.rng delayMin delayMax else (delayMin, world.rng)
  let arrival := world.agenda.now + delay
  let (reordered, rng) :=
    if 0 < params.reorderProbability then SimRng.randomBool rng params.reorderProbability else (false, rng)
  let world := world.withRng rng
  if reordered then world.pushEvent arrival (.delivery link.owner src dest payload none)
  else
    let due := max arrival (world.linkHorizon.getD link 0)
    { world with linkHorizon := world.linkHorizon.insert link due }.pushEvent due
      (.delivery link.owner src dest payload (some link))

/-- The faults of a link: loss, then duplication. -/
def cross (link : Link) (params : LinkParams) (src dest : SocketAddr) (payload : List UInt8) (world : SimWorld N G R) :
    SimWorld N G R :=
  let (dropped, rng) := SimRng.randomBool world.rng params.dropProbability
  let world := world.withRng rng
  if dropped then world.record (.linkDropped link.sender link.owner payload.length)
  else
    let (duplicated, rng) :=
      if 0 < params.duplicateProbability then SimRng.randomBool world.rng params.duplicateProbability
      else (false, world.rng)
    let world := world.withRng rng
    if duplicated then
      carry link params src dest payload (carry link params src dest payload
        (world.record (.linkDuplicated link.sender link.owner)))
    else carry link params src dest payload world

def countSent (sender : HostId) (bytes : Nat) (world : SimWorld N G R) : SimWorld N G R :=
  { world with hosts := world.hosts.modify sender (fun host =>
      { host with sentDatagrams := host.sentDatagrams + 1, sentBytes := host.sentBytes + bytes }) }

/-- `route` from the outermost NAT on. -/
def transmit (sender : HostId) (src dest : SocketAddr) (payload : List UInt8) (world : SimWorld N G R) : SimWorld N G R :=
  match world.ipOwner[dest.ip.key]? with
  | none => world.record (.noRoute sender dest)
  | some owner =>
    let params := world.links.getD ⟨sender, owner⟩ world.defaultLink
    if !params.up then world.record (.linkDown sender owner)
    else
      match params.mtu.filter (fun mtu => mtu < payload.length) with
      | some mtu => world.record (.mtuDropped sender owner payload.length mtu)
      | none => cross ⟨sender, owner⟩ params src dest payload
          ((world.record (.hostSend sender src dest payload.length)).countSent sender payload.length)

/-- `route` past the gateway: the NATs of the host, or its firewall. -/
def routeOut (sender : HostId) (source dest : SocketAddr) (payload : List UInt8) (host : Host N G R)
    (world : SimWorld N G R) : SimWorld N G R :=
  let now := world.agenda.now
  if source.isIpv6 then
    let v6 := host.v6.map (fun v6 => { v6 with firewall := v6.firewall.map (fun box => box.outbound now source dest) })
    transmit sender source dest payload (world.setHost sender { host with v6 := v6 })
  else
    let (chain, events, result) := traverse now sender dest 0 source host.natChain
    let world := events.foldl record (world.setHost sender { host with natChain := chain })
    match result with
    | .ok src => transmit sender src dest payload world
    | .error _ => world

variable (lan : LanOps G R)

def route (sender : HostId) (world : SimWorld N G R) (item : SocketAddr × SocketAddr × List UInt8) : SimWorld N G R :=
  let (source, dest, payload) := item
  match world.hosts[sender]? with
  | none => world
  | some host =>
    match host.gateway.filter (fun gateway => lan.isGatewayDst gateway dest), host.natChain with
    | some gateway, nat :: rest =>
      let now := world.agenda.now
      let (gateway, nat, firewall, responses) :=
        lan.handleUdp gateway now source dest payload nat (host.v6.bind (·.firewall))
      let v6 := host.v6.map (fun v6 => { v6 with firewall := firewall })
      let world := (world.setHost sender { host with gateway := some gateway, natChain := nat :: rest, v6 := v6 }).record
        (.gatewayRequest sender payload.length)
      responses.foldl (fun world response =>
        world.pushEvent (now + gatewayDelay) (.delivery sender response.1 source response.2 none)) world
    | _, _ => routeOut sender source dest payload host world

/-! ### What a node did -/

def openTcp (state : Host N G R × List TcpEvent) (intent : TcpId × SocketAddr) : Host N G R × List TcpEvent :=
  let (conn, dest) := intent
  match state.1.gateway with
  | none => (state.1, state.2 ++ [.closed conn])
  | some gateway =>
    let (gateway, accepted) := lan.tcpOpen gateway conn dest
    ({ state.1 with gateway := some gateway }, state.2 ++ [if accepted then .connected conn else .closed conn])

def sendTcp (now : UInt64) (state : Host N G R × List TcpEvent) (intent : TcpId × List UInt8) :
    Host N G R × List TcpEvent :=
  let (conn, bytes) := intent
  match state.1.gateway, state.1.natChain with
  | some gateway, nat :: rest =>
    let (gateway, nat, responses) := lan.tcpBytes gateway now conn bytes nat
    ({ state.1 with gateway := some gateway, natChain := nat :: rest }, state.2 ++ responses.map (.data conn))
  | _, _ => state

/-- The TCP side of `drain_host`: connects, sends and closes, all to the gateway of the LAN. -/
def drainTcp (now : UInt64) (host : Host N G R) : Host N G R × List TcpEvent :=
  let env := host.env
  let host := { host with env := { env with tcpConnects := [], tcpOut := [], tcpCloses := [] } }
  let (host, events) := env.tcpOut.foldl (sendTcp lan now) (env.tcpConnects.foldl (openTcp lan) (host, []))
  ({ host with gateway := host.gateway.map (env.tcpCloses.foldl lan.tcpClosed) }, events)

variable (ops : NodeOps N)

def drainHost (id : HostId) (world : SimWorld N G R) : SimWorld N G R × List (OverlayStreamId × RepairReq) :=
  match world.hosts[id]? with
  | none => (world, [])
  | some host =>
    let now := world.agenda.now
    let outbox := host.env.outbox.filterMap (fun (socket, dest, bytes) =>
      (host.env.addrOf socket).map (fun source => (source, dest, bytes)))
    let (host, tcpEvents) := drainTcp lan now { host with env := { host.env with outbox := [] } }
    let (kind, events, lookups) : HostKind N × List TraceEvent × List (OverlayStreamId × RepairReq) := match host.kind with
      | .probe received => (.probe received, [], [])
      | .node node =>
        let (node, events, lookups) := ops.pollEvents id node
        (.node node, events, lookups)
    let world := events.foldl record (world.setHost id { host with kind := kind })
    let world := outbox.foldl (route lan id) world
    (tcpEvents.foldl (fun world event => world.pushEvent (now + gatewayDelay) (.tcpDeliver id event)) world, lookups)

/-- A lookup is answered from the store of the node. -/
def answer (id : HostId) (world : SimWorld N G R) (lookup : OverlayStreamId × RepairReq) : SimWorld N G R :=
  match world.hosts[id]?.map Host.kind with
  | some (.node node) =>
    let shred := ops.lookupRepair node lookup.2
    let world := world.withHost id (fun now => ops.onRepairResponse now lookup.1 shred)
    match lookup.2 with
    | .windowIndex slot index => world.record (.repairServed id slot index false shred.isSome)
    | .highestWindowIndex slot index => world.record (.repairServed id slot index true shred.isSome)
  | _ => world

/-- The loop of `post_process`. -/
def settle (id : HostId) : Nat → SimWorld N G R → SimWorld N G R
  | 0, world => world
  | passes + 1, world =>
    match drainHost lan ops id world with
    | (world, []) => world
    | (world, lookups) => settle id passes (lookups.foldl (answer ops id) world)

/-- When the host is woken for a deadline. -/
def wakeUp (world : SimWorld N G R) (deadline : Instant) : UInt64 :=
  max (asNanos (deadline - world.base)) (world.agenda.now + timerMinAdvance)

def rescheduleTimer (id : HostId) (world : SimWorld N G R) : SimWorld N G R :=
  match world.hosts[id]? with
  | none => world
  | some host =>
    match host.up, host.kind with
    | true, .node node =>
      match ops.pollTimeout node with
      | none => world.setHost id { host with nextTimer := none }
      | some deadline =>
        let due := world.wakeUp deadline
        if host.nextTimer = some due then world
        else
          let generation := host.timerGeneration + 1
          (world.setHost id { host with nextTimer := some due, timerGeneration := generation }).pushEvent due
            (.timer id generation)
    | _, _ => world

def postProcess (id : HostId) (world : SimWorld N G R) : SimWorld N G R :=
  let passes := match world.hosts[id]?.map Host.kind with
    | some (.node node) => ops.passes node
    | _ => 1
  rescheduleTimer ops id (settle lan ops id passes world)

/-! ### Into a host -/

/-- Inbound through the chain of NATs, from the outermost. A panic of the source, which no box that only had calls
reaches, counts as a drop. -/
def enter (now : UInt64) (toHost : HostId) (src : SocketAddr) :
    Nat → List (NatBox R) → SocketAddr → List (NatBox R) × List TraceEvent × Option SocketAddr
  | _, [], dst => ([], [], some dst)
  | level, nat :: rest, dst =>
    match enter now toHost src (level + 1) rest dst with
    | (rest, events, none) => (nat :: rest, events, none)
    | (rest, events, some dst) =>
      if dst.ip ≠ nat.externalIp then (nat :: rest, events, some dst)
      else
        match nat.inbound now src dst with
        | some (nat, .ok internal) => (nat :: rest, events, some internal)
        | some (nat, .error reason) => (nat :: rest, events ++ [.natDropped toHost level reason], none)
        | none => (nat :: rest, events, none)

/-- The host after the NATs or the firewall let a datagram in or not, and where it goes. -/
def screen (now : UInt64) (toHost : HostId) (src dst : SocketAddr) (host : Host N G R) :
    Host N G R × List TraceEvent × Option SocketAddr :=
  if dst.isIpv6 then
    match host.v6.bind (·.firewall) with
    | none => (host, [], some dst)
    | some box =>
      let (box, verdict) := box.inbound now src dst
      let host := { host with v6 := host.v6.map (fun v6 => { v6 with firewall := some box }) }
      match verdict with
      | .ok () => (host, [], some dst)
      | .error reason => (host, [.firewallDropped toHost reason], none)
  else
    let (chain, events, result) := enter now toHost src 0 host.natChain dst
    ({ host with natChain := chain }, events, result)

def deliver (toHost : HostId) (src dst : SocketAddr) (payload : List UInt8) (world : SimWorld N G R) : SimWorld N G R :=
  match world.hosts[toHost]? with
  | none => world
  | some host =>
    if !host.up then world
    else
      let now := world.agenda.now
      let (host, events, admitted) := screen now toHost src dst host
      let world := events.foldl record (world.setHost toHost host)
      match admitted with
      | none => world
      | some dst =>
        match host.env.sockets.findIdx? (fun socket => socket = some dst) with
        | none => world.record (.noSocket toHost dst)
        | some index =>
          let socket : SocketId := UInt32.ofNat index
          let world := world.record (.delivered toHost src dst payload.length)
          match host.kind with
          | .probe received =>
            if received.length < maxProbeReceived then
              world.setHost toHost { host with kind := .probe (received ++ [⟨now, socket, src, dst, payload⟩]) }
            else world
          | .node _ =>
            postProcess lan ops toHost (world.withHost toHost (fun now => ops.onDatagram now socket src payload))

def dispatch (world : SimWorld N G R) : EventKind → SimWorld N G R
  | .timer id generation =>
    match world.hosts[id]? with
    | none => world
    | some host =>
      if !host.up || host.timerGeneration ≠ generation then world
      else postProcess lan ops id ((world.setHost id { host with nextTimer := none }).withHost id ops.onTimer)
  | .delivery toHost src dst payload _ => deliver lan ops toHost src dst payload world
  | .tcpDeliver id event =>
    match world.hosts[id]? with
    | none => world
    | some host =>
      if !host.up then world
      else postProcess lan ops id (world.withHost id (fun now => ops.onTcpEvent now event))

/-! ### What a test does with the world -/

def new (base : Instant) (rng : R) : SimWorld N G R :=
  ⟨base, ⟨0, 0, []⟩, [], .standard, ∅, ∅, ∅, rng, []⟩

/-- `host_sent`, in datagrams and bytes. -/
def hostSent (world : SimWorld N G R) (id : HostId) : Option (Nat × Nat) :=
  world.hosts[id]?.map (fun host => (host.sentDatagrams, host.sentBytes))

def putAgenda (world : SimWorld N G R) (agenda : Agenda UInt64 EventKind) : SimWorld N G R :=
  { world with agenda := agenda }

/-- `run_for`, up to the virtual time `target`. -/
def runFor (target : UInt64) : Nat → SimWorld N G R → Option (SimWorld N G R) :=
  Agenda.runFor (·.agenda) putAgenda (dispatch lan ops) target

def setHostUp (id : HostId) (up : Bool) (world : SimWorld N G R) : SimWorld N G R :=
  match world.hosts[id]? with
  | none => world
  | some host =>
    if host.up = up then world
    else if up then
      rescheduleTimer ops id ((world.setHost id { host with up := true }).record (.hostUp id))
    else
      (world.setHost id
        { host with up := false, nextTimer := none, timerGeneration := host.timerGeneration + 1 }).record (.hostDown id)

/-- `restart_overlay_node`, with the fresh node given. -/
def restart (id : HostId) (fresh : Instant → N) (world : SimWorld N G R) : SimWorld N G R :=
  match world.hosts[id]? with
  | none => world
  | some host =>
    match host.kind with
    | .probe _ => world
    | .node _ =>
      rescheduleTimer ops id (world.setHost id { host with kind := .node (fresh world.virtualNow), up := true })

/-- `add_node`, `add_transport_node` and `add_probe`. -/
def join (natChain : List (NatBox R)) (v6 : Option HostV6) (gateway : Option G) (env : HostEnvState R)
    (kind : HostKind N) (owned : List IpAddr) (world : SimWorld N G R) : SimWorld N G R :=
  let id := world.hosts.length
  rescheduleTimer ops id
    { world with
      hosts := world.hosts ++ [⟨true, natChain, v6, gateway, env, kind, 0, none, 0, 0⟩]
      ipOwner := owned.foldl (fun owners ip => owners.insert ip.key id) world.ipOwner }

end SimWorld

/-- `call` is any use of a node that is followed by `post_process`, `inspect` one that is not. `tick` is one round of
`run_for`. -/
inductive WorldInput (N G R : Type) where
  | join (natChain : List (NatBox R)) (v6 : Option HostV6) (gateway : Option G) (env : HostEnvState R)
      (kind : HostKind N) (owned : List IpAddr)
  | setDefaultLink (params : LinkParams)
  | setLink (link : Link) (params : LinkParams)
  | setHostUp (id : HostId) (up : Bool)
  | restart (id : HostId) (fresh : Instant → N)
  | call (id : HostId) (f : Instant → N → EnvProg N)
  | inspect (id : HostId) (f : N → N)
  | probeBind (id : HostId) (port : UInt16)
  | probeSend (id : HostId) (socket : SocketId) (dest : SocketAddr) (payload : List UInt8)
  | tick (target : UInt64)

namespace SimWorld
variable {N G R : Type} [SimRng R] (lan : LanOps G R) (ops : NodeOps N)

/-- A step of a test, with the entry that was dispatched in it. -/
def step (world : SimWorld N G R) : WorldInput N G R → SimWorld N G R × List (Agenda.Entry UInt64 EventKind)
  | .join natChain v6 gateway env kind owned => (join ops natChain v6 gateway env kind owned world, [])
  | .setDefaultLink params => ({ world with defaultLink := params }, [])
  | .setLink link params => ({ world with links := world.links.insert link params }, [])
  | .setHostUp id up => (setHostUp ops id up world, [])
  | .restart id fresh => (restart ops id fresh world, [])
  | .call id f => (postProcess lan ops id (world.withHost id f), [])
  | .inspect id f => (world.withHost id (fun _ node => .done (f node)), [])
  | .probeBind id port =>
    match world.hosts[id]? with
    | none => (world, [])
    | some host => (world.setHost id { host with env := (host.env.bind (some port) .v4).1 }, [])
  | .probeSend id socket dest payload =>
    match world.hosts[id]?.bind (fun host => host.env.addrOf socket) with
    | none => (world, [])
    | some source => (route lan id world (source, dest, payload), [])
  | .tick target =>
    match Agenda.tick (·.agenda) putAgenda (dispatch lan ops) target world with
    | none => ({ world with agenda := { world.agenda with now := target } }, [])
    | some (entry, world) => (world, [entry])

end SimWorld

end Lightbringer.Overlay.Sim
