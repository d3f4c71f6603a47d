import Lightbringer.Overlay.Punch
import Lightbringer.Overlay.GatewayText
import Lightbringer.Lib.Bytes

/-!
# The port mapper

`overlay/portmap.rs`: the ladder PCP, NAT-PMP, UPnP against the gateway, and the PCP pinhole for the v6 socket beside
it. Datagrams and TCP requests are its actions; what the gateway answers, and what binding and connecting yield, comes
with the input of a step. Where the source would panic on a text, this mapper goes on without it.
-/

namespace Lightbringer.Overlay.PortMap
open Machine

def stepTimeout : Nat := fromSecs 2

def stepAttempts : Nat := 2

def tcpTimeout : Nat := fromSecs 4

def ladderRetry : Nat := fromSecs 60

def requestLifetimeSecs : Nat := 3600

def minLease : Nat := fromSecs 15

def maxHttpResponse : Nat := 64 * 1024

def ssdpMulticast : SocketAddr := ⟨.v4 0xEFFFFFFA, 1900⟩

abbrev TcpId := Nat

/-! ### State -/

structure PortMapConfig where
  gateway : SocketAddr
  internalPort : UInt16
  internalIp : IpAddr
  internalV6 : Option SocketAddr
  deriving DecidableEq

inductive MapProtocol where
  | pcp
  | natPmp
  | upnp
  deriving DecidableEq

structure Mapped where
  protocol : MapProtocol
  external : SocketAddr
  lease : Nat
  grantedAt : Instant
  deriving DecidableEq

def Mapped.expired (m : Mapped) (now : Instant) : Bool := m.grantedAt + m.lease ≤ now

/-- The conversation in flight. `idle` holds the time of the next one. -/
inductive Phase where
  | idle (due : Instant)
  | pcp (attempt : Nat) (deadline : Instant)
  | natPmpExternal (attempt : Nat) (deadline : Instant)
  | natPmpMap (attempt : Nat) (deadline : Instant) (externalIp : IpAddr)
  | ssdp (attempt : Nat) (deadline : Instant)
  | upnpDescribe (conn : TcpId) (deadline : Instant)
  | upnpExternal (conn : TcpId) (deadline : Instant)
  | upnpMap (conn : TcpId) (deadline : Instant) (externalIp : IpAddr)
  deriving DecidableEq

def Phase.deadline : Phase → Instant
  | .idle due => due
  | .pcp _ deadline | .natPmpExternal _ deadline | .natPmpMap _ deadline _ | .ssdp _ deadline => deadline
  | .upnpDescribe _ deadline | .upnpExternal _ deadline | .upnpMap _ deadline _ => deadline

/-- The TCP connection a phase waits on. -/
def Phase.conn : Phase → Option TcpId
  | .upnpDescribe conn _ | .upnpExternal conn _ | .upnpMap conn _ _ => some conn
  | _ => none

inductive PinPhase where
  | off
  | idle (due : Instant)
  | wait (attempt : Nat) (deadline : Instant)
  deriving DecidableEq

def PinPhase.deadline : PinPhase → Option Instant
  | .off => none
  | .idle due => some due
  | .wait _ deadline => some deadline

structure PortMapper where
  config : PortMapConfig
  platform : Platform
  socket : Option SocketId
  nonce : List UInt8
  nonceV6 : List UInt8
  phase : Phase
  mapped : Option Mapped
  pinPhase : PinPhase
  pinhole : Option Mapped
  httpEndpoint : Option SocketAddr
  describePath : Text
  controlUrl : Option Text
  httpBuf : List UInt8
  malformedResponses : Nat
  denials : Nat

/-- What the environment answers during a step: the clock, the bytes drawn for the nonces and `tcp_connect`. -/
structure PortMapEnv where
  now : Instant
  nonce : List UInt8
  nonceV6 : List UInt8
  tcp : Option TcpId

/-- An HTTP request, by what its text is made of. -/
inductive HttpRequest where
  | describe (path : Text)
  | getExternalIpAddress (control : Text)
  | addPortMapping (control : Text) (port : UInt16) (client : IpAddr)
  deriving DecidableEq

inductive PortMapAction where
  | bound (socket : SocketId)
  | sent (socket : SocketId) (dest : SocketAddr) (raw : List UInt8)
  | connected (conn : TcpId) (dest : SocketAddr) (request : HttpRequest)
  | tcpClosed (conn : TcpId)
  deriving DecidableEq

inductive TcpEvent where
  | connected (conn : TcpId)
  | data (conn : TcpId) (bytes : List UInt8)
  | closed (conn : TcpId)
  deriving DecidableEq

def TcpEvent.conn : TcpEvent → TcpId
  | .connected conn | .data conn _ | .closed conn => conn

/-! ### Codecs -/

def ipTo16 : IpAddr → List UInt8
  | .v4 octets => Bytes.ofNat 16 (0xFFFF * 2 ^ 32 + octets.toNat)
  | .v6 octets => Bytes.ofNat 16 octets.toNat

/-- An address of the newer family that maps one of the older is the older one. -/
def ipFrom16 (bytes : List UInt8) : IpAddr :=
  let n := Bytes.toNat bytes
  if n / 2 ^ 32 = 0xFFFF then .v4 (.ofNat 32 n) else .v6 (.ofNat 128 n)

def encodePcpMap (nonce : List UInt8) (clientIp : IpAddr) (internalPort suggestedPort : UInt16) (lifetime : Nat) :
    List UInt8 :=
  [2, 1, 0, 0] ++ Bytes.ofNat 4 lifetime ++ ipTo16 clientIp ++ nonce ++ [17, 0, 0, 0] ++
    Bytes.ofNat 2 internalPort.toNat ++ Bytes.ofNat 2 suggestedPort.toNat ++ ipTo16 (.v4 0)

def encodeNatPmpMap (internalPort : UInt16) : List UInt8 :=
  [0, 1, 0, 0] ++ Bytes.ofNat 2 internalPort.toNat ++ Bytes.ofNat 2 internalPort.toNat ++
    Bytes.ofNat 4 requestLifetimeSecs

def msearch : String :=
  "M-SEARCH * HTTP/1.1\r\nHOST: 239.255.255.250:1900\r\nMAN: \"ssdp:discover\"\r\nMX: 2\r\n" ++
    "ST: urn:schemas-upnp-org:device:InternetGatewayDevice:1\r\n\r\n"

structure PcpMapResponse where
  result : UInt8
  lifetime : Nat
  nonce : List UInt8
  externalPort : UInt16
  externalIp : IpAddr
  deriving DecidableEq

/-- The bytes from `start`, as many as `width`. -/
def field (start width : Nat) (payload : List UInt8) : List UInt8 := (payload.drop start).take width

def startsWith (payload first : List UInt8) : Bool := payload.take first.length = first

def parsePcpMapResponse (payload : List UInt8) : Option PcpMapResponse :=
  if payload.length = 60 && startsWith payload [2, 0x81] then
    some {
      result := payload.getD 3 0
      lifetime := Bytes.toNat (field 4 4 payload)
      nonce := field 24 12 payload
      externalPort := .ofNat (Bytes.toNat (field 42 2 payload))
      externalIp := ipFrom16 (field 44 16 payload) }
  else none

/-! ### The ladder -/

namespace PortMapper

def new (config : PortMapConfig) (platform : Platform) (now : Instant) : PortMapper where
  config := config
  platform := platform
  socket := none
  nonce := List.replicate 12 0
  nonceV6 := List.replicate 12 0
  phase := .idle now
  mapped := none
  pinPhase := if config.internalV6.isSome then .idle now else .off
  pinhole := none
  httpEndpoint := none
  describePath := []
  controlUrl := none
  httpBuf := []
  malformedResponses := 0
  denials := 0

variable (mapper : PortMapper) (env : PortMapEnv)

def mappedExternal (now : Instant) : Option SocketAddr :=
  (mapper.mapped.filter (fun mapped => !mapped.expired now)).map (·.external)

def pollTimeout : Instant :=
  match mapper.pinPhase.deadline with
  | none => mapper.phase.deadline
  | some pin => min mapper.phase.deadline pin

def ensureSocket : PortMapper × Option SocketId × List PortMapAction :=
  match mapper.socket with
  | some socket => (mapper, some socket, [])
  | none =>
    match mapper.platform.bind with
    | (platform, none) => ({ mapper with platform := platform }, none, [])
    | (platform, some socket) =>
      ({ mapper with platform := platform, nonce := env.nonce, nonceV6 := env.nonceV6, socket := some socket },
        some socket, [.bound socket])

def ladderFailed : PortMapper := { mapper with phase := .idle (env.now + ladderRetry) }

def malformed : PortMapper := { mapper with malformedResponses := mapper.malformedResponses + 1 }

def denied : PortMapper := { mapper with denials := mapper.denials + 1 }

/-- The datagrams of the ladder: bind, send, and wait for the answer. -/
def sendStep (dest : SocketAddr) (raw : PortMapper → List UInt8) (phase : Instant → Phase) :
    PortMapper × List PortMapAction :=
  match mapper.ensureSocket env with
  | (mapper, none, actions) => (mapper.ladderFailed env, actions)
  | (mapper, some socket, actions) =>
    ({ mapper with phase := phase (env.now + stepTimeout) }, actions ++ [.sent socket dest (raw mapper)])

def sendPcpMap (attempt : Nat) : PortMapper × List PortMapAction :=
  mapper.sendStep env mapper.config.gateway
    (fun mapper => encodePcpMap mapper.nonce mapper.config.internalIp mapper.config.internalPort
      mapper.config.internalPort requestLifetimeSecs)
    (.pcp attempt)

def sendNatPmpExternal (attempt : Nat) : PortMapper × List PortMapAction :=
  mapper.sendStep env mapper.config.gateway (fun _ => [0, 0]) (.natPmpExternal attempt)

def sendNatPmpMap (attempt : Nat) (externalIp : IpAddr) : PortMapper × List PortMapAction :=
  mapper.sendStep env mapper.config.gateway (fun mapper => encodeNatPmpMap mapper.config.internalPort)
    (fun deadline => .natPmpMap attempt deadline externalIp)

def sendSsdp (attempt : Nat) : PortMapper × List PortMapAction :=
  mapper.sendStep env ssdpMulticast (fun _ => msearch.toUTF8.toList) (.ssdp attempt)

/-! ### UPnP -/

/-- The HTTP requests of the ladder, each on a connection of its own. `control` is what is remembered once it is
open. -/
def sendHttp (request : HttpRequest) (control : Option Text) (phase : TcpId → Instant → Phase) :
    PortMapper × List PortMapAction :=
  match mapper.httpEndpoint, env.tcp with
  | some endpoint, some conn =>
    ({ mapper with
        httpBuf := []
        controlUrl := control
        phase := phase conn (env.now + tcpTimeout) }, [.connected conn endpoint request])
  | _, _ => (mapper.ladderFailed env, [])

def sendUpnpDescribe : PortMapper × List PortMapAction :=
  mapper.sendHttp env (.describe mapper.describePath) mapper.controlUrl .upnpDescribe

def sendUpnpExternal (control : Text) : PortMapper × List PortMapAction :=
  mapper.sendHttp env (.getExternalIpAddress control) (some control) .upnpExternal

def sendUpnpMap (control : Text) (externalIp : IpAddr) : PortMapper × List PortMapAction :=
  mapper.sendHttp env (.addPortMapping control mapper.config.internalPort mapper.config.internalIp) (some control)
    (fun conn deadline => .upnpMap conn deadline externalIp)

/-! ### Timers -/

/-- A mapping is renewed through the protocol that granted it. -/
def startLadderOrRenew : PortMapper × List PortMapAction :=
  match mapper.mapped with
  | none => mapper.sendPcpMap env 0
  | some mapped =>
    match mapped.protocol with
    | .pcp => mapper.sendPcpMap env 0
    | .natPmp => mapper.sendNatPmpMap env 0 mapped.external.ip
    | .upnp =>
      match mapper.httpEndpoint, mapper.controlUrl with
      | some _, some control => mapper.sendUpnpMap env control mapped.external.ip
      | _, _ => mapper.sendSsdp env 0

/-- A rung is tried again, or the next one is. -/
def retry (attempt : Nat) (again : Nat → PortMapper × List PortMapAction) (next : PortMapper × List PortMapAction) :
    PortMapper × List PortMapAction :=
  if attempt + 1 < stepAttempts then again (attempt + 1) else next

def drivePhase : PortMapper × List PortMapAction :=
  if env.now < mapper.phase.deadline then (mapper, [])
  else
    match mapper.phase with
    | .idle _ => mapper.startLadderOrRenew env
    | .pcp attempt _ => retry attempt (mapper.sendPcpMap env) (mapper.sendNatPmpExternal env 0)
    | .natPmpExternal attempt _ => retry attempt (mapper.sendNatPmpExternal env) (mapper.sendSsdp env 0)
    | .natPmpMap attempt _ externalIp =>
      retry attempt (fun attempt => mapper.sendNatPmpMap env attempt externalIp) (mapper.sendSsdp env 0)
    | .ssdp attempt _ => retry attempt (mapper.sendSsdp env) (mapper.ladderFailed env, [])
    | .upnpDescribe conn _ | .upnpExternal conn _ | .upnpMap conn _ _ =>
      ({ mapper with httpBuf := [] }.ladderFailed env, [.tcpClosed conn])

def sendPinhole (attempt : Nat) (internalV6 : SocketAddr) : PortMapper × List PortMapAction :=
  match mapper.ensureSocket env with
  | (mapper, none, actions) => ({ mapper with pinPhase := .idle (env.now + ladderRetry) }, actions)
  | (mapper, some socket, actions) =>
    let request :=
      encodePcpMap mapper.nonceV6 internalV6.ip internalV6.port internalV6.port requestLifetimeSecs
    ({ mapper with pinPhase := .wait attempt (env.now + stepTimeout) },
      actions ++ [.sent socket mapper.config.gateway request])

/-- Without a v6 socket the pinhole is left as it is. -/
def drivePinhole : PortMapper × List PortMapAction :=
  match mapper.config.internalV6, mapper.pinPhase with
  | some internalV6, .idle due => if due ≤ env.now then mapper.sendPinhole env 0 internalV6 else (mapper, [])
  | some internalV6, .wait attempt deadline =>
    if deadline ≤ env.now then
      retry attempt (fun attempt => mapper.sendPinhole env attempt internalV6)
        ({ mapper with pinPhase := .idle (env.now + ladderRetry) }, [])
    else (mapper, [])
  | _, _ => (mapper, [])

def dropExpired (now : Instant) (mapped : Option Mapped) : Option Mapped :=
  mapped.filter (fun mapped => !mapped.expired now)

def onTimer : PortMapper × List PortMapAction :=
  let mapper := { mapper with
    mapped := dropExpired env.now mapper.mapped
    pinhole := dropExpired env.now mapper.pinhole }
  let (mapper, ladder) := mapper.drivePhase env
  let (mapper, pin) := mapper.drivePinhole env
  (mapper, ladder ++ pin)

/-! ### Answers of the gateway -/

/-- Renewal is due at the half of the lease. -/
def grant (protocol : MapProtocol) (external : SocketAddr) (lease : Nat) : PortMapper :=
  { mapper with
    mapped := some ⟨protocol, external, lease, env.now⟩
    phase := .idle (env.now + lease / 2) }

def onPcpResponse (payload : List UInt8) : PortMapper × List PortMapAction :=
  match parsePcpMapResponse payload with
  | none => (mapper.malformed, [])
  | some response =>
    let lease := fromSecs response.lifetime
    if response.nonce ≠ mapper.nonce then (mapper, [])
    else if response.result ≠ 0 || lease < minLease then mapper.denied.sendNatPmpExternal env 0
    else (mapper.grant env .pcp ⟨response.externalIp, response.externalPort⟩ lease, [])

def onPinholeResponse (response : PcpMapResponse) : PortMapper :=
  let lease := fromSecs response.lifetime
  if response.result ≠ 0 || lease < minLease then { mapper.denied with pinPhase := .idle (env.now + ladderRetry) }
  else
    { mapper with
      pinhole := some ⟨.pcp, ⟨response.externalIp, response.externalPort⟩, lease, env.now⟩
      pinPhase := .idle (env.now + lease / 2) }

def onNatPmpExternal (payload : List UInt8) : PortMapper × List PortMapAction :=
  if payload.length = 12 && startsWith payload [0, 128] then
    if Bytes.toNat (field 2 2 payload) ≠ 0 then mapper.denied.sendSsdp env 0
    else mapper.sendNatPmpMap env 0 (.v4 (.ofNat 32 (Bytes.toNat (field 8 4 payload))))
  else (mapper.malformed, [])

def onNatPmpMap (payload : List UInt8) (externalIp : IpAddr) : PortMapper × List PortMapAction :=
  if payload.length = 16 && startsWith payload [0, 129] then
    let lease := fromSecs (Bytes.toNat (field 12 4 payload))
    if Bytes.toNat (field 2 2 payload) ≠ 0 || lease < minLease then mapper.denied.sendSsdp env 0
    else (mapper.grant env .natPmp ⟨externalIp, .ofNat (Bytes.toNat (field 10 2 payload))⟩ lease, [])
  else (mapper.malformed, [])

/-- The description is only fetched from the gateway itself. -/
def onSsdpResponse (payload : List UInt8) : PortMapper × List PortMapAction :=
  match parseSsdpLocation payload with
  | none => (mapper.malformed, [])
  | some (endpoint, path) =>
    if endpoint.ip ≠ mapper.config.gateway.ip then (mapper.malformed, [])
    else { mapper with httpEndpoint := some endpoint, describePath := path }.sendUpnpDescribe env

/-- The answer to a pinhole request, known by its nonce in any phase. -/
def pinholeResponse (payload : List UInt8) : Option PcpMapResponse :=
  (parsePcpMapResponse payload).filter (fun response => response.nonce = mapper.nonceV6)

def onDatagram (source : SocketAddr) (payload : List UInt8) : PortMapper × List PortMapAction :=
  if source.ip ≠ mapper.config.gateway.ip then (mapper, [])
  else
    match mapper.pinholeResponse payload with
    | some response => (mapper.onPinholeResponse env response, [])
    | none =>
      match mapper.phase with
      | .pcp .. => mapper.onPcpResponse env payload
      | .natPmpExternal .. => mapper.onNatPmpExternal env payload
      | .natPmpMap _ _ externalIp => mapper.onNatPmpMap env payload externalIp
      | .ssdp .. => mapper.onSsdpResponse env payload
      | _ => (mapper, [])

/-- A response that is of no use ends the ladder. -/
def unusable : PortMapper × List PortMapAction := (mapper.malformed.ladderFailed env, [])

def finishDescribe (status : UInt16) (body : Text) : PortMapper × List PortMapAction :=
  match if status = 200 then parseControlUrl body else none with
  | some control => mapper.sendUpnpExternal env control
  | none => mapper.unusable env

def finishExternal (status : UInt16) (body : Text) : PortMapper × List PortMapAction :=
  match if status = 200 then externalIpAddress body else none, mapper.controlUrl with
  | some ip, some control => mapper.sendUpnpMap env control ip
  | _, _ => mapper.unusable env

/-- The port is the requested one, the lease what was asked for. -/
def finishMap (status : UInt16) (body : Text) (externalIp : IpAddr) : PortMapper × List PortMapAction :=
  if status = 200 && addPortMappingResponse body then
    (mapper.grant env .upnp ⟨externalIp, mapper.config.internalPort⟩ (fromSecs requestLifetimeSecs), [])
  else (mapper.denied.ladderFailed env, [])

def finishHttp : PortMapper × List PortMapAction :=
  let buf := mapper.httpBuf
  let mapper := { mapper with httpBuf := [] }
  match parseHttpResponse buf with
  | none => mapper.unusable env
  | some (status, body) =>
    match mapper.phase with
    | .upnpDescribe .. => mapper.finishDescribe env status body
    | .upnpExternal .. => mapper.finishExternal env status body
    | .upnpMap _ _ externalIp => mapper.finishMap env status body externalIp
    | _ => (mapper, [])

/-- `on_tcp_event` on the connection of the current phase. -/
def onActiveTcpEvent : TcpEvent → PortMapper × List PortMapAction
  | .connected _ => (mapper, [])
  | .data conn bytes =>
    let mapper := { mapper with httpBuf := mapper.httpBuf ++ bytes }
    if maxHttpResponse < mapper.httpBuf.length then
      ({ mapper with httpBuf := [] }.malformed.ladderFailed env, [.tcpClosed conn])
    else if httpResponseComplete mapper.httpBuf then
      let (mapper, actions) := mapper.finishHttp env
      (mapper, .tcpClosed conn :: actions)
    else (mapper, [])
  | .closed _ =>
    -- The end of the stream also delimits a response.
    if (parseHttpResponse mapper.httpBuf).isSome then mapper.finishHttp env
    else ({ mapper with httpBuf := [] }.ladderFailed env, [])

def onTcpEvent (event : TcpEvent) : PortMapper × List PortMapAction :=
  if mapper.phase.conn = some event.conn then mapper.onActiveTcpEvent env event else (mapper, [])

end PortMapper

end Lightbringer.Overlay.PortMap
