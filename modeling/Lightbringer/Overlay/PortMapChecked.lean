import Lightbringer.Overlay.GatewaySlices
import Lightbringer.Overlay.PortMapSteps

/-!
# Where the port mapper panics

`overlay/portmap.rs` once more, with all that ends the program: the sums of counters and of times, the `expect` on the
endpoint, and what the parsers index. `latest` is the last time an `Instant` can hold.
-/

namespace Lightbringer.Overlay.PortMap
open Machine

namespace Checked

variable (latest : Instant) (mapper : PortMapper) (env : PortMapEnv)

/-- `a + b` in this many bits. -/
def add (bits a b : Nat) : Checked Nat := if a + b < 2 ^ bits then .ok (a + b) else .error .overflow

/-- `now + wait` -/
def later (now : Instant) (wait : Nat) : Checked Instant :=
  if now + wait ≤ latest then .ok (now + wait) else .error .overflow

def expired (m : Mapped) (now : Instant) : Checked Bool := do return (← later latest m.grantedAt m.lease) ≤ now

def ladderFailed : Checked PortMapper := do
  return { mapper with phase := .idle (← later latest env.now ladderRetry) }

def malformed : Checked PortMapper := do
  return { mapper with malformedResponses := ← add 64 mapper.malformedResponses 1 }

def denied : Checked PortMapper := do
  return { mapper with denials := ← add 64 mapper.denials 1 }

/-! ### The ladder -/

def sendStep (dest : SocketAddr) (raw : PortMapper → List UInt8) (phase : Instant → Phase) :
    Checked (PortMapper × List PortMapAction) :=
  match mapper.ensureSocket env with
  | (mapper, none, actions) => do return (← ladderFailed latest mapper env, actions)
  | (mapper, some socket, actions) => do
    let deadline ← later latest env.now stepTimeout
    return ({ mapper with phase := phase deadline }, actions ++ [.sent socket dest (raw mapper)])

def sendPcpMap (attempt : Nat) : Checked (PortMapper × List PortMapAction) :=
  sendStep latest mapper env mapper.config.gateway
    (fun mapper => encodePcpMap mapper.nonce mapper.config.internalIp mapper.config.internalPort
      mapper.config.internalPort requestLifetimeSecs)
    (.pcp attempt)

def sendNatPmpExternal (attempt : Nat) : Checked (PortMapper × List PortMapAction) :=
  sendStep latest mapper env mapper.config.gateway (fun _ => [0, 0]) (.natPmpExternal attempt)

def sendNatPmpMap (attempt : Nat) (externalIp : IpAddr) : Checked (PortMapper × List PortMapAction) :=
  sendStep latest mapper env mapper.config.gateway (fun mapper => encodeNatPmpMap mapper.config.internalPort)
    (fun deadline => .natPmpMap attempt deadline externalIp)

def sendSsdp (attempt : Nat) : Checked (PortMapper × List PortMapAction) :=
  sendStep latest mapper env ssdpMulticast (fun _ => msearch.toUTF8.toList) (.ssdp attempt)

def sendHttp (request : HttpRequest) (control : Option Text) (phase : TcpId → Instant → Phase) :
    Checked (PortMapper × List PortMapAction) :=
  match mapper.httpEndpoint, env.tcp with
  | some endpoint, some conn => do
    let deadline ← later latest env.now tcpTimeout
    return ({ mapper with
        httpBuf := []
        controlUrl := control
        phase := phase conn deadline }, [.connected conn endpoint request])
  | _, _ => do return (← ladderFailed latest mapper env, [])

def sendUpnpDescribe : Checked (PortMapper × List PortMapAction) :=
  sendHttp latest mapper env (.describe mapper.describePath) mapper.controlUrl .upnpDescribe

/-- `soap_request` expects an endpoint. -/
def soapRequest (request : HttpRequest) : Checked HttpRequest :=
  match mapper.httpEndpoint with
  | some _ => .ok request
  | none => .error .expectFailed

def sendUpnpExternal (control : Text) : Checked (PortMapper × List PortMapAction) := do
  let request ← soapRequest mapper (.getExternalIpAddress control)
  sendHttp latest mapper env request (some control) .upnpExternal

def sendUpnpMap (control : Text) (externalIp : IpAddr) : Checked (PortMapper × List PortMapAction) := do
  let request ← soapRequest mapper (.addPortMapping control mapper.config.internalPort mapper.config.internalIp)
  sendHttp latest mapper env request (some control) (fun conn deadline => .upnpMap conn deadline externalIp)

/-! ### Timers -/

def startLadderOrRenew : Checked (PortMapper × List PortMapAction) :=
  match mapper.mapped with
  | none => sendPcpMap latest mapper env 0
  | some mapped =>
    match mapped.protocol with
    | .pcp => sendPcpMap latest mapper env 0
    | .natPmp => sendNatPmpMap latest mapper env 0 mapped.external.ip
    | .upnp =>
      match mapper.httpEndpoint, mapper.controlUrl with
      | some _, some control => sendUpnpMap latest mapper env control mapped.external.ip
      | _, _ => sendSsdp latest mapper env 0

/-- The attempts are counted in a byte. -/
def retry (attempt : Nat) (again : Nat → Checked (PortMapper × List PortMapAction))
    (next : Checked (PortMapper × List PortMapAction)) : Checked (PortMapper × List PortMapAction) := do
  let attempt ← add 8 attempt 1
  if attempt < stepAttempts then again attempt else next

def drivePhase : Checked (PortMapper × List PortMapAction) :=
  if env.now < mapper.phase.deadline then return (mapper, [])
  else
    match mapper.phase with
    | .idle _ => startLadderOrRenew latest mapper env
    | .pcp attempt _ => retry attempt (sendPcpMap latest mapper env) (sendNatPmpExternal latest mapper env 0)
    | .natPmpExternal attempt _ =>
      retry attempt (sendNatPmpExternal latest mapper env) (sendSsdp latest mapper env 0)
    | .natPmpMap attempt _ externalIp =>
      retry attempt (fun attempt => sendNatPmpMap latest mapper env attempt externalIp) (sendSsdp latest mapper env 0)
    | .ssdp attempt _ =>
      retry attempt (sendSsdp latest mapper env) (do return (← ladderFailed latest mapper env, []))
    | .upnpDescribe conn _ | .upnpExternal conn _ | .upnpMap conn _ _ => do
      return (← ladderFailed latest { mapper with httpBuf := [] } env, [.tcpClosed conn])

def sendPinhole (attempt : Nat) (internalV6 : SocketAddr) : Checked (PortMapper × List PortMapAction) :=
  match mapper.ensureSocket env with
  | (mapper, none, actions) => do
    return ({ mapper with pinPhase := .idle (← later latest env.now ladderRetry) }, actions)
  | (mapper, some socket, actions) => do
    let request :=
      encodePcpMap mapper.nonceV6 internalV6.ip internalV6.port internalV6.port requestLifetimeSecs
    let deadline ← later latest env.now stepTimeout
    return ({ mapper with pinPhase := .wait attempt deadline },
      actions ++ [.sent socket mapper.config.gateway request])

def drivePinhole : Checked (PortMapper × List PortMapAction) :=
  match mapper.config.internalV6, mapper.pinPhase with
  | some internalV6, .idle due =>
    if due ≤ env.now then sendPinhole latest mapper env 0 internalV6 else return (mapper, [])
  | some internalV6, .wait attempt deadline =>
    if deadline ≤ env.now then
      retry attempt (fun attempt => sendPinhole latest mapper env attempt internalV6)
        (do return ({ mapper with pinPhase := .idle (← later latest env.now ladderRetry) }, []))
    else return (mapper, [])
  | _, _ => return (mapper, [])

def dropExpired (now : Instant) : Option Mapped → Checked (Option Mapped)
  | none => return none
  | some m => do if ← expired latest m now then return none else return some m

def onTimer : Checked (PortMapper × List PortMapAction) := do
  let mapped ← dropExpired latest env.now mapper.mapped
  let pinhole ← dropExpired latest env.now mapper.pinhole
  let (mapper, ladder) ← drivePhase latest { mapper with mapped := mapped, pinhole := pinhole } env
  let (mapper, pin) ← drivePinhole latest mapper env
  return (mapper, ladder ++ pin)

/-! ### Datagrams -/

def grant (protocol : MapProtocol) (external : SocketAddr) (lease : Nat) : Checked PortMapper := do
  let due ← later latest env.now (lease / 2)
  return { mapper with
    mapped := some ⟨protocol, external, lease, env.now⟩
    phase := .idle due }

def onPcpResponse (payload : List UInt8) : Checked (PortMapper × List PortMapAction) := do
  match ← parsePcpMapResponse payload with
  | none => return (← malformed mapper, [])
  | some response =>
    let lease := fromSecs response.lifetime
    if response.nonce ≠ mapper.nonce then return (mapper, [])
    else if response.result ≠ 0 || lease < minLease then sendNatPmpExternal latest (← denied mapper) env 0
    else return (← grant latest mapper env .pcp ⟨response.externalIp, response.externalPort⟩ lease, [])

def onPinholeResponse (response : PcpMapResponse) : Checked PortMapper :=
  let lease := fromSecs response.lifetime
  if response.result ≠ 0 || lease < minLease then do
    return { ← denied mapper with pinPhase := .idle (← later latest env.now ladderRetry) }
  else do
    let due ← later latest env.now (lease / 2)
    return { mapper with
      pinhole := some ⟨.pcp, ⟨response.externalIp, response.externalPort⟩, lease, env.now⟩
      pinPhase := .idle due }

def onNatPmpExternal (payload : List UInt8) : Checked (PortMapper × List PortMapAction) := do
  if ← opens payload 12 0 128 then
    if Bytes.toNat (← indexes payload 2 2) ≠ 0 then sendSsdp latest (← denied mapper) env 0
    else sendNatPmpMap latest mapper env 0 (.v4 (.ofNat 32 (Bytes.toNat (← indexes payload 8 4))))
  else return (← malformed mapper, [])

def onNatPmpMap (payload : List UInt8) (externalIp : IpAddr) : Checked (PortMapper × List PortMapAction) := do
  if ← opens payload 16 0 129 then
    let result ← indexes payload 2 2
    let mappedPort ← indexes payload 10 2
    let lifetime ← indexes payload 12 4
    let lease := fromSecs (Bytes.toNat lifetime)
    if Bytes.toNat result ≠ 0 || lease < minLease then sendSsdp latest (← denied mapper) env 0
    else return (← grant latest mapper env .natPmp ⟨externalIp, .ofNat (Bytes.toNat mappedPort)⟩ lease, [])
  else return (← malformed mapper, [])

def onSsdpResponse (payload : List UInt8) : Checked (PortMapper × List PortMapAction) := do
  match ← parseSsdpLocation payload with
  | none => return (← malformed mapper, [])
  | some (endpoint, path) =>
    if endpoint.ip ≠ mapper.config.gateway.ip then return (← malformed mapper, [])
    else sendUpnpDescribe latest { mapper with httpEndpoint := some endpoint, describePath := path } env

/-- Only the first byte is looked at before the parser. -/
def pinholeResponse (payload : List UInt8) : Checked (Option PcpMapResponse) :=
  if payload.head? = some 2 then do
    return (← parsePcpMapResponse payload).filter (fun response => response.nonce = mapper.nonceV6)
  else return none

def onDatagram (source : SocketAddr) (payload : List UInt8) : Checked (PortMapper × List PortMapAction) :=
  if source.ip ≠ mapper.config.gateway.ip then return (mapper, [])
  else do
    match ← pinholeResponse mapper payload with
    | some response => return (← onPinholeResponse latest mapper env response, [])
    | none =>
      match mapper.phase with
      | .pcp .. => onPcpResponse latest mapper env payload
      | .natPmpExternal .. => onNatPmpExternal latest mapper env payload
      | .natPmpMap _ _ externalIp => onNatPmpMap latest mapper env payload externalIp
      | .ssdp .. => onSsdpResponse latest mapper env payload
      | _ => return (mapper, [])

/-! ### TCP -/

def unusable : Checked (PortMapper × List PortMapAction) := do
  return (← ladderFailed latest (← malformed mapper) env, [])

/-- A body is only read on success. -/
def onSuccess {α : Type} (status : UInt16) (read : Checked (Option α)) : Checked (Option α) :=
  if status = 200 then read else return none

def finishDescribe (status : UInt16) (body : Text) : Checked (PortMapper × List PortMapAction) := do
  match ← onSuccess status (parseControlUrl body) with
  | some control => sendUpnpExternal latest mapper env control
  | none => unusable latest mapper env

def externalIpAddress (body : Text) : Checked (Option IpAddr) := do
  return (← xmlField body "NewExternalIPAddress".toList).bind (parseWith readIpAddr)

def finishExternal (status : UInt16) (body : Text) : Checked (PortMapper × List PortMapAction) := do
  match ← onSuccess status (externalIpAddress body), mapper.controlUrl with
  | some ip, some control => sendUpnpMap latest mapper env control ip
  | _, _ => unusable latest mapper env

def finishMap (status : UInt16) (body : Text) (externalIp : IpAddr) : Checked (PortMapper × List PortMapAction) :=
  if status = 200 && addPortMappingResponse body then do
    return (← grant latest mapper env .upnp ⟨externalIp, mapper.config.internalPort⟩ (fromSecs requestLifetimeSecs), [])
  else do return (← ladderFailed latest (← denied mapper) env, [])

def finishHttp : Checked (PortMapper × List PortMapAction) := do
  let buf := mapper.httpBuf
  let mapper := { mapper with httpBuf := [] }
  match ← parseHttpResponse buf with
  | none => unusable latest mapper env
  | some (status, body) =>
    match mapper.phase with
    | .upnpDescribe .. => finishDescribe latest mapper env status body
    | .upnpExternal .. => finishExternal latest mapper env status body
    | .upnpMap _ _ externalIp => finishMap latest mapper env status body externalIp
    | _ => return (mapper, [])

def onActiveTcpEvent : TcpEvent → Checked (PortMapper × List PortMapAction)
  | .connected _ => return (mapper, [])
  | .data conn bytes => do
    let mapper := { mapper with httpBuf := mapper.httpBuf ++ bytes }
    if maxHttpResponse < mapper.httpBuf.length then
      let mapper ← malformed { mapper with httpBuf := [] }
      return (← ladderFailed latest mapper env, [.tcpClosed conn])
    else if ← httpResponseComplete mapper.httpBuf then
      let (mapper, actions) ← finishHttp latest mapper env
      return (mapper, .tcpClosed conn :: actions)
    else return (mapper, [])
  | .closed _ => do
    if (← parseHttpResponse mapper.httpBuf).isSome then finishHttp latest mapper env
    else return (← ladderFailed latest { mapper with httpBuf := [] } env, [])

def onTcpEvent (event : TcpEvent) : Checked (PortMapper × List PortMapAction) :=
  if mapper.phase.conn = some event.conn then onActiveTcpEvent latest mapper env event else return (mapper, [])

def step (latest : Instant) (mapper : PortMapper) : Input → Checked (PortMapper × List PortMapAction)
  | .timer env => onTimer latest mapper env
  | .datagram env source payload => onDatagram latest mapper env source payload
  | .tcp env event => onTcpEvent latest mapper env event

end Checked

end Lightbringer.Overlay.PortMap
