import Lightbringer.Overlay.PortMapSafety
import Lightbringer.Overlay.Sim.Firewall
import Lightbringer.Overlay.Sim.GatewayHttp
import Lightbringer.Overlay.Sim.NatLeases

/-!
# The gateway of the simulator

`overlay/sim/gateway.rs`: PCP and NAT-PMP on port 5351, and UPnP over SSDP and HTTP on port 1900, programming the
innermost NAT and the v6 firewall. It has codecs of its own, which agree with those of the port mapper.
-/

namespace Lightbringer.Overlay.Sim
open PortMap (field startsWith ssdpMulticast Checked TcpId Text parseUnsigned parseWith readIpAddr toIpv4Mapped displayIp
  tagged)

def pcpPort : UInt16 := 5351

def upnpPort : UInt16 := 1900

def maxHttpRequest : Nat := 64 * 1024

def maxTcpConns : Nat := 16

/-- How a tier behaves. A fake grant installs nothing. -/
inductive TierMode where
  | off
  | grant
  | deny
  | grantFake
  | malformed
  deriving DecidableEq

/-- `pcpV6Pinhole` follows `pcp` where it is not set. -/
structure GatewayConfig where
  pcp : TierMode
  natpmp : TierMode
  upnp : TierMode
  pcpV6Pinhole : Option TierMode
  lease : Nat

structure GatewayStats where
  pcpRequests : Nat
  natpmpRequests : Nat
  ssdpRequests : Nat
  httpRequests : Nat
  grants : Nat
  denials : Nat

/-- `tcpBufs` holds what has arrived on each HTTP connection and is no complete request yet. -/
structure Gateway where
  config : GatewayConfig
  lanIp : IpAddr
  tcpBufs : Std.TreeMap TcpId (List UInt8)
  stats : GatewayStats

/-! ### Wire helpers -/

def ipFrom16 (bytes : List UInt8) : IpAddr :=
  let v6 := BitVec.ofNat 128 (Bytes.toNat bytes)
  match toIpv4Mapped v6 with
  | some v4 => .v4 v4
  | none => .v6 v6

def ipTo16 : IpAddr → List UInt8
  | .v4 octets => List.replicate 10 0 ++ [0xFF, 0xFF] ++ Bytes.ofNat 4 octets.toNat
  | .v6 octets => Bytes.ofNat 16 octets.toNat

def garbage (version : UInt8) : List UInt8 := [version, 0xDE, 0xAD, 0xBE, 0xEF, 0x00, 0x01]

/-- Nonce and protocol are copied from the request. -/
def pcpMapResponse (request : List UInt8) (result : UInt8) (lifetime epoch : Nat) (assignedPort : UInt16)
    (assignedIp : IpAddr) : List UInt8 :=
  [2, 0x81, 0, result] ++ Bytes.ofNat 4 lifetime ++ Bytes.ofNat 4 epoch ++ List.replicate 12 0 ++
    field 24 12 request ++ field 36 1 request ++ [0, 0, 0] ++ field 40 2 request ++
    Bytes.ofNat 2 assignedPort.toNat ++ ipTo16 assignedIp

namespace Gateway

def new (config : GatewayConfig) (lanIp : IpAddr) : Gateway := ⟨config, lanIp, ∅, ⟨0, 0, 0, 0, 0, 0⟩⟩

variable (gateway : Gateway)

def udpEndpoint : SocketAddr := ⟨gateway.lanIp, pcpPort⟩

/-- What SSDP advertises. -/
def httpEndpoint : SocketAddr := ⟨gateway.lanIp, upnpPort⟩

def isGatewayDst (dst : SocketAddr) : Bool := dst.ip = gateway.lanIp || dst = ssdpMulticast

def grantedLease (requestedSecs : Nat) : Nat := min (fromSecs requestedSecs) gateway.config.lease

/-- The seconds of a duration, in 32 bits. -/
def asSecs (lease : Nat) : Nat := lease / 1000000000 % 2 ^ 32

def epoch (now : UInt64) : Nat := now.toNat / 1000000000 % 2 ^ 32

def granted : Gateway := { gateway with stats := { gateway.stats with grants := gateway.stats.grants + 1 } }

def denied : Gateway := { gateway with stats := { gateway.stats with denials := gateway.stats.denials + 1 } }

/-- What a request does: the gateway, the NAT and the firewall after it, and the answers. -/
structure Served (R : Type) where
  gateway : Gateway
  nat : NatBox R
  firewall : Option FirewallBox
  responses : List (SocketAddr × List UInt8)

section
variable {R : Type} (now : UInt64) (src : SocketAddr) (payload : List UInt8) (nat : NatBox R)
  (firewall : Option FirewallBox)

/-- The port a fake grant names. -/
def fakePort (suggested internalPort : UInt16) : UInt16 := if suggested ≠ 0 then suggested else internalPort

/-- A MAP request of a v6 client: its own port is opened. -/
def pinPcp (mode : TierMode) (clientIp : IpAddr) : Served R :=
  let internalPort := UInt16.ofNat (Bytes.toNat (field 40 2 payload))
  let lease := gateway.grantedLease (Bytes.toNat (field 4 4 payload))
  { gateway := gateway.granted
    nat := nat
    firewall := if mode = .grant then firewall.map (·.installPinhole now internalPort lease) else firewall
    responses := [(gateway.udpEndpoint, pcpMapResponse payload 0 (asSecs lease) (epoch now) internalPort clientIp)] }

/-- A MAP request of a v4 client. -/
def mapPcp (mode : TierMode) : Served R :=
  let internalPort := UInt16.ofNat (Bytes.toNat (field 40 2 payload))
  let suggested := UInt16.ofNat (Bytes.toNat (field 42 2 payload))
  let lease := gateway.grantedLease (Bytes.toNat (field 4 4 payload))
  let (nat, assigned) :=
    if mode = .grant then nat.installStatic now ⟨src.ip, internalPort⟩ suggested lease
    else (nat, some (fakePort suggested internalPort))
  match assigned with
  | some port =>
    ⟨gateway.granted, nat, firewall,
      [(gateway.udpEndpoint, pcpMapResponse payload 0 (asSecs lease) (epoch now) port nat.externalIp)]⟩
  | none =>
    ⟨gateway.denied, nat, firewall,
      [(gateway.udpEndpoint, pcpMapResponse payload 8 0 (epoch now) 0 nat.externalIp)]⟩

def handlePcp : Served R :=
  let gateway := { gateway with stats := { gateway.stats with pcpRequests := gateway.stats.pcpRequests + 1 } }
  if payload.length ≠ 60 ∨ payload.getD 1 0 &&& 0x7F ≠ 1 then ⟨gateway, nat, firewall, []⟩
  else
    let clientIp := ipFrom16 (field 8 16 payload)
    let isV6 := SocketAddr.isIpv6 ⟨clientIp, 0⟩
    let mode := if isV6 then gateway.config.pcpV6Pinhole.getD gateway.config.pcp else gateway.config.pcp
    match mode with
    | .off => ⟨gateway, nat, firewall, []⟩
    | .malformed => ⟨gateway, nat, firewall, [(gateway.udpEndpoint, garbage 2)]⟩
    | .deny =>
      ⟨gateway.denied, nat, firewall, [(gateway.udpEndpoint, pcpMapResponse payload 2 0 (epoch now) 0 clientIp)]⟩
    | mode =>
      if isV6 then gateway.pinPcp now payload nat firewall mode clientIp
      else gateway.mapPcp now src payload nat firewall mode

/-- `Ipv4Addr::UNSPECIFIED` for an address of the newer family. -/
def v4Octets : IpAddr → BitVec 32
  | .v4 octets => octets
  | .v6 _ => 0

def natpmpExternalResponse (result : Nat) (epoch : Nat) (ip : BitVec 32) : List UInt8 :=
  [0, 128] ++ Bytes.ofNat 2 result ++ Bytes.ofNat 4 epoch ++ Bytes.ofNat 4 ip.toNat

def natpmpMapResponse (result epoch : Nat) (internalPort mapped : UInt16) (leaseSecs : Nat) : List UInt8 :=
  [0, 129] ++ Bytes.ofNat 2 result ++ Bytes.ofNat 4 epoch ++ Bytes.ofNat 2 internalPort.toNat ++
    Bytes.ofNat 2 mapped.toNat ++ Bytes.ofNat 4 leaseSecs

/-- The mapping request of NAT-PMP. -/
def mapNatpmp : Served R :=
  let internalPort := UInt16.ofNat (Bytes.toNat (field 4 2 payload))
  let suggested := UInt16.ofNat (Bytes.toNat (field 6 2 payload))
  let lease := gateway.grantedLease (Bytes.toNat (field 8 4 payload))
  let answer (gateway : Gateway) (nat : NatBox R) (result : Nat) (mapped : UInt16) (leaseSecs : Nat) : Served R :=
    ⟨gateway, nat, firewall,
      [(gateway.udpEndpoint, natpmpMapResponse result (epoch now) internalPort mapped leaseSecs)]⟩
  match gateway.config.natpmp with
  | .deny => answer gateway.denied nat 2 0 0
  | .grant =>
    match nat.installStatic now ⟨src.ip, internalPort⟩ suggested lease with
    | (nat, some port) => answer gateway.granted nat 0 port (asSecs lease)
    | (nat, none) => answer gateway.denied nat 2 0 0
  | _ => answer gateway.granted nat 0 (fakePort suggested internalPort) (asSecs lease)

def handleNatpmp : Served R :=
  let gateway := { gateway with stats := { gateway.stats with natpmpRequests := gateway.stats.natpmpRequests + 1 } }
  if gateway.config.natpmp = .off then ⟨gateway, nat, firewall, []⟩
  else if gateway.config.natpmp = .malformed then ⟨gateway, nat, firewall, [(gateway.udpEndpoint, garbage 0)]⟩
  else if payload[1]? = some 0 ∧ payload.length = 2 then
    if gateway.config.natpmp = .deny then
      ⟨gateway.denied, nat, firewall, [(gateway.udpEndpoint, natpmpExternalResponse 2 (epoch now) 0)]⟩
    else
      ⟨gateway, nat, firewall,
        [(gateway.udpEndpoint, natpmpExternalResponse 0 (epoch now) (v4Octets nat.externalIp))]⟩
  else if payload[1]? = some 1 ∧ payload.length = 12 then gateway.mapNatpmp now src payload nat firewall
  else ⟨gateway, nat, firewall, []⟩

def handleSsdp : Served R :=
  let gateway := { gateway with stats := { gateway.stats with ssdpRequests := gateway.stats.ssdpRequests + 1 } }
  if gateway.config.upnp = .off then ⟨gateway, nat, firewall, []⟩
  else
    match (Utf8.decode payload).filter (fun text => text.take 8 = "M-SEARCH".toList) with
    | none => ⟨gateway, nat, firewall, []⟩
    | some _ =>
      if gateway.config.upnp = .malformed then ⟨gateway, nat, firewall, [(gateway.httpEndpoint, ssdpGarbage)]⟩
      else ⟨gateway, nat, firewall, [(gateway.httpEndpoint, ssdpResponse gateway.httpEndpoint)]⟩

def handleUdp (dst : SocketAddr) : Served R :=
  if dst.port = pcpPort then
    match payload.head? with
    | some 2 => gateway.handlePcp now src payload nat firewall
    | some 0 => gateway.handleNatpmp now src payload nat firewall
    | _ => ⟨gateway, nat, firewall, []⟩
  else if dst.port = upnpPort then gateway.handleSsdp payload nat firewall
  else ⟨gateway, nat, firewall, []⟩

end

/-! ### UPnP over HTTP -/

/-- Only the endpoint that is advertised accepts. -/
def tcpOpen (conn : TcpId) (dest : SocketAddr) : Gateway × Bool :=
  if gateway.config.upnp = .off ∨ dest ≠ gateway.httpEndpoint then (gateway, false)
  else if maxTcpConns ≤ gateway.tcpBufs.size then (gateway, false)
  else ({ gateway with tcpBufs := gateway.tcpBufs.insert conn [] }, true)

def tcpClosed (conn : TcpId) : Gateway := { gateway with tcpBufs := gateway.tcpBufs.erase conn }

section
variable {R : Type} (now : UInt64) (nat : NatBox R)

def conflict : List (List UInt8) := [soapError 718 "ConflictInMappingEntry".toList]

/-- The port asked for is granted, or none is. A lease of no seconds is as long as the gateway grants. -/
def addPortMapping (body : Text) : Gateway × NatBox R × List (List UInt8) :=
  if gateway.config.upnp = .deny then (gateway.denied, nat, conflict)
  else
    let external := (xmlField body "NewExternalPort".toList).bind (parseUnsigned 16)
    let internalPort := (xmlField body "NewInternalPort".toList).bind (parseUnsigned 16)
    let client := (xmlField body "NewInternalClient".toList).bind (parseWith readIpAddr)
    let leaseSecs := ((xmlField body "NewLeaseDuration".toList).bind (parseUnsigned 32)).getD 0
    match external, internalPort, client with
    | some external, some internalPort, some client =>
      let lease := if leaseSecs = 0 then gateway.config.lease else gateway.grantedLease leaseSecs
      let granted := [httpOk (soapBody "AddPortMappingResponse".toList [])]
      if gateway.config.upnp = .grant then
        let internal : SocketAddr := ⟨client, .ofNat internalPort⟩
        match nat.installStatic now internal (.ofNat external) lease with
        | (nat, some port) =>
          if port = .ofNat external then (gateway.granted, nat, granted)
          -- Assigned elsewhere, which this protocol cannot say.
          else (gateway.denied, nat.removeStatic internal port, conflict)
        | (nat, none) => (gateway.denied, nat, conflict)
      else (gateway.granted, nat, granted)
    | _, _, _ => (gateway, nat, [soapError 402 "Invalid Args".toList])

def dispatchHttp (request : HttpRequest) : Gateway × NatBox R × List (List UInt8) :=
  if gateway.config.upnp = .malformed then (gateway, nat, [httpGarbage])
  else if request.method = "GET".toList ∧ request.path = "/rootDesc.xml".toList then
    (gateway, nat, [httpOk deviceDescription])
  else if request.method = "POST".toList ∧ request.path = "/ctl/IPConn".toList then
    if (Utf8.split "GetExternalIPAddress".toList request.body).isSome then
      let fields := tagged "NewExternalIPAddress".toList (displayIp nat.externalIp)
      (gateway, nat, [httpOk (soapBody "GetExternalIPAddressResponse".toList fields)])
    else if (Utf8.split "AddPortMapping".toList request.body).isSome then gateway.addPortMapping now nat request.body
    else (gateway, nat, [soapError 401 "Invalid Action".toList])
  else (gateway, nat, [httpNotFound])

/-- One request at most is taken off what has arrived. Too much without one ends the connection. -/
def tcpBytes (conn : TcpId) (bytes : List UInt8) : Checked (Gateway × NatBox R × List (List UInt8)) :=
  match gateway.tcpBufs[conn]? with
  | none => .ok (gateway, nat, [])
  | some before =>
    let buf := before ++ bytes
    if maxHttpRequest < buf.length then .ok (gateway.tcpClosed conn, nat, [])
    else
      match parseHttpRequest buf with
      | .error panic => .error panic
      | .ok none => .ok ({ gateway with tcpBufs := gateway.tcpBufs.insert conn buf }, nat, [])
      | .ok (some (request, consumed)) =>
        let gateway := { gateway with
          tcpBufs := gateway.tcpBufs.insert conn (buf.drop consumed)
          stats := { gateway.stats with httpRequests := gateway.stats.httpRequests + 1 } }
        .ok (gateway.dispatchHttp now nat request)

end

end Gateway

/-! ### The codecs of the mapper and the gateway -/

theorem field_skip {first rest : List UInt8} {start width : Nat} (past : first.length ≤ start) :
    field start width (first ++ rest) = field (start - first.length) width rest := by
  rw [field, List.drop_append, List.drop_eq_nil_of_le past, List.nil_append, field]

theorem field_first {bytes rest : List UInt8} {width : Nat} (length : bytes.length = width) :
    field 0 width (bytes ++ rest) = bytes := by
  rw [field, List.drop_zero, ← length, List.take_left]

theorem field_all {bytes : List UInt8} {width : Nat} (length : bytes.length = width) : field 0 width bytes = bytes := by
  rw [field, List.drop_zero, ← length, List.take_length]

theorem length_portMap_ipTo16 (ip : IpAddr) : (PortMap.ipTo16 ip).length = 16 := by
  cases ip <;> simp [PortMap.ipTo16]

theorem length_ipTo16 (ip : IpAddr) : (ipTo16 ip).length = 16 := by
  cases ip <;> simp [ipTo16]

section
variable {nonce : List UInt8} (clientIp : IpAddr) (internalPort suggested : UInt16) (lifetime : Nat)

/-- What the gateway reads in a MAP request of the mapper. -/
theorem read_encodePcpMap (long : nonce.length = 12) :
    let request := PortMap.encodePcpMap nonce clientIp internalPort suggested lifetime
    request.length = 60 ∧ request.head? = some 2 ∧ request.getD 1 0 &&& 0x7F = 1 ∧
      field 4 4 request = Bytes.ofNat 4 lifetime ∧ field 8 16 request = PortMap.ipTo16 clientIp ∧
      field 24 12 request = nonce ∧ field 36 1 request = [17] ∧ field 40 2 request = Bytes.ofNat 2 internalPort.toNat ∧
      field 42 2 request = Bytes.ofNat 2 suggested.toNat := by
  have client := length_portMap_ipTo16 clientIp
  intro request
  have second : request.getD 1 0 = 1 := rfl
  refine ⟨?_, rfl, by rw [second]; rfl, ?_, ?_, ?_, ?_, ?_, ?_⟩
  · simp [request, PortMap.encodePcpMap, length_portMap_ipTo16, long]
  all_goals simp only [request, PortMap.encodePcpMap, List.append_assoc]
  · rw [field_skip (by simp)]
    exact field_first (by simp)
  · rw [field_skip (by simp), field_skip (by simp)]
    exact field_first client
  · rw [field_skip (by simp), field_skip (by simp), field_skip (by simp [client])]
    simp only [client, Bytes.length_ofNat, List.length_cons, List.length_nil]
    exact field_first long
  · rw [field_skip (by simp), field_skip (by simp), field_skip (by simp [client]), field_skip (by simp [client, long])]
    simp only [client, long, Bytes.length_ofNat, List.length_cons, List.length_nil]
    rfl
  · rw [field_skip (by simp), field_skip (by simp), field_skip (by simp [client]), field_skip (by simp [client, long]),
      field_skip (by simp [client, long])]
    simp only [client, long, Bytes.length_ofNat, List.length_cons, List.length_nil]
    exact field_first (by simp)
  · rw [field_skip (by simp), field_skip (by simp), field_skip (by simp [client]), field_skip (by simp [client, long]),
      field_skip (by simp [client, long]), field_skip (by simp [client, long])]
    simp only [client, long, Bytes.length_ofNat, List.length_cons, List.length_nil]
    exact field_first (by simp)

end

/-- What the mapper reads in a response of the gateway. -/
theorem parse_pcpMapResponse {request : List UInt8} (long : request.length = 60) (result : UInt8) (lifetime epoch : Nat)
    (assignedPort : UInt16) (assignedIp : IpAddr) :
    PortMap.parsePcpMapResponse (pcpMapResponse request result lifetime epoch assignedPort assignedIp) = some
      ⟨result, lifetime % 2 ^ 32, field 24 12 request, assignedPort, PortMap.ipFrom16 (ipTo16 assignedIp)⟩ := by
  have nonce : (field 24 12 request).length = 12 := by simp [field, long]
  have protocol : (field 36 1 request).length = 1 := by simp [field, long]
  have port : (field 40 2 request).length = 2 := by simp [field, long]
  have assigned := length_ipTo16 assignedIp
  have length : (pcpMapResponse request result lifetime epoch assignedPort assignedIp).length = 60 := by
    simp [pcpMapResponse, nonce, protocol, port, assigned]
  have start : startsWith (pcpMapResponse request result lifetime epoch assignedPort assignedIp) [2, 0x81] = true := by
    simp [pcpMapResponse, startsWith]
  have secs : field 4 4 (pcpMapResponse request result lifetime epoch assignedPort assignedIp) =
      Bytes.ofNat 4 lifetime := by
    simp only [pcpMapResponse, List.append_assoc]
    rw [field_skip (by simp)]
    exact field_first (by simp)
  have own : field 24 12 (pcpMapResponse request result lifetime epoch assignedPort assignedIp) =
      field 24 12 request := by
    simp only [pcpMapResponse, List.append_assoc]
    rw [field_skip (by simp), field_skip (by simp), field_skip (by simp), field_skip (by simp)]
    simp only [Bytes.length_ofNat, List.length_cons, List.length_nil, List.length_replicate]
    exact field_first nonce
  have external : field 42 2 (pcpMapResponse request result lifetime epoch assignedPort assignedIp) =
      Bytes.ofNat 2 assignedPort.toNat := by
    simp only [pcpMapResponse, List.append_assoc]
    rw [field_skip (by simp), field_skip (by simp), field_skip (by simp), field_skip (by simp),
      field_skip (by simp [nonce]), field_skip (by simp [nonce, protocol]), field_skip (by simp [nonce, protocol]),
      field_skip (by simp [nonce, protocol, port])]
    simp only [nonce, protocol, port, Bytes.length_ofNat, List.length_cons, List.length_nil, List.length_replicate]
    exact field_first (by simp)
  have address : field 44 16 (pcpMapResponse request result lifetime epoch assignedPort assignedIp) =
      ipTo16 assignedIp := by
    simp only [pcpMapResponse, List.append_assoc]
    rw [field_skip (by simp), field_skip (by simp), field_skip (by simp), field_skip (by simp),
      field_skip (by simp [nonce]), field_skip (by simp [nonce, protocol]), field_skip (by simp [nonce, protocol]),
      field_skip (by simp [nonce, protocol, port]), field_skip (by simp [nonce, protocol, port])]
    simp only [nonce, protocol, port, Bytes.length_ofNat, List.length_cons, List.length_nil, List.length_replicate]
    exact field_all assigned
  rw [PortMap.parsePcpMapResponse, length, start, secs, own, external, address]
  simp [pcpMapResponse, Bytes.toNat_ofNat]

/-! ### Addresses in sixteen bytes -/

theorem ipFrom16_mapped (octets : BitVec 32) : ipFrom16 (PortMap.ipTo16 (.v4 octets)) = .v4 octets := by
  have small := octets.isLt
  have value : Bytes.toNat (PortMap.ipTo16 (.v4 octets)) = 0xFFFF * 2 ^ 32 + octets.toNat := by
    rw [PortMap.ipTo16, Bytes.toNat_ofNat]
    omega
  have high : (BitVec.ofNat 128 (0xFFFF * 2 ^ 32 + octets.toNat)).toNat = 0xFFFF * 2 ^ 32 + octets.toNat := by
    rw [BitVec.toNat_ofNat]
    omega
  have low : (BitVec.ofNat 32 (0xFFFF * 2 ^ 32 + octets.toNat)) = octets := by
    apply BitVec.eq_of_toNat_eq
    rw [BitVec.toNat_ofNat]
    omega
  unfold ipFrom16
  rw [value]
  dsimp only
  rw [toIpv4Mapped, high, if_pos (by omega), low]

theorem toNat_ipTo16_v4 (octets : BitVec 32) : Bytes.toNat (ipTo16 (.v4 octets)) = 0xFFFF * 2 ^ 32 + octets.toNat := by
  have small := octets.isLt
  have head : Bytes.toNat (List.replicate 10 0 ++ [0xFF, 0xFF]) = 0xFFFF := by decide
  rw [ipTo16, Bytes.toNat_append, head, Bytes.toNat_ofNat, Bytes.length_ofNat]
  omega

theorem portMap_ipFrom16_mapped (octets : BitVec 32) : PortMap.ipFrom16 (ipTo16 (.v4 octets)) = .v4 octets := by
  have small := octets.isLt
  have low : (BitVec.ofNat 32 (0xFFFF * 2 ^ 32 + octets.toNat)) = octets := by
    apply BitVec.eq_of_toNat_eq
    rw [BitVec.toNat_ofNat]
    omega
  unfold PortMap.ipFrom16
  rw [toNat_ipTo16_v4]
  dsimp only
  rw [if_pos (by omega), low]

/-! ### NAT-PMP -/

theorem read_encodeNatPmpMap (internalPort : UInt16) :
    let request := PortMap.encodeNatPmpMap internalPort
    request.length = 12 ∧ request.head? = some 0 ∧ request[1]? = some 1 ∧
      field 4 2 request = Bytes.ofNat 2 internalPort.toNat ∧ field 6 2 request = Bytes.ofNat 2 internalPort.toNat ∧
      field 8 4 request = Bytes.ofNat 4 PortMap.requestLifetimeSecs := by
  intro request
  refine ⟨by simp [request, PortMap.encodeNatPmpMap], rfl, rfl, ?_, ?_, ?_⟩
  all_goals simp only [request, PortMap.encodeNatPmpMap, List.append_assoc]
  · rw [field_skip (by simp)]
    exact field_first (by simp)
  · rw [field_skip (by simp), field_skip (by simp)]
    exact field_first (by simp)
  · rw [field_skip (by simp), field_skip (by simp), field_skip (by simp)]
    exact field_all (by simp)

theorem read_natpmpExternalResponse (result epoch : Nat) (ip : BitVec 32) :
    let response := Gateway.natpmpExternalResponse result epoch ip
    response.length = 12 ∧ field 2 2 response = Bytes.ofNat 2 result ∧ field 8 4 response = Bytes.ofNat 4 ip.toNat := by
  intro response
  refine ⟨by simp [response, Gateway.natpmpExternalResponse], ?_, ?_⟩
  all_goals simp only [response, Gateway.natpmpExternalResponse, List.append_assoc]
  · rw [field_skip (by simp)]
    exact field_first (by simp)
  · rw [field_skip (by simp), field_skip (by simp), field_skip (by simp)]
    exact field_all (by simp)

theorem read_natpmpMapResponse (result epoch : Nat) (internalPort mapped : UInt16) (leaseSecs : Nat) :
    let response := Gateway.natpmpMapResponse result epoch internalPort mapped leaseSecs
    response.length = 16 ∧ field 2 2 response = Bytes.ofNat 2 result ∧
      field 10 2 response = Bytes.ofNat 2 mapped.toNat ∧ field 12 4 response = Bytes.ofNat 4 leaseSecs := by
  intro response
  refine ⟨by simp [response, Gateway.natpmpMapResponse], ?_, ?_, ?_⟩
  all_goals simp only [response, Gateway.natpmpMapResponse, List.append_assoc]
  · rw [field_skip (by simp)]
    exact field_first (by simp)
  · rw [field_skip (by simp), field_skip (by simp), field_skip (by simp), field_skip (by simp)]
    exact field_first (by simp)
  · rw [field_skip (by simp), field_skip (by simp), field_skip (by simp), field_skip (by simp), field_skip (by simp)]
    exact field_all (by simp)

end Lightbringer.Overlay.Sim
