import Lightbringer.Overlay.PortMapRequests
import Lightbringer.Overlay.Sim.Gateway

/-!
# What the gateway answers to the mapper

The lease that an answer grants is one the NAT holds, however long the answer takes to arrive, as long as other traffic
does not take it away.
-/

namespace Lightbringer.Overlay.Sim
open Std Machine PortMap

/-- `GATEWAY_DELAY_NANOS`. -/
def gatewayDelay : UInt64 := 1000000

/-- The lease the gateway grants to the mapper. -/
def leaseOf (config : GatewayConfig) : Nat := min (fromSecs requestLifetimeSecs) config.lease

/-- PCP and NAT-PMP grant in earnest where they grant, and UPnP is off. -/
structure GatewayConfig.Earnest (config : GatewayConfig) : Prop where
  pcp : config.pcp ≠ .grantFake
  natpmp : config.natpmp ≠ .grantFake
  upnp : config.upnp = .off

/-- The clock does not wrap before a lease taken now has run out. -/
def Room (lease : Nat) (now : UInt64) : Prop := now.toNat + gatewayDelay.toNat + lease < 2 ^ 64

/-- Other traffic takes no lease of the mapper's socket away, and renews none for less. -/
def Decent (internal : SocketAddr) (lease : Nat) : NatBox.Call → Prop
  | .installStatic now socket _ lifetime => socket = internal → lease ≤ lifetime ∧ now.toNat + lifetime < 2 ^ 64
  | .removeStatic socket _ => socket ≠ internal
  | _ => True

/-! ### Leases behind what is believed -/

section
variable {R : Type} {nat : NatBox R} {clock : UInt64} {lease : Nat} {internal : SocketAddr}

/-- The NAT has a lease on the port that lasts as long as `ends`, up to the delay. -/
def Backs (lease : Nat) (internal : SocketAddr) (clock : UInt64) (nat : NatBox R) (port : UInt16) (ends : Nat) : Prop :=
  ∃ expiry : UInt64, ends ≤ expiry.toNat + gatewayDelay.toNat ∧ expiry.toNat ≤ clock.toNat + lease ∧
    (clock ≤ expiry → nat.Pinned port internal expiry)

theorem Backs.later {port : UInt16} {ends : Nat} {now : UInt64} (backs : Backs lease internal clock nat port ends)
    (order : clock ≤ now) : Backs lease internal now nat port ends := by
  obtain ⟨expiry, long, short, pinned⟩ := backs
  have order' := UInt64.le_iff_toNat_le.mp order
  exact ⟨expiry, long, by omega, fun live => pinned (UInt64.le_trans order live)⟩

theorem toNat_asNanos {duration : Nat} (short : duration < 2 ^ 64) : (asNanos duration).toNat = duration := by
  rw [asNanos, UInt64.toNat_ofNat']
  exact Nat.mod_eq_of_lt short

/-- A decent call at this time leaves the lease. -/
theorem Backs.of_call [PortRng R] {port : UInt16} {ends : Nat} {c : NatBox.Call} {after : NatBox R}
    (backs : Backs lease internal clock nat port ends) (timely : ∀ now ∈ c.time, now = clock)
    (room : Room lease clock) (decent : Decent internal lease c) (called : nat.call c = some after) :
    Backs lease internal clock after port ends := by
  obtain ⟨expiry, long, short, pinned⟩ := backs
  refine ⟨expiry, long, short, fun live => NatBox.pinned_call (pinned live) ?_ called⟩
  cases c with
  | outbound now src dst =>
    obtain rfl := timely now rfl
    exact live
  | inbound now src dst =>
    obtain rfl := timely now rfl
    exact live
  | installStatic now socket requested lifetime =>
    obtain rfl := timely now rfl
    refine ⟨live, fun same _ => ?_⟩
    obtain ⟨enough, fits⟩ := decent same
    rw [UInt64.le_iff_toNat_le, UInt64.toNat_add, toNat_asNanos (by omega), Nat.mod_eq_of_lt fits]
    omega
  | removeStatic socket externalPort => exact fun both => decent both.1

/-- A lease just granted backs what its answer will say. -/
theorem backs_of_granted {port requested : UInt16} {after : NatBox R} {secs : Nat} (room : Room lease clock)
    (granted : nat.installStatic clock internal requested lease = (after, some port)) (within : fromSecs secs ≤ lease) :
    Backs lease internal clock after port ((clock + gatewayDelay).toNat + fromSecs secs) := by
  have exact_ : (clock + asNanos lease).toNat = clock.toNat + lease := by
    unfold Room at room
    rw [UInt64.toNat_add, toNat_asNanos (by omega), Nat.mod_eq_of_lt (by omega)]
  have arrival : (clock + gatewayDelay).toNat = clock.toNat + gatewayDelay.toNat := by
    unfold Room at room
    rw [UInt64.toNat_add, Nat.mod_eq_of_lt (by omega)]
  exact ⟨clock + asNanos lease, by omega, by omega, fun _ => NatBox.pinned_of_granted granted⟩

end

/-! ### What the answers say -/

/-- What the mapper can take from an answer is true: `backed` of a port and the seconds of its lease, and the address. -/
structure Tells (mapper : PortMap.PortMapper) (externalIp : IpAddr) (backed : UInt16 → Nat → Prop)
    (payload : List UInt8) : Prop where
  pcp : ∀ response, parsePcpMapResponse payload = some response → response.nonce = mapper.nonce →
    response.nonce ≠ mapper.nonceV6 → response.result = 0 →
    response.externalIp = externalIp ∧ backed response.externalPort response.lifetime
  external : payload.length = 12 → startsWith payload [0, 128] = true → Bytes.toNat (field 2 2 payload) = 0 →
    PortMap.PortMapper.externalAnswer payload = externalIp
  natPmp : payload.length = 16 → startsWith payload [0, 129] = true → Bytes.toNat (field 2 2 payload) = 0 →
    backed (.ofNat (Bytes.toNat (field 10 2 payload))) (Bytes.toNat (field 12 4 payload))

theorem Tells.imp {mapper : PortMap.PortMapper} {externalIp : IpAddr} {backed backed' : UInt16 → Nat → Prop}
    {payload : List UInt8}
    (tells : Tells mapper externalIp backed payload) (more : ∀ port secs, backed port secs → backed' port secs) :
    Tells mapper externalIp backed' payload where
  pcp response parsed own other accepted := (tells.pcp response parsed own other accepted).imp id (more _ _)
  external := tells.external
  natPmp long start accepted := more _ _ (tells.natPmp long start accepted)

section
variable {mapper : PortMap.PortMapper} {externalIp : IpAddr} {backed : UInt16 → Nat → Prop}

/-- Junk says nothing. -/
theorem tells_of_short {payload : List UInt8} (short : payload.length < 12) : Tells mapper externalIp backed payload where
  pcp response parsed := by
    unfold parsePcpMapResponse at parsed
    rw [decide_eq_false (by omega), Bool.false_and] at parsed
    cases parsed
  external long := by omega
  natPmp long := by omega

/-- A PCP answer says what its fields say, to the mapper whose request it answers. -/
theorem tells_pcpMapResponse {request : List UInt8} {result : UInt8} {lifetime epoch : Nat} {port : UInt16} {ip : IpAddr}
    (long : request.length = 60)
    (truth : field 24 12 request = mapper.nonce → mapper.nonce ≠ mapper.nonceV6 → result = 0 →
      PortMap.ipFrom16 (ipTo16 ip) = externalIp ∧ backed port (lifetime % 2 ^ 32)) :
    Tells mapper externalIp backed (pcpMapResponse request result lifetime epoch port ip) := by
  have parses := parse_pcpMapResponse long result lifetime epoch port ip
  have length : (pcpMapResponse request result lifetime epoch port ip).length = 60 := by
    simp [pcpMapResponse, field, long, length_ipTo16]
  refine ⟨fun response parsed own other accepted => ?_, fun wrong => by omega, fun wrong => by omega⟩
  obtain rfl := Option.some.inj (parses.symm.trans parsed)
  exact truth own (fun same => other (own.trans same)) accepted

theorem tells_natpmpExternalResponse {result epoch : Nat} {ip : BitVec 32} (small : result < 256 ^ 2)
    (truth : result = 0 → IpAddr.v4 ip = externalIp) :
    Tells mapper externalIp backed (Gateway.natpmpExternalResponse result epoch ip) := by
  obtain ⟨length, code, address⟩ := read_natpmpExternalResponse result epoch ip
  refine ⟨fun response parsed => ?_, fun _ _ accepted => ?_, fun wrong => by omega⟩
  · unfold parsePcpMapResponse at parsed
    rw [length] at parsed
    cases parsed
  · rw [code, Bytes.toNat_ofNat, Nat.mod_eq_of_lt small] at accepted
    have whole : BitVec.ofNat 32 (ip.toNat % 256 ^ 4) = ip := by
      have bound := ip.isLt
      apply BitVec.eq_of_toNat_eq
      rw [BitVec.toNat_ofNat]
      omega
    rw [← truth accepted, PortMap.PortMapper.externalAnswer, address, Bytes.toNat_ofNat, whole]

theorem tells_natpmpMapResponse {result epoch : Nat} {internalPort port : UInt16} {secs : Nat} (small : result < 256 ^ 2)
    (truth : result = 0 → backed port (secs % 2 ^ 32)) :
    Tells mapper externalIp backed (Gateway.natpmpMapResponse result epoch internalPort port secs) := by
  obtain ⟨length, code, mapped, lease⟩ := read_natpmpMapResponse result epoch internalPort port secs
  refine ⟨fun response parsed => ?_, fun wrong => by omega, fun _ _ accepted => ?_⟩
  · unfold parsePcpMapResponse at parsed
    rw [length] at parsed
    cases parsed
  · rw [code, Bytes.toNat_ofNat, Nat.mod_eq_of_lt small] at accepted
    have whole : UInt16.ofNat (port.toNat % 256 ^ 2) = port := by
      rw [Nat.mod_eq_of_lt (by have bound := port.toNat_lt; omega)]
      exact UInt16.ofNat_toNat
    rw [mapped, lease, Bytes.toNat_ofNat, Bytes.toNat_ofNat, whole]
    exact truth accepted

end

/-! ### What the gateway does for a request of the mapper -/

section
variable {R : Type} {gateway : Gateway} {now : UInt64} {nat : NatBox R} {internal : SocketAddr}
  {mapper : PortMap.PortMapper} {octets : BitVec 32}

/-- The NAT is left alone or leases a port for as long as the gateway grants, and the answers are true. -/
structure ServedWell (gateway : Gateway) (now : UInt64) (nat : NatBox R) (internal : SocketAddr)
    (mapper : PortMap.PortMapper) (externalIp : IpAddr) (served : Gateway.Served R) : Prop where
  config : served.gateway.config = gateway.config
  lanIp : served.gateway.lanIp = gateway.lanIp
  nat : served.nat = nat ∨ ∃ socket requested,
    served.nat = (nat.installStatic now socket requested (leaseOf gateway.config)).1
  answers : ∀ response ∈ served.responses, Tells mapper externalIp (fun port secs =>
    Backs (leaseOf gateway.config) internal now served.nat port ((now + gatewayDelay).toNat + fromSecs secs)) response.2

theorem secs_within (lease : Nat) : fromSecs (Gateway.asSecs lease % 2 ^ 32) ≤ lease := by
  unfold Gateway.asSecs fromSecs
  omega

/-- The source has to be the mapper's own only where the answer can be taken for one. -/
theorem served_mapPcp {src : SocketAddr} {request : List UInt8} {firewall : Option FirewallBox} {mode : TierMode}
    (room : Room (leaseOf gateway.config) now) (external : nat.externalIp = .v4 octets) (long : request.length = 60)
    (asks : Bytes.toNat (field 4 4 request) = requestLifetimeSecs)
    (own : field 24 12 request = mapper.nonce → mapper.nonce ≠ mapper.nonceV6 →
      mode = .grant ∧ (⟨src.ip, .ofNat (Bytes.toNat (field 40 2 request))⟩ : SocketAddr) = internal) :
    ServedWell gateway now nat internal mapper (.v4 octets) (gateway.mapPcp now src request nat firewall mode) := by
  have lease : gateway.grantedLease (Bytes.toNat (field 4 4 request)) = leaseOf gateway.config := by
    rw [asks]
    rfl
  unfold Gateway.mapPcp
  dsimp only
  rw [lease]
  by_cases grant : mode = .grant
  · rw [if_pos grant]
    generalize granted : nat.installStatic now ⟨src.ip, .ofNat (Bytes.toNat (field 40 2 request))⟩
      (.ofNat (Bytes.toNat (field 42 2 request))) (leaseOf gateway.config) = result
    obtain ⟨after, port⟩ := result
    have leased : after = (nat.installStatic now ⟨src.ip, .ofNat (Bytes.toNat (field 40 2 request))⟩
      (.ofNat (Bytes.toNat (field 42 2 request))) (leaseOf gateway.config)).1 := by rw [granted]
    have kept : after.externalIp = nat.externalIp := by
      rcases NatBox.installStatic_cases nat now ⟨src.ip, .ofNat (Bytes.toNat (field 40 2 request))⟩
        (.ofNat (Bytes.toNat (field 42 2 request))) (leaseOf gateway.config) with ⟨_, _, same, put⟩ | ⟨_, same, swept⟩
      · cases same.symm.trans granted
        exact put.externalIp
      · cases same.symm.trans granted
        exact swept.externalIp
    cases port with
    | some port =>
      refine ⟨rfl, rfl, .inr ⟨_, _, leased⟩, fun response member => ?_⟩
      obtain rfl := List.mem_singleton.mp member
      refine tells_pcpMapResponse long (fun nonce apart _ => ?_)
      dsimp only
      rw [kept, external]
      refine ⟨portMap_ipFrom16_mapped octets, ?_⟩
      rw [(own nonce apart).2] at granted
      exact backs_of_granted room granted (secs_within _)
    | none =>
      refine ⟨rfl, rfl, .inr ⟨_, _, leased⟩, fun response member => ?_⟩
      obtain rfl := List.mem_singleton.mp member
      exact tells_pcpMapResponse long (fun _ _ refused => absurd refused (by decide))
  · rw [if_neg grant]
    refine ⟨rfl, rfl, .inl rfl, fun response member => ?_⟩
    obtain rfl := List.mem_singleton.mp member
    exact tells_pcpMapResponse long (fun nonce apart _ => absurd (own nonce apart).1 grant)

theorem served_handlePcp {src : SocketAddr} {nonce : List UInt8} {client : IpAddr} {internalPort suggested : UInt16}
    {firewall : Option FirewallBox} (room : Room (leaseOf gateway.config) now) (external : nat.externalIp = .v4 octets)
    (long : nonce.length = 12) (honest : gateway.config.pcp ≠ .grantFake)
    (own : nonce = mapper.nonce → mapper.nonce ≠ mapper.nonceV6 →
      (∃ v4, client = .v4 v4) ∧ (⟨src.ip, internalPort⟩ : SocketAddr) = internal) :
    ServedWell gateway now nat internal mapper (.v4 octets) (gateway.handlePcp now src
      (encodePcpMap nonce client internalPort suggested requestLifetimeSecs) nat firewall) := by
  obtain ⟨length, _, opcode, secs, address, ours, _, port, _⟩ :=
    read_encodePcpMap client internalPort suggested requestLifetimeSecs long
  generalize encodePcpMap nonce client internalPort suggested requestLifetimeSecs = request at *
  have asks : Bytes.toNat (field 4 4 request) = requestLifetimeSecs := by
    rw [secs, Bytes.toNat_ofNat]
    rfl
  have whole : UInt16.ofNat (Bytes.toNat (field 40 2 request)) = internalPort := by
    rw [port, Bytes.toNat_ofNat, Nat.mod_eq_of_lt (by have bound := internalPort.toNat_lt; omega)]
    exact UInt16.ofNat_toNat
  have v4 : field 24 12 request = mapper.nonce → mapper.nonce ≠ mapper.nonceV6 →
      SocketAddr.isIpv6 ⟨ipFrom16 (field 8 16 request), 0⟩ = false := by
    intro mine apart
    obtain ⟨⟨octets, rfl⟩, _⟩ := own (ours.symm.trans mine) apart
    rw [address, ipFrom16_mapped]
    rfl
  unfold Gateway.handlePcp
  dsimp only
  rw [if_neg (by rw [length, opcode]; decide)]
  generalize SocketAddr.isIpv6 ⟨ipFrom16 (field 8 16 request), 0⟩ = isV6 at v4 ⊢
  generalize chosen : (if isV6 = true then gateway.config.pcpV6Pinhole.getD gateway.config.pcp
    else gateway.config.pcp) = mode
  have real : field 24 12 request = mapper.nonce → mapper.nonce ≠ mapper.nonceV6 → mode ≠ .grantFake := by
    intro mine apart
    rw [v4 mine apart] at chosen
    rw [← chosen]
    exact honest
  have granting : ∀ mode : TierMode,
      (field 24 12 request = mapper.nonce → mapper.nonce ≠ mapper.nonceV6 → mode = .grant) →
      ∀ counted : Gateway, counted.config = gateway.config → counted.lanIp = gateway.lanIp →
      ServedWell gateway now nat internal mapper (.v4 octets)
        (if isV6 = true then counted.pinPcp now request nat firewall mode (ipFrom16 (field 8 16 request))
        else counted.mapPcp now src request nat firewall mode) := by
    intro mode grant counted sameConfig sameIp
    split
    next isV6 =>
      refine ⟨sameConfig, sameIp, .inl rfl, fun response member => ?_⟩
      obtain rfl := List.mem_singleton.mp member
      refine tells_pcpMapResponse length (fun mine apart _ => ?_)
      rw [v4 mine apart] at isV6
      cases isV6
    next =>
      have served : ServedWell counted now nat internal mapper (.v4 octets)
          (counted.mapPcp now src request nat firewall mode) :=
        served_mapPcp (by rw [sameConfig]; exact room) external length asks
          (fun mine apart => ⟨grant mine apart, by rw [whole]; exact (own (ours.symm.trans mine) apart).2⟩)
      obtain ⟨config, lanIp, after, answers⟩ := served
      rw [sameConfig] at after answers
      exact ⟨config.trans sameConfig, lanIp.trans sameIp, after, answers⟩
  cases mode with
  | off => exact ⟨rfl, rfl, .inl rfl, fun _ member => absurd member List.not_mem_nil⟩
  | malformed =>
    refine ⟨rfl, rfl, .inl rfl, fun response member => ?_⟩
    obtain rfl := List.mem_singleton.mp member
    exact tells_of_short (by simp [garbage])
  | deny =>
    refine ⟨rfl, rfl, .inl rfl, fun response member => ?_⟩
    obtain rfl := List.mem_singleton.mp member
    exact tells_pcpMapResponse length (fun _ _ refused => absurd refused (by decide))
  | grant => exact granting .grant (fun _ _ => rfl) _ rfl rfl
  | grantFake => exact granting .grantFake (fun mine apart => absurd rfl (real mine apart)) _ rfl rfl

theorem served_mapNatpmp {src : SocketAddr} {internalPort : UInt16} {firewall : Option FirewallBox}
    (room : Room (leaseOf gateway.config) now) (honest : gateway.config.natpmp ≠ .grantFake)
    (present : gateway.config.natpmp ≠ .off ∧ gateway.config.natpmp ≠ .malformed)
    (own : (⟨src.ip, internalPort⟩ : SocketAddr) = internal) (externalIp : IpAddr) :
    ServedWell gateway now nat internal mapper externalIp
      (gateway.mapNatpmp now src (encodeNatPmpMap internalPort) nat firewall) := by
  obtain ⟨_, _, _, port, _, secs⟩ := read_encodeNatPmpMap internalPort
  have lease :
      gateway.grantedLease (Bytes.toNat (field 8 4 (encodeNatPmpMap internalPort))) = leaseOf gateway.config := by
    rw [secs, Bytes.toNat_ofNat]
    rfl
  have whole : UInt16.ofNat (Bytes.toNat (field 4 2 (encodeNatPmpMap internalPort))) = internalPort := by
    rw [port, Bytes.toNat_ofNat, Nat.mod_eq_of_lt (by have bound := internalPort.toNat_lt; omega)]
    exact UInt16.ofNat_toNat
  unfold Gateway.mapNatpmp
  dsimp only
  rw [lease, whole, own]
  cases tier : gateway.config.natpmp with
  | off => exact absurd tier present.1
  | malformed => exact absurd tier present.2
  | grantFake => exact absurd tier honest
  | deny =>
    refine ⟨rfl, rfl, .inl rfl, fun response member => ?_⟩
    obtain rfl := List.mem_singleton.mp member
    exact tells_natpmpMapResponse (by decide) (fun refused => absurd refused (by decide))
  | grant =>
    dsimp only
    generalize granted : nat.installStatic now internal
      (.ofNat (Bytes.toNat (field 6 2 (encodeNatPmpMap internalPort)))) (leaseOf gateway.config) = result
    obtain ⟨after, assigned⟩ := result
    have leased : after = (nat.installStatic now internal
      (.ofNat (Bytes.toNat (field 6 2 (encodeNatPmpMap internalPort)))) (leaseOf gateway.config)).1 := by rw [granted]
    cases assigned with
    | some assigned =>
      refine ⟨rfl, rfl, .inr ⟨_, _, leased⟩, fun response member => ?_⟩
      obtain rfl := List.mem_singleton.mp member
      exact tells_natpmpMapResponse (by decide) (fun _ => backs_of_granted room granted (secs_within _))
    | none =>
      refine ⟨rfl, rfl, .inr ⟨_, _, leased⟩, fun response member => ?_⟩
      obtain rfl := List.mem_singleton.mp member
      exact tells_natpmpMapResponse (by decide) (fun refused => absurd refused (by decide))

theorem ServedWell.counted {counted : Gateway} {served : Gateway.Served R} {externalIp : IpAddr}
    (well : ServedWell counted now nat internal mapper externalIp served) (config : counted.config = gateway.config)
    (lanIp : counted.lanIp = gateway.lanIp) : ServedWell gateway now nat internal mapper externalIp served where
  config := well.config.trans config
  lanIp := well.lanIp.trans lanIp
  nat := by
    rw [← config]
    exact well.nat
  answers := by
    rw [← config]
    exact well.answers

theorem served_handleNatpmp {src : SocketAddr} {request : List UInt8} {internalPort : UInt16}
    {firewall : Option FirewallBox} (room : Room (leaseOf gateway.config) now)
    (external : nat.externalIp = .v4 octets) (honest : gateway.config.natpmp ≠ .grantFake)
    (own : (⟨src.ip, internalPort⟩ : SocketAddr) = internal)
    (asks : request = [0, 0] ∨ request = encodeNatPmpMap internalPort) :
    ServedWell gateway now nat internal mapper (.v4 octets) (gateway.handleNatpmp now src request nat firewall) := by
  unfold Gateway.handleNatpmp
  dsimp only
  split
  · exact ⟨rfl, rfl, .inl rfl, fun _ member => absurd member List.not_mem_nil⟩
  next on =>
    split
    · refine ⟨rfl, rfl, .inl rfl, fun response member => ?_⟩
      obtain rfl := List.mem_singleton.mp member
      exact tells_of_short (by simp [garbage])
    next sound =>
      rcases asks with rfl | rfl
      · rw [if_pos (by decide)]
        split
        · refine ⟨rfl, rfl, .inl rfl, fun response member => ?_⟩
          obtain rfl := List.mem_singleton.mp member
          exact tells_natpmpExternalResponse (by decide) (fun refused => absurd refused (by decide))
        · refine ⟨rfl, rfl, .inl rfl, fun response member => ?_⟩
          obtain rfl := List.mem_singleton.mp member
          refine tells_natpmpExternalResponse (by decide) (fun _ => ?_)
          rw [external]
          rfl
      · obtain ⟨length, _, opcode, _⟩ := read_encodeNatPmpMap internalPort
        rw [if_neg (by rw [length]; rintro ⟨_, wrong⟩; cases wrong), if_pos ⟨opcode, length⟩]
        refine ServedWell.counted (served_mapNatpmp ?_ ?_ ?_ own (.v4 octets)) rfl rfl
        · exact room
        · exact honest
        · exact ⟨on, sound⟩

/-- Whatever the mapper sends, the gateway serves it well. -/
theorem served_handleUdp {host : IpAddr} {port : UInt16} {dest : SocketAddr} {raw : List UInt8} {clientIp : BitVec 32}
    {firewall : Option FirewallBox} (room : Room (leaseOf gateway.config) now) (external : nat.externalIp = .v4 octets)
    (honest : gateway.config.Earnest)
    (nonces : mapper.nonce.length = 12 ∧ mapper.nonceV6.length = 12)
    (client : mapper.config.internalIp = .v4 clientIp) (at_ : mapper.config.gateway.port = pcpPort)
    (own : (⟨host, mapper.config.internalPort⟩ : SocketAddr) = internal) (requests : mapper.Requests dest raw) :
    ServedWell gateway now nat internal mapper (.v4 octets)
      (gateway.handleUdp now ⟨host, port⟩ raw nat firewall dest) := by
  unfold Gateway.handleUdp
  rcases requests with rfl | ⟨rfl, kind⟩
  · rw [if_neg (by decide), if_pos (by decide)]
    unfold Gateway.handleSsdp
    dsimp only
    rw [if_pos honest.upnp]
    exact ⟨rfl, rfl, .inl rfl, fun _ member => absurd member List.not_mem_nil⟩
  · rw [if_pos at_]
    rcases kind with rfl | rfl | rfl | ⟨internalV6, _, rfl⟩
    · have version : mapper.pcpRequest.head? = some 2 := rfl
      rw [version]
      exact served_handlePcp room external nonces.1 honest.pcp (fun _ _ => ⟨⟨clientIp, client⟩, own⟩)
    · exact served_handleNatpmp room external honest.natpmp own (.inl rfl)
    · have version : (encodeNatPmpMap mapper.config.internalPort).head? = some 0 := rfl
      rw [version]
      exact served_handleNatpmp room external honest.natpmp own (.inr rfl)
    · have version : (mapper.pinRequest internalV6).head? = some 2 := rfl
      rw [version]
      exact served_handlePcp room external nonces.2 honest.pcp (fun same apart => absurd same.symm apart)

end

end Lightbringer.Overlay.Sim
