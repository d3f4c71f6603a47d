import Lightbringer.Overlay.PortMap

/-!
# Steps of the port mapper

The ladder goes up by one function for each rung. Whatever it sends, it schedules what it waits for ahead of now, and
leaves the mapping and the pinhole as they are.
-/

namespace Lightbringer.Overlay.PortMap
open Machine

/-- What the driver hands to the mapper. -/
inductive Input where
  | timer (env : PortMapEnv)
  | datagram (env : PortMapEnv) (source : SocketAddr) (payload : List UInt8)
  | tcp (env : PortMapEnv) (event : TcpEvent)

/-- Datagrams go to the gateway or to the multicast address of SSDP, connections to the address of the gateway. -/
def PortMapAction.Allowed (gateway : SocketAddr) : PortMapAction → Prop
  | .sent _ dest _ => dest = gateway ∨ dest = ssdpMulticast
  | .connected _ dest _ => dest.ip = gateway.ip
  | .bound _ | .tcpClosed _ => True

/-- A PCP request is waiting for its response. -/
def Phase.isPcp : Phase → Bool
  | .pcp .. => true
  | _ => false

namespace PortMapper

def step (mapper : PortMapper) : Input → PortMapper × List PortMapAction
  | .timer env => mapper.onTimer env
  | .datagram env source payload => mapper.onDatagram env source payload
  | .tcp env event => mapper.onTcpEvent env event

variable {mapper : PortMapper} {env : PortMapEnv}

/-- The input is the answer to a pinhole request, by its nonce. -/
def Pinholes (mapper : PortMapper) : Input → Prop
  | .datagram _ source payload => source.ip = mapper.config.gateway.ip ∧ (mapper.pinholeResponse payload).isSome
  | _ => False

/-- Descriptions are only fetched from the gateway. -/
def Homed (mapper : PortMapper) : Prop :=
  ∀ endpoint, mapper.httpEndpoint = some endpoint → endpoint.ip = mapper.config.gateway.ip

/-- The request of the PCP rung. -/
def pcpRequest (mapper : PortMapper) : List UInt8 :=
  encodePcpMap mapper.nonce mapper.config.internalIp mapper.config.internalPort mapper.config.internalPort
    requestLifetimeSecs

/-- Where a PCP request is waiting after this, it was sent just now or before, under the nonce that still stands. -/
def Asks (mapper : PortMapper) (result : PortMapper × List PortMapAction) : Prop :=
  result.1.phase.isPcp = true →
    mapper.phase.isPcp = true ∧ result.1.socket = mapper.socket ∧ result.1.pcpRequest = mapper.pcpRequest ∨
      ∃ socket, result.1.socket = some socket ∧
        PortMapAction.sent socket mapper.config.gateway result.1.pcpRequest ∈ result.2

/-- The ladder goes on: what it waits for next lies ahead, and only the phase and what belongs to it changes. -/
structure Climbs (env : PortMapEnv) (mapper : PortMapper) (result : PortMapper × List PortMapAction) : Prop where
  config : result.1.config = mapper.config
  mapped : result.1.mapped = mapper.mapped
  pinPhase : result.1.pinPhase = mapper.pinPhase
  pinhole : result.1.pinhole = mapper.pinhole
  endpoint : result.1.httpEndpoint = mapper.httpEndpoint
  phase : env.now < result.1.phase.deadline
  asks : mapper.Asks result
  allowed : mapper.Homed → ∀ action ∈ result.2, action.Allowed mapper.config.gateway

theorem later_retry (now : Instant) : now < now + ladderRetry := Nat.lt_add_of_pos_right (by decide)

theorem climbs_ladderFailed (mapper : PortMapper) (env : PortMapEnv) : Climbs env mapper (mapper.ladderFailed env, []) :=
  ⟨rfl, rfl, rfl, rfl, rfl, later_retry env.now, nofun, fun _ _ member => (List.not_mem_nil member).elim⟩

theorem climbs_unusable (mapper : PortMapper) (env : PortMapEnv) : Climbs env mapper (mapper.unusable env) :=
  ⟨rfl, rfl, rfl, rfl, rfl, later_retry env.now, nofun, fun _ _ member => (List.not_mem_nil member).elim⟩

/-- Binding only touches the socket and the nonces, and only the first time. -/
theorem rest_ensureSocket (mapper : PortMapper) (env : PortMapEnv) :
    (∃ platform nonce nonceV6 socket, (mapper.ensureSocket env).1 = { mapper with
      platform := platform
      nonce := nonce
      nonceV6 := nonceV6
      socket := socket }) ∧
    (mapper.ensureSocket env).1.socket = (mapper.ensureSocket env).2.1 ∧
    (mapper.socket.isSome → (mapper.ensureSocket env).1.pcpRequest = mapper.pcpRequest ∧
      (mapper.ensureSocket env).1.socket = mapper.socket) ∧
    ∀ action ∈ (mapper.ensureSocket env).2.2, ∀ gateway, action.Allowed gateway := by
  unfold ensureSocket
  split
  next bound => exact ⟨⟨_, _, _, _, rfl⟩, bound, fun _ => ⟨rfl, rfl⟩, fun _ member => (List.not_mem_nil member).elim⟩
  next unbound =>
    have first : ¬ mapper.socket.isSome := by simp [unbound]
    split
    · exact ⟨⟨_, _, _, _, rfl⟩, unbound, fun bound => absurd bound first, fun _ member => (List.not_mem_nil member).elim⟩
    refine ⟨⟨_, _, _, _, rfl⟩, rfl, fun bound => absurd bound first, fun action member gateway => ?_⟩
    rw [List.mem_singleton.mp member]
    trivial

theorem climbs_sendStep (mapper : PortMapper) (env : PortMapEnv) {dest : SocketAddr} (raw : PortMapper → List UInt8)
    {phase : Instant → Phase} (home : dest = mapper.config.gateway ∨ dest = ssdpMulticast)
    (waits : ∀ deadline, (phase deadline).deadline = deadline)
    (asks : ∀ deadline, (phase deadline).isPcp = true → dest = mapper.config.gateway ∧ raw = pcpRequest) :
    Climbs env mapper (mapper.sendStep env dest raw phase) := by
  obtain ⟨⟨_, _, _, _, rest⟩, own, _, bound⟩ := rest_ensureSocket mapper env
  unfold sendStep
  split
  next ensured =>
    rw [ensured] at rest own bound
    cases rest
    exact ⟨rfl, rfl, rfl, rfl, rfl, later_retry env.now, nofun, fun _ action member => bound action member _⟩
  next ensured =>
    rw [ensured] at rest own bound
    cases rest
    refine ⟨rfl, rfl, rfl, rfl, rfl, ?_, fun pcp => ?_, fun _ action member => ?_⟩
    · dsimp only
      rw [waits]
      exact Nat.lt_add_of_pos_right (by decide)
    · obtain ⟨rfl, rfl⟩ := asks _ pcp
      exact .inr ⟨_, own, List.mem_append_right _ (List.mem_singleton_self _)⟩
    · rcases List.mem_append.mp member with early | last
      · exact bound action early _
      · rw [List.mem_singleton.mp last]
        exact home

theorem climbs_sendHttp (mapper : PortMapper) (env : PortMapEnv) (request : HttpRequest)
    (control : Option Text) {phase : TcpId → Instant → Phase}
    (waits : ∀ conn deadline, (phase conn deadline).deadline = deadline)
    (other : ∀ conn deadline, (phase conn deadline).isPcp = false) :
    Climbs env mapper (mapper.sendHttp env request control phase) := by
  unfold sendHttp
  split
  next endpoint conn found _ =>
    refine ⟨rfl, rfl, rfl, rfl, rfl, ?_, fun pcp => ?_, fun homed action member => ?_⟩
    · dsimp only
      rw [waits]
      exact Nat.lt_add_of_pos_right (by decide)
    · rw [other] at pcp
      cases pcp
    · rw [List.mem_singleton.mp member]
      exact homed endpoint found
  · exact climbs_ladderFailed mapper env

theorem climbs_sendPcpMap (mapper : PortMapper) (env : PortMapEnv) (attempt : Nat) :
    Climbs env mapper (mapper.sendPcpMap env attempt) := climbs_sendStep mapper env _ (.inl rfl) (fun _ => rfl) (fun _ _ => ⟨rfl, rfl⟩)

theorem climbs_sendNatPmpExternal (mapper : PortMapper) (env : PortMapEnv) (attempt : Nat) :
    Climbs env mapper (mapper.sendNatPmpExternal env attempt) := climbs_sendStep mapper env _ (.inl rfl) (fun _ => rfl) nofun

theorem climbs_sendNatPmpMap (mapper : PortMapper) (env : PortMapEnv) (attempt : Nat) (externalIp : IpAddr) :
    Climbs env mapper (mapper.sendNatPmpMap env attempt externalIp) :=
  climbs_sendStep mapper env _ (.inl rfl) (fun _ => rfl) nofun

theorem climbs_sendSsdp (mapper : PortMapper) (env : PortMapEnv) (attempt : Nat) :
    Climbs env mapper (mapper.sendSsdp env attempt) := climbs_sendStep mapper env _ (.inr rfl) (fun _ => rfl) nofun

theorem climbs_sendUpnpDescribe (mapper : PortMapper) (env : PortMapEnv) :
    Climbs env mapper (mapper.sendUpnpDescribe env) := climbs_sendHttp mapper env _ _ (fun _ _ => rfl) (fun _ _ => rfl)

theorem climbs_sendUpnpExternal (mapper : PortMapper) (env : PortMapEnv) (control : Text) :
    Climbs env mapper (mapper.sendUpnpExternal env control) := climbs_sendHttp mapper env _ _ (fun _ _ => rfl) (fun _ _ => rfl)

theorem climbs_sendUpnpMap (mapper : PortMapper) (env : PortMapEnv) (control : Text) (externalIp : IpAddr) :
    Climbs env mapper (mapper.sendUpnpMap env control externalIp) := climbs_sendHttp mapper env _ _ (fun _ _ => rfl) (fun _ _ => rfl)

theorem climbs_startLadderOrRenew (mapper : PortMapper) (env : PortMapEnv) :
    Climbs env mapper (mapper.startLadderOrRenew env) := by
  unfold startLadderOrRenew
  split
  · exact climbs_sendPcpMap mapper env 0
  split
  · exact climbs_sendPcpMap mapper env 0
  · exact climbs_sendNatPmpMap mapper env 0 _
  split
  · exact climbs_sendUpnpMap mapper env _ _
  · exact climbs_sendSsdp mapper env 0

theorem climbs_retry {attempt : Nat} {again : Nat → PortMapper × List PortMapAction}
    {next : PortMapper × List PortMapAction} (retries : ∀ attempt, Climbs env mapper (again attempt))
    (falls : Climbs env mapper next) : Climbs env mapper (retry attempt again next) := by
  unfold retry
  split
  · exact retries _
  · exact falls

/-- The request over TCP is given up. -/
theorem climbs_giveUp (mapper : PortMapper) (env : PortMapEnv) (conn : TcpId) :
    Climbs env mapper ({ mapper with httpBuf := [] }.ladderFailed env, [.tcpClosed conn]) := by
  refine ⟨rfl, rfl, rfl, rfl, rfl, later_retry env.now, nofun, fun _ action member => ?_⟩
  rw [List.mem_singleton.mp member]
  trivial

theorem climbs_drivePhase (mapper : PortMapper) (env : PortMapEnv) : Climbs env mapper (mapper.drivePhase env) := by
  unfold drivePhase
  split
  next waiting =>
    exact ⟨rfl, rfl, rfl, rfl, rfl, waiting, fun pcp => .inl ⟨pcp, rfl, rfl⟩,
      fun _ _ member => (List.not_mem_nil member).elim⟩
  split
  · exact climbs_startLadderOrRenew mapper env
  · exact climbs_retry (climbs_sendPcpMap mapper env) (climbs_sendNatPmpExternal mapper env 0)
  · exact climbs_retry (climbs_sendNatPmpExternal mapper env) (climbs_sendSsdp mapper env 0)
  next externalIp _ =>
    exact climbs_retry (fun attempt => climbs_sendNatPmpMap mapper env attempt externalIp)
      (climbs_sendSsdp mapper env 0)
  · exact climbs_retry (climbs_sendSsdp mapper env) (climbs_ladderFailed mapper env)
  · exact climbs_giveUp mapper env _
  · exact climbs_giveUp mapper env _
  · exact climbs_giveUp mapper env _

/-! ### The pinhole -/

/-- Only the pinhole's own phase changes, besides binding. -/
structure Pins (mapper : PortMapper) (result : PortMapper × List PortMapAction) : Prop where
  config : result.1.config = mapper.config
  mapped : result.1.mapped = mapper.mapped
  phase : result.1.phase = mapper.phase
  endpoint : result.1.httpEndpoint = mapper.httpEndpoint
  request : mapper.socket.isSome → result.1.pcpRequest = mapper.pcpRequest ∧ result.1.socket = mapper.socket
  allowed : ∀ action ∈ result.2, action.Allowed mapper.config.gateway

theorem pins_quiet {result : PortMapper} {pinPhase : PinPhase} (same : result = { mapper with pinPhase := pinPhase }) :
    Pins mapper (result, []) := by
  subst same
  exact ⟨rfl, rfl, rfl, rfl, fun _ => ⟨rfl, rfl⟩, fun _ member => (List.not_mem_nil member).elim⟩

theorem pins_sendPinhole (mapper : PortMapper) (env : PortMapEnv) (attempt : Nat) (internalV6 : SocketAddr) :
    Pins mapper (mapper.sendPinhole env attempt internalV6) := by
  obtain ⟨⟨_, _, _, _, rest⟩, _, again, bound⟩ := rest_ensureSocket mapper env
  unfold sendPinhole
  split
  next ensured =>
    rw [ensured] at rest again bound
    cases rest
    exact ⟨rfl, rfl, rfl, rfl, again, fun action member => bound action member _⟩
  next ensured =>
    rw [ensured] at rest again bound
    cases rest
    refine ⟨rfl, rfl, rfl, rfl, again, fun action member => ?_⟩
    rcases List.mem_append.mp member with early | last
    · exact bound action early _
    · rw [List.mem_singleton.mp last]
      exact .inl rfl

theorem pins_drivePinhole (mapper : PortMapper) (env : PortMapEnv) : Pins mapper (mapper.drivePinhole env) := by
  unfold drivePinhole
  split
  · split
    · exact pins_sendPinhole mapper env 0 _
    · exact pins_quiet rfl
  · split
    · unfold retry
      split
      · exact pins_sendPinhole mapper env _ _
      · exact pins_quiet rfl
    · exact pins_quiet rfl
  · exact pins_quiet rfl

end PortMapper

end Lightbringer.Overlay.PortMap
