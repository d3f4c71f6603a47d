import Lightbringer.Overlay.PortMapSafety

/-!
# What the port mapper sends

Every datagram of a step is one of five requests, under the nonces that stand when the step is over; once a socket is
bound these stay.
-/

namespace Lightbringer.Overlay.PortMap.PortMapper
open Machine

variable {mapper other : PortMapper} {env : PortMapEnv} {known : IpAddr → Prop}
  {result : PortMapper × List PortMapAction}

/-- The request for the pinhole. -/
def pinRequest (mapper : PortMapper) (internalV6 : SocketAddr) : List UInt8 :=
  encodePcpMap mapper.nonceV6 internalV6.ip internalV6.port internalV6.port requestLifetimeSecs

/-- The datagrams a mapper sends. -/
def Requests (mapper : PortMapper) (dest : SocketAddr) (raw : List UInt8) : Prop :=
  dest = ssdpMulticast ∨ dest = mapper.config.gateway ∧
    (raw = mapper.pcpRequest ∨ raw = [0, 0] ∨ raw = encodeNatPmpMap mapper.config.internalPort ∨
      ∃ internalV6, mapper.config.internalV6 = some internalV6 ∧ raw = mapper.pinRequest internalV6)

/-- A NAT-PMP mapping is only asked for where the external address is known. -/
def Phase.Knows (known : IpAddr → Prop) : Phase → Prop
  | .natPmpMap _ _ externalIp => known externalIp
  | _ => True

/-- A step leaves the nonces as they are, or draws them for the socket it binds, and sends nothing but requests. -/
structure Speaks (known : IpAddr → Prop) (env : PortMapEnv) (mapper : PortMapper)
    (result : PortMapper × List PortMapAction) : Prop where
  config : result.1.config = mapper.config
  nonces : result.1.nonce = mapper.nonce ∧ result.1.nonceV6 = mapper.nonceV6 ∧ result.1.socket = mapper.socket ∨
    mapper.socket = none ∧ result.1.nonce = env.nonce ∧ result.1.nonceV6 = env.nonceV6 ∧ result.1.socket.isSome
  sent : ∀ socket dest raw, .sent socket dest raw ∈ result.2 → result.1.socket.isSome ∧ result.1.Requests dest raw
  phase : Phase.Knows known result.1.phase

/-- Two mappers that differ at most in what the requests do not depend on. -/
structure Same (mapper other : PortMapper) : Prop where
  config : other.config = mapper.config
  nonce : other.nonce = mapper.nonce
  nonceV6 : other.nonceV6 = mapper.nonceV6
  socket : other.socket = mapper.socket

theorem Same.speaks (same : Same mapper other) (speaks : Speaks known env other result) :
    Speaks known env mapper result := by
  refine ⟨speaks.config.trans same.config, ?_, speaks.sent, speaks.phase⟩
  rw [← same.nonce, ← same.nonceV6, ← same.socket]
  exact speaks.nonces

theorem speaks_quiet (same : Same mapper other) (phase : Phase.Knows known other.phase) :
    Speaks known env mapper (other, []) :=
  same.speaks ⟨rfl, .inl ⟨rfl, rfl, rfl⟩, fun _ _ _ member => absurd member List.not_mem_nil, phase⟩

/-- Actions that send nothing change nothing. -/
theorem Speaks.beside {more : List PortMapAction} (speaks : Speaks known env mapper result)
    (silent : ∀ socket dest raw, PortMapAction.sent socket dest raw ∈ more → .sent socket dest raw ∈ result.2) :
    Speaks known env mapper (result.1, more) :=
  ⟨speaks.config, speaks.nonces,
    fun socket dest raw member => speaks.sent socket dest raw (silent socket dest raw member), speaks.phase⟩

/-- A second step under the same environment. -/
theorem Speaks.andThen {next : PortMapper × List PortMapAction} (first : Speaks known env mapper result)
    (second : Speaks known env result.1 next) : Speaks known env mapper (next.1, result.2 ++ next.2) where
  config := second.config.trans first.config
  nonces := by
    rcases second.nonces with ⟨nonce, nonceV6, socket⟩ | ⟨unbound, drawn⟩
    · rw [nonce, nonceV6, socket]
      exact first.nonces
    · rcases first.nonces with ⟨_, _, socket⟩ | ⟨_, _, _, bound⟩
      · exact .inr ⟨socket.symm.trans unbound, drawn⟩
      · rw [unbound] at bound
        cases bound
  sent socket dest raw member := by
    rcases List.mem_append.mp member with early | late
    · obtain ⟨bound, requests⟩ := first.sent socket dest raw early
      rcases second.nonces with ⟨nonce, nonceV6, same⟩ | ⟨unbound, _⟩
      · refine ⟨by rw [same]; exact bound, ?_⟩
        unfold Requests pcpRequest pinRequest at requests ⊢
        rw [second.config, nonce, nonceV6]
        exact requests
      · rw [unbound] at bound
        cases bound
    · exact second.sent socket dest raw late
  phase := second.phase

/-! ### The ladder -/

theorem speaks_ensureSocket (mapper : PortMapper) (env : PortMapEnv) (phase : Phase) (knows : Phase.Knows known phase) :
    Speaks known env mapper ({ (mapper.ensureSocket env).1 with phase := phase }, (mapper.ensureSocket env).2.2) := by
  unfold ensureSocket
  split
  · exact speaks_quiet ⟨rfl, rfl, rfl, rfl⟩ knows
  next unbound =>
    split
    · exact speaks_quiet ⟨rfl, rfl, rfl, rfl⟩ knows
    · refine ⟨rfl, .inr ⟨unbound, rfl, rfl, rfl⟩, fun _ _ _ member => ?_, knows⟩
      cases List.mem_singleton.mp member

theorem speaks_sendStep {dest : SocketAddr} {raw : PortMapper → List UInt8} {phase : Instant → Phase}
    (mapper : PortMapper) (env : PortMapEnv) (knows : ∀ deadline, Phase.Knows known (phase deadline))
    (requests : ∀ bound : PortMapper, bound.config = mapper.config → bound.Requests dest (raw bound)) :
    Speaks known env mapper (mapper.sendStep env dest raw phase) := by
  have own := (rest_ensureSocket mapper env).2.1
  unfold sendStep
  split
  next ensured =>
    have bound : Speaks known env mapper _ := speaks_ensureSocket mapper env (.idle (env.now + ladderRetry)) trivial
    rw [ensured] at bound
    exact bound
  next ready socket actions ensured =>
    have bound := speaks_ensureSocket mapper env _ (knows (env.now + stepTimeout))
    rw [ensured] at bound own
    refine ⟨bound.config, bound.nonces, fun socket' dest' raw' member => ?_, bound.phase⟩
    rcases List.mem_append.mp member with early | last
    · exact bound.sent socket' dest' raw' early
    · cases List.mem_singleton.mp last
      have asked : ready.Requests dest (raw ready) := requests ready bound.config
      exact ⟨by rw [show _ = _ from own]; rfl, asked⟩

theorem speaks_sendHttp {phase : TcpId → Instant → Phase} (mapper : PortMapper) (env : PortMapEnv) (request : HttpRequest)
    (control : Option Text) (knows : ∀ conn deadline, Phase.Knows known (phase conn deadline)) :
    Speaks known env mapper (mapper.sendHttp env request control phase) := by
  unfold sendHttp
  split
  · refine ⟨rfl, .inl ⟨rfl, rfl, rfl⟩, fun _ _ _ member => ?_, knows _ _⟩
    cases List.mem_singleton.mp member
  · exact speaks_quiet ⟨rfl, rfl, rfl, rfl⟩ trivial

theorem speaks_sendPcpMap (mapper : PortMapper) (env : PortMapEnv) (attempt : Nat) :
    Speaks known env mapper (mapper.sendPcpMap env attempt) :=
  speaks_sendStep mapper env (fun _ => trivial) (fun _ same => .inr ⟨by rw [same], .inl rfl⟩)

theorem speaks_sendNatPmpExternal (mapper : PortMapper) (env : PortMapEnv) (attempt : Nat) :
    Speaks known env mapper (mapper.sendNatPmpExternal env attempt) :=
  speaks_sendStep mapper env (fun _ => trivial) (fun _ same => .inr ⟨by rw [same], .inr (.inl rfl)⟩)

theorem speaks_sendNatPmpMap {externalIp : IpAddr} (mapper : PortMapper) (env : PortMapEnv) (attempt : Nat)
    (learned : known externalIp) : Speaks known env mapper (mapper.sendNatPmpMap env attempt externalIp) :=
  speaks_sendStep mapper env (fun _ => learned) (fun _ same => .inr ⟨by rw [same], .inr (.inr (.inl rfl))⟩)

theorem speaks_sendSsdp (mapper : PortMapper) (env : PortMapEnv) (attempt : Nat) :
    Speaks known env mapper (mapper.sendSsdp env attempt) :=
  speaks_sendStep mapper env (fun _ => trivial) (fun _ _ => .inl rfl)

/-- A NAT-PMP mapping that is held names a known address. -/
def Learned (known : IpAddr → Prop) (mapper : PortMapper) : Prop :=
  ∀ mapped, mapper.mapped = some mapped → mapped.protocol = .natPmp → known mapped.external.ip

theorem speaks_startLadderOrRenew (mapper : PortMapper) (env : PortMapEnv) (learned : mapper.Learned known) :
    Speaks known env mapper (mapper.startLadderOrRenew env) := by
  unfold startLadderOrRenew
  split
  · exact speaks_sendPcpMap mapper env 0
  next mapped found =>
    split
    · exact speaks_sendPcpMap mapper env 0
    next protocol => exact speaks_sendNatPmpMap mapper env 0 (learned mapped found protocol)
    split
    · exact speaks_sendHttp mapper env _ _ (fun _ _ => trivial)
    · exact speaks_sendSsdp mapper env 0

theorem speaks_retry {attempt : Nat} {again : Nat → PortMapper × List PortMapAction}
    {next : PortMapper × List PortMapAction} (retries : ∀ attempt, Speaks known env mapper (again attempt))
    (falls : Speaks known env mapper next) : Speaks known env mapper (retry attempt again next) := by
  unfold retry
  split
  · exact retries _
  · exact falls

theorem speaks_giveUp (mapper : PortMapper) (env : PortMapEnv) (conn : TcpId) :
    Speaks known env mapper ({ mapper with httpBuf := [] }.ladderFailed env, [.tcpClosed conn]) := by
  refine ⟨rfl, .inl ⟨rfl, rfl, rfl⟩, fun _ _ _ member => ?_, trivial⟩
  cases List.mem_singleton.mp member

theorem speaks_drivePhase (mapper : PortMapper) (env : PortMapEnv) (learned : mapper.Learned known)
    (knows : Phase.Knows known mapper.phase) : Speaks known env mapper (mapper.drivePhase env) := by
  unfold drivePhase
  split
  · exact speaks_quiet ⟨rfl, rfl, rfl, rfl⟩ knows
  split
  · exact speaks_startLadderOrRenew mapper env learned
  · exact speaks_retry (speaks_sendPcpMap mapper env) (speaks_sendNatPmpExternal mapper env 0)
  · exact speaks_retry (speaks_sendNatPmpExternal mapper env) (speaks_sendSsdp mapper env 0)
  next awaited =>
    rw [awaited] at knows
    exact speaks_retry (fun attempt => speaks_sendNatPmpMap mapper env attempt knows) (speaks_sendSsdp mapper env 0)
  · exact speaks_retry (speaks_sendSsdp mapper env) (speaks_quiet ⟨rfl, rfl, rfl, rfl⟩ trivial)
  · exact speaks_giveUp mapper env _
  · exact speaks_giveUp mapper env _
  · exact speaks_giveUp mapper env _

theorem speaks_sendPinhole {internalV6 : SocketAddr} (mapper : PortMapper) (env : PortMapEnv) (attempt : Nat)
    (configured : mapper.config.internalV6 = some internalV6) (knows : Phase.Knows known mapper.phase) :
    Speaks known env mapper (mapper.sendPinhole env attempt internalV6) := by
  obtain ⟨⟨_, _, _, _, rest⟩, own, _⟩ := rest_ensureSocket mapper env
  have bound := speaks_ensureSocket mapper env mapper.phase knows
  unfold sendPinhole
  split
  next ensured =>
    rw [ensured] at bound rest
    cases rest
    exact ⟨bound.config, bound.nonces, bound.sent, bound.phase⟩
  next ensured =>
    rw [ensured] at bound rest own
    cases rest
    refine ⟨bound.config, bound.nonces, fun socket dest raw member => ?_, bound.phase⟩
    rcases List.mem_append.mp member with early | last
    · exact bound.sent socket dest raw early
    · cases List.mem_singleton.mp last
      exact ⟨by rw [show _ = _ from own]; rfl, .inr ⟨rfl, .inr (.inr (.inr ⟨internalV6, configured, rfl⟩))⟩⟩

theorem speaks_drivePinhole (mapper : PortMapper) (env : PortMapEnv) (knows : Phase.Knows known mapper.phase) :
    Speaks known env mapper (mapper.drivePinhole env) := by
  unfold drivePinhole
  split
  next configured _ =>
    split
    · exact speaks_sendPinhole mapper env 0 configured knows
    · exact speaks_quiet ⟨rfl, rfl, rfl, rfl⟩ knows
  next configured _ =>
    split
    · exact speaks_retry (fun attempt => speaks_sendPinhole mapper env attempt configured knows)
        (speaks_quiet ⟨rfl, rfl, rfl, rfl⟩ knows)
    · exact speaks_quiet ⟨rfl, rfl, rfl, rfl⟩ knows
  · exact speaks_quiet ⟨rfl, rfl, rfl, rfl⟩ knows

theorem speaks_onTimer (mapper : PortMapper) (env : PortMapEnv) (learned : mapper.Learned known)
    (knows : Phase.Knows known mapper.phase) : Speaks known env mapper (mapper.onTimer env) := by
  have left : Learned known { mapper with
      mapped := dropExpired env.now mapper.mapped
      pinhole := dropExpired env.now mapper.pinhole } := by
    intro mapped found protocol
    exact learned mapped (Option.filter_eq_some_iff.mp found).1 protocol
  have ladder := speaks_drivePhase _ env left knows
  have dropped : Same mapper { mapper with
      mapped := dropExpired env.now mapper.mapped
      pinhole := dropExpired env.now mapper.pinhole } := ⟨rfl, rfl, rfl, rfl⟩
  exact dropped.speaks (ladder.andThen (speaks_drivePinhole _ env ladder.phase))

/-! ### Answers -/

/-- The address that the answer to an external address request names. -/
def externalAnswer (payload : List UInt8) : IpAddr := .v4 (.ofNat 32 (Bytes.toNat (field 8 4 payload)))

theorem speaks_onPcpResponse (mapper : PortMapper) (env : PortMapEnv) (payload : List UInt8)
    (knows : Phase.Knows known mapper.phase) : Speaks known env mapper (mapper.onPcpResponse env payload) := by
  unfold onPcpResponse
  split
  · exact speaks_quiet ⟨rfl, rfl, rfl, rfl⟩ knows
  dsimp only
  split
  · exact speaks_quiet ⟨rfl, rfl, rfl, rfl⟩ knows
  split
  · have denied : Same mapper mapper.denied := ⟨rfl, rfl, rfl, rfl⟩
    exact denied.speaks (speaks_sendNatPmpExternal mapper.denied env 0)
  · exact speaks_quiet ⟨rfl, rfl, rfl, rfl⟩ trivial

theorem speaks_onNatPmpExternal (mapper : PortMapper) (env : PortMapEnv) (payload : List UInt8)
    (knows : Phase.Knows known mapper.phase)
    (answers : payload.length = 12 → startsWith payload [0, 128] = true → Bytes.toNat (field 2 2 payload) = 0 →
      known (externalAnswer payload)) : Speaks known env mapper (mapper.onNatPmpExternal env payload) := by
  unfold onNatPmpExternal
  split
  next shape =>
    rw [Bool.and_eq_true, decide_eq_true_eq] at shape
    split
    · have denied : Same mapper mapper.denied := ⟨rfl, rfl, rfl, rfl⟩
      exact denied.speaks (speaks_sendSsdp mapper.denied env 0)
    next accepted => exact speaks_sendNatPmpMap mapper env 0 (answers shape.1 shape.2 (not_not.mp accepted))
  · exact speaks_quiet ⟨rfl, rfl, rfl, rfl⟩ knows

theorem speaks_onNatPmpMap (mapper : PortMapper) (env : PortMapEnv) (payload : List UInt8) (externalIp : IpAddr)
    (knows : Phase.Knows known mapper.phase) : Speaks known env mapper (mapper.onNatPmpMap env payload externalIp) := by
  unfold onNatPmpMap
  split
  · dsimp only
    split
    · have denied : Same mapper mapper.denied := ⟨rfl, rfl, rfl, rfl⟩
      exact denied.speaks (speaks_sendSsdp mapper.denied env 0)
    · exact speaks_quiet ⟨rfl, rfl, rfl, rfl⟩ trivial
  · exact speaks_quiet ⟨rfl, rfl, rfl, rfl⟩ knows

theorem speaks_onSsdpResponse (mapper : PortMapper) (env : PortMapEnv) (payload : List UInt8)
    (knows : Phase.Knows known mapper.phase) : Speaks known env mapper (mapper.onSsdpResponse env payload) := by
  unfold onSsdpResponse
  split
  · exact speaks_quiet ⟨rfl, rfl, rfl, rfl⟩ knows
  next endpoint path _ =>
    split
    · exact speaks_quiet ⟨rfl, rfl, rfl, rfl⟩ knows
    · have found : Same mapper { mapper with httpEndpoint := some endpoint, describePath := path } := ⟨rfl, rfl, rfl, rfl⟩
      exact found.speaks (speaks_sendHttp _ env _ _ (fun _ _ => trivial))

theorem speaks_onDatagram (mapper : PortMapper) (env : PortMapEnv) (source : SocketAddr) (payload : List UInt8)
    (knows : Phase.Knows known mapper.phase)
    (answers : payload.length = 12 → startsWith payload [0, 128] = true → Bytes.toNat (field 2 2 payload) = 0 →
      known (externalAnswer payload)) : Speaks known env mapper (mapper.onDatagram env source payload) := by
  unfold onDatagram
  split
  · exact speaks_quiet ⟨rfl, rfl, rfl, rfl⟩ knows
  split
  next response _ =>
    obtain ⟨_, _, _, moved⟩ := rest_onPinholeResponse mapper env response
    rw [moved]
    exact speaks_quiet ⟨rfl, rfl, rfl, rfl⟩ knows
  split
  · exact speaks_onPcpResponse mapper env payload knows
  · exact speaks_onNatPmpExternal mapper env payload knows answers
  · exact speaks_onNatPmpMap mapper env payload _ knows
  · exact speaks_onSsdpResponse mapper env payload knows
  · exact speaks_quiet ⟨rfl, rfl, rfl, rfl⟩ knows

/-! ### TCP -/

theorem speaks_finishHttp (mapper : PortMapper) (env : PortMapEnv) (knows : Phase.Knows known mapper.phase) :
    Speaks known env mapper (mapper.finishHttp env) := by
  have emptied : Same mapper { mapper with httpBuf := [] } := ⟨rfl, rfl, rfl, rfl⟩
  unfold finishHttp
  dsimp only
  split
  · exact speaks_quiet ⟨rfl, rfl, rfl, rfl⟩ trivial
  split
  · unfold finishDescribe
    split
    · exact emptied.speaks (speaks_sendHttp _ env _ _ (fun _ _ => trivial))
    · exact speaks_quiet ⟨rfl, rfl, rfl, rfl⟩ trivial
  · unfold finishExternal
    split
    · exact emptied.speaks (speaks_sendHttp _ env _ _ (fun _ _ => trivial))
    · exact speaks_quiet ⟨rfl, rfl, rfl, rfl⟩ trivial
  · unfold finishMap
    split
    · exact speaks_quiet ⟨rfl, rfl, rfl, rfl⟩ trivial
    · exact speaks_quiet ⟨rfl, rfl, rfl, rfl⟩ trivial
  · exact speaks_quiet ⟨rfl, rfl, rfl, rfl⟩ knows

theorem speaks_onTcpEvent (mapper : PortMapper) (env : PortMapEnv) (event : TcpEvent)
    (knows : Phase.Knows known mapper.phase) : Speaks known env mapper (mapper.onTcpEvent env event) := by
  unfold onTcpEvent
  split
  · cases event with
    | connected conn => exact speaks_quiet ⟨rfl, rfl, rfl, rfl⟩ knows
    | data conn bytes =>
      have buffered : Same mapper { mapper with httpBuf := mapper.httpBuf ++ bytes } := ⟨rfl, rfl, rfl, rfl⟩
      dsimp only [onActiveTcpEvent]
      split
      · refine ⟨rfl, .inl ⟨rfl, rfl, rfl⟩, fun _ _ _ member => ?_, trivial⟩
        cases List.mem_singleton.mp member
      split
      · refine (buffered.speaks (speaks_finishHttp _ env knows)).beside (fun socket dest raw member => ?_)
        exact (List.mem_cons.mp member).resolve_left (fun same => by cases same)
      · exact speaks_quiet ⟨rfl, rfl, rfl, rfl⟩ knows
    | closed conn =>
      dsimp only [onActiveTcpEvent]
      split
      · exact speaks_finishHttp mapper env knows
      · exact speaks_quiet ⟨rfl, rfl, rfl, rfl⟩ trivial
  · exact speaks_quiet ⟨rfl, rfl, rfl, rfl⟩ knows

end Lightbringer.Overlay.PortMap.PortMapper
