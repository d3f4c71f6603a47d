import Lightbringer.Overlay.PortMapSteps

/-!
# What the gateway can make the port mapper do

Datagrams of any source and bytes of any kind come in. A mapping is only taken from the answer that the phase waits for,
nothing leaves for anyone but the gateway, and the pinhole and the ladder keep out of each other's way.
-/

namespace Lightbringer.Overlay.PortMap.PortMapper
open Machine

variable {mapper other : PortMapper} {env : PortMapEnv} {granted : Mapped → Prop}
  {result : PortMapper × List PortMapAction}

/-- What an answer leads to, if not to the pinhole: the ladder goes on, or the mapping is granted. -/
structure Reacts (granted : Mapped → Prop) (mapper : PortMapper) (result : PortMapper × List PortMapAction) : Prop where
  config : result.1.config = mapper.config
  mapped : result.1.mapped = mapper.mapped ∨ ∃ m, result.1.mapped = some m ∧ granted m ∧ minLease ≤ m.lease
  pinPhase : result.1.pinPhase = mapper.pinPhase
  pinhole : result.1.pinhole = mapper.pinhole
  homed : mapper.Homed → result.1.Homed
  asks : mapper.Asks result
  allowed : mapper.Homed → ∀ action ∈ result.2, action.Allowed mapper.config.gateway

/-- The other mapper differs at most in what the ladder has read and counted. -/
structure Alike (mapper other : PortMapper) : Prop where
  config : other.config = mapper.config
  mapped : other.mapped = mapper.mapped
  pinPhase : other.pinPhase = mapper.pinPhase
  pinhole : other.pinhole = mapper.pinhole
  phase : other.phase = mapper.phase
  socket : other.socket = mapper.socket
  request : other.pcpRequest = mapper.pcpRequest
  homed : mapper.Homed → other.Homed

theorem alike_malformed (mapper : PortMapper) : Alike mapper mapper.malformed :=
  ⟨rfl, rfl, rfl, rfl, rfl, rfl, rfl, fun homed => homed⟩

theorem alike_denied (mapper : PortMapper) : Alike mapper mapper.denied :=
  ⟨rfl, rfl, rfl, rfl, rfl, rfl, rfl, fun homed => homed⟩

theorem alike_buffer (mapper : PortMapper) (bytes : List UInt8) : Alike mapper { mapper with httpBuf := bytes } :=
  ⟨rfl, rfl, rfl, rfl, rfl, rfl, rfl, fun homed => homed⟩

theorem Alike.refl (mapper : PortMapper) : Alike mapper mapper :=
  ⟨rfl, rfl, rfl, rfl, rfl, rfl, rfl, fun homed => homed⟩

theorem Alike.reacts (alike : Alike mapper other) (reacts : Reacts granted other result) : Reacts granted mapper result := by
  refine ⟨reacts.config.trans alike.config, alike.mapped ▸ reacts.mapped, reacts.pinPhase.trans alike.pinPhase,
    reacts.pinhole.trans alike.pinhole, fun homed => reacts.homed (alike.homed homed), fun pcp => ?_, fun homed => ?_⟩
  · rw [← alike.phase, ← alike.socket, ← alike.request, ← alike.config]
    exact reacts.asks pcp
  · rw [← alike.config]
    exact reacts.allowed (alike.homed homed)

theorem Climbs.reacts (climbs : Climbs env mapper result) : Reacts granted mapper result := by
  refine ⟨climbs.config, .inl climbs.mapped, climbs.pinPhase, climbs.pinhole, fun homed endpoint found => ?_, climbs.asks,
    climbs.allowed⟩
  rw [climbs.endpoint] at found
  rw [climbs.config]
  exact homed endpoint found

theorem reacts_quiet (alike : Alike mapper other) : Reacts granted mapper (other, []) := by
  refine alike.reacts ⟨rfl, .inl rfl, rfl, rfl, fun homed => homed, fun pcp => .inl ⟨pcp, rfl, rfl⟩, fun _ _ member => ?_⟩
  exact (List.not_mem_nil member).elim

theorem reacts_grant (env : PortMapEnv) {protocol : MapProtocol} {external : SocketAddr} {lease : Nat}
    (new : granted ⟨protocol, external, lease, env.now⟩) (long : minLease ≤ lease) :
    Reacts granted mapper (mapper.grant env protocol external lease, []) :=
  ⟨rfl, .inr ⟨_, rfl, new, long⟩, rfl, rfl, fun homed => homed, nofun, fun _ _ member => (List.not_mem_nil member).elim⟩

/-! ### Answers -/

/-- What a mapping can come from: the answer the phase waits for, from the gateway or on the open connection. -/
inductive Grants (mapper : PortMapper) : Input → Mapped → Prop
  | pcp {env : PortMapEnv} {source : SocketAddr} {payload : List UInt8} {attempt : Nat} {deadline : Instant}
      {response : PcpMapResponse} (awaited : mapper.phase = .pcp attempt deadline)
      (home : source.ip = mapper.config.gateway.ip) (parsed : parsePcpMapResponse payload = some response)
      (nonce : response.nonce = mapper.nonce) (accepted : response.result = 0) :
      Grants mapper (.datagram env source payload)
        ⟨.pcp, ⟨response.externalIp, response.externalPort⟩, fromSecs response.lifetime, env.now⟩
  | natPmp {env : PortMapEnv} {source : SocketAddr} {payload : List UInt8} {attempt : Nat} {deadline : Instant}
      {externalIp : IpAddr} (awaited : mapper.phase = .natPmpMap attempt deadline externalIp)
      (home : source.ip = mapper.config.gateway.ip)
      (shape : payload.length = 16 ∧ startsWith payload [0, 129] = true)
      (accepted : Bytes.toNat (field 2 2 payload) = 0) :
      Grants mapper (.datagram env source payload) ⟨.natPmp,
        ⟨externalIp, .ofNat (Bytes.toNat (field 10 2 payload))⟩, fromSecs (Bytes.toNat (field 12 4 payload)), env.now⟩
  | upnp {env : PortMapEnv} {event : TcpEvent} {conn : TcpId} {deadline : Instant} {externalIp : IpAddr}
      (awaited : mapper.phase = .upnpMap conn deadline externalIp) (active : event.conn = conn) :
      Grants mapper (.tcp env event)
        ⟨.upnp, ⟨externalIp, mapper.config.internalPort⟩, fromSecs requestLifetimeSecs, env.now⟩

theorem reacts_onPcpResponse {source : SocketAddr} {attempt : Nat} {deadline : Instant} (payload : List UInt8)
    (awaited : mapper.phase = .pcp attempt deadline) (home : source.ip = mapper.config.gateway.ip) :
    Reacts (Grants mapper (.datagram env source payload)) mapper (mapper.onPcpResponse env payload) := by
  unfold onPcpResponse
  split
  · exact reacts_quiet (alike_malformed mapper)
  next response parsed =>
    dsimp only
    split
    · exact reacts_quiet (.refl mapper)
    next nonce =>
      split
      · exact (alike_denied mapper).reacts (climbs_sendNatPmpExternal mapper.denied env 0).reacts
      next accepted =>
        simp only [Bool.or_eq_true, not_or, decide_eq_true_eq, Decidable.not_not, Nat.not_lt] at accepted nonce
        exact reacts_grant env (.pcp awaited home parsed nonce accepted.1) accepted.2

theorem reacts_onNatPmpExternal (payload : List UInt8) :
    Reacts granted mapper (mapper.onNatPmpExternal env payload) := by
  unfold onNatPmpExternal
  split
  · split
    · exact (alike_denied mapper).reacts (climbs_sendSsdp mapper.denied env 0).reacts
    · exact (climbs_sendNatPmpMap mapper env 0 _).reacts
  · exact reacts_quiet (alike_malformed mapper)

theorem reacts_onNatPmpMap {source : SocketAddr} {attempt : Nat} {deadline : Instant} {externalIp : IpAddr}
    (payload : List UInt8) (awaited : mapper.phase = .natPmpMap attempt deadline externalIp)
    (home : source.ip = mapper.config.gateway.ip) :
    Reacts (Grants mapper (.datagram env source payload)) mapper (mapper.onNatPmpMap env payload externalIp) := by
  unfold onNatPmpMap
  split
  next shape =>
    dsimp only
    split
    · exact (alike_denied mapper).reacts (climbs_sendSsdp mapper.denied env 0).reacts
    next accepted =>
      simp only [Bool.or_eq_true, not_or, decide_eq_true_eq, Decidable.not_not, Nat.not_lt, Bool.and_eq_true]
        at accepted shape
      exact reacts_grant env (.natPmp awaited home shape accepted.1) accepted.2
  · exact reacts_quiet (alike_malformed mapper)

theorem reacts_onSsdpResponse (payload : List UInt8) : Reacts granted mapper (mapper.onSsdpResponse env payload) := by
  unfold onSsdpResponse
  split
  · exact reacts_quiet (alike_malformed mapper)
  next endpoint path _ =>
    split
    · exact reacts_quiet (alike_malformed mapper)
    next home =>
      have alike : Alike mapper { mapper with httpEndpoint := some endpoint, describePath := path } := by
        refine ⟨rfl, rfl, rfl, rfl, rfl, rfl, rfl, fun _ other same => ?_⟩
        rw [← Option.some.inj same]
        exact Decidable.not_not.mp home
      exact alike.reacts (climbs_sendUpnpDescribe _ env).reacts

theorem reacts_finishHttp {event : TcpEvent} (active : mapper.phase.conn = some event.conn) (bytes : List UInt8) :
    Reacts (Grants mapper (.tcp env event)) mapper ({ mapper with httpBuf := bytes }.finishHttp env) := by
  have emptied := alike_buffer mapper []
  unfold finishHttp
  dsimp only
  split
  · exact emptied.reacts (climbs_unusable _ env).reacts
  next status body _ =>
    split
    · unfold finishDescribe
      split
      · exact emptied.reacts (climbs_sendUpnpExternal _ env _).reacts
      · exact emptied.reacts (climbs_unusable _ env).reacts
    · unfold finishExternal
      split
      · exact emptied.reacts (climbs_sendUpnpMap _ env _ _).reacts
      · exact emptied.reacts (climbs_unusable _ env).reacts
    next conn deadline externalIp awaited =>
      unfold finishMap
      split
      · rw [awaited] at active
        exact emptied.reacts (reacts_grant env (.upnp awaited (Option.some.inj active).symm) (by decide))
      · exact emptied.reacts ((alike_denied _).reacts (climbs_ladderFailed _ env).reacts)
    · exact reacts_quiet emptied

theorem reacts_closing {conn : TcpId} (reacts : Reacts granted mapper result) :
    Reacts granted mapper (result.1, .tcpClosed conn :: result.2) := by
  refine ⟨reacts.config, reacts.mapped, reacts.pinPhase, reacts.pinhole, reacts.homed, fun pcp => ?_,
    fun homed action member => ?_⟩
  · refine (reacts.asks pcp).imp_right ?_
    rintro ⟨socket, bound, sent⟩
    exact ⟨socket, bound, List.mem_cons_of_mem _ sent⟩
  · rcases List.mem_cons.mp member with rfl | later
    · trivial
    · exact reacts.allowed homed action later

theorem reacts_onTcpEvent (mapper : PortMapper) (env : PortMapEnv) (event : TcpEvent) :
    Reacts (Grants mapper (.tcp env event)) mapper (mapper.onTcpEvent env event) := by
  unfold onTcpEvent
  split
  next active =>
    cases event with
    | connected conn => exact reacts_quiet (.refl mapper)
    | data conn bytes =>
      have buffered := alike_buffer mapper (mapper.httpBuf ++ bytes)
      dsimp only [onActiveTcpEvent]
      split
      · exact buffered.reacts ((alike_malformed _).reacts (climbs_giveUp _ env conn).reacts)
      split
      · exact reacts_closing (reacts_finishHttp active (mapper.httpBuf ++ bytes))
      · exact reacts_quiet buffered
    | closed conn =>
      dsimp only [onActiveTcpEvent]
      split
      · exact reacts_finishHttp active mapper.httpBuf
      · exact (alike_buffer mapper []).reacts (climbs_ladderFailed _ env).reacts
  · exact reacts_quiet (.refl mapper)

/-! ### Steps -/

theorem reacts_onDatagram (mapper : PortMapper) (env : PortMapEnv) {source : SocketAddr} {payload : List UInt8}
    (other : ¬ mapper.Pinholes (.datagram env source payload)) :
    Reacts (Grants mapper (.datagram env source payload)) mapper (mapper.onDatagram env source payload) := by
  unfold onDatagram
  split
  · exact reacts_quiet (.refl mapper)
  next home =>
    split
    next response found => exact absurd ⟨Decidable.not_not.mp home, by rw [found]; rfl⟩ other
    split
    next awaited => exact reacts_onPcpResponse payload awaited (Decidable.not_not.mp home)
    · exact reacts_onNatPmpExternal payload
    next awaited => exact reacts_onNatPmpMap payload awaited (Decidable.not_not.mp home)
    · exact reacts_onSsdpResponse payload
    · exact reacts_quiet (.refl mapper)

/-- The state of the HTTP conversation. -/
def httpState (mapper : PortMapper) : Option SocketAddr × Text × Option Text × List UInt8 :=
  (mapper.httpEndpoint, mapper.describePath, mapper.controlUrl, mapper.httpBuf)

/-- What a step may do. -/
structure Safe (mapper : PortMapper) (input : Input) (result : PortMapper × List PortMapAction) : Prop where
  allowed : ∀ action ∈ result.2, action.Allowed mapper.config.gateway
  mapped : result.1.mapped = mapper.mapped ∨
    (∃ env, input = .timer env ∧ result.1.mapped = dropExpired env.now mapper.mapped) ∨
    ∃ m, result.1.mapped = some m ∧ mapper.Grants input m ∧ minLease ≤ m.lease
  pinholes : mapper.Pinholes input →
    result.1.phase = mapper.phase ∧ result.1.mapped = mapper.mapped ∧ result.1.httpState = mapper.httpState
  others : (∀ env, input ≠ .timer env) → ¬ mapper.Pinholes input →
    result.1.pinPhase = mapper.pinPhase ∧ result.1.pinhole = mapper.pinhole

theorem Reacts.safe {input : Input} (reacts : Reacts (mapper.Grants input) mapper result) (homed : mapper.Homed)
    (other : ¬ mapper.Pinholes input) : Safe mapper input result :=
  ⟨reacts.allowed homed, reacts.mapped.imp_right .inr, fun pinholes => absurd pinholes other,
    fun _ _ => ⟨reacts.pinPhase, reacts.pinhole⟩⟩

theorem step_pinhole {source : SocketAddr} {payload : List UInt8}
    (pinholes : mapper.Pinholes (.datagram env source payload)) :
    ∃ response, mapper.step (.datagram env source payload) = (mapper.onPinholeResponse env response, []) := by
  obtain ⟨home, present⟩ := pinholes
  obtain ⟨response, found⟩ := Option.isSome_iff_exists.mp present
  refine ⟨response, ?_⟩
  rw [step, onDatagram, if_neg (not_not_intro home), found]

theorem rest_onPinholeResponse (mapper : PortMapper) (env : PortMapEnv) (response : PcpMapResponse) :
    ∃ denials pinPhase pinhole, mapper.onPinholeResponse env response = { mapper with
      denials := denials
      pinPhase := pinPhase
      pinhole := pinhole } := by
  dsimp only [onPinholeResponse]
  split
  · exact ⟨_, _, _, rfl⟩
  · exact ⟨_, _, _, rfl⟩

/-- The mapping and the pinhole are dropped once they have expired, then the ladder and the pinhole are driven. -/
theorem timer_spec (mapper : PortMapper) (env : PortMapEnv) :
    ∃ ladder : PortMapper × List PortMapAction, Climbs env { mapper with
        mapped := dropExpired env.now mapper.mapped
        pinhole := dropExpired env.now mapper.pinhole } ladder ∧
      Pins ladder.1 (ladder.1.drivePinhole env) ∧
      mapper.onTimer env = ((ladder.1.drivePinhole env).1, ladder.2 ++ (ladder.1.drivePinhole env).2) :=
  ⟨_, climbs_drivePhase _ env, pins_drivePinhole _ env, rfl⟩

theorem safe_step (homed : mapper.Homed) (input : Input) : Safe mapper input (mapper.step input) := by
  cases input with
  | timer env =>
    obtain ⟨ladder, climbs, pins, timed⟩ := timer_spec mapper env
    rw [step, timed]
    refine ⟨fun action member => ?_, .inr (.inl ⟨env, rfl, ?_⟩), fun pinholes => pinholes.elim,
      fun other => absurd rfl (other env)⟩
    · rcases List.mem_append.mp member with early | late
      · exact climbs.allowed homed action early
      · have allowed := pins.allowed action late
        rwa [climbs.config] at allowed
    · exact pins.mapped.trans climbs.mapped
  | datagram env source payload =>
    by_cases pinholes : mapper.Pinholes (.datagram env source payload)
    · obtain ⟨response, stepped⟩ := step_pinhole pinholes
      obtain ⟨_, _, _, moved⟩ := rest_onPinholeResponse mapper env response
      rw [stepped, moved]
      exact ⟨fun _ member => (List.not_mem_nil member).elim, .inl rfl, fun _ => ⟨rfl, rfl, rfl⟩,
        fun _ other => absurd pinholes other⟩
    · exact (reacts_onDatagram mapper env pinholes).safe homed pinholes
  | tcp env event => exact (reacts_onTcpEvent mapper env event).safe homed id

/-! ### Runs -/

/-- What holds of every mapper in use, with what it has done so far. -/
structure Sound (given : PortMapConfig) (mapper : PortMapper) (log : List PortMapAction) : Prop where
  config : mapper.config = given
  homed : mapper.Homed
  asked : mapper.phase.isPcp = true → ∃ socket, mapper.socket = some socket ∧
    .sent socket given.gateway mapper.pcpRequest ∈ log

theorem Asks.asked {config : PortMapConfig} {log : List PortMapAction} (asks : mapper.Asks result)
    (sound : Sound config mapper log) (pcp : result.1.phase.isPcp = true) :
    ∃ socket, result.1.socket = some socket ∧ .sent socket config.gateway result.1.pcpRequest ∈ log ++ result.2 := by
  rcases asks pcp with ⟨before, same, request⟩ | ⟨socket, bound, sent⟩
  · obtain ⟨socket, bound, sent⟩ := sound.asked before
    rw [same, request]
    exact ⟨socket, bound, List.mem_append_left _ sent⟩
  · rw [sound.config] at sent
    exact ⟨socket, bound, List.mem_append_right _ sent⟩

theorem Reacts.sound {config : PortMapConfig} {log : List PortMapAction} (reacts : Reacts granted mapper result)
    (sound : Sound config mapper log) : Sound config result.1 (log ++ result.2) :=
  ⟨reacts.config.trans sound.config, reacts.homed sound.homed, reacts.asks.asked sound⟩

theorem sound_step {config : PortMapConfig} {log : List PortMapAction} (sound : Sound config mapper log) (input : Input) :
    Sound config (mapper.step input).1 (log ++ (mapper.step input).2) := by
  cases input with
  | timer env =>
    obtain ⟨ladder, climbs, pins, timed⟩ := timer_spec mapper env
    rw [step, timed]
    have reacts : Reacts (fun _ => True) _ ladder := climbs.reacts
    have climbed : Sound config ladder.1 (log ++ ladder.2) :=
      reacts.sound ⟨sound.config, sound.homed, sound.asked⟩
    refine ⟨pins.config.trans climbed.config, fun endpoint found => ?_, fun pcp => ?_⟩
    · rw [pins.endpoint] at found
      rw [pins.config]
      exact climbed.homed endpoint found
    · rw [pins.phase] at pcp
      obtain ⟨socket, bound, sent⟩ := climbed.asked pcp
      obtain ⟨request, same⟩ := pins.request (by rw [bound]; rfl)
      rw [request, same, ← List.append_assoc]
      exact ⟨socket, bound, List.mem_append_left _ sent⟩
  | datagram env source payload =>
    by_cases pinholes : mapper.Pinholes (.datagram env source payload)
    · obtain ⟨response, stepped⟩ := step_pinhole pinholes
      obtain ⟨_, _, _, moved⟩ := rest_onPinholeResponse mapper env response
      rw [stepped, moved, List.append_nil]
      exact ⟨sound.config, sound.homed, sound.asked⟩
    · exact (reacts_onDatagram mapper env pinholes).sound sound
  | tcp env event => exact (reacts_onTcpEvent mapper env event).sound sound

theorem sound_run (config : PortMapConfig) (platform : Platform) (start : Instant) (inputs : List Input) :
    Sound config (run step (new config platform start) inputs).1 (run step (new config platform start) inputs).2 := by
  refine run_history (P := fun _ mapper log => Sound config mapper log) ⟨rfl, fun _ found => ?_, fun pcp => ?_⟩
    (fun _ _ _ input sound _ => sound_step sound input) inputs (meets_true inputs)
  · cases found
  · cases pcp

/-- Whatever the network sends, the port mapper only speaks to the gateway, takes a mapping only from the answer it waits
for, to a request it has sent, offers it while the lease lasts, and keeps the pinhole apart. -/
theorem port_mapper_safety (config : PortMapConfig) (platform : Platform) (start : Instant) (inputs : List Input) :
    let mapper := (run step (new config platform start) inputs).1
    mapper.config = config ∧ (∀ input, Safe mapper input (mapper.step input)) ∧
      (mapper.phase.isPcp = true → ∃ socket,
        .sent socket config.gateway mapper.pcpRequest ∈ (run step (new config platform start) inputs).2) ∧
      (∀ now external, mapper.mappedExternal now = some external →
        ∃ m, mapper.mapped = some m ∧ m.external = external ∧ now < m.grantedAt + m.lease) ∧
      (mapper.nonce ≠ mapper.nonceV6 → ∀ env source payload response, parsePcpMapResponse payload = some response →
        response.nonce = mapper.nonce → ¬ mapper.Pinholes (.datagram env source payload)) := by
  intro mapper
  have sound := sound_run config platform start inputs
  refine ⟨sound.config, safe_step sound.homed, fun pcp => ?_, fun now external offered => ?_, ?_⟩
  · obtain ⟨socket, _, sent⟩ := sound.asked pcp
    exact ⟨socket, sent⟩
  · obtain ⟨m, live, same⟩ := Option.map_eq_some_iff.mp offered
    obtain ⟨found, fresh⟩ := Option.filter_eq_some_iff.mp live
    refine ⟨m, found, same, ?_⟩
    simpa [Mapped.expired] using fresh
  · rintro apart env source payload response parsed own ⟨_, present⟩
    rw [pinholeResponse, parsed, Option.filter_some, own, if_neg (by simpa using apart)] at present
    cases present

end Lightbringer.Overlay.PortMap.PortMapper
