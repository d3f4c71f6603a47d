import Lightbringer.Overlay.PortMapSafety

/-!
# Deadlines of the port mapper

Every rung of the ladder and every step of the pinhole waits until a time ahead of now. Where there is no v6 socket the
pinhole is not driven at all, so it must not be waiting then.
-/

namespace Lightbringer.Overlay.PortMap.PortMapper
open Machine

variable {mapper : PortMapper} {env : PortMapEnv} {now : Instant}

/-- Neither the ladder nor the pinhole is due. -/
structure Ahead (mapper : PortMapper) (now : Instant) : Prop where
  phase : now < mapper.phase.deadline
  pin : ∀ due, mapper.pinPhase.deadline = some due → now < due

theorem lt_pollTimeout_iff (mapper : PortMapper) (now : Instant) : now < mapper.pollTimeout ↔ mapper.Ahead now := by
  unfold pollTimeout
  cases pin : mapper.pinPhase.deadline with
  | none => exact ⟨fun ahead => ⟨ahead, by simp [pin]⟩, Ahead.phase⟩
  | some due =>
    dsimp only
    rw [lt_min_iff]
    constructor
    · rintro ⟨phase, ahead⟩
      refine ⟨phase, fun other same => ?_⟩
      rw [pin] at same
      cases same
      exact ahead
    · exact fun held => ⟨held.phase, held.pin due pin⟩

theorem Climbs.ahead {result : PortMapper × List PortMapAction} (climbs : Climbs env mapper result)
    (held : mapper.Ahead env.now) : result.1.Ahead env.now := by
  refine ⟨climbs.phase, ?_⟩
  rw [climbs.pinPhase]
  exact held.pin

/-- A mapper without a v6 socket has no pinhole that is due. -/
def PinIdle (mapper : PortMapper) (now : Instant) : Prop :=
  mapper.config.internalV6 = none → ∀ due, mapper.pinPhase.deadline = some due → now < due

theorem sendPinhole_ahead (held : env.now < mapper.phase.deadline) (attempt : Nat) (internalV6 : SocketAddr) :
    (mapper.sendPinhole env attempt internalV6).1.Ahead env.now := by
  obtain ⟨⟨_, _, _, _, rest⟩, _⟩ := rest_ensureSocket mapper env
  unfold sendPinhole
  split
  next bound =>
    rw [bound] at rest
    cases rest
    refine ⟨held, fun due same => ?_⟩
    cases same
    exact later_retry env.now
  next bound =>
    rw [bound] at rest
    cases rest
    refine ⟨held, fun due same => ?_⟩
    cases same
    exact Nat.lt_add_of_pos_right (by decide)

theorem drivePinhole_ahead (held : env.now < mapper.phase.deadline) (idle : mapper.PinIdle env.now) :
    (mapper.drivePinhole env).1.Ahead env.now := by
  unfold drivePinhole
  split
  next internalV6 due _ pin =>
    split
    · exact sendPinhole_ahead held 0 internalV6
    next waiting =>
      refine ⟨held, fun other same => ?_⟩
      rw [pin] at same
      cases same
      exact Nat.not_le.mp waiting
  next internalV6 attempt deadline _ pin =>
    split
    · unfold retry
      split
      · exact sendPinhole_ahead held _ internalV6
      · refine ⟨held, fun other same => ?_⟩
        cases same
        exact later_retry env.now
    next waiting =>
      refine ⟨held, fun other same => ?_⟩
      rw [pin] at same
      cases same
      exact Nat.not_le.mp waiting
  next notIdle notWaiting =>
    refine ⟨held, fun due same => ?_⟩
    cases v6 : mapper.config.internalV6 with
    | none => exact idle v6 due same
    | some internalV6 =>
      cases pin : mapper.pinPhase with
      | off =>
        rw [pin] at same
        cases same
      | idle due => exact (notIdle internalV6 due v6 pin).elim
      | wait attempt deadline => exact (notWaiting internalV6 attempt deadline v6 pin).elim

theorem ahead_onTimer (mapper : PortMapper) (idle : mapper.PinIdle env.now) :
    (mapper.onTimer env).1.Ahead env.now := by
  have climbs := climbs_drivePhase { mapper with
    mapped := dropExpired env.now mapper.mapped
    pinhole := dropExpired env.now mapper.pinhole } env
  have still : PinIdle (drivePhase { mapper with
      mapped := dropExpired env.now mapper.mapped
      pinhole := dropExpired env.now mapper.pinhole } env).1 env.now := by
    intro none due same
    rw [climbs.config] at none
    rw [climbs.pinPhase] at same
    exact idle none due same
  exact drivePinhole_ahead climbs.phase still

/-- Otherwise the driver is woken at once. -/
theorem lt_pollTimeout_onTimer_iff (mapper : PortMapper) (env : PortMapEnv) :
    env.now < (mapper.onTimer env).1.pollTimeout ↔ mapper.PinIdle env.now := by
  rw [lt_pollTimeout_iff]
  constructor
  · intro ahead none due same
    have climbs := climbs_drivePhase { mapper with
      mapped := dropExpired env.now mapper.mapped
      pinhole := dropExpired env.now mapper.pinhole } env
    apply ahead.pin due
    dsimp only [onTimer, drivePinhole]
    rw [climbs.config, none]
    dsimp only
    rw [climbs.pinPhase]
    exact same
  · exact ahead_onTimer mapper

theorem later_half {lease now : Nat} (long : minLease ≤ lease) : now < now + lease / 2 := by
  have some : 2 ≤ minLease := by decide
  omega

theorem ahead_grant (held : mapper.Ahead env.now) (protocol : MapProtocol) (external : SocketAddr) {lease : Nat}
    (long : minLease ≤ lease) : (mapper.grant env protocol external lease).Ahead env.now :=
  ⟨later_half long, held.pin⟩

theorem ahead_onPcpResponse (held : mapper.Ahead env.now) (payload : List UInt8) :
    (mapper.onPcpResponse env payload).1.Ahead env.now := by
  unfold onPcpResponse
  split
  · exact ⟨held.phase, held.pin⟩
  dsimp only
  split
  · exact held
  split
  · exact (climbs_sendNatPmpExternal mapper.denied env 0).ahead ⟨held.phase, held.pin⟩
  next granted =>
    rw [Bool.or_eq_true, not_or] at granted
    exact ahead_grant held _ _ (Nat.not_lt.mp (fun short => granted.2 (decide_eq_true short)))

theorem ahead_onPinholeResponse (held : mapper.Ahead env.now) (response : PcpMapResponse) :
    (mapper.onPinholeResponse env response).Ahead env.now := by
  dsimp only [onPinholeResponse]
  split
  · refine ⟨held.phase, fun due same => ?_⟩
    cases same
    exact later_retry env.now
  next granted =>
    rw [Bool.or_eq_true, not_or] at granted
    refine ⟨held.phase, fun due same => ?_⟩
    cases same
    exact later_half (Nat.not_lt.mp (fun short => granted.2 (decide_eq_true short)))

theorem ahead_onNatPmpExternal (held : mapper.Ahead env.now) (payload : List UInt8) :
    (mapper.onNatPmpExternal env payload).1.Ahead env.now := by
  unfold onNatPmpExternal
  split
  · split
    · exact (climbs_sendSsdp mapper.denied env 0).ahead ⟨held.phase, held.pin⟩
    · exact (climbs_sendNatPmpMap mapper env 0 _).ahead held
  · exact ⟨held.phase, held.pin⟩

theorem ahead_onNatPmpMap (held : mapper.Ahead env.now) (payload : List UInt8) (externalIp : IpAddr) :
    (mapper.onNatPmpMap env payload externalIp).1.Ahead env.now := by
  unfold onNatPmpMap
  split
  · dsimp only
    split
    · exact (climbs_sendSsdp mapper.denied env 0).ahead ⟨held.phase, held.pin⟩
    next granted =>
      rw [Bool.or_eq_true, not_or] at granted
      exact ahead_grant held _ _ (Nat.not_lt.mp (fun short => granted.2 (decide_eq_true short)))
  · exact ⟨held.phase, held.pin⟩

theorem ahead_onSsdpResponse (held : mapper.Ahead env.now) (payload : List UInt8) :
    (mapper.onSsdpResponse env payload).1.Ahead env.now := by
  unfold onSsdpResponse
  split
  · exact ⟨held.phase, held.pin⟩
  next endpoint path _ =>
    split
    · exact ⟨held.phase, held.pin⟩
    · exact (climbs_sendUpnpDescribe _ env).ahead ⟨held.phase, held.pin⟩

theorem ahead_onDatagram (held : mapper.Ahead env.now) (source : SocketAddr) (payload : List UInt8) :
    (mapper.onDatagram env source payload).1.Ahead env.now := by
  unfold onDatagram
  split
  · exact held
  split
  next response _ => exact ahead_onPinholeResponse held response
  split
  · exact ahead_onPcpResponse held payload
  · exact ahead_onNatPmpExternal held payload
  · exact ahead_onNatPmpMap held payload _
  · exact ahead_onSsdpResponse held payload
  · exact held

theorem ahead_finishHttp (held : mapper.Ahead env.now) : (mapper.finishHttp env).1.Ahead env.now := by
  have emptied : Ahead { mapper with httpBuf := [] } env.now := ⟨held.phase, held.pin⟩
  unfold finishHttp
  dsimp only
  split
  · exact (climbs_unusable _ env).ahead emptied
  next status body _ =>
    split
    · unfold finishDescribe
      split
      · exact (climbs_sendUpnpExternal _ env _).ahead emptied
      · exact (climbs_unusable _ env).ahead emptied
    · unfold finishExternal
      split
      · exact (climbs_sendUpnpMap _ env _ _).ahead emptied
      · exact (climbs_unusable _ env).ahead emptied
    · unfold finishMap
      split
      · exact ahead_grant emptied _ _ (by decide)
      · exact ⟨later_retry env.now, held.pin⟩
    · exact emptied

theorem ahead_onTcpEvent (held : mapper.Ahead env.now) (event : TcpEvent) :
    (mapper.onTcpEvent env event).1.Ahead env.now := by
  unfold onTcpEvent
  split
  · cases event with
    | connected conn => exact held
    | data conn bytes =>
      dsimp only [onActiveTcpEvent]
      split
      · exact ⟨later_retry env.now, held.pin⟩
      split
      · have buffered : Ahead { mapper with httpBuf := mapper.httpBuf ++ bytes } env.now := ⟨held.phase, held.pin⟩
        exact ahead_finishHttp buffered
      · exact ⟨held.phase, held.pin⟩
    | closed conn =>
      dsimp only [onActiveTcpEvent]
      split
      · exact ahead_finishHttp held
      · exact ⟨later_retry env.now, held.pin⟩
  · exact held

/-! ### Runs -/

/-- Without a v6 socket there is no pinhole. -/
def NoPinhole (mapper : PortMapper) : Prop := mapper.config.internalV6 = none → mapper.pinPhase = .off

/-- An answer to a pinhole request only comes to a mapper that makes them. -/
def Solicited (mapper : PortMapper) (input : Input) : Prop := mapper.config.internalV6.isSome ∨ ¬ mapper.Pinholes input

theorem noPinhole_onTimer (mapper : PortMapper) (env : PortMapEnv) (held : mapper.NoPinhole) :
    (mapper.onTimer env).1.NoPinhole := by
  have climbs := climbs_drivePhase { mapper with
    mapped := dropExpired env.now mapper.mapped
    pinhole := dropExpired env.now mapper.pinhole } env
  have pins := pins_drivePinhole (drivePhase { mapper with
    mapped := dropExpired env.now mapper.mapped
    pinhole := dropExpired env.now mapper.pinhole } env).1 env
  intro none
  have before : mapper.config.internalV6 = Option.none := by
    rw [← none]
    exact (congrArg PortMapConfig.internalV6 (pins.config.trans climbs.config)).symm
  dsimp only [onTimer, drivePinhole]
  rw [climbs.config, before]
  exact climbs.pinPhase.trans (held before)

theorem Reacts.noPinhole {granted : Mapped → Prop} {result : PortMapper × List PortMapAction}
    (reacts : Reacts granted mapper result) (held : mapper.NoPinhole) : result.1.NoPinhole := by
  intro none
  rw [reacts.config] at none
  exact reacts.pinPhase.trans (held none)

theorem noPinhole_step {input : Input} (held : mapper.NoPinhole) (solicited : mapper.Solicited input) :
    (mapper.step input).1.NoPinhole := by
  cases input with
  | timer env => exact noPinhole_onTimer mapper env held
  | datagram env source payload =>
    by_cases pinholes : mapper.Pinholes (.datagram env source payload)
    · obtain ⟨response, stepped⟩ := step_pinhole pinholes
      obtain ⟨_, _, _, moved⟩ := rest_onPinholeResponse mapper env response
      have v6 := solicited.resolve_right (not_not_intro pinholes)
      rw [stepped, moved]
      intro none
      rw [show mapper.config.internalV6 = Option.none from none] at v6
      cases v6
    · exact (reacts_onDatagram mapper env pinholes).noPinhole held
  | tcp env event => exact (reacts_onTcpEvent mapper env event).noPinhole held

theorem noPinhole_run {start : PortMapper} (held : start.NoPinhole) (inputs : List Input)
    (met : Meets step Solicited start inputs) : (run step start inputs).1.NoPinhole :=
  run_invariant held (fun _ _ held solicited => noPinhole_step held solicited) inputs met

theorem noPinhole_new (config : PortMapConfig) (platform : Platform) (start : Instant) :
    (new config platform start).NoPinhole := by
  intro none
  rw [new, if_neg (by rw [show config.internalV6 = Option.none from none]; exact Bool.false_ne_true)]

/-- An unsolicited answer sets a time that nothing moves on from. -/
theorem solicited_of_pinIdle {input : Input} (idle : ∀ now, (mapper.step input).1.PinIdle now) :
    mapper.Solicited input := by
  rw [Solicited, or_iff_not_imp_right, not_not]
  intro pinholes
  cases input with
  | timer env => exact pinholes.elim
  | tcp env event => exact pinholes.elim
  | datagram env source payload =>
    have ⟨response, stepped⟩ := step_pinhole pinholes
    by_contra none
    rw [Option.not_isSome_iff_eq_none] at none
    have due : ∃ due, (mapper.onPinholeResponse env response).pinPhase = .idle due := by
      dsimp only [onPinholeResponse]
      split
      · exact ⟨_, rfl⟩
      · exact ⟨_, rfl⟩
    obtain ⟨due, pin⟩ := due
    obtain ⟨_, _, _, moved⟩ := rest_onPinholeResponse mapper env response
    have stuck := idle due
    rw [stepped] at stuck
    refine absurd (stuck ?_ due (congrArg PinPhase.deadline pin)) (Nat.lt_irrefl due)
    rw [moved]
    exact none

/-- The driver can sleep after every call, exactly if no answer to a pinhole request comes that a mapper without a v6
socket did not make. -/
theorem port_mapper_sleeps_iff (config : PortMapConfig) (platform : Platform) (start : Instant) (inputs : List Input) :
    (∀ before, before <+: inputs → ∀ env : PortMapEnv,
      env.now < ((run step (new config platform start) before).1.onTimer env).1.pollTimeout) ↔
        Meets step Solicited (new config platform start) inputs := by
  simp only [lt_pollTimeout_onTimer_iff]
  constructor
  · intro sleeps
    refine (meets_iff_prefixes inputs).mpr (fun before input after split => solicited_of_pinIdle (fun now => ?_))
    have prefixed : before ++ [input] <+: inputs := ⟨after, by rw [split, List.append_assoc]; rfl⟩
    have idle := sleeps (before ++ [input]) prefixed ⟨now, [], [], none⟩
    rwa [run_concat] at idle
  · rintro met before ⟨after, rfl⟩ env none due same
    have held := noPinhole_run (noPinhole_new config platform start) before ((meets_append before after).mp met).1
    rw [held none] at same
    cases same

/-! An answer without a request. -/

/-- A host without a v6 socket. -/
def legacyConfig : PortMapConfig where
  gateway := ⟨.v4 0xC0A80001, 5351⟩
  internalPort := 9000
  internalIp := .v4 0xC0A80002
  internalV6 := none

def legacyEnv (secs : Nat) : PortMapEnv := ⟨fromSecs secs, List.replicate 12 1, List.replicate 12 2, none⟩

/-- The gateway grants a pinhole for 30 s. -/
def unasked : List UInt8 :=
  [2, 0x81, 0, 0] ++ Bytes.ofNat 4 30 ++ List.replicate 16 0 ++ List.replicate 12 2 ++ [17, 0, 0, 0] ++
    Bytes.ofNat 2 9000 ++ Bytes.ofNat 2 9000 ++ List.replicate 16 0

/-- After 20 s the mapper is due, and on_timer leaves it so. -/
theorem unasked_pinhole_stays_due :
    let mapper := (run step (new legacyConfig ⟨0, [true], []⟩ 0) [.timer (legacyEnv 0),
      .datagram (legacyEnv 1) legacyConfig.gateway unasked]).1
    ¬ (legacyEnv 20).now < (mapper.onTimer (legacyEnv 20)).1.pollTimeout := by
  decide +kernel

end Lightbringer.Overlay.PortMap.PortMapper
