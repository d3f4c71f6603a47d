import Lightbringer.Overlay.PortMapSteps

/-!
# Whose connections are open

Beside the mapper runs a ledger of the connections it has opened that neither it nor the gateway has closed. The ledger
is the connection of the phase, and between two exchanges nothing is left in the buffer.
-/

namespace Lightbringer.Overlay.PortMap
open Machine

/-- What an action does to the ledger. -/
def settle (opened : List TcpId) : PortMapAction → List TcpId
  | .connected conn _ _ => opened ++ [conn]
  | .tcpClosed conn => opened.filter (fun other => other ≠ conn)
  | .bound _ | .sent .. => opened

/-- A connection that is reported closed is struck off before the mapper sees the report. -/
def strike (opened : List TcpId) : Input → List TcpId
  | .tcp _ (.closed conn) => opened.filter (fun other => other ≠ conn)
  | _ => opened

structure Owner where
  mapper : PortMapper
  opened : List TcpId

namespace Owner

def new (config : PortMapConfig) (platform : Platform) (now : Instant) : Owner := ⟨.new config platform now, []⟩

def step (owner : Owner) (input : Input) : Owner × List PortMapAction :=
  let (mapper, actions) := owner.mapper.step input
  (⟨mapper, actions.foldl settle (strike owner.opened input)⟩, actions)

end Owner

namespace PortMapper

variable {mapper : PortMapper} {env : PortMapEnv}

/-- The ledger after a step that began with `opened`. -/
structure Settles (opened : List TcpId) (result : PortMapper × List PortMapAction) : Prop where
  ledger : result.2.foldl settle opened = result.1.phase.conn.toList
  idle : result.1.phase.conn = none → result.1.httpBuf = []
  opens : ∀ conn dest request, .connected conn dest request ∈ result.2 → result.1.httpBuf = []

/-- Actions on datagrams. -/
def Datagrams (actions : List PortMapAction) : Prop :=
  ∀ action ∈ actions, ∀ opened, settle opened action = opened ∧ ∀ conn dest request, action ≠ .connected conn dest request

theorem Datagrams.foldl {actions : List PortMapAction} (datagrams : Datagrams actions) (opened : List TcpId) :
    actions.foldl settle opened = opened := by
  induction actions with
  | nil => rfl
  | cons action rest ih =>
    rw [List.foldl_cons, (datagrams action (List.mem_cons_self ..) opened).1]
    exact ih (fun other member => datagrams other (List.mem_cons_of_mem _ member))

theorem settles_datagrams {result : PortMapper × List PortMapAction} (datagrams : Datagrams result.2)
    (none : result.1.phase.conn = none) (clear : result.1.httpBuf = []) : Settles [] result := by
  refine ⟨?_, fun _ => clear, fun _ _ _ _ => clear⟩
  rw [datagrams.foldl, none]
  rfl

theorem datagrams_nil : Datagrams [] := nofun

theorem datagrams_ensureSocket (mapper : PortMapper) (env : PortMapEnv) : Datagrams (mapper.ensureSocket env).2.2 := by
  unfold ensureSocket Datagrams
  split
  · simp
  · split <;> simp [settle]

theorem httpBuf_ensureSocket (mapper : PortMapper) (env : PortMapEnv) :
    (mapper.ensureSocket env).1.httpBuf = mapper.httpBuf ∧ (mapper.ensureSocket env).1.phase = mapper.phase := by
  obtain ⟨⟨_, _, _, _, rest⟩, _⟩ := rest_ensureSocket mapper env
  rw [rest]
  exact ⟨rfl, rfl⟩

/-! ### Rungs -/

theorem settles_ladderFailed (clear : mapper.httpBuf = []) : Settles [] (mapper.ladderFailed env, []) :=
  settles_datagrams datagrams_nil rfl clear

theorem settles_sendStep (clear : mapper.httpBuf = []) (env : PortMapEnv) (dest : SocketAddr)
    (raw : PortMapper → List UInt8) {phase : Instant → Phase} (none : ∀ deadline, (phase deadline).conn = none) :
    Settles [] (mapper.sendStep env dest raw phase) := by
  have bound := datagrams_ensureSocket mapper env
  have buffer := (httpBuf_ensureSocket mapper env).1
  unfold sendStep
  split
  next ensured =>
    rw [ensured] at bound buffer
    exact settles_datagrams bound rfl (buffer.trans clear)
  next ensured =>
    rw [ensured] at bound buffer
    refine settles_datagrams (fun action member => ?_) (none _) (buffer.trans clear)
    rcases List.mem_append.mp member with early | last
    · exact bound action early
    · rw [List.mem_singleton.mp last]
      exact fun _ => ⟨rfl, nofun⟩

theorem settles_sendHttp (clear : mapper.httpBuf = []) (env : PortMapEnv) (request : HttpRequest)
    (control : Option Text) {phase : TcpId → Instant → Phase}
    (waits : ∀ conn deadline, (phase conn deadline).conn = some conn) :
    Settles [] (mapper.sendHttp env request control phase) := by
  unfold sendHttp
  split
  next endpoint conn _ _ =>
    refine ⟨?_, fun _ => rfl, fun _ _ _ _ => rfl⟩
    dsimp only
    rw [waits]
    rfl
  · exact settles_ladderFailed clear

section
variable (clear : mapper.httpBuf = []) (env : PortMapEnv)
include clear

theorem settles_sendPcpMap (attempt : Nat) : Settles [] (mapper.sendPcpMap env attempt) :=
  settles_sendStep clear env _ _ (fun _ => rfl)

theorem settles_sendNatPmpExternal (attempt : Nat) : Settles [] (mapper.sendNatPmpExternal env attempt) :=
  settles_sendStep clear env _ _ (fun _ => rfl)

theorem settles_sendNatPmpMap (attempt : Nat) (externalIp : IpAddr) :
    Settles [] (mapper.sendNatPmpMap env attempt externalIp) := settles_sendStep clear env _ _ (fun _ => rfl)

theorem settles_sendSsdp (attempt : Nat) : Settles [] (mapper.sendSsdp env attempt) :=
  settles_sendStep clear env _ _ (fun _ => rfl)

theorem settles_sendUpnpDescribe : Settles [] (mapper.sendUpnpDescribe env) := settles_sendHttp clear env _ _ (fun _ _ => rfl)

theorem settles_sendUpnpMap (control : Text) (externalIp : IpAddr) :
    Settles [] (mapper.sendUpnpMap env control externalIp) := settles_sendHttp clear env _ _ (fun _ _ => rfl)

theorem settles_startLadderOrRenew : Settles [] (mapper.startLadderOrRenew env) := by
  unfold startLadderOrRenew
  split
  · exact settles_sendPcpMap clear env 0
  split
  · exact settles_sendPcpMap clear env 0
  · exact settles_sendNatPmpMap clear env 0 _
  split
  · exact settles_sendUpnpMap clear env _ _
  · exact settles_sendSsdp clear env 0

end

theorem settles_retry {opened : List TcpId} {attempt : Nat} {again : Nat → PortMapper × List PortMapAction}
    {next : PortMapper × List PortMapAction} (retries : ∀ attempt, Settles opened (again attempt))
    (falls : Settles opened next) : Settles opened (retry attempt again next) := by
  unfold retry
  split
  · exact retries _
  · exact falls

theorem strike_self (conn : TcpId) : [conn].filter (fun other => other ≠ conn) = [] := by simp

theorem Settles.after_close {conn : TcpId} {result : PortMapper × List PortMapAction} (settles : Settles [] result) :
    Settles [conn] (result.1, .tcpClosed conn :: result.2) := by
  refine ⟨?_, settles.idle, fun opened dest request member => ?_⟩
  · rw [List.foldl_cons, settle, strike_self]
    exact settles.ledger
  · exact settles.opens opened dest request ((List.mem_cons.mp member).resolve_left nofun)

theorem settles_giveUp (clear : mapper.httpBuf = []) (env : PortMapEnv) (conn : TcpId) :
    Settles [conn] (mapper.ladderFailed env, [.tcpClosed conn]) := (settles_ladderFailed clear).after_close

/-- What the ledger says of a mapper. -/
structure Owns (mapper : PortMapper) (opened : List TcpId) : Prop where
  ledger : opened = mapper.phase.conn.toList
  clear : mapper.phase.conn = none → mapper.httpBuf = []

theorem Settles.owns {opened : List TcpId} {result : PortMapper × List PortMapAction} (settles : Settles opened result) :
    Owns result.1 (result.2.foldl settle opened) := ⟨settles.ledger, settles.idle⟩

theorem Owns.settles {opened : List TcpId} (owns : Owns mapper opened) {result : PortMapper × List PortMapAction}
    (datagrams : Datagrams result.2) (phase : result.1.phase = mapper.phase) (buffer : result.1.httpBuf = mapper.httpBuf) :
    Settles opened result := by
  refine ⟨?_, fun none => ?_, fun conn dest request member => ?_⟩
  · rw [datagrams.foldl, phase, owns.ledger]
  · rw [buffer]
    exact owns.clear (phase ▸ none)
  · exact ((datagrams _ member []).2 conn dest request rfl).elim

theorem settles_drivePhase {opened : List TcpId} (owns : Owns mapper opened) (env : PortMapEnv) :
    Settles opened (mapper.drivePhase env) := by
  unfold drivePhase
  split
  · exact owns.settles datagrams_nil rfl rfl
  · obtain ⟨rfl, clear⟩ := owns
    split
    next phase => rw [phase] at clear ⊢; exact settles_startLadderOrRenew (clear rfl) env
    next phase =>
      rw [phase] at clear ⊢
      exact settles_retry (settles_sendPcpMap (clear rfl) env) (settles_sendNatPmpExternal (clear rfl) env 0)
    next phase =>
      rw [phase] at clear ⊢
      exact settles_retry (settles_sendNatPmpExternal (clear rfl) env) (settles_sendSsdp (clear rfl) env 0)
    next externalIp phase =>
      rw [phase] at clear ⊢
      exact settles_retry (fun attempt => settles_sendNatPmpMap (clear rfl) env attempt externalIp)
        (settles_sendSsdp (clear rfl) env 0)
    next phase =>
      rw [phase] at clear ⊢
      exact settles_retry (settles_sendSsdp (clear rfl) env) (settles_ladderFailed (clear rfl))
    next phase => rw [phase]; exact settles_giveUp rfl env _
    next phase => rw [phase]; exact settles_giveUp rfl env _
    next phase => rw [phase]; exact settles_giveUp rfl env _

/-! ### Timers -/

/-- The pinhole talks over datagrams and leaves the ladder alone. -/
structure Aside (mapper : PortMapper) (result : PortMapper × List PortMapAction) : Prop where
  datagrams : Datagrams result.2
  phase : result.1.phase = mapper.phase
  buffer : result.1.httpBuf = mapper.httpBuf

theorem aside_quiet (mapper : PortMapper) (pinPhase : PinPhase) : Aside mapper ({ mapper with pinPhase := pinPhase }, []) :=
  ⟨datagrams_nil, rfl, rfl⟩

theorem aside_sendPinhole (mapper : PortMapper) (env : PortMapEnv) (attempt : Nat) (internalV6 : SocketAddr) :
    Aside mapper (mapper.sendPinhole env attempt internalV6) := by
  have bound := datagrams_ensureSocket mapper env
  obtain ⟨buffer, phase⟩ := httpBuf_ensureSocket mapper env
  unfold sendPinhole
  split
  next ensured =>
    rw [ensured] at bound buffer phase
    exact ⟨bound, phase, buffer⟩
  next ensured =>
    rw [ensured] at bound buffer phase
    refine ⟨fun action member => ?_, phase, buffer⟩
    rcases List.mem_append.mp member with early | last
    · exact bound action early
    · rw [List.mem_singleton.mp last]
      exact fun _ => ⟨rfl, nofun⟩

theorem aside_drivePinhole (mapper : PortMapper) (env : PortMapEnv) : Aside mapper (mapper.drivePinhole env) := by
  have still : Aside mapper (mapper, []) := ⟨datagrams_nil, rfl, rfl⟩
  unfold drivePinhole
  split
  · split
    · exact aside_sendPinhole mapper env 0 _
    · exact still
  · split
    · unfold retry
      split
      · exact aside_sendPinhole mapper env _ _
      · exact aside_quiet mapper _
    · exact still
  · exact still

theorem settles_onTimer {opened : List TcpId} (owns : Owns mapper opened) (env : PortMapEnv) :
    Settles opened (mapper.onTimer env) := by
  have pruned : Owns { mapper with
      mapped := dropExpired env.now mapper.mapped, pinhole := dropExpired env.now mapper.pinhole } opened :=
    ⟨owns.ledger, owns.clear⟩
  have ladder := settles_drivePhase pruned env
  unfold onTimer
  dsimp only at ladder ⊢
  generalize PortMapper.drivePhase _ env = climbed at ladder ⊢
  have pin := aside_drivePinhole climbed.1 env
  refine ⟨?_, fun none => ?_, fun conn dest request member => ?_⟩
  · rw [List.foldl_append, pin.datagrams.foldl, pin.phase, ladder.ledger]
  · rw [pin.buffer]
    exact ladder.idle (pin.phase ▸ none)
  · rw [pin.buffer]
    rcases List.mem_append.mp member with climbing | pinning
    · exact ladder.opens conn dest request climbing
    · exact ((pin.datagrams _ pinning []).2 conn dest request rfl).elim

/-! ### Datagrams -/

theorem httpBuf_denied (clear : mapper.httpBuf = []) : mapper.denied.httpBuf = [] := clear

theorem settles_onSsdpResponse (clear : mapper.httpBuf = []) (none : mapper.phase.conn = none) (env : PortMapEnv)
    (payload : List UInt8) : Settles [] (mapper.onSsdpResponse env payload) := by
  unfold onSsdpResponse
  split
  · exact settles_datagrams datagrams_nil none clear
  next endpoint path _ =>
    split
    · exact settles_datagrams datagrams_nil none clear
    · have located : ({ mapper with httpEndpoint := some endpoint, describePath := path } : PortMapper).httpBuf = [] := clear
      exact settles_sendUpnpDescribe located env

theorem settles_onDatagram {opened : List TcpId} (owns : Owns mapper opened) (env : PortMapEnv) (source : SocketAddr)
    (payload : List UInt8) : Settles opened (mapper.onDatagram env source payload) := by
  have still : ∀ other : PortMapper, other.phase = mapper.phase → other.httpBuf = mapper.httpBuf →
      Settles opened (other, []) := fun other phase buffer => owns.settles datagrams_nil phase buffer
  unfold onDatagram
  split
  · exact still mapper rfl rfl
  split
  · refine still _ ?_ ?_
    · unfold onPinholeResponse
      dsimp only
      split <;> rfl
    · unfold onPinholeResponse
      dsimp only
      split <;> rfl
  · obtain ⟨rfl, clear⟩ := owns
    split
    next phase =>
      rw [phase] at clear still ⊢
      unfold onPcpResponse
      split
      · exact still _ phase rfl
      · dsimp only
        split
        · exact still _ phase rfl
        split
        · exact settles_sendNatPmpExternal (httpBuf_denied (clear rfl)) env 0
        · exact settles_datagrams datagrams_nil rfl (clear rfl)
    next phase =>
      rw [phase] at clear still ⊢
      unfold onNatPmpExternal
      split
      · split
        · exact settles_sendSsdp (httpBuf_denied (clear rfl)) env 0
        · exact settles_sendNatPmpMap (clear rfl) env 0 _
      · exact still _ phase rfl
    next phase =>
      rw [phase] at clear still ⊢
      unfold onNatPmpMap
      split
      · dsimp only
        split
        · exact settles_sendSsdp (httpBuf_denied (clear rfl)) env 0
        · exact settles_datagrams datagrams_nil rfl (clear rfl)
      · exact still _ phase rfl
    next phase =>
      rw [phase] at clear ⊢
      exact settles_onSsdpResponse (clear rfl) (by rw [phase]; rfl) env payload
    next => exact still mapper rfl rfl

/-! ### Connections -/

theorem settles_unusable (clear : mapper.httpBuf = []) (env : PortMapEnv) : Settles [] (mapper.unusable env) :=
  settles_datagrams datagrams_nil rfl clear

theorem settles_finishDescribe (clear : mapper.httpBuf = []) (env : PortMapEnv) (status : UInt16) (body : Text) :
    Settles [] (mapper.finishDescribe env status body) := by
  unfold finishDescribe
  split
  · exact settles_sendHttp clear env _ _ (fun _ _ => rfl)
  · exact settles_unusable clear env

theorem settles_finishExternal (clear : mapper.httpBuf = []) (env : PortMapEnv) (status : UInt16) (body : Text) :
    Settles [] (mapper.finishExternal env status body) := by
  unfold finishExternal
  split
  · exact settles_sendUpnpMap clear env _ _
  · exact settles_unusable clear env

theorem settles_finishMap (clear : mapper.httpBuf = []) (env : PortMapEnv) (status : UInt16) (body : Text)
    (externalIp : IpAddr) : Settles [] (mapper.finishMap env status body externalIp) := by
  unfold finishMap
  split
  · exact settles_datagrams datagrams_nil rfl clear
  · exact settles_datagrams datagrams_nil rfl clear

/-- What follows an exchange that is over: its connection is gone already. -/
theorem settles_finishHttp (active : mapper.phase.conn ≠ none) (env : PortMapEnv) : Settles [] (mapper.finishHttp env) := by
  have clear : ({ mapper with httpBuf := [] } : PortMapper).httpBuf = [] := rfl
  unfold finishHttp
  dsimp only
  split
  · exact settles_unusable clear env
  · cases phase : mapper.phase with
    | upnpDescribe conn deadline => exact settles_finishDescribe clear env _ _
    | upnpExternal conn deadline => exact settles_finishExternal clear env _ _
    | upnpMap conn deadline externalIp => exact settles_finishMap clear env _ _ externalIp
    | _ =>
      rw [phase] at active
      exact (active rfl).elim

theorem settles_onTcpEvent {opened : List TcpId} (owns : Owns mapper opened) (env : PortMapEnv) (event : TcpEvent) :
    Settles (strike opened (.tcp env event)) (mapper.onTcpEvent env event) := by
  obtain ⟨rfl, clear⟩ := owns
  unfold onTcpEvent
  split
  next current =>
    have active : mapper.phase.conn ≠ none := by simp [current]
    have owns : Owns mapper [event.conn] := ⟨by rw [current]; rfl, clear⟩
    rw [current]
    cases event with
    | connected conn => exact owns.settles datagrams_nil rfl rfl
    | data conn bytes =>
      simp only [onActiveTcpEvent, strike]
      split
      · exact settles_giveUp rfl env conn
      split
      · have active : ({ mapper with httpBuf := mapper.httpBuf ++ bytes } : PortMapper).phase.conn ≠ none := active
        exact (settles_finishHttp active env).after_close
      · refine ⟨owns.ledger, fun idle => (active idle).elim, fun _ _ _ member => (List.not_mem_nil member).elim⟩
    | closed conn =>
      simp only [onActiveTcpEvent, strike]
      rw [show (some (TcpEvent.closed conn).conn).toList = [conn] from rfl, strike_self]
      split
      · exact settles_finishHttp active env
      · exact settles_ladderFailed rfl
  next foreign =>
    have kept : strike mapper.phase.conn.toList (.tcp env event) = mapper.phase.conn.toList := by
      cases event with
      | connected conn => rfl
      | data conn bytes => rfl
      | closed conn =>
        refine List.filter_eq_self.mpr (fun other member => ?_)
        have held := Option.mem_toList.mp member
        refine decide_eq_true (fun same => foreign ?_)
        rw [held, same]
        rfl
    rw [kept]
    exact Owns.settles ⟨rfl, clear⟩ datagrams_nil rfl rfl

theorem settles_step {opened : List TcpId} (owns : Owns mapper opened) (input : Input) :
    Settles (strike opened input) (mapper.step input) := by
  cases input with
  | timer env => exact settles_onTimer owns env
  | datagram env source payload => exact settles_onDatagram owns env source payload
  | tcp env event => exact settles_onTcpEvent owns env event

end PortMapper

/-! ### Runs -/

namespace Owner

theorem owns_run (config : PortMapConfig) (platform : Platform) (now : Instant) (inputs : List Input) :
    let owner := (run step (new config platform now) inputs).1
    owner.mapper.Owns owner.opened :=
  run_invariant (P := fun owner : Owner => owner.mapper.Owns owner.opened) ⟨rfl, fun _ => rfl⟩
    (fun _ input owns _ => (PortMapper.settles_step owns input).owns) inputs (meets_true inputs)

/-- The ledger only looks on. -/
theorem mapper_run (owner : Owner) (inputs : List Input) :
    (run step owner inputs).1.mapper = (run PortMapper.step owner.mapper inputs).1 := by
  induction inputs generalizing owner with
  | nil => rfl
  | cons input rest ih => exact ih (owner.step input).1

/-- Every connection the mapper opened and that is neither closed nor reported closed is the one its phase waits for; the
buffer is empty outside of an exchange, and whenever one begins. -/
theorem connections_owned (config : PortMapConfig) (platform : Platform) (now : Instant) (inputs : List Input) :
    let owner := (run step (new config platform now) inputs).1
    owner.mapper = (run PortMapper.step (PortMapper.new config platform now) inputs).1 ∧
      owner.opened = owner.mapper.phase.conn.toList ∧
      (owner.mapper.phase.conn = none → owner.mapper.httpBuf = []) ∧
      ∀ input conn dest request, .connected conn dest request ∈ (owner.step input).2 →
        (owner.step input).1.mapper.httpBuf = [] := by
  have owns := owns_run config platform now inputs
  exact ⟨mapper_run _ inputs, owns.ledger, owns.clear, fun input => (PortMapper.settles_step owns input).opens⟩

end Owner

end Lightbringer.Overlay.PortMap
