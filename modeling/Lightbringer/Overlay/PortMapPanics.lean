import Lightbringer.Overlay.PortMapChecked

/-!
# The port mapper on hostile bytes

But for a response whose declared length ends within a character of its body, no step panics. Each function of the
checked mapper then returns what the mapper returns.
-/

namespace Lightbringer.Overlay.PortMap
open Machine

def Phase.attempt : Phase → Nat
  | .pcp attempt _ | .natPmpExternal attempt _ | .natPmpMap attempt _ _ | .ssdp attempt _ => attempt
  | _ => 0

def PinPhase.attempt : PinPhase → Nat
  | .wait attempt _ => attempt
  | _ => 0

/-- No wait and no lease is as long as this. -/
def longestWait : Nat := fromSecs (2 ^ 32)

/-- A request over TCP has an endpoint, attempts are few, leases end in time, and no counter is ahead of the steps. -/
structure PortMapper.Stands (latest : Instant) (n : Nat) (mapper : PortMapper) : Prop where
  endpoint : mapper.phase.conn.isSome → mapper.httpEndpoint.isSome
  attempt : mapper.phase.attempt < stepAttempts
  pinAttempt : mapper.pinPhase.attempt < stepAttempts
  mapped : ∀ m, mapper.mapped = some m → m.grantedAt + m.lease ≤ latest
  pinhole : ∀ m, mapper.pinhole = some m → m.grantedAt + m.lease ≤ latest
  malformed : mapper.malformedResponses ≤ n
  denials : mapper.denials ≤ n

namespace Checked

variable {latest : Instant} {n : Nat} {mapper : PortMapper} {env : PortMapEnv}

/-- Nothing panics, and the outcome is that of the mapper. -/
structure Runs (latest : Instant) (n : Nat) (checked : Checked (PortMapper × List PortMapAction))
    (result : PortMapper × List PortMapAction) : Prop where
  ok : checked = .ok result
  stands : result.1.Stands latest n

theorem ok_bind {α β : Type} (a : α) (f : α → Checked β) : ((.ok a : Checked α) >>= f) = f a := rfl

theorem later_of_le {now : Instant} {wait : Nat} (fits : now + wait ≤ latest) :
    later latest now wait = .ok (now + wait) := if_pos fits

theorem add_of_lt {bits a b : Nat} (fits : a + b < 2 ^ bits) : add bits a b = .ok (a + b) := if_pos fits

/-- The waits of the ladder. -/
theorem later_of_timely (timely : env.now + longestWait ≤ latest) {wait : Nat} (short : wait ≤ longestWait) :
    later latest env.now wait = .ok (env.now + wait) :=
  later_of_le ((Nat.add_le_add_left short env.now).trans timely)

theorem ladderFailed_eq (timely : env.now + longestWait ≤ latest) :
    ladderFailed latest mapper env = .ok (mapper.ladderFailed env) := by
  unfold ladderFailed
  rw [later_of_timely timely (by decide)]
  rfl

theorem stands_ladderFailed (held : mapper.Stands latest n) : (mapper.ladderFailed env).Stands latest n :=
  ⟨nofun, Nat.zero_lt_two, held.pinAttempt, held.mapped, held.pinhole, held.malformed, held.denials⟩

theorem runs_ladderFailed (timely : env.now + longestWait ≤ latest) (held : mapper.Stands latest n)
    (actions : List PortMapAction) :
    Runs latest n (do return (← ladderFailed latest mapper env, actions)) (mapper.ladderFailed env, actions) := by
  refine ⟨?_, stands_ladderFailed held⟩
  rw [ladderFailed_eq timely]
  rfl

theorem denied_eq (few : n + 1 < 2 ^ 64) (held : mapper.Stands latest n) :
    denied mapper = .ok mapper.denied := by
  have fits : mapper.denials + 1 < 2 ^ 64 := Nat.lt_of_le_of_lt (Nat.succ_le_succ held.denials) few
  unfold denied
  rw [add_of_lt fits]
  rfl

theorem stands_denied (held : mapper.Stands latest n) : mapper.denied.Stands latest (n + 1) :=
  ⟨held.endpoint, held.attempt, held.pinAttempt, held.mapped, held.pinhole, Nat.le_succ_of_le held.malformed,
    Nat.succ_le_succ held.denials⟩

theorem malformed_eq (few : n + 1 < 2 ^ 64) (held : mapper.Stands latest n) :
    malformed mapper = .ok mapper.malformed := by
  have fits : mapper.malformedResponses + 1 < 2 ^ 64 := Nat.lt_of_le_of_lt (Nat.succ_le_succ held.malformed) few
  unfold malformed
  rw [add_of_lt fits]
  rfl

theorem stands_malformed (held : mapper.Stands latest n) : mapper.malformed.Stands latest (n + 1) :=
  ⟨held.endpoint, held.attempt, held.pinAttempt, held.mapped, held.pinhole, Nat.succ_le_succ held.malformed,
    Nat.le_succ_of_le held.denials⟩

theorem runs_malformed (few : n + 1 < 2 ^ 64) (held : mapper.Stands latest n) :
    Runs latest (n + 1) (do return (← malformed mapper, [])) (mapper.malformed, []) := by
  refine ⟨?_, stands_malformed held⟩
  rw [malformed_eq few held]
  rfl

/-- Nothing was counted. -/
theorem stands_succ (held : mapper.Stands latest n) : mapper.Stands latest (n + 1) :=
  ⟨held.endpoint, held.attempt, held.pinAttempt, held.mapped, held.pinhole, Nat.le_succ_of_le held.malformed,
    Nat.le_succ_of_le held.denials⟩

theorem Runs.succ {checked : Checked (PortMapper × List PortMapAction)} {result : PortMapper × List PortMapAction}
    (runs : Runs latest n checked result) : Runs latest (n + 1) checked result := ⟨runs.ok, stands_succ runs.stands⟩

theorem stands_ensureSocket (held : mapper.Stands latest n) (env : PortMapEnv) :
    (mapper.ensureSocket env).1.Stands latest n := by
  obtain ⟨⟨_, _, _, _, rest⟩, _⟩ := PortMapper.rest_ensureSocket mapper env
  rw [rest]
  exact ⟨held.endpoint, held.attempt, held.pinAttempt, held.mapped, held.pinhole, held.malformed, held.denials⟩

theorem runs_sendStep (timely : env.now + longestWait ≤ latest) (held : mapper.Stands latest n) (dest : SocketAddr)
    (raw : PortMapper → List UInt8) {phase : Instant → Phase} (datagram : ∀ deadline, (phase deadline).conn = none)
    (few : ∀ deadline, (phase deadline).attempt < stepAttempts) :
    Runs latest n (sendStep latest mapper env dest raw phase) (mapper.sendStep env dest raw phase) := by
  have ensured := stands_ensureSocket held env
  unfold sendStep PortMapper.sendStep
  rcases bound : mapper.ensureSocket env with ⟨next, _ | socket, actions⟩
  · rw [bound] at ensured
    exact runs_ladderFailed timely ensured actions
  · rw [bound] at ensured
    dsimp only
    rw [later_of_timely timely (by decide)]
    refine ⟨rfl, ⟨fun conn => ?_, few _, ensured.pinAttempt, ensured.mapped, ensured.pinhole, ensured.malformed,
      ensured.denials⟩⟩
    dsimp only at conn
    rw [datagram] at conn
    cases conn

/-- On a connection, no attempt is counted. -/
theorem runs_sendHttp (timely : env.now + longestWait ≤ latest) (held : mapper.Stands latest n) (request : HttpRequest)
    (control : Option Text) {phase : TcpId → Instant → Phase}
    (first : ∀ conn deadline, (phase conn deadline).attempt = 0) :
    Runs latest n (sendHttp latest mapper env request control phase) (mapper.sendHttp env request control phase) := by
  unfold sendHttp PortMapper.sendHttp
  rcases mapper.httpEndpoint with _ | endpoint
  · exact runs_ladderFailed timely held []
  rcases env.tcp with _ | conn
  · exact runs_ladderFailed timely held []
  dsimp only
  rw [later_of_timely timely (by decide)]
  refine ⟨rfl, ⟨fun _ => rfl, ?_, held.pinAttempt, held.mapped, held.pinhole, held.malformed, held.denials⟩⟩
  dsimp only
  rw [first]
  exact Nat.zero_lt_two

theorem runs_sendPcpMap (timely : env.now + longestWait ≤ latest) (held : mapper.Stands latest n) {attempt : Nat}
    (few : attempt < stepAttempts) :
    Runs latest n (sendPcpMap latest mapper env attempt) (mapper.sendPcpMap env attempt) :=
  runs_sendStep timely held _ _ (fun _ => rfl) (fun _ => few)

theorem runs_sendNatPmpExternal (timely : env.now + longestWait ≤ latest) (held : mapper.Stands latest n) {attempt : Nat}
    (few : attempt < stepAttempts) :
    Runs latest n (sendNatPmpExternal latest mapper env attempt) (mapper.sendNatPmpExternal env attempt) :=
  runs_sendStep timely held _ _ (fun _ => rfl) (fun _ => few)

theorem runs_sendNatPmpMap (timely : env.now + longestWait ≤ latest) (held : mapper.Stands latest n) {attempt : Nat}
    (few : attempt < stepAttempts) (externalIp : IpAddr) :
    Runs latest n (sendNatPmpMap latest mapper env attempt externalIp) (mapper.sendNatPmpMap env attempt externalIp) :=
  runs_sendStep timely held _ _ (fun _ => rfl) (fun _ => few)

theorem runs_sendSsdp (timely : env.now + longestWait ≤ latest) (held : mapper.Stands latest n) {attempt : Nat}
    (few : attempt < stepAttempts) :
    Runs latest n (sendSsdp latest mapper env attempt) (mapper.sendSsdp env attempt) :=
  runs_sendStep timely held _ _ (fun _ => rfl) (fun _ => few)

theorem runs_sendUpnpDescribe (timely : env.now + longestWait ≤ latest) (held : mapper.Stands latest n) :
    Runs latest n (sendUpnpDescribe latest mapper env) (mapper.sendUpnpDescribe env) :=
  runs_sendHttp timely held _ _ (fun _ _ => rfl)

theorem soapRequest_eq (found : mapper.httpEndpoint.isSome) (request : HttpRequest) :
    soapRequest mapper request = .ok request := by
  obtain ⟨endpoint, some⟩ := Option.isSome_iff_exists.mp found
  rw [soapRequest, some]

theorem runs_sendUpnpExternal (timely : env.now + longestWait ≤ latest) (held : mapper.Stands latest n)
    (found : mapper.httpEndpoint.isSome) (control : Text) :
    Runs latest n (sendUpnpExternal latest mapper env control) (mapper.sendUpnpExternal env control) := by
  unfold sendUpnpExternal
  rw [soapRequest_eq found]
  exact runs_sendHttp timely held _ _ (fun _ _ => rfl)

theorem runs_sendUpnpMap (timely : env.now + longestWait ≤ latest) (held : mapper.Stands latest n)
    (found : mapper.httpEndpoint.isSome) (control : Text) (externalIp : IpAddr) :
    Runs latest n (sendUpnpMap latest mapper env control externalIp) (mapper.sendUpnpMap env control externalIp) := by
  unfold sendUpnpMap
  rw [soapRequest_eq found]
  exact runs_sendHttp timely held _ _ (fun _ _ => rfl)

/-! ### Timers -/

theorem runs_startLadderOrRenew (timely : env.now + longestWait ≤ latest) (held : mapper.Stands latest n) :
    Runs latest n (startLadderOrRenew latest mapper env) (mapper.startLadderOrRenew env) := by
  have first : 0 < stepAttempts := by decide
  unfold startLadderOrRenew PortMapper.startLadderOrRenew
  rcases mapper.mapped with _ | mapped
  · exact runs_sendPcpMap timely held first
  dsimp only
  cases mapped.protocol with
  | pcp => exact runs_sendPcpMap timely held first
  | natPmp => exact runs_sendNatPmpMap timely held first _
  | upnp =>
    dsimp only
    rcases found : mapper.httpEndpoint with _ | endpoint
    · exact runs_sendSsdp timely held first
    rcases mapper.controlUrl with _ | control
    · exact runs_sendSsdp timely held first
    · exact runs_sendUpnpMap timely held (Option.isSome_of_mem found) control _

theorem runs_retry {attempt : Nat} (few : attempt < stepAttempts)
    {again : Nat → Checked (PortMapper × List PortMapAction)} {next : Checked (PortMapper × List PortMapAction)}
    {again' : Nat → PortMapper × List PortMapAction} {next' : PortMapper × List PortMapAction}
    (retries : ∀ attempt < stepAttempts, Runs latest n (again attempt) (again' attempt))
    (falls : Runs latest n next next') : Runs latest n (retry attempt again next) (PortMapper.retry attempt again' next') := by
  have fits : attempt + 1 < 2 ^ 8 := Nat.lt_of_le_of_lt few (by decide)
  unfold retry PortMapper.retry
  rw [add_of_lt fits]
  dsimp only [bind, Except.bind]
  split
  next more => exact retries _ more
  · exact falls

theorem runs_drivePhase (timely : env.now + longestWait ≤ latest) (held : mapper.Stands latest n) :
    Runs latest n (drivePhase latest mapper env) (mapper.drivePhase env) := by
  have first : 0 < stepAttempts := by decide
  have few := held.attempt
  have emptied : PortMapper.Stands latest n { mapper with httpBuf := [] } :=
    ⟨held.endpoint, held.attempt, held.pinAttempt, held.mapped, held.pinhole, held.malformed, held.denials⟩
  unfold drivePhase PortMapper.drivePhase
  by_cases waiting : env.now < mapper.phase.deadline
  · rw [if_pos waiting, if_pos waiting]
    exact ⟨rfl, held⟩
  rw [if_neg waiting, if_neg waiting]
  cases phase : mapper.phase with
  | idle due => exact runs_startLadderOrRenew timely held
  | pcp attempt deadline =>
    rw [phase] at few
    exact runs_retry few (fun _ more => runs_sendPcpMap timely held more) (runs_sendNatPmpExternal timely held first)
  | natPmpExternal attempt deadline =>
    rw [phase] at few
    exact runs_retry few (fun _ more => runs_sendNatPmpExternal timely held more) (runs_sendSsdp timely held first)
  | natPmpMap attempt deadline externalIp =>
    rw [phase] at few
    exact runs_retry few (fun _ more => runs_sendNatPmpMap timely held more externalIp) (runs_sendSsdp timely held first)
  | ssdp attempt deadline =>
    rw [phase] at few
    exact runs_retry few (fun _ more => runs_sendSsdp timely held more) (runs_ladderFailed timely held [])
  | upnpDescribe conn deadline => exact runs_ladderFailed timely emptied _
  | upnpExternal conn deadline => exact runs_ladderFailed timely emptied _
  | upnpMap conn deadline externalIp => exact runs_ladderFailed timely emptied _

theorem runs_sendPinhole (timely : env.now + longestWait ≤ latest) (held : mapper.Stands latest n) {attempt : Nat}
    (few : attempt < stepAttempts) (internalV6 : SocketAddr) :
    Runs latest n (sendPinhole latest mapper env attempt internalV6) (mapper.sendPinhole env attempt internalV6) := by
  have ensured := stands_ensureSocket held env
  unfold sendPinhole PortMapper.sendPinhole
  rcases bound : mapper.ensureSocket env with ⟨next, _ | socket, actions⟩
  · rw [bound] at ensured
    dsimp only
    rw [later_of_timely timely (by decide)]
    exact ⟨rfl, ⟨ensured.endpoint, ensured.attempt, Nat.zero_lt_two, ensured.mapped, ensured.pinhole,
      ensured.malformed, ensured.denials⟩⟩
  · rw [bound] at ensured
    dsimp only
    rw [later_of_timely timely (by decide)]
    exact ⟨rfl, ⟨ensured.endpoint, ensured.attempt, few, ensured.mapped, ensured.pinhole, ensured.malformed,
      ensured.denials⟩⟩

theorem runs_drivePinhole (timely : env.now + longestWait ≤ latest) (held : mapper.Stands latest n) :
    Runs latest n (drivePinhole latest mapper env) (mapper.drivePinhole env) := by
  have few := held.pinAttempt
  unfold drivePinhole PortMapper.drivePinhole
  rcases mapper.config.internalV6 with _ | internalV6
  · exact ⟨rfl, held⟩
  cases phase : mapper.pinPhase with
  | off => exact ⟨rfl, held⟩
  | idle due =>
    dsimp only
    by_cases ready : due ≤ env.now
    · rw [if_pos ready, if_pos ready]
      exact runs_sendPinhole timely held (by decide) internalV6
    · rw [if_neg ready, if_neg ready]
      exact ⟨rfl, held⟩
  | wait attempt deadline =>
    rw [phase] at few
    dsimp only
    by_cases ready : deadline ≤ env.now
    · rw [if_pos ready, if_pos ready]
      refine runs_retry few (fun _ more => runs_sendPinhole timely held more internalV6) ⟨?_, ?_⟩
      · rw [later_of_timely timely (by decide)]
        rfl
      · exact ⟨held.endpoint, held.attempt, Nat.zero_lt_two, held.mapped, held.pinhole, held.malformed, held.denials⟩
    · rw [if_neg ready, if_neg ready]
      exact ⟨rfl, held⟩

theorem dropExpired_eq (now : Instant) {mapped : Option Mapped}
    (ends : ∀ m, mapped = some m → m.grantedAt + m.lease ≤ latest) :
    dropExpired latest now mapped = .ok (PortMapper.dropExpired now mapped) := by
  cases mapped with
  | none => rfl
  | some m =>
    unfold dropExpired expired PortMapper.dropExpired Mapped.expired
    dsimp only
    rw [later_of_le (ends m rfl)]
    by_cases ended : m.grantedAt + m.lease ≤ now
    · simp [ended, pure, Except.pure, bind, Except.bind, Option.filter]
    · simp [ended, pure, Except.pure, bind, Except.bind, Option.filter]

theorem runs_onTimer (timely : env.now + longestWait ≤ latest) (held : mapper.Stands latest n) :
    Runs latest n (onTimer latest mapper env) (mapper.onTimer env) := by
  have dropped : PortMapper.Stands latest n { mapper with
      mapped := PortMapper.dropExpired env.now mapper.mapped
      pinhole := PortMapper.dropExpired env.now mapper.pinhole } :=
    ⟨held.endpoint, held.attempt, held.pinAttempt,
      fun m kept => held.mapped m (Option.filter_eq_some_iff.mp kept).1,
      fun m kept => held.pinhole m (Option.filter_eq_some_iff.mp kept).1, held.malformed, held.denials⟩
  have ladder := runs_drivePhase timely dropped
  have pin := runs_drivePinhole timely ladder.stands
  refine ⟨?_, pin.stands⟩
  unfold onTimer
  rw [dropExpired_eq env.now held.mapped, dropExpired_eq env.now held.pinhole]
  dsimp only [bind, Except.bind]
  rw [ladder.ok]
  dsimp only
  rw [pin.ok]
  rfl

/-! ### Datagrams -/

theorem runs_grant (timely : env.now + longestWait ≤ latest) (held : mapper.Stands latest n) (protocol : MapProtocol)
    (external : SocketAddr) {lease : Nat} (short : lease ≤ longestWait) :
    Runs latest n (do return (← grant latest mapper env protocol external lease, []))
      (mapper.grant env protocol external lease, []) := by
  unfold grant
  rw [later_of_timely timely ((Nat.div_le_self lease 2).trans short)]
  refine ⟨rfl, ⟨nofun, Nat.zero_lt_two, held.pinAttempt, fun m granted => ?_, held.pinhole, held.malformed,
    held.denials⟩⟩
  cases granted
  exact (Nat.add_le_add_left short env.now).trans timely

/-- A lease is sent in four bytes. -/
theorem fromSecs_le_longestWait {bytes : List UInt8} (four : bytes.length ≤ 4) :
    fromSecs (Bytes.toNat bytes) ≤ longestWait := by
  have small : Bytes.toNat bytes ≤ 2 ^ 32 :=
    (Bytes.toNat_lt bytes).le.trans (Nat.pow_le_pow_right (by decide) four)
  exact Nat.mul_le_mul_right _ small

theorem parsePcpMapResponse_lease {payload : List UInt8} {response : PcpMapResponse}
    (parsed : PortMap.parsePcpMapResponse payload = some response) : fromSecs response.lifetime ≤ longestWait := by
  unfold PortMap.parsePcpMapResponse at parsed
  split at parsed
  · cases parsed
    exact fromSecs_le_longestWait ((List.length_take_le _ _))
  · cases parsed

theorem runs_onPcpResponse (timely : env.now + longestWait ≤ latest) (few : n + 1 < 2 ^ 64)
    (held : mapper.Stands latest n) (payload : List UInt8) :
    Runs latest (n + 1) (onPcpResponse latest mapper env payload) (mapper.onPcpResponse env payload) := by
  unfold onPcpResponse PortMapper.onPcpResponse
  rw [parsePcpMapResponse_eq, ok_bind]
  cases parsed : PortMap.parsePcpMapResponse payload with
  | none => exact runs_malformed few held
  | some response =>
    have short := parsePcpMapResponse_lease parsed
    dsimp only
    by_cases foreign : response.nonce ≠ mapper.nonce
    · rw [if_pos foreign, if_pos foreign]
      exact ⟨rfl, stands_succ held⟩
    rw [if_neg foreign, if_neg foreign]
    by_cases refused : (response.result ≠ 0 || fromSecs response.lifetime < minLease) = true
    · rw [if_pos refused, if_pos refused, denied_eq few held, ok_bind]
      exact runs_sendNatPmpExternal timely (stands_denied held) (by decide)
    · rw [if_neg refused, if_neg refused]
      exact (runs_grant timely held _ _ short).succ

theorem onPinholeResponse_eq (timely : env.now + longestWait ≤ latest) (few : n + 1 < 2 ^ 64)
    (held : mapper.Stands latest n) {response : PcpMapResponse} (short : fromSecs response.lifetime ≤ longestWait) :
    onPinholeResponse latest mapper env response = .ok (mapper.onPinholeResponse env response) ∧
      (mapper.onPinholeResponse env response).Stands latest (n + 1) := by
  unfold onPinholeResponse PortMapper.onPinholeResponse
  dsimp only
  by_cases refused : (response.result ≠ 0 || fromSecs response.lifetime < minLease) = true
  · rw [if_pos refused, if_pos refused, denied_eq few held, later_of_timely timely (by decide)]
    have counted := stands_denied held
    exact ⟨rfl, ⟨counted.endpoint, counted.attempt, Nat.zero_lt_two, counted.mapped, counted.pinhole,
      counted.malformed, counted.denials⟩⟩
  · rw [if_neg refused, if_neg refused, later_of_timely timely ((Nat.div_le_self _ 2).trans short)]
    have kept := stands_succ held
    refine ⟨rfl, ⟨kept.endpoint, kept.attempt, Nat.zero_lt_two, kept.mapped, fun m granted => ?_, kept.malformed,
      kept.denials⟩⟩
    cases granted
    exact (Nat.add_le_add_left short env.now).trans timely

theorem runs_onNatPmpExternal (timely : env.now + longestWait ≤ latest) (few : n + 1 < 2 ^ 64)
    (held : mapper.Stands latest n) (payload : List UInt8) :
    Runs latest (n + 1) (onNatPmpExternal latest mapper env payload) (mapper.onNatPmpExternal env payload) := by
  have first : 0 < stepAttempts := by decide
  unfold onNatPmpExternal PortMapper.onNatPmpExternal
  rw [opens_eq payload (by decide), ok_bind]
  by_cases opened : (payload.length = 12 && startsWith payload [0, 128]) = true
  · have long : payload.length = 12 := of_decide_eq_true (Bool.and_eq_true_iff.mp opened).1
    rw [if_pos opened, if_pos opened, indexes_of_le (by omega), indexes_of_le (by omega), ok_bind]
    by_cases refused : Bytes.toNat (field 2 2 payload) ≠ 0
    · rw [if_pos refused, if_pos refused, denied_eq few held, ok_bind]
      exact runs_sendSsdp timely (stands_denied held) first
    · rw [if_neg refused, if_neg refused]
      exact (runs_sendNatPmpMap timely held first _).succ
  · rw [if_neg opened, if_neg opened]
    exact runs_malformed few held

theorem runs_onNatPmpMap (timely : env.now + longestWait ≤ latest) (few : n + 1 < 2 ^ 64)
    (held : mapper.Stands latest n) (payload : List UInt8) (externalIp : IpAddr) :
    Runs latest (n + 1) (onNatPmpMap latest mapper env payload externalIp)
      (mapper.onNatPmpMap env payload externalIp) := by
  unfold onNatPmpMap PortMapper.onNatPmpMap
  rw [opens_eq payload (by decide), ok_bind]
  by_cases opened : (payload.length = 16 && startsWith payload [0, 129]) = true
  · have long : payload.length = 16 := of_decide_eq_true (Bool.and_eq_true_iff.mp opened).1
    have short : fromSecs (Bytes.toNat (field 12 4 payload)) ≤ longestWait :=
      fromSecs_le_longestWait (List.length_take_le _ _)
    rw [if_pos opened, if_pos opened, indexes_of_le (by omega), indexes_of_le (by omega), indexes_of_le (by omega),
      ok_bind, ok_bind, ok_bind]
    dsimp only
    by_cases refused :
        (Bytes.toNat (field 2 2 payload) ≠ 0 || fromSecs (Bytes.toNat (field 12 4 payload)) < minLease) = true
    · rw [if_pos refused, if_pos refused, denied_eq few held, ok_bind]
      exact runs_sendSsdp timely (stands_denied held) (by decide)
    · rw [if_neg refused, if_neg refused]
      exact (runs_grant timely held _ _ short).succ
  · rw [if_neg opened, if_neg opened]
    exact runs_malformed few held

theorem runs_onSsdpResponse (timely : env.now + longestWait ≤ latest) (few : n + 1 < 2 ^ 64)
    (held : mapper.Stands latest n) (payload : List UInt8) :
    Runs latest (n + 1) (onSsdpResponse latest mapper env payload) (mapper.onSsdpResponse env payload) := by
  unfold onSsdpResponse PortMapper.onSsdpResponse
  rw [parseSsdpLocation_eq, ok_bind]
  rcases PortMap.parseSsdpLocation payload with _ | ⟨endpoint, path⟩
  · exact runs_malformed few held
  dsimp only
  by_cases foreign : endpoint.ip ≠ mapper.config.gateway.ip
  · rw [if_pos foreign, if_pos foreign]
    exact runs_malformed few held
  · rw [if_neg foreign, if_neg foreign]
    have found : PortMapper.Stands latest n { mapper with httpEndpoint := some endpoint, describePath := path } :=
      ⟨fun _ => rfl, held.attempt, held.pinAttempt, held.mapped, held.pinhole, held.malformed, held.denials⟩
    exact (runs_sendUpnpDescribe timely found).succ

theorem pinholeResponse_eq (mapper : PortMapper) (payload : List UInt8) :
    pinholeResponse mapper payload = .ok (mapper.pinholeResponse payload) := by
  unfold pinholeResponse PortMapper.pinholeResponse
  by_cases first : payload.head? = some 2
  · rw [if_pos first, parsePcpMapResponse_eq, ok_bind]
    rfl
  · rw [if_neg first]
    have none : PortMap.parsePcpMapResponse payload = Option.none := by
      unfold PortMap.parsePcpMapResponse
      refine if_neg (fun opened => first ?_)
      have starts := of_decide_eq_true (Bool.and_eq_true_iff.mp opened).2
      cases payload with
      | nil => cases starts
      | cons byte rest => exact congrArg some (List.cons.inj starts).1
    rw [none]
    rfl

theorem runs_onDatagram (timely : env.now + longestWait ≤ latest) (few : n + 1 < 2 ^ 64)
    (held : mapper.Stands latest n) (source : SocketAddr) (payload : List UInt8) :
    Runs latest (n + 1) (onDatagram latest mapper env source payload) (mapper.onDatagram env source payload) := by
  unfold onDatagram PortMapper.onDatagram
  by_cases foreign : source.ip ≠ mapper.config.gateway.ip
  · rw [if_pos foreign, if_pos foreign]
    exact ⟨rfl, stands_succ held⟩
  rw [if_neg foreign, if_neg foreign, pinholeResponse_eq, ok_bind]
  cases answered : mapper.pinholeResponse payload with
  | some response =>
    have short := parsePcpMapResponse_lease (Option.filter_eq_some_iff.mp answered).1
    obtain ⟨pinned, stands⟩ := onPinholeResponse_eq timely few held short
    refine ⟨?_, stands⟩
    dsimp only
    rw [pinned]
    rfl
  | none =>
    dsimp only
    cases mapper.phase with
    | pcp attempt deadline => exact runs_onPcpResponse timely few held payload
    | natPmpExternal attempt deadline => exact runs_onNatPmpExternal timely few held payload
    | natPmpMap attempt deadline externalIp => exact runs_onNatPmpMap timely few held payload externalIp
    | ssdp attempt deadline => exact runs_onSsdpResponse timely few held payload
    | idle due => exact ⟨rfl, stands_succ held⟩
    | upnpDescribe conn deadline => exact ⟨rfl, stands_succ held⟩
    | upnpExternal conn deadline => exact ⟨rfl, stands_succ held⟩
    | upnpMap conn deadline externalIp => exact ⟨rfl, stands_succ held⟩

/-! ### TCP -/

theorem runs_unusable (timely : env.now + longestWait ≤ latest) (few : n + 1 < 2 ^ 64) (held : mapper.Stands latest n) :
    Runs latest (n + 1) (unusable latest mapper env) (mapper.unusable env) := by
  unfold unusable
  rw [malformed_eq few held, ok_bind]
  exact runs_ladderFailed timely (stands_malformed held) []

theorem onSuccess_ok {α : Type} (status : UInt16) (value : Option α) :
    onSuccess status (.ok value) = .ok (if status = 200 then value else none) := by
  unfold onSuccess
  split
  · rfl
  · rfl

theorem runs_finishDescribe (timely : env.now + longestWait ≤ latest) (few : n + 1 < 2 ^ 64)
    (held : mapper.Stands latest n) (found : mapper.httpEndpoint.isSome) (status : UInt16) (body : Text) :
    Runs latest (n + 1) (finishDescribe latest mapper env status body) (mapper.finishDescribe env status body) := by
  unfold finishDescribe PortMapper.finishDescribe
  rw [parseControlUrl_eq, onSuccess_ok, ok_bind]
  rcases (if status = 200 then PortMap.parseControlUrl body else none) with _ | control
  · exact runs_unusable timely few held
  · exact (runs_sendUpnpExternal timely held found control).succ

theorem externalIpAddress_eq (body : Text) : externalIpAddress body = .ok (PortMap.externalIpAddress body) := by
  unfold externalIpAddress
  rw [xmlField_eq]
  rfl

theorem runs_finishExternal (timely : env.now + longestWait ≤ latest) (few : n + 1 < 2 ^ 64)
    (held : mapper.Stands latest n) (found : mapper.httpEndpoint.isSome) (status : UInt16) (body : Text) :
    Runs latest (n + 1) (finishExternal latest mapper env status body) (mapper.finishExternal env status body) := by
  unfold finishExternal PortMapper.finishExternal
  rw [externalIpAddress_eq, onSuccess_ok, ok_bind]
  rcases (if status = 200 then PortMap.externalIpAddress body else none) with _ | ip
  · exact runs_unusable timely few held
  rcases mapper.controlUrl with _ | control
  · exact runs_unusable timely few held
  · exact (runs_sendUpnpMap timely held found control ip).succ

theorem runs_finishMap (timely : env.now + longestWait ≤ latest) (few : n + 1 < 2 ^ 64)
    (held : mapper.Stands latest n) (status : UInt16) (body : Text) (externalIp : IpAddr) :
    Runs latest (n + 1) (finishMap latest mapper env status body externalIp)
      (mapper.finishMap env status body externalIp) := by
  unfold finishMap PortMapper.finishMap
  by_cases granted : (status = 200 && addPortMappingResponse body) = true
  · rw [if_pos granted, if_pos granted]
    exact (runs_grant timely held _ _ (by decide)).succ
  · rw [if_neg granted, if_neg granted, denied_eq few held, ok_bind]
    exact runs_ladderFailed timely (stands_denied held) []

end Checked

/-- The declared length ends within a character of the body. -/
def CutsCharacter (buf : List UInt8) : Prop :=
  ∃ before body length, (Utf8.decode buf).bind (Utf8.split headerEnd) = some (before, body) ∧
    (parseStatus (before ++ headerEnd)).isSome ∧ contentLength before = some length ∧
    length ≤ Utf8.byteLength body ∧ ∀ cut, cut <+: body → Utf8.byteLength cut ≠ length

theorem CutsCharacter.complete {buf : List UInt8} (cuts : CutsCharacter buf) : httpResponseComplete buf = true := by
  obtain ⟨before, body, length, found, -, declared, enough, -⟩ := cuts
  obtain ⟨text, decoded, split⟩ := Option.bind_eq_some_iff.mp found
  rw [httpResponseComplete, decoded]
  dsimp only
  rw [split]
  dsimp only
  rw [declared]
  exact decide_eq_true enough

/-- Exactly there the parser fails. -/
theorem parseHttpResponseChecked_eq (buf : List UInt8) :
    parseHttpResponseChecked buf = .ok (parseHttpResponse buf) ∧ ¬ CutsCharacter buf ∨
      parseHttpResponseChecked buf = .error .charBoundary ∧ CutsCharacter buf := by
  suffices parses : (∃ parsed, parseHttpResponseChecked buf = .ok parsed) ∧ ¬ CutsCharacter buf ∨
      parseHttpResponseChecked buf = .error .charBoundary ∧ CutsCharacter buf by
    refine parses.imp_left (fun ⟨⟨parsed, ok⟩, whole⟩ => ⟨?_, whole⟩)
    rw [parseHttpResponse, ok]
  unfold parseHttpResponseChecked CutsCharacter
  cases found : (Utf8.decode buf).bind (Utf8.split headerEnd) with
  | none => exact .inl ⟨⟨none, rfl⟩, nofun⟩
  | some pair =>
    obtain ⟨before, body⟩ := pair
    dsimp only
    cases status : parseStatus (before ++ headerEnd) with
    | none =>
      refine .inl ⟨⟨none, rfl⟩, ?_⟩
      rintro ⟨_, _, _, same, known, -⟩
      cases same
      rw [status] at known
      cases known
    | some code =>
      dsimp only
      rw [contentLength_headerEnd]
      unfold cutBody
      cases declared : contentLength before with
      | none =>
        refine .inl ⟨⟨some (code, body), rfl⟩, ?_⟩
        rintro ⟨_, _, _, same, -, length, -⟩
        cases same
        rw [declared] at length
        cases length
      | some length =>
        dsimp only
        split
        next short =>
          refine .inl ⟨⟨none, rfl⟩, ?_⟩
          rintro ⟨_, _, _, same, -, length, enough, -⟩
          cases same
          rw [declared] at length
          cases length
          exact absurd enough (Nat.not_le.mpr short)
        next enough =>
          cases taken : Utf8.takeBytes length body with
          | none =>
            exact .inr ⟨rfl, before, body, length, rfl, rfl.trans (by rw [status]; rfl), declared, Nat.not_lt.mp enough,
              (Utf8.takeBytes_eq_none_iff length body).mp taken⟩
          | some cut =>
            refine .inl ⟨⟨some (code, cut), rfl⟩, ?_⟩
            rintro ⟨_, _, _, same, -, other, -, within⟩
            cases same
            rw [declared] at other
            cases other
            obtain ⟨prefixed, size⟩ := Utf8.takeBytes_eq_some taken
            exact within cut prefixed size

theorem not_cutsCharacter {buf : List UInt8} (parses : (parseHttpResponseChecked buf).toOption.isSome = true) :
    ¬ CutsCharacter buf := by
  rcases parseHttpResponseChecked_eq buf with ⟨_, whole⟩ | ⟨panics, _⟩
  · exact whole
  · rw [panics] at parses
    cases parses

/-- What is buffered in all is not cut within a character. -/
def PortMapper.Whole (mapper : PortMapper) : Input → Prop
  | .tcp _ (.data conn bytes) =>
    mapper.phase.conn = some conn → (mapper.httpBuf ++ bytes).length ≤ maxHttpResponse →
      ¬ CutsCharacter (mapper.httpBuf ++ bytes)
  | .tcp _ (.closed conn) => mapper.phase.conn = some conn → ¬ CutsCharacter mapper.httpBuf
  | _ => True

/-- The clock of a step. -/
def Input.env : Input → PortMapEnv
  | .timer env | .datagram env _ _ | .tcp env _ => env

namespace Checked

variable {latest : Instant} {n : Nat} {mapper : PortMapper} {env : PortMapEnv}

theorem stands_httpBuf (held : mapper.Stands latest n) (buf : List UInt8) :
    PortMapper.Stands latest n { mapper with httpBuf := buf } :=
  ⟨held.endpoint, held.attempt, held.pinAttempt, held.mapped, held.pinhole, held.malformed, held.denials⟩

theorem runs_finishHttp (timely : env.now + longestWait ≤ latest) (few : n + 1 < 2 ^ 64) (held : mapper.Stands latest n)
    (parses : parseHttpResponseChecked mapper.httpBuf = .ok (PortMap.parseHttpResponse mapper.httpBuf)) :
    Runs latest (n + 1) (finishHttp latest mapper env) (mapper.finishHttp env) := by
  have emptied := stands_httpBuf held []
  have found := held.endpoint
  unfold finishHttp PortMapper.finishHttp
  dsimp only
  rw [parseHttpResponse_eq, parses, ok_bind]
  rcases PortMap.parseHttpResponse mapper.httpBuf with _ | ⟨status, body⟩
  · exact runs_unusable timely few emptied
  dsimp only
  cases phase : mapper.phase with
  | upnpDescribe conn deadline =>
    rw [phase] at found emptied
    exact runs_finishDescribe timely few emptied (found rfl) status body
  | upnpExternal conn deadline =>
    rw [phase] at found emptied
    exact runs_finishExternal timely few emptied (found rfl) status body
  | upnpMap conn deadline externalIp =>
    rw [phase] at emptied
    exact runs_finishMap timely few emptied status body externalIp
  | idle due =>
    rw [phase] at emptied
    exact ⟨rfl, stands_succ emptied⟩
  | pcp attempt deadline =>
    rw [phase] at emptied
    exact ⟨rfl, stands_succ emptied⟩
  | natPmpExternal attempt deadline =>
    rw [phase] at emptied
    exact ⟨rfl, stands_succ emptied⟩
  | natPmpMap attempt deadline externalIp =>
    rw [phase] at emptied
    exact ⟨rfl, stands_succ emptied⟩
  | ssdp attempt deadline =>
    rw [phase] at emptied
    exact ⟨rfl, stands_succ emptied⟩

theorem runs_onTcpEvent (timely : env.now + longestWait ≤ latest) (few : n + 1 < 2 ^ 64) (held : mapper.Stands latest n)
    (event : TcpEvent) (whole : mapper.Whole (.tcp env event)) :
    Runs latest (n + 1) (onTcpEvent latest mapper env event) (mapper.onTcpEvent env event) := by
  unfold onTcpEvent PortMapper.onTcpEvent
  by_cases active : mapper.phase.conn = some event.conn
  · rw [if_pos active, if_pos active]
    cases event with
    | connected conn => exact ⟨rfl, stands_succ held⟩
    | data conn bytes =>
      have buffered := stands_httpBuf held (mapper.httpBuf ++ bytes)
      dsimp only [onActiveTcpEvent, PortMapper.onActiveTcpEvent]
      by_cases long : maxHttpResponse < (mapper.httpBuf ++ bytes).length
      · rw [if_pos long, if_pos long, malformed_eq few (stands_httpBuf held []), ok_bind]
        exact runs_ladderFailed timely (stands_malformed (stands_httpBuf held [])) _
      rw [if_neg long, if_neg long, httpResponseComplete_eq, ok_bind]
      by_cases complete : PortMap.httpResponseComplete (mapper.httpBuf ++ bytes) = true
      · have parses := (parseHttpResponseChecked_eq (mapper.httpBuf ++ bytes)).resolve_right
          (fun cuts => whole active (Nat.not_lt.mp long) cuts.2)
        have finished := runs_finishHttp timely few buffered parses.1
        rw [if_pos complete, if_pos complete, finished.ok]
        exact ⟨rfl, finished.stands⟩
      · rw [if_neg complete, if_neg complete]
        exact ⟨rfl, stands_succ buffered⟩
    | closed conn =>
      have parses := (parseHttpResponseChecked_eq mapper.httpBuf).resolve_right (fun cuts => whole active cuts.2)
      dsimp only [onActiveTcpEvent, PortMapper.onActiveTcpEvent]
      rw [parseHttpResponse_eq, parses.1, ok_bind]
      by_cases ended : (PortMap.parseHttpResponse mapper.httpBuf).isSome = true
      · rw [if_pos ended, if_pos ended]
        exact runs_finishHttp timely few held parses.1
      · rw [if_neg ended, if_neg ended]
        exact (runs_ladderFailed timely (stands_httpBuf held []) []).succ
  · rw [if_neg active, if_neg active]
    exact ⟨rfl, stands_succ held⟩

theorem runs_step {input : Input} (timely : input.env.now + longestWait ≤ latest) (few : n + 1 < 2 ^ 64)
    (held : mapper.Stands latest n) (whole : mapper.Whole input) :
    Runs latest (n + 1) (step latest mapper input) (mapper.step input) := by
  cases input with
  | timer env => exact (runs_onTimer timely held).succ
  | datagram env source payload => exact runs_onDatagram timely few held source payload
  | tcp env event => exact runs_onTcpEvent timely few held event whole

/-- A response that is cut within a character ends the program. -/
theorem step_panics {input : Input} (cuts : ¬ mapper.Whole input) :
    step latest mapper input = .error .charBoundary := by
  cases input with
  | timer env => exact (cuts trivial).elim
  | datagram env source payload => exact (cuts trivial).elim
  | tcp env event =>
    cases event with
    | connected conn => exact (cuts trivial).elim
    | data conn bytes =>
      simp only [PortMapper.Whole, Classical.not_imp, not_not] at cuts
      obtain ⟨active, short, cuts⟩ := cuts
      have panics := (parseHttpResponseChecked_eq (mapper.httpBuf ++ bytes)).resolve_left (fun whole => whole.2 cuts)
      dsimp only [step, onTcpEvent]
      refine (if_pos active).trans ?_
      dsimp only [onActiveTcpEvent]
      rw [if_neg (Nat.not_lt.mpr short), httpResponseComplete_eq, ok_bind, if_pos cuts.complete, finishHttp]
      dsimp only
      rw [parseHttpResponse_eq, panics.1]
      rfl
    | closed conn =>
      simp only [PortMapper.Whole, Classical.not_imp, not_not] at cuts
      have panics := (parseHttpResponseChecked_eq mapper.httpBuf).resolve_left (fun whole => whole.2 cuts.2)
      dsimp only [step, onTcpEvent]
      refine (if_pos cuts.1).trans ?_
      dsimp only [onActiveTcpEvent]
      rw [parseHttpResponse_eq, panics.1]
      rfl

end Checked

theorem PortMapper.stands_new (config : PortMapConfig) (platform : Platform) (start latest : Instant) :
    (PortMapper.new config platform start).Stands latest 0 := by
  refine ⟨nofun, Nat.zero_lt_two, ?_, nofun, nofun, Nat.le_refl 0, Nat.le_refl 0⟩
  unfold new PinPhase.attempt
  dsimp only
  split
  next pin =>
    split at pin
    · cases pin
    · cases pin
  · exact Nat.zero_lt_two

/-- Nothing panics, exactly if no response is cut within a character. The clock stays clear of the last time, and the
inputs are fewer than the counters hold. -/
theorem PortMapper.port_mapper_total_iff (config : PortMapConfig) (platform : Platform) (start latest : Instant)
    (inputs : List Input) (timely : ∀ input ∈ inputs, input.env.now + longestWait ≤ latest)
    (few : inputs.length < 2 ^ 64) :
    (∀ panic, runExcept (Checked.step latest) (new config platform start) inputs ≠ .error panic) ↔
      Meets step Whole (new config platform start) inputs := by
  refine runExcept_ok_iff (P := fun n mapper => mapper.Stands latest n) (stands_new config platform start latest) ?_ ?_
  · intro n mapper input member counted held whole
    have runs := Checked.runs_step (timely input member) (by omega) held whole
    exact ⟨runs.ok, runs.stands⟩
  · intro mapper input _ cuts
    exact ⟨.charBoundary, Checked.step_panics cuts⟩

/-! A gateway that ends a program. -/

namespace PortMapper

/-- A host whose gateway is at 192.168.0.1. -/
def homeConfig : PortMapConfig where
  gateway := ⟨.v4 0xC0A80001, 5351⟩
  internalPort := 9000
  internalIp := .v4 0xC0A80002
  internalV6 := none

def homeEnv : PortMapEnv := ⟨0, List.replicate 12 1, List.replicate 12 2, some 7⟩

def homeStart : PortMapper := new homeConfig ⟨0, [true], []⟩ 0

/-- Text of one byte for each character. -/
def ascii (text : String) : List UInt8 := text.toList.map (fun c => .ofNat c.toNat)

/-- PCP and NAT-PMP are refused, a description is offered, and its body is one character of two bytes, of which one is
declared. -/
def halfCharacter : List Input :=
  [.timer homeEnv,
    .datagram homeEnv homeConfig.gateway ([2, 0x81, 0, 1] ++ List.replicate 20 0 ++ List.replicate 12 1 ++
      List.replicate 24 0),
    .datagram homeEnv homeConfig.gateway ([0, 128, 0, 1] ++ List.replicate 8 0),
    .datagram homeEnv homeConfig.gateway (ascii "HTTP/1.1 200 OK\r\nLOCATION: http://192.168.0.1:80/d.xml\r\n"),
    .tcp homeEnv (.data 7 (ascii "HTTP/1.1 200 OK\r\nContent-Length: 1\r\n\r\n" ++ [0xC3, 0xA9]))]

/-- The same with a character of one byte. -/
def wholeCharacter : List Input :=
  halfCharacter.take 4 ++ [.tcp homeEnv (.data 7 (ascii "HTTP/1.1 200 OK\r\nContent-Length: 1\r\n\r\nA"))]

/-- The description is read on the connection that is open for it. -/
theorem refusals_total :
    (run step homeStart (halfCharacter.take 4)).1.phase.conn = some 7 ∧
      ¬ ∃ panic, runExcept (Checked.step (fromSecs (2 ^ 40))) homeStart wholeCharacter = .error panic := by
  refine ⟨by decide +kernel, fun ⟨panic, panics⟩ => ?_⟩
  refine (port_mapper_total_iff homeConfig ⟨0, [true], []⟩ 0 (fromSecs (2 ^ 40)) wholeCharacter (by decide)
    (by decide)).mpr ⟨trivial, trivial, trivial, trivial, fun _ _ => ?_, trivial⟩ panic panics
  exact not_cutsCharacter (by decide +kernel)

theorem half_character_panics :
    ¬ ∀ panic, runExcept (Checked.step (fromSecs (2 ^ 40))) homeStart halfCharacter ≠ .error panic :=
  fun safe => safe .charBoundary (Checked.panic_eq_some (by decide +kernel))

end PortMapper

end Lightbringer.Overlay.PortMap
