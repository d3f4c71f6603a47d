import Lightbringer.Overlay.PunchIsolation
import Lightbringer.Overlay.PunchTimers
import Lightbringer.Overlay.Timers

/-!
# A driver that sleeps

After `on_timer` nothing is due at the time it was called, so that the driver sleeps until `poll_timeout`. It takes that
no punch waits for its response with a probe due: `advance_punches` passes such a session over, and the driver comes
back at once until the response arrives or the punch ends.
-/

namespace Lightbringer.Overlay
open Std Machine PortMap Deadlines

namespace Service

section

variable [Ed25519] {T : Type} {service : Service T} {now : Instant}

/-! ### What is due -/

/-- Nothing of the core is due. -/
structure Scheduled (service : Service T) (now : Instant) : Prop where
  advert : now < service.dialback.nextAdvert
  portmap : ∀ mapper, service.portmap = some mapper → mapper.Ahead now
  outbound : Later now OutboundRepair.deadline service.repair.outboundRepairs
  inbound : Later now InboundRepair.deadline service.repair.inboundRepairs
  pending : Later now DialBackPending.deadline service.dialback.dialbackPending
  probes : Later now HelperProbe.deadline service.dialback.helperProbes
  confirming : Later now ConfirmDial.deadline service.confirming
  sessions : ∀ (n : UInt64) session, service.punch.punchSessions[n]? = some session → session.Ahead now
  forwards : Later now PunchForward.deadline service.punch.punchForwards
  helpers : Later now PunchHelper.deadline service.punch.punchHelpers

omit [Ed25519] in
theorem later_sessions {sessions : TreeMap UInt64 PunchSession} :
    Later now (fun session : PunchSession => min session.deadline session.nextProbe) sessions ↔
      ∀ (n : UInt64) session, sessions[n]? = some session → session.Ahead now := by
  constructor
  · intro later n session found
    obtain ⟨deadline, nextProbe⟩ := lt_min_iff.mp (later n session found)
    exact ⟨deadline, nextProbe⟩
  · exact fun ahead n session found => lt_min (ahead n session found).deadline (ahead n session found).nextProbe

omit [Ed25519] in
theorem lt_start (own : Option Instant) {advert : Instant} (ahead : now < advert) :
    (∀ due, own = some due → now < due) →
      now < match own with
        | some own => min own advert
        | none => advert := by
  intro later
  cases own with
  | none => exact ahead
  | some due => exact lt_min (later due rfl) ahead

/-- The driver sleeps if neither the transport nor the core is due. -/
theorem lt_pollTimeout (own : Option Instant) (later : ∀ due, own = some due → now < due) (held : service.Scheduled now) :
    now < service.pollTimeout own := by
  unfold pollTimeout
  dsimp only
  rw [lt_earliest_iff, lt_earliest_iff, lt_earliest_iff, lt_earliest_iff, lt_earliest_iff, lt_earliest_iff,
    lt_earliest_iff, lt_earliest_iff, later_sessions]
  refine ⟨⟨⟨⟨⟨⟨⟨⟨?_, held.outbound⟩, held.inbound⟩, held.pending⟩, held.probes⟩, held.confirming⟩, held.sessions⟩,
    held.forwards⟩, held.helpers⟩
  have advert := lt_start own held.advert later
  split
  next mapper there => exact lt_min advert ((PortMap.PortMapper.lt_pollTimeout_iff mapper now).mpr (held.portmap mapper there))
  next => exact advert

/-! ### Steps of the parts -/

theorem Scheduled.overlay {result : OverlayCore T × List Action} (held : service.Scheduled now)
    (renewed : OverlayCore.Renewed now service.overlayCore result.1) : (service.withOverlay result).1.Scheduled now :=
  { held with
    advert := renewed.advert ▸ held.advert
    pending := held.pending.renews renewed.pending
    probes := held.probes.renews renewed.probes }

theorem Scheduled.routing {result : RoutingCore T × List RoutingAction} (held : service.Scheduled now)
    (renews : Renews now ConfirmDial.deadline service.confirming result.1.confirming) :
    (service.withRouting result).1.Scheduled now :=
  { held with confirming := held.confirming.renews renews }

theorem Scheduled.repair {result : RepairCore T × List RepairAction} (held : service.Scheduled now)
    (renewed : RepairCore.Renewed now service.repairCore result.1) : (service.withRepair result).1.Scheduled now :=
  { held with
    outbound := held.outbound.renews renewed.outbound
    inbound := held.inbound.renews renewed.inbound }

theorem Scheduled.punchCore (held : service.Scheduled now) : service.punchCore.Scheduled now :=
  ⟨held.sessions, held.confirming, held.forwards, held.helpers⟩

theorem Scheduled.punch {result : PunchCore T × List PunchAction} (held : service.Scheduled now)
    (scheduled : result.1.Scheduled now) : (service.withPunch result).1.Scheduled now :=
  { held with
    confirming := scheduled.confirming
    sessions := scheduled.sessions
    forwards := scheduled.forwards
    helpers := scheduled.helpers }

theorem Scheduled.mapped (held : service.Scheduled now) (granted : List Bool)
    {act : PortMap.PortMapper → PortMap.PortMapper × List PortMapAction}
    (ahead : ∀ mapper : PortMap.PortMapper, mapper.Ahead now → (act mapper).1.Ahead now) :
    (service.withPortmap granted act).1.Scheduled now := by
  unfold withPortmap
  split
  · exact held
  next mapper there =>
    refine { held with portmap := ?_ }
    rintro _ ⟨⟩
    obtain ⟨phase, pin⟩ := held.portmap mapper there
    exact ahead _ ⟨phase, pin⟩

variable [OverlayTransport T] [RoutingTransport T] [StreamTransport T] [PunchTransport T] [ServiceTransport T]

/-! ### Events -/

/-- The sessions of a core are stored under their nonces. -/
def Keyed (service : Service T) : Prop := service.punchCore.Keyed

/-- The event makes no probe due that it does not send. -/
def Calm (now : Instant) (service : Service T) : Event T → Prop
  | .punchFrame env source frame => service.punchCore.hastens (.frame (timed env now) source frame) = false
  | .punchProbe env event => service.punchCore.hastens (.probe (timed env now) event) = false
  | _ => True

omit [RoutingTransport T] [StreamTransport T] [PunchTransport T] [ServiceTransport T] in
theorem scheduled_handleFrame (held : service.Scheduled now) (grant : Bool) (dial : OverlayTransport.Dial T)
    (source : SocketAddr) (frame : OverlayFrame) : (service.handleFrame now grant dial source frame).1.Scheduled now := by
  unfold handleFrame
  dsimp only
  have handled := held.overlay (OverlayCore.renewed_handleFrame
    ⟨now, ({ service.platform with granted := [grant] }.bind).2, dial⟩ service.overlayCore source frame)
  split
  · exact { handled with }
  · exact handled

omit [StreamTransport T] [ServiceTransport T] in
theorem scheduled_onConnected (keyed : service.Keyed) (held : service.Scheduled now) (addr : SocketAddr)
    (pubkey : Pubkey) : (service.onConnected addr pubkey).1.Scheduled now := by
  have kept := held.routing (RoutingCore.renews_resolveConfirm service.routingCore addr pubkey now)
  unfold onConnected
  dsimp only
  split
  · have keyed' : (service.withRouting (service.routingCore.resolveConfirm addr pubkey)).1.Keyed := keyed
    have stepped : ((service.withRouting (service.routingCore.resolveConfirm addr pubkey)).1.punchCore.step
        (.connected pubkey)).1.Scheduled now := by
      refine PunchCore.scheduled_step keyed' kept.punchCore ?_ rfl
      rintro _ ⟨⟩
    have completed := kept.punch stepped
    exact ⟨completed.advert, completed.portmap, completed.outbound, completed.inbound, completed.pending,
      completed.probes, completed.confirming, completed.sessions, completed.forwards, completed.helpers⟩
  · exact kept

omit [OverlayTransport T] [RoutingTransport T] [StreamTransport T] [ServiceTransport T] in
theorem scheduled_beginPunch (keyed : service.Keyed) (held : service.Scheduled now) (env : PunchEnv T) (peer : Pubkey)
    (payload : Option (List UInt8)) : (service.beginPunch (timed env now) peer payload).1.Scheduled now := by
  have stepped : (service.punchCore.step (.send (timed env now) peer payload)).1.Scheduled now := by
    refine PunchCore.scheduled_step keyed held.punchCore ?_ rfl
    rintro _ ⟨⟩
    rfl
  exact held.punch stepped

omit [OverlayTransport T] [StreamTransport T] [ServiceTransport T] in
theorem scheduled_sendToPeer (keyed : service.Keyed) (held : service.Scheduled now) (env : PunchEnv T)
    (dial : RoutingTransport.Dial T) (pubkey : Pubkey) (payload : RoutingTransport.Payload T) (raw : List UInt8) :
    (service.sendToPeer now env dial pubkey payload raw).1.Scheduled now := by
  unfold sendToPeer
  split
  · have begun := scheduled_beginPunch keyed held env pubkey (some raw)
    dsimp only
    split
    · exact { begun with }
    · exact { begun with }
  · exact held.routing (RoutingCore.renews_sendToPeer service.routingCore ⟨now, dial, false⟩ pubkey payload)

variable [AdvertSignature]

theorem scheduled_onEvent (keyed : service.Keyed) (held : service.Scheduled now) {event : Event T}
    (calm : service.Calm now event) : (service.onEvent now event).1.Scheduled now := by
  cases event with
  | activity activity => exact { held with }
  | gateway env granted source payload =>
    exact held.mapped granted (fun mapper ahead =>
      PortMap.PortMapper.ahead_onDatagram ahead source payload)
  | tcp env granted event =>
    exact held.mapped granted (fun mapper ahead =>
      PortMap.PortMapper.ahead_onTcpEvent ahead event)
  | frame grant dial source frame => exact scheduled_handleFrame held grant dial source frame
  | probeEvent => exact held.overlay (OverlayCore.renewed_probeEvent service.overlayCore now)
  | connected addr pubkey => exact scheduled_onConnected keyed held addr pubkey
  | advert source signed raw =>
    refine held.routing ?_
    rw [RoutingCore.confirming_handleAdvert]
    exact renews_refl _
  | send env dial pubkey payload raw => exact scheduled_sendToPeer keyed held env dial pubkey payload raw
  | dial addr expected dial =>
    exact held.routing (RoutingCore.renews_dialFor service.routingCore addr expected none
      (RoutingCore.later_confirm now) dial)
  | punch env peer => exact scheduled_beginPunch keyed held env peer none
  | punchFrame env source frame =>
    refine held.punch (PunchCore.scheduled_step keyed held.punchCore ?_ calm)
    rintro _ ⟨⟩
    rfl
  | punchProbe env event =>
    refine held.punch (PunchCore.scheduled_step keyed held.punchCore ?_ calm)
    rintro _ ⟨⟩
    rfl
  | requestRepair peer request => exact held.repair (RepairCore.renewed_requestRepair service.repairCore now peer request)
  | repairResponse stream shred =>
    exact held.repair (RepairCore.renewed_onRepairResponse service.repairCore stream shred now)
  | streamEvent => exact held.repair (RepairCore.renewed_poll service.repairCore now)

/-! ### Nonces -/

omit [AdvertSignature] [OverlayTransport T] [RoutingTransport T] [StreamTransport T] [PunchTransport T]
  [ServiceTransport T] in
theorem keyed_withPortmap (keyed : service.Keyed) (granted : List Bool)
    (act : PortMap.PortMapper → PortMap.PortMapper × List PortMapAction) : (service.withPortmap granted act).1.Keyed := by
  unfold withPortmap
  split
  · exact keyed
  · exact keyed

omit [AdvertSignature] [RoutingTransport T] [StreamTransport T] [PunchTransport T] [ServiceTransport T] in
theorem keyed_handleFrame (keyed : service.Keyed) (grant : Bool) (dial : OverlayTransport.Dial T) (source : SocketAddr)
    (frame : OverlayFrame) : (service.handleFrame now grant dial source frame).1.Keyed := by
  unfold handleFrame
  dsimp only
  split
  · exact keyed
  · exact keyed

omit [AdvertSignature] [StreamTransport T] [ServiceTransport T] in
theorem keyed_onConnected (keyed : service.Keyed) (addr : SocketAddr) (pubkey : Pubkey) :
    (service.onConnected addr pubkey).1.Keyed := by
  unfold onConnected
  dsimp only
  split
  · have kept : (service.withRouting (service.routingCore.resolveConfirm addr pubkey)).1.Keyed := keyed
    exact PunchCore.keyed_step kept (.connected pubkey)
  · exact keyed

omit [AdvertSignature] [OverlayTransport T] [StreamTransport T] [ServiceTransport T] in
theorem keyed_sendToPeer (keyed : service.Keyed) (env : PunchEnv T) (dial : RoutingTransport.Dial T) (pubkey : Pubkey)
    (payload : RoutingTransport.Payload T) (raw : List UInt8) :
    (service.sendToPeer now env dial pubkey payload raw).1.Keyed := by
  unfold sendToPeer
  split
  · have begun := PunchCore.keyed_step keyed (.send (timed env now) pubkey (some raw))
    dsimp only
    split
    · exact begun
    · exact begun
  · exact keyed

theorem keyed_onEvent (keyed : service.Keyed) (event : Event T) : (service.onEvent now event).1.Keyed := by
  cases event with
  | gateway env granted source payload => exact keyed_withPortmap keyed granted _
  | tcp env granted event => exact keyed_withPortmap keyed granted _
  | frame grant dial source frame => exact keyed_handleFrame keyed grant dial source frame
  | connected addr pubkey => exact keyed_onConnected keyed addr pubkey
  | send env dial pubkey payload raw => exact keyed_sendToPeer keyed env dial pubkey payload raw
  | punch env peer => exact PunchCore.keyed_step keyed (.send (timed env now) peer none)
  | punchFrame env source frame =>
    exact PunchCore.keyed_step keyed (.frame (timed env now) source frame)
  | punchProbe env event =>
    exact PunchCore.keyed_step keyed (.probe (timed env now) event)
  | _ => exact keyed

/-! ### `on_timer` -/

section
variable {env : TimerEnv T}

/-- `on_timer` up to the sweeps: the transport, the port mapper and the advert. -/
def renew (service : Service T) (env : TimerEnv T) : Service T :=
  let start := { service with transport := ServiceTransport.onTimer service.transport env.timeouts }
  let mapped := (start.withPortmap env.granted (fun mapper => mapper.onTimer { env.portmap with now := env.now })).1
  if mapped.dialback.nextAdvert ≤ env.now then (mapped.advertise env).1 else mapped

omit [RoutingTransport T] [ServiceTransport T] [AdvertSignature] in
/-- The sweeps over what has expired. -/
def sweep (service : Service T) (now : Instant) : Service T :=
  let repaired := (service.withRepair (service.repairCore.expireRepairs now)).1
  let replied := (repaired.withOverlay (repaired.overlayCore.expireDialbacks now)).1
  let confirmed := (replied.withRouting (replied.routingCore.expireConfirms now)).1
  (confirmed.withPunch (confirmed.punchCore.step (.timer now))).1

omit [AdvertSignature] in
theorem fireDeadlines_eq (service : Service T) (env : TimerEnv T) :
    (service.fireDeadlines env).1 = (service.renew env).sweep env.now := by
  unfold fireDeadlines renew
  dsimp only [andThen]
  split
  · rfl
  · rfl

omit [AdvertSignature] [StreamTransport T] [PunchTransport T] in
theorem advertise_spec (service : Service T) (env : TimerEnv T) :
    (service.advertise env).1.dialback.nextAdvert = env.now + advertInterval ∧
    (service.advertise env).1.portmap = service.portmap ∧ (service.advertise env).1.punch = service.punch := by
  have framed : ∀ start : Service T,
      ((run (probeDial env.now) start env.dials).1.dialback, (run (probeDial env.now) start env.dials).1.portmap,
        (run (probeDial env.now) start env.dials).1.punch) = (start.dialback, start.portmap, start.punch) :=
    fun start => run_frame (f := fun s : Service T => (s.dialback, s.portmap, s.punch)) (fun _ _ => rfl) env.dials start
  have advert := fun (start : Service T) => congrArg Prod.fst (framed start)
  have rest := fun (start : Service T) => congrArg Prod.snd (framed start)
  unfold advertise
  dsimp only
  refine ⟨?_, congrArg Prod.fst (rest _), congrArg Prod.snd (rest _)⟩
  refine (OverlayCore.renewed_maybeRequestDialback ⟨env.now, none, env.dial⟩ _).advert.trans ?_
  exact congrArg (fun core : OverlayCore Unit => core.nextAdvert) (advert _)

omit [AdvertSignature] [StreamTransport T] [PunchTransport T] in
theorem punch_renew (service : Service T) (env : TimerEnv T) : (service.renew env).punch = service.punch := by
  have mapped : ∀ start : Service T,
      (start.withPortmap env.granted (fun mapper => mapper.onTimer { env.portmap with now := env.now })).1.punch =
        start.punch := by
    intro start
    unfold withPortmap
    split <;> rfl
  unfold renew
  dsimp only
  split
  · exact (advertise_spec _ env).2.2.trans (mapped _)
  · exact mapped _

omit [AdvertSignature] [StreamTransport T] [PunchTransport T] in
theorem advert_renew (service : Service T) (env : TimerEnv T) : env.now < (service.renew env).dialback.nextAdvert := by
  unfold renew
  dsimp only
  split
  · rw [(advertise_spec _ env).1]
    exact Nat.lt_add_of_pos_right (by decide)
  next notDue => exact Nat.not_le.mp notDue

omit [AdvertSignature] [StreamTransport T] [PunchTransport T] in
theorem portmap_renew (idle : ∀ mapper, service.portmap = some mapper → mapper.PinIdle env.now) :
    ∀ mapper, (service.renew env).portmap = some mapper → mapper.Ahead env.now := by
  have mapped : ∀ start : Service T, start.portmap = service.portmap → ∀ mapper,
      (start.withPortmap env.granted (fun mapper => mapper.onTimer { env.portmap with now := env.now })).1.portmap =
        some mapper → mapper.Ahead env.now := by
    intro start same mapper there
    unfold withPortmap at there
    split at there
    next none =>
      rw [none] at there
      cases there
    next before found =>
      cases there
      exact PortMap.PortMapper.ahead_onTimer _ (idle before (same ▸ found))
  unfold renew
  dsimp only
  split
  · rw [(advertise_spec _ env).2.1]
    exact mapped _ rfl
  · exact mapped _ rfl

omit [AdvertSignature] [RoutingTransport T] [ServiceTransport T] in
theorem scheduled_sweep (advert : now < service.dialback.nextAdvert)
    (portmap : ∀ mapper, service.portmap = some mapper → mapper.Ahead now) (answered : service.punchCore.Answered now) :
    (service.sweep now).Scheduled now := by
  unfold sweep
  dsimp only
  obtain ⟨outbound, inbound⟩ := RepairCore.later_expireRepairs service.repairCore now
  generalize service.repairCore.expireRepairs now = repaired at outbound inbound ⊢
  obtain ⟨same, pending, probes⟩ := OverlayCore.later_expireDialbacks (service.withRepair repaired).1.overlayCore now
  generalize (service.withRepair repaired).1.overlayCore.expireDialbacks now = replied at same pending probes ⊢
  have confirming := RoutingCore.later_expireConfirms
    ((service.withRepair repaired).1.withOverlay replied).1.routingCore now
  generalize ((service.withRepair repaired).1.withOverlay replied).1.routingCore.expireConfirms now = confirmed
    at confirming ⊢
  have punched : ((((service.withRepair repaired).1.withOverlay replied).1.withRouting confirmed).1.punchCore.step
      (.timer now)).1.Scheduled now := PunchCore.scheduled_onTimer answered confirming
  generalize (((service.withRepair repaired).1.withOverlay replied).1.withRouting confirmed).1.punchCore.step
    (.timer now) = punch at punched ⊢
  have kept : now < replied.1.nextAdvert := by
    rw [same]
    exact advert
  exact ⟨kept, portmap, outbound, inbound, pending, probes, punched.confirming, punched.sessions, punched.forwards,
    punched.helpers⟩

omit [AdvertSignature] in
/-- What is due is fired, if no punch still waits for its response and no pinhole is due that nobody asked for. -/
theorem scheduled_fireDeadlines (answered : service.punchCore.Answered env.now)
    (idle : ∀ mapper, service.portmap = some mapper → mapper.PinIdle env.now) :
    (service.fireDeadlines env).1.Scheduled env.now := by
  rw [fireDeadlines_eq]
  refine scheduled_sweep (advert_renew service env) (portmap_renew idle) ?_
  intro n session found
  refine answered n session ?_
  rw [← found]
  exact congrArg (fun core : PunchCore Unit => core.punchSessions[n]?) (punch_renew service env).symm

omit [AdvertSignature] in
theorem keyed_fireDeadlines (keyed : service.Keyed) (env : TimerEnv T) : (service.fireDeadlines env).1.Keyed := by
  rw [fireDeadlines_eq]
  have renewed : (service.renew env).Keyed := by
    intro n session found
    refine keyed n session ?_
    rw [← found]
    exact congrArg (fun core : PunchCore Unit => core.punchSessions[n]?) (punch_renew service env).symm
  generalize service.renew env = service at renewed ⊢
  unfold sweep
  dsimp only
  generalize service.repairCore.expireRepairs env.now = repaired
  generalize (service.withRepair repaired).1.overlayCore.expireDialbacks env.now = replied
  generalize ((service.withRepair repaired).1.withOverlay replied).1.routingCore.expireConfirms env.now = confirmed
  have kept : (((service.withRepair repaired).1.withOverlay replied).1.withRouting confirmed).1.Keyed := renewed
  have stepped := PunchCore.keyed_step kept (.timer env.now)
  generalize (((service.withRepair repaired).1.withOverlay replied).1.withRouting confirmed).1.punchCore.step
    (.timer env.now) = punch at stepped ⊢
  exact stepped

end

/-! ### Runs -/

/-- `on_timer` meets no punch that waits for its response with a probe due, no pinhole that a mapper without a v6 socket
has not asked for, and no event that hastens a probe. -/
structure Restful (service : Service T) (env : TimerEnv T) (pumped : List (Event T)) : Prop where
  answered : service.punchCore.Answered env.now
  idle : ∀ mapper, service.portmap = some mapper → mapper.PinIdle env.now
  calm : Meets (onEvent env.now) (Calm env.now) (service.fireDeadlines env).1 pumped

theorem keyed_step (keyed : service.Keyed) (call : Call T) : (service.step call).1.Keyed := by
  cases call with
  | event now event => exact keyed_onEvent keyed event
  | onTimer env pumped =>
    exact run_invariant (P := Keyed) (keyed_fireDeadlines keyed env) (fun _ event keyed _ => keyed_onEvent keyed event)
      pumped (meets_true pumped)

theorem scheduled_onTimer {env : TimerEnv T} (keyed : service.Keyed) {pumped : List (Event T)}
    (restful : service.Restful env pumped) : (service.onTimer env pumped).1.Scheduled env.now := by
  have start : (service.fireDeadlines env).1.Keyed ∧ (service.fireDeadlines env).1.Scheduled env.now :=
    ⟨keyed_fireDeadlines keyed env, scheduled_fireDeadlines restful.answered restful.idle⟩
  exact (run_invariant (P := fun service : Service T => service.Keyed ∧ service.Scheduled env.now) start
    (fun _ event held calm => ⟨keyed_onEvent held.1 event, scheduled_onEvent held.1 held.2 calm⟩) pumped
    restful.calm).2

/-- In every state a run reaches, `on_timer` leaves nothing due at the time it is called. -/
theorem driver_sleeps (transport : T) (config : Config) (keypair : Ed25519.Keypair) (sockets : Nat) (start : Instant)
    (calls : List (Call T)) (env : TimerEnv T) (pumped : List (Event T))
    (restful : (run step (new transport config keypair sockets start) calls).1.Restful env pumped) (own : Option Instant)
    (later : ∀ due, own = some due → env.now < due) :
    env.now <
      ((run step (new transport config keypair sockets start) calls).1.onTimer env pumped).1.pollTimeout own := by
  have keyed : (run step (new transport config keypair sockets start) calls).1.Keyed := by
    refine run_invariant (P := Keyed) ?_ (fun _ call keyed _ => keyed_step keyed call) calls (meets_true calls)
    rintro n session found
    cases found
  exact lt_pollTimeout own later (scheduled_onTimer keyed restful)

end

/-! ### A punch that waits -/

section
open PlainSignatures PunchCore

/-- A node without a port mapper, connected to the relay. -/
def punchingNode : Service (OverlayQuicTransport OverlayFrame) :=
  new (connectedTo [(relayAddr, 7)]) ⟨⟨.v4 0x0A000001, 8001⟩, none, none, none, none, none, false, 0⟩ (1 : Pubkey) 1 0

def relayedEnv : PunchEnv (OverlayQuicTransport OverlayFrame) :=
  { randomEnv 0 with
    allocator := none, nonces := [3], advert := fun peer => some ⟨peer, 0, 0, .coordinated [] [7], .inConnection⟩ }

def timerAt (now : Instant) : TimerEnv (OverlayQuicTransport OverlayFrame) where
  now := now
  timeouts := ([], [])
  portmap := ⟨now, [], [], none⟩
  granted := []
  sends := []
  dials := []
  dial := none

/-- Peer 5 is asked for a punch and has not answered after 100 ms. -/
theorem waiting_punch_spins :
    fromMillis 100 < fromSecs 5 ∧
    ¬ fromMillis 100 < ((run step punchingNode [.event 0 (.punch relayedEnv 5)]).1.onTimer
      (timerAt (fromMillis 100)) []).1.pollTimeout (some (fromSecs 5)) := by
  decide +kernel

/-- The relay brings the response in time. -/
def answeredCalls : List (Call (OverlayQuicTransport OverlayFrame)) :=
  [.event 0 (.punch relayedEnv 5),
    .event (fromMillis 50) (.punchFrame relayedEnv relayAddr (.connectResponse (.sign 3 1 .empty .unknown (5 : Pubkey))))]

theorem driver_sleeps_answered : fromMillis 100 <
    ((run step punchingNode answeredCalls).1.onTimer (timerAt (fromMillis 100)) []).1.pollTimeout (some (fromSecs 5)) := by
  refine driver_sleeps _ _ _ _ _ answeredCalls (timerAt (fromMillis 100)) [] ⟨?_, ?_, trivial⟩ _ ?_
  · intro n session found awaiting
    have none_waits : (run step punchingNode answeredCalls).1.punch.punchSessions.toList.all
        (fun entry => !entry.2.awaitingResponse) = true := by decide +kernel
    have answered := List.all_eq_true.mp none_waits (n, session) (TreeMap.mem_toList_iff_getElem?_eq_some.mpr found)
    rw [awaiting] at answered
    cases answered
  · have absent : (run step punchingNode answeredCalls).1.portmap.isNone = true := by decide +kernel
    intro mapper there
    rw [show (run step punchingNode answeredCalls).1.portmap = some mapper from there] at absent
    cases absent
  · rintro _ ⟨⟩
    decide

end

end Service

end Lightbringer.Overlay
