import Lightbringer.Overlay.PunchSessions
import Lightbringer.Overlay.RateLimit

/-!
# The relay between two peers

A relay answers for what it forwarded: a response goes back once, to the peer whose request it answers, and the requests
of and for one peer are limited. `Relays` is everything a step can do to the part of the core that relays.
-/

namespace Lightbringer.Overlay
open Std Machine

/-- Something is forwarded, answered or assisted for others. -/
def PunchAction.ofRelay : PunchAction → Bool
  | .forwarded .. | .answered .. | .helperBound .. => true
  | _ => false

def relayLog (actions : List PunchAction) : List PunchAction := actions.filter PunchAction.ofRelay

@[simp] theorem relayLog_append (actions more : List PunchAction) :
    relayLog (actions ++ more) = relayLog actions ++ relayLog more := List.filter_append ..

/-- The request that was forwarded. -/
def PunchAction.request : PunchAction → Option ConnectRequest
  | .forwarded request _ _ => some request
  | _ => none

/-- How many requests with the peer as this party were forwarded. -/
def forwardedFor (party : ConnectRequest → Pubkey) (peer : Pubkey) (log : List PunchAction) : Nat :=
  log.countP (fun action => action.request.any (fun request => party request = peer))

theorem forwardedFor_relayLog (party : ConnectRequest → Pubkey) (peer : Pubkey) (log : List PunchAction) :
    forwardedFor party peer (relayLog log) = forwardedFor party peer log := by
  rw [forwardedFor, relayLog, List.countP_filter]
  refine List.countP_congr (fun action _ => ?_)
  cases action <;> simp [PunchAction.request, PunchAction.ofRelay]

/-! ### What comes of a forwarding -/

/-- A request that was forwarded, with the responses and the helper sockets it led to. -/
structure Forwarding where
  request : ConnectRequest
  answers : Nat
  helpers : Nat

namespace Forwarding

def key (forwarding : Forwarding) : ForwardKey := ⟨forwarding.request.origin, forwarding.request.nonce⟩

def add (answers helpers : Nat) (forwarding : Forwarding) : Forwarding :=
  { forwarding with answers := forwarding.answers + answers, helpers := forwarding.helpers + helpers }

/-- What happens under a key is due to its last forwarding. -/
def charge (key : ForwardKey) (answers helpers : Nat) : List Forwarding → List Forwarding
  | [] => []
  | last :: rest => if last.key = key then last.add answers helpers :: rest else last :: charge key answers helpers rest

def record (ledger : List Forwarding) : PunchAction → List Forwarding
  | .forwarded request _ _ => ⟨request, 0, 0⟩ :: ledger
  | .answered response _ => charge ⟨response.target, response.nonce⟩ 1 0 ledger
  | .helperBound key _ => charge key 0 1 ledger
  | _ => ledger

/-- Every forwarding of a log, the last one first. -/
def ledger (log : List PunchAction) : List Forwarding := log.foldl record []

def last (key : ForwardKey) (ledger : List Forwarding) : Option Forwarding :=
  ledger.find? (fun forwarding => forwarding.key = key)

variable {key : ForwardKey} {ledger : List Forwarding}

theorem charge_charge (key : ForwardKey) (answers helpers answers' helpers' : Nat) (ledger : List Forwarding) :
    charge key answers' helpers' (charge key answers helpers ledger) =
      charge key (answers + answers') (helpers + helpers') ledger := by
  induction ledger with
  | nil => rfl
  | cons first rest ih =>
    by_cases here : first.key = key
    · have still : (first.add answers helpers).key = key := here
      simp only [charge, here, still, if_true]
      rw [add, add, add, Nat.add_assoc, Nat.add_assoc]
    · simp only [charge, here, if_false, ih]

theorem charge_nothing (key : ForwardKey) (ledger : List Forwarding) : charge key 0 0 ledger = ledger := by
  induction ledger with
  | nil => rfl
  | cons first rest ih =>
    unfold charge
    split
    · rfl
    · rw [ih]

theorem foldl_helperBound (key : ForwardKey) (helpers : List SocketId) (ledger : List Forwarding) :
    (helpers.map (PunchAction.helperBound key)).foldl record ledger = charge key 0 helpers.length ledger := by
  induction helpers generalizing ledger with
  | nil => exact (charge_nothing key ledger).symm
  | cons socket rest ih =>
    rw [List.map_cons, List.foldl_cons, ih, record, charge_charge, Nat.add_comm 1]
    rfl

theorem last_charge (key other : ForwardKey) (answers helpers : Nat) (ledger : List Forwarding) :
    last other (charge key answers helpers ledger) =
      if key = other then (last other ledger).map (add answers helpers) else last other ledger := by
  induction ledger with
  | nil => simp [charge, last]
  | cons first rest ih =>
    by_cases here : first.key = key
    · have still : (first.add answers helpers).key = key := here
      by_cases same : key = other
      · simp [charge, last, here, still, same]
      · simp [charge, last, here, still, same]
    · simp only [charge, here, if_false]
      by_cases theirs : first.key = other
      · have apart : key ≠ other := fun same => here (theirs.trans same.symm)
        simp [last, theirs, apart]
      · simpa [last, theirs] using ih

theorem mem_charge {answers helpers : Nat} {forwarding : Forwarding}
    (member : forwarding ∈ charge key answers helpers ledger) :
    forwarding ∈ ledger ∨ ∃ charged, last key ledger = some charged ∧ forwarding = charged.add answers helpers := by
  induction ledger with
  | nil => cases member
  | cons first rest ih =>
    unfold charge at member
    split at member
    next here =>
      rcases List.mem_cons.mp member with rfl | later
      · exact .inr ⟨first, by simp [last, here], rfl⟩
      · exact .inl (List.mem_cons_of_mem _ later)
    next other =>
      rcases List.mem_cons.mp member with rfl | later
      · exact .inl (List.mem_cons_self ..)
      · rcases ih later with old | ⟨charged, found, same⟩
        · exact .inl (List.mem_cons_of_mem _ old)
        · exact .inr ⟨charged, by simpa [last, other] using found, same⟩

theorem foldl_relayLog (log : List PunchAction) (ledger : List Forwarding) :
    (relayLog log).foldl record ledger = log.foldl record ledger := by
  induction log generalizing ledger with
  | nil => rfl
  | cons action rest ih =>
    rw [List.foldl_cons, ← ih]
    cases action <;> rfl

end Forwarding

/-- What a core holds as a relay. -/
structure RelayState where
  forwards : TreeMap ForwardKey PunchForward
  initiatorRate : RepairRateLimiter
  targetRate : RepairRateLimiter

namespace PunchCore

variable [Ed25519] {T : Type}

def relayState (core : PunchCore T) : RelayState := ⟨core.punchForwards, core.punchInitiatorRate, core.punchTargetRate⟩

/-- Nothing in it has to do with relaying. -/
structure Unrelayed (core : PunchCore T) (result : PunchCore T × List PunchAction) : Prop where
  state : result.1.relayState = core.relayState
  log : relayLog result.2 = []

theorem unrelayed_nil {core core' : PunchCore T} (same : core'.relayState = core.relayState) :
    Unrelayed core (core', []) := ⟨same, rfl⟩

theorem Unrelayed.andThen {core middle : PunchCore T} {actions : List PunchAction}
    {result : PunchCore T × List PunchAction} (first : Unrelayed core (middle, actions))
    (second : Unrelayed middle result) : Unrelayed core (result.1, actions ++ result.2) := by
  refine ⟨second.state.trans first.state, ?_⟩
  rw [relayLog_append, first.log, second.log]
  rfl

/-- A step of the same kind, from a core that relays the same. -/
theorem Unrelayed.of_state {core core' : PunchCore T} {result : PunchCore T × List PunchAction}
    (later : Unrelayed core' result) (same : core'.relayState = core.relayState) : Unrelayed core result :=
  ⟨later.state.trans same, later.log⟩

theorem unrelayed_run {α : Type} {act : PunchCore T → α → PunchCore T × List PunchAction}
    (each : ∀ core i, Unrelayed core (act core i)) (items : List α) (core : PunchCore T) :
    Unrelayed core (run act core items) := by
  induction items generalizing core with
  | nil => exact unrelayed_nil rfl
  | cons item rest ih => exact (each core item).andThen (ih (act core item).1)

variable [PunchTransport T]

/-! ### Sessions -/

theorem unrelayed_sendPunchProbe (core : PunchCore T) (dest : SocketAddr) (probe : PunchProbe) :
    Unrelayed core (core.sendPunchProbe dest probe) := by
  refine ⟨rfl, ?_⟩
  dsimp only [sendPunchProbe]
  split
  · rfl
  · rfl

theorem unrelayed_closeBirthdaySockets (core : PunchCore T) (sockets : List SocketId) (keep : Option SocketId) :
    Unrelayed core (core.closeBirthdaySockets sockets keep) := unrelayed_run (fun _ _ => ⟨rfl, rfl⟩) _ core

theorem unrelayed_expirePunch (now : Instant) (core : PunchCore T) (entry : UInt64 × PunchSession) :
    Unrelayed core (expirePunch now core entry) := by
  apply (unrelayed_closeBirthdaySockets _ _ _).of_state
  unfold cachePunchFailure
  split
  · rfl
  · rfl

omit [Ed25519] in
theorem relayLog_map_volley (entries : List (UInt64 × PunchSession)) :
    relayLog (entries.map (fun entry => PunchAction.volley entry.1)) = [] := by
  induction entries with
  | nil => rfl
  | cons entry rest ih => exact ih

theorem unrelayed_sendVolleys (core : PunchCore T) (now : Instant) : Unrelayed core (core.sendVolleys now) := by
  have each : ∀ (core : PunchCore T) send, Unrelayed core (sendProbe core send) :=
    fun core send => unrelayed_sendPunchProbe core send.1 send.2
  have sent := unrelayed_run each
    ((core.volleying now).flatMap (fun entry =>
      entry.2.targets.map (fun dest => (dest, PunchProbe.sign entry.2.nonce core.keypair))))
    { core with punchSessions := core.punchSessions.map (fun _ session => (session.advance core.birthdayPunch now).1) }
  refine ⟨sent.state, ?_⟩
  dsimp only [sendVolleys]
  rw [relayLog_append, relayLog_map_volley, sent.log]
  rfl

theorem unrelayed_advancePunches (core : PunchCore T) (now : Instant) : Unrelayed core (core.advancePunches now) :=
  (unrelayed_run (unrelayed_expirePunch now) _ core).andThen (unrelayed_sendVolleys _ now)

theorem unrelayed_completeSession (peer : Pubkey) (core : PunchCore T) (entry : UInt64 × PunchSession) :
    Unrelayed core (completeSession peer core entry) := by
  apply (unrelayed_closeBirthdaySockets _ _ _).of_state
  split
  · rfl
  · rfl

theorem unrelayed_completePunch (core : PunchCore T) (peer : Pubkey) : Unrelayed core (core.completePunch peer) :=
  unrelayed_run (unrelayed_completeSession peer) _ core

theorem unrelayed_expirePunchHelpers (core : PunchCore T) (now : Instant) :
    Unrelayed core (core.expirePunchHelpers now) := unrelayed_run (fun _ _ => ⟨rfl, rfl⟩) _ core

theorem unrelayed_bindBirthday (core : PunchCore T) (nonce : UInt64) (target : SocketAddr) :
    Unrelayed core ((core.bindBirthday nonce target).1, (core.bindBirthday nonce target).2.2) := by
  unfold bindBirthday
  split
  · exact ⟨rfl, rfl⟩
  · dsimp only [sendPunchProbeFrom, closeSocket]
    split
    · exact ⟨rfl, rfl⟩
    · exact ⟨rfl, rfl⟩

theorem unrelayed_bindBirthdays (nonce : UInt64) (target : SocketAddr) (core : PunchCore T) (rounds : Nat) :
    Unrelayed core
      ((bindBirthdays nonce target core rounds).1, (bindBirthdays nonce target core rounds).2.2) := by
  induction rounds generalizing core with
  | zero => exact ⟨rfl, rfl⟩
  | succ rounds ih =>
    have first := unrelayed_bindBirthday core nonce target
    unfold bindBirthdays
    split
    next bound =>
      rw [bound] at first
      exact first
    next bound =>
      rw [bound] at first
      exact first.andThen (ih _)

theorem unrelayed_startBirthday (core : PunchCore T) (env : PunchEnv T) (nonce : UInt64) :
    Unrelayed core (core.startBirthday env nonce) := by
  unfold startBirthday
  split
  · exact unrelayed_nil rfl
  split
  · exact unrelayed_nil rfl
  split
  · exact unrelayed_nil rfl
  next target _ =>
    have bound := unrelayed_bindBirthdays nonce target core birthdaySocketCap
    unfold openBirthday
    split
    next none =>
      rw [none] at bound
      exact bound
    next some =>
      rw [some] at bound
      exact ⟨bound.state, bound.log⟩

theorem unrelayed_beginPunch (core : PunchCore T) (env : PunchEnv T) (peer : Pubkey) (payload : Option (List UInt8)) :
    Unrelayed core ((core.beginPunch env peer payload).1, (core.beginPunch env peer payload).2.2) := by
  unfold beginPunch
  split
  · exact ⟨rfl, rfl⟩
  split
  · exact ⟨rfl, rfl⟩
  split
  · exact ⟨rfl, rfl⟩
  split
  next via nonce _ _ =>
    dsimp only [initiatePunch]
    split
    · exact ⟨rfl, rfl⟩
    · exact ⟨rfl, rfl⟩
  · exact ⟨rfl, rfl⟩

theorem unrelayed_openSession (core : PunchCore T) (env : PunchEnv T) (via : Pubkey) (request : ConnectRequest) :
    Unrelayed core (core.openSession env via request) := by
  refine ⟨rfl, ?_⟩
  dsimp only [openSession]
  split
  · rfl
  · rfl

/-- A birthday punch, if both ends agreed to one, at the end of a step that relays nothing. -/
theorem unrelayed_birthday (core : PunchCore T) (env : PunchEnv T) (birthday : Bool) (nonce : UInt64) :
    Unrelayed core (if birthday then core.startBirthday env nonce else (core, [])) := by
  cases birthday with
  | false => exact unrelayed_nil rfl
  | true => exact unrelayed_startBirthday core env nonce

theorem unrelayed_answerRequest (core : PunchCore T) (env : PunchEnv T) (via : Pubkey) (request : ConnectRequest) :
    Unrelayed core (core.answerRequest env via request) := by
  obtain ⟨transport, answered⟩ := answerRequest_eq core env via request
  rw [answered]
  have opened := unrelayed_openSession core env via request
  have queued : Unrelayed core
      ({ (core.openSession env via request).1 with transport := transport }, (core.openSession env via request).2) :=
    ⟨opened.state, opened.log⟩
  have advanced := queued.andThen (unrelayed_advancePunches _ env.now)
  exact advanced.andThen (unrelayed_birthday _ env (core.birthdayRequest env request) request.nonce)

theorem unrelayed_acceptResponse (core : PunchCore T) (env : PunchEnv T) (session : PunchSession)
    (response : ConnectResponse) : Unrelayed core (core.acceptResponse env session response) := by
  dsimp only [acceptResponse]
  have advanced : Unrelayed core _ := (unrelayed_advancePunches { core.setSession response.nonce
    (session.answered response (core.birthdayResponse session) env.now) with
      lastPunchProfiles := core.lastPunchProfiles.push response.origin response.natProfile } env.now).of_state rfl
  exact advanced.andThen (unrelayed_birthday _ env (core.birthdayResponse session) session.nonce)

theorem unrelayed_updateSession (core : PunchCore T) (env : PunchEnv T) (nonce : UInt64) (session : PunchSession) :
    Unrelayed core (core.updateSession env nonce session) :=
  (unrelayed_advancePunches (core.setSession nonce session) env.now).of_state rfl

/-! ### Frames of another relay and raw probes -/

theorem unrelayed_handlePunchAssist (core : PunchCore T) (env : PunchEnv T) (source : SocketAddr) (nonce : UInt64)
    (origin target : Pubkey) (port : UInt16) :
    Unrelayed core (core.handlePunchAssist env source nonce origin target port) := by
  unfold handlePunchAssist
  split
  · split
    · exact unrelayed_nil rfl
    split
    · exact unrelayed_nil rfl
    · obtain ⟨state, log⟩ := unrelayed_updateSession core env nonce _
      exact ⟨state, log⟩
  · exact unrelayed_nil rfl

theorem unrelayed_handlePunchObservation (core : PunchCore T) (env : PunchEnv T) (source : SocketAddr) (nonce : UInt64)
    (origin target : Pubkey) (observed : SocketAddr) :
    Unrelayed core (core.handlePunchObservation env source nonce origin target observed) := by
  unfold handlePunchObservation
  split
  · split
    · exact unrelayed_nil rfl
    · exact unrelayed_updateSession core env nonce _
  · exact unrelayed_nil rfl

theorem unrelayed_handlePunchBracket (core : PunchCore T) (env : PunchEnv T) (source : SocketAddr) (nonce : UInt64)
    (origin target : Pubkey) (ip : IpAddr) (start stop : UInt16) :
    Unrelayed core (core.handlePunchBracket env source nonce origin target ip start stop) := by
  unfold handlePunchBracket
  split
  · split
    · exact unrelayed_nil rfl
    split
    · exact unrelayed_nil rfl
    · exact unrelayed_updateSession core env nonce _
  · exact unrelayed_nil rfl

theorem unrelayed_handlePunchBirthday (core : PunchCore T) (env : PunchEnv T) (source : SocketAddr) (nonce : UInt64)
    (origin target : Pubkey) : Unrelayed core (core.handlePunchBirthday env source nonce origin target) := by
  have each : ∀ ip (core : PunchCore T) probe, Unrelayed core (sprayProbe ip core probe) :=
    fun ip core probe => (unrelayed_sendPunchProbe { core with platform := core.platform.draw.1 } _ probe).of_state rfl
  unfold handlePunchBirthday
  dsimp only
  split
  · split
    · exact unrelayed_nil rfl
    · exact unrelayed_nil rfl
  split
  · split
    · exact unrelayed_nil rfl
    unfold sprayBirthday
    split
    · exact unrelayed_nil rfl
    · exact (unrelayed_run (each _) _ _).of_state rfl
  · exact unrelayed_nil rfl

theorem unrelayed_handlePunchProbe (core : PunchCore T) (env : PunchEnv T) (event : PunchProbeEvent) :
    Unrelayed core (core.handlePunchProbe env event) := by
  unfold handlePunchProbe
  split
  next helper _ =>
    obtain ⟨_, moved⟩ := rest_observeProbe core helper event
    apply unrelayed_nil
    rw [moved]
    rfl
  split
  · exact unrelayed_nil rfl
  split
  · exact unrelayed_nil rfl
  next session _ =>
    split
    · exact unrelayed_nil rfl
    dsimp only [acceptProbe]
    generalize (core.localPubkey < session.peer && !session.dialStarted : Bool) = dials
    generalize (if event.socket ∈ session.birthdaySockets then some event.socket else none) = birthdaySocket
    have replied : ∀ core : PunchCore T, Unrelayed core (core.replyProbe birthdaySocket event) := by
      intro core
      cases birthdaySocket with
      | none => exact unrelayed_sendPunchProbe core _ _
      | some socket =>
        refine ⟨rfl, ?_⟩
        dsimp only [replyProbe, sendPunchProbeFrom]
        split
        · rfl
        · rfl
    cases dials with
    | false => exact (replied _).of_state rfl
    | true =>
      rw [if_pos rfl]
      obtain ⟨_, _, dialed⟩ := rest_dialPunched ((core.setSession event.probe.nonce
        (session.reached event.source true (true && birthdaySocket.isNone) env.now)).replyProbe birthdaySocket event).1
        env birthdaySocket (if (true && birthdaySocket.isNone) = true then session.payload else none) event.source
        session.peer session.deadline
      obtain ⟨state, log⟩ := replied (core.setSession event.probe.nonce
        (session.reached event.source true (true && birthdaySocket.isNone) env.now))
      refine ⟨?_, log⟩
      rw [dialed]
      exact state

/-! ### Forwarding and answering -/

/-- Everything a step can do as a relay. -/
inductive Relays (core : PunchCore T) : Input T → List PunchAction → RelayState → Prop
  | kept (input : Input T) : Relays core input [] core.relayState
  | expired (now : Instant) :
      Relays core (.timer now) [] { core.relayState with
        forwards := core.punchForwards.filter (fun _ forward => now < forward.deadline) }
  | counted {env : PunchEnv T} {source : SocketAddr} {request : ConnectRequest}
      {initiatorRate targetRate : RepairRateLimiter} (initiator : core.punchInitiatorRate.Asked initiatorRate none)
      (target : core.punchTargetRate.Asked targetRate none) :
      Relays core (.frame env source (.connectRequest request)) [] ⟨core.punchForwards, initiatorRate, targetRate⟩
  | forwarded {env : PunchEnv T} {source : SocketAddr} {request : ConnectRequest}
      {initiatorRate targetRate : RepairRateLimiter}
      (sender : PunchTransport.peerIdentity core.transport source = some request.origin)
      (initiator : core.punchInitiatorRate.Asked initiatorRate (some request.origin))
      (target : core.punchTargetRate.Asked targetRate (some request.target))
      (originWindow targetWindow : Instant) {forward : PunchForward} (same : forward.target = request.target) :
      Relays core (.frame env source (.connectRequest request)) [.forwarded request originWindow targetWindow]
        ⟨core.punchForwards.insert ⟨request.origin, request.nonce⟩ forward, initiatorRate, targetRate⟩
  | dropped (env : PunchEnv T) (source : SocketAddr) (response : ConnectResponse) :
      Relays core (.frame env source (.connectResponse response)) [] { core.relayState with
        forwards := core.punchForwards.erase ⟨response.target, response.nonce⟩ }
  | answered {env : PunchEnv T} {source : SocketAddr} {response : ConnectResponse} {forward : PunchForward}
      (found : core.punchForwards[(⟨response.target, response.nonce⟩ : ForwardKey)]? = some forward)
      (target : forward.target = response.origin) (queued : Bool) {helpers : List SocketId}
      (few : helpers.length ≤ 2) :
      Relays core (.frame env source (.connectResponse response))
        (.answered response queued :: helpers.map (.helperBound ⟨response.target, response.nonce⟩))
        { core.relayState with forwards := core.punchForwards.erase ⟨response.target, response.nonce⟩ }

variable {core : PunchCore T}

theorem relays_unrelayed {input : Input T} {result : PunchCore T × List PunchAction} (aside : Unrelayed core result) :
    Relays core input (relayLog result.2) result.1.relayState := by
  rw [aside.log, aside.state]
  exact .kept input

/-- Both limits are asked at most once, and both let pass what is admitted. -/
theorem asked_admitForward (core : PunchCore T) (env : PunchEnv T) (request : ConnectRequest) :
    ∃ initiatorRate targetRate, (core.admitForward env request).1 = { core with
        punchInitiatorRate := initiatorRate
        punchTargetRate := targetRate } ∧
      core.punchInitiatorRate.Asked initiatorRate none ∧ core.punchTargetRate.Asked targetRate none ∧
      ((core.admitForward env request).2 = true → core.punchInitiatorRate.Asked initiatorRate (some request.origin) ∧
        core.punchTargetRate.Asked targetRate (some request.target)) := by
  dsimp only [admitForward]
  split
  · exact ⟨_, _, rfl, .unasked, .unasked, fun admitted => nomatch admitted⟩
  split
  · exact ⟨_, _, rfl, .idle _ _, .unasked, fun admitted => nomatch admitted⟩
  next passed =>
    refine ⟨_, _, rfl, .idle _ _, .idle _ _, fun admitted => ⟨.granted ?_, .granted admitted⟩⟩
    simpa using passed

theorem relays_forwardRequest {env : PunchEnv T} {source : SocketAddr} {request : ConnectRequest}
    (sender : PunchTransport.peerIdentity core.transport source = some request.origin)
    (admitted : (core.admitForward env request).2 = true) :
    Relays core (.frame env source (.connectRequest request))
      (relayLog ((core.admitForward env request).1.forwardRequest env request).2)
      ((core.admitForward env request).1.forwardRequest env request).1.relayState := by
  obtain ⟨initiatorRate, targetRate, rates, initiator, target, granted⟩ := asked_admitForward core env request
  rw [rates]
  dsimp only [forwardRequest]
  split
  · exact .counted initiator target
  obtain ⟨transport, queued, sent⟩ := queueFrame_eq { core with
    punchInitiatorRate := initiatorRate
    punchTargetRate := targetRate } request.target (.connectRequest request)
  rw [sent]
  cases queued with
  | false => exact .counted initiator target
  | true => exact .forwarded sender (granted admitted).1 (granted admitted).2 _ _ rfl

theorem relays_handleConnectRequest (core : PunchCore T) (env : PunchEnv T) (source : SocketAddr)
    (request : ConnectRequest) :
    Relays core (.frame env source (.connectRequest request))
      (relayLog (core.handleConnectRequest env source request).2)
      (core.handleConnectRequest env source request).1.relayState := by
  dsimp only [handleConnectRequest]
  split
  · exact .kept _
  split
  · split
    · exact .kept _
    split
    · exact .kept _
    split
    · exact .kept _
    · exact relays_unrelayed (unrelayed_answerRequest core env _ request)
  split
  · exact .kept _
  next routed =>
    simp only [ne_eq, Bool.or_eq_true, not_or, decide_eq_true_eq, Decidable.not_not] at routed
    split
    next admitted => exact relays_forwardRequest routed.1.1 admitted
    · obtain ⟨_, _, rates, initiator, target, _⟩ := asked_admitForward core env request
      rw [rates]
      exact .counted initiator target

theorem length_maybeStartAssist (core : PunchCore T) (env : PunchEnv T) (key : ForwardKey) (forward : PunchForward)
    (response : ConnectResponse) : (core.maybeStartAssist env key forward response).2.length ≤ 2 := by
  have one : ∀ socket : Option SocketId, socket.toList.length ≤ 1 := by
    intro socket
    cases socket with
    | none => exact Nat.zero_le 1
    | some socket => exact Nat.le_refl 1
  dsimp only [maybeStartAssist]
  rw [List.length_append]
  exact Nat.add_le_add (one _) (one _)

omit [Ed25519] in
theorem relayLog_relayed (key : ForwardKey) (response : ConnectResponse) (queued : Bool) (helpers : List SocketId) :
    relayLog (.answered response queued :: helpers.map (PunchAction.helperBound key)) =
      .answered response queued :: helpers.map (PunchAction.helperBound key) := by
  refine List.filter_eq_self.mpr (fun action member => ?_)
  rcases List.mem_cons.mp member with rfl | later
  · rfl
  · obtain ⟨socket, _, rfl⟩ := List.mem_map.mp later
    rfl

theorem relays_relayResponse (core : PunchCore T) (env : PunchEnv T) (source : SocketAddr) (response : ConnectResponse) :
    Relays core (.frame env source (.connectResponse response)) (relayLog (core.relayResponse env response).2)
      (core.relayResponse env response).1.relayState := by
  unfold relayResponse
  dsimp only
  split
  · exact .kept _
  next forward found =>
    split
    · exact .dropped env source response
    next same =>
      have target : forward.target = response.origin := Decidable.not_not.mp same
      obtain ⟨transport, queued, sent⟩ := queueFrame_eq { core with
        punchForwards := core.punchForwards.erase ⟨response.target, response.nonce⟩ } response.target
        (.connectResponse response)
      rw [sent]
      dsimp only
      generalize sentCore : (if queued = true then _ else refusePunch _ : PunchCore T) = relayed
      have state : relayed.relayState = { core.relayState with
          forwards := core.punchForwards.erase ⟨response.target, response.nonce⟩ } := by
        rw [← sentCore]
        cases queued with
        | false => rfl
        | true => rfl
      obtain ⟨_, _, _, assisted⟩ :=
        rest_maybeStartAssist relayed env ⟨response.target, response.nonce⟩ forward response
      have few := length_maybeStartAssist relayed env ⟨response.target, response.nonce⟩ forward response
      rw [relayLog_relayed, assisted]
      have answered : Relays core (.frame env source (.connectResponse response)) _ _ :=
        .answered found target queued few
      rw [← state] at answered
      exact answered

theorem relays_handleFrame (core : PunchCore T) (env : PunchEnv T) (source : SocketAddr) (frame : PunchFrame) :
    Relays core (.frame env source frame) (relayLog (core.handleFrame env source frame).2)
      (core.handleFrame env source frame).1.relayState := by
  cases frame with
  | connectRequest request => exact relays_handleConnectRequest core env source request
  | connectResponse response =>
    dsimp only [handleFrame, handleConnectResponse]
    split
    · exact .kept _
    split
    · split
      · exact .kept _
      split
      · exact .kept _
      · exact relays_unrelayed (unrelayed_acceptResponse core env _ response)
    split
    · exact .kept _
    · exact relays_relayResponse core env source response
  | punchAssist nonce origin target port _ =>
    exact relays_unrelayed (unrelayed_handlePunchAssist core env source nonce origin target port)
  | punchObservation nonce origin target observed =>
    exact relays_unrelayed (unrelayed_handlePunchObservation core env source nonce origin target observed)
  | punchBracket nonce origin target ip start stop =>
    exact relays_unrelayed (unrelayed_handlePunchBracket core env source nonce origin target ip start stop)
  | punchBirthday nonce origin target =>
    exact relays_unrelayed (unrelayed_handlePunchBirthday core env source nonce origin target)

theorem relays_onTimer (core : PunchCore T) (now : Instant) :
    Relays core (.timer now) (relayLog (core.onTimer now).2) (core.onTimer now).1.relayState := by
  have advanced := unrelayed_advancePunches core now
  have closed := unrelayed_expirePunchHelpers ((core.advancePunches now).1.expirePunchForwards now) now
  have forwards : (core.advancePunches now).1.punchForwards = core.punchForwards :=
    congrArg RelayState.forwards advanced.state
  have state : ((core.advancePunches now).1.expirePunchForwards now).relayState = { core.relayState with
      forwards := core.punchForwards.filter (fun _ forward => now < forward.deadline) } := by
    rw [← advanced.state, ← forwards]
    rfl
  dsimp only [onTimer]
  rw [relayLog_append, advanced.log, closed.log, closed.state, state]
  exact .expired now

/-- What the environment supplies has no part in it. -/
theorem relays_supplied {env : PunchEnv T} {input : Input T} {log : List PunchAction} {state : RelayState}
    (relays : Relays (core.supplied env) input log state) : Relays core input log state := by
  cases relays with
  | kept => exact .kept input
  | expired now => exact .expired now
  | counted initiator target => exact .counted initiator target
  | @forwarded _ source request _ _ sender initiator target originWindow targetWindow _ same =>
    have sender : PunchTransport.peerIdentity core.transport source = some request.origin := sender
    exact .forwarded sender initiator target originWindow targetWindow same
  | dropped env source response => exact .dropped env source response
  | @answered _ _ response forward found target queued _ few =>
    have found : core.punchForwards[(⟨response.target, response.nonce⟩ : ForwardKey)]? = some forward := found
    exact .answered found target queued few

theorem relays_step (core : PunchCore T) (input : Input T) :
    Relays core input (relayLog (step core input).2) (step core input).1.relayState := by
  cases input with
  | call call => exact .kept _
  | send env peer payload =>
    exact relays_unrelayed ((unrelayed_beginPunch (core.supplied env) env peer payload).of_state rfl)
  | frame env source frame => exact relays_supplied (relays_handleFrame (core.supplied env) env source frame)
  | probe env event => exact relays_unrelayed (unrelayed_handlePunchProbe core env event)
  | connected peer => exact relays_unrelayed (unrelayed_completePunch core peer)
  | settled addr => exact .kept _
  | timer now => exact relays_onTimer core now

/-! ### Every answer has its forwarding -/

/-- No forwarding leads to more than it may, and those that are still open have led to nothing. -/
structure Accounted (forwards : TreeMap ForwardKey PunchForward) (ledger : List Forwarding) : Prop where
  bounded : ∀ forwarding ∈ ledger, forwarding.answers ≤ 1 ∧ forwarding.helpers ≤ 2
  unanswered : ∀ (key : ForwardKey) forward, forwards[key]? = some forward →
    ∃ forwarding, Forwarding.last key ledger = some forwarding ∧ forwarding.answers = 0 ∧ forwarding.helpers = 0

omit [Ed25519] in
/-- Fewer are open. -/
theorem Accounted.mono {forwards forwards' : TreeMap ForwardKey PunchForward} {ledger : List Forwarding}
    (held : Accounted forwards ledger)
    (fewer : ∀ (key : ForwardKey) forward, forwards'[key]? = some forward → forwards[key]? = some forward) :
    Accounted forwards' ledger :=
  ⟨held.bounded, fun key forward found => held.unanswered key forward (fewer key forward found)⟩

omit [Ed25519] in
theorem found_of_erase {forwards : TreeMap ForwardKey PunchForward} {erased key : ForwardKey} {forward : PunchForward}
    (found : (forwards.erase erased)[key]? = some forward) : erased ≠ key ∧ forwards[key]? = some forward := by
  rw [Entries.getElem?_erase] at found
  split at found
  · cases found
  next apart => exact ⟨apart, found⟩

omit [Ed25519] in
theorem found_of_filter {forwards : TreeMap ForwardKey PunchForward} {live : ForwardKey → PunchForward → Bool}
    {key : ForwardKey} {forward : PunchForward} (found : (forwards.filter live)[key]? = some forward) :
    forwards[key]? = some forward := by
  rw [TreeMap.getElem?_filter'] at found
  exact Option.eq_some_of_filter_eq_some found

theorem accounted_relays {input : Input T} {log : List PunchAction} {state : RelayState} {ledger : List Forwarding}
    (relays : Relays core input log state) (held : Accounted core.punchForwards ledger) :
    Accounted state.forwards (log.foldl Forwarding.record ledger) := by
  cases relays with
  | kept => exact held
  | expired now => exact held.mono (fun key forward found => found_of_filter found)
  | counted => exact held
  | @forwarded env source request _ _ sender initiator target originWindow targetWindow forward same =>
    refine ⟨fun forwarding member => ?_, fun key found there => ?_⟩
    · rcases List.mem_cons.mp member with rfl | old
      · exact ⟨Nat.zero_le 1, Nat.zero_le 2⟩
      · exact held.bounded forwarding old
    · rw [Entries.getElem?_insert] at there
      dsimp only [List.foldl_cons, List.foldl_nil, Forwarding.record]
      split at there
      next here => exact ⟨⟨request, 0, 0⟩, by simp [Forwarding.last, Forwarding.key, here], rfl, rfl⟩
      next other =>
        obtain ⟨forwarding, newest, unused⟩ := held.unanswered key found there
        refine ⟨forwarding, ?_, unused⟩
        simpa [Forwarding.last, Forwarding.key, other] using newest
  | dropped env source response => exact held.mono (fun key forward found => (found_of_erase found).2)
  | @answered env source response forward found target queued helpers few =>
    rw [List.foldl_cons, Forwarding.foldl_helperBound, Forwarding.record, Forwarding.charge_charge]
    obtain ⟨open_, newest, none, unaided⟩ := held.unanswered _ forward found
    refine ⟨fun forwarding member => ?_, fun key found there => ?_⟩
    · rcases Forwarding.mem_charge member with old | ⟨charged, last, rfl⟩
      · exact held.bounded forwarding old
      · cases newest.symm.trans last
        dsimp only [Forwarding.add]
        rw [none, unaided]
        omega
    · obtain ⟨apart, before⟩ := found_of_erase there
      obtain ⟨forwarding, newest, unused⟩ := held.unanswered key found before
      refine ⟨forwarding, ?_, unused⟩
      rw [Forwarding.last_charge, if_neg apart]
      exact newest

theorem accounted_run (transport : T) (keypair : Ed25519.Keypair) (birthdayPunch : Bool) (sockets : Nat)
    (inputs : List (Input T)) :
    Accounted (run step (new transport keypair birthdayPunch sockets) inputs).1.punchForwards
      (Forwarding.ledger (run step (new transport keypair birthdayPunch sockets) inputs).2) := by
  refine run_history (P := fun _ (core : PunchCore T) log => Accounted core.punchForwards (Forwarding.ledger log))
    ?_ ?_ inputs (meets_true inputs)
  · refine ⟨fun forwarding member => (List.not_mem_nil member).elim, fun key forward found => ?_⟩
    cases TreeMap.getElem?_emptyc.symm.trans found
  · intro _ core log input held _
    have next := accounted_relays (relays_step core input) held
    rw [Forwarding.foldl_relayLog] at next
    rw [Forwarding.ledger, List.foldl_append]
    exact next

/-- In this run a request under the key was forwarded to the target, from an authenticated connection of its origin. -/
def Forwarded (start : PunchCore T) (inputs : List (Input T)) (key : ForwardKey) (target : Pubkey) : Prop :=
  ∃ before env source request after originWindow targetWindow,
    inputs = before ++ .frame env source (.connectRequest request) :: after ∧
    PunchTransport.peerIdentity (run step start before).1.transport source = some key.origin ∧
    .forwarded request originWindow targetWindow ∈
      (step (run step start before).1 (.frame env source (.connectRequest request))).2 ∧
    request.origin = key.origin ∧ request.nonce = key.nonce ∧ request.target = target

theorem Forwarded.later {start : PunchCore T} {inputs : List (Input T)} {key : ForwardKey} {target : Pubkey}
    (forwarded : Forwarded start inputs key target) (input : Input T) : Forwarded start (inputs ++ [input]) key target := by
  obtain ⟨before, env, source, request, after, originWindow, targetWindow, split, rest⟩ := forwarded
  refine ⟨before, env, source, request, after ++ [input], originWindow, targetWindow, ?_, rest⟩
  rw [split, List.append_assoc, List.cons_append]

theorem forwarded_run {start : PunchCore T} (none : ∀ key : ForwardKey, start.punchForwards[key]? = none)
    (inputs : List (Input T)) : ∀ key forward, (run step start inputs).1.punchForwards[key]? = some forward →
      Forwarded start inputs key forward.target := by
  induction inputs using List.reverseRecOn with
  | nil =>
    intro key forward found
    rw [run_nil, none] at found
    cases found
  | append_singleton inputs input ih =>
    rw [run_concat]
    intro key forward found
    have relays := relays_step (run step start inputs).1 input
    change (step (run step start inputs).1 input).1.relayState.forwards[key]? = some forward at found
    generalize logged : relayLog (step (run step start inputs).1 input).2 = log at relays
    generalize (step (run step start inputs).1 input).1.relayState = state at relays found
    cases relays with
    | kept => exact (ih key forward found).later input
    | expired now => exact (ih key forward (found_of_filter found)).later _
    | counted => exact (ih key forward found).later _
    | @forwarded env source request _ _ sender initiator target originWindow targetWindow forward' same =>
      rw [Entries.getElem?_insert] at found
      split at found
      next here =>
        cases found
        refine ⟨inputs, env, source, request, [], originWindow, targetWindow, rfl, ?_, ?_, ?_, ?_, same.symm⟩
        · rw [← here]
          exact sender
        · apply List.mem_of_mem_filter
          change _ ∈ relayLog _
          rw [logged]
          exact List.mem_singleton_self _
        · rw [← here]
        · rw [← here]
      · exact (ih key forward found).later _
    | dropped env source response => exact (ih key forward (found_of_erase found).2).later _
    | answered => exact (ih key forward (found_of_erase found).2).later _

theorem forward_of_answered {input : Input T} {response : ConnectResponse} {queued : Bool}
    (answered : .answered response queued ∈ (step core input).2) :
    ∃ forward, core.punchForwards[(⟨response.target, response.nonce⟩ : ForwardKey)]? = some forward ∧
      forward.target = response.origin := by
  have logged : .answered response queued ∈ relayLog (step core input).2 := List.mem_filter.mpr ⟨answered, rfl⟩
  have relays := relays_step core input
  generalize relayLog (step core input).2 = log at relays logged
  generalize (step core input).1.relayState = state at relays
  cases relays with
  | kept => cases logged
  | expired => cases logged
  | counted => cases logged
  | forwarded => cases List.mem_singleton.mp logged
  | dropped => cases logged
  | @answered _ _ response' forward found target queued' helpers few =>
    rcases List.mem_cons.mp logged with same | helper
    · cases same
      exact ⟨forward, found, target⟩
    · obtain ⟨_, _, other⟩ := List.mem_map.mp helper
      cases other

/-! ### Forwards in one rate window -/

omit [Ed25519] in
theorem forwardedFor_helpers (party : ConnectRequest → Pubkey) (peer : Pubkey) (key : ForwardKey)
    (helpers : List SocketId) : forwardedFor party peer (helpers.map (.helperBound key)) = 0 := by
  induction helpers with
  | nil => rfl
  | cons socket rest ih => exact ih

/-- A step asks the limiter at most once, and forwards only for the peer that it let pass. -/
def AsksFor (limiter : PunchCore T → RepairRateLimiter) (party : ConnectRequest → Pubkey) : Prop :=
  ∀ core input, ∃ served, (limiter core).Asked (limiter (step core input).1) served ∧
    ∀ peer, forwardedFor party peer (step core input).2 = if served = some peer then 1 else 0

omit [Ed25519] in
theorem forwardedFor_single (party : ConnectRequest → Pubkey) (peer : Pubkey) (request : ConnectRequest)
    (originWindow targetWindow : Instant) :
    forwardedFor party peer [.forwarded request originWindow targetWindow] =
      if some (party request) = some peer then 1 else 0 := by
  by_cases same : party request = peer
  · simp [forwardedFor, PunchAction.request, same]
  · simp [forwardedFor, PunchAction.request, same]

theorem asks_initiator : AsksFor (T := T) punchInitiatorRate (·.origin) := by
  intro core input
  have relays := relays_step core input
  simp only [← forwardedFor_relayLog _ _ (step core input).2]
  change ∃ served, core.punchInitiatorRate.Asked (step core input).1.relayState.initiatorRate served ∧ _
  generalize relayLog (step core input).2 = log at relays ⊢
  generalize (step core input).1.relayState = state at relays ⊢
  cases relays with
  | kept => exact ⟨none, .unasked, fun _ => rfl⟩
  | expired => exact ⟨none, .unasked, fun _ => rfl⟩
  | counted initiator target => exact ⟨none, initiator, fun _ => rfl⟩
  | forwarded sender initiator target originWindow targetWindow same =>
    exact ⟨_, initiator, fun peer => forwardedFor_single _ _ _ _ _⟩
  | dropped => exact ⟨none, .unasked, fun _ => rfl⟩
  | answered => exact ⟨none, .unasked, fun peer => forwardedFor_helpers _ peer _ _⟩

theorem asks_target : AsksFor (T := T) punchTargetRate (·.target) := by
  intro core input
  have relays := relays_step core input
  simp only [← forwardedFor_relayLog _ _ (step core input).2]
  change ∃ served, core.punchTargetRate.Asked (step core input).1.relayState.targetRate served ∧ _
  generalize relayLog (step core input).2 = log at relays ⊢
  generalize (step core input).1.relayState = state at relays ⊢
  cases relays with
  | kept => exact ⟨none, .unasked, fun _ => rfl⟩
  | expired => exact ⟨none, .unasked, fun _ => rfl⟩
  | counted initiator target => exact ⟨none, target, fun _ => rfl⟩
  | forwarded sender initiator target originWindow targetWindow same =>
    exact ⟨_, target, fun peer => forwardedFor_single _ _ _ _ _⟩
  | dropped => exact ⟨none, .unasked, fun _ => rfl⟩
  | answered => exact ⟨none, .unasked, fun peer => forwardedFor_helpers _ peer _ _⟩

section Windows

variable {limiter : PunchCore T → RepairRateLimiter} {party : ConnectRequest → Pubkey} {most : Nat}

theorem limited_run (asks : AsksFor limiter party) (positive : 0 < most) (core : PunchCore T)
    (held : (limiter core).Limited most) (inputs : List (Input T)) : (limiter (run step core inputs).1).Limited most := by
  refine run_invariant (P := fun core => (limiter core).Limited most) held ?_ inputs (meets_true inputs)
  intro core input held _
  obtain ⟨_, asked, _⟩ := asks core input
  exact RepairRateLimiter.limited_asked held positive asked

/-- All through the run the peer is in the rate window that began then. -/
def Throughout (limiter : PunchCore T → RepairRateLimiter) (peer : Pubkey) (start : Instant) (core : PunchCore T)
    (inputs : List (Input T)) : Prop :=
  Meets step (fun core input => (limiter (step core input).1).InWindow peer start) core inputs

theorem forwards_in_window (asks : AsksFor limiter party) (positive : 0 < most) (held : (limiter core).Limited most)
    {peer : Pubkey} {start : Instant} {inputs : List (Input T)} (stays : Throughout limiter peer start core inputs) :
    forwardedFor party peer (run step core inputs).2 ≤ most := by
  have remembered := run_history (P := fun _ core log => (limiter core).Limited most ∧
      (limiter core).Remembers peer start (forwardedFor party peer log))
    ⟨held, RepairRateLimiter.remembers_none _ peer start⟩ ?_ inputs stays
  · exact remembered.2.le remembered.1
  intro _ core log input held inside
  obtain ⟨served, asked, counts⟩ := asks core input
  refine ⟨RepairRateLimiter.limited_asked held.1 positive asked, ?_⟩
  rw [forwardedFor, List.countP_append, ← forwardedFor, ← forwardedFor, counts peer]
  exact RepairRateLimiter.remembers_asked held.1 positive held.2 asked inside

end Windows

/-! ### The relay in a run -/

structure RelaySound (start : PunchCore T) (inputs : List (Input T)) : Prop where
  /-- A response that goes back answers a request that was forwarded before, under its nonce and to its signer. -/
  answers : ∀ before input after response, inputs = before ++ input :: after →
    .answered response true ∈ (step (run step start before).1 input).2 →
      Forwarded start before ⟨response.target, response.nonce⟩ response.origin
  forwardings : ∀ forwarding ∈ Forwarding.ledger (run step start inputs).2,
    forwarding.answers ≤ 1 ∧ forwarding.helpers ≤ 2
  initiators : ∀ before window after peer begin, inputs = before ++ (window ++ after) →
    Throughout punchInitiatorRate peer begin (run step start before).1 window →
      forwardedFor (·.origin) peer (run step (run step start before).1 window).2 ≤ maxPunchSignalsPerSecond
  targets : ∀ before window after peer begin, inputs = before ++ (window ++ after) →
    Throughout punchTargetRate peer begin (run step start before).1 window →
      forwardedFor (·.target) peer (run step (run step start before).1 window).2 ≤ maxPunchSignalsPerSecond
  tables : (run step start inputs).1.punchInitiatorRate.peers.entries.length ≤ maxRateLimitPeers ∧
    (run step start inputs).1.punchTargetRate.peers.entries.length ≤ maxRateLimitPeers

/-- Whatever frames a relay is sent, and in whatever order. -/
theorem relay_sound (transport : T) (keypair : Ed25519.Keypair) (birthdayPunch : Bool) (sockets : Nat)
    (inputs : List (Input T)) : RelaySound (new transport keypair birthdayPunch sockets) inputs := by
  have positive : 0 < maxPunchSignalsPerSecond := by decide
  have initiators := limited_run asks_initiator positive (new transport keypair birthdayPunch sockets)
    (RepairRateLimiter.limited_new maxPunchSignalsPerSecond)
  have targets := limited_run asks_target positive (new transport keypair birthdayPunch sockets)
    (RepairRateLimiter.limited_new maxPunchSignalsPerSecond)
  refine ⟨fun before input after response split answered => ?_,
    (accounted_run transport keypair birthdayPunch sockets inputs).bounded,
    fun before window after peer begin split stays => forwards_in_window asks_initiator positive (initiators before) stays,
    fun before window after peer begin split stays => forwards_in_window asks_target positive (targets before) stays,
    (initiators inputs).length_le, (targets inputs).length_le⟩
  obtain ⟨forward, found, target⟩ := forward_of_answered answered
  rw [← target]
  exact forwarded_run (fun key => TreeMap.getElem?_emptyc) before _ forward found

end PunchCore

end Lightbringer.Overlay
