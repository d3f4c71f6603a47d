import Lightbringer.Overlay.Punch
import Lightbringer.Lib.Entries

/-!
# What a step does to a punch session

Sessions are known by a nonce that the remote initiator chose. `Turn` lists everything a step can do to the session
under one nonce, with what is logged about it; whatever is shown of sessions over a run comes from that list.
-/

namespace Lightbringer.Overlay
open Std Machine

/-! ### The log of a session -/

/-- Whether an action is about the life of the session under this nonce. -/
def PunchAction.about (n : UInt64) : PunchAction → Bool
  | .created nonce _ | .assisted nonce | .volley nonce => nonce = n
  | _ => false

def sessionLog (n : UInt64) (actions : List PunchAction) : List PunchAction := actions.filter (PunchAction.about n)

@[simp] theorem sessionLog_append (n : UInt64) (actions more : List PunchAction) :
    sessionLog n (actions ++ more) = sessionLog n actions ++ sessionLog n more := List.filter_append ..

/-- Nothing in it is about a session. -/
def Silent (actions : List PunchAction) : Prop := ∀ action ∈ actions, ∀ n, action.about n = false

theorem Silent.sessionLog {actions : List PunchAction} (silent : Silent actions) (n : UInt64) : sessionLog n actions = [] :=
  List.filter_eq_nil_iff.mpr (fun action member => by simp [silent action member n])

theorem Silent.append {actions more : List PunchAction} (first : Silent actions) (second : Silent more) :
    Silent (actions ++ more) := by
  intro action member
  rcases List.mem_append.mp member with early | late
  · exact first action early
  · exact second action late

theorem silent_nil : Silent [] := fun _ member => nomatch member

theorem silent_singleton {action : PunchAction} (none : ∀ n, action.about n = false) : Silent [action] := by
  intro other member
  rw [List.mem_singleton.mp member]
  exact none

namespace PunchSession

/-- What `advance_punches` leaves of a session. -/
def survive (birthdayPunch : Bool) (now : Instant) (session : PunchSession) : Option PunchSession :=
  if session.deadline ≤ now then none else some (session.advance birthdayPunch now).1

/-- What it logs about it. -/
def volleys (birthdayPunch : Bool) (now : Instant) (n : UInt64) (session : PunchSession) : List PunchAction :=
  if now < session.deadline && (session.advance birthdayPunch now).2 then [.volley n] else []

/-- Advancing only touches the schedule. -/
theorem rest_advance (session : PunchSession) (birthdayPunch : Bool) (now : Instant) :
    ∃ nextProbe probeRounds, (session.advance birthdayPunch now).1 =
      { session with nextProbe := nextProbe, probeRounds := probeRounds } := by
  unfold advance
  split
  · exact ⟨_, _, rfl⟩
  split
  · exact ⟨_, _, rfl⟩
  split
  · exact ⟨_, _, rfl⟩
  · exact ⟨_, _, rfl⟩

theorem rest_bracketed (session : PunchSession) (ip : IpAddr) (start stop : UInt16) :
    ∃ prediction brackets, session.bracketed ip start stop =
      { session with sequentialPrediction := prediction, bracketCandidates := brackets } := by
  unfold bracketed
  split
  · exact ⟨_, _, rfl⟩
  · exact ⟨_, _, rfl⟩

theorem survive_eq_some {birthdayPunch : Bool} {now : Instant} {session session' : PunchSession}
    (survived : session.survive birthdayPunch now = some session') :
    now < session.deadline ∧ ∃ nextProbe probeRounds,
      session' = { session with nextProbe := nextProbe, probeRounds := probeRounds } := by
  unfold survive at survived
  split at survived
  · cases survived
  next alive =>
    obtain ⟨nextProbe, probeRounds, rest⟩ := rest_advance session birthdayPunch now
    refine ⟨Nat.not_le.mp alive, nextProbe, probeRounds, ?_⟩
    rw [← rest]
    exact (Option.some.inj survived).symm

end PunchSession

namespace PunchCore

variable [Ed25519] {T : Type}

/-! ### Beside the sessions -/

/-- Only the transport differs, and nothing is logged about a session. -/
structure Aside (core : PunchCore T) (result : PunchCore T × List PunchAction) : Prop where
  moved : ∃ transport, result.1 = { core with transport := transport }
  silent : Silent result.2

theorem aside_nil (core : PunchCore T) : Aside core (core, []) := ⟨⟨core.transport, rfl⟩, silent_nil⟩

theorem aside_run {α : Type} {act : PunchCore T → α → PunchCore T × List PunchAction}
    (each : ∀ core i, Aside core (act core i)) (items : List α) (core : PunchCore T) :
    Aside core (run act core items) := by
  induction items generalizing core with
  | nil => exact aside_nil core
  | cons item rest ih =>
    obtain ⟨⟨transport, moved⟩, silent⟩ := each core item
    obtain ⟨⟨transport', moved'⟩, silent'⟩ := ih (act core item).1
    refine ⟨⟨transport', ?_⟩, silent.append silent'⟩
    rw [run_cons, moved', moved]

/-! ### Sessions that end -/

/-- The sessions under the given nonces are gone. Of the rest only the transport and what is remembered of past
punches differ. -/
structure Ended (gone : List UInt64) (core : PunchCore T) (result : PunchCore T × List PunchAction) : Prop where
  session : ∀ n, result.1.punchSessions[n]? = if n ∈ gone then none else core.punchSessions[n]?
  rest : ∃ transport sessions outcomes profiles, result.1 = { core with
    transport := transport
    punchSessions := sessions
    punchOutcomes := outcomes
    lastPunchProfiles := profiles }
  silent : Silent result.2

theorem ended_of_aside {core : PunchCore T} {k : UInt64} {outcomes : Lru PunchOutcomeKey Instant}
    {profiles : Lru Pubkey NatProfile} {transport : T} {result : PunchCore T × List PunchAction}
    (aside : Aside { core with
      transport := transport
      punchSessions := core.punchSessions.erase k
      punchOutcomes := outcomes
      lastPunchProfiles := profiles } result) : Ended [k] core result := by
  obtain ⟨⟨transport, moved⟩, silent⟩ := aside
  refine ⟨fun n => ?_, ⟨_, _, _, _, moved⟩, silent⟩
  rw [moved]
  dsimp only
  rw [Entries.getElem?_erase]
  simp [eq_comm]

theorem ended_run {act : PunchCore T → UInt64 × PunchSession → PunchCore T × List PunchAction}
    (each : ∀ core entry, Ended [entry.1] core (act core entry)) (entries : List (UInt64 × PunchSession))
    (core : PunchCore T) : Ended (entries.map Prod.fst) core (run act core entries) := by
  induction entries generalizing core with
  | nil => exact ⟨fun n => by simp, ⟨_, _, _, _, rfl⟩, silent_nil⟩
  | cons entry rest ih =>
    obtain ⟨session, ⟨_, _, _, _, moved⟩, silent⟩ := each core entry
    obtain ⟨session', ⟨_, _, _, _, moved'⟩, silent'⟩ := ih (act core entry).1
    refine ⟨fun n => ?_, ?_, silent.append silent'⟩
    · rw [run_cons, session', session]
      by_cases here : n = entry.1
      · simp [here]
      · simp only [List.map_cons, List.mem_cons, here, false_or, List.not_mem_nil, if_false]
    · rw [run_cons, moved', moved]
      exact ⟨_, _, _, _, rfl⟩

/-- The nonces of the sessions that meet a condition. -/
theorem mem_nonces {core : PunchCore T} {p : UInt64 × PunchSession → Bool} {n : UInt64} :
    n ∈ (core.punchSessions.toList.filter p).map Prod.fst ↔
      ∃ session, core.punchSessions[n]? = some session ∧ p (n, session) = true := by
  rw [List.mem_map]
  constructor
  · rintro ⟨⟨k, session⟩, member, rfl⟩
    obtain ⟨there, meets⟩ := List.mem_filter.mp member
    exact ⟨session, TreeMap.mem_toList_iff_getElem?_eq_some.mp there, meets⟩
  · rintro ⟨session, found, meets⟩
    exact ⟨(n, session), List.mem_filter.mpr ⟨TreeMap.mem_toList_iff_getElem?_eq_some.mpr found, meets⟩, rfl⟩

variable [PunchTransport T]

theorem queueFrame_eq (core : PunchCore T) (pubkey : Pubkey) (frame : PunchFrame) :
    ∃ transport queued, core.queueFrame pubkey frame = ({ core with transport := transport }, queued) :=
  ⟨_, _, rfl⟩

/-- A punch starts where the request could be queued; else only the transport has changed. -/
theorem initiatePunch_cases (core : PunchCore T) (env : PunchEnv T) (peer via : Pubkey) (nonce : UInt64)
    (payload : Option (List UInt8)) :
    ∃ transport, core.initiatePunch env peer via nonce payload = ({ core with transport := transport }, false, []) ∨
      core.initiatePunch env peer via nonce payload =
        ({ ({ core with transport := transport } : PunchCore T).setSession nonce
              (.initiated peer nonce via (core.localNatProfile env) payload env.now) with
            punchAttempts := core.punchAttempts + 1 },
          true, [.created nonce env.now]) := by
  obtain ⟨transport, queued, sent⟩ := queueFrame_eq core via
    (.connectRequest (ConnectRequest.sign nonce peer env.candidates (core.localNatProfile env) core.keypair))
  unfold initiatePunch
  rw [sent]
  cases queued with
  | false => exact ⟨transport, .inl rfl⟩
  | true => exact ⟨transport, .inr rfl⟩

/-- Whether or not the answer could be queued, the session is opened and the punches go on. -/
theorem answerRequest_eq (core : PunchCore T) (env : PunchEnv T) (via : Pubkey) (request : ConnectRequest) :
    ∃ transport, core.answerRequest env via request =
      let opened := core.openSession env via request
      let advanced := ({ opened.1 with transport := transport } : PunchCore T).advancePunches env.now
      let bound :=
        if core.birthdayRequest env request then advanced.1.startBirthday env request.nonce else (advanced.1, [])
      (bound.1, opened.2 ++ advanced.2 ++ bound.2) := ⟨_, rfl⟩

theorem aside_sendPunchProbe (core : PunchCore T) (dest : SocketAddr) (probe : PunchProbe) :
    Aside core (core.sendPunchProbe dest probe) := by
  refine ⟨⟨_, rfl⟩, ?_⟩
  dsimp only [sendPunchProbe]
  split
  · exact silent_singleton (fun _ => rfl)
  · exact silent_nil

theorem aside_closeSocket (core : PunchCore T) (socket : SocketId) : Aside core (core.closeSocket socket) :=
  ⟨⟨_, rfl⟩, silent_singleton (fun _ => rfl)⟩

theorem aside_closeBirthdaySockets (core : PunchCore T) (sockets : List SocketId) (keep : Option SocketId) :
    Aside core (core.closeBirthdaySockets sockets keep) := aside_run aside_closeSocket _ core

theorem ended_expirePunch (now : Instant) (core : PunchCore T) (entry : UInt64 × PunchSession) :
    Ended [entry.1] core (expirePunch now core entry) := by
  dsimp only [expirePunch, cachePunchFailure]
  split
  · exact ended_of_aside (aside_closeBirthdaySockets _ _ _)
  · exact ended_of_aside (aside_closeBirthdaySockets _ _ _)

theorem ended_completeSession (peer : Pubkey) (core : PunchCore T) (entry : UInt64 × PunchSession) :
    Ended [entry.1] core (completeSession peer core entry) := by
  dsimp only [completeSession]
  split
  · exact ended_of_aside (aside_closeBirthdaySockets _ _ _)
  · exact ended_of_aside (aside_closeBirthdaySockets _ _ _)

/-! ### Advancing -/

theorem aside_sendProbe (core : PunchCore T) (send : SocketAddr × PunchProbe) : Aside core (sendProbe core send) :=
  aside_sendPunchProbe core send.1 send.2

theorem rest_sendVolleys (core : PunchCore T) (now : Instant) :
    ∃ transport, (core.sendVolleys now).1 = { core with
      transport := transport
      punchSessions := core.punchSessions.map (fun _ session => (session.advance core.birthdayPunch now).1) } :=
  (aside_run aside_sendProbe _ { core with
    punchSessions := core.punchSessions.map (fun _ session => (session.advance core.birthdayPunch now).1) }).moved

theorem getElem?_sendVolleys (core : PunchCore T) (now : Instant) (n : UInt64) :
    (core.sendVolleys now).1.punchSessions[n]? =
      (core.punchSessions[n]?).map (fun session => (session.advance core.birthdayPunch now).1) := by
  obtain ⟨transport, moved⟩ := rest_sendVolleys core now
  rw [moved, TreeMap.getElem?_map]

theorem sessionLog_sendVolleys (core : PunchCore T) (now : Instant) (n : UInt64) :
    sessionLog n (core.sendVolleys now).2 =
      (core.punchSessions[n]?).elim []
        (fun session => if (session.advance core.birthdayPunch now).2 then [.volley n] else []) := by
  have sent := (aside_run aside_sendProbe ((core.volleying now).flatMap (fun entry =>
    entry.2.targets.map (fun dest => (dest, PunchProbe.sign entry.2.nonce core.keypair)))) { core with
    punchSessions := core.punchSessions.map (fun _ session => (session.advance core.birthdayPunch now).1) }).silent
  dsimp only [sendVolleys]
  rw [sessionLog_append, sent.sessionLog, List.append_nil, sessionLog, List.filter_map]
  have mine : (PunchAction.about n ∘ fun entry : UInt64 × PunchSession => PunchAction.volley entry.1) =
      fun entry => decide (entry.1 = n) := rfl
  rw [mine, volleying, List.filter_filter]
  have swap : (core.punchSessions.toList.filter fun entry =>
      decide (entry.1 = n) && (entry.2.advance core.birthdayPunch now).2) =
      (core.punchSessions.toList.filter (fun entry => entry.1 = n)).filter
        (fun entry => (entry.2.advance core.birthdayPunch now).2) := by
    rw [List.filter_filter]
    exact List.filter_congr (fun entry _ => Bool.and_comm ..)
  rw [swap, Entries.filter_key]
  cases core.punchSessions[n]? with
  | none => rfl
  | some session =>
    by_cases due : (session.advance core.birthdayPunch now).2 = true
    · simp [due]
    · simp [due]

theorem ended_expiry (core : PunchCore T) (now : Instant) :
    Ended ((core.punchSessions.toList.filter (fun entry => entry.2.deadline ≤ now)).map Prod.fst) core
      (run (expirePunch now) core (core.punchSessions.toList.filter (fun entry => entry.2.deadline ≤ now))) :=
  ended_run (ended_expirePunch now) _ core

/-- The sessions whose time is not up. -/
theorem getElem?_expiry (core : PunchCore T) (now : Instant) (n : UInt64) :
    (run (expirePunch now) core
        (core.punchSessions.toList.filter (fun entry => entry.2.deadline ≤ now))).1.punchSessions[n]? =
      (core.punchSessions[n]?).bind (fun session => if session.deadline ≤ now then none else some session) := by
  rw [(ended_expiry core now).session]
  simp only [mem_nonces]
  cases found : core.punchSessions[n]? with
  | none => simp
  | some session => simp

theorem birthdayPunch_expiry (core : PunchCore T) (now : Instant) :
    (run (expirePunch now) core
      (core.punchSessions.toList.filter (fun entry => entry.2.deadline ≤ now))).1.birthdayPunch =
      core.birthdayPunch := by
  obtain ⟨_, _, _, _, moved⟩ := (ended_expiry core now).rest
  rw [moved]

theorem getElem?_advancePunches (core : PunchCore T) (now : Instant) (n : UInt64) :
    (core.advancePunches now).1.punchSessions[n]? =
      (core.punchSessions[n]?).bind (PunchSession.survive core.birthdayPunch now) := by
  dsimp only [advancePunches]
  rw [getElem?_sendVolleys, getElem?_expiry, birthdayPunch_expiry]
  cases core.punchSessions[n]? with
  | none => rfl
  | some session =>
    dsimp only [Option.bind_some, PunchSession.survive]
    split
    · rfl
    · rfl

theorem sessionLog_advancePunches (core : PunchCore T) (now : Instant) (n : UInt64) :
    sessionLog n (core.advancePunches now).2 =
      (core.punchSessions[n]?).elim [] (PunchSession.volleys core.birthdayPunch now n) := by
  dsimp only [advancePunches]
  rw [sessionLog_append, (ended_expiry core now).silent.sessionLog, List.nil_append, sessionLog_sendVolleys,
    getElem?_expiry, birthdayPunch_expiry]
  cases core.punchSessions[n]? with
  | none => rfl
  | some session =>
    dsimp only [Option.bind_some, Option.elim_some, PunchSession.volleys]
    by_cases late : session.deadline ≤ now
    · rw [if_pos late]
      simp [late]
    · rw [if_neg late]
      simp [Nat.not_le.mp late]

theorem rest_advancePunches (core : PunchCore T) (now : Instant) :
    ∃ transport sessions outcomes profiles, (core.advancePunches now).1 = { core with
      transport := transport
      punchSessions := sessions
      punchOutcomes := outcomes
      lastPunchProfiles := profiles } := by
  obtain ⟨_, _, _, _, expired⟩ := (ended_expiry core now).rest
  obtain ⟨_, moved⟩ := rest_sendVolleys (run (expirePunch now) core
    (core.punchSessions.toList.filter (fun entry => entry.2.deadline ≤ now))).1 now
  dsimp only [advancePunches]
  rw [moved, expired]
  exact ⟨_, _, _, _, rfl⟩

/-! ### Birthday sockets -/

/-- Sockets were bound: of the state only the platform and the transport differ. -/
structure Bound {α : Type} (core : PunchCore T) (result : PunchCore T × α × List PunchAction) : Prop where
  rest : ∃ platform transport, result.1 = { core with platform := platform, transport := transport }
  silent : Silent result.2.2

theorem bound_bindBirthday (core : PunchCore T) (nonce : UInt64) (target : SocketAddr) :
    Bound core (core.bindBirthday nonce target) := by
  unfold bindBirthday
  split
  · exact ⟨⟨_, _, rfl⟩, silent_nil⟩
  next platform socket _ =>
    dsimp only [sendPunchProbeFrom, closeSocket]
    split
    · exact ⟨⟨_, _, rfl⟩, (silent_singleton (fun _ => rfl)).append (silent_singleton (fun _ => rfl))⟩
    · exact ⟨⟨_, _, rfl⟩, (silent_singleton (fun _ => rfl)).append (silent_singleton (fun _ => rfl))⟩

theorem bound_bindBirthdays (nonce : UInt64) (target : SocketAddr) (core : PunchCore T) (rounds : Nat) :
    Bound core (bindBirthdays nonce target core rounds) := by
  induction rounds generalizing core with
  | zero => exact ⟨⟨_, _, rfl⟩, silent_nil⟩
  | succ rounds ih =>
    have first := bound_bindBirthday core nonce target
    unfold bindBirthdays
    split
    next bound =>
      rw [bound] at first
      exact ⟨first.rest, first.silent⟩
    next next _ _ bound =>
      rw [bound] at first
      obtain ⟨⟨_, _, moved⟩, silent⟩ := first
      obtain ⟨⟨_, _, moved'⟩, silent'⟩ := ih next
      dsimp only at moved
      refine ⟨?_, silent.append silent'⟩
      dsimp only
      rw [moved', moved]
      exact ⟨_, _, rfl⟩

/-- A birthday punch may begin. -/
inductive Opens (birthday : Bool) (now : Instant) : Option PunchSession → Option PunchSession → Prop
  | unopened (session : Option PunchSession) : Opens birthday now session session
  | opened {session : PunchSession} (agreed : birthday = true) (first : session.birthdayStarted = false)
      (sockets : List SocketId) : Opens birthday now (some session) (some (session.opened sockets now))

/-- `start_birthday` changes no other session and nothing but sessions, the transport and the platform. -/
structure Started (nonce : UInt64) (now : Instant) (core : PunchCore T) (result : PunchCore T × List PunchAction) :
    Prop where
  opens : Opens true now core.punchSessions[nonce]? result.1.punchSessions[nonce]?
  others : ∀ n, n ≠ nonce → result.1.punchSessions[n]? = core.punchSessions[n]?
  rest : ∃ platform transport sessions, result.1 = { core with
    platform := platform
    transport := transport
    punchSessions := sessions }
  silent : Silent result.2

omit [PunchTransport T] in
theorem started_same {nonce : UInt64} {now : Instant} {core : PunchCore T} {platform : Platform} {transport : T}
    {actions : List PunchAction} (silent : Silent actions) :
    Started nonce now core ({ core with platform := platform, transport := transport }, actions) :=
  ⟨.unopened _, fun _ _ => rfl, ⟨_, _, _, rfl⟩, silent⟩

theorem started_startBirthday (core : PunchCore T) (env : PunchEnv T) (nonce : UInt64) :
    Started nonce env.now core (core.startBirthday env nonce) := by
  unfold startBirthday
  split
  · exact started_same silent_nil
  next session found =>
    split
    · exact started_same silent_nil
    next due =>
      split
      · exact started_same silent_nil
      next target _ =>
        obtain ⟨⟨_, _, moved⟩, silent⟩ := bound_bindBirthdays nonce target core birthdaySocketCap
        unfold openBirthday
        split
        next bound =>
          rw [bound] at moved silent
          cases moved
          exact started_same silent
        next sockets _ _ bound =>
          rw [bound] at moved silent
          cases moved
          have first : session.birthdayStarted = false := by
            simp only [Bool.or_eq_true, not_or, Bool.not_eq_true] at due
            exact due.1.1.1
          refine ⟨?_, fun n apart => ?_, ⟨_, _, _, rfl⟩, silent⟩
          · dsimp only [queueFrame, setSession]
            rw [found, Entries.getElem?_insert, if_pos rfl]
            exact .opened rfl first sockets
          · dsimp only [queueFrame, setSession]
            rw [Entries.getElem?_insert, if_neg (Ne.symm apart)]

/-! ### Turns -/

/-- The clock during a step that reads it. -/
def Input.now : Input T → Option Instant
  | .send env .. | .frame env .. | .probe env .. => some env.now
  | .timer now => some now
  | _ => none

variable (core : PunchCore T)

/-- A request to this node that passes every check. -/
def admitsRequest (env : PunchEnv T) (source : SocketAddr) (request : ConnectRequest) : Bool :=
  request.verify && request.origin ≠ core.localPubkey && request.target = core.localPubkey &&
    (PunchTransport.peerIdentity core.transport source).isSome && (env.advert request.origin).isSome &&
    !(maxPunchSessions ≤ core.punchSessions.size && request.nonce ∉ core.punchSessions)

/-- The session that such a request finds or opens. -/
def requestedSession (env : PunchEnv T) (via : Pubkey) (request : ConnectRequest) : PunchSession :=
  let session :=
    (core.punchSessions[request.nonce]?).getD (.requested request via (core.localNatProfile env) env.now)
  if core.birthdayRequest env request then session.extended env.now else session

/-- Everything a step can do to the session under `n`, with what it logs about it. -/
inductive Turn (n : UInt64) : Input T → List PunchAction → Option PunchSession → Prop
  | kept (input : Input T) : Turn n input [] core.punchSessions[n]?
  | advanced {input : Input T} {now : Instant} (timed : input.now = some now) :
      Turn n input ((core.punchSessions[n]?).elim [] (PunchSession.volleys core.birthdayPunch now n))
        ((core.punchSessions[n]?).bind (PunchSession.survive core.birthdayPunch now))
  | completed {session : PunchSession} (found : core.punchSessions[n]? = some session) :
      Turn n (.connected session.peer) [] none
  | paid {session : PunchSession} (found : core.punchSessions[n]? = some session) (env : PunchEnv T)
      (payload : Option (List UInt8)) :
      Turn n (.send env session.peer payload) [] (some { session with payload := session.payload.or payload })
  | initiated (free : core.punchSessions[n]? = none) (env : PunchEnv T) (peer via : Pubkey)
      (payload : Option (List UInt8)) :
      Turn n (.send env peer payload) [.created n env.now]
        (some (.initiated peer n via (core.localNatProfile env) payload env.now))
  | requested {env : PunchEnv T} {source : SocketAddr} {request : ConnectRequest} {via : Pubkey}
      {post : Option PunchSession} (here : request.nonce = n) (admitted : core.admitsRequest env source request = true)
      (sender : PunchTransport.peerIdentity core.transport source = some via)
      (opens : Opens (core.birthdayRequest env request) env.now
        ((core.requestedSession env via request).survive core.birthdayPunch env.now) post) :
      Turn n (.frame env source (.connectRequest request))
        ((if (core.punchSessions[n]?).isNone then [.created n env.now] else []) ++
          (core.requestedSession env via request).volleys core.birthdayPunch env.now n) post
  | answered {env : PunchEnv T} {source : SocketAddr} {response : ConnectResponse} {session : PunchSession}
      {post : Option PunchSession} (here : response.nonce = n) (found : core.punchSessions[n]? = some session)
      (awaiting : session.awaitingResponse = true) (peer : session.peer = response.origin)
      (sender : PunchTransport.peerIdentity core.transport source = some session.via)
      (opens : Opens (core.birthdayResponse session) env.now
        ((session.answered response (core.birthdayResponse session) env.now).survive core.birthdayPunch env.now)
        post) :
      Turn n (.frame env source (.connectResponse response))
        ((session.answered response (core.birthdayResponse session) env.now).volleys core.birthdayPunch env.now n) post
  | assisted {env : PunchEnv T} {source : SocketAddr} {port : UInt16} {session : PunchSession} {addr : SocketAddr}
      (kind : PunchAssistKind) (found : core.punchSessions[n]? = some session)
      (sender : PunchTransport.peerIdentity core.transport source = some session.via)
      (unprivileged : minUnprivilegedPort ≤ port)
      (connected : PunchTransport.connectionAddr core.transport session.via = some addr) :
      Turn n (.frame env source (.punchAssist n core.localPubkey session.peer port kind))
        (.assisted n :: (session.assist ⟨addr.ip, port⟩ env.now).volleys core.birthdayPunch env.now n)
        ((session.assist ⟨addr.ip, port⟩ env.now).survive core.birthdayPunch env.now)
  | observed {env : PunchEnv T} {source : SocketAddr} {session : PunchSession} (observed : SocketAddr)
      (found : core.punchSessions[n]? = some session)
      (sender : PunchTransport.peerIdentity core.transport source = some session.via) :
      Turn n (.frame env source (.punchObservation n session.peer core.localPubkey observed))
        ((session.observe observed env.now).volleys core.birthdayPunch env.now n)
        ((session.observe observed env.now).survive core.birthdayPunch env.now)
  | bracketed {env : PunchEnv T} {source : SocketAddr} {session : PunchSession} (ip : IpAddr) (start stop : UInt16)
      (found : core.punchSessions[n]? = some session)
      (sender : PunchTransport.peerIdentity core.transport source = some session.via) :
      Turn n (.frame env source (.punchBracket n session.peer core.localPubkey ip start stop))
        ((session.bracket ip start stop env.now).volleys core.birthdayPunch env.now n)
        ((session.bracket ip start stop env.now).survive core.birthdayPunch env.now)
  | sprayed {env : PunchEnv T} {source : SocketAddr} {session : PunchSession}
      (found : core.punchSessions[n]? = some session) (first : session.birthdaySpraySent = false)
      (sender : PunchTransport.peerIdentity core.transport source = some session.via) :
      Turn n (.frame env source (.punchBirthday n session.peer core.localPubkey)) [] (some (session.sprayed env.now))
  | reached {env : PunchEnv T} {event : PunchProbeEvent} {session : PunchSession} (here : event.probe.nonce = n)
      (found : core.punchSessions[n]? = some session) (peer : session.peer = event.probe.origin)
      (settled : session.awaitingResponse = false) (dials takes : Bool) :
      Turn n (.probe env event) [] (some (session.reached event.source dials takes env.now))

variable {core}

/-- What the environment will answer plays no part in it. -/
theorem turn_supplied {env : PunchEnv T} {n : UInt64} {input : Input T} {log : List PunchAction}
    {post : Option PunchSession} (turn : Turn (core.supplied env) n input log post) : Turn core n input log post := by
  cases turn with
  | kept => exact .kept input
  | advanced timed => exact .advanced timed
  | completed found => exact .completed found
  | paid found env payload =>
    refine .paid ?_ env payload
    exact found
  | initiated free env peer via payload =>
    refine .initiated ?_ env peer via payload
    exact free
  | requested here admitted sender opens => exact .requested here admitted sender opens
  | answered here found awaiting peer sender opens => exact .answered here found awaiting peer sender opens
  | assisted kind found sender unprivileged connected => exact .assisted kind found sender unprivileged connected
  | observed observed found sender => exact .observed observed found sender
  | bracketed ip start stop found sender => exact .bracketed ip start stop found sender
  | sprayed found first sender => exact .sprayed found first sender
  | reached here found peer settled dials takes =>
    refine .reached here ?_ peer settled dials takes
    exact found

/-- A step that leaves the sessions alone. -/
theorem turn_same {core' : PunchCore T} {n : UInt64} {input : Input T} {actions : List PunchAction}
    (same : core'.punchSessions = core.punchSessions) (silent : Silent actions) :
    Turn core n input (sessionLog n actions) core'.punchSessions[n]? := by
  rw [silent.sessionLog, same]
  exact .kept input

/-! ### Initiator -/

theorem turn_initiatePunch (env : PunchEnv T) {peer via : Pubkey} {nonce : UInt64} (payload : Option (List UInt8))
    (free : nonce ∉ core.punchSessions) (n : UInt64) :
    Turn core n (.send env peer payload) (sessionLog n (core.initiatePunch env peer via nonce payload).2.2)
      (core.initiatePunch env peer via nonce payload).1.punchSessions[n]? := by
  obtain ⟨transport, failed | started⟩ := initiatePunch_cases core env peer via nonce payload
  · rw [failed]
    exact turn_same rfl silent_nil
  · rw [started]
    dsimp only [setSession]
    rw [Entries.getElem?_insert]
    by_cases here : nonce = n
    · subst here
      rw [if_pos rfl]
      have logged : sessionLog nonce [PunchAction.created nonce env.now] = [.created nonce env.now] :=
        List.filter_cons_of_pos (decide_eq_true rfl)
      rw [logged]
      exact .initiated (TreeMap.getElem?_eq_none free) env peer via payload
    · rw [if_neg here]
      have silent : sessionLog n [PunchAction.created nonce env.now] = [] :=
        List.filter_cons_of_neg (by simpa [PunchAction.about] using here)
      rw [silent]
      exact .kept _

theorem turn_beginPunch (core : PunchCore T) (env : PunchEnv T) (peer : Pubkey) (payload : Option (List UInt8))
    (n : UInt64) :
    Turn core n (.send env peer payload) (sessionLog n (core.beginPunch env peer payload).2.2)
      (core.beginPunch env peer payload).1.punchSessions[n]? := by
  unfold beginPunch
  split
  · exact turn_same rfl silent_nil
  split
  next nonce session waiting =>
    have found : core.punchSessions[nonce]? = some session :=
      TreeMap.mem_toList_iff_getElem?_eq_some.mp (List.mem_of_find?_eq_some waiting)
    have same : session.peer = peer := by simpa using List.find?_some waiting
    subst same
    dsimp only [setSession]
    rw [silent_nil.sessionLog, Entries.getElem?_insert]
    by_cases here : nonce = n
    · subst here
      rw [if_pos rfl]
      exact .paid found env payload
    · rw [if_neg here]
      exact .kept _
  · split
    · exact turn_same rfl silent_nil
    split
    next via nonce _ drawn =>
      have free : nonce ∉ core.punchSessions := by simpa using List.find?_some drawn
      exact turn_initiatePunch env payload free n
    · exact turn_same rfl silent_nil

/-! ### Target -/

theorem getElem?_openSession (core : PunchCore T) (env : PunchEnv T) (via : Pubkey) (request : ConnectRequest)
    (n : UInt64) :
    (core.openSession env via request).1.punchSessions[n]? =
      if request.nonce = n then some (core.requestedSession env via request) else core.punchSessions[n]? := by
  dsimp only [openSession, requestedSession]
  cases found : core.punchSessions[request.nonce]? with
  | none =>
    dsimp only
    split
    · rw [Entries.getElem?_modify, Entries.getElem?_insert, Entries.getElem?_insert, if_pos rfl]
      by_cases here : request.nonce = n
      · rw [if_pos here, if_pos here]
        rfl
      · rw [if_neg here, if_neg here, if_neg here]
    · rw [Entries.getElem?_insert]
      rfl
  | some session =>
    dsimp only
    split
    · rw [Entries.getElem?_modify, found]
      rfl
    · by_cases here : request.nonce = n
      · rw [if_pos here, ← here, found]
        rfl
      · rw [if_neg here]

theorem sessionLog_openSession (core : PunchCore T) (env : PunchEnv T) (via : Pubkey) (request : ConnectRequest)
    (n : UInt64) :
    sessionLog n (core.openSession env via request).2 =
      if request.nonce = n ∧ (core.punchSessions[n]?).isNone then [.created n env.now] else [] := by
  dsimp only [openSession]
  by_cases here : request.nonce = n
  · subst here
    cases core.punchSessions[request.nonce]? with
    | none => simp [sessionLog, PunchAction.about]
    | some session => simp [sessionLog]
  · have apart : ¬ (request.nonce = n ∧ (core.punchSessions[n]?).isNone = true) := fun both => here both.1
    rw [if_neg apart]
    cases core.punchSessions[request.nonce]? with
    | none => simp [sessionLog, PunchAction.about, here]
    | some session => rfl

/-- Advancing, and starting a birthday punch where one was agreed on. -/
theorem turn_advanced {core' : PunchCore T} {env : PunchEnv T} {nonce : UInt64} {birthday : Bool} {n : UInt64}
    {input : Input T} (log : List PunchAction) {written : PunchSession} (timed : input.now = some env.now)
    (same : core'.birthdayPunch = core.birthdayPunch)
    (session : ∀ n, core'.punchSessions[n]? = if nonce = n then some written else core.punchSessions[n]?)
    (other : nonce ≠ n → log = [])
    (here : nonce = n → ∀ post, Opens birthday env.now (written.survive core.birthdayPunch env.now) post →
      Turn core n input (log ++ written.volleys core.birthdayPunch env.now n) post) :
    Turn core n input
      (log ++ sessionLog n ((core'.advancePunches env.now).2 ++
        (if birthday then (core'.advancePunches env.now).1.startBirthday env nonce
          else ((core'.advancePunches env.now).1, [])).2))
      (if birthday then (core'.advancePunches env.now).1.startBirthday env nonce
        else ((core'.advancePunches env.now).1, [])).1.punchSessions[n]? := by
  have advanced := getElem?_advancePunches core' env.now n
  have logged := sessionLog_advancePunches core' env.now n
  rw [session, same] at advanced logged
  have started := started_startBirthday (core'.advancePunches env.now).1 env nonce
  have silent : sessionLog n (if birthday then (core'.advancePunches env.now).1.startBirthday env nonce
      else ((core'.advancePunches env.now).1, [])).2 = [] := by
    split
    · exact started.silent.sessionLog n
    · rfl
  rw [sessionLog_append, silent, List.append_nil, logged]
  by_cases mine : nonce = n
  · subst mine
    rw [if_pos rfl] at advanced ⊢
    refine here rfl _ ?_
    change (core'.advancePunches env.now).1.punchSessions[nonce]? = _ at advanced
    cases birthday with
    | false =>
      rw [if_neg Bool.false_ne_true, advanced]
      exact .unopened _
    | true =>
      have opens := started.opens
      rw [advanced] at opens
      rw [if_pos rfl]
      exact opens
  · rw [if_neg mine] at advanced ⊢
    rw [other mine, List.nil_append]
    have kept : (if birthday then (core'.advancePunches env.now).1.startBirthday env nonce
        else ((core'.advancePunches env.now).1, [])).1.punchSessions[n]? =
        (core'.advancePunches env.now).1.punchSessions[n]? := by
      split
      · exact started.others n (Ne.symm mine)
      · rfl
    rw [kept, advanced]
    exact .advanced timed

theorem turn_answerRequest {env : PunchEnv T} {source : SocketAddr} {request : ConnectRequest} {via : Pubkey}
    (admitted : core.admitsRequest env source request = true)
    (sender : PunchTransport.peerIdentity core.transport source = some via) (n : UInt64) :
    Turn core n (.frame env source (.connectRequest request)) (sessionLog n (core.answerRequest env via request).2)
      (core.answerRequest env via request).1.punchSessions[n]? := by
  obtain ⟨transport, answered⟩ := answerRequest_eq core env via request
  rw [answered]
  dsimp only
  rw [List.append_assoc, sessionLog_append, sessionLog_openSession]
  refine turn_advanced _ rfl rfl (fun m => getElem?_openSession core env via request m) (fun apart => ?_) ?_
  · exact if_neg (fun both => apart both.1)
  · intro here post opens
    have both : (request.nonce = n ∧ (core.punchSessions[n]?).isNone = true) = ((core.punchSessions[n]?).isNone = true) :=
      by simp [here]
    simp only [both]
    exact .requested here admitted sender opens

/-! ### Relay -/

theorem rest_admitForward (core : PunchCore T) (env : PunchEnv T) (request : ConnectRequest) :
    ∃ initiatorRate targetRate, (core.admitForward env request).1 = { core with
      punchInitiatorRate := initiatorRate
      punchTargetRate := targetRate } := by
  dsimp only [admitForward]
  split
  · exact ⟨_, _, rfl⟩
  split
  · exact ⟨_, _, rfl⟩
  · exact ⟨_, _, rfl⟩

theorem rest_forwardRequest (core : PunchCore T) (env : PunchEnv T) (request : ConnectRequest) :
    (∃ transport forwards, (core.forwardRequest env request).1 = { core with
      transport := transport
      punchForwards := forwards }) ∧ Silent (core.forwardRequest env request).2 := by
  dsimp only [forwardRequest]
  split
  · exact ⟨⟨_, _, rfl⟩, silent_nil⟩
  obtain ⟨transport, queued, sent⟩ := queueFrame_eq core request.target (.connectRequest request)
  rw [sent]
  cases queued with
  | false => exact ⟨⟨_, _, rfl⟩, silent_nil⟩
  | true => exact ⟨⟨_, _, rfl⟩, silent_singleton (fun _ => rfl)⟩

theorem turn_handleConnectRequest (core : PunchCore T) (env : PunchEnv T) (source : SocketAddr)
    (request : ConnectRequest) (n : UInt64) :
    Turn core n (.frame env source (.connectRequest request))
      (sessionLog n (core.handleConnectRequest env source request).2)
      (core.handleConnectRequest env source request).1.punchSessions[n]? := by
  dsimp only [handleConnectRequest]
  split
  · exact turn_same rfl silent_nil
  next signed =>
    split
    next mine =>
      split
      · exact turn_same rfl silent_nil
      next via sender =>
        split
        · exact turn_same rfl silent_nil
        next visible =>
          split
          · exact turn_same rfl silent_nil
          next room =>
            refine turn_answerRequest ?_ sender n
            simp only [Bool.or_eq_true, not_or, Bool.not_eq_true, Bool.not_eq_false', decide_eq_true_eq] at signed
            simp only [Option.isNone_iff_eq_none] at visible
            simp only [admitsRequest, sender, Option.isSome_some, Bool.and_true, Bool.and_eq_true, decide_eq_true_eq,
              Bool.not_eq_true']
            refine ⟨⟨⟨⟨signed.1, signed.2⟩, mine⟩, ?_⟩, ?_⟩
            · exact Option.ne_none_iff_isSome.mp visible
            · exact Bool.eq_false_iff.mpr room
    · split
      · exact turn_same rfl silent_nil
      obtain ⟨_, _, admitted⟩ := rest_admitForward core env request
      split
      · obtain ⟨⟨_, _, moved⟩, silent⟩ := rest_forwardRequest (core.admitForward env request).1 env request
        refine turn_same ?_ silent
        rw [moved, admitted]
      · refine turn_same ?_ silent_nil
        rw [admitted]
        rfl

omit [PunchTransport T] in
theorem rest_planAssist (core : PunchCore T) (profile : NatProfile) (exact : SocketAddr) :
    ∃ platform, (core.planAssist profile exact).1 = { core with platform := platform } := by
  dsimp only [planAssist]
  split
  · split
    · exact ⟨_, rfl⟩
    split
    · exact ⟨_, rfl⟩
    · exact ⟨_, rfl⟩
  split
  · exact ⟨_, rfl⟩
  · exact ⟨_, rfl⟩

omit [PunchTransport T] in
theorem rest_bindAssist (core : PunchCore T) (profile : NatProfile) (plan : PunchAssistKind × UInt16) :
    ∃ platform, (core.bindAssist profile plan).1 = { core with platform := platform } := by
  unfold bindAssist
  split
  · exact ⟨_, rfl⟩
  split
  · dsimp only
    split
    · exact ⟨_, rfl⟩
    · exact ⟨_, rfl⟩
  · exact ⟨_, rfl⟩

theorem rest_startAssist (core : PunchCore T) (env : PunchEnv T) (observer recipient : Pubkey) (nonce : UInt64)
    (profile : NatProfile) (exact : Option SocketAddr) :
    ∃ platform transport helpers, (core.startAssist env observer recipient nonce profile exact).1 = { core with
      platform := platform
      transport := transport
      punchHelpers := helpers } := by
  unfold startAssist
  split
  · exact ⟨_, _, _, rfl⟩
  split
  · exact ⟨_, _, _, rfl⟩
  next addr =>
    obtain ⟨_, planned⟩ := rest_planAssist core profile addr
    split
    next plan =>
      rw [plan] at planned
      rw [planned]
      exact ⟨_, _, _, rfl⟩
    next between _ plan =>
      rw [plan] at planned
      dsimp only at planned
      obtain ⟨_, bound⟩ := rest_bindAssist between profile _
      split
      next bind =>
        rw [bind] at bound
        rw [bound, planned]
        exact ⟨_, _, _, rfl⟩
      next bind =>
        rw [bind] at bound
        dsimp only at bound
        rw [bound, planned]
        exact ⟨_, _, _, rfl⟩

theorem rest_maybeStartAssist (core : PunchCore T) (env : PunchEnv T) (key : ForwardKey) (forward : PunchForward)
    (response : ConnectResponse) :
    ∃ platform transport helpers, (core.maybeStartAssist env key forward response).1 = { core with
      platform := platform
      transport := transport
      punchHelpers := helpers } := by
  dsimp only [maybeStartAssist]
  obtain ⟨_, _, _, first⟩ := rest_startAssist core env key.origin response.origin key.nonce forward.originProfile
    response.candidates.items.head?
  obtain ⟨_, _, _, second⟩ := rest_startAssist (core.startAssist env key.origin response.origin key.nonce
    forward.originProfile response.candidates.items.head?).1 env response.origin key.origin key.nonce
    response.natProfile forward.originCandidates.items.head?
  rw [second, first]
  exact ⟨_, _, _, rfl⟩

omit [Ed25519] in
theorem silent_relayed (key : ForwardKey) (response : ConnectResponse) (queued : Bool) (helpers : List SocketId) :
    Silent (.answered response queued :: helpers.map (PunchAction.helperBound key)) := by
  refine Silent.append (silent_singleton (fun _ => rfl)) (fun action member n => ?_)
  obtain ⟨socket, _, rfl⟩ := List.mem_map.mp member
  rfl

theorem rest_relayResponse (core : PunchCore T) (env : PunchEnv T) (response : ConnectResponse) :
    (core.relayResponse env response).1.punchSessions = core.punchSessions ∧
      Silent (core.relayResponse env response).2 := by
  unfold relayResponse
  dsimp only
  split
  · exact ⟨rfl, silent_nil⟩
  next forward _ =>
    split
    · exact ⟨rfl, silent_nil⟩
    obtain ⟨transport, queued, sent⟩ := queueFrame_eq
      { core with punchForwards := core.punchForwards.erase ⟨response.target, response.nonce⟩ } response.target
      (.connectResponse response)
    rw [sent]
    refine ⟨?_, silent_relayed _ _ _ _⟩
    dsimp only
    obtain ⟨_, _, _, moved⟩ := rest_maybeStartAssist
      (if queued then { core with
          transport := transport, punchForwards := core.punchForwards.erase ⟨response.target, response.nonce⟩ }
        else ({ core with
          transport := transport
          punchForwards := core.punchForwards.erase ⟨response.target, response.nonce⟩ } : PunchCore T).refusePunch)
      env ⟨response.target, response.nonce⟩ forward response
    rw [moved]
    dsimp only
    split
    · rfl
    · rfl

/-! ### Responses -/

/-- Every session is stored under its nonce. -/
def Keyed (core : PunchCore T) : Prop :=
  ∀ (n : UInt64) (session : PunchSession), core.punchSessions[n]? = some session → session.nonce = n

omit [PunchTransport T] in
theorem getElem?_setSession (core : PunchCore T) (nonce : UInt64) (session : PunchSession) (n : UInt64) :
    (core.setSession nonce session).punchSessions[n]? = if nonce = n then some session else core.punchSessions[n]? :=
  Entries.getElem?_insert ..

theorem turn_acceptResponse (keyed : Keyed core) {env : PunchEnv T} {source : SocketAddr} {response : ConnectResponse}
    {session : PunchSession} (found : core.punchSessions[response.nonce]? = some session)
    (awaiting : session.awaitingResponse = true) (peer : session.peer = response.origin)
    (sender : PunchTransport.peerIdentity core.transport source = some session.via) (n : UInt64) :
    Turn core n (.frame env source (.connectResponse response))
      (sessionLog n (core.acceptResponse env session response).2)
      (core.acceptResponse env session response).1.punchSessions[n]? := by
  dsimp only [acceptResponse]
  rw [keyed _ _ found, ← List.nil_append (sessionLog n _)]
  refine turn_advanced [] rfl rfl (fun m => getElem?_setSession core response.nonce _ m)
    (fun _ => rfl) ?_
  intro here post opens
  subst here
  exact .answered rfl found awaiting peer sender opens

theorem turn_handleConnectResponse (keyed : Keyed core) (env : PunchEnv T) (source : SocketAddr)
    (response : ConnectResponse) (n : UInt64) :
    Turn core n (.frame env source (.connectResponse response))
      (sessionLog n (core.handleConnectResponse env source response).2)
      (core.handleConnectResponse env source response).1.punchSessions[n]? := by
  dsimp only [handleConnectResponse]
  split
  · exact turn_same rfl silent_nil
  split
  · split
    · exact turn_same rfl silent_nil
    next session found =>
      split
      · exact turn_same rfl silent_nil
      next passed =>
        simp only [Bool.or_eq_true, not_or, Bool.not_eq_true, Bool.not_eq_false', decide_eq_true_eq,
          Decidable.not_not] at passed
        exact turn_acceptResponse keyed found passed.1.1.1 passed.1.1.2 passed.1.2 n
  split
  · exact turn_same rfl silent_nil
  · obtain ⟨same, silent⟩ := rest_relayResponse core env response
    exact turn_same same silent

/-! ### Frames of the relay -/

theorem turn_updateSession {env : PunchEnv T} {nonce : UInt64} {written : PunchSession} {n : UInt64} {input : Input T}
    (log : List PunchAction) (timed : input.now = some env.now) (other : nonce ≠ n → log = [])
    (here : nonce = n → Turn core n input (log ++ written.volleys core.birthdayPunch env.now n)
      (written.survive core.birthdayPunch env.now)) :
    Turn core n input (log ++ sessionLog n (core.updateSession env nonce written).2)
      (core.updateSession env nonce written).1.punchSessions[n]? := by
  unfold updateSession
  rw [sessionLog_advancePunches, getElem?_advancePunches, getElem?_setSession]
  by_cases mine : nonce = n
  · rw [if_pos mine]
    exact here mine
  · rw [if_neg mine, other mine, List.nil_append]
    exact .advanced timed

theorem turn_handlePunchAssist (core : PunchCore T) (env : PunchEnv T) (source : SocketAddr) (nonce : UInt64)
    (origin target : Pubkey) (port : UInt16) (kind : PunchAssistKind) (n : UInt64) :
    Turn core n (.frame env source (.punchAssist nonce origin target port kind))
      (sessionLog n (core.handlePunchAssist env source nonce origin target port).2)
      (core.handlePunchAssist env source nonce origin target port).1.punchSessions[n]? := by
  unfold handlePunchAssist
  split
  next via session sender found =>
    split
    · exact turn_same rfl silent_nil
    next passed =>
      simp only [Bool.or_eq_true, not_or, decide_eq_true_eq, Decidable.not_not] at passed
      obtain ⟨⟨⟨rfl, unprivileged⟩, rfl⟩, rfl⟩ := passed
      split
      · exact turn_same rfl silent_nil
      next addr connected =>
        have logged : ∀ actions, sessionLog n (.assisted nonce :: actions) =
            sessionLog n [.assisted nonce] ++ sessionLog n actions := fun actions => sessionLog_append n [_] actions
        dsimp only
        rw [logged]
        refine turn_updateSession _ rfl (fun apart => ?_) (fun here => ?_)
        · exact List.filter_cons_of_neg (by simpa [PunchAction.about] using apart)
        · subst here
          have mine : sessionLog nonce [PunchAction.assisted nonce] = [.assisted nonce] :=
            List.filter_cons_of_pos (decide_eq_true rfl)
          rw [mine]
          exact .assisted kind found sender (UInt16.not_lt.mp unprivileged) connected
  · exact turn_same rfl silent_nil

theorem turn_handlePunchObservation (core : PunchCore T) (env : PunchEnv T) (source : SocketAddr) (nonce : UInt64)
    (origin target : Pubkey) (observed : SocketAddr) (n : UInt64) :
    Turn core n (.frame env source (.punchObservation nonce origin target observed))
      (sessionLog n (core.handlePunchObservation env source nonce origin target observed).2)
      (core.handlePunchObservation env source nonce origin target observed).1.punchSessions[n]? := by
  unfold handlePunchObservation
  split
  next via session sender found =>
    split
    · exact turn_same rfl silent_nil
    next passed =>
      simp only [Bool.or_eq_true, not_or, decide_eq_true_eq, Decidable.not_not] at passed
      obtain ⟨⟨rfl, rfl⟩, rfl⟩ := passed
      rw [← List.nil_append (sessionLog n _)]
      refine turn_updateSession [] rfl (fun _ => rfl) (fun here => ?_)
      subst here
      exact .observed observed found sender
  · exact turn_same rfl silent_nil

theorem turn_handlePunchBracket (core : PunchCore T) (env : PunchEnv T) (source : SocketAddr) (nonce : UInt64)
    (origin target : Pubkey) (ip : IpAddr) (start stop : UInt16) (n : UInt64) :
    Turn core n (.frame env source (.punchBracket nonce origin target ip start stop))
      (sessionLog n (core.handlePunchBracket env source nonce origin target ip start stop).2)
      (core.handlePunchBracket env source nonce origin target ip start stop).1.punchSessions[n]? := by
  unfold handlePunchBracket
  split
  next via session sender found =>
    split
    · exact turn_same rfl silent_nil
    split
    · exact turn_same rfl silent_nil
    next passed =>
      simp only [Bool.or_eq_true, not_or, decide_eq_true_eq, Decidable.not_not] at passed
      obtain ⟨⟨rfl, rfl⟩, rfl⟩ := passed
      rw [← List.nil_append (sessionLog n _)]
      refine turn_updateSession [] rfl (fun _ => rfl) (fun here => ?_)
      subst here
      exact .bracketed ip start stop found sender
  · exact turn_same rfl silent_nil

/-- Only the transport and the platform differ after a spray. -/
theorem rest_spray (ip : IpAddr) (probes : List PunchProbe) (core : PunchCore T) :
    (∃ platform transport, (run (sprayProbe ip) core probes).1 = { core with
      platform := platform
      transport := transport }) ∧ Silent (run (sprayProbe ip) core probes).2 := by
  induction probes generalizing core with
  | nil => exact ⟨⟨_, _, rfl⟩, silent_nil⟩
  | cons probe rest ih =>
    have first := aside_sendPunchProbe
      { core with platform := core.platform.draw.1 } ⟨ip, birthdayPort core.platform.draw.2⟩ probe
    obtain ⟨⟨_, moved⟩, silent⟩ := first
    obtain ⟨⟨_, _, moved'⟩, silent'⟩ := ih (sprayProbe ip core probe).1
    refine ⟨?_, silent.append silent'⟩
    rw [run_cons, moved']
    change ∃ platform transport, ({ (sprayProbe ip core probe).1 with platform := _, transport := _ } : PunchCore T) = _
    have sprayed : (sprayProbe ip core probe).1 = _ := moved
    rw [sprayed]
    exact ⟨_, _, rfl⟩

theorem turn_handlePunchBirthday (core : PunchCore T) (env : PunchEnv T) (source : SocketAddr) (nonce : UInt64)
    (origin target : Pubkey) (n : UInt64) :
    Turn core n (.frame env source (.punchBirthday nonce origin target))
      (sessionLog n (core.handlePunchBirthday env source nonce origin target).2)
      (core.handlePunchBirthday env source nonce origin target).1.punchSessions[n]? := by
  unfold handlePunchBirthday
  dsimp only
  split
  · split
    · exact turn_same rfl silent_nil
    · exact turn_same rfl silent_nil
  next mine =>
    split
    next via session sender found =>
      split
      · exact turn_same rfl silent_nil
      next passed =>
        simp only [Bool.or_eq_true, not_or, decide_eq_true_eq, Decidable.not_not, Bool.not_eq_true] at passed mine
        obtain ⟨⟨⟨⟨⟨rfl, rfl⟩, first⟩, _⟩, _⟩, _⟩ := passed
        subst mine
        unfold sprayBirthday
        split
        · exact turn_same rfl silent_nil
        next addr _ =>
          dsimp only
          generalize List.replicate birthdaySprayCap _ = probes
          obtain ⟨⟨_, _, moved⟩, silent⟩ := rest_spray addr.ip probes (core.setSession nonce (session.sprayed env.now))
          rw [silent.sessionLog, moved]
          dsimp only
          rw [getElem?_setSession]
          by_cases here : nonce = n
          · subst here
            rw [if_pos rfl]
            exact .sprayed found first sender
          · rw [if_neg here]
            exact .kept _
    · exact turn_same rfl silent_nil

theorem turn_handleFrame (keyed : Keyed core) (env : PunchEnv T) (source : SocketAddr) (frame : PunchFrame)
    (n : UInt64) :
    Turn core n (.frame env source frame) (sessionLog n (core.handleFrame env source frame).2)
      (core.handleFrame env source frame).1.punchSessions[n]? := by
  cases frame with
  | connectRequest request => exact turn_handleConnectRequest core env source request n
  | connectResponse response => exact turn_handleConnectResponse keyed env source response n
  | punchAssist nonce origin target port kind =>
    exact turn_handlePunchAssist core env source nonce origin target port kind n
  | punchObservation nonce origin target observed =>
    exact turn_handlePunchObservation core env source nonce origin target observed n
  | punchBracket nonce origin target ip start stop =>
    exact turn_handlePunchBracket core env source nonce origin target ip start stop n
  | punchBirthday nonce origin target => exact turn_handlePunchBirthday core env source nonce origin target n

/-! ### Probes, connections and the timer -/

theorem aside_replyProbe (core : PunchCore T) (birthdaySocket : Option SocketId) (event : PunchProbeEvent) :
    Aside core (core.replyProbe birthdaySocket event) := by
  cases birthdaySocket with
  | none => exact aside_sendPunchProbe core _ _
  | some socket =>
    dsimp only [replyProbe, sendPunchProbeFrom]
    split
    · exact ⟨⟨_, rfl⟩, silent_singleton (fun _ => rfl)⟩
    · exact ⟨⟨_, rfl⟩, silent_nil⟩

theorem rest_observeProbe (core : PunchCore T) (helper : PunchHelper) (event : PunchProbeEvent) :
    ∃ transport, core.observeProbe helper event = { core with transport := transport } := by
  unfold observeProbe
  split
  · exact ⟨_, rfl⟩
  split
  · exact ⟨_, rfl⟩
  · exact ⟨_, rfl⟩

theorem rest_dialPunched (core : PunchCore T) (env : PunchEnv T) (birthdaySocket : Option SocketId)
    (payload : Option (List UInt8)) (dest : SocketAddr) (peer : Pubkey) (deadline : Instant) :
    ∃ transport confirming, core.dialPunched env birthdaySocket payload dest peer deadline = { core with
      transport := transport
      confirming := confirming } := by
  dsimp only [dialPunched]
  split
  · exact ⟨_, _, rfl⟩
  · exact ⟨_, _, rfl⟩

theorem turn_acceptProbe {env : PunchEnv T} {event : PunchProbeEvent} {session : PunchSession}
    (found : core.punchSessions[event.probe.nonce]? = some session) (peer : session.peer = event.probe.origin)
    (settled : session.awaitingResponse = false) (n : UInt64) :
    Turn core n (.probe env event) (sessionLog n (core.acceptProbe env session event).2)
      (core.acceptProbe env session event).1.punchSessions[n]? := by
  dsimp only [acceptProbe]
  generalize (core.localPubkey < session.peer && !session.dialStarted : Bool) = dials
  generalize (if event.socket ∈ session.birthdaySockets then some event.socket else none) = birthdaySocket
  obtain ⟨⟨_, moved⟩, silent⟩ := aside_replyProbe (core.setSession event.probe.nonce
    (session.reached event.source dials (dials && birthdaySocket.isNone) env.now)) birthdaySocket event
  have reached : Turn core n (.probe env event) [] ((core.setSession event.probe.nonce
      (session.reached event.source dials (dials && birthdaySocket.isNone) env.now)).punchSessions[n]?) := by
    rw [getElem?_setSession]
    by_cases here : event.probe.nonce = n
    · subst here
      rw [if_pos rfl]
      exact .reached rfl found peer settled dials _
    · rw [if_neg here]
      exact .kept _
  cases dials with
  | false =>
    rw [if_neg Bool.false_ne_true]
    dsimp only
    rw [silent.sessionLog, moved]
    exact reached
  | true =>
    rw [if_pos rfl]
    dsimp only
    obtain ⟨_, _, dialed⟩ := rest_dialPunched ((core.setSession event.probe.nonce
      (session.reached event.source true (true && birthdaySocket.isNone) env.now)).replyProbe birthdaySocket event).1
      env birthdaySocket (if (true && birthdaySocket.isNone) = true then session.payload else none) event.source
      session.peer session.deadline
    rw [silent.sessionLog, dialed, moved]
    exact reached

theorem turn_handlePunchProbe (core : PunchCore T) (env : PunchEnv T) (event : PunchProbeEvent) (n : UInt64) :
    Turn core n (.probe env event) (sessionLog n (core.handlePunchProbe env event).2)
      (core.handlePunchProbe env event).1.punchSessions[n]? := by
  unfold handlePunchProbe
  split
  next helper _ =>
    obtain ⟨_, moved⟩ := rest_observeProbe core helper event
    dsimp only
    rw [moved]
    exact turn_same rfl silent_nil
  split
  · exact turn_same rfl silent_nil
  split
  · exact turn_same rfl silent_nil
  next session found =>
    split
    · exact turn_same rfl silent_nil
    next passed =>
      simp only [Bool.or_eq_true, not_or, decide_eq_true_eq, Decidable.not_not, Bool.not_eq_true] at passed
      exact turn_acceptProbe found passed.1 passed.2 n

theorem turn_completePunch (core : PunchCore T) (peer : Pubkey) (n : UInt64) :
    Turn core n (.connected peer) (sessionLog n (core.completePunch peer).2)
      (core.completePunch peer).1.punchSessions[n]? := by
  have ended := ended_run (ended_completeSession peer)
    (core.punchSessions.toList.filter (fun entry => entry.2.peer = peer)) core
  unfold completePunch
  rw [ended.silent.sessionLog, ended.session]
  split
  next gone =>
    obtain ⟨session, found, same⟩ := mem_nonces.mp gone
    have peers : session.peer = peer := of_decide_eq_true same
    rw [← peers]
    exact .completed found
  · exact .kept _

theorem silent_expirePunchHelpers (core : PunchCore T) (now : Instant) :
    (core.expirePunchHelpers now).1.punchSessions = core.punchSessions ∧ Silent (core.expirePunchHelpers now).2 := by
  unfold expirePunchHelpers
  generalize core.punchHelpers.toList.filter (fun entry => entry.2.deadline ≤ now) = entries
  induction entries generalizing core with
  | nil => exact ⟨rfl, silent_nil⟩
  | cons entry rest ih =>
    obtain ⟨same, silent⟩ := ih (expireHelper core entry).1
    exact ⟨same, (silent_singleton (fun _ => rfl)).append silent⟩

theorem getElem?_onTimer (core : PunchCore T) (now : Instant) (n : UInt64) :
    (core.onTimer now).1.punchSessions[n]? =
      (core.punchSessions[n]?).bind (PunchSession.survive core.birthdayPunch now) := by
  obtain ⟨same, _⟩ := silent_expirePunchHelpers ((core.advancePunches now).1.expirePunchForwards now) now
  dsimp only [onTimer]
  rw [same]
  dsimp only [expirePunchForwards]
  exact getElem?_advancePunches core now n

theorem turn_onTimer (core : PunchCore T) (now : Instant) (n : UInt64) :
    Turn core n (.timer now) (sessionLog n (core.onTimer now).2) (core.onTimer now).1.punchSessions[n]? := by
  obtain ⟨_, silent⟩ := silent_expirePunchHelpers ((core.advancePunches now).1.expirePunchForwards now) now
  rw [getElem?_onTimer]
  dsimp only [onTimer]
  rw [sessionLog_append, silent.sessionLog, List.append_nil, sessionLog_advancePunches]
  exact .advanced rfl

/-! ### Steps and runs -/

theorem turn_step (keyed : Keyed core) (input : Input T) (n : UInt64) :
    Turn core n input (sessionLog n (step core input).2) (step core input).1.punchSessions[n]? := by
  cases input with
  | call call => exact turn_same rfl silent_nil
  | send env peer payload =>
    dsimp only [step]
    exact turn_supplied (turn_beginPunch (core.supplied env) env peer payload n)
  | frame env source frame =>
    have keyed' : Keyed (core.supplied env) := keyed
    exact turn_supplied (turn_handleFrame keyed' env source frame n)
  | probe env event => exact turn_handlePunchProbe core env event n
  | connected peer => exact turn_completePunch core peer n
  | settled addr => exact turn_same rfl silent_nil
  | timer now => exact turn_onTimer core now n

omit [Ed25519] in
theorem nonce_survive {birthdayPunch : Bool} {now : Instant} {n : UInt64} {before after : PunchSession}
    (survives : before.survive birthdayPunch now = some after) (same : before.nonce = n) : after.nonce = n := by
  obtain ⟨_, _, _, rfl⟩ := PunchSession.survive_eq_some survives
  exact same

theorem nonce_requestedSession (keyed : Keyed core) (env : PunchEnv T) (via : Pubkey) (request : ConnectRequest) :
    (core.requestedSession env via request).nonce = request.nonce := by
  have stored : ((core.punchSessions[request.nonce]?).getD
      (PunchSession.requested request via (core.localNatProfile env) env.now)).nonce = request.nonce := by
    cases found : core.punchSessions[request.nonce]? with
    | none => rfl
    | some session => exact keyed _ session found
  dsimp only [requestedSession]
  split
  · exact stored
  · exact stored

omit [Ed25519] in
theorem nonce_opens {birthdayPunch birthday : Bool} {now : Instant} {n : UInt64} {before after : PunchSession}
    (opens : Opens birthday now (before.survive birthdayPunch now) (some after)) (same : before.nonce = n) :
    after.nonce = n := by
  generalize survived : before.survive birthdayPunch now = between at opens
  cases opens with
  | unopened => exact nonce_survive survived same
  | opened =>
    have kept := nonce_survive survived same
    exact kept

/-- What is stored under a nonce after a turn carries it. -/
theorem nonce_turn (keyed : Keyed core) {input : Input T} {n : UInt64} {log : List PunchAction}
    {session : PunchSession} (turn : Turn core n input log (some session)) : session.nonce = n := by
  generalize after : some session = post at turn
  cases turn with
  | kept => exact keyed n session after.symm
  | advanced =>
    obtain ⟨before, found, survives⟩ := Option.bind_eq_some_iff.mp after.symm
    exact nonce_survive survives (keyed n before found)
  | completed => cases after
  | paid found =>
    have stored := keyed n _ found
    cases after
    exact stored
  | initiated =>
    cases after
    rfl
  | requested here _ _ opens =>
    subst after here
    exact nonce_opens opens (nonce_requestedSession keyed _ _ _)
  | answered _ found _ _ _ opens =>
    have stored := keyed n _ found
    subst after
    exact nonce_opens opens stored
  | assisted _ found =>
    have stored := keyed n _ found
    exact nonce_survive after.symm stored
  | observed observed found =>
    have stored := keyed n _ found
    exact nonce_survive after.symm stored
  | bracketed ip start stop found =>
    have stored := keyed n _ found
    refine nonce_survive after.symm ?_
    obtain ⟨_, _, rest⟩ := PunchSession.rest_bracketed _ ip start stop
    rw [PunchSession.bracket, rest]
    exact stored
  | sprayed found =>
    have stored := keyed n _ found
    cases after
    exact stored
  | reached _ found =>
    have stored := keyed n _ found
    cases after
    exact stored

theorem keyed_step (keyed : Keyed core) (input : Input T) : Keyed (step core input).1 := by
  intro n session found
  have turn := turn_step keyed input n
  rw [found] at turn
  exact nonce_turn keyed turn

/-- The sessions of every run are stored under their nonces. -/
theorem keyed_run (transport : T) (keypair : Ed25519.Keypair) (birthdayPunch : Bool) (sockets : Nat)
    (inputs : List (Input T)) : Keyed (run step (new transport keypair birthdayPunch sockets) inputs).1 := by
  refine run_invariant (P := Keyed) ?_ (fun core input keyed _ => keyed_step keyed input) inputs (meets_true inputs)
  intro n session found
  rw [new, TreeMap.getElem?_emptyc] at found
  cases found

end PunchCore

end Lightbringer.Overlay
