import Lightbringer.Overlay.PunchSessions
import Lightbringer.Lib.Deadlines

/-!
# Deadlines of hole punching

Of what a punch keeps, the sessions have two deadlines each, their end and their next probe. `advance_punches` puts off
every probe that is due, except for a session that still waits for its response. The forwards of a relay, its helpers
and the dials to be confirmed have one.
-/

namespace Lightbringer.Overlay
open Std Machine Deadlines

/-! ### Punch sessions -/

namespace PunchSession

/-- Neither its end nor its next probe is due. -/
structure Ahead (session : PunchSession) (now : Instant) : Prop where
  deadline : now < session.deadline
  nextProbe : now < session.nextProbe

variable {session session' : PunchSession} {now : Instant}

/-- What `advance_punches` leaves lies ahead, unless it waits for a response with its next probe due. -/
theorem ahead_survive {birthdayPunch : Bool} (waits : session.awaitingResponse = true → now < session.nextProbe)
    (survived : session.survive birthdayPunch now = some session') : session'.Ahead now := by
  unfold survive at survived
  split at survived
  · cases survived
  next alive =>
    have live : now < session.deadline := Nat.not_le.mp alive
    cases survived
    unfold advance
    split
    next idle =>
      refine ⟨live, ?_⟩
      rcases (Bool.or_eq_true _ _).mp idle with awaiting | early
      · exact waits awaiting
      · exact of_decide_eq_true early
    split
    · exact ⟨live, live⟩
    split
    · exact ⟨live, live⟩
    · refine ⟨live, ?_⟩
      dsimp only
      split
      · exact live
      · exact Nat.lt_add_of_pos_right (by decide)

theorem ahead_extended (held : session.Ahead now) : (session.extended now).Ahead now :=
  ⟨Nat.lt_add_of_pos_right (by decide), held.nextProbe⟩

end PunchSession

namespace PunchCore

variable [Ed25519] {T : Type} {core core' core'' : PunchCore T} {now : Instant}

omit [Ed25519] in
theorem ahead_opens {birthday : Bool} {pre post : Option PunchSession} (opens : Opens birthday now pre post)
    (held : ∀ session, pre = some session → session.Ahead now) : ∀ session, post = some session → session.Ahead now := by
  cases opens with
  | unopened => exact held
  | @opened session agreed first sockets =>
    rintro _ ⟨⟩
    obtain ⟨deadline, nextProbe⟩ := PunchSession.ahead_extended (held session rfl)
    exact ⟨deadline, nextProbe⟩

variable [PunchTransport T]

/-- A raw probe that a session takes. -/
def takesProbe (core : PunchCore T) (event : PunchProbeEvent) : Bool :=
  (core.punchHelpers[event.socket]?).isNone && event.probe.verify &&
    (core.punchSessions[event.probe.nonce]?).any
      (fun session => session.peer = event.probe.origin && !session.awaitingResponse)

/-- A session that waits for its response takes a plan or a result of its relay. -/
def takesEarly (core : PunchCore T) (source : SocketAddr) (nonce : UInt64) (peer self : Pubkey) : Bool :=
  self = core.localPubkey && (core.punchSessions[nonce]?).any (fun session =>
    session.awaitingResponse && session.peer = peer &&
      PunchTransport.peerIdentity core.transport source = some session.via)

/-- The input makes a probe due that the step does not send. -/
def hastens (core : PunchCore T) : Input T → Bool
  | .probe _ event => core.takesProbe event
  | .frame _ source (.punchAssist nonce origin target port _) =>
    core.takesEarly source nonce target origin && minUnprivilegedPort ≤ port &&
      ((PunchTransport.peerIdentity core.transport source).bind
        (PunchTransport.connectionAddr core.transport)).isSome
  | .frame _ source (.punchObservation nonce origin target _) => core.takesEarly source nonce origin target
  | .frame _ source (.punchBracket nonce origin target _ start stop) =>
    core.takesEarly source nonce origin target && stop.toNat - start.toNat + 1 ≤ maxBracketWidth
  | _ => false

/-- The session takes it while it waits. -/
theorem takesEarly_of_found {source : SocketAddr} {n : UInt64} {session : PunchSession}
    (found : core.punchSessions[n]? = some session) (awaiting : session.awaitingResponse = true)
    (sender : PunchTransport.peerIdentity core.transport source = some session.via) :
    core.takesEarly source n session.peer core.localPubkey = true := by
  simp [takesEarly, found, awaiting, sender]

/-- A bracket that is too wide is refused. -/
theorem bracket_refused (core : PunchCore T) (env : PunchEnv T) (source : SocketAddr) (nonce : UInt64)
    (origin target : Pubkey) (ip : IpAddr) {start stop : UInt16}
    (wide : maxBracketWidth < stop.toNat - start.toNat + 1) :
    (core.handlePunchBracket env source nonce origin target ip start stop).1 = core.refusePunch := by
  unfold handlePunchBracket
  split
  · rw [if_pos wide]
  · rfl

theorem probe_refused {event : PunchProbeEvent} (untaken : core.takesProbe event = false) (env : PunchEnv T) :
    ∃ transport refused, (core.handlePunchProbe env event).1 =
      { core with transport := transport, punchRefused := refused } := by
  unfold handlePunchProbe
  split
  next helper _ =>
    obtain ⟨_, moved⟩ := rest_observeProbe core helper event
    exact ⟨_, _, moved⟩
  next unhelped =>
    split
    · exact ⟨_, _, rfl⟩
    next verified =>
      split
      · exact ⟨_, _, rfl⟩
      next session found =>
        split
        · exact ⟨_, _, rfl⟩
        next accepted =>
          have valid : event.probe.verify = true := by simpa using verified
          have own : session.peer = event.probe.origin ∧ session.awaitingResponse = false := by simpa using accepted
          have taken : core.takesProbe event = true := by simp [takesProbe, unhelped, found, valid, own]
          rw [untaken] at taken
          cases taken

/-- Sessions that lie ahead go on doing so. -/
theorem ahead_turn {n : UInt64} {input : Input T} {log : List PunchAction} {post : Option PunchSession}
    (turn : Turn core n input log post) (clock : ∀ time, input.now = some time → time = now)
    (calm : core.hastens input = false) (unprobed : ∀ env event, input ≠ .probe env event)
    (narrow : ∀ env source nonce origin target ip start stop,
      input = .frame env source (.punchBracket nonce origin target ip start stop) →
        stop.toNat - start.toNat + 1 ≤ maxBracketWidth)
    (held : ∀ session, core.punchSessions[n]? = some session → session.Ahead now) :
    ∀ session, post = some session → session.Ahead now := by
  have advances : ∀ {session : PunchSession}, (session.awaitingResponse = true → now < session.nextProbe) →
      ∀ session', session.survive core.birthdayPunch now = some session' → session'.Ahead now :=
    fun waits session' survived => PunchSession.ahead_survive waits survived
  cases turn with
  | kept => exact held
  | advanced timed =>
    cases clock _ timed
    intro session' survived
    obtain ⟨session, found, survived⟩ := Option.bind_eq_some_iff.mp survived
    exact advances (fun _ => (held session found).nextProbe) session' survived
  | completed found => rintro _ ⟨⟩
  | paid found env payload =>
    rintro _ ⟨⟩
    obtain ⟨deadline, nextProbe⟩ := held _ found
    exact ⟨deadline, nextProbe⟩
  | initiated free env peer via payload =>
    cases clock _ rfl
    rintro _ ⟨⟩
    exact ⟨Nat.lt_add_of_pos_right (by decide), Nat.lt_add_of_pos_right (by decide)⟩
  | @requested env source request via post here admitted sender opens =>
    cases clock _ rfl
    refine ahead_opens opens (advances (fun awaiting => ?_))
    unfold requestedSession at awaiting ⊢
    rw [here] at awaiting ⊢
    cases found : core.punchSessions[n]? with
    | none =>
      -- The session of a new request waits for nothing.
      rw [found] at awaiting
      dsimp only [Option.getD_none] at awaiting
      split at awaiting
      · cases awaiting
      · cases awaiting
    | some session =>
      dsimp only [Option.getD_some]
      split
      · exact (held session found).nextProbe
      · exact (held session found).nextProbe
  | @answered env source response session post here found awaiting peer sender opens =>
    cases clock _ rfl
    exact ahead_opens opens (advances (fun still => by cases still))
  | @assisted env source port session addr kind found sender unprivileged connected =>
    cases clock _ rfl
    refine advances (fun awaiting => ?_)
    have early := takesEarly_of_found found awaiting sender
    simp [hastens, early, unprivileged, sender, connected] at calm
  | @observed env source session observed found sender =>
    cases clock _ rfl
    refine advances (fun awaiting => ?_)
    have early := takesEarly_of_found found awaiting sender
    simp [hastens, early] at calm
  | @bracketed env source session ip start stop found sender =>
    cases clock _ rfl
    refine advances (fun awaiting => ?_)
    obtain ⟨_, _, rest⟩ := PunchSession.rest_bracketed session ip start stop
    have waiting : session.awaitingResponse = true := by
      rw [PunchSession.bracket, rest] at awaiting
      exact awaiting
    have early := takesEarly_of_found found waiting sender
    have width := narrow _ _ _ _ _ _ _ _ rfl
    simp [hastens, early, width] at calm
  | sprayed found first sender =>
    cases clock _ rfl
    rintro _ ⟨⟩
    obtain ⟨deadline, nextProbe⟩ := PunchSession.ahead_extended (held _ found)
    exact ⟨deadline, nextProbe⟩
  | reached here found peer settled dials takes => exact (unprobed _ _ rfl).elim

/-! ### What a punch keeps besides its sessions -/

/-- Where deadlines are kept that are not of sessions. -/
def schedule (core : PunchCore T) :
    TreeMap SocketAddr ConfirmDial × TreeMap ForwardKey PunchForward × TreeMap SocketId PunchHelper :=
  (core.confirming, core.punchForwards, core.punchHelpers)

theorem schedule_advancePunches (core : PunchCore T) (now : Instant) :
    (core.advancePunches now).1.schedule = core.schedule := by
  obtain ⟨_, _, _, _, rest⟩ := rest_advancePunches core now
  rw [rest]
  rfl

theorem schedule_birthday (core : PunchCore T) (env : PunchEnv T) (birthday : Bool) (nonce : UInt64) :
    (if birthday then core.startBirthday env nonce else (core, [])).1.schedule = core.schedule := by
  cases birthday with
  | false => rfl
  | true =>
    obtain ⟨_, _, _, rest⟩ := (started_startBirthday core env nonce).rest
    rw [if_pos rfl, rest]
    rfl

theorem schedule_completePunch (core : PunchCore T) (peer : Pubkey) :
    (core.completePunch peer).1.schedule = core.schedule := by
  obtain ⟨_, _, _, _, rest⟩ := (ended_run (ended_completeSession peer)
    (core.punchSessions.toList.filter (fun entry => entry.2.peer = peer)) core).rest
  rw [completePunch, rest]
  rfl

theorem schedule_beginPunch (core : PunchCore T) (env : PunchEnv T) (peer : Pubkey) (payload : Option (List UInt8)) :
    (core.beginPunch env peer payload).1.schedule = core.schedule := by
  unfold beginPunch
  split
  · rfl
  split
  · rfl
  split
  · rfl
  split
  · dsimp only [initiatePunch]
    split
    · rfl
    · rfl
  · rfl

theorem schedule_answerRequest (core : PunchCore T) (env : PunchEnv T) (via : Pubkey) (request : ConnectRequest) :
    (core.answerRequest env via request).1.schedule = core.schedule := by
  dsimp only [answerRequest]
  rw [schedule_birthday, schedule_advancePunches]
  rfl

theorem schedule_acceptResponse (core : PunchCore T) (env : PunchEnv T) (session : PunchSession)
    (response : ConnectResponse) : (core.acceptResponse env session response).1.schedule = core.schedule := by
  dsimp only [acceptResponse]
  rw [schedule_birthday, schedule_advancePunches]
  rfl

theorem schedule_updateSession (core : PunchCore T) (env : PunchEnv T) (nonce : UInt64) (session : PunchSession) :
    (core.updateSession env nonce session).1.schedule = core.schedule := by
  rw [updateSession, schedule_advancePunches]
  rfl

theorem schedule_handlePunchAssist (core : PunchCore T) (env : PunchEnv T) (source : SocketAddr) (nonce : UInt64)
    (origin target : Pubkey) (port : UInt16) :
    (core.handlePunchAssist env source nonce origin target port).1.schedule = core.schedule := by
  unfold handlePunchAssist
  split
  · split
    · rfl
    split
    · rfl
    next addr _ =>
      dsimp only
      exact schedule_updateSession core env nonce _
  · rfl

theorem schedule_handlePunchObservation (core : PunchCore T) (env : PunchEnv T) (source : SocketAddr) (nonce : UInt64)
    (origin target : Pubkey) (observed : SocketAddr) :
    (core.handlePunchObservation env source nonce origin target observed).1.schedule = core.schedule := by
  unfold handlePunchObservation
  split
  · split
    · rfl
    · exact schedule_updateSession core env nonce _
  · rfl

theorem schedule_handlePunchBracket (core : PunchCore T) (env : PunchEnv T) (source : SocketAddr) (nonce : UInt64)
    (origin target : Pubkey) (ip : IpAddr) (start stop : UInt16) :
    (core.handlePunchBracket env source nonce origin target ip start stop).1.schedule = core.schedule := by
  unfold handlePunchBracket
  split
  · split
    · rfl
    split
    · rfl
    · exact schedule_updateSession core env nonce _
  · rfl

theorem schedule_handlePunchBirthday (core : PunchCore T) (env : PunchEnv T) (source : SocketAddr) (nonce : UInt64)
    (origin target : Pubkey) : (core.handlePunchBirthday env source nonce origin target).1.schedule = core.schedule := by
  unfold handlePunchBirthday
  dsimp only
  split
  · split
    · rfl
    · rfl
  split
  · split
    · rfl
    unfold sprayBirthday
    split
    · rfl
    next first _ =>
      dsimp only
      generalize List.replicate birthdaySprayCap _ = probes
      obtain ⟨⟨_, _, rest⟩, _⟩ := rest_spray first.ip probes (core.setSession nonce _)
      rw [rest]
      rfl
  · rfl

/-- What is kept anew is not due yet. -/
structure Renewed (now : Instant) (core core' : PunchCore T) : Prop where
  confirming : Renews now ConfirmDial.deadline core.confirming core'.confirming
  forwards : Renews now PunchForward.deadline core.punchForwards core'.punchForwards
  helpers : Renews now PunchHelper.deadline core.punchHelpers core'.punchHelpers

omit [PunchTransport T] in
theorem renewed_of_schedule (same : core'.schedule = core.schedule) : Renewed now core core' := by
  have confirming : core'.confirming = core.confirming := congrArg Prod.fst same
  have forwards : core'.punchForwards = core.punchForwards := congrArg (fun kept => kept.2.1) same
  have helpers : core'.punchHelpers = core.punchHelpers := congrArg (fun kept => kept.2.2) same
  exact ⟨confirming ▸ renews_refl _, forwards ▸ renews_refl _, helpers ▸ renews_refl _⟩

omit [PunchTransport T] in
theorem renewed_trans (first : Renewed now core core') (second : Renewed now core' core'') : Renewed now core core'' :=
  ⟨renews_trans first.confirming second.confirming, renews_trans first.forwards second.forwards,
    renews_trans first.helpers second.helpers⟩

omit [Ed25519] in
theorem later_punch (now : Instant) : now < now + punchTimeout := Nat.lt_add_of_pos_right (by decide)

theorem renewed_forwardRequest (core : PunchCore T) (env : PunchEnv T) (request : ConnectRequest) :
    Renewed env.now core (core.forwardRequest env request).1 := by
  dsimp only [forwardRequest]
  split
  · exact renewed_of_schedule rfl
  split
  · exact ⟨renews_refl _, renews_insert _ _ (later_punch env.now), renews_refl _⟩
  · exact renewed_of_schedule rfl

theorem renewed_handleConnectRequest (core : PunchCore T) (env : PunchEnv T) (source : SocketAddr)
    (request : ConnectRequest) : Renewed env.now core (core.handleConnectRequest env source request).1 := by
  dsimp only [handleConnectRequest]
  split
  · exact renewed_of_schedule rfl
  split
  · split
    · exact renewed_of_schedule rfl
    split
    · exact renewed_of_schedule rfl
    split
    · exact renewed_of_schedule rfl
    · exact renewed_of_schedule (schedule_answerRequest core env _ request)
  split
  · exact renewed_of_schedule rfl
  obtain ⟨_, _, rates⟩ := rest_admitForward core env request
  have admitted : Renewed env.now core (core.admitForward env request).1 := by
    rw [rates]
    exact renewed_of_schedule rfl
  split
  · exact renewed_trans admitted (renewed_forwardRequest _ env request)
  · exact renewed_trans admitted (renewed_of_schedule rfl)

theorem renewed_startAssist (core : PunchCore T) (env : PunchEnv T) (observer recipient : Pubkey) (nonce : UInt64)
    (profile : NatProfile) (exact : Option SocketAddr) :
    Renewed env.now core (core.startAssist env observer recipient nonce profile exact).1 := by
  unfold startAssist
  split
  · exact renewed_of_schedule rfl
  split
  · exact renewed_of_schedule rfl
  next candidate =>
    obtain ⟨_, planned⟩ := rest_planAssist core profile candidate
    split
    next unplanned =>
      rw [unplanned] at planned
      dsimp only at planned
      subst planned
      exact renewed_of_schedule rfl
    next next plan some =>
      rw [some] at planned
      dsimp only at planned
      obtain ⟨_, bound⟩ := rest_bindAssist next profile plan
      subst planned
      split
      next unbound =>
        rw [unbound] at bound
        dsimp only at bound
        subst bound
        exact renewed_of_schedule rfl
      next socket kind port some =>
        rw [some] at bound
        dsimp only at bound
        subst bound
        exact ⟨renews_refl _, renews_refl _, renews_insert _ _ (later_punch env.now)⟩

theorem renewed_relayResponse (core : PunchCore T) (env : PunchEnv T) (response : ConnectResponse) :
    Renewed env.now core (core.relayResponse env response).1 := by
  unfold relayResponse
  dsimp only
  split
  · exact renewed_of_schedule rfl
  split
  · exact ⟨renews_refl _, renews_erase _ _, renews_refl _⟩
  · have assisted : ∀ relayed : PunchCore T, Renewed env.now core relayed → ∀ forward,
        Renewed env.now core
          (relayed.maybeStartAssist env ⟨response.target, response.nonce⟩ forward response).1 :=
      fun relayed renewed forward => renewed_trans (renewed_trans renewed (renewed_startAssist _ env _ _ _ _ _))
        (renewed_startAssist _ env _ _ _ _ _)
    refine assisted _ ?_ _
    split
    · exact ⟨renews_refl _, renews_erase _ _, renews_refl _⟩
    · exact ⟨renews_refl _, renews_erase _ _, renews_refl _⟩

theorem renewed_handleFrame (core : PunchCore T) (env : PunchEnv T) (source : SocketAddr) (frame : PunchFrame) :
    Renewed env.now core (core.handleFrame env source frame).1 := by
  cases frame with
  | connectRequest request => exact renewed_handleConnectRequest core env source request
  | connectResponse response =>
    dsimp only [handleFrame, handleConnectResponse]
    split
    · exact renewed_of_schedule rfl
    split
    · split
      · exact renewed_of_schedule rfl
      split
      · exact renewed_of_schedule rfl
      · exact renewed_of_schedule (schedule_acceptResponse core env _ response)
    split
    · exact renewed_of_schedule rfl
    · exact renewed_relayResponse core env response
  | punchAssist nonce origin target port _ =>
    exact renewed_of_schedule (schedule_handlePunchAssist core env source nonce origin target port)
  | punchObservation nonce origin target observed =>
    exact renewed_of_schedule (schedule_handlePunchObservation core env source nonce origin target observed)
  | punchBracket nonce origin target ip start stop =>
    exact renewed_of_schedule (schedule_handlePunchBracket core env source nonce origin target ip start stop)
  | punchBirthday nonce origin target =>
    exact renewed_of_schedule (schedule_handlePunchBirthday core env source nonce origin target)

/-! ### Steps -/

/-- Nothing of a core is due. -/
structure Scheduled (core : PunchCore T) (now : Instant) : Prop where
  sessions : ∀ (n : UInt64) session, core.punchSessions[n]? = some session → session.Ahead now
  confirming : Later now ConfirmDial.deadline core.confirming
  forwards : Later now PunchForward.deadline core.punchForwards
  helpers : Later now PunchHelper.deadline core.punchHelpers

omit [PunchTransport T] in
theorem Scheduled.renewed (held : core.Scheduled now) (renewed : Renewed now core core')
    (sessions : ∀ (n : UInt64) session, core'.punchSessions[n]? = some session → session.Ahead now) :
    core'.Scheduled now :=
  ⟨sessions, held.confirming.renews renewed.confirming, held.forwards.renews renewed.forwards,
    held.helpers.renews renewed.helpers⟩

/-- No session waits for its response with a probe due. -/
def Answered (core : PunchCore T) (now : Instant) : Prop :=
  ∀ (n : UInt64) session, core.punchSessions[n]? = some session → session.awaitingResponse = true →
    session.nextProbe ≤ now → session.deadline ≤ now

/-- `on_timer` leaves nothing due but the dials to be confirmed, which are not its own. -/
theorem scheduled_onTimer (answered : core.Answered now)
    (confirming : Later now ConfirmDial.deadline core.confirming) : (core.onTimer now).1.Scheduled now := by
  have same : (core.advancePunches now).1.confirming = core.confirming :=
    congrArg Prod.fst (schedule_advancePunches core now)
  have dials : ∀ (core : PunchCore T) entry, (expireHelper core entry).1.confirming = core.confirming := fun _ _ => rfl
  have forwards : ∀ (core : PunchCore T) entry, (expireHelper core entry).1.punchForwards = core.punchForwards :=
    fun _ _ => rfl
  have erases : ∀ (core : PunchCore T) entry,
      (expireHelper core entry).1.punchHelpers = core.punchHelpers.erase entry.1 := fun _ _ => rfl
  refine ⟨fun n session found => ?_, ?_, ?_, ?_⟩
  · rw [getElem?_onTimer] at found
    obtain ⟨before, there, survived⟩ := Option.bind_eq_some_iff.mp found
    refine PunchSession.ahead_survive (fun awaiting => ?_) survived
    by_contra due
    have ended := answered n before there awaiting (Nat.not_lt.mp due)
    rw [PunchSession.survive, if_pos ended] at survived
    cases survived
  · dsimp only [onTimer, expirePunchHelpers]
    rw [run_frame dials]
    dsimp only [expirePunchForwards]
    rw [same]
    exact confirming
  · dsimp only [onTimer, expirePunchHelpers]
    rw [run_frame forwards]
    exact later_filter (fun _ _ live => of_decide_eq_true live) _
  · dsimp only [onTimer, expirePunchHelpers]
    generalize (core.advancePunches now).1.expirePunchForwards now = advanced
    exact later_sweep erases (fun entry live => Nat.not_le.mp (of_decide_eq_false live)) advanced

/-- A step that hastens no probe leaves nothing due. -/
theorem scheduled_step (keyed : Keyed core) (held : core.Scheduled now) {input : Input T}
    (clock : ∀ time, input.now = some time → time = now) (calm : core.hastens input = false) :
    (step core input).1.Scheduled now := by
  cases input with
  | call call => exact ⟨held.sessions, held.confirming, held.forwards, held.helpers⟩
  | settled addr =>
    exact ⟨held.sessions, held.confirming.renews (renews_erase _ _), held.forwards, held.helpers⟩
  | probe env event =>
    obtain ⟨_, _, rest⟩ := probe_refused calm env
    have same : (step core (.probe env event)).1 = _ := rest
    rw [same]
    exact ⟨held.sessions, held.confirming, held.forwards, held.helpers⟩
  | send env peer payload =>
    refine held.renewed (renewed_of_schedule (schedule_beginPunch (core.supplied env) env peer payload)) (fun n => ?_)
    exact ahead_turn (turn_step keyed (.send env peer payload) n) clock calm (fun _ _ => nofun)
      (fun _ _ _ _ _ _ _ _ => nofun) (held.sessions n)
  | frame env source frame =>
    cases clock env.now rfl
    have renewed : Renewed env.now core (step core (.frame env source frame)).1 := by
      have handled := renewed_handleFrame (core.supplied env) env source frame
      exact ⟨handled.confirming, handled.forwards, handled.helpers⟩
    refine held.renewed renewed (fun n => ?_)
    have turns : (∀ nonce origin target ip start stop, frame = .punchBracket nonce origin target ip start stop →
        stop.toNat - start.toNat + 1 ≤ maxBracketWidth) → ∀ session,
        (step core (.frame env source frame)).1.punchSessions[n]? = some session → session.Ahead env.now := by
      intro narrow
      refine ahead_turn (turn_step keyed (.frame env source frame) n) clock calm (fun _ _ => nofun) ?_ (held.sessions n)
      rintro _ _ nonce origin target ip start stop ⟨⟩
      exact narrow nonce origin target ip start stop rfl
    cases frame with
    | punchBracket nonce origin target ip start stop =>
      by_cases wide : maxBracketWidth < stop.toNat - start.toNat + 1
      · have refused := bracket_refused (core.supplied env) env source nonce origin target ip wide
        have same : (step core (.frame env source (.punchBracket nonce origin target ip start stop))).1 = _ := refused
        rw [same]
        exact held.sessions n
      · refine turns ?_
        rintro _ _ _ _ _ _ ⟨⟩
        exact Nat.not_lt.mp wide
    | _ => exact turns (fun _ _ _ _ _ _ => nofun)
  | connected peer =>
    refine held.renewed (renewed_of_schedule (schedule_completePunch core peer)) (fun n => ?_)
    exact ahead_turn (turn_step keyed (.connected peer) n) clock calm (fun _ _ => nofun)
      (fun _ _ _ _ _ _ _ _ => nofun) (held.sessions n)
  | timer time =>
    cases clock time rfl
    refine scheduled_onTimer (fun n session found _ due => ?_) held.confirming
    exact absurd due (Nat.not_le.mpr (held.sessions n session found).nextProbe)

end PunchCore

end Lightbringer.Overlay
