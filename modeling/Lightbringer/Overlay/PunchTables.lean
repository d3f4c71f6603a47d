import Lightbringer.Overlay.PunchRelay

/-!
# The tables of the punch core

How many sessions, forwardings and helpers there can be. Every way to add one looks at the size of its table first.
-/

namespace Lightbringer.Overlay
open Std Machine

namespace PunchCore

variable [Ed25519] {T : Type} [PunchTransport T] {core : PunchCore T}

/-- No table is over its limit. -/
structure Capped (core : PunchCore T) : Prop where
  sessions : core.punchSessions.size ≤ maxPunchSessions
  forwards : core.punchForwards.size ≤ maxPunchForwards
  helpers : core.punchHelpers.size ≤ maxPunchHelpers

/-! ### Sessions -/

/-- A session that was not there before was begun for a payload, or asked for by an admitted request. -/
theorem present_turn {input : Input T} {n : UInt64} {log : List PunchAction} {post : Option PunchSession}
    (turn : Turn core n input log post) (present : post.isSome) :
    (core.punchSessions[n]?).isSome ∨ (∃ env peer payload, input = .send env peer payload) ∨
      ∃ env source request, input = .frame env source (.connectRequest request) ∧ request.nonce = n ∧
        core.admitsRequest env source request = true := by
  cases turn with
  | kept => exact .inl present
  | advanced timed =>
    left
    cases found : core.punchSessions[n]? with
    | none =>
      rw [found] at present
      cases present
    | some session => rfl
  | completed found => cases present
  | initiated free env peer via payload => exact .inr (.inl ⟨env, peer, payload, rfl⟩)
  | @requested env source request via post here admitted sender opens =>
    exact .inr (.inr ⟨env, source, request, rfl, here, admitted⟩)
  | paid found | answered _ found | assisted _ found | observed _ found | bracketed _ _ _ found | sprayed found
  | reached _ found =>
    left
    rw [found]
    rfl

/-- A punch is begun where there is room. -/
theorem sessions_beginPunch (core : PunchCore T) (env : PunchEnv T) (peer : Pubkey) (payload : Option (List UInt8)) :
    (core.beginPunch env peer payload).1.punchSessions.size ≤ core.punchSessions.size ∨
      core.punchSessions.size < maxPunchSessions ∧
        (core.beginPunch env peer payload).1.punchSessions.size ≤ core.punchSessions.size + 1 := by
  unfold beginPunch
  split
  · exact .inl (Nat.le_refl _)
  split
  next nonce session waiting =>
    left
    have found := TreeMap.mem_toList_iff_getElem?_eq_some.mp (List.mem_of_find?_eq_some waiting)
    refine Entries.size_le (fun n present => ?_)
    rw [getElem?_setSession] at present
    split at present
    next here =>
      rw [← here, found]
      rfl
    · exact present
  · split
    · exact .inl (Nat.le_refl _)
    next admits =>
      have room : core.punchSessions.size < maxPunchSessions := by
        simp only [Bool.or_eq_true, not_or, decide_eq_true_eq, Nat.not_le] at admits
        exact admits.1
      split
      next via nonce _ _ =>
        obtain ⟨transport, failed | started⟩ := initiatePunch_cases core env peer via nonce payload
        · rw [failed]
          exact .inl (Nat.le_refl _)
        · rw [started]
          refine .inr ⟨room, Entries.size_le_succ nonce (fun n apart present => ?_)⟩
          dsimp only at present
          rw [getElem?_setSession, if_neg (Ne.symm apart)] at present
          exact present
      · exact .inl (Nat.le_refl _)

theorem sessions_step (keyed : Keyed core) (capped : core.punchSessions.size ≤ maxPunchSessions) (input : Input T) :
    (step core input).1.punchSessions.size ≤ maxPunchSessions := by
  by_cases sends : ∃ env peer payload, input = .send env peer payload
  · obtain ⟨env, peer, payload, rfl⟩ := sends
    rcases sessions_beginPunch (core.supplied env) env peer payload with fewer | ⟨room, more⟩
    · exact fewer.trans capped
    · exact more.trans room
  by_cases opens : ∃ env source request, input = .frame env source (.connectRequest request) ∧
      core.admitsRequest env source request = true ∧ request.nonce ∉ core.punchSessions
  · obtain ⟨env, source, request, same, admitted, new⟩ := opens
    have room : core.punchSessions.size < maxPunchSessions := by
      simp only [admitsRequest, Bool.and_eq_true, Bool.not_eq_true', Bool.and_eq_false_iff, decide_eq_false_iff_not,
        Decidable.not_not] at admitted
      exact Nat.not_le.mp (admitted.2.resolve_right (fun there => new there))
    refine (Entries.size_le_succ request.nonce (fun n apart present => ?_)).trans room
    rcases present_turn (turn_step keyed input n) present with old | sent | ⟨_, _, other, same', here, _⟩
    · exact old
    · exact absurd sent sends
    · rw [same] at same'
      cases same'
      exact absurd here.symm apart
  · refine (Entries.size_le (fun n present => ?_)).trans capped
    rcases present_turn (turn_step keyed input n) present with old | sent | ⟨env, source, request, same, here, admitted⟩
    · exact old
    · exact absurd sent sends
    · by_contra missing
      refine opens ⟨env, source, request, same, admitted, fun there => missing ?_⟩
      rw [← here]
      exact TreeMap.isSome_getElem?_iff_mem.mpr there

/-! ### Forwardings -/

/-- Nothing is admitted into a full table. -/
theorem room_of_admitForward {env : PunchEnv T} {request : ConnectRequest}
    (admitted : (core.admitForward env request).2 = true) : core.punchForwards.size < maxPunchForwards := by
  by_contra full
  rw [admitForward, if_pos (Nat.not_lt.mp full)] at admitted
  cases admitted

theorem forwards_handleConnectRequest (core : PunchCore T) (env : PunchEnv T) (source : SocketAddr)
    (request : ConnectRequest) :
    (core.handleConnectRequest env source request).1.punchForwards = core.punchForwards ∨
      core.punchForwards.size < maxPunchForwards ∧ ∃ key forward,
        (core.handleConnectRequest env source request).1.punchForwards = core.punchForwards.insert key forward := by
  dsimp only [handleConnectRequest]
  split
  · exact .inl rfl
  split
  · split
    · exact .inl rfl
    split
    · exact .inl rfl
    split
    · exact .inl rfl
    next via _ _ _ =>
      have same := (unrelayed_answerRequest core env via request).state
      simp only [relayState, RelayState.mk.injEq] at same
      exact .inl same.1
  split
  · exact .inl rfl
  obtain ⟨initiatorRate, targetRate, rates⟩ := rest_admitForward core env request
  split
  next admitted =>
    rw [rates]
    dsimp only [forwardRequest]
    split
    · exact .inl rfl
    obtain ⟨transport, queued, sent⟩ := queueFrame_eq { core with
      punchInitiatorRate := initiatorRate
      punchTargetRate := targetRate } request.target (.connectRequest request)
    rw [sent]
    cases queued with
    | false => exact .inl rfl
    | true => exact .inr ⟨room_of_admitForward admitted, _, _, rfl⟩
  · rw [rates]
    exact .inl rfl

/-- Only a request adds a forwarding. -/
theorem forwards_relays {input : Input T} {log : List PunchAction} {state : RelayState}
    (relays : Relays core input log state) :
    state.forwards.size ≤ core.punchForwards.size ∨
      ∃ env source request, input = .frame env source (.connectRequest request) := by
  cases relays with
  | kept | counted => exact .inl (Nat.le_refl _)
  | expired now => exact .inl TreeMap.size_filter_le_size
  | @forwarded env source request => exact .inr ⟨env, source, request, rfl⟩
  | dropped | answered => exact .inl TreeMap.size_erase_le

theorem forwards_step (capped : core.punchForwards.size ≤ maxPunchForwards) (input : Input T) :
    (step core input).1.punchForwards.size ≤ maxPunchForwards := by
  rcases forwards_relays (relays_step core input) with fewer | ⟨env, source, request, rfl⟩
  · exact fewer.trans capped
  · rcases forwards_handleConnectRequest (core.supplied env) env source request with same | ⟨room, key, forward, same⟩
    · exact (congrArg TreeMap.size same).trans_le capped
    · exact (congrArg TreeMap.size same).trans_le (TreeMap.size_insert_le.trans room)

/-! ### Helpers -/

theorem helpers_beginPunch (core : PunchCore T) (env : PunchEnv T) (peer : Pubkey) (payload : Option (List UInt8)) :
    (core.beginPunch env peer payload).1.punchHelpers = core.punchHelpers := by
  unfold beginPunch
  split
  · rfl
  split
  · rfl
  · split
    · rfl
    split
    next via nonce _ _ =>
      obtain ⟨transport, failed | started⟩ := initiatePunch_cases core env peer via nonce payload
      · rw [failed]
      · rw [started]
        rfl
    · rfl

theorem helpers_advancePunches (core : PunchCore T) (now : Instant) :
    (core.advancePunches now).1.punchHelpers = core.punchHelpers := by
  obtain ⟨_, _, _, _, advanced⟩ := rest_advancePunches core now
  rw [advanced]

/-- The birthday punch that follows binds no helper. -/
theorem helpers_birthday (core : PunchCore T) (env : PunchEnv T) (birthday : Bool) (nonce : UInt64) :
    (if birthday then core.startBirthday env nonce else (core, [])).1.punchHelpers = core.punchHelpers := by
  split
  next =>
    obtain ⟨_, _, _, started⟩ := (started_startBirthday core env nonce).rest
    rw [started]
  next => rfl

theorem helpers_handleConnectRequest (core : PunchCore T) (env : PunchEnv T) (source : SocketAddr)
    (request : ConnectRequest) :
    (core.handleConnectRequest env source request).1.punchHelpers = core.punchHelpers := by
  dsimp only [handleConnectRequest]
  split
  · rfl
  split
  · split
    · rfl
    split
    · rfl
    split
    · rfl
    next via _ _ _ =>
      dsimp only [answerRequest]
      rw [helpers_birthday, helpers_advancePunches]
      rfl
  split
  · rfl
  obtain ⟨_, _, rates⟩ := rest_admitForward core env request
  split
  · obtain ⟨⟨_, _, moved⟩, _⟩ := rest_forwardRequest (core.admitForward env request).1 env request
    rw [moved, rates]
  · rw [rates]
    rfl

/-- A helper is bound where there is room. -/
theorem helpers_startAssist (core : PunchCore T) (env : PunchEnv T) (observer recipient : Pubkey) (nonce : UInt64)
    (profile : NatProfile) (exact : Option SocketAddr) (capped : core.punchHelpers.size ≤ maxPunchHelpers) :
    (core.startAssist env observer recipient nonce profile exact).1.punchHelpers.size ≤ maxPunchHelpers := by
  unfold startAssist
  split
  · exact capped
  next room =>
    split
    · exact capped
    next addr =>
      obtain ⟨_, planned⟩ := rest_planAssist core profile addr
      split
      next plan =>
        rw [plan] at planned
        rw [planned]
        exact capped
      next between _ plan =>
        rw [plan] at planned
        dsimp only at planned
        obtain ⟨_, bound⟩ := rest_bindAssist between profile _
        split
        next bind =>
          rw [bind] at bound
          rw [bound, planned]
          exact capped
        next bind =>
          rw [bind] at bound
          dsimp only at bound
          rw [bound, planned]
          exact TreeMap.size_insert_le.trans (Nat.not_le.mp room)

theorem helpers_maybeStartAssist (core : PunchCore T) (env : PunchEnv T) (key : ForwardKey) (forward : PunchForward)
    (response : ConnectResponse) (capped : core.punchHelpers.size ≤ maxPunchHelpers) :
    (core.maybeStartAssist env key forward response).1.punchHelpers.size ≤ maxPunchHelpers := by
  have first := helpers_startAssist core env key.origin response.origin key.nonce forward.originProfile
    response.candidates.items.head? capped
  exact helpers_startAssist _ env response.origin key.origin key.nonce response.natProfile
    forward.originCandidates.items.head? first

theorem helpers_relayResponse (core : PunchCore T) (env : PunchEnv T) (response : ConnectResponse)
    (capped : core.punchHelpers.size ≤ maxPunchHelpers) :
    (core.relayResponse env response).1.punchHelpers.size ≤ maxPunchHelpers := by
  dsimp only [relayResponse]
  split
  · exact capped
  next forward _ =>
    split
    · exact capped
    obtain ⟨transport, queued, sent⟩ := queueFrame_eq
      { core with punchForwards := core.punchForwards.erase ⟨response.target, response.nonce⟩ } response.target
      (.connectResponse response)
    rw [sent]
    dsimp only
    cases queued with
    | true => exact helpers_maybeStartAssist _ env _ forward response capped
    | false => exact helpers_maybeStartAssist _ env _ forward response capped

theorem helpers_handleConnectResponse (core : PunchCore T) (env : PunchEnv T) (source : SocketAddr)
    (response : ConnectResponse) (capped : core.punchHelpers.size ≤ maxPunchHelpers) :
    (core.handleConnectResponse env source response).1.punchHelpers.size ≤ maxPunchHelpers := by
  dsimp only [handleConnectResponse]
  split
  · exact capped
  split
  · split
    · exact capped
    split
    · exact capped
    · dsimp only [acceptResponse]
      rw [helpers_birthday, helpers_advancePunches]
      exact capped
  split
  · exact capped
  · exact helpers_relayResponse core env response capped

theorem helpers_updateSession (core : PunchCore T) (env : PunchEnv T) (nonce : UInt64) (session : PunchSession) :
    (core.updateSession env nonce session).1.punchHelpers = core.punchHelpers :=
  helpers_advancePunches (core.setSession nonce session) env.now

theorem helpers_handlePunchAssist (core : PunchCore T) (env : PunchEnv T) (source : SocketAddr) (nonce : UInt64)
    (origin target : Pubkey) (port : UInt16) :
    (core.handlePunchAssist env source nonce origin target port).1.punchHelpers = core.punchHelpers := by
  unfold handlePunchAssist
  split
  · split
    · rfl
    split
    · rfl
    · dsimp only
      rw [helpers_updateSession]
  · rfl

theorem helpers_handlePunchObservation (core : PunchCore T) (env : PunchEnv T) (source : SocketAddr) (nonce : UInt64)
    (origin target : Pubkey) (observed : SocketAddr) :
    (core.handlePunchObservation env source nonce origin target observed).1.punchHelpers = core.punchHelpers := by
  unfold handlePunchObservation
  split
  · split
    · rfl
    · exact helpers_updateSession core env nonce _
  · rfl

theorem helpers_handlePunchBracket (core : PunchCore T) (env : PunchEnv T) (source : SocketAddr) (nonce : UInt64)
    (origin target : Pubkey) (ip : IpAddr) (start stop : UInt16) :
    (core.handlePunchBracket env source nonce origin target ip start stop).1.punchHelpers = core.punchHelpers := by
  unfold handlePunchBracket
  split
  · split
    · rfl
    split
    · rfl
    · exact helpers_updateSession core env nonce _
  · rfl

theorem helpers_handlePunchBirthday (core : PunchCore T) (env : PunchEnv T) (source : SocketAddr) (nonce : UInt64)
    (origin target : Pubkey) :
    (core.handlePunchBirthday env source nonce origin target).1.punchHelpers = core.punchHelpers := by
  dsimp only [handlePunchBirthday]
  split
  · split
    · rfl
    · rfl
  split
  next via session _ _ =>
    split
    · rfl
    unfold sprayBirthday
    split
    · rfl
    next first _ =>
      dsimp only
      generalize List.replicate birthdaySprayCap _ = probes
      obtain ⟨⟨_, _, moved⟩, _⟩ := rest_spray first.ip probes (core.setSession nonce (session.sprayed env.now))
      rw [moved]
      rfl
  · rfl

theorem helpers_handlePunchProbe (core : PunchCore T) (env : PunchEnv T) (event : PunchProbeEvent) :
    (core.handlePunchProbe env event).1.punchHelpers = core.punchHelpers := by
  unfold handlePunchProbe
  split
  next helper _ =>
    obtain ⟨_, moved⟩ := rest_observeProbe core helper event
    dsimp only
    rw [moved]
  split
  · rfl
  split
  · rfl
  next session _ =>
    split
    · rfl
    dsimp only [acceptProbe]
    generalize (core.localPubkey < session.peer && !session.dialStarted : Bool) = dials
    generalize (if event.socket ∈ session.birthdaySockets then some event.socket else none) = birthdaySocket
    obtain ⟨⟨_, moved⟩, _⟩ := aside_replyProbe (core.setSession event.probe.nonce
      (session.reached event.source dials (dials && birthdaySocket.isNone) env.now)) birthdaySocket event
    split
    · obtain ⟨_, _, dialed⟩ := rest_dialPunched ((core.setSession event.probe.nonce
        (session.reached event.source dials (dials && birthdaySocket.isNone) env.now)).replyProbe birthdaySocket
        event).1 env birthdaySocket (if (dials && birthdaySocket.isNone) = true then session.payload else none)
        event.source session.peer session.deadline
      rw [dialed, moved]
      rfl
    · rw [moved]
      rfl

theorem helpers_completePunch (core : PunchCore T) (peer : Pubkey) :
    (core.completePunch peer).1.punchHelpers = core.punchHelpers := by
  obtain ⟨_, _, _, _, ended⟩ := (ended_run (ended_completeSession peer)
    (core.punchSessions.toList.filter (fun entry => entry.2.peer = peer)) core).rest
  rw [completePunch, ended]

theorem helpers_expirePunchHelpers (core : PunchCore T) (now : Instant) :
    (core.expirePunchHelpers now).1.punchHelpers.size ≤ core.punchHelpers.size := by
  unfold expirePunchHelpers
  generalize core.punchHelpers.toList.filter (fun entry => entry.2.deadline ≤ now) = entries
  induction entries generalizing core with
  | nil => exact Nat.le_refl _
  | cons entry rest ih => exact (ih (expireHelper core entry).1).trans TreeMap.size_erase_le

theorem helpers_onTimer (core : PunchCore T) (now : Instant) :
    (core.onTimer now).1.punchHelpers.size ≤ core.punchHelpers.size := by
  have fewer := helpers_expirePunchHelpers ((core.advancePunches now).1.expirePunchForwards now) now
  have aside : ∀ core : PunchCore T, (core.expirePunchForwards now).punchHelpers = core.punchHelpers := fun _ => rfl
  rw [aside, helpers_advancePunches] at fewer
  dsimp only [onTimer]
  exact fewer

theorem helpers_handleFrame (core : PunchCore T) (env : PunchEnv T) (source : SocketAddr) (frame : PunchFrame)
    (capped : core.punchHelpers.size ≤ maxPunchHelpers) :
    (core.handleFrame env source frame).1.punchHelpers.size ≤ maxPunchHelpers := by
  cases frame with
  | connectRequest request => exact (helpers_handleConnectRequest core env source request).symm ▸ capped
  | connectResponse response => exact helpers_handleConnectResponse core env source response capped
  | punchAssist nonce origin target port kind =>
    exact (helpers_handlePunchAssist core env source nonce origin target port).symm ▸ capped
  | punchObservation nonce origin target observed =>
    exact (helpers_handlePunchObservation core env source nonce origin target observed).symm ▸ capped
  | punchBracket nonce origin target ip start stop =>
    exact (helpers_handlePunchBracket core env source nonce origin target ip start stop).symm ▸ capped
  | punchBirthday nonce origin target =>
    exact (helpers_handlePunchBirthday core env source nonce origin target).symm ▸ capped

theorem helpers_step (capped : core.punchHelpers.size ≤ maxPunchHelpers) (input : Input T) :
    (step core input).1.punchHelpers.size ≤ maxPunchHelpers := by
  cases input with
  | call call => exact capped
  | send env peer payload => exact (helpers_beginPunch (core.supplied env) env peer payload).symm ▸ capped
  | frame env source frame => exact helpers_handleFrame (core.supplied env) env source frame capped
  | probe env event => exact (helpers_handlePunchProbe core env event).symm ▸ capped
  | connected peer => exact (helpers_completePunch core peer).symm ▸ capped
  | settled addr => exact capped
  | timer now =>
    have fewer := helpers_onTimer core now
    dsimp only [step]
    exact fewer.trans capped

/-! ### Runs -/

theorem capped_step (keyed : Keyed core) (capped : Capped core) (input : Input T) : Capped (step core input).1 :=
  ⟨sessions_step keyed capped.sessions input, forwards_step capped.forwards input, helpers_step capped.helpers input⟩

theorem capped_run (transport : T) (keypair : Ed25519.Keypair) (birthdayPunch : Bool) (sockets : Nat)
    (inputs : List (Input T)) : Capped (run step (new transport keypair birthdayPunch sockets) inputs).1 := by
  refine (run_invariant (P := fun core => Keyed core ∧ Capped core) ⟨?_, ?_⟩
    (fun core input held _ => ⟨keyed_step held.1 input, capped_step held.1 held.2 input⟩) inputs (meets_true inputs)).2
  · exact keyed_run transport keypair birthdayPunch sockets []
  · exact ⟨Nat.zero_le _, Nat.zero_le _, Nat.zero_le _⟩

end PunchCore

end Lightbringer.Overlay
