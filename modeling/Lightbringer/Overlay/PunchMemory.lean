import Lightbringer.Overlay.PunchSessions

/-!
# What is remembered of failed punches

Two caches decide whether a peer is tried again: the profile last heard of it, and the pairs of networks between which a
punch failed. A step writes to them when a signed profile is taken and when the time of a session is up. `Recalls` says
of every step what it writes and which sessions that is about.
-/

namespace Lightbringer.Overlay
open Std Machine

namespace PunchSession

/-- The pair of networks the session was about. -/
def outcomeKey (session : PunchSession) : PunchOutcomeKey :=
  ⟨session.peer, session.localProfile.generation, session.remoteProfile.generation⟩

/-- The same exchange later on: it may have taken a profile that was heard in between. -/
structure Descends (heard : List (Pubkey × NatProfile)) (before after : PunchSession) : Prop where
  peer : after.peer = before.peer
  localProfile : after.localProfile = before.localProfile
  remote : after.awaitingResponse = before.awaitingResponse ∧ after.remoteProfile = before.remoteProfile ∨
    after.awaitingResponse = false ∧ (after.peer, after.remoteProfile) ∈ heard

theorem Descends.refl (heard : List (Pubkey × NatProfile)) (session : PunchSession) : Descends heard session session :=
  ⟨rfl, rfl, .inl ⟨rfl, rfl⟩⟩

theorem Descends.trans {first second third : PunchSession} (before : first.Descends [] second)
    (after : second.Descends [] third) : first.Descends [] third := by
  refine ⟨after.peer.trans before.peer, after.localProfile.trans before.localProfile, .inl ?_⟩
  have early := before.remote.resolve_right (fun new => nomatch new.2)
  have late := after.remote.resolve_right (fun new => nomatch new.2)
  exact ⟨late.1.trans early.1, late.2.trans early.2⟩

end PunchSession

namespace PunchCore

variable [Ed25519] {T : Type}

/-- The failures that a sweep caches: sessions whose peer has been heard and whose time is up. -/
def failures (core : PunchCore T) (now : Instant) : List PunchSession :=
  ((core.punchSessions.toList.filter (fun entry => entry.2.deadline ≤ now)).map Prod.snd).filter
    (fun session => !session.awaitingResponse)

theorem mem_failures {core : PunchCore T} {now : Instant} {session : PunchSession} :
    session ∈ core.failures now ↔
      ∃ n : UInt64, core.punchSessions[n]? = some session ∧ session.deadline ≤ now ∧
        session.awaitingResponse = false := by
  simp only [failures, List.mem_filter, List.mem_map, Bool.not_eq_true', Prod.exists, exists_eq_right]
  constructor
  · rintro ⟨⟨n, member, late⟩, heard⟩
    exact ⟨n, TreeMap.mem_toList_iff_getElem?_eq_some.mp member, of_decide_eq_true late, heard⟩
  · rintro ⟨n, found, late, heard⟩
    exact ⟨⟨n, TreeMap.mem_toList_iff_getElem?_eq_some.mpr found, decide_eq_true late⟩, heard⟩

theorem length_failures_le (core : PunchCore T) (now : Instant) : (core.failures now).length ≤ core.punchSessions.size := by
  have shorter := (List.length_filter_le (fun entry : UInt64 × PunchSession => decide (entry.2.deadline ≤ now))
    core.punchSessions.toList)
  rw [TreeMap.length_toList] at shorter
  refine (List.length_filter_le _ _).trans ?_
  rwa [List.length_map]

/-- What caching these failures writes. -/
def remembered (now : Instant) (failed : List PunchSession) : List (PunchOutcomeKey × Instant) :=
  failed.map (fun session => (session.outcomeKey, now + punchOutcomeTtl))

def heardOf (failed : List PunchSession) : List (Pubkey × NatProfile) :=
  failed.map (fun session => (session.peer, session.remoteProfile))

variable [PunchTransport T]

/-- The core is the same node, and its two caches are those of the other with these writes. -/
structure Cached (core : PunchCore T) (outcomes : List (PunchOutcomeKey × Instant)) (profiles : List (Pubkey × NatProfile))
    (post : PunchCore T) : Prop where
  outcomes : post.punchOutcomes = core.punchOutcomes.pushAll outcomes
  profiles : post.lastPunchProfiles = core.lastPunchProfiles.pushAll profiles
  keypair : post.keypair = core.keypair

theorem cached_expiry (now : Instant) (entries : List (UInt64 × PunchSession)) (core : PunchCore T) :
    Cached core (remembered now ((entries.map Prod.snd).filter (fun session => !session.awaitingResponse)))
      (heardOf ((entries.map Prod.snd).filter (fun session => !session.awaitingResponse)))
      (run (expirePunch now) core entries).1 := by
  induction entries generalizing core with
  | nil => exact ⟨rfl, rfl, rfl⟩
  | cons entry rest ih =>
    obtain ⟨outcomes, profiles, keypair⟩ := ih (expirePunch now core entry).1
    obtain ⟨⟨_, moved⟩, _⟩ := aside_closeBirthdaySockets
      (({ core with punchSessions := core.punchSessions.erase entry.1 } : PunchCore T).cachePunchFailure entry.2 now)
      entry.2.birthdaySockets none
    have expired : (expirePunch now core entry).1 = _ := moved
    rw [run_cons]
    constructor
    · rw [outcomes, expired, List.map_cons]
      dsimp only [cachePunchFailure]
      cases waits : entry.2.awaitingResponse with
      | true => rw [if_pos rfl, List.filter_cons_of_neg (by simp [waits])]
      | false =>
        rw [if_neg Bool.false_ne_true, List.filter_cons_of_pos (by simp [waits])]
        rfl
    · rw [profiles, expired, List.map_cons]
      dsimp only [cachePunchFailure]
      cases waits : entry.2.awaitingResponse with
      | true => rw [if_pos rfl, List.filter_cons_of_neg (by simp [waits])]
      | false =>
        rw [if_neg Bool.false_ne_true, List.filter_cons_of_pos (by simp [waits])]
        rfl
    · rw [keypair, expired]
      dsimp only [cachePunchFailure]
      split
      · rfl
      · rfl

theorem cached_advancePunches (core : PunchCore T) (now : Instant) :
    Cached core (remembered now (core.failures now)) (heardOf (core.failures now)) (core.advancePunches now).1 := by
  obtain ⟨outcomes, profiles, keypair⟩ :=
    cached_expiry now (core.punchSessions.toList.filter (fun entry => entry.2.deadline ≤ now)) core
  obtain ⟨_, moved⟩ := rest_sendVolleys
    (run (expirePunch now) core (core.punchSessions.toList.filter (fun entry => entry.2.deadline ≤ now))).1 now
  dsimp only [advancePunches]
  rw [moved]
  exact ⟨outcomes, profiles, keypair⟩

/-! ### What a step writes -/

/-- The input is a request or a response to this identity, signed by the peer, with this profile in it. -/
def Input.Says (self peer : Pubkey) (profile : NatProfile) : Input T → Prop
  | .frame _ _ (.connectRequest request) =>
    request.verify = true ∧ request.target = self ∧ request.origin = peer ∧ request.natProfile = profile
  | .frame _ _ (.connectResponse response) =>
    response.verify = true ∧ response.target = self ∧ response.origin = peer ∧ response.natProfile = profile
  | _ => False

/-- A step either leaves the caches and every session's place alone, or takes at most one signed profile and sweeps. -/
inductive Recalls (core : PunchCore T) (input : Input T) (post : PunchCore T) : Prop
  | quiet (cached : Cached core [] [] post)
      (kept : input.now.isSome → ∀ n : UInt64, (core.punchSessions[n]?).isSome → (post.punchSessions[n]?).isSome)
      (left : ∀ (n : UInt64) after, post.punchSessions[n]? = some after → after.awaitingResponse = true ∨
        ∃ before, core.punchSessions[n]? = some before ∧ before.Descends [] after)
  | swept {now : Instant} (timed : input.now = some now) (mid : PunchCore T) (heard : List (Pubkey × NatProfile))
      (few : heard.length ≤ 1) (signed : ∀ pair ∈ heard, input.Says core.localPubkey pair.1 pair.2)
      (cached : Cached core (remembered now (mid.failures now)) (heard ++ heardOf (mid.failures now)) post)
      (size : mid.punchSessions.size ≤ core.punchSessions.size + 1)
      (back : ∀ (n : UInt64) after, mid.punchSessions[n]? = some after →
        (∃ before, core.punchSessions[n]? = some before ∧ before.Descends heard after) ∨
          (after.peer, after.remoteProfile) ∈ heard)
      (forth : ∀ (n : UInt64) before, core.punchSessions[n]? = some before →
        ∃ after, mid.punchSessions[n]? = some after ∧ before.Descends heard after)
      (answers : ∀ env source response, input = .frame env source (.connectResponse response) →
        ∀ after, mid.punchSessions[response.nonce]? = some after →
          after.awaitingResponse = false ∧ after.remoteProfile = response.natProfile)
      (gone : ∀ (n : UInt64) after, mid.punchSessions[n]? = some after → post.punchSessions[n]? = none →
        after.deadline ≤ now)
      (left : ∀ (n : UInt64) after, post.punchSessions[n]? = some after →
        ∃ between, mid.punchSessions[n]? = some between ∧ between.Descends [] after)

variable {core : PunchCore T}

theorem recalls_kept {input : Input T} {post : PunchCore T} (outcomes : post.punchOutcomes = core.punchOutcomes)
    (profiles : post.lastPunchProfiles = core.lastPunchProfiles) (keypair : post.keypair = core.keypair)
    (sessions : post.punchSessions = core.punchSessions) : Recalls core input post :=
  .quiet ⟨outcomes, profiles, keypair⟩ (fun _ n present => by rwa [sessions])
    (fun n after there => .inr ⟨after, by rwa [sessions] at there, .refl _ after⟩)

/-- A session is written and nothing swept. -/
theorem recalls_set {input : Input T} {nonce : UInt64} {session : PunchSession} {post : PunchCore T}
    (outcomes : post.punchOutcomes = core.punchOutcomes) (profiles : post.lastPunchProfiles = core.lastPunchProfiles)
    (keypair : post.keypair = core.keypair) (sessions : post.punchSessions = core.punchSessions.insert nonce session)
    (same : session.awaitingResponse = true ∨
      ∃ before, core.punchSessions[nonce]? = some before ∧ before.Descends [] session) : Recalls core input post := by
  refine .quiet ⟨outcomes, profiles, keypair⟩ (fun _ n present => ?_) (fun n after there => ?_)
  · rw [sessions, Entries.getElem?_insert]
    split
    · rfl
    · exact present
  · rw [sessions, Entries.getElem?_insert] at there
    split at there
    next here =>
      subst here
      obtain rfl := Option.some.inj there
      exact same
    · exact .inr ⟨after, there, .refl _ after⟩

/-- The birthday punch that follows a sweep where it was agreed on. -/
def thenBirthday (core : PunchCore T) (env : PunchEnv T) (birthday : Bool) (nonce : UInt64) : PunchCore T :=
  if birthday then (core.startBirthday env nonce).1 else core

theorem fst_birthday (core : PunchCore T) (env : PunchEnv T) (birthday : Bool) (nonce : UInt64) :
    (if birthday then core.startBirthday env nonce else (core, [])).1 = core.thenBirthday env birthday nonce := by
  rw [thenBirthday]
  split
  · rfl
  · rfl

/-- It keeps every session. -/
theorem present_thenBirthday {env : PunchEnv T} {birthday : Bool} {nonce n : UInt64}
    (there : (core.punchSessions[n]?).isSome) : ((core.thenBirthday env birthday nonce).punchSessions[n]?).isSome := by
  rw [thenBirthday]
  split
  next =>
    have started := started_startBirthday core env nonce
    by_cases here : n = nonce
    · subst here
      have opens := started.opens
      generalize (core.startBirthday env n).1.punchSessions[n]? = post at opens ⊢
      generalize core.punchSessions[n]? = before at opens there
      cases opens with
      | unopened => exact there
      | opened => rfl
    · rwa [started.others n here]
  next => exact there

/-- What it opens was there. -/
theorem left_thenBirthday {env : PunchEnv T} {birthday : Bool} {nonce n : UInt64} {after : PunchSession}
    (there : (core.thenBirthday env birthday nonce).punchSessions[n]? = some after) :
    ∃ before, core.punchSessions[n]? = some before ∧ before.Descends [] after := by
  rw [thenBirthday] at there
  split at there
  next =>
    have started := started_startBirthday core env nonce
    by_cases here : n = nonce
    · subst here
      have opens := started.opens
      rw [there] at opens
      cases before : core.punchSessions[n]? with
      | none =>
        rw [before] at opens
        cases opens
      | some session =>
        rw [before] at opens
        cases opens with
        | unopened => exact ⟨_, rfl, .refl _ _⟩
        | opened => exact ⟨session, rfl, rfl, rfl, .inl ⟨rfl, rfl⟩⟩
    · rw [started.others n here] at there
      exact ⟨after, there, .refl _ after⟩
  next => exact ⟨after, there, .refl _ after⟩

theorem cached_thenBirthday (core : PunchCore T) (env : PunchEnv T) (birthday : Bool) (nonce : UInt64) :
    Cached core [] [] (core.thenBirthday env birthday nonce) := by
  rw [thenBirthday]
  split
  next =>
    obtain ⟨_, _, _, moved⟩ := (started_startBirthday core env nonce).rest
    rw [moved]
    exact ⟨rfl, rfl, rfl⟩
  next => exact ⟨rfl, rfl, rfl⟩

theorem left_advancePunches {mid : PunchCore T} {now : Instant} {n : UInt64} {after : PunchSession}
    (there : (mid.advancePunches now).1.punchSessions[n]? = some after) :
    ∃ before, mid.punchSessions[n]? = some before ∧ before.Descends [] after := by
  rw [getElem?_advancePunches] at there
  obtain ⟨before, found, survived⟩ := Option.bind_eq_some_iff.mp there
  obtain ⟨_, _, _, rfl⟩ := PunchSession.survive_eq_some survived
  exact ⟨before, found, rfl, rfl, .inl ⟨rfl, rfl⟩⟩

/-- A sweep leaves only sessions whose time is not up. -/
theorem late_of_gone {mid post : PunchCore T} {now : Instant} {n : UInt64} {after : PunchSession}
    (kept : ((mid.advancePunches now).1.punchSessions[n]?).isSome → (post.punchSessions[n]?).isSome)
    (there : mid.punchSessions[n]? = some after) (gone : post.punchSessions[n]? = none) : after.deadline ≤ now := by
  by_contra early
  rw [getElem?_advancePunches, there, Option.bind_some, PunchSession.survive, if_neg early, gone] at kept
  cases kept rfl

/-- One session is written, at most one profile is taken, and the sweep follows. -/
theorem recalls_advanced {env : PunchEnv T} {input : Input T} (mid : PunchCore T) {birthday : Bool} {nonce named : UInt64}
    {written : PunchSession} (heard : List (Pubkey × NatProfile)) (timed : input.now = some env.now)
    (few : heard.length ≤ 1) (signed : ∀ pair ∈ heard, input.Says core.localPubkey pair.1 pair.2)
    (outcomes : mid.punchOutcomes = core.punchOutcomes) (keypair : mid.keypair = core.keypair)
    (profiles : mid.lastPunchProfiles = core.lastPunchProfiles.pushAll heard)
    (sessions : ∀ n, mid.punchSessions[n]? = if named = n then some written else core.punchSessions[n]?)
    (descends : ∀ before, core.punchSessions[named]? = some before → before.Descends heard written)
    (new : core.punchSessions[named]? = none → (written.peer, written.remoteProfile) ∈ heard)
    (answers : ∀ env source response, input = .frame env source (.connectResponse response) →
      named = response.nonce ∧ written.awaitingResponse = false ∧ written.remoteProfile = response.natProfile) :
    Recalls core input ((mid.advancePunches env.now).1.thenBirthday env birthday nonce) := by
  obtain ⟨outcomes', profiles', keypair'⟩ := cached_thenBirthday (mid.advancePunches env.now).1 env birthday nonce
  obtain ⟨swept, taken, own⟩ := cached_advancePunches mid env.now
  refine .swept timed mid heard few signed ⟨?_, ?_, keypair'.trans (own.trans keypair)⟩ ?_ ?_ ?_ ?_
    (fun n after there gone => late_of_gone present_thenBirthday there gone) ?_
  · rw [outcomes', Lru.pushAll_nil, swept, outcomes]
  · rw [profiles', Lru.pushAll_nil, taken, profiles, Lru.pushAll_append]
  · refine Entries.size_le_succ named (fun n apart present => ?_)
    rwa [sessions, if_neg (Ne.symm apart)] at present
  · intro n after there
    rw [sessions] at there
    split at there
    next here =>
      subst here
      obtain rfl := Option.some.inj there
      cases before : core.punchSessions[named]? with
      | none => exact .inr (new before)
      | some session => exact .inl ⟨session, rfl, descends session before⟩
    · exact .inl ⟨after, there, .refl heard after⟩
  · intro n before there
    rw [sessions]
    split
    next here =>
      subst here
      exact ⟨written, rfl, descends before there⟩
    · exact ⟨before, there, .refl heard before⟩
  · intro env' source response frame after there
    obtain ⟨rfl, settled, same⟩ := answers env' source response frame
    rw [sessions, if_pos rfl] at there
    obtain rfl := Option.some.inj there
    exact ⟨settled, same⟩
  · intro n after there
    obtain ⟨between, there, opened⟩ := left_thenBirthday there
    obtain ⟨before, there, advanced⟩ := left_advancePunches there
    exact ⟨before, there, advanced.trans opened⟩

/-! ### Handlers -/

/-- What the environment will answer plays no part in it. -/
theorem recalls_supplied (env : PunchEnv T) {input : Input T} {post : PunchCore T}
    (recalls : Recalls (core.supplied env) input post) : Recalls core input post := by
  cases recalls with
  | quiet cached kept left => exact .quiet ⟨cached.outcomes, cached.profiles, cached.keypair⟩ kept left
  | swept timed mid heard few signed cached size back forth answers gone left =>
    exact .swept timed mid heard few signed ⟨cached.outcomes, cached.profiles, cached.keypair⟩ size back forth answers gone left

theorem recalls_beginPunch (core : PunchCore T) (env : PunchEnv T) (peer : Pubkey) (payload : Option (List UInt8))
    (input : Input T) : Recalls core input (core.beginPunch env peer payload).1 := by
  unfold beginPunch
  split
  · exact recalls_kept rfl rfl rfl rfl
  split
  next nonce session waiting =>
    have found := TreeMap.mem_toList_iff_getElem?_eq_some.mp (List.mem_of_find?_eq_some waiting)
    exact recalls_set rfl rfl rfl rfl (.inr ⟨session, found, rfl, rfl, .inl ⟨rfl, rfl⟩⟩)
  · split
    · exact recalls_kept rfl rfl rfl rfl
    split
    next via nonce _ _ =>
      obtain ⟨transport, failed | started⟩ := initiatePunch_cases core env peer via nonce payload
      · rw [failed]
        exact recalls_kept rfl rfl rfl rfl
      · rw [started]
        exact recalls_set rfl rfl rfl rfl (.inl rfl)
    · exact recalls_kept rfl rfl rfl rfl

/-- The session of a request carries its profile, unless another exchange goes by its nonce. -/
theorem requestedSession_eq (core : PunchCore T) (env : PunchEnv T) (via : Pubkey) (request : ConnectRequest) :
    ∃ deadline, core.requestedSession env via request =
      { (core.punchSessions[request.nonce]?).getD (.requested request via (core.localNatProfile env) env.now) with
        deadline := deadline } := by
  dsimp only [requestedSession]
  split
  · exact ⟨_, rfl⟩
  · exact ⟨_, rfl⟩

theorem recalls_answerRequest {env : PunchEnv T} {source : SocketAddr} {request : ConnectRequest} (via : Pubkey)
    (signed : request.verify = true) (target : request.target = core.localPubkey) :
    Recalls core (.frame env source (.connectRequest request)) (core.answerRequest env via request).1 := by
  obtain ⟨transport, answered⟩ := answerRequest_eq core env via request
  rw [answered]
  dsimp only
  obtain ⟨deadline, written⟩ := requestedSession_eq core env via request
  rw [fst_birthday]
  refine recalls_advanced ({ (core.openSession env via request).1 with transport := transport })
    [(request.origin, request.natProfile)] rfl (by simp) ?_ rfl rfl rfl
    (fun n => getElem?_openSession core env via request n) ?_ ?_ (fun _ _ _ same => by cases same)
  · intro pair member
    rw [List.mem_singleton] at member
    subst member
    exact ⟨signed, target, rfl, rfl⟩
  · intro before found
    rw [written, found]
    exact ⟨rfl, rfl, .inl ⟨rfl, rfl⟩⟩
  · intro missing
    rw [written, missing]
    exact List.mem_singleton_self _

theorem recalls_handleConnectRequest (core : PunchCore T) (env : PunchEnv T) (source : SocketAddr)
    (request : ConnectRequest) :
    Recalls core (.frame env source (.connectRequest request)) (core.handleConnectRequest env source request).1 := by
  dsimp only [handleConnectRequest]
  split
  · exact recalls_kept rfl rfl rfl rfl
  next signed =>
    split
    next mine =>
      split
      · exact recalls_kept rfl rfl rfl rfl
      next via _ =>
        split
        · exact recalls_kept rfl rfl rfl rfl
        split
        · exact recalls_kept rfl rfl rfl rfl
        · simp only [Bool.or_eq_true, not_or, Bool.not_eq_true, Bool.not_eq_false'] at signed
          exact recalls_answerRequest via signed.1 mine
    · split
      · exact recalls_kept rfl rfl rfl rfl
      obtain ⟨_, _, admitted⟩ := rest_admitForward core env request
      split
      · obtain ⟨⟨_, _, moved⟩, _⟩ := rest_forwardRequest (core.admitForward env request).1 env request
        rw [moved, admitted]
        exact recalls_kept rfl rfl rfl rfl
      · rw [admitted]
        exact recalls_kept rfl rfl rfl rfl

theorem recalls_relayResponse (core : PunchCore T) (env : PunchEnv T) (response : ConnectResponse) (input : Input T) :
    Recalls core input (core.relayResponse env response).1 := by
  dsimp only [relayResponse]
  split
  · exact recalls_kept rfl rfl rfl rfl
  next forward _ =>
    split
    · exact recalls_kept rfl rfl rfl rfl
    obtain ⟨transport, queued, sent⟩ := queueFrame_eq
      { core with punchForwards := core.punchForwards.erase ⟨response.target, response.nonce⟩ } response.target
      (.connectResponse response)
    rw [sent]
    dsimp only
    cases queued with
    | true =>
      rw [if_pos rfl]
      obtain ⟨_, _, _, moved⟩ := rest_maybeStartAssist { core with
          transport := transport, punchForwards := core.punchForwards.erase ⟨response.target, response.nonce⟩ }
        env ⟨response.target, response.nonce⟩ forward response
      rw [moved]
      exact recalls_kept rfl rfl rfl rfl
    | false =>
      rw [if_neg Bool.false_ne_true]
      obtain ⟨_, _, _, moved⟩ := rest_maybeStartAssist ({ core with
          transport := transport
          punchForwards := core.punchForwards.erase ⟨response.target, response.nonce⟩ } : PunchCore T).refusePunch
        env ⟨response.target, response.nonce⟩ forward response
      rw [moved]
      exact recalls_kept rfl rfl rfl rfl

theorem recalls_handleConnectResponse (core : PunchCore T) (env : PunchEnv T) (source : SocketAddr)
    (response : ConnectResponse) :
    Recalls core (.frame env source (.connectResponse response)) (core.handleConnectResponse env source response).1 := by
  dsimp only [handleConnectResponse]
  split
  · exact recalls_kept rfl rfl rfl rfl
  next signed =>
    split
    next mine =>
      split
      · exact recalls_kept rfl rfl rfl rfl
      next session found =>
        split
        · exact recalls_kept rfl rfl rfl rfl
        next passed =>
          simp only [Bool.or_eq_true, not_or, Bool.not_eq_true, Bool.not_eq_false', decide_eq_true_eq,
            Decidable.not_not] at passed signed
          have heard : (session.peer, response.natProfile) ∈ [(response.origin, response.natProfile)] := by
            rw [passed.1.1.2]
            exact List.mem_singleton_self _
          dsimp only [acceptResponse]
          rw [fst_birthday]
          refine recalls_advanced ({ core.setSession response.nonce
              (session.answered response (core.birthdayResponse session) env.now) with
            lastPunchProfiles := core.lastPunchProfiles.push response.origin response.natProfile })
            [(response.origin, response.natProfile)] rfl (by simp) ?_ rfl rfl rfl
            (fun n => getElem?_setSession core response.nonce
              (session.answered response (core.birthdayResponse session) env.now) n) ?_ ?_ ?_
          · intro pair member
            rw [List.mem_singleton] at member
            subst member
            exact ⟨signed, mine, rfl, rfl⟩
          · intro before here
            obtain rfl := Option.some.inj (found.symm.trans here)
            exact ⟨rfl, rfl, .inr ⟨rfl, heard⟩⟩
          · intro missing
            rw [found] at missing
            cases missing
          · rintro env' source' response' frame
            cases frame
            exact ⟨rfl, rfl, rfl⟩
    · split
      · exact recalls_kept rfl rfl rfl rfl
      · exact recalls_relayResponse core env response _

theorem recalls_updateSession {env : PunchEnv T} {source : SocketAddr} {frame : PunchFrame} {nonce : UInt64}
    {session : PunchSession} (written : PunchSession) (found : core.punchSessions[nonce]? = some session)
    (kind : ∀ response, frame ≠ .connectResponse response) (peer : written.peer = session.peer)
    (localProfile : written.localProfile = session.localProfile)
    (awaiting : written.awaitingResponse = session.awaitingResponse)
    (remote : written.remoteProfile = session.remoteProfile) :
    Recalls core (.frame env source frame) (core.updateSession env nonce written).1 := by
  unfold updateSession
  have plain : ((core.setSession nonce written).advancePunches env.now).1 =
      ((core.setSession nonce written).advancePunches env.now).1.thenBirthday env false nonce := rfl
  rw [plain]
  refine recalls_advanced (core.setSession nonce written) [] rfl (by simp)
    (by simp) rfl rfl rfl (fun n => getElem?_setSession core nonce written n) ?_ ?_ ?_
  · intro before here
    obtain rfl := Option.some.inj (found.symm.trans here)
    exact ⟨peer, localProfile, .inl ⟨awaiting, remote⟩⟩
  · intro missing
    rw [found] at missing
    cases missing
  · intro env' source' response same
    cases same
    exact absurd rfl (kind response)

theorem recalls_handlePunchAssist (core : PunchCore T) (env : PunchEnv T) (source : SocketAddr) (nonce : UInt64)
    (origin target : Pubkey) (port : UInt16) (kind : PunchAssistKind) :
    Recalls core (.frame env source (.punchAssist nonce origin target port kind))
      (core.handlePunchAssist env source nonce origin target port).1 := by
  unfold handlePunchAssist
  split
  next via session _ found =>
    split
    · exact recalls_kept rfl rfl rfl rfl
    split
    · exact recalls_kept rfl rfl rfl rfl
    next addr _ =>
      dsimp only
      exact recalls_updateSession (session.assist ⟨addr.ip, port⟩ env.now) found nofun rfl rfl rfl rfl
  · exact recalls_kept rfl rfl rfl rfl

theorem recalls_handlePunchObservation (core : PunchCore T) (env : PunchEnv T) (source : SocketAddr) (nonce : UInt64)
    (origin target : Pubkey) (observed : SocketAddr) :
    Recalls core (.frame env source (.punchObservation nonce origin target observed))
      (core.handlePunchObservation env source nonce origin target observed).1 := by
  unfold handlePunchObservation
  split
  next via session _ found =>
    split
    · exact recalls_kept rfl rfl rfl rfl
    · exact recalls_updateSession _ found nofun rfl rfl rfl rfl
  · exact recalls_kept rfl rfl rfl rfl

theorem recalls_handlePunchBracket (core : PunchCore T) (env : PunchEnv T) (source : SocketAddr) (nonce : UInt64)
    (origin target : Pubkey) (ip : IpAddr) (start stop : UInt16) :
    Recalls core (.frame env source (.punchBracket nonce origin target ip start stop))
      (core.handlePunchBracket env source nonce origin target ip start stop).1 := by
  unfold handlePunchBracket
  split
  next via session _ found =>
    split
    · exact recalls_kept rfl rfl rfl rfl
    split
    · exact recalls_kept rfl rfl rfl rfl
    · obtain ⟨_, _, rest⟩ := PunchSession.rest_bracketed session ip start stop
      have written : ∃ nextProbe probeRounds prediction brackets, session.bracket ip start stop env.now = { session with
          assistFollowupGranted := true
          nextProbe := nextProbe
          probeRounds := probeRounds
          sequentialPrediction := prediction
          bracketCandidates := brackets } := by
        rw [PunchSession.bracket, rest]
        exact ⟨_, _, _, _, rfl⟩
      obtain ⟨_, _, _, _, written⟩ := written
      rw [written]
      exact recalls_updateSession _ found (fun _ asked => by cases asked) rfl rfl rfl rfl
  · exact recalls_kept rfl rfl rfl rfl

theorem recalls_handlePunchBirthday (core : PunchCore T) (env : PunchEnv T) (source : SocketAddr) (nonce : UInt64)
    (origin target : Pubkey) :
    Recalls core (.frame env source (.punchBirthday nonce origin target))
      (core.handlePunchBirthday env source nonce origin target).1 := by
  dsimp only [handlePunchBirthday]
  split
  · split
    · exact recalls_kept rfl rfl rfl rfl
    · exact recalls_kept rfl rfl rfl rfl
  split
  next via session _ found =>
    split
    · exact recalls_kept rfl rfl rfl rfl
    unfold sprayBirthday
    split
    · exact recalls_kept rfl rfl rfl rfl
    next first _ =>
      dsimp only
      generalize List.replicate birthdaySprayCap _ = probes
      obtain ⟨⟨_, _, moved⟩, _⟩ := rest_spray first.ip probes (core.setSession nonce (session.sprayed env.now))
      rw [moved]
      exact recalls_set rfl rfl rfl rfl (.inr ⟨session, found, rfl, rfl, .inl ⟨rfl, rfl⟩⟩)
  · exact recalls_kept rfl rfl rfl rfl

theorem recalls_handlePunchProbe (core : PunchCore T) (env : PunchEnv T) (event : PunchProbeEvent) :
    Recalls core (.probe env event) (core.handlePunchProbe env event).1 := by
  unfold handlePunchProbe
  split
  next helper _ =>
    obtain ⟨_, moved⟩ := rest_observeProbe core helper event
    dsimp only
    rw [moved]
    exact recalls_kept rfl rfl rfl rfl
  split
  · exact recalls_kept rfl rfl rfl rfl
  split
  · exact recalls_kept rfl rfl rfl rfl
  next session found =>
    split
    · exact recalls_kept rfl rfl rfl rfl
    dsimp only [acceptProbe]
    generalize (core.localPubkey < session.peer && !session.dialStarted : Bool) = dials
    generalize (if event.socket ∈ session.birthdaySockets then some event.socket else none) = birthdaySocket
    obtain ⟨⟨_, moved⟩, _⟩ := aside_replyProbe (core.setSession event.probe.nonce
      (session.reached event.source dials (dials && birthdaySocket.isNone) env.now)) birthdaySocket event
    cases dials with
    | false =>
      rw [if_neg Bool.false_ne_true, moved]
      exact recalls_set rfl rfl rfl rfl (.inr ⟨session, found, rfl, rfl, .inl ⟨rfl, rfl⟩⟩)
    | true =>
      rw [if_pos rfl]
      obtain ⟨_, _, dialed⟩ := rest_dialPunched ((core.setSession event.probe.nonce
        (session.reached event.source true (true && birthdaySocket.isNone) env.now)).replyProbe birthdaySocket event).1
        env birthdaySocket (if (true && birthdaySocket.isNone) = true then session.payload else none) event.source
        session.peer session.deadline
      rw [dialed, moved]
      exact recalls_set rfl rfl rfl rfl (.inr ⟨session, found, rfl, rfl, .inl ⟨rfl, rfl⟩⟩)

theorem cached_completePunch (core : PunchCore T) (peer : Pubkey) : Cached core [] [] (core.completePunch peer).1 := by
  unfold completePunch
  generalize core.punchSessions.toList.filter (fun entry => entry.2.peer = peer) = entries
  induction entries generalizing core with
  | nil => exact ⟨rfl, rfl, rfl⟩
  | cons entry rest ih =>
    have first : Cached core [] [] (completeSession peer core entry).1 := by
      dsimp only [completeSession]
      split
      · obtain ⟨⟨_, moved⟩, _⟩ := aside_closeBirthdaySockets (T := T) _ _ _
        rw [moved]
        exact ⟨rfl, rfl, rfl⟩
      · obtain ⟨⟨_, moved⟩, _⟩ := aside_closeBirthdaySockets (T := T) _ _ _
        rw [moved]
        exact ⟨rfl, rfl, rfl⟩
    have later := ih (completeSession peer core entry).1
    constructor
    · rw [run_cons, later.outcomes, Lru.pushAll_nil, first.outcomes]
    · rw [run_cons, later.profiles, Lru.pushAll_nil, first.profiles]
    · rw [run_cons, later.keypair, first.keypair]

theorem left_completePunch {peer : Pubkey} {n : UInt64} {after : PunchSession}
    (there : (core.completePunch peer).1.punchSessions[n]? = some after) : core.punchSessions[n]? = some after := by
  rw [completePunch, (ended_run (ended_completeSession peer) _ core).session] at there
  split at there
  · cases there
  · exact there

theorem cached_expirePunchHelpers (core : PunchCore T) (now : Instant) :
    Cached core [] [] (core.expirePunchHelpers now).1 := by
  unfold expirePunchHelpers
  generalize core.punchHelpers.toList.filter (fun entry => entry.2.deadline ≤ now) = entries
  induction entries generalizing core with
  | nil => exact ⟨rfl, rfl, rfl⟩
  | cons entry rest ih =>
    obtain ⟨outcomes, profiles, keypair⟩ := ih (expireHelper core entry).1
    exact ⟨outcomes, profiles, keypair⟩

theorem recalls_onTimer (core : PunchCore T) (now : Instant) : Recalls core (.timer now) (core.onTimer now).1 := by
  refine .swept rfl core [] (by simp) (by simp) ?_ (Nat.le_succ _)
    (fun n after there => .inl ⟨after, there, .refl _ after⟩) (fun n before there => ⟨before, there, .refl _ before⟩)
    (fun _ _ _ same => by cases same) ?_ ?_
  · obtain ⟨outcomes, profiles, keypair⟩ := cached_advancePunches core now
    obtain ⟨outcomes', profiles', keypair'⟩ :=
      cached_expirePunchHelpers ((core.advancePunches now).1.expirePunchForwards now) now
    have aside : ∀ core : PunchCore T, Cached core [] [] (core.expirePunchForwards now) := fun _ => ⟨rfl, rfl, rfl⟩
    rw [Lru.pushAll_nil, (aside _).outcomes, Lru.pushAll_nil, outcomes] at outcomes'
    rw [Lru.pushAll_nil, (aside _).profiles, Lru.pushAll_nil, profiles] at profiles'
    rw [(aside _).keypair, keypair] at keypair'
    dsimp only [onTimer]
    exact ⟨outcomes', profiles', keypair'⟩
  · intro n after there gone
    by_contra early
    rw [getElem?_onTimer, there, Option.bind_some, PunchSession.survive, if_neg early] at gone
    cases gone
  · intro n after there
    rw [getElem?_onTimer, ← getElem?_advancePunches] at there
    exact left_advancePunches there

/-- Every step. -/
theorem recalls_step (core : PunchCore T) (input : Input T) : Recalls core input (step core input).1 := by
  cases input with
  | call call => exact recalls_kept rfl rfl rfl rfl
  | send env peer payload => exact recalls_supplied env (recalls_beginPunch (core.supplied env) env peer payload _)
  | frame env source frame =>
    apply recalls_supplied env
    cases frame with
    | connectRequest request => exact recalls_handleConnectRequest _ env source request
    | connectResponse response => exact recalls_handleConnectResponse _ env source response
    | punchAssist nonce origin target port kind =>
      exact recalls_handlePunchAssist _ env source nonce origin target port kind
    | punchObservation nonce origin target observed =>
      exact recalls_handlePunchObservation _ env source nonce origin target observed
    | punchBracket nonce origin target ip start stop =>
      exact recalls_handlePunchBracket _ env source nonce origin target ip start stop
    | punchBirthday nonce origin target => exact recalls_handlePunchBirthday _ env source nonce origin target
  | probe env event => exact recalls_handlePunchProbe core env event
  | connected peer =>
    exact .quiet (cached_completePunch core peer) nofun
      (fun n after there => .inr ⟨after, left_completePunch there, .refl _ after⟩)
  | settled addr => exact recalls_kept rfl rfl rfl rfl
  | timer now => exact recalls_onTimer core now

end PunchCore

end Lightbringer.Overlay
