import Lightbringer.Overlay.PunchIsolation

/-!
# How long a punch session lives and how much it sends

A nonce can be used for one session after another, so the log of a run is read from the last time a session was created
under it.
-/

namespace Lightbringer.Overlay
open Std Machine

/-- What the log says of the last session under a nonce: when it was created, how many rounds of probes it sent and how
many plans of its relay it took. -/
structure Life where
  born : Instant
  volleys : Nat
  assists : Nat
  deriving DecidableEq

namespace Life

def after (n : UInt64) (life : Life) : PunchAction → Life
  | .created nonce now => if nonce = n then ⟨now, 0, 0⟩ else life
  | .volley nonce => if nonce = n then { life with volleys := life.volleys + 1 } else life
  | .assisted nonce => if nonce = n then { life with assists := life.assists + 1 } else life
  | _ => life

def of (n : UInt64) (log : List PunchAction) : Life := log.foldl (after n) ⟨0, 0, 0⟩

theorem after_other {n : UInt64} {action : PunchAction} (other : action.about n = false) (life : Life) :
    life.after n action = life := by
  cases action with
  | created nonce now => exact if_neg (of_decide_eq_false other)
  | volley nonce => exact if_neg (of_decide_eq_false other)
  | assisted nonce => exact if_neg (of_decide_eq_false other)
  | _ => rfl

/-- Only what is about the session counts. -/
theorem foldl_sessionLog (n : UInt64) (actions : List PunchAction) (life : Life) :
    (sessionLog n actions).foldl (after n) life = actions.foldl (after n) life := by
  induction actions generalizing life with
  | nil => rfl
  | cons action rest ih =>
    by_cases mine : action.about n = true
    · rw [sessionLog, List.filter_cons_of_pos mine, List.foldl_cons, List.foldl_cons]
      exact ih _
    · rw [sessionLog, List.filter_cons_of_neg mine, List.foldl_cons, after_other (Bool.not_eq_true _ ▸ mine)]
      exact ih life

theorem of_append (n : UInt64) (log more : List PunchAction) :
    of n (log ++ more) = (sessionLog n more).foldl (after n) (of n log) := by
  rw [of, List.foldl_append, foldl_sessionLog]
  rfl

@[simp] theorem after_created (n : UInt64) (life : Life) (now : Instant) :
    life.after n (.created n now) = ⟨now, 0, 0⟩ := if_pos rfl

@[simp] theorem after_volley (n : UInt64) (life : Life) :
    life.after n (.volley n) = { life with volleys := life.volleys + 1 } := if_pos rfl

@[simp] theorem after_assisted (n : UInt64) (life : Life) :
    life.after n (.assisted n) = { life with assists := life.assists + 1 } := if_pos rfl

end Life

namespace PunchCore

variable [Ed25519] {T : Type} [PunchTransport T]

/-- Induction over the sessions of a run: what every turn carries on holds of the session under each nonce. -/
theorem run_lives {P : Life → Option PunchSession → Prop} {ok : PunchCore T → Input T → Prop} {transport : T}
    {keypair : Ed25519.Keypair} {birthdayPunch : Bool} {sockets : Nat} (start : P ⟨0, 0, 0⟩ none)
    (carry : ∀ core input n life log post, ok core input → P life core.punchSessions[n]? → Turn core n input log post →
      P (log.foldl (Life.after n) life) post)
    (inputs : List (Input T)) (met : Meets step ok (new transport keypair birthdayPunch sockets) inputs) (n : UInt64) :
    P (Life.of n (run step (new transport keypair birthdayPunch sockets) inputs).2)
      (run step (new transport keypair birthdayPunch sockets) inputs).1.punchSessions[n]? := by
  refine (run_history (P := fun _ core out => Keyed core ∧ P (Life.of n out) core.punchSessions[n]?)
    ⟨keyed_run transport keypair birthdayPunch sockets [], ?_⟩ ?_ inputs met).2
  · rw [run_nil, new, TreeMap.getElem?_emptyc]
    exact start
  · intro _ core out input held here
    refine ⟨keyed_step held.1 input, ?_⟩
    rw [Life.of_append]
    exact carry core input n _ _ _ here held.2 (turn_step held.1 input n)

omit [Ed25519] in
theorem foldl_volleys (n : UInt64) (birthdayPunch : Bool) (now : Instant) (session : PunchSession) (life : Life) :
    (session.volleys birthdayPunch now n).foldl (Life.after n) life =
      { life with volleys := life.volleys + (session.volleys birthdayPunch now n).length } := by
  unfold PunchSession.volleys
  split
  · simp
  · rfl

/-! ### Deadlines -/

/-- How long a session may live: until its response or first probes time out, for a birthday punch of its own, and for
one of its peer. -/
def allowance (session : PunchSession) : Nat :=
  punchTimeout + (if session.awaitingResponse then 0 else birthdayDuration) +
    (if session.birthdaySpraySent then birthdayDuration else 0)

omit [Ed25519] in
theorem allowance_answered {session : PunchSession} (awaiting : session.awaitingResponse = true)
    (response : ConnectResponse) (birthday : Bool) (now : Instant) :
    allowance (session.answered response birthday now) = allowance session + birthdayDuration := by
  unfold allowance PunchSession.answered
  dsimp only
  rw [awaiting, if_neg Bool.false_ne_true, if_pos rfl, Nat.add_zero, Nat.add_right_comm]

omit [Ed25519] in
theorem allowance_sprayed {session : PunchSession} (first : session.birthdaySpraySent = false) (now : Instant) :
    allowance (session.sprayed now) = allowance session + birthdayDuration := by
  unfold allowance PunchSession.sprayed PunchSession.extended
  dsimp only
  rw [first, if_pos rfl, if_neg Bool.false_ne_true, Nat.add_zero]

omit [Ed25519] in
theorem extended_le {now deadline born spare : Nat} (more : Nat) (due : now ≤ deadline)
    (held : deadline ≤ born + spare) : now + more ≤ born + (spare + more) := by omega

def OnTime (life : Life) : Option PunchSession → Prop
  | some session => session.deadline ≤ life.born + allowance session
  | none => True

/-- A request that agrees to a birthday punch comes in under the nonce of a session that is there already. -/
def reopens (core : PunchCore T) : Input T → Bool
  | .frame env source (.connectRequest request) =>
    core.admitsRequest env source request && core.birthdayRequest env request &&
      (core.punchSessions[request.nonce]?).isSome
  | _ => false

/-- No session is overdue when the step is taken. -/
def Prompt (core : PunchCore T) (input : Input T) : Prop :=
  ∀ (now : Instant) (n : UInt64) (session : PunchSession), input.now = some now →
    core.punchSessions[n]? = some session → now ≤ session.deadline

instance (core : PunchCore T) (input : Input T) : Decidable (Prompt core input) :=
  decidable_of_iff (∀ now ∈ input.now, ∀ entry ∈ core.punchSessions.toList, now ≤ entry.2.deadline)
    ⟨fun all now n session timed found =>
      all now timed (n, session) (TreeMap.mem_toList_iff_getElem?_eq_some.mpr found),
    fun prompt now timed entry member =>
      prompt now entry.1 entry.2 timed (TreeMap.mem_toList_iff_getElem?_eq_some.mp member)⟩

omit [Ed25519] in
theorem onTime_survive {birthdayPunch : Bool} {now : Instant} (life : Life) {life' : Life} {session : PunchSession}
    (born : life'.born = life.born) (held : session.deadline ≤ life.born + allowance session) :
    OnTime life' (session.survive birthdayPunch now) := by
  cases survives : session.survive birthdayPunch now with
  | none => trivial
  | some survivor =>
    obtain ⟨_, _, _, rfl⟩ := PunchSession.survive_eq_some survives
    dsimp only [OnTime, allowance]
    rw [born]
    exact held

omit [Ed25519] in
theorem onTime_opens {birthdayPunch birthday : Bool} {now : Instant} (life : Life) {life' : Life}
    {session : PunchSession} {post : Option PunchSession} (born : life'.born = life.born)
    (held : session.deadline ≤ life.born + allowance session)
    (extended : birthday = true → now + birthdayDuration ≤ life.born + allowance session)
    (opens : Opens birthday now (session.survive birthdayPunch now) post) : OnTime life' post := by
  generalize survives : session.survive birthdayPunch now = between at opens
  cases opens with
  | unopened =>
    rw [← survives]
    exact onTime_survive life born held
  | opened agreed first sockets =>
    obtain ⟨_, _, _, rfl⟩ := PunchSession.survive_eq_some survives
    dsimp only [OnTime, allowance, PunchSession.opened, PunchSession.extended]
    rw [born]
    exact extended agreed

theorem onTime_turn {core : PunchCore T} {input : Input T} {n : UInt64} {life : Life} {log : List PunchAction}
    {post : Option PunchSession} (prompt : Prompt core input) (new : core.reopens input = false)
    (held : OnTime life core.punchSessions[n]?) (turn : Turn core n input log post) :
    OnTime (log.foldl (Life.after n) life) post := by
  cases turn with
  | kept => exact held
  | advanced =>
    cases found : core.punchSessions[n]? with
    | none => trivial
    | some session =>
      rw [found] at held
      rw [Option.elim_some, foldl_volleys]
      exact onTime_survive life rfl held
  | completed => trivial
  | paid found =>
    rw [found] at held
    exact held
  | initiated =>
    simp [OnTime, allowance, PunchSession.initiated]
  | @requested env source request via post here admitted sender opens =>
    subst here
    cases found : core.punchSessions[request.nonce]? with
    | none =>
      have fresh : (core.requestedSession env via request).deadline ≤
          env.now + allowance (core.requestedSession env via request) ∧
          env.now + birthdayDuration ≤ env.now + allowance (core.requestedSession env via request) := by
        unfold requestedSession
        rw [found]
        dsimp only
        split
        · exact ⟨by simp [allowance, PunchSession.requested, PunchSession.extended], by
            simp [allowance, PunchSession.requested, PunchSession.extended]⟩
        · exact ⟨by simp [allowance, PunchSession.requested], by simp [allowance, PunchSession.requested]⟩
      rw [Option.isNone_none, if_pos rfl, List.foldl_append, List.foldl_cons, List.foldl_nil, Life.after_created,
        foldl_volleys]
      exact onTime_opens ⟨env.now, 0, 0⟩ rfl fresh.1 (fun _ => fresh.2) opens
    | some session =>
      have plain : core.birthdayRequest env request = false := by
        simpa only [reopens, admitted, found, Option.isSome_some, Bool.true_and, Bool.and_true] using new
      rw [requestedSession_found found plain, plain] at opens
      rw [found] at held
      rw [requestedSession_found found plain, Option.isNone_some, if_neg Bool.false_ne_true, List.nil_append,
        foldl_volleys]
      exact onTime_opens life rfl held (fun agreed => (Bool.false_ne_true agreed).elim) opens
  | @answered env source response session post here found awaiting peer sender opens =>
    rw [found] at held
    have due := extended_le birthdayDuration (prompt env.now n session rfl found) held
    rw [foldl_volleys]
    refine onTime_opens life rfl ?_ (fun _ => ?_) opens
    · rw [allowance_answered awaiting]
      dsimp only [PunchSession.answered]
      split
      · exact due
      · exact Nat.le_trans held (Nat.add_le_add_left (Nat.le_add_right _ _) _)
    · rw [allowance_answered awaiting]
      exact due
  | assisted _ found =>
    rw [found] at held
    rw [List.foldl_cons, Life.after_assisted, foldl_volleys]
    exact onTime_survive life rfl held
  | observed observed found =>
    rw [found] at held
    rw [foldl_volleys]
    exact onTime_survive life rfl held
  | bracketed ip start stop found =>
    rw [found] at held
    rw [foldl_volleys]
    refine onTime_survive life rfl ?_
    obtain ⟨_, _, rest⟩ := PunchSession.rest_bracketed _ ip start stop
    rw [PunchSession.bracket, rest]
    exact held
  | @sprayed env source session found first sender =>
    rw [found] at held
    have due := extended_le birthdayDuration (prompt env.now n session rfl found) held
    rw [← allowance_sprayed first env.now] at due
    exact due
  | reached _ found =>
    rw [found] at held
    exact held

/-- The longest a session lives. -/
def punchLifetime : Nat := punchTimeout + 2 * birthdayDuration

omit [Ed25519] in
theorem allowance_le (session : PunchSession) : allowance session ≤ punchLifetime := by
  unfold allowance punchLifetime
  split
  · split
    · omega
    · omega
  · split
    · omega
    · omega

/-- Whenever a step is taken no session is older than its lifetime, nor ever will be, and a timer removes the sessions
whose deadline has come. -/
def EndInTime (start : PunchCore T) (inputs : List (Input T)) : Prop :=
  ∀ (pre : List (Input T)) (input : Input T) (post : List (Input T)) (now : Instant) (n : UInt64)
    (session : PunchSession), inputs = pre ++ input :: post → input.now = some now →
    (run step start pre).1.punchSessions[n]? = some session →
      now ≤ (Life.of n (run step start pre).2).born + punchLifetime ∧
      session.deadline ≤ (Life.of n (run step start pre).2).born + punchLifetime ∧
      (session.deadline ≤ now → input = .timer now →
        (step (run step start pre).1 input).1.punchSessions[n]? = none)

/-- In a run in which no session is overdue and no request extends one that is there, every session ends in time. -/
theorem punch_sessions_end_in_time (transport : T) (keypair : Ed25519.Keypair) (birthdayPunch : Bool) (sockets : Nat)
    (inputs : List (Input T)) (prompt : Meets step Prompt (new transport keypair birthdayPunch sockets) inputs)
    (fair : Meets step (fun core input => core.reopens input = false) (new transport keypair birthdayPunch sockets)
      inputs) : EndInTime (new transport keypair birthdayPunch sockets) inputs := by
  intro pre input post now n session split timed live
  subst split
  obtain ⟨prompt, here⟩ := (meets_append pre (input :: post)).mp prompt
  obtain ⟨fair, _⟩ := (meets_append pre (input :: post)).mp fair
  have held := run_lives (P := OnTime) trivial
    (fun core input n life log post ok held turn => onTime_turn ok.1 ok.2 held turn) pre
    ((meets_and pre).mpr ⟨prompt, fair⟩) n
  rw [live] at held
  have ends : session.deadline ≤ _ := Nat.le_trans held (Nat.add_le_add_left (allowance_le session) _)
  refine ⟨Nat.le_trans (here.1 now n session timed live) ends, ends, fun late tick => ?_⟩
  subst tick
  dsimp only [step]
  rw [getElem?_onTimer, live]
  exact if_pos late

/-! ### Rounds of probes -/

/-- The rounds sent, with those that are left, are paid for by the session's start, by the plans it took and by the one
follow-up it may grant itself. -/
def InBudget (life : Life) : Option PunchSession → Prop
  | some session =>
    session.probeRounds ≤ maxPunchProbeRounds ∧
    life.volleys + maxPunchProbeRounds ≤ session.probeRounds + maxPunchProbeRounds * (1 + life.assists) +
      (if session.assistFollowupGranted then maxPunchProbeRounds else 0)
  | none => life.volleys ≤ maxPunchProbeRounds * (2 + life.assists)

omit [Ed25519] in
theorem inBudget_survive (birthdayPunch : Bool) (now : Instant) (n : UInt64) {life : Life} {session : PunchSession}
    (held : InBudget life (some session)) :
    InBudget ((session.volleys birthdayPunch now n).foldl (Life.after n) life) (session.survive birthdayPunch now) := by
  obtain ⟨rounds, paid⟩ := held
  have grant : (if session.assistFollowupGranted then maxPunchProbeRounds else 0) ≤ maxPunchProbeRounds := by
    split
    · exact Nat.le_refl _
    · exact Nat.zero_le _
  rw [foldl_volleys]
  unfold PunchSession.survive PunchSession.volleys
  by_cases late : session.deadline ≤ now
  · have past : ¬ now < session.deadline := Nat.not_lt.mpr late
    rw [if_pos late]
    simp only [past, decide_false, Bool.false_and, Bool.false_eq_true, if_false, InBudget, List.length_nil]
    rw [Nat.mul_add] at paid ⊢
    omega
  · rw [if_neg late]
    simp only [Nat.not_le.mp late, decide_true, Bool.true_and]
    unfold PunchSession.advance
    split
    · exact ⟨rounds, paid⟩
    split
    · exact ⟨rounds, paid⟩
    split
    · exact ⟨rounds, paid⟩
    next more =>
      refine ⟨Nat.not_le.mp more, ?_⟩
      dsimp only [List.length_cons, List.length_nil, if_true]
      rw [if_pos rfl, List.length_singleton]
      omega

omit [Ed25519] in
theorem inBudget_opens {birthdayPunch birthday : Bool} {now : Instant} {n : UInt64} {life : Life}
    {session : PunchSession} {post : Option PunchSession} (held : InBudget life (some session))
    (opens : Opens birthday now (session.survive birthdayPunch now) post) :
    InBudget ((session.volleys birthdayPunch now n).foldl (Life.after n) life) post := by
  have survived := inBudget_survive birthdayPunch now n held
  generalize session.survive birthdayPunch now = between at opens survived
  cases opens with
  | unopened => exact survived
  | opened => exact survived

omit [Ed25519] in
/-- The follow-up is granted once. -/
theorem inBudget_followup {life : Life} {session : PunchSession} (held : InBudget life (some session)) (now : Instant) :
    InBudget life (some (session.scheduleAssistedFollowup now)) := by
  obtain ⟨rounds, paid⟩ := held
  unfold PunchSession.scheduleAssistedFollowup InBudget
  dsimp only
  rw [if_pos rfl]
  cases granted : session.assistFollowupGranted with
  | true =>
    rw [granted, if_pos rfl] at paid
    rw [if_pos rfl]
    exact ⟨rounds, paid⟩
  | false =>
    rw [granted, if_neg Bool.false_ne_true] at paid
    rw [if_neg Bool.false_ne_true]
    exact ⟨Nat.zero_le _, by omega⟩

omit [Ed25519] in
/-- A plan pays for a new start. -/
theorem inBudget_assist {life : Life} {session : PunchSession} (held : InBudget life (some session))
    (helper : SocketAddr) (now : Instant) :
    InBudget { life with assists := life.assists + 1 } (some (session.assist helper now)) := by
  obtain ⟨rounds, paid⟩ := held
  refine ⟨Nat.zero_le _, ?_⟩
  have again : maxPunchProbeRounds * (1 + (life.assists + 1)) =
      maxPunchProbeRounds * (1 + life.assists) + maxPunchProbeRounds := by rw [← Nat.add_assoc, Nat.mul_succ]
  have granted : (session.assist helper now).assistFollowupGranted = session.assistFollowupGranted := rfl
  dsimp only
  rw [again, granted]
  exact Nat.le_trans paid (by omega)

theorem inBudget_turn {core : PunchCore T} {input : Input T} {n : UInt64} {life : Life} {log : List PunchAction}
    {post : Option PunchSession} (held : InBudget life core.punchSessions[n]?) (turn : Turn core n input log post) :
    InBudget (log.foldl (Life.after n) life) post := by
  cases turn with
  | kept => exact held
  | advanced =>
    cases found : core.punchSessions[n]? with
    | none =>
      rw [found] at held
      exact held
    | some session =>
      rw [found] at held
      exact inBudget_survive _ _ n held
  | completed found =>
    rw [found] at held
    obtain ⟨rounds, paid⟩ := held
    dsimp only [InBudget, List.foldl_nil]
    rw [Nat.mul_add] at paid ⊢
    split at paid
    · omega
    · omega
  | paid found =>
    rw [found] at held
    exact held
  | initiated =>
    rw [List.foldl_cons, Life.after_created]
    exact ⟨Nat.zero_le _, Nat.le_refl _⟩
  | @requested env source request via post here admitted sender opens =>
    subst here
    have stored : InBudget ((if (core.punchSessions[request.nonce]?).isNone = true then
        [PunchAction.created request.nonce env.now] else []).foldl (Life.after request.nonce) life)
        (some (core.requestedSession env via request)) := by
      unfold requestedSession
      cases found : core.punchSessions[request.nonce]? with
      | none =>
        rw [Option.isNone_none, if_pos rfl, List.foldl_cons, Life.after_created]
        dsimp only
        split
        · exact ⟨Nat.zero_le _, Nat.le_refl _⟩
        · exact ⟨Nat.zero_le _, Nat.le_refl _⟩
      | some session =>
        rw [found] at held
        rw [Option.isNone_some, if_neg Bool.false_ne_true]
        dsimp only
        split
        · exact held
        · exact held
    rw [List.foldl_append]
    exact inBudget_opens stored opens
  | answered _ found _ _ _ opens =>
    rw [found] at held
    exact inBudget_opens held opens
  | assisted _ found =>
    rw [found] at held
    rw [List.foldl_cons, Life.after_assisted]
    exact inBudget_survive _ _ n (inBudget_assist held _ _)
  | observed observed found =>
    rw [found] at held
    have added : InBudget life (some (PunchSession.addPunchCandidate _ observed)) := held
    exact inBudget_survive _ _ n (inBudget_followup added _)
  | @bracketed env source session ip start stop found sender =>
    rw [found] at held
    obtain ⟨_, _, rest⟩ := PunchSession.rest_bracketed session ip start stop
    have added : InBudget life (some (session.bracketed ip start stop)) := by
      rw [rest]
      exact held
    exact inBudget_survive _ _ n (inBudget_followup added _)
  | sprayed found =>
    rw [found] at held
    exact held
  | reached _ found =>
    rw [found] at held
    exact held

/-- The session under `n` takes the plan of its relay that the input brings. -/
def takesPlan (core : PunchCore T) (n : UInt64) : Input T → Bool
  | .frame _ source (.punchAssist nonce origin target port _) =>
    nonce = n && (core.punchSessions[n]?).any (fun session =>
      PunchTransport.peerIdentity core.transport source = some session.via && minUnprivilegedPort ≤ port &&
        origin = core.localPubkey && target = session.peer &&
        (PunchTransport.connectionAddr core.transport session.via).isSome)
  | _ => false

omit [Ed25519] in
theorem not_assisted_volleys (birthdayPunch : Bool) (now : Instant) (n : UInt64) (session : PunchSession) :
    PunchAction.assisted n ∉ session.volleys birthdayPunch now n := by
  unfold PunchSession.volleys
  split
  · simp
  · simp

/-- What the log counts as taken is what the session takes. -/
theorem assisted_iff {core : PunchCore T} (keyed : Keyed core) (input : Input T) (n : UInt64) :
    .assisted n ∈ (step core input).2 ↔ core.takesPlan n input = true := by
  constructor
  · intro taken
    have logged : .assisted n ∈ sessionLog n (step core input).2 :=
      List.mem_filter.mpr ⟨taken, decide_eq_true rfl⟩
    have turn := turn_step keyed input n
    generalize sessionLog n (step core input).2 = log at turn logged
    generalize (step core input).1.punchSessions[n]? = post at turn
    cases turn with
    | advanced =>
      cases found : core.punchSessions[n]? with
      | none =>
        rw [found] at logged
        cases logged
      | some session =>
        rw [found] at logged
        exact (not_assisted_volleys _ _ n session logged).elim
    | initiated => simp at logged
    | requested =>
      rcases List.mem_append.mp logged with early | late
      · split at early
        · simp at early
        · cases early
      · exact (not_assisted_volleys _ _ n _ late).elim
    | answered => exact (not_assisted_volleys _ _ n _ logged).elim
    | assisted _ found sender unprivileged connected =>
      simp [takesPlan, found, sender, unprivileged, connected]
    | observed => exact (not_assisted_volleys _ _ n _ logged).elim
    | bracketed => exact (not_assisted_volleys _ _ n _ logged).elim
    | _ => cases logged
  · intro takes
    unfold takesPlan at takes
    split at takes
    next env source nonce origin target port kind =>
      simp only [Bool.and_eq_true, decide_eq_true_eq, Option.any_eq_true] at takes
      obtain ⟨rfl, session, found, ⟨⟨⟨sender, unprivileged⟩, rfl⟩, rfl⟩, connected⟩ := takes
      obtain ⟨addr, connected⟩ := Option.isSome_iff_exists.mp connected
      have taken : ((core.supplied env).handlePunchAssist env source nonce core.localPubkey session.peer port).2 =
          .assisted nonce :: ((core.supplied env).updateSession env nonce
            (session.assist ⟨addr.ip, port⟩ env.now)).2 := by
        unfold handlePunchAssist
        have sender' : PunchTransport.peerIdentity (core.supplied env).transport source = some session.via := sender
        have found' : (core.supplied env).punchSessions[nonce]? = some session := found
        have connected' : PunchTransport.connectionAddr (core.supplied env).transport session.via = some addr :=
          connected
        have passed : (decide (session.via ≠ session.via) || decide (port < minUnprivilegedPort) ||
            decide (core.localPubkey ≠ (core.supplied env).localPubkey) || decide (session.peer ≠ session.peer)) =
            false := by
          have same : core.localPubkey = (core.supplied env).localPubkey := rfl
          simp [same, UInt16.not_lt.mpr unprivileged]
        rw [sender', found']
        dsimp only
        rw [passed, if_neg Bool.false_ne_true, connected']
      show PunchAction.assisted nonce ∈
        ((core.supplied env).handlePunchAssist env source nonce core.localPubkey session.peer port).2
      rw [taken]
      exact List.mem_cons_self
    · cases takes

/-- Two rounds to start with, two for the follow-up, and two for each plan that the session took. -/
theorem volleys_le (transport : T) (keypair : Ed25519.Keypair) (birthdayPunch : Bool) (sockets : Nat)
    (inputs : List (Input T)) (n : UInt64) :
    (Life.of n (run step (new transport keypair birthdayPunch sockets) inputs).2).volleys ≤ maxPunchProbeRounds *
      (2 + (Life.of n (run step (new transport keypair birthdayPunch sockets) inputs).2).assists) := by
  have held := run_lives (P := InBudget) (Nat.zero_le _)
    (fun core input n life log post _ held turn => inBudget_turn held turn) inputs
    (meets_true (s := new transport keypair birthdayPunch sockets) inputs) n
  cases found : (run step (new transport keypair birthdayPunch sockets) inputs).1.punchSessions[n]? with
  | none =>
    rw [found] at held
    exact held
  | some session =>
    rw [found] at held
    obtain ⟨rounds, paid⟩ := held
    rw [Nat.mul_add] at paid ⊢
    split at paid
    · omega
    · omega

/-- A session that takes at most one plan of its relay sends its first two rounds of probes, two for the plan and two for
the follow-up, and no more. -/
theorem punch_volleys_bounded (transport : T) (keypair : Ed25519.Keypair) (birthdayPunch : Bool) (sockets : Nat)
    (inputs : List (Input T)) (n : UInt64)
    (once : (Life.of n (run step (new transport keypair birthdayPunch sockets) inputs).2).assists ≤ 1) :
    (Life.of n (run step (new transport keypair birthdayPunch sockets) inputs).2).volleys ≤ 3 * maxPunchProbeRounds := by
  have paid := volleys_le transport keypair birthdayPunch sockets inputs n
  have most : maxPunchProbeRounds *
      (2 + (Life.of n (run step (new transport keypair birthdayPunch sockets) inputs).2).assists) ≤
      maxPunchProbeRounds * 3 := Nat.mul_le_mul_left _ (Nat.add_le_add_left once 2)
  omega

end PunchCore

/-! ### A request replayed -/

namespace PunchCore
open PlainSignatures

/-- The relay repeats the request of peer 5 before its session ends. -/
def replayedRun : List (Input (OverlayQuicTransport OverlayFrame)) :=
  [requestOf 5 3 true 0, requestOf 5 3 true (fromSecs 15), requestOf 5 3 true (fromSecs 30),
    requestOf 5 3 true (fromSecs 45), .timer (fromSecs 60)]

/-- After a minute the session is still there. -/
theorem replayedRun_lingers : Meets step Prompt nodeOne replayedRun ∧ ¬ EndInTime nodeOne replayedRun := by
  refine ⟨by decide +kernel, fun ends => ?_⟩
  have live : ((run step nodeOne (replayedRun.take 4)).1.punchSessions[(3 : UInt64)]?).isSome = true := by
    decide +kernel
  have born : (Life.of 3 (run step nodeOne (replayedRun.take 4)).2).born = 0 := by decide +kernel
  obtain ⟨session, found⟩ := Option.isSome_iff_exists.mp live
  have young := (ends (replayedRun.take 4) (.timer (fromSecs 60)) [] (fromSecs 60) 3 session rfl rfl found).1
  rw [born] at young
  exact absurd young (by decide)

/-- Without the replays it is gone after twenty seconds. -/
theorem single_request_ends_in_time :
    EndInTime nodeOne [requestOf 5 3 true 0, .timer (fromSecs 20)] ∧
      (run step nodeOne [requestOf 5 3 true 0]).1.punchSessions.size = 1 := by
  refine ⟨punch_sessions_end_in_time _ _ _ _ _ ?_ ?_, by decide +kernel⟩
  · decide +kernel
  · decide +kernel

/-! ### A plan replayed -/

/-- A frame of the relay to node 1 about its session with peer 5. -/
def relayed (frame : PunchFrame) (now : Instant) : Input (OverlayQuicTransport OverlayFrame) :=
  .frame { randomEnv now with allocator := none } relayAddr frame

def plainRequest : Input (OverlayQuicTransport OverlayFrame) :=
  relayed (.connectRequest (.sign 3 1 .empty .unknown (5 : Pubkey))) 0

def plan : PunchFrame := .punchAssist 3 1 5 50000 .samePortObservation

/-- Each time the relay repeats its plan there is another round of probes. -/
theorem repeated_plan_sends_on :
    ¬ (Life.of 3 (run step nodeOne (plainRequest :: List.replicate 7 (relayed plan 0))).2).volleys ≤
      3 * maxPunchProbeRounds := by decide +kernel

def assistedRun : List (Input (OverlayQuicTransport OverlayFrame)) :=
  [plainRequest, .timer (fromMillis 100), relayed plan (fromMillis 200), .timer (fromMillis 300),
    relayed (.punchObservation 3 5 1 ⟨.v4 0xC6336402, 40001⟩) (fromMillis 400), .timer (fromMillis 500),
    .timer (fromMillis 600)]

/-- With one plan and its result the bound is reached. -/
theorem assistedRun_volleys_bounded :
    (Life.of 3 (run step nodeOne assistedRun).2).volleys ≤ 3 * maxPunchProbeRounds ∧
      (Life.of 3 (run step nodeOne assistedRun).2).volleys = 6 := by
  refine ⟨punch_volleys_bounded _ _ _ _ _ 3 ?_, by decide +kernel⟩
  have once : (Life.of 3 (run step nodeOne assistedRun).2).assists = 1 := by decide +kernel
  exact Nat.le_of_eq once

end PunchCore

end Lightbringer.Overlay
