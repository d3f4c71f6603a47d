import Lightbringer.Overlay.PunchIsolation

/-!
# What a refusal leaves behind

A handler of a hole-punching frame either acts on it or refuses it. A refusal is counted and leaves the tables of the
exchange as they were, with one exception: a response from a peer that the request under its nonce did not go to is
refused after the relay has dropped the request.
-/

namespace Lightbringer.Overlay
open Std Machine

namespace PunchCore

variable [Ed25519] {T : Type}

/-- The sessions, forwards and helpers and the profiles heard last are as before. -/
structure Intact (core core' : PunchCore T) : Prop where
  sessions : core'.punchSessions = core.punchSessions
  forwards : core'.punchForwards = core.punchForwards
  helpers : core'.punchHelpers = core.punchHelpers
  profiles : core'.lastPunchProfiles = core.lastPunchProfiles

theorem intact_refusePunch (core : PunchCore T) : Intact core core.refusePunch := ⟨rfl, rfl, rfl, rfl⟩

variable [PunchTransport T]

/-- A response of its signer to this relay, under the nonce of a request that went to somebody else. -/
def Misdirected (core : PunchCore T) (source : SocketAddr) : PunchFrame → Prop
  | .connectResponse response =>
    response.verify = true ∧ response.target ≠ core.localPubkey ∧
      PunchTransport.peerIdentity core.transport source = some response.origin ∧
      ∃ forward, core.punchForwards[(⟨response.target, response.nonce⟩ : ForwardKey)]? = some forward ∧
        forward.target ≠ response.origin
  | _ => False

/-- A response was passed on, or that was tried. -/
def Relayed (actions : List PunchAction) : Prop := ∃ response queued, .answered response queued ∈ actions

/-- How a handler may end: the frame was acted on, was refused with everything intact, or was relayed. -/
inductive Outcome (core : PunchCore T) (result : PunchCore T × List PunchAction) : Prop
  | acted (uncounted : result.1.punchRefused = core.punchRefused)
  | refused (intact : Intact core result.1)
  | relayed (passed : Relayed result.2)

omit [PunchTransport T] in
theorem outcome_refusePunch (core : PunchCore T) : Outcome core (core.refusePunch, []) :=
  .refused (intact_refusePunch core)

variable (core : PunchCore T) (env : PunchEnv T) (source : SocketAddr)

theorem punchRefused_advancePunches (now : Instant) : (core.advancePunches now).1.punchRefused = core.punchRefused := by
  obtain ⟨_, _, _, _, moved⟩ := rest_advancePunches core now
  rw [moved]

theorem punchRefused_startBirthday (nonce : UInt64) :
    (core.startBirthday env nonce).1.punchRefused = core.punchRefused := by
  obtain ⟨_, _, _, moved⟩ := (started_startBirthday core env nonce).rest
  rw [moved]

/-- Advancing, and a birthday punch if it was agreed on, are no refusals. -/
theorem punchRefused_advanced {birthday : Bool} {nonce : UInt64} {now : Instant} {advanced : PunchCore T}
    (h : advanced = (core.advancePunches now).1) :
    (if birthday then advanced.startBirthday env nonce else (advanced, [])).1.punchRefused = core.punchRefused := by
  subst h
  cases birthday with
  | false => exact punchRefused_advancePunches core now
  | true => exact (punchRefused_startBirthday _ env nonce).trans (punchRefused_advancePunches core now)

theorem punchRefused_answerRequest (via : Pubkey) (request : ConnectRequest) :
    (core.answerRequest env via request).1.punchRefused = core.punchRefused := by
  dsimp only [answerRequest]
  generalize ConnectResponse.sign _ _ _ _ _ = response
  obtain ⟨transport, _, sent⟩ := queueFrame_eq (core.openSession env via request).1 via (.connectResponse response)
  rw [sent]
  exact punchRefused_advanced { (core.openSession env via request).1 with transport := transport } env rfl

theorem punchRefused_acceptResponse (session : PunchSession) (response : ConnectResponse) :
    (core.acceptResponse env session response).1.punchRefused = core.punchRefused :=
  punchRefused_advanced { core.setSession response.nonce (session.answered response (core.birthdayResponse session) env.now)
    with lastPunchProfiles := core.lastPunchProfiles.push response.origin response.natProfile } env rfl

theorem outcome_handleConnectRequest (request : ConnectRequest) :
    Outcome core (core.handleConnectRequest env source request) := by
  dsimp only [handleConnectRequest]
  split
  · exact outcome_refusePunch core
  split
  · split
    · exact outcome_refusePunch core
    next via _ =>
      split
      · exact outcome_refusePunch core
      split
      · exact outcome_refusePunch core
      · exact .acted (punchRefused_answerRequest core env via request)
  split
  · exact outcome_refusePunch core
  obtain ⟨_, _, admitted⟩ := rest_admitForward core env request
  split
  · obtain ⟨⟨_, _, moved⟩, _⟩ := rest_forwardRequest (core.admitForward env request).1 env request
    refine .acted ?_
    rw [moved, admitted]
  · refine .refused ?_
    rw [admitted]
    exact ⟨rfl, rfl, rfl, rfl⟩

/-- A relay either passes the response on or refuses it, and a refusal for want of a forward drops none. -/
theorem outcome_relayResponse (response : ConnectResponse) :
    Outcome core (core.relayResponse env response) ∨
      ∃ forward, core.punchForwards[(⟨response.target, response.nonce⟩ : ForwardKey)]? = some forward ∧
        forward.target ≠ response.origin := by
  dsimp only [relayResponse]
  split
  · exact .inl (outcome_refusePunch core)
  next forward found =>
    split
    next other => exact .inr ⟨forward, found, other⟩
    next same =>
      obtain ⟨_, queued, sent⟩ := queueFrame_eq
        { core with punchForwards := core.punchForwards.erase ⟨response.target, response.nonce⟩ } response.target
        (.connectResponse response)
      rw [sent]
      exact .inl (.relayed ⟨response, queued, List.mem_cons_self⟩)

theorem outcome_handleConnectResponse (response : ConnectResponse) :
    Outcome core (core.handleConnectResponse env source response) ∨
      Misdirected core source (.connectResponse response) := by
  dsimp only [handleConnectResponse]
  split
  · exact .inl (outcome_refusePunch core)
  next signed =>
    split
    · split
      · exact .inl (outcome_refusePunch core)
      next session _ =>
        split
        · exact .inl (outcome_refusePunch core)
        · exact .inl (.acted (punchRefused_acceptResponse core env session response))
    next others =>
      split
      · exact .inl (outcome_refusePunch core)
      next sender =>
        refine (outcome_relayResponse core env response).imp_right ?_
        rintro ⟨forward, found, other⟩
        exact ⟨by simpa using signed, others, Decidable.not_not.mp sender, forward, found, other⟩

theorem outcome_updateSession (nonce : UInt64) (session : PunchSession) :
    Outcome core (core.updateSession env nonce session) := .acted (punchRefused_advancePunches _ _)

theorem outcome_handlePunchAssist (nonce : UInt64) (origin target : Pubkey) (port : UInt16) :
    Outcome core (core.handlePunchAssist env source nonce origin target port) := by
  unfold handlePunchAssist
  split
  · split
    · exact outcome_refusePunch core
    split
    · exact outcome_refusePunch core
    · exact .acted (punchRefused_advancePunches _ _)
  · exact outcome_refusePunch core

theorem outcome_handlePunchObservation (nonce : UInt64) (origin target : Pubkey) (observed : SocketAddr) :
    Outcome core (core.handlePunchObservation env source nonce origin target observed) := by
  unfold handlePunchObservation
  split
  · split
    · exact outcome_refusePunch core
    · exact outcome_updateSession core env _ _
  · exact outcome_refusePunch core

theorem outcome_handlePunchBracket (nonce : UInt64) (origin target : Pubkey) (ip : IpAddr) (start stop : UInt16) :
    Outcome core (core.handlePunchBracket env source nonce origin target ip start stop) := by
  unfold handlePunchBracket
  split
  · split
    · exact outcome_refusePunch core
    split
    · exact outcome_refusePunch core
    · exact outcome_updateSession core env _ _
  · exact outcome_refusePunch core

theorem outcome_handlePunchBirthday (nonce : UInt64) (origin target : Pubkey) :
    Outcome core (core.handlePunchBirthday env source nonce origin target) := by
  dsimp only [handlePunchBirthday]
  split
  · split
    · exact .acted rfl
    · exact outcome_refusePunch core
  split
  · split
    · exact outcome_refusePunch core
    next via session _ _ _ =>
      unfold sprayBirthday
      split
      · exact outcome_refusePunch core
      next first _ =>
        dsimp only
        generalize List.replicate birthdaySprayCap _ = probes
        obtain ⟨⟨_, _, moved⟩, _⟩ := rest_spray first.ip probes (core.setSession nonce (session.sprayed env.now))
        refine .acted ?_
        rw [moved]
        rfl
  · exact outcome_refusePunch core

theorem outcome_handleFrame (frame : PunchFrame) :
    Outcome core (core.handleFrame env source frame) ∨ Misdirected core source frame := by
  cases frame with
  | connectRequest request => exact .inl (outcome_handleConnectRequest core env source request)
  | connectResponse response => exact outcome_handleConnectResponse core env source response
  | punchAssist nonce origin target port kind =>
    exact .inl (outcome_handlePunchAssist core env source nonce origin target port)
  | punchObservation nonce origin target observed =>
    exact .inl (outcome_handlePunchObservation core env source nonce origin target observed)
  | punchBracket nonce origin target ip start stop =>
    exact .inl (outcome_handlePunchBracket core env source nonce origin target ip start stop)
  | punchBirthday nonce origin target => exact .inl (outcome_handlePunchBirthday core env source nonce origin target)

/-- The misdirected response takes the forward with it. -/
theorem forwards_misdirected {response : ConnectResponse} (misdirected : Misdirected core source (.connectResponse response)) :
    (core.handleConnectResponse env source response).1.punchForwards =
      core.punchForwards.erase ⟨response.target, response.nonce⟩ := by
  obtain ⟨signed, others, sender, forward, found, other⟩ := misdirected
  simp only [handleConnectResponse, signed, others, sender, Bool.not_true, Bool.false_eq_true, if_false, ne_eq,
    not_true_eq_false, relayResponse, found, other, not_false_eq_true, if_true]
  rfl

theorem not_intact_misdirected {frame : PunchFrame} (misdirected : Misdirected core source frame) :
    ¬ Intact core (core.handleFrame env source frame).1 := by
  intro intact
  cases frame with
  | connectResponse response =>
    have erased := (forwards_misdirected core env source misdirected).symm.trans intact.forwards
    obtain ⟨_, _, _, forward, found, _⟩ := misdirected
    rw [← erased, TreeMap.getElem?_erase_self] at found
    cases found
  | _ => exact misdirected

/-- Whatever a handler refuses outright it leaves alone, unless it is such a response. -/
theorem refused_intact_iff {frame : PunchFrame}
    (counted : (step core (.frame env source frame)).1.punchRefused ≠ core.punchRefused)
    (outright : ¬ Relayed (step core (.frame env source frame)).2) :
    Intact core (step core (.frame env source frame)).1 ↔ ¬ Misdirected core source frame := by
  have supplied : Misdirected (core.supplied env) source frame ↔ Misdirected core source frame := by
    cases frame <;> exact Iff.rfl
  rw [← supplied]
  constructor
  · intro intact misdirected
    exact not_intact_misdirected (core.supplied env) env source misdirected
      ⟨intact.sessions, intact.forwards, intact.helpers, intact.profiles⟩
  · intro proper
    rcases outcome_handleFrame (core.supplied env) env source frame with outcome | misdirected
    · cases outcome with
      | acted uncounted => exact absurd uncounted counted
      | refused intact => exact ⟨intact.sessions, intact.forwards, intact.helpers, intact.profiles⟩
      | relayed passed => exact absurd passed outright
    · exact absurd misdirected proper

end PunchCore

/-! ### A third party cancels an exchange -/

namespace PunchCore
open PlainSignatures

def addrFive : SocketAddr := ⟨.v4 0xC0000205, 8001⟩

def addrNine : SocketAddr := ⟨.v4 0xC0000209, 8001⟩

/-- Node 1 as a relay, with peers 5, 6 and 9 connected. -/
def relayOne : PunchCore (OverlayQuicTransport OverlayFrame) :=
  new (connectedTo [(addrFive, 5), (⟨.v4 0xC0000206, 8001⟩, 6), (addrNine, 9)]) (1 : Pubkey) false 1

/-- Peer 5 asks for peer 6. -/
def askForSix : Input (OverlayQuicTransport OverlayFrame) :=
  .frame (randomEnv 0) addrFive (.connectRequest (.sign 3 6 .empty .unknown (5 : Pubkey)))

/-- Peer 9 answers peer 5. -/
def answerOfNine : PunchFrame := .connectResponse (.sign 3 5 .empty .unknown (9 : Pubkey))

/-- The answer of peer 9 in the place of peer 6 is refused, and the request is forgotten. -/
theorem refusal_cancels_exchange :
    ¬ ∀ (inputs : List (Input (OverlayQuicTransport OverlayFrame))) (env : PunchEnv (OverlayQuicTransport OverlayFrame))
        (source : SocketAddr) (frame : PunchFrame),
      let core := (run step relayOne inputs).1
      let result := step core (.frame env source frame)
      result.1.punchRefused ≠ core.punchRefused → ¬ Relayed result.2 → Intact core result.1 := by
  intro claim
  have silent : (step (run step relayOne [askForSix]).1 (.frame (randomEnv 1) addrNine answerOfNine)).2 = [] := by
    decide +kernel
  have intact := claim [askForSix] (randomEnv 1) addrNine answerOfNine (by decide +kernel) (by
    rintro ⟨response, queued, passed⟩
    rw [silent] at passed
    cases passed)
  have before : (run step relayOne [askForSix]).1.punchForwards.size = 1 := by decide +kernel
  have after : (step (run step relayOne [askForSix]).1
      (.frame (randomEnv 1) addrNine answerOfNine)).1.punchForwards.size = 0 := by decide +kernel
  have same := congrArg TreeMap.size intact.forwards
  exact absurd (after.symm.trans (same.trans before)) (by decide)

/-- Where no request is waiting the same answer leaves everything as it was. -/
theorem answer_refused_intact :
    Intact relayOne (step relayOne (.frame (randomEnv 1) addrNine answerOfNine)).1 ↔
      ¬ Misdirected relayOne addrNine answerOfNine := by
  have silent : (step relayOne (.frame (randomEnv 1) addrNine answerOfNine)).2 = [] := by decide +kernel
  refine refused_intact_iff relayOne (randomEnv 1) addrNine (by decide +kernel) ?_
  rintro ⟨response, queued, passed⟩
  rw [silent] at passed
  cases passed

end PunchCore

end Lightbringer.Overlay
