import Lightbringer.Overlay.PunchSessions

/-!
# Whose session a message may change

A signed message may change the sessions with its signer, and a frame of a relay only the session it names, if that was
negotiated through this relay. Requests are the exception: one that agrees to a birthday punch extends and opens whatever
session its nonce leads to, also another peer's.
-/

namespace Lightbringer.Overlay
open Std Machine

/-- The session that a frame of a relay is for: its nonce, the node that has it, and that node's peer. -/
def PunchFrame.session : PunchFrame → Option (UInt64 × Pubkey × Pubkey)
  | .punchAssist nonce origin target _ _ => some (nonce, origin, target)
  | .punchObservation nonce origin target _ => some (nonce, target, origin)
  | .punchBracket nonce origin target _ _ _ => some (nonce, target, origin)
  | .punchBirthday nonce origin target => some (nonce, target, origin)
  | _ => none

namespace PunchCore

variable [Ed25519] {T : Type} [PunchTransport T]

/-- The origin that a signed message names. -/
def Input.signer : Input T → Option Pubkey
  | .frame _ _ (.connectRequest request) => some request.origin
  | .frame _ _ (.connectResponse response) => some response.origin
  | .probe _ event => some event.probe.origin
  | _ => none

/-- What is stored under `n` is as it was, or as the passing of time alone leaves it. -/
def Undisturbed (core : PunchCore T) (now : Instant) (n : UInt64) (post : Option PunchSession) : Prop :=
  post = core.punchSessions[n]? ∨ post = (core.punchSessions[n]?).bind (PunchSession.survive core.birthdayPunch now)

/-- A signed message leaves the sessions with all but its signer alone. -/
def SparesOthers (core : PunchCore T) (input : Input T) : Prop :=
  ∀ signer now n session, input.signer = some signer → input.now = some now →
    core.punchSessions[n]? = some session → session.peer ≠ signer →
      Undisturbed core now n (step core input).1.punchSessions[n]?

/-- A frame of a relay changes at most the session it names, negotiated through this relay. -/
def Negotiated (core : PunchCore T) (input : Input T) : Prop :=
  ∀ env source frame nonce node peer, input = .frame env source frame → frame.session = some (nonce, node, peer) →
    ∀ n, Undisturbed core env.now n (step core input).1.punchSessions[n]? ∨
      n = nonce ∧ node = core.localPubkey ∧ ∃ session, core.punchSessions[n]? = some session ∧ session.peer = peer ∧
        PunchTransport.peerIdentity core.transport source = some session.via

/-- A request that agrees to a birthday punch comes in under the nonce of another peer's session. -/
def hijacks (core : PunchCore T) : Input T → Bool
  | .frame env source (.connectRequest request) =>
    core.admitsRequest env source request && core.birthdayRequest env request &&
      (core.punchSessions[request.nonce]?).any (fun session => session.peer ≠ request.origin)
  | _ => false

variable {core : PunchCore T}

/-- Without a birthday punch a request leaves a session that is there as it is. -/
theorem requestedSession_found {env : PunchEnv T} {via : Pubkey} {request : ConnectRequest} {session : PunchSession}
    (found : core.punchSessions[request.nonce]? = some session) (plain : core.birthdayRequest env request = false) :
    core.requestedSession env via request = session := by
  rw [requestedSession, plain, found]
  rfl

theorem sparesOthers (keyed : Keyed core) {input : Input T} (own : core.hijacks input = false) :
    SparesOthers core input := by
  intro signer now n session signed timed found apart
  have turn := turn_step keyed input n
  generalize sessionLog n (step core input).2 = log at turn
  generalize (step core input).1.punchSessions[n]? = post at turn ⊢
  cases turn with
  | kept => exact .inl rfl
  | advanced timed' =>
    have same := Option.some.inj (timed'.symm.trans timed)
    rw [same]
    exact .inr rfl
  | completed => cases signed
  | paid => cases signed
  | initiated => cases signed
  | @requested env source request via post here admitted sender opens =>
    subst here
    cases signed
    cases timed
    have plain : core.birthdayRequest env request = false := by
      have foreign : decide (session.peer ≠ request.origin) = true := decide_eq_true apart
      simpa only [hijacks, admitted, found, Option.any_some, foreign, Bool.true_and, Bool.and_true] using own
    rw [requestedSession_found found plain, plain] at opens
    generalize before : session.survive core.birthdayPunch env.now = between at opens
    cases opens with
    | unopened =>
      refine .inr ?_
      rw [found]
      exact before.symm
    | opened agreed => cases agreed
  | answered _ found' _ peer =>
    cases found.symm.trans found'
    cases signed
    exact (apart peer).elim
  | assisted => cases signed
  | observed => cases signed
  | bracketed => cases signed
  | sprayed => cases signed
  | reached here found' peer =>
    cases found.symm.trans found'
    cases signed
    exact (apart peer).elim

/-- Another end for a session with another peer than the signer. -/
theorem not_sparesOthers {input : Input T} {signer peer : Pubkey} {now : Instant} {n : UInt64} {deadline deadline' : Instant}
    (signed : input.signer = some signer) (timed : input.now = some now)
    (partner : (core.punchSessions[n]?).map PunchSession.peer = some peer)
    (before : (core.punchSessions[n]?).map PunchSession.deadline = some deadline)
    (after : ((step core input).1.punchSessions[n]?).map PunchSession.deadline = some deadline')
    (apart : peer ≠ signer) (moved : deadline' ≠ deadline) : ¬ SparesOthers core input := by
  intro spares
  obtain ⟨session, found, rfl⟩ := Option.map_eq_some_iff.mp partner
  rw [found] at before
  have same := Option.some.inj before
  rcases spares signer now n session signed timed found apart with kept | aged
  · rw [kept, found] at after
    exact moved ((Option.some.inj after).symm.trans same)
  · rw [aged, found] at after
    obtain ⟨survivor, survives, rfl⟩ := Option.map_eq_some_iff.mp after
    obtain ⟨_, _, _, rfl⟩ := PunchSession.survive_eq_some survives
    exact moved same

theorem negotiated (keyed : Keyed core) (input : Input T) : Negotiated core input := by
  intro env source frame nonce node peer framed named n
  have turn := turn_step keyed input n
  generalize sessionLog n (step core input).2 = log at turn
  generalize (step core input).1.punchSessions[n]? = post at turn ⊢
  subst framed
  generalize which : (Input.frame env source frame : Input T) = input at turn
  cases turn with
  | kept => exact .inl (.inl rfl)
  | advanced timed =>
    subst which
    cases timed
    exact .inl (.inr rfl)
  | completed => cases which
  | paid => cases which
  | initiated => cases which
  | requested =>
    cases which
    cases named
  | answered =>
    cases which
    cases named
  | assisted _ found sender =>
    cases which
    cases named
    exact .inr ⟨rfl, rfl, _, found, rfl, sender⟩
  | observed observed found sender =>
    cases which
    cases named
    exact .inr ⟨rfl, rfl, _, found, rfl, sender⟩
  | bracketed ip start stop found sender =>
    cases which
    cases named
    exact .inr ⟨rfl, rfl, _, found, rfl, sender⟩
  | sprayed found _ sender =>
    cases which
    cases named
    exact .inr ⟨rfl, rfl, _, found, rfl, sender⟩
  | reached => cases which

/-- In a run without such requests every message keeps to the sessions that are its own. -/
theorem messages_keep_to_their_sessions (transport : T) (keypair : Ed25519.Keypair) (birthdayPunch : Bool)
    (sockets : Nat) (inputs : List (Input T))
    (own : Meets step (fun core input => core.hijacks input = false)
      (new transport keypair birthdayPunch sockets) inputs) :
    Meets step (fun core input => SparesOthers core input ∧ Negotiated core input)
      (new transport keypair birthdayPunch sockets) inputs := by
  refine (meets_iff_prefixes inputs).mpr (fun pre input post split => ?_)
  have keyed := keyed_run transport keypair birthdayPunch sockets pre
  exact ⟨sparesOthers keyed ((meets_iff_prefixes inputs).mp own pre input post split), negotiated keyed input⟩

end PunchCore

/-! ### Two requests under one nonce -/

namespace PunchCore
open PlainSignatures

def relayAddr : SocketAddr := ⟨.v4 0xC0000207, 8001⟩

/-- A node that maps at random, agrees to birthday punches and sees everyone in gossip. No socket can be bound. -/
def randomEnv (now : Instant) : PunchEnv (OverlayQuicTransport OverlayFrame) where
  now := now
  dial := none
  advert peer := some ⟨peer, 0, 0, .direct [], .inConnection⟩
  natClass := none
  allocator := some .random
  generation := none
  candidates := .empty
  nonces := []
  granted := []
  draws := []

/-- A request of the given key to node 1, by way of peer 7. -/
def requestOf (key : Pubkey) (nonce : UInt64) (birthdayPunch : Bool) (now : Instant) :
    Input (OverlayQuicTransport OverlayFrame) :=
  .frame (randomEnv now) relayAddr
    (.connectRequest (.sign nonce 1 .empty { NatProfile.unknown with birthdayPunch := birthdayPunch } key))

def nodeOne : PunchCore (OverlayQuicTransport OverlayFrame) := new (connectedTo [(relayAddr, 7)]) (1 : Pubkey) true 1

/-- Peer 9 asks for a birthday punch under the nonce of peer 5's session. -/
def collidingRun : List (Input (OverlayQuicTransport OverlayFrame)) :=
  [requestOf 5 3 false 0, requestOf 9 3 true (fromSecs 1)]

/-- The session of peer 5 then ends when peer 9 says. -/
theorem collidingRun_disturbs :
    ¬ Meets step (fun core input => SparesOthers core input ∧ Negotiated core input) nodeOne collidingRun := by
  intro met
  have peer : ((step nodeOne (requestOf 5 3 false 0)).1.punchSessions[(3 : UInt64)]?).map PunchSession.peer = some 5 := by
    decide +kernel
  have before : ((step nodeOne (requestOf 5 3 false 0)).1.punchSessions[(3 : UInt64)]?).map PunchSession.deadline =
      some (fromSecs 5) := by decide +kernel
  have after : ((step (step nodeOne (requestOf 5 3 false 0)).1
      (requestOf 9 3 true (fromSecs 1))).1.punchSessions[(3 : UInt64)]?).map PunchSession.deadline =
      some (fromSecs 21) := by decide +kernel
  exact not_sparesOthers rfl rfl peer before after (by decide) (by decide) met.2.1.1

/-- Under a nonce of its own the same request is let through and disturbs nobody. -/
theorem separate_nonces_keep_to_their_sessions :
    Meets step (fun core input => SparesOthers core input ∧ Negotiated core input) nodeOne
        [requestOf 5 3 false 0, requestOf 9 4 true (fromSecs 1)] ∧
      (run step nodeOne [requestOf 5 3 false 0, requestOf 9 4 true (fromSecs 1)]).1.punchSessions.size = 2 := by
  refine ⟨messages_keep_to_their_sessions _ _ _ _ _ ?_, by decide +kernel⟩
  decide +kernel

end PunchCore

end Lightbringer.Overlay
