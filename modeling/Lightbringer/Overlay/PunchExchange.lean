import Lightbringer.Overlay.PunchLifetime

/-!
# Two nodes that probe each other

Both ends of a punch hold a session with the other and answer its raw probes. Whatever a node answers is a probe to the
other node, so that the probes in flight are never used up.
-/

namespace Lightbringer.Overlay
open Std Machine
namespace PunchCore

variable [Ed25519]

/-- Two nodes and the raw probes between them, each with the side it flies to. -/
structure Exchange where
  nodes : Bool → PunchCore (OverlayQuicTransport OverlayFrame)
  flight : List (Bool × PunchProbe)

namespace Exchange

/-- A probe that is sent flies to the given side. -/
def reply (side : Bool) : PunchAction → Option (Bool × PunchProbe)
  | .probed _ _ probe => some (side, probe)
  | _ => none

/-- A probe arrives, from wherever the network maps its sender to, on a socket that is not a relay's helper. -/
inductive Delivers (exchange : Exchange) : Exchange → Prop
  | deliver (before after : List (Bool × PunchProbe)) (side : Bool)
      (env : PunchEnv (OverlayQuicTransport OverlayFrame)) (event : PunchProbeEvent)
      (flying : exchange.flight = before ++ (side, event.probe) :: after)
      (own : (exchange.nodes side).punchHelpers[event.socket]? = none) :
      Delivers exchange
        ⟨Function.update exchange.nodes side ((exchange.nodes side).handlePunchProbe env event).1,
          before ++ after ++ ((exchange.nodes side).handlePunchProbe env event).2.filterMap (reply !side)⟩

/-- Every order of deliveries comes to an end. -/
def Quiesces (exchange : Exchange) : Prop := Acc (fun later earlier => Delivers earlier later) exchange

/-- A live session with the given peer that does not wait for a response, on a node that has another socket than its
helpers. -/
structure Engaged (core : PunchCore (OverlayQuicTransport OverlayFrame)) (n : UInt64) (peer : Pubkey) : Prop where
  session : ∃ session, core.punchSessions[n]? = some session ∧ session.peer = peer ∧ session.awaitingResponse = false
  socket : ∃ socket : SocketId, core.punchHelpers[socket]? = none

/-- Both nodes have a session with the other under the nonce, and what is in flight are their probes for it. -/
structure Matched (n : UInt64) (exchange : Exchange) : Prop where
  engaged : ∀ side, Engaged (exchange.nodes side) n (exchange.nodes !side).localPubkey
  signed : ∀ flying ∈ exchange.flight, flying.2 = PunchProbe.sign n (exchange.nodes !flying.1).keypair

variable {n : UInt64} {exchange : Exchange}

theorem verify_sign (n : UInt64) (keypair : Ed25519.Keypair) : (PunchProbe.sign n keypair).verify = true :=
  Ed25519.verify_signMessage keypair _

/-- What a delivered probe leaves of the node, and its answer. -/
structure Answers (core : PunchCore (OverlayQuicTransport OverlayFrame)) (n : UInt64) (session : PunchSession)
    (result : PunchCore (OverlayQuicTransport OverlayFrame) × List PunchAction) : Prop where
  session : ∃ session', result.1.punchSessions[n]? = some session' ∧ session'.peer = session.peer ∧
    session'.awaitingResponse = session.awaitingResponse
  helpers : result.1.punchHelpers = core.punchHelpers
  keypair : result.1.keypair = core.keypair
  replied : ∀ side, result.2.filterMap (reply side) = [(side, PunchProbe.sign n core.keypair)]

theorem replyProbe_eq (core : PunchCore (OverlayQuicTransport OverlayFrame)) (birthdaySocket : Option SocketId)
    (event : PunchProbeEvent) :
    core.replyProbe birthdaySocket event =
      (core, [.probed birthdaySocket event.source (PunchProbe.sign event.probe.nonce core.keypair)]) := by
  cases birthdaySocket with
  | none => rfl
  | some socket => rfl

theorem answers_acceptProbe {core : PunchCore (OverlayQuicTransport OverlayFrame)}
    (env : PunchEnv (OverlayQuicTransport OverlayFrame)) (session : PunchSession) (event : PunchProbeEvent) :
    Answers core event.probe.nonce session (core.acceptProbe env session event) := by
  dsimp only [acceptProbe]
  generalize (core.localPubkey < session.peer && !session.dialStarted : Bool) = dials
  generalize (if event.socket ∈ session.birthdaySockets then some event.socket else none) = birthdaySocket
  rw [replyProbe_eq]
  have stored := getElem?_setSession core event.probe.nonce
    (session.reached event.source dials (dials && birthdaySocket.isNone) env.now) event.probe.nonce
  rw [if_pos rfl] at stored
  cases dials with
  | false =>
    rw [if_neg Bool.false_ne_true]
    exact ⟨⟨_, stored, rfl, rfl⟩, rfl, rfl, fun _ => rfl⟩
  | true =>
    rw [if_pos rfl]
    dsimp only
    obtain ⟨_, _, dialed⟩ := rest_dialPunched (core.setSession event.probe.nonce
      (session.reached event.source true (true && birthdaySocket.isNone) env.now)) env birthdaySocket
      (if (true && birthdaySocket.isNone) = true then session.payload else none) event.source session.peer
      session.deadline
    rw [dialed]
    exact ⟨⟨_, stored, rfl, rfl⟩, rfl, rfl, fun _ => rfl⟩

theorem answers_handlePunchProbe {core : PunchCore (OverlayQuicTransport OverlayFrame)} {session : PunchSession}
    (env : PunchEnv (OverlayQuicTransport OverlayFrame)) {event : PunchProbeEvent} {keypair : Ed25519.Keypair}
    (found : core.punchSessions[n]? = some session) (peer : session.peer = Ed25519.pubkey keypair)
    (settled : session.awaitingResponse = false) (signed : event.probe = PunchProbe.sign n keypair)
    (own : core.punchHelpers[event.socket]? = none) :
    Answers core n session (core.handlePunchProbe env event) := by
  have nonce : event.probe.nonce = n := by rw [signed]; rfl
  have origin : event.probe.origin = session.peer := by rw [signed, peer]; rfl
  have genuine : event.probe.verify = true := by rw [signed]; exact verify_sign n keypair
  unfold handlePunchProbe
  rw [own, genuine, nonce, found]
  dsimp only
  rw [origin, settled]
  simp only [Bool.not_true, ne_eq, not_true_eq_false, decide_false, Bool.or_self, Bool.false_eq_true, if_false]
  rw [← nonce]
  exact answers_acceptProbe env session event

/-- A delivery keeps the nodes engaged and the number of probes in flight. -/
theorem matched_delivers {exchange' : Exchange} (matched : Matched n exchange) (delivers : Delivers exchange exchange') :
    Matched n exchange' ∧ exchange'.flight.length = exchange.flight.length := by
  cases delivers with
  | deliver before after side env event flying own =>
    obtain ⟨session, found, peer, settled⟩ := (matched.engaged side).session
    have mine : (side, event.probe) ∈ exchange.flight := by
      rw [flying]
      simp
    have answers := answers_handlePunchProbe env found peer settled (matched.signed _ mine) own
    have keypairs : ∀ other, (Function.update exchange.nodes side
        ((exchange.nodes side).handlePunchProbe env event).1 other).keypair = (exchange.nodes other).keypair := by
      intro other
      by_cases here : other = side
      · subst here
        rw [Function.update_self]
        exact answers.keypair
      · rw [Function.update_of_ne here]
    refine ⟨⟨fun other => ?_, fun probe member => ?_⟩, ?_⟩
    · have names : (Function.update exchange.nodes side ((exchange.nodes side).handlePunchProbe env event).1
          !other).localPubkey = (exchange.nodes !other).localPubkey := congrArg Ed25519.pubkey (keypairs _)
      rw [names]
      dsimp only
      by_cases here : other = side
      · subst here
        rw [Function.update_self]
        obtain ⟨session', found', peer', settled'⟩ := answers.session
        refine ⟨⟨session', found', peer'.trans peer, settled'.trans settled⟩, ?_⟩
        rw [answers.helpers]
        exact (matched.engaged other).socket
      · rw [Function.update_of_ne here]
        exact matched.engaged other
    · rw [answers.replied] at member
      dsimp only
      rw [keypairs]
      rcases List.mem_append.mp member with old | fresh
      · refine matched.signed probe ?_
        rw [flying]
        rcases List.mem_append.mp old with early | late
        · exact List.mem_append_left _ early
        · exact List.mem_append_right _ (List.mem_cons_of_mem _ late)
      · rw [List.mem_singleton.mp fresh, Bool.not_not]
    · rw [answers.replied, flying]
      simp only [List.length_append, List.length_cons, List.length_nil]
      omega

/-- What the environment answers plays no part in it. -/
def anyEnv : PunchEnv (OverlayQuicTransport OverlayFrame) := ⟨0, none, fun _ => none, none, none, none, .empty, [], [], []⟩

/-- Whatever is in flight can be delivered. -/
theorem exists_delivers (matched : Matched n exchange) (busy : exchange.flight ≠ []) :
    ∃ exchange', Delivers exchange exchange' := by
  obtain ⟨⟨side, probe⟩, after, flying⟩ := List.exists_cons_of_ne_nil busy
  obtain ⟨socket, own⟩ := (matched.engaged side).socket
  exact ⟨_, .deliver [] after side anyEnv ⟨socket, ⟨.v4 0, 0⟩, probe⟩ flying own⟩

theorem not_quiesces (matched : Matched n exchange) (busy : exchange.flight ≠ []) : ¬ Quiesces exchange := by
  intro quiesces
  induction quiesces with
  | intro exchange _ ih =>
    obtain ⟨exchange', delivers⟩ := exists_delivers matched busy
    obtain ⟨matched', conserved⟩ := matched_delivers matched delivers
    refine ih exchange' delivers matched' (fun empty => ?_)
    rw [empty, List.length_nil] at conserved
    exact busy (List.length_eq_zero_iff.mp conserved.symm)

/-- The exchange comes to rest only if nothing is in flight to begin with. -/
theorem punch_exchange_quiesces_iff (matched : Matched n exchange) : Quiesces exchange ↔ exchange.flight = [] := by
  constructor
  · intro quiesces
    by_contra busy
    exact not_quiesces matched busy quiesces
  · intro empty
    refine Acc.intro exchange (fun exchange' delivers => ?_)
    cases delivers with
    | deliver before after side env event flying =>
      rw [empty] at flying
      simp at flying

end Exchange

end PunchCore

/-! ### A request and its response -/

namespace PunchCore
open PlainSignatures

/-- Node 1 asks peer 5, by way of peer 7, which relays the response. -/
def initiatorRun : List (Input (OverlayQuicTransport OverlayFrame)) :=
  let env := { randomEnv 0 with
    allocator := none, nonces := [3], advert := fun peer => some ⟨peer, 0, 0, .coordinated [] [7], .inConnection⟩ }
  [.send env 5 none, .frame env relayAddr (.connectResponse (.sign 3 1 .empty .unknown (5 : Pubkey)))]

def targetRun : List (Input (OverlayQuicTransport OverlayFrame)) :=
  [.frame { randomEnv 0 with allocator := none } relayAddr
    (.connectRequest (.sign 3 5 .empty .unknown (1 : Pubkey)))]

def nodeFive : PunchCore (OverlayQuicTransport OverlayFrame) := new (connectedTo [(relayAddr, 7)]) (5 : Pubkey) true 1

namespace Exchange

/-- Nodes 1 and 5 after the signaling. -/
def signaledNode (side : Bool) : PunchCore (OverlayQuicTransport OverlayFrame) :=
  bif side then (run step nodeFive targetRun).1 else (run step nodeOne initiatorRun).1

def signaled (flight : List (Bool × PunchProbe)) : Exchange := ⟨signaledNode, flight⟩

theorem engaged_of_any {core : PunchCore (OverlayQuicTransport OverlayFrame)} {n : UInt64} {peer : Pubkey}
    (session : (core.punchSessions[n]?).any (fun session => session.peer = peer && !session.awaitingResponse) = true)
    (socket : core.punchHelpers.isEmpty = true) : Engaged core n peer := by
  obtain ⟨session, found, both⟩ := (Option.any_eq_true _ _).mp session
  rw [Bool.and_eq_true, decide_eq_true_eq, Bool.not_eq_true'] at both
  exact ⟨⟨session, found, both.1, both.2⟩, 0, TreeMap.getElem?_of_isEmpty socket⟩

theorem engaged_signaled (side : Bool) : Engaged (signaledNode side) 3 (signaledNode !side).localPubkey := by
  cases side with
  | false => exact engaged_of_any (by decide +kernel) (by decide +kernel)
  | true => exact engaged_of_any (by decide +kernel) (by decide +kernel)

/-- One probe that crosses over is answered for ever. -/
theorem crossing_probe_never_rests :
    Matched 3 (signaled [(true, PunchProbe.sign 3 (1 : Pubkey))]) ∧
      ¬ Quiesces (signaled [(true, PunchProbe.sign 3 (1 : Pubkey))]) := by
  have matched : Matched 3 (signaled [(true, PunchProbe.sign 3 (1 : Pubkey))]) := by
    refine ⟨engaged_signaled, fun flying member => ?_⟩
    rw [List.mem_singleton.mp member]
    decide +kernel
  exact ⟨matched, not_quiesces matched (List.cons_ne_nil _ _)⟩

/-- The signaling alone leaves them at rest. -/
theorem signaling_rests : Matched 3 (signaled []) ∧ Quiesces (signaled []) := by
  have matched : Matched 3 (signaled []) :=
    ⟨engaged_signaled, fun flying member => (List.not_mem_nil member).elim⟩
  exact ⟨matched, (punch_exchange_quiesces_iff matched).mpr rfl⟩

end Exchange

end PunchCore

end Lightbringer.Overlay
