import Lightbringer.Overlay.Authenticity

/-!
# What a confirmation was made for

A requester and honest helpers, with the requests and verdicts between them in flight. The requester remembers the
candidate it believes in, the helper probes the address a request came from, and the two share only a nonce. They
agree when every request reaches its helper from the candidate's own address, or its host for a port-mapped one.
-/

namespace Lightbringer.Overlay
open Std Machine OverlayCore

/-- What a node is started with. -/
structure Setup (T : Type) where
  localPubkey : Pubkey
  transport : T
  bindAddr : SocketAddr
  bindAddrV6 : Option SocketAddr
  advertisedAddr : Option SocketAddr
  advertisedAddrV6 : Option SocketAddr
  gateway : Bool
  now : Instant

variable {T : Type} [OverlayTransport T]

def Setup.core (setup : Setup T) : OverlayCore T :=
  OverlayCore.new setup.localPubkey setup.transport setup.bindAddr setup.bindAddrV6 setup.advertisedAddr
    setup.advertisedAddrV6 setup.gateway setup.now

/-- A result on its way to the requester. `target` is where the probe that decided it went, if one did; the message
itself does not carry it. -/
structure Verdict where
  nonce : Nat
  ok : Bool
  target : Option SocketAddr
  deriving DecidableEq

/-- The requester `me`, the helpers, and what is in flight. `targets` records where each helper's probes went. -/
structure Exchange (T : Type) where
  requester : OverlayCore T
  helpers : Pubkey → OverlayCore T
  requests : List (Nat × Option UInt16)
  verdicts : List Verdict
  targets : Pubkey → ProbeId → Option SocketAddr

/-- A node steps on its own, or a message reaches it. `source` is the address the receiver sees it come from. -/
inductive Move (T : Type) [OverlayTransport T] where
  | requester (input : Input T)
  | helper (pubkey : Pubkey) (input : Input T)
  | deliverRequest (pubkey : Pubkey) (env : Env T) (source : SocketAddr) (index : Nat)
  | deliverVerdict (env : Env T) (source : SocketAddr) (index : Nat)

namespace Exchange

def new (requester : Setup T) (helpers : Pubkey → Setup T) : Exchange T where
  requester := requester.core
  helpers pubkey := (helpers pubkey).core
  requests := []
  verdicts := []
  targets _ _ := none

def requestOf : Action → Option (Nat × Option UInt16)
  | .asked _ nonce probePort => some (nonce, probePort)
  | _ => none

/-- The verdict an action sends to `me`. -/
def verdictOf (me : Pubkey) (targets : ProbeId → Option SocketAddr) : Action → Option Verdict
  | .verdict peer nonce ok event =>
    if peer = me then some ⟨nonce, ok, event.bind (fun event => targets event.probe)⟩ else none
  | _ => none

def targetOf (probe : ProbeId) : Action → Option SocketAddr
  | .probed id _ _ target => if id = probe then some target else none
  | _ => none

variable (exchange : Exchange T)

def requesterSteps (input : Input T) : Exchange T :=
  let (core, out) := exchange.requester.step input
  { exchange with requester := core, requests := exchange.requests ++ out.filterMap requestOf }

def helperSteps (me pubkey : Pubkey) (input : Input T) : Exchange T :=
  let (core, out) := (exchange.helpers pubkey).step input
  let before := exchange.targets pubkey
  { exchange with
    helpers := Function.update exchange.helpers pubkey core
    verdicts := exchange.verdicts ++ out.filterMap (verdictOf me before)
    targets := Function.update exchange.targets pubkey
      (fun probe => (out.findSome? (targetOf probe)).or (before probe)) }

/-- A frame that only the other side of the exchange sends: a verdict to the requester, a request of `me`. -/
def fromRequester (me : Pubkey) (core : OverlayCore T) : Input T → Bool
  | .frame _ source (.dialBackRequest _ _) => OverlayTransport.peerIdentity core.transport source = some me
  | _ => false

def isVerdict : Input T → Bool
  | .frame _ _ (.dialBackResult _ _) => true
  | _ => false

def step (me : Pubkey) (exchange : Exchange T) : Move T → Exchange T × List Unit
  | .requester input => (if isVerdict input then exchange else exchange.requesterSteps input, [])
  | .helper pubkey input =>
    (if fromRequester me (exchange.helpers pubkey) input then exchange
      else exchange.helperSteps me pubkey input, [])
  | .deliverRequest pubkey env source index =>
    match exchange.requests[index]? with
    | none => (exchange, [])
    | some (nonce, probePort) =>
      let input := .frame env source (.dialBackRequest nonce probePort)
      if fromRequester me (exchange.helpers pubkey) input then
        ({ exchange with requests := exchange.requests.eraseIdx index }.helperSteps me pubkey input, [])
      else (exchange, [])
  | .deliverVerdict env source index =>
    match exchange.verdicts[index]? with
    | none => (exchange, [])
    | some verdict =>
      ({ exchange with verdicts := exchange.verdicts.eraseIdx index }.requesterSteps
        (.frame env source (.dialBackResult verdict.nonce verdict.ok)), [])

end Exchange

open Exchange

/-- An address becomes confirmed only through a positive verdict of a probe that went to that address. -/
def Bound (me : Pubkey) (exchange : Exchange T) (move : Move T) : Prop :=
  ∀ kind a, exchange.requester.confirmed kind ≠ some a →
    (exchange.step me move).1.requester.confirmed kind = some a →
    ∃ env source index verdict, move = .deliverVerdict env source index ∧
      exchange.verdicts[index]? = some verdict ∧ verdict.ok = true ∧ verdict.target = some a

/-- A request that is still waited for arrives from where its candidate is. -/
def Aligned (exchange : Exchange T) : Move T → Prop
  | .deliverRequest _ _ source index =>
    ∀ request ∈ exchange.requests[index]?, ∀ entry ∈ exchange.requester.dialbackPending[request.1]?,
      probeTarget source request.2 = entry.candidate
  | _ => True

instance (exchange : Exchange T) (move : Move T) : Decidable (Aligned exchange move) := by
  cases move with
  | deliverRequest pubkey env source index =>
    exact inferInstanceAs (Decidable (∀ request ∈ exchange.requests[index]?, _))
  | _ => exact .isTrue trivial

/-! ### Agreement -/

/-- Under this nonce the requester waits for nothing but `target`. -/
structure Agrees (core : OverlayCore T) (nonce : Nat) (target : Option SocketAddr) : Prop where
  used : nonce < core.nextDialbackNonce
  candidate : ∀ entry, core.dialbackPending[nonce]? = some entry → target = some entry.candidate

structure InStep (me : Pubkey) (exchange : Exchange T) : Prop where
  requests : ∀ request ∈ exchange.requests, request.1 < exchange.requester.nextDialbackNonce
  probes : ∀ pubkey (probe : ProbeId) helper, (exchange.helpers pubkey).helperProbes[probe]? = some helper →
    helper.requester = me → Agrees exchange.requester helper.nonce (exchange.targets pubkey probe)
  verdicts : ∀ verdict ∈ exchange.verdicts, verdict.ok = true →
    Agrees exchange.requester verdict.nonce verdict.target

variable {me : Pubkey} {exchange : Exchange T}

omit [OverlayTransport T] in
/-- The requester moved on without reusing a nonce. -/
theorem Agrees.mono {core next : OverlayCore T} {nonce : Nat} {target : Option SocketAddr}
    (agrees : Agrees core nonce target) (nonces : core.nextDialbackNonce ≤ next.nextDialbackNonce)
    (pending : ∀ entry, next.dialbackPending[nonce]? = some entry →
      core.dialbackPending[nonce]? = some entry ∨ core.nextDialbackNonce ≤ nonce) : Agrees next nonce target where
  used := Nat.lt_of_lt_of_le agrees.used nonces
  candidate entry found := by
    rcases pending entry found with old | fresh
    · exact agrees.candidate entry old
    · exact absurd agrees.used (Nat.not_lt.mpr fresh)

omit [OverlayTransport T] in
theorem inStep_new (requester : Setup T) (helpers : Pubkey → Setup T) :
    InStep me (Exchange.new requester helpers) where
  requests _ member := by cases member
  probes pubkey probe helper found := by simp [Exchange.new, Setup.core, OverlayCore.new] at found
  verdicts _ member := by cases member

omit [OverlayTransport T] in
/-- The requester's side moves on, and requests it makes carry nonces used up by then. -/
theorem inStep_requester (held : InStep me exchange) {core : OverlayCore T} {requests : List (Nat × Option UInt16)}
    {verdicts : List Verdict} (nonces : exchange.requester.nextDialbackNonce ≤ core.nextDialbackNonce)
    (pending : ∀ (nonce : Nat) entry, core.dialbackPending[nonce]? = some entry →
      exchange.requester.dialbackPending[nonce]? = some entry ∨ exchange.requester.nextDialbackNonce ≤ nonce)
    (asked : ∀ request ∈ requests, request ∈ exchange.requests ∨ request.1 < core.nextDialbackNonce)
    (fewer : ∀ verdict ∈ verdicts, verdict ∈ exchange.verdicts) :
    InStep me { exchange with requester := core, requests := requests, verdicts := verdicts } where
  requests request member := by
    rcases asked request member with old | fresh
    · exact Nat.lt_of_lt_of_le (held.requests request old) nonces
    · exact fresh
  probes pubkey probe helper found mine := (held.probes pubkey probe helper found mine).mono nonces (pending _)
  verdicts verdict member ok := (held.verdicts verdict (fewer verdict member) ok).mono nonces (pending _)

theorem requestOf_advertOf (core : OverlayCore T) (input : Input T) :
    (advertOf core input).filterMap requestOf = [] := by
  unfold advertOf
  split
  · split
    · rfl
    · rfl
  · rfl

theorem requestOf_numbered {nonces : Nat} {out : List Action} (numbered : ∀ action ∈ out, Numbered nonces action) :
    ∀ request ∈ out.filterMap requestOf, request.1 < nonces := by
  intro request member
  obtain ⟨action, emitted, asked⟩ := List.mem_filterMap.mp member
  cases action with
  | asked helper nonce probePort =>
    cases asked
    exact numbered _ emitted
  | _ => cases asked

theorem isVerdict_iff {input : Input T} : isVerdict input = true ↔ IsResult input := by
  cases input with
  | frame env source frame => cases frame <;> simp [isVerdict, IsResult]
  | _ => simp [isVerdict, IsResult]

theorem inStep_requesterSteps (held : InStep me exchange) {input : Input T} (own : ¬ IsResult input) :
    InStep me (exchange.requesterSteps input) := by
  obtain ⟨rest, outputs, keeps⟩ := keeps_step exchange.requester own
  have asked : (exchange.requester.step input).2.filterMap requestOf = rest.filterMap requestOf := by
    rw [outputs, List.filterMap_append, requestOf_advertOf, List.nil_append]
  refine inStep_requester held keeps.nonces (fun nonce entry found => ?_) (fun request member => ?_)
    (fun _ same => same)
  · exact (keeps.pending nonce entry found).imp_right And.left
  · rcases List.mem_append.mp member with old | fresh
    · exact .inl old
    · exact .inr (requestOf_numbered keeps.actions request (asked ▸ fresh))

theorem inStep_verdict (held : InStep me exchange) (env : Env T) (source : SocketAddr) (index nonce : Nat) (ok : Bool) :
    InStep me ({ exchange with verdicts := exchange.verdicts.eraseIdx index }.requesterSteps
      (.frame env source (.dialBackResult nonce ok))) := by
  have next : (exchange.requester.handleDialbackResult nonce ok).nextDialbackNonce =
        exchange.requester.nextDialbackNonce ∧
      ∀ (other : Nat) entry, (exchange.requester.handleDialbackResult nonce ok).dialbackPending[other]? = some entry →
        exchange.requester.dialbackPending[other]? = some entry := by
    cases found : exchange.requester.dialbackPending[nonce]? with
    | none =>
      rw [handleDialbackResult_missing found]
      exact ⟨rfl, fun _ _ same => same⟩
    | some entry =>
      have settles := handleDialbackResult_found found ok
      refine ⟨settles.nonces, fun other entry left => ?_⟩
      rw [settles.pending, TreeMap.getElem?_erase] at left
      split at left
      · cases left
      · exact left
  refine inStep_requester held (Nat.le_of_eq next.1.symm) (fun other entry left => .inl (next.2 other entry left))
    (fun request member => ?_) (fun verdict member => List.mem_of_mem_eraseIdx member)
  rcases List.mem_append.mp member with old | fresh
  · exact .inl old
  · cases fresh

/-! ### Helpers -/

/-- A helper moves on; its open probes for `me` and its new positive verdicts agree with the requester. -/
theorem inStep_helperSteps (held : InStep me exchange) {pubkey : Pubkey} {input : Input T}
    (probes : ∀ (probe : ProbeId) helper, ((exchange.helpers pubkey).step input).1.helperProbes[probe]? = some helper →
      helper.requester = me → Agrees exchange.requester helper.nonce
        ((((exchange.helpers pubkey).step input).2.findSome? (targetOf probe)).or (exchange.targets pubkey probe)))
    (verdicts : ∀ nonce event, .verdict me nonce true event ∈ ((exchange.helpers pubkey).step input).2 →
      Agrees exchange.requester nonce (event.bind (fun event => exchange.targets pubkey event.probe))) :
    InStep me (exchange.helperSteps me pubkey input) where
  requests := held.requests
  probes other probe helper found mine := by
    by_cases here : other = pubkey
    · subst here
      have stepped : ((exchange.helpers other).step input).1.helperProbes[probe]? = some helper := by
        simpa [helperSteps] using found
      simpa [helperSteps] using probes probe helper stepped mine
    · have same : (exchange.helpers other).helperProbes[probe]? = some helper := by
        simpa [helperSteps, here] using found
      simpa [helperSteps, here] using held.probes other probe helper same mine
  verdicts verdict member ok := by
    rcases List.mem_append.mp member with old | fresh
    · exact held.verdicts verdict old ok
    · obtain ⟨action, emitted, sent⟩ := List.mem_filterMap.mp fresh
      cases action with
      | verdict peer nonce positive event =>
        simp only [verdictOf] at sent
        split at sent
        next mine =>
          cases sent
          cases ok
          exact verdicts nonce event (mine ▸ emitted)
        next => cases sent
      | _ => cases sent

theorem targetOf_unstarted {out : List Action}
    (unstarted : ∀ probe requester source target, .probed probe requester source target ∉ out) (probe : ProbeId) :
    out.findSome? (targetOf probe) = none := by
  refine List.findSome?_eq_none_iff.mpr (fun action member => ?_)
  cases action with
  | probed id requester source target => exact absurd member (unstarted id requester source target)
  | _ => rfl

theorem inStep_shrinks (held : InStep me exchange) {pubkey : Pubkey} {input : Input T}
    (shrinks : Shrinks (exchange.helpers pubkey) ((exchange.helpers pubkey).step input).1
      ((exchange.helpers pubkey).step input).2) : InStep me (exchange.helperSteps me pubkey input) := by
  refine inStep_helperSteps held (fun probe helper found mine => ?_) (fun nonce event sent => ?_)
  · rw [targetOf_unstarted shrinks.unstarted, Option.none_or]
    exact held.probes pubkey probe helper (shrinks.probes probe helper found) mine
  · exact absurd sent (shrinks.negative me nonce event)

/-- A request from `requester` reaches a helper; if that is `me`, it comes from where its candidate is. -/
theorem inStep_request (held : InStep me exchange) (pubkey : Pubkey) (env : Env T) (source : SocketAddr) (nonce : Nat)
    (probePort : Option UInt16)
    (mine : OverlayTransport.peerIdentity (exchange.helpers pubkey).transport source = some me →
      Agrees exchange.requester nonce (some (probeTarget source probePort))) :
    InStep me (exchange.helperSteps me pubkey (.frame env source (.dialBackRequest nonce probePort))) := by
  cases identity : OverlayTransport.peerIdentity (exchange.helpers pubkey).transport source with
  | none =>
    refine inStep_shrinks held ?_
    show Shrinks _ ((exchange.helpers pubkey).handleDialbackRequest env source nonce probePort).1
      ((exchange.helpers pubkey).handleDialbackRequest env source nonce probePort).2
    unfold handleDialbackRequest
    rw [identity]
    exact shrinks_of_same rfl
  | some requester =>
    have stepped : (exchange.helpers pubkey).step (.frame env source (.dialBackRequest nonce probePort)) =
        (((exchange.helpers pubkey).serveDialback env requester source nonce probePort).1, .requested requester nonce ::
          ((exchange.helpers pubkey).serveDialback env requester source nonce probePort).2) := by
      show (exchange.helpers pubkey).handleDialbackRequest env source nonce probePort = _
      unfold handleDialbackRequest
      rw [identity]
    rcases serve_cases env (exchange.helpers pubkey) requester source nonce probePort with
      refused | ⟨probe, helper, asker, numbered, opened, actions⟩
    · refine inStep_shrinks held ?_
      rw [stepped]
      exact ⟨refused.probes, by simpa using refused.unstarted, by simpa using refused.negative⟩
    · refine inStep_helperSteps held (fun id other found ours => ?_) (fun nonce event sent => ?_)
      · rw [stepped] at found ⊢
        have inserted : ((exchange.helpers pubkey).helperProbes.insert probe helper)[id]? = some other := by
          rw [← opened]
          exact found
        rw [TreeMap.getElem?_insert] at inserted
        rw [actions]
        split at inserted
        next here =>
          cases inserted
          have same : probe = id := LawfulEqOrd.compare_eq_iff_eq.mp here
          have asked : requester = me := asker.symm.trans ours
          rw [numbered]
          simpa [List.findSome?_cons, targetOf, same] using mine (asked ▸ identity)
        next apart =>
          have different : probe ≠ id := fun same => apart (by rw [same]; exact ReflOrd.compare_self)
          simpa [List.findSome?_cons, targetOf, different] using held.probes pubkey id other inserted ours
      · rw [stepped, actions] at sent
        simp at sent

theorem inStep_probeEvent (held : InStep me exchange) (pubkey : Pubkey) :
    InStep me (exchange.helperSteps me pubkey .probeEvent) := by
  rcases probeEvent_cases (exchange.helpers pubkey) with quiet | ⟨event, helper, _, opened, closed, actions⟩
  · exact inStep_shrinks held quiet
  · refine inStep_helperSteps held (fun probe other found mine => ?_) (fun nonce cause sent => ?_)
    · rw [closed, TreeMap.getElem?_erase] at found
      split at found
      · cases found
      · rw [actions]
        simpa [List.findSome?_cons, targetOf] using held.probes pubkey probe other found mine
    · rw [actions] at sent
      have concluded : me = helper.requester ∧ nonce = helper.nonce ∧ event.identity = some helper.requester ∧
          cause = some event := by
        simpa [eq_comm, and_assoc] using sent
      obtain ⟨mine, rfl, _, rfl⟩ := concluded
      exact held.probes pubkey event.probe helper opened mine.symm

theorem inStep_helper (held : InStep me exchange) (pubkey : Pubkey) {input : Input T}
    (others : fromRequester me (exchange.helpers pubkey) input = false) :
    InStep me (exchange.helperSteps me pubkey input) := by
  by_cases event : input = .probeEvent
  · rw [event]
    exact inStep_probeEvent held pubkey
  by_cases request : IsRequest input
  · unfold IsRequest at request
    split at request
    next env source nonce probePort =>
      refine inStep_request held pubkey env source nonce probePort (fun identity => ?_)
      simp [fromRequester, identity] at others
    next => exact request.elim
  · exact inStep_shrinks held (shrinks_step _ request event)

/-! ### Steps and runs -/

theorem inStep_step (held : InStep me exchange) {move : Move T} (aligned : Aligned exchange move) :
    InStep me (exchange.step me move).1 := by
  cases move with
  | requester input =>
    unfold Exchange.step
    dsimp only
    split
    · exact held
    next own => exact inStep_requesterSteps held (fun result => own (isVerdict_iff.mpr result))
  | helper pubkey input =>
    unfold Exchange.step
    dsimp only
    split
    · exact held
    next others => exact inStep_helper held pubkey (Bool.not_eq_true _ ▸ others)
  | deliverRequest pubkey env source index =>
    unfold Exchange.step
    dsimp only
    split
    · exact held
    next nonce probePort found =>
      split
      · have sent : (nonce, probePort) ∈ exchange.requests := List.mem_of_getElem? found
        have fewer : InStep me { exchange with requests := exchange.requests.eraseIdx index } :=
          ⟨fun request member => held.requests request (List.mem_of_mem_eraseIdx member), held.probes, held.verdicts⟩
        refine inStep_request fewer pubkey env source nonce probePort (fun _ => ⟨held.requests _ sent, ?_⟩)
        exact fun entry waiting => congrArg some (aligned (nonce, probePort) found entry waiting)
      · exact held
  | deliverVerdict env source index =>
    unfold Exchange.step
    dsimp only
    split
    · exact held
    next verdict _ => exact inStep_verdict held env source index verdict.nonce verdict.ok

theorem bound_step (held : InStep me exchange) (move : Move T) : Bound me exchange move := by
  intro kind a unconfirmed confirmed
  cases move with
  | requester input =>
    unfold Exchange.step at confirmed
    dsimp only at confirmed
    split at confirmed
    · exact absurd confirmed unconfirmed
    next own =>
      obtain ⟨_, _, keeps⟩ := keeps_step exchange.requester (fun result => own (isVerdict_iff.mpr result))
      exact absurd (keeps.confirmed kind a confirmed) unconfirmed
  | helper pubkey input =>
    unfold Exchange.step at confirmed
    dsimp only at confirmed
    split at confirmed
    · exact absurd confirmed unconfirmed
    · exact absurd confirmed unconfirmed
  | deliverRequest pubkey env source index =>
    unfold Exchange.step at confirmed
    dsimp only at confirmed
    split at confirmed
    · exact absurd confirmed unconfirmed
    split at confirmed
    · exact absurd confirmed unconfirmed
    · exact absurd confirmed unconfirmed
  | deliverVerdict env source index =>
    unfold Exchange.step at confirmed
    dsimp only at confirmed
    split at confirmed
    · exact absurd confirmed unconfirmed
    next verdict sent =>
      have after : (exchange.requester.handleDialbackResult verdict.nonce verdict.ok).confirmed kind = some a :=
        confirmed
      cases found : exchange.requester.dialbackPending[verdict.nonce]? with
      | none =>
        rw [handleDialbackResult_missing found] at after
        exact absurd after unconfirmed
      | some entry =>
        rw [(handleDialbackResult_found found verdict.ok).confirmed] at after
        split at after
        next settled =>
          have agrees := held.verdicts verdict (List.mem_of_getElem? sent) settled.1
          refine ⟨env, source, index, verdict, rfl, sent, settled.1, ?_⟩
          rw [agrees.candidate entry found]
          exact after
        next => exact absurd after unconfirmed

theorem confirmations_bound (requester : Setup T) (helpers : Pubkey → Setup T) (moves : List (Move T))
    (aligned : Meets (Exchange.step requester.localPubkey) Aligned (Exchange.new requester helpers) moves) :
    Meets (Exchange.step requester.localPubkey) (Bound requester.localPubkey) (Exchange.new requester helpers)
      moves := by
  rw [meets_iff_prefixes]
  rintro pre move post rfl
  have before := ((meets_append pre (move :: post)).mp aligned).1
  have held : InStep requester.localPubkey (run (Exchange.step requester.localPubkey)
      (Exchange.new requester helpers) pre).1 :=
    run_invariant (inStep_new requester helpers) (fun _ _ held here => inStep_step held here) pre before
  exact bound_step held move

/-! ### Two families -/

abbrev QuicMove := Move (OverlayQuicTransport OverlayFrame)

def nodeSetup (pubkey : Pubkey) : Setup (OverlayQuicTransport OverlayFrame) :=
  ⟨pubkey, OverlayQuicTransport.new 0 (some 1), ⟨.v4 0x0A000001, 8001⟩, none, none, none, false, 0⟩

def exchangeOf9 : Exchange (OverlayQuicTransport OverlayFrame) := Exchange.new (nodeSetup 9) nodeSetup

/-- Helper 1, which knows node 9 at `source`, takes in its request, and node 9 answers the probe. -/
def helpsFrom (source : SocketAddr) : List QuicMove :=
  (connects source 1 9).map (.helper 1) ++
  [.deliverRequest 1 ⟨fromSecs 10, some 7, some (2, QuinnConn.idle)⟩ source 0,
    .helper 1 (.call ⟨.onDatagram (.connectionEvent 2 { QuinnConn.idle with
      identity := some 9
      events := [.handshakeDataReady, .connected] }), rfl⟩),
    .helper 1 .probeEvent]

def verdictArrives : QuicMove := .deliverVerdict (quietEnv (fromSecs 11)) (observerAddr 1) 0

def confirmsMapping : List QuicMove :=
  asksFirstPeer.map .requester ++ helpsFrom (externalAddr 40000) ++ [verdictArrives]

theorem confirmations_bound_mapping :
    Meets (Exchange.step 9) Aligned exchangeOf9 confirmsMapping ∧
    (run (Exchange.step 9) exchangeOf9 confirmsMapping).1.requester.confirmedDirect = some (externalAddr 40000) ∧
    Meets (Exchange.step 9) (Bound 9) exchangeOf9 confirmsMapping :=
  have aligned : Meets (Exchange.step 9) Aligned exchangeOf9 confirmsMapping := by decide +kernel
  ⟨aligned, by decide +kernel, confirmations_bound (nodeSetup 9) nodeSetup confirmsMapping aligned⟩

/-- Node 9 reaches peer 1 over IPv6 only; peers 2 and 3 see its IPv4 mapping. -/
def asksOverV6 : List QuicInput :=
  connects ⟨.v6 0x20010DB8000000000000000000000001, 8001⟩ 1 1 ++ connects (observerAddr 2) 2 2 ++
  connects (observerAddr 3) 3 3 ++
  [.frame (quietEnv 0) (observerAddr 2) (.addressObservation (externalAddr 40000)),
    .frame (quietEnv 0) (observerAddr 3) (.addressObservation (externalAddr 40000)),
    .timer (quietEnv (fromSecs 10)) []]

def ownV6 : SocketAddr := ⟨.v6 0x20010DB8000000000000000000000009, 8001⟩

def probesOtherFamily : List QuicMove := asksOverV6.map .requester ++ helpsFrom ownV6

theorem other_family_confirms :
    (run (Exchange.step 9) exchangeOf9 probesOtherFamily).1.verdicts = [⟨0, true, some ownV6⟩] ∧
    (run (Exchange.step 9) exchangeOf9 (probesOtherFamily ++ [verdictArrives])).1.requester.confirmedDirect =
      some (externalAddr 40000) ∧
    ¬ Meets (Exchange.step 9) (Bound 9) exchangeOf9 (probesOtherFamily ++ [verdictArrives]) := by
  have verdicts : (run (Exchange.step 9) exchangeOf9 probesOtherFamily).1.verdicts = [⟨0, true, some ownV6⟩] := by
    decide +kernel
  have confirmed : (run (Exchange.step 9) exchangeOf9 (probesOtherFamily ++ [verdictArrives])).1.requester.confirmedDirect =
      some (externalAddr 40000) := by
    decide +kernel
  refine ⟨verdicts, confirmed, fun bound => ?_⟩
  have last := ((meets_concat probesOtherFamily verdictArrives).mp bound).2
  have before : (run (Exchange.step 9) exchangeOf9 probesOtherFamily).1.requester.confirmedDirect = none := by
    decide +kernel
  rw [run_concat] at confirmed
  obtain ⟨env, source, index, verdict, arrives, sent, _, target⟩ :=
    last .observed (externalAddr 40000) (fun same => by cases before.symm.trans same) confirmed
  injection arrives with _ _ same
  rw [verdicts, ← same] at sent
  cases sent
  exact absurd target (by decide)

end Lightbringer.Overlay
