import Lightbringer.Overlay.Core

/-!
# What a step of the core can do

As a requester: of all steps only a dial-back result confirms an address; the others drop confirmations, expire
requests, and make new ones under nonces not used before. As a helper: only a request starts a probe and only a
probe event brings a positive verdict.
-/

namespace Lightbringer.Overlay
open Std Machine OverlayCore

variable {T : Type}

def OverlayCore.confirmed (core : OverlayCore T) : CandidateKind → Option SocketAddr
  | .observed => core.confirmedDirect
  | .portMapped => core.confirmedPortmap
  | .v6 => core.confirmedV6

/-- Requests are made under nonces used up by now; adverts are not looked at here. -/
def Numbered (nonces : Nat) : Action → Prop
  | .asked _ nonce _ => nonce < nonces
  | .advertised _ _ => False
  | _ => True

theorem Numbered.mono {fewer more : Nat} {action : Action} (numbered : Numbered fewer action) (le : fewer ≤ more) :
    Numbered more action := by
  cases action with
  | asked helper nonce port => exact Nat.lt_of_lt_of_le numbered le
  | advertised now reachability => exact numbered
  | _ => trivial

/-- The requester's side of a step that is not a result. -/
structure Keeps (core next : OverlayCore T) (out : List Action) : Prop where
  confirmed : ∀ kind a, next.confirmed kind = some a → core.confirmed kind = some a
  nonces : core.nextDialbackNonce ≤ next.nextDialbackNonce
  pending : ∀ (nonce : Nat) entry, next.dialbackPending[nonce]? = some entry →
    core.dialbackPending[nonce]? = some entry ∨
    core.nextDialbackNonce ≤ nonce ∧ nonce < next.nextDialbackNonce
  actions : ∀ action ∈ out, Numbered next.nextDialbackNonce action

variable {core next last : OverlayCore T} {out later : List Action}

theorem keeps_trans (first : Keeps core next out) (second : Keeps next last later) :
    Keeps core last (out ++ later) where
  confirmed kind a holds := first.confirmed kind a (second.confirmed kind a holds)
  nonces := Nat.le_trans first.nonces second.nonces
  pending nonce entry found := by
    rcases second.pending nonce entry found with earlier | fresh
    · rcases first.pending nonce entry earlier with old | ⟨above, below⟩
      · exact .inl old
      · exact .inr ⟨above, Nat.lt_of_lt_of_le below second.nonces⟩
    · exact .inr ⟨Nat.le_trans first.nonces fresh.1, fresh.2⟩
  actions action member := by
    rcases List.mem_append.mp member with early | late
    · exact (first.actions action early).mono second.nonces
    · exact second.actions action late

/-- The requester's fields are the same. -/
theorem keeps_of_same (confirmed : next.confirmed = core.confirmed)
    (nonce : next.nextDialbackNonce = core.nextDialbackNonce)
    (pending : next.dialbackPending = core.dialbackPending)
    (numbered : ∀ action ∈ out, Numbered core.nextDialbackNonce action) : Keeps core next out where
  confirmed kind a holds := by rw [← confirmed]; exact holds
  nonces := Nat.le_of_eq nonce.symm
  pending nonce entry found := by rw [pending] at found; exact .inl found
  actions action member := by rw [nonce]; exact numbered action member

theorem keeps_refl (core : OverlayCore T) : Keeps core core [] := keeps_of_same rfl rfl rfl (by simp)

/-- Nothing but the confirmations change, and those are dropped. -/
theorem keeps_of_dropped (confirmed : ∀ kind a, next.confirmed kind = some a → core.confirmed kind = some a)
    (nonce : next.nextDialbackNonce = core.nextDialbackNonce)
    (pending : next.dialbackPending = core.dialbackPending) : Keeps core next [] where
  confirmed := confirmed
  nonces := Nat.le_of_eq nonce.symm
  pending nonce entry found := by rw [pending] at found; exact .inl found
  actions action member := by cases member

theorem dropStale_some {confirmed candidate : Option SocketAddr} {a : SocketAddr}
    (kept : dropStale confirmed candidate = some a) : confirmed = some a ∧ candidate = some a := by
  unfold dropStale at kept
  split at kept
  · cases kept
  next same =>
    rw [not_not] at same
    exact ⟨kept, same ▸ kept⟩

variable [OverlayTransport T] (env : Env T)

/-! ### What asking leaves alone -/

/-- A relation between transports that every send stays within. -/
structure SendsKeep (R : T → T → Prop) : Prop where
  refl : ∀ t, R t t
  trans : ∀ {t t' t''}, R t t' → R t' t'' → R t t''
  toPeer : ∀ t pubkey frame, R t (OverlayTransport.queueDatagramToPeer t pubkey frame).1
  toAddr : ∀ t addr frame dial, R t (OverlayTransport.queueDatagram t addr frame dial).1

/-- The core asked for dial-backs and did nothing else. -/
structure Asks (R : T → T → Prop) (core next : OverlayCore T) (out : List Action) : Prop where
  probes : next.helperProbes = core.helperProbes
  transport : R core.transport next.transport
  asked : ∀ action ∈ out, ∃ helper nonce port, action = .asked helper nonce port

section
variable {R : T → T → Prop} (within : SendsKeep R)
include within

theorem asks_silent (probes : next.helperProbes = core.helperProbes) (transport : next.transport = core.transport) :
    Asks R core next [] :=
  ⟨probes, transport ▸ within.refl _, fun action member => by cases member⟩

theorem asks_trans (first : Asks R core next out) (second : Asks R next last later) :
    Asks R core last (out ++ later) where
  probes := second.probes.trans first.probes
  transport := within.trans first.transport second.transport
  asked action member := by
    rcases List.mem_append.mp member with early | late
    · exact first.asked action early
    · exact second.asked action late

omit within in
theorem asks_rememberRequest (core : OverlayCore T) (helper : Pubkey) (kind : CandidateKind) (candidate : SocketAddr)
    (probePort : Option UInt16) {sent : T × Bool} (transport : R core.transport sent.1) :
    Asks R core (core.rememberRequest env helper kind candidate probePort sent).1
      (core.rememberRequest env helper kind candidate probePort sent).2 := by
  unfold rememberRequest
  dsimp only
  split
  · refine ⟨rfl, transport, fun action member => ?_⟩
    exact ⟨helper, core.nextDialbackNonce, probePort, List.mem_singleton.mp member⟩
  · exact ⟨rfl, transport, fun action member => by cases member⟩

theorem asks_requestUnconfirmed (core : OverlayCore T) (confirmed : Option SocketAddr) (kind : CandidateKind)
    (candidate : Option SocketAddr) (probePort : Option UInt16) :
    Asks R core (core.requestUnconfirmed env confirmed kind candidate probePort).1
      (core.requestUnconfirmed env confirmed kind candidate probePort).2 := by
  unfold requestUnconfirmed requestDialback
  split
  · split
    · exact asks_silent within rfl rfl
    split
    · exact asks_silent within rfl rfl
    split
    · exact asks_silent within rfl rfl
    · exact asks_rememberRequest env core _ kind _ probePort (within.toPeer _ _ _)
  · exact asks_silent within rfl rfl

theorem asks_requestDialbackV6 (core : OverlayCore T) (candidate : Option SocketAddr) :
    Asks R core (core.requestDialbackV6 env candidate).1 (core.requestDialbackV6 env candidate).2 := by
  unfold requestDialbackV6
  split
  · exact asks_silent within rfl rfl
  split
  · exact asks_silent within rfl rfl
  split
  · exact asks_silent within rfl rfl
  · exact asks_rememberRequest env core _ .v6 _ none (within.toAddr _ _ _ _)

theorem asks_maybeRequestDialbackV6 (core : OverlayCore T) :
    Asks R core (core.maybeRequestDialbackV6 env).1 (core.maybeRequestDialbackV6 env).2 := by
  unfold maybeRequestDialbackV6
  split
  · exact asks_silent within rfl rfl
  dsimp only
  split
  · exact asks_silent within rfl rfl
  · have asks := asks_requestDialbackV6 env within
      { core with confirmedV6 := dropStale core.confirmedV6 core.candidateV6 } core.candidateV6
    exact ⟨asks.probes, asks.transport, asks.asked⟩

theorem asks_maybeRequestDialback (core : OverlayCore T) :
    Asks R core (core.maybeRequestDialback env).1 (core.maybeRequestDialback env).2 := by
  unfold maybeRequestDialback
  split
  · exact asks_silent within rfl rfl
  · refine asks_trans within (asks_trans within ?_ (asks_requestUnconfirmed env within _ _ _ _ _))
      (asks_maybeRequestDialbackV6 env within _)
    have asks := asks_requestUnconfirmed env within { core with
      confirmedDirect := dropStale core.confirmedDirect core.discovery.consistentMapping
      confirmedPortmap := dropStale core.confirmedPortmap
        (if core.portmapCandidate env.now = core.discovery.consistentMapping then none
          else core.portmapCandidate env.now) }
    exact ⟨(asks _ _ _ _).probes, (asks _ _ _ _).transport, (asks _ _ _ _).asked⟩

end

/-! ### Requests -/

theorem keeps_rememberRequest (core : OverlayCore T) (helper : Pubkey) (kind : CandidateKind) (candidate : SocketAddr)
    (probePort : Option UInt16) (sent : T × Bool) :
    Keeps core (core.rememberRequest env helper kind candidate probePort sent).1
      (core.rememberRequest env helper kind candidate probePort sent).2 := by
  unfold rememberRequest
  dsimp only
  split
  · refine ⟨fun kind a holds => ?_, Nat.le_succ _, fun nonce entry found => ?_, fun action member => ?_⟩
    · cases kind <;> exact holds
    · rw [TreeMap.getElem?_insert] at found
      split at found
      next here =>
        rw [← LawfulEqOrd.compare_eq_iff_eq.mp here]
        exact .inr ⟨Nat.le_refl _, Nat.lt_succ_self _⟩
      next => exact .inl found
    · rw [List.mem_singleton.mp member]
      exact Nat.lt_succ_self _
  · refine ⟨fun kind a holds => ?_, Nat.le_succ _, fun nonce entry found => .inl found, fun _ member => ?_⟩
    · cases kind <;> exact holds
    · cases member

theorem keeps_requestDialback (core : OverlayCore T) (kind : CandidateKind) (candidate : Option SocketAddr)
    (probePort : Option UInt16) :
    Keeps core (core.requestDialback env kind candidate probePort).1
      (core.requestDialback env kind candidate probePort).2 := by
  unfold requestDialback
  split
  · exact keeps_refl core
  split
  · exact keeps_refl core
  split
  · exact keeps_refl core
  · exact keeps_rememberRequest env core _ kind _ probePort _

theorem keeps_requestUnconfirmed (core : OverlayCore T) (confirmed : Option SocketAddr) (kind : CandidateKind)
    (candidate : Option SocketAddr) (probePort : Option UInt16) :
    Keeps core (core.requestUnconfirmed env confirmed kind candidate probePort).1
      (core.requestUnconfirmed env confirmed kind candidate probePort).2 := by
  unfold requestUnconfirmed
  split
  · exact keeps_requestDialback env core kind candidate probePort
  · exact keeps_refl core

theorem keeps_requestDialbackV6 (core : OverlayCore T) (candidate : Option SocketAddr) :
    Keeps core (core.requestDialbackV6 env candidate).1 (core.requestDialbackV6 env candidate).2 := by
  unfold requestDialbackV6
  split
  · exact keeps_refl core
  split
  · exact keeps_refl core
  split
  · exact keeps_refl core
  · exact keeps_rememberRequest env core _ .v6 _ none _

theorem keeps_maybeRequestDialbackV6 (core : OverlayCore T) :
    Keeps core (core.maybeRequestDialbackV6 env).1 (core.maybeRequestDialbackV6 env).2 := by
  unfold maybeRequestDialbackV6
  split
  · refine keeps_of_dropped (fun kind a holds => ?_) rfl rfl
    cases kind with
    | observed | portMapped => exact holds
    | v6 => cases holds
  have dropped : Keeps core { core with confirmedV6 := dropStale core.confirmedV6 core.candidateV6 } [] := by
    refine keeps_of_dropped (fun kind a holds => ?_) rfl rfl
    cases kind with
    | observed | portMapped => exact holds
    | v6 => exact (dropStale_some holds).1
  dsimp only
  split
  · exact dropped
  · exact keeps_trans dropped (keeps_requestDialbackV6 env _ _)

theorem keeps_maybeRequestDialback (core : OverlayCore T) :
    Keeps core (core.maybeRequestDialback env).1 (core.maybeRequestDialback env).2 := by
  unfold maybeRequestDialback
  split
  · refine keeps_of_dropped (fun kind a holds => ?_) rfl rfl
    cases kind with
    | observed | portMapped => cases holds
    | v6 => exact holds
  · have dropped : ∀ observed portmapped, Keeps core { core with
        confirmedDirect := dropStale core.confirmedDirect observed
        confirmedPortmap := dropStale core.confirmedPortmap portmapped } [] := by
      intro observed portmapped
      refine keeps_of_dropped (fun kind a holds => ?_) rfl rfl
      cases kind with
      | observed | portMapped => exact (dropStale_some holds).1
      | v6 => exact holds
    exact keeps_trans (keeps_trans (keeps_trans (dropped _ _) (keeps_requestUnconfirmed env _ _ _ _ _))
      (keeps_requestUnconfirmed env _ _ _ _ _)) (keeps_maybeRequestDialbackV6 env _)

/-! ### The rest of a step -/

theorem keeps_serveDialback (core : OverlayCore T) (requester : Pubkey) (source : SocketAddr) (nonce : Nat)
    (probePort : Option UInt16) :
    Keeps core (core.serveDialback env requester source nonce probePort).1
      (core.serveDialback env requester source nonce probePort).2 := by
  unfold serveDialback
  dsimp only
  split
  · exact keeps_of_same rfl rfl rfl (by simp [sendDialbackResult, Numbered])
  split
  · exact keeps_of_same rfl rfl rfl (by simp [sendDialbackResult, Numbered])
  split
  · exact keeps_of_same rfl rfl rfl (by simp [sendDialbackResult, Numbered])
  split
  · exact keeps_of_same rfl rfl rfl (by simp [Numbered])
  · exact keeps_of_same rfl rfl rfl (by simp [sendDialbackResult, Numbered])

theorem keeps_concludeProbe (core : OverlayCore T) (probe : ProbeId) (helper : HelperProbe) (ok : Bool)
    (event : Option ProbeEvent) :
    Keeps core (core.concludeProbe probe helper ok event).1 (core.concludeProbe probe helper ok event).2 :=
  keeps_of_same rfl rfl rfl (by simp [concludeProbe, sendDialbackResult, Numbered])

theorem keeps_expireDialbacks (core : OverlayCore T) (now : Instant) :
    Keeps core (core.expireDialbacks now).1 (core.expireDialbacks now).2 := by
  have filtered : Keeps core { core with
      dialbackPending := core.dialbackPending.filter (fun _ pending => now < pending.deadline) } [] := by
    refine ⟨fun kind a holds => ?_, Nat.le_refl _, fun nonce entry found => .inl ?_, fun _ member => by cases member⟩
    · cases kind <;> exact holds
    · rw [TreeMap.getElem?_filter'] at found
      exact (Option.filter_eq_some_iff.mp found).1
  have expired := run_history (P := fun _ current out => Keeps core current out) filtered
    (fun _ current out entry held _ => keeps_trans held (keeps_concludeProbe current entry.1 entry.2 false none))
    (core.helperProbes.toList.filter (fun entry => entry.2.deadline ≤ now)) (meets_true _)
  exact expired

/-- The advert of a step. -/
def advertOf (core : OverlayCore T) : Input T → List Action
  | .timer env _ =>
    if core.nextAdvert ≤ env.now then [.advertised env.now core.computeReachability] else []
  | _ => []

theorem keeps_onTimer (core : OverlayCore T) (sends : List (OverlayTransport.Call T)) :
    ∃ rest, (core.onTimer env sends).2 = advertOf core (.timer env sends) ++ rest ∧
      Keeps core (core.onTimer env sends).1 rest := by
  by_cases due : core.nextAdvert ≤ env.now
  · have asks := keeps_maybeRequestDialback env { core with
      nextAdvert := env.now + advertInterval
      transport := sends.foldl OverlayTransport.call core.transport }
    have advertised : Keeps core _ _ := ⟨asks.confirmed, asks.nonces, asks.pending, asks.actions⟩
    have expired := keeps_trans advertised (keeps_expireDialbacks _ env.now)
    have advert : advertOf core (.timer env sends) = [.advertised env.now core.computeReachability] := if_pos due
    unfold onTimer
    rw [advert, if_pos due]
    exact ⟨_, rfl, expired⟩
  · have advert : advertOf core (.timer env sends) = [] := if_neg due
    unfold onTimer
    rw [advert, if_neg due]
    exact ⟨_, rfl, keeps_expireDialbacks core env.now⟩

def IsResult : Input T → Prop
  | .frame _ _ (.dialBackResult _ _) => True
  | _ => False

theorem keeps_step (core : OverlayCore T) {input : Input T} (other : ¬ IsResult input) :
    ∃ rest, (core.step input).2 = advertOf core input ++ rest ∧ Keeps core (core.step input).1 rest := by
  cases input with
  | call call => exact ⟨[], rfl, keeps_of_same rfl rfl rfl (by simp)⟩
  | portmap mapped => exact ⟨[], rfl, keeps_of_same rfl rfl rfl (by simp)⟩
  | frame env source frame =>
    refine ⟨_, rfl, ?_⟩
    cases frame with
    | addressObservation observed =>
      show Keeps core (core.handleObservation source observed) []
      unfold handleObservation
      split
      · exact keeps_refl core
      split
      · exact keeps_of_same rfl rfl rfl (by simp)
      · exact keeps_of_same rfl rfl rfl (by simp)
    | dialBackRequest nonce probePort =>
      show Keeps core (core.handleDialbackRequest env source nonce probePort).1
        (core.handleDialbackRequest env source nonce probePort).2
      unfold handleDialbackRequest
      split
      · exact keeps_refl core
      next requester _ =>
        have serves := keeps_serveDialback env core requester source nonce probePort
        refine ⟨serves.confirmed, serves.nonces, serves.pending, fun action member => ?_⟩
        rcases List.mem_cons.mp member with rfl | later
        · trivial
        · exact serves.actions action later
    | dialBackResult nonce ok => exact absurd trivial other
    | other raw => exact keeps_refl core
  | probeEvent =>
    refine ⟨_, rfl, ?_⟩
    unfold OverlayCore.step
    dsimp only
    split
    next transport event _ =>
      unfold onProbeEvent
      split
      · exact keeps_of_same rfl rfl rfl (by simp)
      · have concluded := keeps_concludeProbe { core with transport := transport } event.probe
        exact ⟨(concluded _ _ _).confirmed, (concluded _ _ _).nonces, (concluded _ _ _).pending,
          (concluded _ _ _).actions⟩
    · exact keeps_of_same rfl rfl rfl (by simp)
  | timer env sends => exact keeps_onTimer env core sends

/-! ### Results -/

omit [OverlayTransport T] in
theorem handleDialbackResult_missing {nonce : Nat} (missing : core.dialbackPending[nonce]? = none) (ok : Bool) :
    core.handleDialbackResult nonce ok = core := by
  unfold handleDialbackResult
  rw [missing]

/-- The entry is used up, and a positive result confirms its candidate. -/
structure Settles (core next : OverlayCore T) (nonce : Nat) (entry : DialBackPending) (ok : Bool) : Prop where
  pending : next.dialbackPending = core.dialbackPending.erase nonce
  nonces : next.nextDialbackNonce = core.nextDialbackNonce
  confirmed : ∀ kind, next.confirmed kind = if ok ∧ kind = entry.kind then some entry.candidate else core.confirmed kind

omit [OverlayTransport T] in
theorem handleDialbackResult_found {nonce : Nat} {entry : DialBackPending}
    (found : core.dialbackPending[nonce]? = some entry) (ok : Bool) :
    Settles core (core.handleDialbackResult nonce ok) nonce entry ok := by
  unfold handleDialbackResult
  rw [found]
  cases ok with
  | false => exact ⟨rfl, rfl, fun kind => by cases kind <;> rfl⟩
  | true =>
    obtain ⟨helper, kind, candidate, deadline⟩ := entry
    cases kind <;> exact ⟨rfl, rfl, fun other => by cases other <;> rfl⟩

/-! ### The helper -/

/-- No probe was started and none succeeded. -/
structure Shrinks (core next : OverlayCore T) (out : List Action) : Prop where
  probes : ∀ (probe : ProbeId) helper, next.helperProbes[probe]? = some helper →
    core.helperProbes[probe]? = some helper
  unstarted : ∀ probe requester source target, .probed probe requester source target ∉ out
  negative : ∀ peer nonce event, .verdict peer nonce true event ∉ out

omit [OverlayTransport T] in
theorem shrinks_trans (first : Shrinks core next out) (second : Shrinks next last later) :
    Shrinks core last (out ++ later) where
  probes probe helper found := first.probes probe helper (second.probes probe helper found)
  unstarted probe requester source target member := (List.mem_append.mp member).elim
    (first.unstarted probe requester source target) (second.unstarted probe requester source target)
  negative peer nonce event member := (List.mem_append.mp member).elim
    (first.negative peer nonce event) (second.negative peer nonce event)

omit [OverlayTransport T] in
theorem shrinks_of_same (probes : next.helperProbes = core.helperProbes) : Shrinks core next [] :=
  ⟨fun probe helper found => by rw [probes] at found; exact found, by simp, by simp⟩

theorem shrinks_expireProbe (core : OverlayCore T) (entry : ProbeId × HelperProbe) :
    Shrinks core (core.expireProbe entry).1 (core.expireProbe entry).2 := by
  refine ⟨fun probe helper found => ?_, ?_, ?_⟩
  · have kept : (core.helperProbes.erase entry.1)[probe]? = some helper := found
    rw [TreeMap.getElem?_erase] at kept
    split at kept
    · cases kept
    · exact kept
  · simp [expireProbe, concludeProbe, sendDialbackResult]
  · simp [expireProbe, concludeProbe, sendDialbackResult]

theorem shrinks_expireDialbacks (core : OverlayCore T) (now : Instant) :
    Shrinks core (core.expireDialbacks now).1 (core.expireDialbacks now).2 := by
  have filtered : Shrinks core { core with
      dialbackPending := core.dialbackPending.filter (fun _ pending => now < pending.deadline) } [] :=
    shrinks_of_same rfl
  have expired := run_history (P := fun _ current out => Shrinks core current out) filtered
    (fun _ current out entry held _ => shrinks_trans held (shrinks_expireProbe current entry))
    (core.helperProbes.toList.filter (fun entry => entry.2.deadline ≤ now)) (meets_true _)
  exact expired

theorem shrinks_onTimer (core : OverlayCore T) (sends : List (OverlayTransport.Call T)) :
    Shrinks core (core.onTimer env sends).1 (core.onTimer env sends).2 := by
  unfold onTimer
  dsimp only
  split
  · refine shrinks_trans ?_ (shrinks_expireDialbacks _ env.now)
    have anyTransport : SendsKeep (fun _ _ : T => True) :=
      ⟨fun _ => trivial, fun _ _ => trivial, fun _ _ _ => trivial, fun _ _ _ _ => trivial⟩
    have asks := asks_maybeRequestDialback env anyTransport { core with
      nextAdvert := env.now + advertInterval
      transport := sends.foldl OverlayTransport.call core.transport }
    refine ⟨fun probe helper found => ?_, fun probe requester source target member => ?_,
      fun peer nonce event member => ?_⟩
    · rw [asks.probes] at found
      exact found
    · rcases List.mem_cons.mp member with same | asked
      · cases same
      · obtain ⟨_, _, _, same⟩ := asks.asked _ asked
        cases same
    · rcases List.mem_cons.mp member with same | asked
      · cases same
      · obtain ⟨_, _, _, same⟩ := asks.asked _ asked
        cases same
  · exact shrinks_expireDialbacks core env.now

def IsRequest : Input T → Prop
  | .frame _ _ (.dialBackRequest _ _) => True
  | _ => False

theorem shrinks_step (core : OverlayCore T) {input : Input T} (other : ¬ IsRequest input)
    (quiet : input ≠ .probeEvent) : Shrinks core (core.step input).1 (core.step input).2 := by
  cases input with
  | call call => exact shrinks_of_same rfl
  | portmap mapped => exact shrinks_of_same rfl
  | frame env source frame =>
    cases frame with
    | addressObservation observed =>
      refine shrinks_of_same ?_
      show (core.handleObservation source observed).helperProbes = core.helperProbes
      unfold handleObservation
      split
      · rfl
      split
      · rfl
      · rfl
    | dialBackRequest nonce probePort => exact absurd trivial other
    | dialBackResult nonce ok =>
      refine shrinks_of_same ?_
      show (core.handleDialbackResult nonce ok).helperProbes = core.helperProbes
      unfold handleDialbackResult
      split
      · rfl
      dsimp only
      split
      · split
        · rfl
        · rfl
        · rfl
      · rfl
    | other raw => exact shrinks_of_same rfl
  | probeEvent => exact absurd rfl quiet
  | timer env sends => exact shrinks_onTimer env core sends

/-- A request is refused, or it starts a probe of the host it came from. -/
theorem serve_cases (core : OverlayCore T) (requester : Pubkey) (source : SocketAddr) (nonce : Nat)
    (probePort : Option UInt16) :
    Shrinks core (core.serveDialback env requester source nonce probePort).1
      (core.serveDialback env requester source nonce probePort).2 ∨
    ∃ probe helper, helper.requester = requester ∧ helper.nonce = nonce ∧
      (core.serveDialback env requester source nonce probePort).1.helperProbes =
        core.helperProbes.insert probe helper ∧
      (core.serveDialback env requester source nonce probePort).2 =
        [.bound helper.socket, .probed probe requester source (probeTarget source probePort)] := by
  unfold serveDialback
  dsimp only
  split
  · exact .inl ⟨fun _ _ found => found, by simp [sendDialbackResult], by simp [sendDialbackResult]⟩
  split
  · exact .inl ⟨fun _ _ found => found, by simp [sendDialbackResult], by simp [sendDialbackResult]⟩
  split
  · exact .inl ⟨fun _ _ found => found, by simp [sendDialbackResult], by simp [sendDialbackResult]⟩
  next socket _ =>
    split
    next probe _ =>
      exact .inr ⟨probe, ⟨requester, nonce, socket, env.now + dialbackTimeout⟩, rfl, rfl, rfl, rfl⟩
    · exact .inl ⟨fun _ _ found => found, by simp [sendDialbackResult], by simp [sendDialbackResult]⟩

/-- A probe event concludes the probe it names, if that is still open. -/
theorem probeEvent_cases (core : OverlayCore T) :
    Shrinks core (core.step .probeEvent).1 (core.step .probeEvent).2 ∨
    ∃ event helper, (OverlayTransport.pollProbeEvent core.transport).2 = some event ∧
      core.helperProbes[event.probe]? = some helper ∧
      (core.step .probeEvent).1.helperProbes = core.helperProbes.erase event.probe ∧
      (core.step .probeEvent).2 = [.verdict helper.requester helper.nonce (event.identity = some helper.requester)
        (some event), .closed helper.socket] := by
  unfold OverlayCore.step
  dsimp only
  split
  next transport event polled =>
    unfold onProbeEvent
    dsimp only
    cases found : core.helperProbes[event.probe]? with
    | none => exact .inl (shrinks_of_same rfl)
    | some helper => exact .inr ⟨event, helper, by rw [polled], found, rfl, rfl⟩
  · exact .inl (shrinks_of_same rfl)

end Lightbringer.Overlay
