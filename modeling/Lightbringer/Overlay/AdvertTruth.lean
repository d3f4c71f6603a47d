import Lightbringer.Overlay.Authenticity

/-!
# What an advert may claim

An advert lists the confirmed addresses. Each was confirmed by a dial-back at some time, but the advert is computed
before the same tick drops stale confirmations. So an advert is true exactly if nothing it lists has become stale.
-/

namespace Lightbringer.Overlay
open Std Machine OverlayCore

variable {T : Type} [OverlayTransport T]

/-! ### Confirmed by dial-back -/

/-- The candidate a positive result confirms. -/
def confirmedBy (core : OverlayCore T) : Input T → List SocketAddr
  | .frame _ _ (.dialBackResult nonce true) => (core.dialbackPending[nonce]?).toList.map (·.candidate)
  | _ => []

def confirmedIn (core : OverlayCore T) : List (Input T) → List SocketAddr
  | [] => []
  | input :: rest => confirmedBy core input ++ confirmedIn (core.step input).1 rest

theorem confirmedIn_concat (core : OverlayCore T) (inputs : List (Input T)) (input : Input T) :
    confirmedIn core (inputs ++ [input]) = confirmedIn core inputs ++ confirmedBy (run step core inputs).1 input := by
  induction inputs generalizing core with
  | nil => simp [confirmedIn]
  | cons first rest ih => simp [confirmedIn, ih]

theorem confirmed_step {core : OverlayCore T} {input : Input T} {kind : CandidateKind} {a : SocketAddr}
    (holds : (core.step input).1.confirmed kind = some a) :
    core.confirmed kind = some a ∨ a ∈ confirmedBy core input := by
  by_cases before : core.confirmed kind = some a
  · exact .inl before
  by_cases result : IsResult input
  · unfold IsResult at result
    split at result
    next env source nonce ok =>
      have after : (core.handleDialbackResult nonce ok).confirmed kind = some a := holds
      cases found : core.dialbackPending[nonce]? with
      | none =>
        rw [handleDialbackResult_missing found] at after
        exact .inl after
      | some entry =>
        rw [(handleDialbackResult_found found ok).confirmed] at after
        split at after
        next settled =>
          obtain ⟨rfl, _⟩ := settled
          exact .inr (by simp [confirmedBy, found, Option.some.inj after])
        next => exact .inl after
    next => cases result
  · obtain ⟨_, _, keeps⟩ := keeps_step core result
    exact .inl (keeps.confirmed kind a holds)

/-- In a run that starts without confirmations every one goes back to a result. -/
theorem confirmed_run {core : OverlayCore T} (fresh : ∀ kind, core.confirmed kind = none) (inputs : List (Input T))
    {kind : CandidateKind} {a : SocketAddr} (holds : (run step core inputs).1.confirmed kind = some a) :
    a ∈ confirmedIn core inputs := by
  induction inputs using List.reverseRecOn generalizing kind with
  | nil =>
    rw [run_nil, fresh kind] at holds
    cases holds
  | append_singleton inputs input ih =>
    rw [run_concat] at holds
    rw [confirmedIn_concat, List.mem_append]
    rcases confirmed_step holds with before | now
    · exact .inl (ih before)
    · exact .inr now

/-! ### Adverts -/

/-- The consistent mapping of the family of `a`. -/
def OverlayCore.mappingLike (core : OverlayCore T) (a : SocketAddr) : Option SocketAddr :=
  if a.isIpv6 then core.candidateV6 else core.discovery.consistentMapping

/-- The granted port of a live lease at the observed external address. -/
def OverlayCore.leasedAddr (core : OverlayCore T) (now : Instant) : Option SocketAddr :=
  match core.portmap.bind (fun portmap => portmap.mappedExternal now), core.discovery.externalIp with
  | some mapped, some ip => some ⟨ip, mapped.port⟩
  | _, _ => none

def Current (core : OverlayCore T) (now : Instant) (a : SocketAddr) : Prop :=
  core.mappingLike a = some a ∨ core.leasedAddr now = some a

instance (core : OverlayCore T) (now : Instant) (a : SocketAddr) : Decidable (Current core now a) :=
  inferInstanceAs (Decidable (_ ∨ _))

/-- No operator configured an address. -/
def Unconfigured (core : OverlayCore T) : Prop := core.advertisedAddr = none ∧ core.advertisedAddrV6 = none

/-- Whatever the step advertises as direct is current and among the addresses confirmed by dial-back. -/
def TruthfulAdvert (confirmed : List SocketAddr) (core : OverlayCore T) (input : Input T) : Prop :=
  Unconfigured core → ∀ now addrs, .advertised now (.direct addrs) ∈ (core.step input).2 →
    ∀ a ∈ addrs, Current core now a ∧ a ∈ confirmed

/-- When an advert is due, the confirmations it would list are not stale. -/
def Unstale (core : OverlayCore T) : Input T → Prop
  | .timer env _ => Unconfigured core → core.nextAdvert ≤ env.now →
    (∀ a ∈ core.confirmedV6, Current core env.now a) ∧
    ∀ a ∈ core.confirmedDirect.or core.confirmedPortmap, Current core env.now a
  | _ => True

theorem advertised_mem_step {core : OverlayCore T} {input : Input T} {now : Instant} {reachability : Reachability} :
    .advertised now reachability ∈ (core.step input).2 ↔ .advertised now reachability ∈ advertOf core input := by
  by_cases result : IsResult input
  · unfold IsResult at result
    split at result
    · exact Iff.rfl
    · cases result
  · obtain ⟨rest, outputs, keeps⟩ := keeps_step core result
    rw [outputs, List.mem_append]
    exact or_iff_left (fun late => keeps.actions _ late)

theorem computeReachability_unconfigured {core : OverlayCore T} (unconfigured : Unconfigured core) :
    core.computeReachability =
      if (core.confirmedDirect.or core.confirmedPortmap).isSome || core.confirmedV6.isSome then
        .direct (core.confirmedV6.toList ++ (core.confirmedDirect.or core.confirmedPortmap).toList)
      else
        .coordinated (if core.discovery.classify = some .symmetric then [] else core.observedHints)
          (((OverlayTransport.connectedPeers core.transport).filter
            (fun pubkey => pubkey ≠ core.localPubkey)).take maxAdvertVia) := by
  unfold computeReachability
  rw [unconfigured.1, unconfigured.2, Option.none_or, Option.none_or]

/-- The addresses of a direct advert are the confirmations that come first. -/
theorem mem_direct_iff {core : OverlayCore T} (unconfigured : Unconfigured core) {a : SocketAddr} :
    (∃ addrs, core.computeReachability = .direct addrs ∧ a ∈ addrs) ↔
      a ∈ core.confirmedV6 ∨ a ∈ core.confirmedDirect.or core.confirmedPortmap := by
  rw [computeReachability_unconfigured unconfigured]
  constructor
  · rintro ⟨addrs, direct, member⟩
    split at direct
    · cases direct
      simpa using member
    · cases direct
  · intro listed
    have some : ((core.confirmedDirect.or core.confirmedPortmap).isSome || core.confirmedV6.isSome) = true := by
      rcases listed with v6 | v4
      · rw [Option.mem_def.mp v6]
        simp
      · rw [Option.mem_def.mp v4]
        rfl
    rw [if_pos some]
    exact ⟨_, rfl, by simpa using listed⟩

omit [OverlayTransport T] in
theorem confirmed_of_listed {core : OverlayCore T} {a : SocketAddr}
    (listed : a ∈ core.confirmedV6 ∨ a ∈ core.confirmedDirect.or core.confirmedPortmap) :
    ∃ kind, core.confirmed kind = some a := by
  rcases listed with v6 | v4
  · exact ⟨.v6, v6⟩
  · rcases Option.or_eq_some_iff.mp v4 with direct | ⟨_, portmap⟩
    · exact ⟨.observed, direct⟩
    · exact ⟨.portMapped, portmap⟩

theorem truthfulAdvert_iff {core : OverlayCore T} {confirmed : List SocketAddr}
    (recorded : ∀ kind a, core.confirmed kind = some a → a ∈ confirmed) (input : Input T) :
    TruthfulAdvert confirmed core input ↔ Unstale core input := by
  unfold TruthfulAdvert
  simp only [advertised_mem_step]
  cases input with
  | timer env sends =>
    constructor
    · intro truthful unconfigured due
      have advert : advertOf core (.timer env sends) = [.advertised env.now core.computeReachability] := if_pos due
      have listed : ∀ a, a ∈ core.confirmedV6 ∨ a ∈ core.confirmedDirect.or core.confirmedPortmap →
          Current core env.now a := by
        intro a member
        obtain ⟨addrs, direct, here⟩ := (mem_direct_iff unconfigured).mpr member
        exact (truthful unconfigured env.now addrs (by rw [advert, direct]; exact List.mem_singleton.mpr rfl) a here).1
      exact ⟨fun a member => listed a (.inl member), fun a member => listed a (.inr member)⟩
    · intro unstale unconfigured now addrs advertised a member
      by_cases due : core.nextAdvert ≤ env.now
      · have advert : advertOf core (.timer env sends) = [.advertised env.now core.computeReachability] := if_pos due
        rw [advert] at advertised
        have same := List.mem_singleton.mp advertised
        injection same with time direct
        have listed := (mem_direct_iff unconfigured).mp ⟨addrs, direct.symm, member⟩
        obtain ⟨kind, holds⟩ := confirmed_of_listed listed
        obtain ⟨v6, v4⟩ := unstale unconfigured due
        rw [time]
        exact ⟨listed.elim (v6 a) (v4 a), recorded kind a holds⟩
      · have advert : advertOf core (.timer env sends) = [] := if_neg due
        rw [advert] at advertised
        cases advertised
  | _ => exact ⟨fun _ => trivial, fun _ _ _ _ advertised => by cases advertised⟩

theorem adverts_truthful_iff (localPubkey : Pubkey) (transport : T) (bindAddr : SocketAddr)
    (bindAddrV6 advertisedAddr advertisedAddrV6 : Option SocketAddr) (gateway : Bool) (now : Instant)
    (inputs : List (Input T)) :
    let start := OverlayCore.new localPubkey transport bindAddr bindAddrV6 advertisedAddr advertisedAddrV6 gateway now
    (∀ pre input post, inputs = pre ++ input :: post →
      TruthfulAdvert (confirmedIn start pre) (run step start pre).1 input) ↔ Meets step Unstale start inputs := by
  intro start
  have fresh : ∀ kind, start.confirmed kind = none := by
    intro kind
    cases kind <;> rfl
  rw [meets_iff_prefixes]
  have same := fun pre => truthfulAdvert_iff (fun _ _ holds => confirmed_run fresh pre holds)
  exact ⟨fun truthful pre input post split => (same pre input).mp (truthful pre input post split),
    fun unstale pre input post split => (same pre input).mpr (unstale pre input post split)⟩

/-- The asked helper confirms port 40000; then both peers see us at port 50000. -/
def confirmsThenMoves : List QuicInput :=
  asksFirstPeer ++
  [.frame (quietEnv (fromSecs 11)) (observerAddr 1) (.dialBackResult 0 true),
    .frame (quietEnv (fromSecs 12)) (observerAddr 1) (.addressObservation (externalAddr 50000)),
    .frame (quietEnv (fromSecs 12)) (observerAddr 2) (.addressObservation (externalAddr 50000))]

def nextTick : QuicInput := .timer (quietEnv (fromSecs 20)) []

theorem stale_advert :
    (run step newNode confirmsThenMoves).1.discovery.consistentMapping = some (externalAddr 50000) ∧
    .advertised (fromSecs 20) (.direct [externalAddr 40000]) ∈
      ((run step newNode confirmsThenMoves).1.step nextTick).2 ∧
    ¬ TruthfulAdvert (confirmedIn newNode confirmsThenMoves) (run step newNode confirmsThenMoves).1 nextTick := by
  have advertised : .advertised (fromSecs 20) (.direct [externalAddr 40000]) ∈
      ((run step newNode confirmsThenMoves).1.step nextTick).2 := by decide +kernel
  refine ⟨by decide +kernel, advertised, fun truthful => ?_⟩
  have unconfigured : Unconfigured (run step newNode confirmsThenMoves).1 := ⟨by decide +kernel, by decide +kernel⟩
  have current := (truthful unconfigured _ _ advertised _ (List.mem_singleton.mpr rfl)).1
  revert current
  decide +kernel

end Lightbringer.Overlay
