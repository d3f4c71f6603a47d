import Lightbringer.Overlay.PunchIsolation
import Lightbringer.Overlay.PunchMemory
import Lightbringer.Overlay.PunchTables
import Mathlib.Data.List.Infix

/-!
# Failed punches are not tried again

Once the time of a heard session is up, its peer is barred: whichever profile was heard of it last leads to a failure
from this node's network that is still held against it. A step bars no less, as long as the peer says nothing new of its
own network and the caches forget nothing.
-/

namespace Lightbringer.Overlay
open Std Machine

namespace PunchCore

variable [Ed25519] {T : Type} [PunchTransport T] {core post : PunchCore T}

/-! ### Room in the caches -/

/-- The caches know no other keys. -/
structure Within (keys : List PunchOutcomeKey) (peers : List Pubkey) (core : PunchCore T) : Prop where
  outcomes : ∀ key ∈ core.punchOutcomes.keys, key ∈ keys
  profiles : ∀ peer ∈ core.lastPunchProfiles.keys, peer ∈ peers

/-- All keys that a cache holds at one time or another in the run would fit in it together. -/
def FewKeys (start : PunchCore T) (inputs : List (Input T)) : Prop :=
  ∃ keys peers, keys.length ≤ maxPunchOutcomes ∧ peers.length ≤ maxPunchOutcomes ∧
    ∀ before, before <+: inputs → Within keys peers (run step start before).1

structure Roomy (core : PunchCore T) : Prop where
  outcomes : core.punchOutcomes.capacity = maxPunchOutcomes
  profiles : core.lastPunchProfiles.capacity = maxPunchOutcomes

omit [PunchTransport T] in
theorem roomy_cached {outcomes : List (PunchOutcomeKey × Instant)} {profiles : List (Pubkey × NatProfile)}
    (roomy : Roomy core) (cached : Cached core outcomes profiles post) : Roomy post := by
  constructor
  · rw [cached.outcomes, Lru.pushAll_capacity]
    exact roomy.outcomes
  · rw [cached.profiles, Lru.pushAll_capacity]
    exact roomy.profiles

theorem roomy_step (roomy : Roomy core) (input : Input T) : Roomy (step core input).1 := by
  cases recalls_step core input with
  | quiet cached => exact roomy_cached roomy cached
  | swept _ _ _ _ _ cached => exact roomy_cached roomy cached

theorem roomy_run (transport : T) (keypair : Ed25519.Keypair) (birthdayPunch : Bool) (sockets : Nat)
    (inputs : List (Input T)) : Roomy (run step (new transport keypair birthdayPunch sockets) inputs).1 :=
  run_invariant (P := Roomy) ⟨rfl, rfl⟩ (fun _ input roomy _ => roomy_step roomy input) inputs (meets_true inputs)

/-- What is known of a key of the caches before these writes and of what they write under it is known of it after
them. -/
structure Follows (core : PunchCore T) (outcomes : List (PunchOutcomeKey × Instant))
    (profiles : List (Pubkey × NatProfile)) (post : PunchCore T) : Prop where
  outcome : ∀ (P : Option Instant → Prop) key, (P (core.punchOutcomes.peek key) ∨ key ∈ outcomes.map Prod.fst) →
    (∀ item ∈ outcomes, item.1 = key → P (some item.2)) → P (post.punchOutcomes.peek key)
  profile : ∀ (P : Option NatProfile → Prop) peer,
    (P (core.lastPunchProfiles.peek peer) ∨ peer ∈ profiles.map Prod.fst) →
    (∀ item ∈ profiles, item.1 = peer → P (some item.2)) → P (post.lastPunchProfiles.peek peer)

omit [PunchTransport T] in
theorem follows_cached {keys : List PunchOutcomeKey} {peers : List Pubkey}
    {outcomes : List (PunchOutcomeKey × Instant)} {profiles : List (Pubkey × NatProfile)} (roomy : Roomy core)
    (fewKeys : keys.length ≤ maxPunchOutcomes) (fewPeers : peers.length ≤ maxPunchOutcomes)
    (before : Within keys peers core) (after : Within keys peers post) (cached : Cached core outcomes profiles post)
    (shortOutcomes : outcomes.length ≤ maxPunchOutcomes) (shortProfiles : profiles.length ≤ maxPunchOutcomes) :
    Follows core outcomes profiles post := by
  constructor
  · intro P key start each
    rw [cached.outcomes]
    refine Lru.peek_pushAll_of (fewKeys.trans_eq roomy.outcomes.symm) before.outcomes (fun item member => ?_) start each
    apply after.outcomes
    rw [cached.outcomes]
    exact Lru.mem_keys_pushAll (shortOutcomes.trans_eq roomy.outcomes.symm) (List.mem_map_of_mem member)
  · intro P peer start each
    rw [cached.profiles]
    refine Lru.peek_pushAll_of (fewPeers.trans_eq roomy.profiles.symm) before.profiles (fun item member => ?_) start each
    apply after.profiles
    rw [cached.profiles]
    exact Lru.mem_keys_pushAll (shortProfiles.trans_eq roomy.profiles.symm) (List.mem_map_of_mem member)

/-! ### Barred peers -/

/-- The failure between these networks is held against the peer until then at least. -/
def Holds (core : PunchCore T) (key : PunchOutcomeKey) (ends : Instant) : Prop :=
  ∃ expiry, core.punchOutcomes.peek key = some expiry ∧ ends ≤ expiry

/-- Every heard session with the peer is from this network of ours or to this network of the peer. -/
def Aligned (peer : Pubkey) (localGeneration remoteGeneration : Option IpAddr) (core : PunchCore T) : Prop :=
  ∀ (n : UInt64) session, core.punchSessions[n]? = some session → session.peer = peer →
    session.awaitingResponse = false → session.remoteProfile.generation = remoteGeneration ∨
      session.localProfile.generation = localGeneration

structure Barred (peer : Pubkey) (localGeneration remoteGeneration : Option IpAddr) (ends : Instant)
    (core : PunchCore T) : Prop where
  aligned : Aligned peer localGeneration remoteGeneration core
  home : core.Holds ⟨peer, localGeneration, remoteGeneration⟩ ends
  profile : ∃ heard, core.lastPunchProfiles.peek peer = some heard ∧
    core.Holds ⟨peer, localGeneration, heard.generation⟩ ends

/-- The session has failed between these networks. -/
def Failed (peer : Pubkey) (localGeneration remoteGeneration : Option IpAddr) (session : PunchSession) : Prop :=
  session.outcomeKey = ⟨peer, localGeneration, remoteGeneration⟩

variable {peer : Pubkey} {localGeneration remoteGeneration : Option IpAddr} {now ends : Instant} {mid : PunchCore T}
  {heard : List (Pubkey × NatProfile)}

omit [PunchTransport T] in
/-- A sweep bars the peer of what it finds failed, and leaves those barred that were. -/
theorem barred_swept (follows : Follows core (remembered now (mid.failures now))
      (heard ++ heardOf (mid.failures now)) post)
    (later : ends ≤ now + punchOutcomeTtl) (said : ∀ pair ∈ heard, pair.1 = peer → pair.2.generation = remoteGeneration)
    (aligned : Aligned peer localGeneration remoteGeneration mid)
    (left : ∀ (n : UInt64) after, post.punchSessions[n]? = some after →
      ∃ between, mid.punchSessions[n]? = some between ∧ between.Descends [] after)
    (base : Barred peer localGeneration remoteGeneration ends core ∨
      ∃ session ∈ mid.failures now, Failed peer localGeneration remoteGeneration session) :
    Barred peer localGeneration remoteGeneration ends post := by
  have holds : ∀ key, core.Holds key ends ∨ key ∈ (remembered now (mid.failures now)).map Prod.fst →
      post.Holds key ends := by
    intro key start
    refine follows.outcome (fun found => ∃ expiry, found = some expiry ∧ ends ≤ expiry) key start ?_
    rintro item member -
    obtain ⟨session, _, rfl⟩ := List.mem_map.mp member
    exact ⟨_, rfl, later⟩
  have cached : ∀ session ∈ mid.failures now,
      session.outcomeKey ∈ (remembered now (mid.failures now)).map Prod.fst := by
    intro session failed
    rw [remembered, List.map_map]
    exact List.mem_map_of_mem failed
  have home : post.Holds ⟨peer, localGeneration, remoteGeneration⟩ ends := by
    apply holds
    rcases base with barred | ⟨session, failed, same⟩
    · exact .inl barred.home
    · exact .inr (same ▸ cached session failed)
  refine ⟨?_, home, ?_⟩
  · intro n after there same settled
    obtain ⟨between, found, kept⟩ := left n after there
    have rest := kept.remote.resolve_right (fun new => nomatch new.2)
    rw [rest.2, kept.localProfile]
    exact aligned n between found (kept.peer ▸ same) (rest.1 ▸ settled)
  · refine follows.profile (fun found => ∃ heard, found = some heard ∧
      post.Holds ⟨peer, localGeneration, heard.generation⟩ ends) peer ?_ ?_
    · rcases base with barred | ⟨session, failed, same⟩
      · obtain ⟨profile, last, held⟩ := barred.profile
        exact .inl ⟨profile, last, holds _ (.inl held)⟩
      · right
        rw [List.map_append, List.mem_append, heardOf, List.map_map]
        have peers : session.peer = peer := congrArg PunchOutcomeKey.peer same
        exact .inr (List.mem_map.mpr ⟨session, failed, peers⟩)
    · intro item member same
      refine ⟨item.2, rfl, ?_⟩
      rcases List.mem_append.mp member with new | swept
      · rw [said item new same]
        exact home
      · obtain ⟨session, failed, rfl⟩ := List.mem_map.mp swept
        obtain ⟨n, found, _, settled⟩ := mem_failures.mp failed
        rcases aligned n session found same settled with remote | own
        · rw [remote]
          exact home
        · have key : session.outcomeKey = ⟨peer, localGeneration, session.remoteProfile.generation⟩ := by
            rw [PunchSession.outcomeKey, own]
            exact congrArg (PunchOutcomeKey.mk · _ _) same
          exact holds _ (.inr (key ▸ cached session failed))

omit [PunchTransport T] in
/-- What a step that sweeps does, once nothing is forgotten. -/
theorem follows_swept {keys : List PunchOutcomeKey} {peers : List Pubkey} (roomy : Roomy core)
    (fewKeys : keys.length ≤ maxPunchOutcomes) (fewPeers : peers.length ≤ maxPunchOutcomes)
    (before : Within keys peers core) (after : Within keys peers post) (capped : core.punchSessions.size ≤ maxPunchSessions)
    (few : heard.length ≤ 1) (size : mid.punchSessions.size ≤ core.punchSessions.size + 1)
    (cached : Cached core (remembered now (mid.failures now)) (heard ++ heardOf (mid.failures now)) post) :
    Follows core (remembered now (mid.failures now)) (heard ++ heardOf (mid.failures now)) post := by
  have failed := length_failures_le mid now
  have limits : maxPunchSessions + 2 ≤ maxPunchOutcomes := by decide
  refine follows_cached roomy fewKeys fewPeers before after cached ?_ ?_
  · rw [remembered, List.length_map]
    omega
  · rw [List.length_append, heardOf, List.length_map]
    omega

omit [PunchTransport T] in
/-- What is heard during a step keeps the sessions aligned when it speaks of the same network. -/
theorem aligned_heard (aligned : Aligned peer localGeneration remoteGeneration core)
    (said : ∀ pair ∈ heard, pair.1 = peer → pair.2.generation = remoteGeneration)
    (back : ∀ (n : UInt64) after, mid.punchSessions[n]? = some after →
      (∃ before, core.punchSessions[n]? = some before ∧ before.Descends heard after) ∨
        (after.peer, after.remoteProfile) ∈ heard) : Aligned peer localGeneration remoteGeneration mid := by
  intro n after there same settled
  rcases back n after there with ⟨before, found, descends⟩ | new
  · rcases descends.remote with ⟨awaiting, remote⟩ | ⟨_, new⟩
    · rw [remote, descends.localProfile]
      exact aligned n before found (descends.peer ▸ same) (awaiting ▸ settled)
    · exact .inl (said _ new same)
  · exact .inl (said _ new same)

/-- The peer says nothing of another network in this input. -/
def Consistent (self peer : Pubkey) (remoteGeneration : Option IpAddr) (input : Input T) : Prop :=
  ∀ profile, input.Says self peer profile → profile.generation = remoteGeneration

theorem said_of_consistent {input : Input T} (consistent : Consistent core.localPubkey peer remoteGeneration input)
    (signed : ∀ pair ∈ heard, input.Says core.localPubkey pair.1 pair.2) :
    ∀ pair ∈ heard, pair.1 = peer → pair.2.generation = remoteGeneration := by
  intro pair member same
  exact consistent pair.2 (same ▸ signed pair member)

theorem barred_step {keys : List PunchOutcomeKey} {peers : List Pubkey} {input : Input T} (roomy : Roomy core)
    (fewKeys : keys.length ≤ maxPunchOutcomes) (fewPeers : peers.length ≤ maxPunchOutcomes)
    (before : Within keys peers core) (after : Within keys peers (step core input).1) (capped : Capped core)
    (barred : Barred peer localGeneration remoteGeneration ends core)
    (later : ∀ now, input.now = some now → ends ≤ now + punchOutcomeTtl)
    (consistent : Consistent core.localPubkey peer remoteGeneration input) :
    Barred peer localGeneration remoteGeneration ends (step core input).1 := by
  cases recalls_step core input with
  | quiet cached kept left =>
    obtain ⟨outcomes, profiles, _⟩ := cached
    rw [Lru.pushAll_nil] at outcomes profiles
    refine ⟨?_, ?_, ?_⟩
    · intro n session there same settled
      rcases left n session there with awaiting | ⟨old, found, descends⟩
      · rw [settled] at awaiting
        cases awaiting
      · have rest := descends.remote.resolve_right (fun new => nomatch new.2)
        rw [rest.2, descends.localProfile]
        exact barred.aligned n old found (descends.peer ▸ same) (rest.1 ▸ settled)
    · rw [Holds, outcomes]
      exact barred.home
    · simp only [Holds, outcomes, profiles]
      exact barred.profile
  | swept timed mid heard few signed cached size back _ _ _ left =>
    have said := said_of_consistent consistent signed
    exact barred_swept (follows_swept roomy fewKeys fewPeers before after capped.sessions few size cached)
      (later _ timed) said (aligned_heard barred.aligned said back) left (.inl barred)

/-! ### Failures -/

/-- In this step the time of the session is up, and the peer has been heard, at the latest in this very step. -/
structure Fails (core : PunchCore T) (input : Input T) (now : Instant) (session : PunchSession) (profile : NatProfile) :
    Prop where
  timed : input.now = some now
  gone : ∃ n : UInt64, core.punchSessions[n]? = some session ∧ (step core input).1.punchSessions[n]? = none ∧
    (session.awaitingResponse = false ∧ session.remoteProfile = profile ∨
      ∃ env source response, input = .frame env source (.connectResponse response) ∧ response.nonce = n ∧
        response.natProfile = profile)

theorem barred_fails {keys : List PunchOutcomeKey} {peers : List Pubkey} {input : Input T} {session : PunchSession}
    {profile : NatProfile} (roomy : Roomy core) (fewKeys : keys.length ≤ maxPunchOutcomes)
    (fewPeers : peers.length ≤ maxPunchOutcomes) (before : Within keys peers core)
    (after : Within keys peers (step core input).1) (capped : Capped core) (fails : Fails core input now session profile)
    (aligned : Aligned session.peer session.localProfile.generation profile.generation core)
    (consistent : Consistent core.localPubkey session.peer profile.generation input) :
    Barred session.peer session.localProfile.generation profile.generation (now + punchOutcomeTtl)
      (step core input).1 := by
  obtain ⟨timed, n, found, gone, last⟩ := fails
  cases recalls_step core input with
  | quiet _ kept =>
    have there := kept (by rw [timed]; rfl) n (by rw [found]; rfl)
    rw [gone] at there
    cases there
  | swept timed' mid heard few signed cached size back forth answers late left =>
    obtain rfl := Option.some.inj (timed.symm.trans timed')
    have said := said_of_consistent consistent signed
    obtain ⟨final, there, descends⟩ := forth n session found
    have settled : final.awaitingResponse = false ∧ final.remoteProfile.generation = profile.generation := by
      rcases last with ⟨settled, same⟩ | ⟨env, source, response, frame, rfl, same⟩
      · rcases descends.remote with ⟨awaiting, remote⟩ | ⟨settled', new⟩
        · rw [awaiting, remote, same]
          exact ⟨settled, rfl⟩
        · exact ⟨settled', said _ new descends.peer⟩
      · obtain ⟨settled, taken⟩ := answers env source response frame final there
        rw [taken, same]
        exact ⟨settled, rfl⟩
    have failed : Failed session.peer session.localProfile.generation profile.generation final := by
      rw [Failed, PunchSession.outcomeKey, descends.peer, descends.localProfile, settled.2]
    exact barred_swept (follows_swept roomy fewKeys fewPeers before after capped.sessions few size cached)
      (Nat.le_refl _) said (aligned_heard aligned said back) left
      (.inr ⟨final, mem_failures.mpr ⟨n, there, late n final there gone, settled.1⟩, failed⟩)

/-- A barred peer is not tried. -/
theorem attempts_barred {env : PunchEnv T} {payload : Option (List UInt8)}
    (barred : Barred peer env.generation remoteGeneration ends core) (soon : env.now < ends) :
    (step core (.send env peer payload)).1.punchAttempts = core.punchAttempts := by
  obtain ⟨profile, last, expiry, found, later⟩ := barred.profile
  have failed : (core.supplied env).failedBefore env peer = true := by
    have last' : (core.supplied env).lastPunchProfiles.peek peer = some profile := last
    have found' : (core.supplied env).punchOutcomes.peek
        ⟨peer, ((core.supplied env).localNatProfile env).generation, profile.generation⟩ = some expiry := found
    rw [failedBefore, last']
    dsimp only
    rw [found']
    exact decide_eq_true (Nat.lt_of_lt_of_le soon later)
  have kept : ((core.supplied env).beginPunch env peer payload).1.punchAttempts = core.punchAttempts := by
    unfold beginPunch
    split
    · rfl
    split
    · rfl
    · rw [failed, Bool.or_true, if_pos rfl]
      rfl
  exact kept

/-! ### Runs -/

theorem keypair_step (core : PunchCore T) (input : Input T) : (step core input).1.keypair = core.keypair := by
  cases recalls_step core input with
  | quiet cached => exact cached.keypair
  | swept _ _ _ _ _ cached => exact cached.keypair

theorem localPubkey_run (start : PunchCore T) (inputs : List (Input T)) :
    (run step start inputs).1.localPubkey = start.localPubkey :=
  congrArg Ed25519.pubkey (run_frame (f := PunchCore.keypair) keypair_step inputs start)

/-- A run in which the session fails at a step and the peer says nothing of another network from then on. -/
structure FailedRun (start : PunchCore T) (earlier : List (Input T)) (expiring : Input T) (later : List (Input T))
    (now : Instant) (session : PunchSession) (profile : NatProfile) : Prop where
  fails : Fails (run step start earlier).1 expiring now session profile
  few : FewKeys start (earlier ++ expiring :: later)
  clock : ∀ input ∈ later, ∀ time, input.now = some time → now ≤ time
  consistent : ∀ input ∈ expiring :: later, Consistent start.localPubkey session.peer profile.generation input

section Runs
variable {transport : T} {keypair : Ed25519.Keypair} {birthdayPunch : Bool} {sockets : Nat} {earlier later : List (Input T)}
  {expiring : Input T} {session : PunchSession} {profile : NatProfile}

theorem barred_run
    (failed : FailedRun (new transport keypair birthdayPunch sockets) earlier expiring later now session profile)
    (aligned : Aligned session.peer session.localProfile.generation profile.generation
      (run step (new transport keypair birthdayPunch sockets) earlier).1) :
    Barred session.peer session.localProfile.generation profile.generation (now + punchOutcomeTtl)
      (run step (new transport keypair birthdayPunch sockets) (earlier ++ expiring :: later)).1 := by
  obtain ⟨fails, ⟨keys, peers, fewKeys, fewPeers, within⟩, clock, consistent⟩ := failed
  -- The inputs after the failure are added one at a time.
  induction later using List.reverseRecOn with
  | nil =>
    have first := within earlier (List.prefix_append _ _)
    have second := within (earlier ++ [expiring]) (List.prefix_refl _)
    have heard := consistent expiring List.mem_cons_self
    rw [← localPubkey_run _ earlier] at heard
    rw [run_concat] at second ⊢
    exact barred_fails (roomy_run _ _ _ _ _) fewKeys fewPeers first second (capped_run _ _ _ _ _) fails aligned heard
  | append_singleton later input ih =>
    have split : earlier ++ expiring :: (later ++ [input]) = (earlier ++ expiring :: later) ++ [input] := by simp
    rw [split] at within ⊢
    have first := within (earlier ++ expiring :: later) (List.prefix_append _ _)
    have second := within ((earlier ++ expiring :: later) ++ [input]) (List.prefix_refl _)
    have before := ih (fun input member => clock input (List.mem_append_left _ member))
      (fun input member => consistent input (List.mem_append_left [_] member))
      (fun before initial => within before (initial.trans (List.prefix_append _ _)))
    have heard := consistent input (List.mem_append_right (expiring :: later) (List.mem_singleton_self input))
    rw [← localPubkey_run _ (earlier ++ expiring :: later)] at heard
    rw [run_concat] at second ⊢
    refine barred_step (roomy_run _ _ _ _ _) fewKeys fewPeers first second (capped_run _ _ _ _ _) before
      (fun time timed => ?_) heard
    exact Nat.add_le_add_right (clock input (List.mem_append_right later (List.mem_singleton_self input)) time timed) _

/-- Once a session has failed, its peer is not tried for ten minutes from the same network, if at the time every other
heard session with the peer was between networks of which one is the same. -/
theorem failed_punch_not_retried
    (failed : FailedRun (new transport keypair birthdayPunch sockets) earlier expiring later now session profile)
    (aligned : Aligned session.peer session.localProfile.generation profile.generation
      (run step (new transport keypair birthdayPunch sockets) earlier).1)
    (env : PunchEnv T) (payload : Option (List UInt8)) (same : env.generation = session.localProfile.generation)
    (soon : env.now < now + punchOutcomeTtl) :
    let core := (run step (new transport keypair birthdayPunch sockets) (earlier ++ expiring :: later)).1
    (step core (.send env session.peer payload)).1.punchAttempts = core.punchAttempts := by
  have barred := barred_run failed aligned
  rw [← same] at barred
  exact attempts_barred barred soon

end Runs

end PunchCore

/-! ### Two exchanges at once -/

namespace PunchCore
open PlainSignatures

/-- A request of peer 5 to node 1 from the given network, while the node is in another. -/
def requestFrom (nonce : UInt64) (remoteGeneration localGeneration : IpAddr) :
    Input (OverlayQuicTransport OverlayFrame) :=
  .frame { randomEnv 0 with allocator := none, generation := some localGeneration } relayAddr
    (.connectRequest (.sign nonce (1 : Pubkey) .empty ⟨none, none, false, some remoteGeneration⟩ (5 : Pubkey)))

def homeIp : IpAddr := .v4 0xC6336401

def otherIp : IpAddr := .v4 0xC6336402

def peerIp : IpAddr := .v4 0xCB007105

def peerOtherIp : IpAddr := .v4 0xCB007106

/-- Node 1 wants to reach peer 5, which advertises peer 7. -/
def reachFive : PunchEnv (OverlayQuicTransport OverlayFrame) := { randomEnv (fromSecs 6) with
  allocator := none
  generation := some homeIp
  nonces := [3]
  advert := fun peer => some ⟨peer, 0, 0, .coordinated [] [7], .inConnection⟩ }

/-- Both ends change networks between two requests, and the sessions end at once, the older one last. -/
def movingRun : List (Input (OverlayQuicTransport OverlayFrame)) :=
  [requestFrom 2 peerOtherIp otherIp, requestFrom 1 peerIp homeIp]

def stayingRun : List (Input (OverlayQuicTransport OverlayFrame)) := [requestFrom 1 peerIp homeIp]

theorem fewKeys_of_all {start : PunchCore (OverlayQuicTransport OverlayFrame)}
    {inputs : List (Input (OverlayQuicTransport OverlayFrame))} (keys : List PunchOutcomeKey) (peers : List Pubkey)
    (few : keys.length ≤ maxPunchOutcomes ∧ peers.length ≤ maxPunchOutcomes)
    (listed : (inputs.inits.all (fun before => (run step start before).1.punchOutcomes.keys.all (· ∈ keys) &&
      (run step start before).1.lastPunchProfiles.keys.all (· ∈ peers))) = true) : FewKeys start inputs := by
  refine ⟨keys, peers, few.1, few.2, fun before initial => ?_⟩
  have both := List.all_eq_true.mp listed before ((List.mem_inits before inputs).mpr initial)
  simp only [Bool.and_eq_true, List.all_eq_true, decide_eq_true_eq] at both
  exact ⟨both.1, both.2⟩

/-- The timer of node 1 finds the session under nonce 1 failed. -/
theorem failedRun_timer (earlier : List (Input (OverlayQuicTransport OverlayFrame)))
    (found : ((run step nodeOne earlier).1.punchSessions[(1 : UInt64)]?).map (fun session =>
      (session.peer, session.awaitingResponse, session.localProfile.generation, session.remoteProfile.generation)) =
        some (5, false, some homeIp, some peerIp))
    (gone : (step (run step nodeOne earlier).1 (.timer (fromSecs 5))).1.punchSessions[(1 : UInt64)]? = none)
    (few : FewKeys nodeOne (earlier ++ [.timer (fromSecs 5)])) :
    ∃ session, FailedRun nodeOne earlier (.timer (fromSecs 5)) [] (fromSecs 5) session session.remoteProfile ∧
      session.peer = 5 ∧ session.localProfile.generation = some homeIp ∧
      session.remoteProfile.generation = some peerIp := by
  obtain ⟨session, there, fields⟩ := Option.map_eq_some_iff.mp found
  simp only [Prod.mk.injEq] at fields
  obtain ⟨peer, settled, localGeneration, remoteGeneration⟩ := fields
  refine ⟨session, ⟨⟨rfl, 1, there, gone, .inl ⟨settled, rfl⟩⟩, few,
    fun _ member => (List.not_mem_nil member).elim, ?_⟩, peer, localGeneration, remoteGeneration⟩
  intro input member profile said
  obtain rfl := List.mem_singleton.mp member
  exact said.elim

/-- The profile of the older session is remembered as the last one, and the failure between the present networks is
not found. -/
theorem failed_pair_tried_again :
    ¬ ∀ (earlier : List (Input (OverlayQuicTransport OverlayFrame)))
        (expiring : Input (OverlayQuicTransport OverlayFrame))
        (later : List (Input (OverlayQuicTransport OverlayFrame))) (now : Instant) (session : PunchSession)
        (profile : NatProfile) (env : PunchEnv (OverlayQuicTransport OverlayFrame)) (payload : Option (List UInt8)),
      FailedRun nodeOne earlier expiring later now session profile →
      env.generation = session.localProfile.generation → env.now < now + punchOutcomeTtl →
      let core := (run step nodeOne (earlier ++ expiring :: later)).1
      (step core (.send env session.peer payload)).1.punchAttempts = core.punchAttempts := by
  intro claim
  obtain ⟨session, failed, peer, localGeneration, _⟩ := failedRun_timer movingRun (by decide +kernel)
    (by decide +kernel) (fewKeys_of_all
      [⟨5, some homeIp, some peerIp⟩, ⟨5, some otherIp, some peerOtherIp⟩] [5] (by decide +kernel) (by decide +kernel))
  have kept := claim movingRun (.timer (fromSecs 5)) [] (fromSecs 5) session session.remoteProfile reachFive none failed
    localGeneration.symm (by decide +kernel)
  rw [peer] at kept
  have grown : (step (run step nodeOne (movingRun ++ [.timer (fromSecs 5)])).1
      (.send reachFive 5 none)).1.punchAttempts = 1 := by decide +kernel
  have before : (run step nodeOne (movingRun ++ [.timer (fromSecs 5)])).1.punchAttempts = 0 := by decide +kernel
  exact absurd (grown.symm.trans (kept.trans before)) (by decide)

/-- A session that fails alone bars its peer. -/
theorem stayingRun_not_retried :
    let core := (run step nodeOne (stayingRun ++ [.timer (fromSecs 5)])).1
    (step core (.send reachFive 5 none)).1.punchAttempts = core.punchAttempts := by
  obtain ⟨session, failed, peer, localGeneration, remoteGeneration⟩ := failedRun_timer stayingRun
    (by decide +kernel) (by decide +kernel)
    (fewKeys_of_all [⟨5, some homeIp, some peerIp⟩] [5] (by decide +kernel) (by decide +kernel))
  have same : ((run step nodeOne stayingRun).1.punchSessions.toList.all (fun entry =>
      entry.2.remoteProfile.generation = some peerIp)) = true := by decide +kernel
  have aligned : Aligned session.peer session.localProfile.generation session.remoteProfile.generation
      (run step nodeOne stayingRun).1 := by
    intro n other found _ _
    have member := TreeMap.mem_toList_iff_getElem?_eq_some.mpr found
    exact .inl ((of_decide_eq_true (List.all_eq_true.mp same _ member)).trans remoteGeneration.symm)
  rw [← peer]
  exact failed_punch_not_retried failed aligned reachFive none localGeneration.symm (by decide +kernel)

end PunchCore

end Lightbringer.Overlay
