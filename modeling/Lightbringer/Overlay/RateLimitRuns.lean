import Lightbringer.Lib.WindowedLimit
import Lightbringer.Overlay.RateLimit

/-!
# A rate limit for each peer

While the table has room for all peers each of them is limited on its own: the verdicts of a peer are those of a window
that sees its calls alone.
-/

namespace Lightbringer.Overlay
open Machine

def RateWindow.window (window : RateWindow) : WindowedLimit.Window := ⟨window.windowStart, window.count⟩

namespace RepairRateLimiter

/-- A run shows the verdict of each call, with the window that the peer is in after it. -/
def step (limiter : RepairRateLimiter) (call : Pubkey × Instant) :
    RepairRateLimiter × List (Pubkey × WindowedLimit.Verdict) :=
  let (after, admitted) := limiter.checkAndIncrement call.1 call.2
  (after, [(call.1, ⟨call.2, ((after.peers.peek call.1).map RateWindow.windowStart).getD call.2, admitted⟩)])

def verdicts (peer : Pubkey) (log : List (Pubkey × WindowedLimit.Verdict)) : List WindowedLimit.Verdict :=
  (log.filter (fun verdict => verdict.1 = peer)).map (·.2)

/-- The times of a peer's calls. -/
def own (peer : Pubkey) (calls : List (Pubkey × Instant)) : List Instant :=
  (calls.filter (fun call => call.1 = peer)).map (·.2)

/-- There are no more peers than the table has room for. -/
def FewPeers (calls : List (Pubkey × Instant)) : Prop := (calls.map (·.1)).dedup.length ≤ maxRateLimitPeers

/-- The peers of the table are among those given, for which it has room. -/
structure Spacious (limiter : RepairRateLimiter) (most : Nat) (all : List Pubkey) : Prop where
  limit : limiter.maxPerWindow = most
  room : all.length ≤ limiter.peers.capacity
  known : ∀ peer ∈ limiter.peers.keys, peer ∈ all

variable {limiter : RepairRateLimiter} {most : Nat} {all : List Pubkey} {peer other : Pubkey} {now : Instant}

/-- The window that is looked at, as the peer's own limit has it. -/
theorem window_current (limiter : RepairRateLimiter) (peer : Pubkey) (now : Instant) :
    (limiter.current peer now).window =
      WindowedLimit.current rateLimitWindow ((limiter.peers.peek peer).map RateWindow.window) now := by
  unfold current WindowedLimit.current
  cases limiter.peers.peek peer with
  | none =>
    dsimp only [Option.map_none, Option.getD_none]
    split <;> rfl
  | some window =>
    dsimp only [Option.map_some, Option.getD_some]
    split
    next lapsed => rw [if_pos (show rateLimitWindow ≤ now - window.window.start from lapsed)]; rfl
    next lasts => rw [if_neg (show ¬ rateLimitWindow ≤ now - window.window.start from lasts)]

/-- A check pushes the peer's next window, and its verdict is that of the peer's own limit. -/
theorem checkAndIncrement_push (held : Spacious limiter most all) (peer : Pubkey) (now : Instant) :
    ∃ window : RateWindow, limiter.checkAndIncrement peer now =
        ({ limiter with peers := (limiter.peers.get peer).1.push peer window },
          (WindowedLimit.use rateLimitWindow most ((limiter.peers.peek peer).map RateWindow.window) now).2) ∧
      window.window = (WindowedLimit.use rateLimitWindow most ((limiter.peers.peek peer).map RateWindow.window) now).1 := by
  have looked := window_current limiter peer now
  rw [checkAndIncrement_eq, held.limit]
  unfold WindowedLimit.use
  rw [← looked]
  dsimp only
  by_cases full : most ≤ (limiter.current peer now).count
  · rw [if_pos full, if_pos (show most ≤ (limiter.current peer now).window.count from full)]
    exact ⟨limiter.current peer now, rfl, rfl⟩
  · rw [if_neg full, if_neg (show ¬ most ≤ (limiter.current peer now).window.count from full)]
    exact ⟨⟨(limiter.current peer now).windowStart, (limiter.current peer now).count + 1⟩, rfl, rfl⟩

theorem peek_get {m : Lru Pubkey RateWindow} (fit : all.length ≤ m.capacity) (known : ∀ j ∈ m.keys, j ∈ all)
    (among : peer ∈ all) (other : Pubkey) : (m.get peer).1.peek other = m.peek other := by
  unfold Lru.get
  split
  next window found =>
    rw [Lru.peek_push_within fit known among]
    split
    next same => rw [same, found]
    next => rfl
  next => rfl

theorem known_get {m : Lru Pubkey RateWindow} (known : ∀ j ∈ m.keys, j ∈ all) (among : peer ∈ all) :
    ∀ j ∈ (m.get peer).1.keys, j ∈ all := by
  intro j member
  unfold Lru.get at member
  split at member
  · rcases Lru.mem_keys_push member with rfl | old
    · exact among
    · exact known j old
  · exact known j member

theorem peek_check (held : Spacious limiter most all) (among : peer ∈ all) (now : Instant) (other : Pubkey) :
    ((limiter.checkAndIncrement peer now).1.peers.peek other).map RateWindow.window =
      if other = peer then
        some (WindowedLimit.use rateLimitWindow most ((limiter.peers.peek peer).map RateWindow.window) now).1
      else (limiter.peers.peek other).map RateWindow.window := by
  obtain ⟨window, checked, same⟩ := checkAndIncrement_push held peer now
  have fit : all.length ≤ (limiter.peers.get peer).1.capacity := by
    rw [capacity_get]
    exact held.room
  rw [checked]
  dsimp only
  rw [Lru.peek_push_within fit (known_get held.known among) among]
  split
  · rw [Option.map_some, same]
  · rw [peek_get held.room held.known among]

theorem spacious_check (held : Spacious limiter most all) (among : peer ∈ all) :
    Spacious (limiter.checkAndIncrement peer now).1 most all := by
  obtain ⟨window, checked, _⟩ := checkAndIncrement_push held peer now
  rw [checked]
  refine ⟨held.limit, ?_, fun j member => ?_⟩
  · dsimp only
    rw [Lru.push_capacity, capacity_get]
    exact held.room
  · rcases Lru.mem_keys_push member with rfl | old
    · exact among
    · exact known_get held.known among j old

/-- The limiter after some calls, peer by peer. -/
structure Separate (limiter : RepairRateLimiter) (most : Nat) (all : List Pubkey) (calls : List (Pubkey × Instant))
    (log : List (Pubkey × WindowedLimit.Verdict)) : Prop where
  spacious : Spacious limiter most all
  windows : ∀ peer, (limiter.peers.peek peer).map RateWindow.window =
    (run (WindowedLimit.step rateLimitWindow most) none (own peer calls)).1
  logs : ∀ peer, verdicts peer log = (run (WindowedLimit.step rateLimitWindow most) none (own peer calls)).2

theorem separate_step {calls : List (Pubkey × Instant)} {log : List (Pubkey × WindowedLimit.Verdict)}
    (held : Separate limiter most all calls log) {call : Pubkey × Instant} (among : call.1 ∈ all) :
    Separate (limiter.step call).1 most all (calls ++ [call]) (log ++ (limiter.step call).2) := by
  obtain ⟨peer, now⟩ := call
  have after : ∀ other, ((limiter.checkAndIncrement peer now).1.peers.peek other).map RateWindow.window =
      (run (WindowedLimit.step rateLimitWindow most) none (own other (calls ++ [(peer, now)]))).1 := by
    intro other
    rw [peek_check held.spacious among now]
    unfold own
    rw [List.filter_append, List.map_append]
    split
    next same =>
      subst same
      rw [List.filter_cons_of_pos (by simp), List.filter_nil, List.map_singleton, run_concat, held.windows]
      rfl
    next apart =>
      rw [List.filter_cons_of_neg (by simpa using Ne.symm apart), List.filter_nil, List.map_nil, List.append_nil]
      exact held.windows other
  refine ⟨spacious_check held.spacious among, after, fun other => ?_⟩
  unfold verdicts own
  rw [List.filter_append, List.map_append, List.filter_append, List.map_append]
  by_cases same : peer = other
  · subst same
    have window := peek_check held.spacious among now peer
    rw [if_pos rfl] at window
    obtain ⟨found, there, same⟩ := Option.map_eq_some_iff.mp window
    obtain ⟨_, checked, _⟩ := checkAndIncrement_push held.spacious peer now
    have start : found.windowStart = found.window.start := rfl
    have shown : ((limiter.step (peer, now)).2.filter (fun verdict => verdict.1 = peer)).map (·.2) =
        (WindowedLimit.step rateLimitWindow most ((limiter.peers.peek peer).map RateWindow.window) now).2 := by
      simp only [step, there, congrArg Prod.snd checked, WindowedLimit.step]
      simp [start, same]
    rw [shown, List.filter_cons_of_pos (by simp), List.filter_nil, List.map_singleton, run_concat, held.windows]
    exact congrArg (· ++ _) (held.logs peer)
  · have none : (limiter.step (peer, now)).2.filter (fun verdict => verdict.1 = other) = [] := by
      simp [step, same]
    rw [none, List.filter_cons_of_neg (by simpa using same), List.filter_nil]
    simp only [List.map_nil, List.append_nil]
    exact held.logs other

theorem separate_run (most : Nat) {calls : List (Pubkey × Instant)} (few : all.length ≤ maxRateLimitPeers)
    (among : ∀ call ∈ calls, call.1 ∈ all) :
    Separate (run step (.new most) calls).1 most all calls (run step (.new most) calls).2 := by
  have met : Meets step (fun _ (call : Pubkey × Instant) => call.1 ∈ all) (.new most) calls := meets_of_forall among
  refine run_history (P := fun calls limiter log => Separate limiter most all calls log) ?_ ?_ calls met
  · exact ⟨⟨rfl, few, fun _ member => by cases member⟩, fun _ => rfl, fun _ => rfl⟩
  · exact fun _ _ _ _ held known => separate_step held known

/-- The verdicts of a peer are those that its own calls would get alone. -/
theorem verdicts_run (most : Nat) {calls : List (Pubkey × Instant)} (few : FewPeers calls) (peer : Pubkey) :
    verdicts peer (run step (.new most) calls).2 =
      (run (WindowedLimit.step rateLimitWindow most) none (own peer calls)).2 :=
  (separate_run most few (fun _ member => List.mem_dedup.mpr (List.mem_map_of_mem member))).logs peer

/-- Each peer is kept to the limit and gets what the limit allows, whatever the other peers do. -/
theorem peers_limited_apart (most : Nat) (calls : List (Pubkey × Instant)) (few : FewPeers calls)
    (ordered : calls.Pairwise (fun a b => a.2 ≤ b.2)) (peer : Pubkey) :
    WindowedLimit.Respects rateLimitWindow most (verdicts peer (run step (.new most) calls).2) ∧
      ∀ others, FewPeers others → own peer others = own peer calls →
        verdicts peer (run step (.new most) others).2 = verdicts peer (run step (.new most) calls).2 := by
  refine ⟨?_, fun others few' same => ?_⟩
  · rw [verdicts_run most few]
    exact WindowedLimit.respects_run (by decide) (List.pairwise_map.mpr (ordered.filter _))
  · rw [verdicts_run most few', verdicts_run most few, same]

/-- Two peers take turns, the first one too often. -/
def eagerPeer : List (Pubkey × Instant) := [(1, 0), (2, 0), (1, 1), (2, 500000000), (1, 1000000000)]

theorem peers_limited_apart_eagerPeer :
    verdicts 1 (run step (.new 1) eagerPeer).2 = [⟨0, 0, true⟩, ⟨1, 0, false⟩, ⟨1000000000, 1000000000, true⟩] ∧
      WindowedLimit.Respects rateLimitWindow 1 (verdicts 1 (run step (.new 1) eagerPeer).2) :=
  ⟨by decide +kernel, (peers_limited_apart 1 eagerPeer (by unfold FewPeers; decide) (by decide) 1).1⟩

end RepairRateLimiter

end Lightbringer.Overlay
