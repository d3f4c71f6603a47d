import Lightbringer.BlockConf.Rpc
import Lightbringer.Lib.Feed
import Lightbringer.Lib.Trace

/-!
# No confirmed block is missed

One subscription delivers everything from the moment it is made, so the slots returned from it have no gap. Catching up
between two subscriptions does not work: the list of blocks is asked for with the method for a single block, and the
answer cannot be read as a list.
-/

namespace Lightbringer.BlockConf
open Std Machine

namespace RpcWorld

def Output.slot : Output → Option UInt64
  | .returned update => some update.slot
  | _ => none

def returnedSlots (log : List Output) : List UInt64 := log.filterMap Output.slot

/-- What a follower of the stream relies on. An error is the service's if it failed in the course of the same call. -/
structure KeepsUp (confirmed : TreeMap UInt64 Hash) (log : List Output) : Prop where
  ascending : (returnedSlots log).Pairwise (fun a b => a < b)
  gapless : ∀ a ∈ returnedSlots log, ∀ b ∈ returnedSlots log, ∀ slot ∈ confirmed, a < slot → slot < b →
    slot ∈ returnedSlots log
  errs : Prefixwise (fun before out => ∀ error, out = Output.erred error →
    Trace.Since (fun event => event = .serviceFailed) (fun event => event = .called) before) log

/-- Blocks are confirmed in ascending order, and the subscription is not lost once a slot has been returned. -/
def unbroken (world : RpcWorld) (event : Event) : Bool :=
  match event with
  | .confirm slot _ => world.node.confirmed.keys.all (fun earlier => earlier < slot)
  | .subscribeFailed => world.stream.lastSlot = none ∨ world.inNextFromWs = false
  | .wsError => world.stream.lastSlot = none ∨ world.inNextFromWs = false
  | .timeout => world.stream.lastSlot = none ∨ world.inNextFromWs = false
  | _ => true

/-- The slots of the updates on their way. -/
def inFlight (stream : BlockConfStream) : Option (List UInt64) :=
  stream.ws.map (fun ws => ws.frames.filterMap (fun frame =>
    (frame.update stream.subscriptionId).map BlockConfUpdate.slot))

/-- The world after it has shown `log`. -/
structure Following (world : RpcWorld) (log : List Output) : Prop where
  feed : Feed.Followed (fun slot => slot ∈ world.node.confirmed) (inFlight world.stream) world.stream.lastSlot
    (returnedSlots log)
  caughtUp : world.stream.catchupSlots = []
  noRequest : world.inRequest = false
  unsubscribed : world.awaits = .subscription → world.stream.lastSlot = none
  noError : ∀ error, Output.erred error ∉ log

variable {world : RpcWorld} {log : List Output}

theorem following_new (subscriptionId : UInt64) : Following (new subscriptionId) [] :=
  ⟨Feed.followed_start, rfl, rfl, nofun, fun _ member => (List.not_mem_nil member).elim⟩

theorem mem_confirmed_insert (confirmed : TreeMap UInt64 Hash) (slot : UInt64) (blockhash : Hash) :
    (fun other => other ∈ confirmed.insert slot blockhash) = fun other => other = slot ∨ other ∈ confirmed := by
  funext other
  rw [TreeMap.mem_insert, LawfulEqOrd.compare_eq_iff_eq, @eq_comm _ slot other]

theorem inFlight_append (stream : BlockConfStream) (frame : Frame) :
    inFlight { stream with ws := stream.ws.map (fun ws => ⟨ws.frames ++ [frame]⟩) } =
      (inFlight stream).map (fun slots =>
        slots ++ ((frame.update stream.subscriptionId).map BlockConfUpdate.slot).toList) := by
  unfold inFlight
  cases stream.ws with
  | none => rfl
  | some ws =>
    simp only [Option.map_some, List.filterMap_append, List.filterMap_cons, List.filterMap_nil]
    cases frame.update stream.subscriptionId <;> rfl

theorem following_confirm (held : Following world log) {slot : UInt64} {blockhash : Hash}
    (above : ∀ earlier ∈ world.node.confirmed, earlier < slot) : Following (world.confirm slot blockhash) log := by
  refine ⟨?_, held.caughtUp, held.noRequest, held.unsubscribed, held.noError⟩
  have published := held.feed.publish above
  rw [← mem_confirmed_insert world.node.confirmed slot blockhash] at published
  dsimp only [confirm]
  rw [inFlight_append]
  simpa [Frame.update] using published

theorem following_stray (held : Following world log) (frame : Frame) : Following (world.stray frame) log := by
  unfold stray
  split
  next nothing =>
    refine ⟨?_, held.caughtUp, held.noRequest, held.unsubscribed, held.noError⟩
    rw [inFlight_append, nothing]
    simpa using held.feed
  next => exact held

/-- Outputs that return nothing and fail nothing. -/
theorem following_silent (held : Following world log) (output : Output) (silent : output.slot = none)
    (fine : ∀ error, output ≠ .erred error) : Following world (log ++ [output]) := by
  refine ⟨?_, held.caughtUp, held.noRequest, held.unsubscribed, fun error member => ?_⟩
  · rw [returnedSlots, List.filterMap_append, List.filterMap_cons_none silent, List.filterMap_nil, List.append_nil]
    exact held.feed
  · rcases List.mem_append.mp member with old | new
    · exact held.noError error old
    · exact fine error (List.mem_singleton.mp new).symm

theorem following_nextInner (held : Following world log) :
    Following world.nextInner.1 (log ++ world.nextInner.2) := by
  have waits : world.nextInner =
      ({ world with awaits := if world.stream.ws.isSome then .frame else .subscription }, []) := by
    rw [nextInner, held.caughtUp]
  rw [waits, List.append_nil]
  refine ⟨held.feed, held.caughtUp, ?_, fun awaited => ?_, held.noError⟩
  · dsimp only [inRequest]
    cases world.stream.ws <;> rfl
  · -- Once a slot has been returned the tap is open, so there is a socket to read from.
    cases set : world.stream.lastSlot with
    | none => rfl
    | some l =>
      obtain ⟨q, opened, _⟩ := held.feed.ahead l set
      obtain ⟨ws, some, _⟩ := Option.map_eq_some_iff.mp opened
      dsimp only at awaited
      rw [some] at awaited
      cases awaited

theorem following_markForResubscribe (held : Following world log) (unset : world.stream.lastSlot = none) :
    Following world.markForResubscribe.1 (log ++ world.markForResubscribe.2) := by
  have resubscribes : world.markForResubscribe =
      nextInner { world with stream := { world.stream with ws := none } } := by
    rw [markForResubscribe]
    dsimp only
    rw [unset]
  rw [resubscribes]
  refine following_nextInner ⟨?_, held.caughtUp, held.noRequest, held.unsubscribed, held.noError⟩
  have feed := held.feed
  rw [unset] at feed
  dsimp only
  rw [unset]
  exact feed.retap (fun q same => by cases same)

theorem following_subscribed (held : Following world log) (awaited : world.awaits = .subscription)
    (subscriptionId : UInt64) : Following (world.subscribed subscriptionId) log := by
  have feed := held.feed
  rw [held.unsubscribed awaited] at feed
  refine ⟨?_, held.caughtUp, rfl, nofun, held.noError⟩
  dsimp only [subscribed]
  rw [held.unsubscribed awaited]
  refine feed.retap (fun q same => ?_)
  cases same
  rfl

theorem following_readFrame (held : Following world log) : Following world.readFrame.1 (log ++ world.readFrame.2) := by
  unfold readFrame
  split
  next frame frames opened =>
    have flying : inFlight world.stream = some (((frame.update world.stream.subscriptionId).map
        BlockConfUpdate.slot).toList ++ frames.filterMap (fun frame =>
          (frame.update world.stream.subscriptionId).map BlockConfUpdate.slot)) := by
      rw [inFlight, opened, Option.map_some, List.filterMap_cons]
      cases frame.update world.stream.subscriptionId <;> rfl
    have feed := held.feed
    rw [flying] at feed
    dsimp only
    cases read : frame.update world.stream.subscriptionId with
    | none =>
      rw [read] at feed
      rw [List.append_nil]
      exact ⟨feed, held.caughtUp, held.noRequest, held.unsubscribed, held.noError⟩
    | some update =>
      rw [read] at feed
      dsimp only
      split
      next fresh =>
        refine ⟨?_, held.caughtUp, rfl, nofun, fun error member => ?_⟩
        · rw [returnedSlots, List.filterMap_append]
          refine feed.deliver (fun l set => ?_)
          rw [set] at fresh
          exact fresh
        · rcases List.mem_append.mp member with old | new
          · exact held.noError error old
          · cases List.mem_singleton.mp new
      next stale =>
        refine following_nextInner ⟨feed.skip fun l set => ?_, held.caughtUp, held.noRequest, held.unsubscribed,
          held.noError⟩
        rw [set] at stale
        exact Std.not_lt.mp stale
  next =>
    rw [List.append_nil]
    exact held

theorem following_step (held : Following world log) {event : Event} (fine : unbroken world event = true) :
    Following (world.step event).1 (log ++ (world.step event).2) := by
  have idle : Following world (log ++ []) := by
    rw [List.append_nil]
    exact held
  cases event with
  | confirm slot blockhash =>
    rw [step, List.append_nil]
    refine following_confirm held (fun earlier member => ?_)
    exact of_decide_eq_true (List.all_eq_true.mp fine earlier (TreeMap.mem_keys.mpr member))
  | stray frame =>
    rw [step, List.append_nil]
    exact following_stray held frame
  | next =>
    dsimp only [step]
    split
    next =>
      have called := following_nextInner (following_silent held .called rfl nofun)
      rw [List.append_assoc] at called
      exact called
    next => exact idle
  | subscribed subscriptionId =>
    dsimp only [step]
    split
    next awaited =>
      rw [List.append_nil]
      exact following_subscribed held awaited subscriptionId
    next => exact idle
  | subscribeFailed =>
    dsimp only [step]
    split
    next awaited =>
      have failed := following_markForResubscribe (following_silent held .serviceFailed rfl nofun)
        (held.unsubscribed awaited)
      rw [List.append_assoc] at failed
      exact failed
    next => exact idle
  | frame =>
    dsimp only [step]
    split
    next => exact following_readFrame held
    next => exact idle
  | wsError =>
    dsimp only [step]
    split
    next awaited =>
      refine following_markForResubscribe held ?_
      rcases of_decide_eq_true fine with unset | elsewhere
      · exact unset
      · simp [inNextFromWs, awaited] at elsewhere
    next => exact idle
  | timeout =>
    dsimp only [step]
    split
    next inside =>
      refine following_markForResubscribe held ?_
      rcases of_decide_eq_true fine with unset | elsewhere
      · exact unset
      · rw [inside] at elsewhere
        cases elsewhere
    next => exact idle
  | answered =>
    have nothing : world.answered world.node.answer = (world, []) := by
      have waiting := held.noRequest
      unfold inRequest at waiting
      unfold answered
      split <;> simp_all
    rw [step, nothing]
    exact idle
  | requestFailed error =>
    dsimp only [step]
    rw [if_neg (by rw [held.noRequest]; exact Bool.false_ne_true)]
    exact idle

theorem following_run (subscriptionId : UInt64) (events : List Event)
    (met : Meets step (fun world event => unbroken world event = true) (new subscriptionId) events) :
    Following (run step (new subscriptionId) events).1 (run step (new subscriptionId) events).2 :=
  run_history (P := fun _ world log => Following world log) (following_new subscriptionId)
    (fun _ _ _ _ held fine => following_step held fine) events met

/-- On one subscription nothing is missed, and `next` does not fail. -/
theorem next_keeps_up (subscriptionId : UInt64) (events : List Event)
    (met : Meets step (fun world event => unbroken world event = true) (new subscriptionId) events) :
    KeepsUp (run step (new subscriptionId) events).1.node.confirmed (run step (new subscriptionId) events).2 := by
  have held := following_run subscriptionId events met
  refine ⟨held.feed.ascending, ?_, ?_⟩
  · intro a lower b upper slot known above below
    exact held.feed.between lower upper known above below
  · intro before out after split error same
    refine (held.noError error ?_).elim
    rw [split, same]
    exact List.mem_append_right _ (List.mem_cons_self ..)

/-- A subscription that fails and a socket that is silent before anything was returned do no harm. -/
def slowStart : List Event :=
  [.next, .timeout, .subscribeFailed, .subscribed 2, .confirm 5 0, .stray .control, .confirm 7 1, .frame, .next, .frame,
    .frame]

theorem next_keeps_up_slowStart :
    returnedSlots (run step (new 1) slowStart).2 = [5, 7] ∧
      KeepsUp (run step (new 1) slowStart).1.node.confirmed (run step (new 1) slowStart).2 :=
  ⟨by decide +kernel, next_keeps_up 1 slowStart (by decide +kernel)⟩

/-! ### Losing the subscription -/

/-- The answer to the method that `get_blocks` sends is a block or an error, never a list. -/
theorem getBlocks_answer (node : RpcNode) (slot : UInt64) :
    ∃ error, SolanaRpcClient.getBlocks node.answer slot = .error error := by
  dsimp only [SolanaRpcClient.getBlocks, RpcNode.answer]
  cases node.confirmed[slot]? with
  | none => exact ⟨.jsonRpc, rfl⟩
  | some blockhash => exact ⟨.serDe, rfl⟩

/-- Once a slot has been returned, `next` fails whenever the subscription is lost, with a node that answers. -/
theorem timeout_erred {lastSlot : UInt64} (returned : world.stream.lastSlot = some lastSlot)
    (inside : world.inNextFromWs = true) :
    ∃ error, ((world.step .timeout).1.step .answered).2 = [.erred error] := by
  obtain ⟨error, failed⟩ := getBlocks_answer world.node lastSlot
  have lost : (world.step .timeout).1 =
      { world with stream := { world.stream with ws := none }, awaits := .blocks lastSlot } := by
    dsimp only [step]
    rw [if_pos inside, markForResubscribe]
    dsimp only
    rw [returned]
  refine ⟨error, ?_⟩
  rw [lost]
  dsimp only [step, answered]
  rw [failed]
  rfl

/-- A block is confirmed between two subscriptions. -/
def missedBlock : List Event :=
  [.confirm 5 0, .next, .frame, .next, .timeout, .answered, .confirm 6 1, .next, .subscribed 2, .confirm 7 2, .frame]

theorem next_missed_block :
    returnedSlots (run step (new 1) missedBlock).2 = [5, 7] ∧
      (6 : UInt64) ∈ (run step (new 1) missedBlock).1.node.confirmed ∧
      Output.erred .serDe ∈ (run step (new 1) missedBlock).2 ∧
      Output.serviceFailed ∉ (run step (new 1) missedBlock).2 ∧
      ¬ KeepsUp (run step (new 1) missedBlock).1.node.confirmed (run step (new 1) missedBlock).2 := by
  have returned : returnedSlots (run step (new 1) missedBlock).2 = [5, 7] := by decide +kernel
  have confirmed : (6 : UInt64) ∈ (run step (new 1) missedBlock).1.node.confirmed := by decide +kernel
  refine ⟨returned, confirmed, by decide +kernel, by decide +kernel, fun keeps => ?_⟩
  have between := keeps.gapless 5 (by rw [returned]; decide) 7 (by rw [returned]; decide) 6 confirmed
    (by decide) (by decide)
  rw [returned] at between
  exact absurd between (by decide)

end RpcWorld

end Lightbringer.BlockConf
