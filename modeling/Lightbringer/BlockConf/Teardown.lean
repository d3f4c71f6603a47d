import Lightbringer.BlockConf.Rpc
import Lightbringer.Lib.Trace

/-!
# Dropping the confirmation stream

The destructor closes the websocket and insists that there is one. From the moment a socket is given up to the moment a
subscription is made again there is none.
-/

namespace Lightbringer.BlockConf
open Machine

namespace BlockConfStream

/-- `Drop`. What it takes out is closed by a task of its own. -/
def drop (stream : BlockConfStream) : Except String Ws :=
  match stream.ws with
  | some ws => .ok ws
  | none => .error "drop called twice?!"

theorem drop_ok_iff (stream : BlockConfStream) : (∃ ws, drop stream = .ok ws) ↔ stream.ws ≠ none := by
  unfold drop
  cases stream.ws <;> simp

end BlockConfStream

namespace RpcWorld

/-- How a wait inside `next` ends. The service is free to answer anything. -/
inductive Outcome where
  | next
  | received (frame : Frame)
  /-- A read fails, or the ping before it. -/
  | wsFailed
  | timedOut
  | subscribed (subscriptionId : UInt64)
  | subscribeFailed
  | replied (send : RpcSend)
  /-- The future is dropped where it waits, and the stream stays. -/
  | cancelled

namespace Outcome

/-- Whether this is what the stream is waiting for. -/
def awaited (world : RpcWorld) : Outcome → Bool
  | next => world.awaits = .call
  | received _ => world.awaits = .frame
  | wsFailed => world.awaits = .frame
  | timedOut => world.inNextFromWs
  | subscribed _ => world.awaits = .subscription
  | subscribeFailed => world.awaits = .subscription
  | replied _ => world.inRequest
  | cancelled => world.awaits ≠ .call

/-- The outcomes after which the socket is given up. -/
def loses : Outcome → Bool
  | wsFailed | timedOut | subscribeFailed => true
  | _ => false

def subscribes : Outcome → Bool
  | subscribed _ => true
  | _ => false

end Outcome

def arrive (world : RpcWorld) (frame : Frame) : RpcWorld :=
  { world with stream := { world.stream with ws := world.stream.ws.map (fun ws => ⟨ws.frames ++ [frame]⟩) } }

/-- The world after an outcome that was waited for. -/
def proceed (world : RpcWorld) : Outcome → RpcWorld
  | .next => world.nextInner.1
  | .received frame => (world.arrive frame).readFrame.1
  | .wsFailed => world.markForResubscribe.1
  | .timedOut => world.markForResubscribe.1
  | .subscribed subscriptionId => world.subscribed subscriptionId
  | .subscribeFailed => world.markForResubscribe.1
  | .replied send => (world.answered send).1
  | .cancelled => { world with awaits := .call }

/-- A run shows the outcomes that were waited for; another has no effect. -/
def undergo (world : RpcWorld) (outcome : Outcome) : RpcWorld × List Outcome :=
  if outcome.awaited world then (world.proceed outcome, [outcome]) else (world, [])

/-! ### Where the socket goes -/

section
variable (world : RpcWorld)

theorem nextInner_ws : world.nextInner.1.stream.ws = world.stream.ws := by
  unfold nextInner
  split
  · rfl
  · rfl

theorem markForResubscribe_ws : world.markForResubscribe.1.stream.ws = none := by
  unfold markForResubscribe
  dsimp only
  split
  · rw [nextInner_ws]
  · rfl

theorem catchUp_ws (slots : List UInt64) : (world.catchUp slots).1.stream.ws = world.stream.ws := by
  cases slots with
  | nil => exact nextInner_ws world
  | cons slot rest => rfl

theorem answered_ws (send : RpcSend) : (world.answered send).1.stream.ws = world.stream.ws := by
  unfold answered
  split
  · split
    · rfl
    · rw [catchUp_ws]
  · split
    · rfl
    · rw [catchUp_ws]
  · rfl

theorem readFrame_ws : world.readFrame.1.stream.ws = none ↔ world.stream.ws = none := by
  unfold readFrame
  split
  next frame frames opened =>
    rw [opened]
    dsimp only
    split
    · simp
    · split
      · simp [give]
      · simp [nextInner_ws]
  next => exact Iff.rfl

end

theorem proceed_ws (world : RpcWorld) (outcome : Outcome) :
    (world.proceed outcome).stream.ws = none ↔
      outcome.loses = true ∨ world.stream.ws = none ∧ outcome.subscribes ≠ true := by
  cases outcome with
  | next => simp [proceed, nextInner_ws, Outcome.loses, Outcome.subscribes]
  | received frame => simp [proceed, readFrame_ws, arrive, Outcome.loses, Outcome.subscribes]
  | wsFailed => simp [proceed, markForResubscribe_ws, Outcome.loses]
  | timedOut => simp [proceed, markForResubscribe_ws, Outcome.loses]
  | subscribed subscriptionId => simp [proceed, RpcWorld.subscribed, Outcome.loses, Outcome.subscribes]
  | subscribeFailed => simp [proceed, markForResubscribe_ws, Outcome.loses]
  | replied send => simp [proceed, answered_ws, Outcome.loses, Outcome.subscribes]
  | cancelled => simp [proceed, Outcome.loses, Outcome.subscribes]

/-- A socket was given up and no subscription was made after that. -/
def Unsubscribed (shown : List Outcome) : Prop :=
  Trace.Since (fun outcome => outcome.loses = true) (fun outcome => outcome.subscribes = true) shown

theorem undergo_ws {world : RpcWorld} {shown : List Outcome} (held : world.stream.ws = none ↔ Unsubscribed shown)
    (outcome : Outcome) :
    (world.undergo outcome).1.stream.ws = none ↔ Unsubscribed (shown ++ (world.undergo outcome).2) := by
  unfold undergo
  split
  · rw [proceed_ws, held, Unsubscribed, Unsubscribed, Trace.since_concat]
  · rw [List.append_nil]
    exact held

theorem run_ws (subscriptionId : UInt64) (outcomes : List Outcome) :
    (run undergo (new subscriptionId) outcomes).1.stream.ws = none ↔
      Unsubscribed (run undergo (new subscriptionId) outcomes).2 := by
  refine run_history (P := fun _ (world : RpcWorld) shown => world.stream.ws = none ↔ Unsubscribed shown) ?_ ?_ outcomes
    (meets_true outcomes)
  · exact ⟨nofun, fun since => (Trace.not_since_nil since).elim⟩
  · exact fun _ _ _ outcome held _ => undergo_ws held outcome

/-- Wherever a run stops, the stream can be dropped unless it has lost its socket and not subscribed since. -/
theorem droppable_iff (subscriptionId : UInt64) (outcomes : List Outcome) :
    (∃ ws, (run undergo (new subscriptionId) outcomes).1.stream.drop = .ok ws) ↔
      ¬ Unsubscribed (run undergo (new subscriptionId) outcomes).2 := by
  rw [BlockConfStream.drop_ok_iff]
  exact not_congr (run_ws subscriptionId outcomes)

/-- The node falls silent, and the catch-up request that follows fails the call. -/
def silentNode : List Outcome := [.next, .received (.data (some ⟨"blockNotification", 1, 5, some 0⟩)), .next, .timedOut,
  .replied (fun _ _ => .error .http)]

theorem silentNode_drop_panics :
    (run undergo (new 1) silentNode).1.awaits = .call ∧
      (run undergo (new 1) silentNode).1.stream.drop = .error "drop called twice?!" ∧
      (run undergo (new 1) (silentNode.take 4)).1.stream.drop = .error "drop called twice?!" ∧
      ¬ ∀ subscriptionId outcomes, ∃ ws, (run undergo (new subscriptionId) outcomes).1.stream.drop = .ok ws := by
  refine ⟨rfl, rfl, rfl, fun safe => ?_⟩
  obtain ⟨ws, dropped⟩ := safe 1 silentNode
  cases dropped

end RpcWorld

end Lightbringer.BlockConf
