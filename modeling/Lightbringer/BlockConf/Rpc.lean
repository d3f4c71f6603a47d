import Lightbringer.SolanaRpc
import Lightbringer.Lib.Machine
import Std.Data.TreeMap.Lemmas

/-!
# Confirmed blocks from an RPC node

`block_conf/mod.rs`: confirmed blocks come over a websocket subscription. When the socket fails or stays silent, the
blocks since the last one returned are asked for by RPC and the subscription is made again.

`next` is taken apart at its awaits. The node confirms blocks at any time between them, and while the client holds a
socket the subscription on it sends each of them.
-/

namespace Lightbringer.BlockConf
open Std Machine

structure BlockConfUpdate where
  slot : UInt64
  blockHash : Hash
  deriving DecidableEq

/-- `SubscriptionNotification<MinBlockNotif>`, with the hash as it decodes. -/
structure BlockNotif where
  method : String
  subscription : UInt64
  slot : UInt64
  blockhash : Option Hash
  deriving DecidableEq

/-- A frame of the websocket. The payload of a text or binary frame may not parse. -/
inductive Frame where
  | control
  | data (notif : Option BlockNotif)
  deriving DecidableEq

/-- What `next_from_ws` makes of a frame; it reads on where this is nothing. -/
def Frame.update (subscriptionId : UInt64) : Frame → Option BlockConfUpdate
  | .control => none
  | .data none => none
  | .data (some notif) =>
    if notif.method ≠ "blockNotification" ∨ notif.subscription ≠ subscriptionId then none
    else notif.blockhash.map (fun blockHash => ⟨notif.slot, blockHash⟩)

/-- The client's end of a websocket, with the frames that are on their way. -/
structure Ws where
  frames : List Frame
  deriving DecidableEq

structure BlockConfStream where
  ws : Option Ws
  subscriptionId : UInt64
  catchupSlots : List BlockConfUpdate
  lastSlot : Option UInt64
  deriving DecidableEq

def BlockConfStream.new (subscriptionId : UInt64) : BlockConfStream := ⟨some ⟨[]⟩, subscriptionId, [], none⟩

structure RpcNode where
  confirmed : TreeMap UInt64 Hash

/-- The answers of a node that does not fail. -/
def RpcNode.answer (node : RpcNode) : RpcSend
  | .getBlock, slot =>
    match node.confirmed[slot]? with
    | some blockhash => .ok (.block (some blockhash))
    | none => .error .jsonRpc
  | .getBlocks, startSlot => .ok (.slots (node.confirmed.keys.filter (fun slot => startSlot ≤ slot)))

inductive RpcWorld.Awaits where
  /-- No call of `next` is under way. -/
  | call
  | subscription
  | frame
  /-- The answer to `get_blocks`. -/
  | blocks (lastSlot : UInt64)
  /-- The answer to `get_blockhash`, with the slots that are still to be asked for. -/
  | blockhash (slot : UInt64) (rest : List UInt64)
  deriving DecidableEq

structure RpcWorld where
  node : RpcNode
  stream : BlockConfStream
  awaits : RpcWorld.Awaits

namespace RpcWorld

def new (subscriptionId : UInt64) : RpcWorld := ⟨⟨∅⟩, .new subscriptionId, .call⟩

inductive Event where
  | confirm (slot : UInt64) (blockhash : Hash)
  /-- A frame that brings no update of the subscription. -/
  | stray (frame : Frame)
  | next
  | subscribed (subscriptionId : UInt64)
  | subscribeFailed
  | frame
  | wsError
  | timeout
  | answered
  | requestFailed (error : SolanaRpcError)
  deriving DecidableEq

inductive Output where
  | called
  | returned (update : BlockConfUpdate)
  | erred (error : SolanaRpcError)
  /-- The service failed a request or a subscription attempt. -/
  | serviceFailed
  deriving DecidableEq

variable (world : RpcWorld)

def confirm (slot : UInt64) (blockhash : Hash) : RpcWorld :=
  { world with
    node := ⟨world.node.confirmed.insert slot blockhash⟩
    stream := { world.stream with
      ws := world.stream.ws.map (fun ws =>
        ⟨ws.frames ++ [.data (some ⟨"blockNotification", world.stream.subscriptionId, slot, some blockhash⟩)]⟩) } }

def stray (frame : Frame) : RpcWorld :=
  if frame.update world.stream.subscriptionId = none then
    { world with stream := { world.stream with ws := world.stream.ws.map (fun ws => ⟨ws.frames ++ [frame]⟩) } }
  else world

/-- `next` has its update. -/
def give (update : BlockConfUpdate) : RpcWorld × List Output :=
  ({ world with stream := { world.stream with lastSlot := some update.slot }, awaits := .call }, [.returned update])

/-- The head of the loop in `next_inner`. -/
def nextInner : RpcWorld × List Output :=
  match world.stream.catchupSlots with
  | update :: rest => give { world with stream := { world.stream with catchupSlots := rest } } update
  | [] => ({ world with awaits := if world.stream.ws.isSome then .frame else .subscription }, [])

def subscribed (subscriptionId : UInt64) : RpcWorld :=
  { world with
    stream := { world.stream with ws := some ⟨[]⟩, subscriptionId := subscriptionId }
    awaits := .frame }

def readFrame : RpcWorld × List Output :=
  match world.stream.ws with
  | some ⟨frame :: frames⟩ =>
    let after := { world with stream := { world.stream with ws := some ⟨frames⟩ } }
    match frame.update world.stream.subscriptionId with
    | none => (after, [])
    | some update => if world.stream.lastSlot.getD 0 < update.slot then after.give update else after.nextInner
  | _ => (world, [])

def markForResubscribe : RpcWorld × List Output :=
  let world := { world with stream := { world.stream with ws := none } }
  match world.stream.lastSlot with
  | none => world.nextInner
  | some lastSlot => ({ world with awaits := .blocks lastSlot }, [])

/-- `next` fails with what it was waiting for. -/
def fail (error : SolanaRpcError) : RpcWorld × List Output := ({ world with awaits := .call }, [.erred error])

/-- The loop that asks for the hashes of the blocks to catch up on. -/
def catchUp : List UInt64 → RpcWorld × List Output
  | [] => world.nextInner
  | slot :: rest => ({ world with awaits := .blockhash slot rest }, [])

/-- An answer arrives to the request under way. -/
def answered (send : RpcSend) : RpcWorld × List Output :=
  match world.awaits with
  | .blocks lastSlot =>
    match SolanaRpcClient.getBlocks send lastSlot with
    | .error error => world.fail error
    | .ok slots => catchUp { world with stream := { world.stream with catchupSlots := [] } } (slots.drop 1)
  | .blockhash slot rest =>
    match SolanaRpcClient.getBlockhash send slot with
    | .error error => world.fail error
    | .ok blockHash =>
      let catchupSlots := world.stream.catchupSlots ++ [⟨slot, blockHash⟩]
      catchUp { world with stream := { world.stream with catchupSlots := catchupSlots } } rest
  | _ => (world, [])

/-- Whether the call is inside `next_from_ws`. -/
def inNextFromWs : Bool := world.awaits = .subscription ∨ world.awaits = .frame

/-- Whether the call is waiting for an answer of the RPC service. -/
def inRequest : Bool :=
  match world.awaits with
  | .blocks _ => true
  | .blockhash _ _ => true
  | _ => false

/-- An event that nothing waits for has no effect. -/
def step (event : Event) : RpcWorld × List Output :=
  match event with
  | .confirm slot blockhash => (world.confirm slot blockhash, [])
  | .stray frame => (world.stray frame, [])
  | .next =>
    if world.awaits = .call then
      let (after, out) := world.nextInner
      (after, .called :: out)
    else (world, [])
  | .subscribed subscriptionId =>
    if world.awaits = .subscription then (world.subscribed subscriptionId, []) else (world, [])
  | .subscribeFailed =>
    if world.awaits = .subscription then
      let (after, out) := world.markForResubscribe
      (after, .serviceFailed :: out)
    else (world, [])
  | .frame => if world.awaits = .frame then world.readFrame else (world, [])
  | .wsError => if world.awaits = .frame then world.markForResubscribe else (world, [])
  | .timeout => if world.inNextFromWs then world.markForResubscribe else (world, [])
  | .answered => world.answered world.node.answer
  | .requestFailed error =>
    if world.inRequest then
      let (after, out) := world.answered (fun _ _ => .error error)
      (after, .serviceFailed :: out)
    else (world, [])

end RpcWorld

end Lightbringer.BlockConf
