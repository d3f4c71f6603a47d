import Lightbringer.BlockConf.Rpc
import Lightbringer.Lib.RecentList
import Lightbringer.Store.ShredLookup
import Lightbringer.Store.SlotMeta

/-!
# Shreds of confirmed slots

`grpc_slot_stream/shred_source.rs`. `SlotShredsWaiter` is shared by two tasks: one inserts slots as they complete, the
other calls `send_slot_shreds` for each confirmation and may have to wait for the slot. A call runs to the `await` on its
channel, or to the end.
-/

namespace Lightbringer.GrpcSlotStream
open Store BlockConf

structure SlotForGrpc (Shred : Type) where
  slot : UInt64
  shreds : List Shred
  expectedBlockhash : Option Hash
  deriving DecidableEq

def slotCacheSize : Nat := 300

structure SlotShredsWaiter where
  finishedSlots : Finset UInt64
  /-- `uluru::LRUCache`. -/
  slotCache : List (UInt64 × List ShredInfoView)
  /-- The slot a call waits for; the sender beside it is that of the call's channel. -/
  blockNotif : Option UInt64

/-- The call of `send_slot_shreds` under way, with what is in its channel. -/
inductive Call where
  | idle
  | waiting (update : BlockConfUpdate) (received : Option (List ShredInfoView))

structure Runner where
  waiter : SlotShredsWaiter
  call : Call

inductive WaiterEvent where
  | insert (slot : SlotRaw)
  /-- A call, with the store it may read. -/
  | sendSlotShreds (store : ShredStore) (update : BlockConfUpdate)
  /-- The call goes on after its `await`. -/
  | resume

def slotBytes (slot : SlotRaw) : List ShredInfoView := slot.shreds.map PacketView.bytes

/-- What a call sends downstream. -/
def confirmedSlot (update : BlockConfUpdate) (shreds : List ShredInfoView) : SlotForGrpc ShredInfoView where
  slot := update.slot
  shreds := shreds
  expectedBlockhash := some update.blockHash

namespace SlotShredsWaiter

/-- `SlotShredsWaiter::default`. -/
def new : SlotShredsWaiter := ⟨∅, [], none⟩

def finish (waiter : SlotShredsWaiter) (slot : SlotRaw) : SlotShredsWaiter :=
  { waiter with
    slotCache := RecentList.insert slotCacheSize waiter.slotCache (slot.slot, slotBytes slot)
    finishedSlots := insert slot.slot waiter.finishedSlots }

/-- Also what goes into the channel of the call that waits. -/
def insert (waiter : SlotShredsWaiter) (slot : SlotRaw) : SlotShredsWaiter × Option (List ShredInfoView) :=
  match waiter.blockNotif with
  | none => (waiter.finish slot, none)
  | some slotNum =>
    if slot.slot ≠ slotNum then (waiter.finish slot, none) else ({ waiter with blockNotif := none }, some (slotBytes slot))

/-- The start of a call: what it sends, if anything, or that it waits. -/
def sendSlotShreds (waiter : SlotShredsWaiter) (store : ShredStore) (update : BlockConfUpdate) :
    SlotShredsWaiter × Call × List (SlotForGrpc ShredInfoView) :=
  if update.slot ∈ waiter.finishedSlots then
    let waiter := { waiter with finishedSlots := waiter.finishedSlots.erase update.slot }
    match RecentList.find waiter.slotCache update.slot with
    | some (found, slotCache) => ({ waiter with slotCache := slotCache }, .idle, [confirmedSlot update found.2])
    | none =>
      match store.getSlotShreds update.slot with
      | .error _ => (waiter, .idle, [])
      | .ok shreds => (waiter, .idle, [confirmedSlot update shreds])
  else ({ waiter with blockNotif := some update.slot }, .waiting update none, [])

end SlotShredsWaiter

/-- The channel holds one message. -/
def Call.receive (shreds : List ShredInfoView) : Call → Call
  | .waiting update none => .waiting update (some shreds)
  | call => call

def Runner.start : Runner := ⟨.new, .idle⟩

def Runner.step (s : Runner) : WaiterEvent → Runner × List (SlotForGrpc ShredInfoView)
  | .insert slot =>
    let (waiter, handed) := s.waiter.insert slot
    (⟨waiter, handed.elim s.call (fun shreds => s.call.receive shreds)⟩, [])
  | .sendSlotShreds store update =>
    match s.call with
    | .idle =>
      let (waiter, call, sent) := s.waiter.sendSlotShreds store update
      (⟨waiter, call⟩, sent)
    | .waiting _ _ => (s, [])
  | .resume =>
    match s.call with
    | .waiting update (some shreds) => ({ s with call := .idle }, [confirmedSlot update shreds])
    | _ => (s, [])

end Lightbringer.GrpcSlotStream
