import Lightbringer.SolanaRpc
import Lightbringer.Lib.Lru
import Lightbringer.Lib.Machine

/-!
# The leader schedule

`leader_schedule/mod.rs`: the leaders of the slots around the current epoch, fetched from an RPC node. A schedule
names slots relative to the start of its epoch, and the start comes from a second call.

The two asynchronous functions are taken apart at their calls. The two seconds slept before a retry are not kept.
-/

namespace Lightbringer.LeaderSchedule
open Machine

def slotsPerEpoch : UInt64 := 432000

/-- `Pubkey::from_str`. -/
class PubkeyText where
  fromStr : String → Option Pubkey

/-- Base58, with a leading one for each leading zero byte. -/
abbrev base58Text : PubkeyText where
  fromStr text := do
    let digits ← text.toList.mapM (fun c =>
      "123456789ABCDEFGHJKLMNPQRSTUVWXYZabcdefghijkmnopqrstuvwxyz".toList.idxOf? c)
    let value := digits.foldl (fun value digit => 58 * value + digit) 0
    let size := (digits.takeWhile (· = 0)).length + (if value = 0 then 0 else value.log2 / 8 + 1)
    if text.length ≤ 44 ∧ size = 32 then some (BitVec.ofNat 256 value) else none

/-- The slots of each leader, relative to the start of the epoch. The order is that of a hash map. -/
abbrev RpcLeaderSchedule := List (String × List UInt64)

structure EpochInfo where
  absoluteSlot : UInt64
  slotIndex : UInt64
  deriving DecidableEq

/-- A failed call, with its text when it is a JSON-RPC error. -/
structure RpcFailure where
  error : SolanaRpcError
  message : String
  deriving DecidableEq

def minContextSlotNotReached : RpcFailure := ⟨.jsonRpc, "Minimum context slot has not been reached"⟩

structure LeaderScheduleStore where
  leaders : Lru UInt64 Pubkey
  maxSlot : UInt64

namespace LeaderScheduleStore

def new : LeaderScheduleStore := ⟨.new (slotsPerEpoch.toNat * 12 / 10), 0⟩

def push (store : LeaderScheduleStore) (slot : UInt64) (leader : Pubkey) : LeaderScheduleStore where
  leaders := store.leaders.push slot leader
  maxSlot := max store.maxSlot slot

variable [PubkeyText]

/-- The slots a schedule gives a leader for that has a valid name, in the order they are stored. -/
def scheduled (leaders : RpcLeaderSchedule) (epochStartSlot : UInt64) : List (UInt64 × Pubkey) :=
  leaders.flatMap (fun (leader, relativeSlots) =>
    match PubkeyText.fromStr leader with
    | none => []
    | some parsed => relativeSlots.map (fun relativeSlot => (epochStartSlot + relativeSlot, parsed)))

def storeLeaders (store : LeaderScheduleStore) (leaders : RpcLeaderSchedule) (epochStartSlot : UInt64) :
    LeaderScheduleStore :=
  (scheduled leaders epochStartSlot).foldl (fun store (slot, leader) => store.push slot leader) store

end LeaderScheduleStore

inductive Request where
  | epochInfo (minContextSlot : Option UInt64)
  | leaderSchedule (slot : Option UInt64)
  deriving DecidableEq

inductive Answer where
  | epochInfo (result : Except RpcFailure (Option EpochInfo))
  | leaderSchedule (result : Except RpcFailure (Option RpcLeaderSchedule))

inductive Awaits where
  /-- The two calls of `new_synced`. -/
  | firstSchedule
  | firstEpochInfo (schedule : RpcLeaderSchedule)
  /-- `new_synced` returned an error. -/
  | failed
  /-- No lookup is under way. -/
  | lookup
  | epochInfo (slot : UInt64)
  | leaderSchedule (slot : UInt64) (epochInfo : EpochInfo)

def Awaits.request : Awaits → Option Request
  | firstSchedule => some (.leaderSchedule none)
  | firstEpochInfo _ => some (.epochInfo none)
  | failed => none
  | lookup => none
  | epochInfo slot => some (.epochInfo (some slot))
  | leaderSchedule slot _ => some (.leaderSchedule (some slot))

inductive Output where
  /-- The arguments of a call of `store_leaders`. -/
  | stored (schedule : RpcLeaderSchedule) (epochStartSlot : UInt64)
  /-- What `get_leader_for_slot_ensure_synced` returned. -/
  | returned (leader : Option Pubkey)

structure LeaderScheduleSync where
  store : LeaderScheduleStore
  awaits : Awaits

namespace LeaderScheduleSync

/-- `new_synced` up to its first call. -/
def new : LeaderScheduleSync := ⟨.new, .firstSchedule⟩

variable (sync : LeaderScheduleSync)

def finish (leader : Option Pubkey) : LeaderScheduleSync × List Output :=
  ({ sync with awaits := .lookup }, [.returned leader])

/-- `get_leader_for_slot_ensure_synced` up to its first call. A lookup waits for the one before it. -/
def getLeaderForSlotEnsureSynced (slot : UInt64) : LeaderScheduleSync × List Output :=
  match sync.awaits with
  | .lookup =>
    let (leaders, found) := sync.store.leaders.get slot
    let sync := { sync with store := { sync.store with leaders } }
    match found with
    | some pubkey => sync.finish (some pubkey)
    | none =>
      let diff := saturatingSub slot sync.store.maxSlot
      -- Either the slot is too old or too new.
      if diff = 0 ∨ slotsPerEpoch < diff then sync.finish none
      else ({ sync with awaits := .epochInfo slot }, [])
  | _ => (sync, [])

variable [PubkeyText]

def storeLeaders (schedule : RpcLeaderSchedule) (epochInfo : EpochInfo) : LeaderScheduleSync × List Output :=
  let epochStartSlot := epochInfo.absoluteSlot - epochInfo.slotIndex
  ({ sync with store := sync.store.storeLeaders schedule epochStartSlot }, [.stored schedule epochStartSlot])

/-- What follows a call, up to the next one. -/
def resume (answer : Answer) : LeaderScheduleSync × List Output :=
  match sync.awaits, answer with
  | .firstSchedule, .leaderSchedule (.ok (some schedule)) => ({ sync with awaits := .firstEpochInfo schedule }, [])
  | .firstSchedule, .leaderSchedule _ => ({ sync with awaits := .failed }, [])
  | .firstEpochInfo schedule, .epochInfo (.ok (some epochInfo)) =>
    let (sync, out) := sync.storeLeaders schedule epochInfo
    ({ sync with awaits := .lookup }, out)
  | .firstEpochInfo _, .epochInfo _ => ({ sync with awaits := .failed }, [])
  | .epochInfo slot, .epochInfo (.ok (some epochInfo)) =>
    -- The node has not come to the slot: asked again.
    if epochInfo.absoluteSlot < slot then (sync, [])
    else ({ sync with awaits := .leaderSchedule slot epochInfo }, [])
  | .epochInfo _, .epochInfo (.ok none) => (sync, [])
  | .epochInfo _, .epochInfo (.error failure) => if failure = minContextSlotNotReached then (sync, []) else sync.finish none
  | .leaderSchedule slot epochInfo, .leaderSchedule (.ok (some schedule)) =>
    let (sync, out) := sync.storeLeaders schedule epochInfo
    let (leaders, found) := sync.store.leaders.get slot
    let (sync, tail) := { sync with store := { sync.store with leaders } }.finish found
    (sync, out ++ tail)
  -- The loop starts over, from the epoch info.
  | .leaderSchedule slot _, .leaderSchedule (.ok none) => ({ sync with awaits := .epochInfo slot }, [])
  | .leaderSchedule _ _, .leaderSchedule (.error _) => sync.finish none
  | _, _ => (sync, [])

end LeaderScheduleSync

/-! ### The cluster -/

/-- The epochs of a cluster, each known by its first slot, and their schedules. -/
structure Cluster where
  epochStart : UInt64 → UInt64
  schedule : UInt64 → RpcLeaderSchedule
  started : ∀ slot, epochStart slot ≤ slot
  start_of_start : ∀ slot, epochStart (epochStart slot) = epochStart slot

namespace Cluster

variable (cluster : Cluster)

/-- The schedule of the epoch that contains the slot. -/
def scheduleOf (slot : UInt64) : RpcLeaderSchedule := cluster.schedule (cluster.epochStart slot)

def epochInfo (current : UInt64) : EpochInfo where
  absoluteSlot := current
  slotIndex := current - cluster.epochStart current

@[simp] theorem epochInfo_absoluteSlot (current : UInt64) : (cluster.epochInfo current).absoluteSlot = current := rfl

/-- The slot an epoch starts at is what the two fields of the epoch info differ by. -/
@[simp] theorem epochInfo_start (current : UInt64) :
    (cluster.epochInfo current).absoluteSlot - (cluster.epochInfo current).slotIndex = cluster.epochStart current := by
  show current - (current - cluster.epochStart current) = cluster.epochStart current
  rw [← UInt64.toNat_inj]
  have before := UInt64.le_iff_toNat_le.mp (cluster.started current)
  rw [UInt64.toNat_sub_of_le _ _ (by rw [UInt64.le_iff_toNat_le, UInt64.toNat_sub_of_le _ _ (cluster.started current)]; omega),
    UInt64.toNat_sub_of_le _ _ (cluster.started current)]
  omega

end Cluster

/-- Epochs of the usual length, the first led by the system program and the others by the vote program. -/
def usualCluster : Cluster where
  epochStart slot := slot / slotsPerEpoch * slotsPerEpoch
  schedule epochStartSlot :=
    [(if epochStartSlot = 0 then "11111111111111111111111111111111" else "Vote111111111111111111111111111111111111111",
      (List.range 432000).map UInt64.ofNat)]
  started slot := by
    rw [UInt64.le_iff_toNat_le, UInt64.toNat_mul, UInt64.toNat_div]
    exact Nat.le_trans (Nat.mod_le ..) (Nat.div_mul_le_self ..)
  start_of_start slot := by
    have bound := slot.toNat_lt
    have small : slot.toNat / 432000 * 432000 < 2 ^ 64 := by omega
    rw [← UInt64.toNat_inj]
    simp only [UInt64.toNat_mul, UInt64.toNat_div, slotsPerEpoch, UInt64.reduceToNat, Nat.mod_eq_of_lt small]
    rw [Nat.mul_div_cancel _ (by decide), Nat.mod_eq_of_lt small]

/-- How the node meets a call. -/
inductive Moment where
  /-- It answers, at its current slot. -/
  | up (current : UInt64)
  /-- The result is `null`. -/
  | null
  | failing (failure : RpcFailure)

/-- What the node answers: the truth about its current slot, or about the slot asked for. -/
def Cluster.answer (cluster : Cluster) : Request → Moment → Answer
  | .epochInfo _, .up current => .epochInfo (.ok (some (cluster.epochInfo current)))
  | .epochInfo _, .null => .epochInfo (.ok none)
  | .epochInfo _, .failing failure => .epochInfo (.error failure)
  | .leaderSchedule none, .up current => .leaderSchedule (.ok (some (cluster.scheduleOf current)))
  | .leaderSchedule (some slot), .up _ => .leaderSchedule (.ok (some (cluster.scheduleOf slot)))
  | .leaderSchedule _, .null => .leaderSchedule (.ok none)
  | .leaderSchedule _, .failing failure => .leaderSchedule (.error failure)

inductive Event where
  | lookup (slot : UInt64)
  /-- The call under way is answered. -/
  | answered (moment : Moment)

variable [PubkeyText]

def step (cluster : Cluster) (sync : LeaderScheduleSync) : Event → LeaderScheduleSync × List Output
  | .lookup slot => sync.getLeaderForSlotEnsureSynced slot
  | .answered moment =>
    match sync.awaits.request with
    | none => (sync, [])
    | some request => sync.resume (cluster.answer request moment)

end Lightbringer.LeaderSchedule
