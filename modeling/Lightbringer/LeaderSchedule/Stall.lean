import Lightbringer.LeaderSchedule.Sync
import Lightbringer.Shred

/-!
# Packets that stall the filter

`packet_filter_loop` awaits the leader of every packet in turn, and the slot asked for is whatever the packet says.
While the RPC service stays at one slot, a lookup either returns after a few calls or never does.
-/

namespace Lightbringer.LeaderSchedule
open Machine

/-- An RPC service that stays at one slot, and what it answers when asked for the schedule of a slot. -/
structure SteadyService where
  cluster : Cluster
  current : UInt64
  leaderSchedule : UInt64 → Except RpcFailure (Option RpcLeaderSchedule)

namespace SteadyService

variable (service : SteadyService)

/-- A minimum context slot the node has not come to is an error. -/
def answer : Request → Answer
  | .epochInfo minContextSlot =>
    if minContextSlot.any (fun slot => service.current < slot) then .epochInfo (.error minContextSlotNotReached)
    else .epochInfo (.ok (some (service.cluster.epochInfo service.current)))
  | .leaderSchedule slot => .leaderSchedule (service.leaderSchedule (slot.getD service.current))

/-- One call answered. -/
def serve [PubkeyText] (sync : LeaderScheduleSync) (_ : Unit) : LeaderScheduleSync × List Output :=
  match sync.awaits.request with
  | none => (sync, [])
  | some request => sync.resume (service.answer request)

/-- Everything a lookup gives out by the time a number of calls are answered. -/
def looked [PubkeyText] (store : LeaderScheduleStore) (slot : UInt64) (calls : Nat) : List Output :=
  let (sync, out) := (LeaderScheduleSync.mk store .lookup).getLeaderForSlotEnsureSynced slot
  out ++ (run service.serve sync (List.replicate calls ())).2

def LookupReturns [PubkeyText] (store : LeaderScheduleStore) (slot : UInt64) : Prop :=
  ∃ calls leader, .returned leader ∈ service.looked store slot calls

/-- The slot is cached, is refused, or is one that the service has come to and has an answer for. -/
def Answerable (store : LeaderScheduleStore) (slot : UInt64) : Prop :=
  (store.leaders.peek slot).isSome ∨ saturatingSub slot store.maxSlot = 0 ∨
    slotsPerEpoch < saturatingSub slot store.maxSlot ∨
    (slot ≤ service.current ∧ service.leaderSchedule slot ≠ .ok none)

end SteadyService

/-! ### The processors -/

inductive Enqueued where
  | done
  deriving DecidableEq

/-- The packets handed to each processor, and the packet whose leader is being looked up. -/
structure PacketProcessorPool where
  senders : List (List (PacketInfo × Pubkey))
  leaderSchedule : LeaderScheduleSync
  handling : Option (PacketInfo × UInt32)

namespace PacketProcessorPool

variable (pool : PacketProcessorPool)

/-- What a lookup returned, once it has. -/
def found (out : List Output) : Option (Option Pubkey) :=
  out.findSome? (fun output =>
    match output with
    | .stored _ _ => none
    | .returned leader => some leader)

/-- `enqueue` after each step of its lookup. -/
def settle (shred : PacketInfo) (shredId : UInt32) (out : List Output) : PacketProcessorPool × List Enqueued :=
  match found out with
  | none => ({ pool with handling := some (shred, shredId) }, [])
  | some none => ({ pool with handling := none }, [.done])
  | some (some leader) =>
    ({ pool with
        senders := pool.senders.modify (shredId.toNat % pool.senders.length) (fun sender => sender ++ [(shred, leader)])
        handling := none },
      [.done])

def enqueue [ShredLayout] (shred : PacketInfo) : PacketProcessorPool × List Enqueued :=
  match ShredLayout.getIndex shred with
  | none => (pool, [.done])
  | some shredId =>
    match ShredLayout.getSlot shred with
    | none => (pool, [.done])
    | some slot =>
      let (leaderSchedule, out) := pool.leaderSchedule.getLeaderForSlotEnsureSynced slot
      { pool with leaderSchedule }.settle shred shredId out

/-- One call answered. -/
def serve [PubkeyText] (service : SteadyService) (pool : PacketProcessorPool) (_ : Unit) :
    PacketProcessorPool × List Enqueued :=
  match pool.handling with
  | none => (pool, [])
  | some (shred, shredId) =>
    let (leaderSchedule, out) := service.serve pool.leaderSchedule ()
    { pool with leaderSchedule }.settle shred shredId out

end PacketProcessorPool

/-- `enqueue` returns after a number of calls, from a pool that is at no other packet. -/
def SteadyService.EnqueueReturns [PubkeyText] [ShredLayout] (service : SteadyService)
    (senders : List (List (PacketInfo × Pubkey))) (store : LeaderScheduleStore) (shred : PacketInfo) : Prop :=
  let (pool, out) := (PacketProcessorPool.mk senders ⟨store, .lookup⟩ none).enqueue shred
  ∃ calls, .done ∈ out ++ (run (PacketProcessorPool.serve service) pool (List.replicate calls ())).2

/-! ### The lookup -/

variable {service : SteadyService} {sync : LeaderScheduleSync} {store : LeaderScheduleStore} {slot : UInt64}

theorem lookup_cached (cached : (store.leaders.peek slot).isSome) :
    ∃ leader, ((LeaderScheduleSync.mk store .lookup).getLeaderForSlotEnsureSynced slot).2 = [.returned leader] := by
  obtain ⟨leader, found⟩ := Option.isSome_iff_exists.mp cached
  exact ⟨some leader, by simp [LeaderScheduleSync.getLeaderForSlotEnsureSynced, found, LeaderScheduleSync.finish]⟩

theorem lookup_refused (missing : store.leaders.peek slot = none)
    (refused : saturatingSub slot store.maxSlot = 0 ∨ slotsPerEpoch < saturatingSub slot store.maxSlot) :
    ((LeaderScheduleSync.mk store .lookup).getLeaderForSlotEnsureSynced slot).2 = [.returned none] := by
  simp [LeaderScheduleSync.getLeaderForSlotEnsureSynced, missing, refused, LeaderScheduleSync.finish]

theorem lookup_asks (missing : store.leaders.peek slot = none)
    (near : ¬ (saturatingSub slot store.maxSlot = 0 ∨ slotsPerEpoch < saturatingSub slot store.maxSlot)) :
    (LeaderScheduleSync.mk store .lookup).getLeaderForSlotEnsureSynced slot = (⟨store, .epochInfo slot⟩, []) := by
  have same : store.leaders.get slot = (store.leaders, none) := by simp [Lru.get, missing]
  simp only [LeaderScheduleSync.getLeaderForSlotEnsureSynced, same, near, if_false]

/-- A lookup inside its retry loop, past the epoch info only where there is no schedule to follow. -/
def Asking (service : SteadyService) (slot : UInt64) (sync : LeaderScheduleSync) : Prop :=
  sync.awaits = .epochInfo slot ∨
    service.leaderSchedule slot = .ok none ∧ ∃ epochInfo, sync.awaits = .leaderSchedule slot epochInfo

variable [PubkeyText]

/-- Each call answered leads back into the loop. -/
theorem serve_asking (stuck : service.current < slot ∨ service.leaderSchedule slot = .ok none)
    (asking : Asking service slot sync) :
    Asking service slot (service.serve sync ()).1 ∧ (service.serve sync ()).2 = [] := by
  obtain ⟨store, awaits⟩ := sync
  obtain rfl | ⟨absent, info, rfl⟩ := asking
  · by_cases ahead : service.current < slot
    · simp [SteadyService.serve, Awaits.request, SteadyService.answer, ahead, LeaderScheduleSync.resume, Asking]
    · have absent := stuck.resolve_left ahead
      simp [SteadyService.serve, Awaits.request, SteadyService.answer, ahead, LeaderScheduleSync.resume, Asking, absent]
  · simp [SteadyService.serve, Awaits.request, SteadyService.answer, absent, LeaderScheduleSync.resume, Asking]

theorem run_asking (stuck : service.current < slot ∨ service.leaderSchedule slot = .ok none)
    (asking : Asking service slot sync) (calls : List Unit) : (run service.serve sync calls).2 = [] := by
  induction calls generalizing sync with
  | nil => rfl
  | cons call rest ih =>
    obtain ⟨still, silent⟩ := serve_asking stuck asking
    rw [run_cons, silent, ih still]
    rfl

/-- Two calls are enough where the service has an answer. -/
theorem run_answered (store : LeaderScheduleStore) (reached : slot ≤ service.current) (known : service.leaderSchedule slot ≠ .ok none) :
    ∃ leader, .returned leader ∈ (run service.serve ⟨store, .epochInfo slot⟩ (List.replicate 2 ())).2 := by
  have behind : ¬ service.current < slot := by
    rw [UInt64.lt_iff_toNat_lt]
    rw [UInt64.le_iff_toNat_le] at reached
    omega
  have first : service.serve ⟨store, .epochInfo slot⟩ () =
      (⟨store, .leaderSchedule slot (service.cluster.epochInfo service.current)⟩, []) := by
    simp [SteadyService.serve, Awaits.request, SteadyService.answer, behind, LeaderScheduleSync.resume]
  rw [List.replicate_succ, run_cons, first, List.replicate_one, run_cons, run_nil]
  cases schedule : service.leaderSchedule slot with
  | error failure =>
    refine ⟨none, ?_⟩
    simp [SteadyService.serve, Awaits.request, SteadyService.answer, schedule, LeaderScheduleSync.resume,
      LeaderScheduleSync.finish]
  | ok answer =>
    obtain _ | leaders := answer
    · exact absurd schedule known
    · simp [SteadyService.serve, Awaits.request, SteadyService.answer, schedule, LeaderScheduleSync.resume,
        LeaderScheduleSync.finish]

theorem lookupReturns_iff : service.LookupReturns store slot ↔ service.Answerable store slot := by
  by_cases cached : (store.leaders.peek slot).isSome
  · obtain ⟨leader, returned⟩ := lookup_cached cached
    refine ⟨fun _ => .inl cached, fun _ => ⟨0, leader, ?_⟩⟩
    simp [SteadyService.looked, returned]
  have missing : store.leaders.peek slot = none := by simpa using cached
  by_cases refused : saturatingSub slot store.maxSlot = 0 ∨ slotsPerEpoch < saturatingSub slot store.maxSlot
  · refine ⟨fun _ => .inr (or_assoc.mp (.inl refused)), fun _ => ⟨0, none, ?_⟩⟩
    simp [SteadyService.looked, lookup_refused missing refused]
  have asks := lookup_asks missing refused
  have answerable : service.Answerable store slot ↔
      slot ≤ service.current ∧ service.leaderSchedule slot ≠ .ok none := by
    rw [SteadyService.Answerable, ← or_assoc, ← or_assoc, or_iff_right]
    rw [not_or, not_or]
    exact ⟨⟨cached, fun old => refused (.inl old)⟩, fun new => refused (.inr new)⟩
  rw [answerable]
  constructor
  · rintro ⟨calls, leader, returned⟩
    by_contra stuck
    have either : service.current < slot ∨ service.leaderSchedule slot = .ok none := by
      by_cases ahead : service.current < slot
      · exact .inl ahead
      · exact .inr (by_contra fun known => stuck ⟨UInt64.not_lt.mp ahead, known⟩)
    rw [SteadyService.looked, asks] at returned
    simp only [List.nil_append] at returned
    rw [run_asking either (.inl rfl)] at returned
    cases returned
  · rintro ⟨reached, known⟩
    obtain ⟨leader, returned⟩ := run_answered store reached known
    refine ⟨2, leader, ?_⟩
    rw [SteadyService.looked, asks]
    exact returned

/-! ### The loop that feeds the processors -/

namespace PacketProcessorPool

omit [PubkeyText] in
theorem found_eq_none_iff {out : List Output} : found out = none ↔ ∀ leader, .returned leader ∉ out := by
  rw [found, List.findSome?_eq_none_iff]
  constructor
  · intro each leader member
    cases each _ member
  · intro silent output member
    cases output with
    | stored schedule start => rfl
    | returned leader => exact absurd member (silent leader)

omit [PubkeyText] in
/-- `enqueue` returns with its lookup and otherwise stays at the packet. -/
theorem settle_cases (pool : PacketProcessorPool) (shred : PacketInfo) (shredId : UInt32) (out : List Output) :
    ((∃ leader, .returned leader ∈ out) ∧ .done ∈ (pool.settle shred shredId out).2) ∨
      (∀ leader, .returned leader ∉ out) ∧
        pool.settle shred shredId out = ({ pool with handling := some (shred, shredId) }, []) := by
  unfold settle
  cases answer : found out with
  | none => exact .inr ⟨found_eq_none_iff.mp answer, rfl⟩
  | some leader =>
    left
    constructor
    · by_contra silent
      rw [found_eq_none_iff.mpr (not_exists.mp silent)] at answer
      cases answer
    · cases leader <;> exact List.mem_singleton.mpr rfl

theorem done_mem_run_iff {pool : PacketProcessorPool} {shred : PacketInfo} {shredId : UInt32}
    (handling : pool.handling = some (shred, shredId)) (calls : List Unit) :
    .done ∈ (run (serve service) pool calls).2 ↔
      ∃ leader, .returned leader ∈ (run service.serve pool.leaderSchedule calls).2 := by
  induction calls generalizing pool with
  | nil => simp
  | cons call rest ih =>
    have step : serve service pool call =
        { pool with leaderSchedule := (service.serve pool.leaderSchedule ()).1 }.settle shred shredId
          (service.serve pool.leaderSchedule ()).2 := by
      simp only [serve, handling]
    rw [run_cons, run_cons, step]
    obtain ⟨⟨leader, returned⟩, done⟩ | ⟨silent, same⟩ := settle_cases
      { pool with leaderSchedule := (service.serve pool.leaderSchedule ()).1 } shred shredId
      (service.serve pool.leaderSchedule ()).2
    · constructor
      · exact fun _ => ⟨leader, List.mem_append_left _ returned⟩
      · exact fun _ => List.mem_append_left _ done
    · rw [same, List.nil_append, ih rfl]
      simp [silent]

end PacketProcessorPool

theorem enqueueReturns_iff [ShredLayout] (senders : List (List (PacketInfo × Pubkey))) {shred : PacketInfo}
    (carries : ShredLayout.getSlot shred = some slot) :
    service.EnqueueReturns senders store shred ↔
      ShredLayout.getIndex shred = none ∨ service.LookupReturns store slot := by
  cases index : ShredLayout.getIndex shred with
  | none => simp [SteadyService.EnqueueReturns, PacketProcessorPool.enqueue, index]
  | some shredId =>
    simp only [SteadyService.EnqueueReturns, PacketProcessorPool.enqueue, index, carries, reduceCtorEq, false_or,
      SteadyService.LookupReturns, SteadyService.looked]
    obtain ⟨⟨leader, returned⟩, done⟩ | ⟨silent, same⟩ := PacketProcessorPool.settle_cases
      { senders, leaderSchedule := ((LeaderScheduleSync.mk store .lookup).getLeaderForSlotEnsureSynced slot).1, handling := none }
      shred shredId ((LeaderScheduleSync.mk store .lookup).getLeaderForSlotEnsureSynced slot).2
    · constructor
      · exact fun _ => ⟨0, leader, List.mem_append_left _ returned⟩
      · exact fun _ => ⟨0, List.mem_append_left _ done⟩
    · rw [same]
      refine exists_congr (fun calls => ?_)
      rw [List.nil_append, PacketProcessorPool.done_mem_run_iff rfl]
      simp [silent]

/-- While the service stays at its slot, a lookup returns exactly when its slot is cached, refused by the window or one
the service has come to and knows, or fails to find, the schedule of; and a packet keeps the filter until the lookup
of its slot returns. -/
theorem lookup_returns_iff_answerable [ShredLayout] (service : SteadyService) (store : LeaderScheduleStore) (slot : UInt64) :
    (service.LookupReturns store slot ↔ service.Answerable store slot) ∧
      ∀ senders shred, ShredLayout.getSlot shred = some slot →
        (service.EnqueueReturns senders store shred ↔
          ShredLayout.getIndex shred = none ∨ service.Answerable store slot) := by
  refine ⟨lookupReturns_iff, fun senders shred carries => ?_⟩
  rw [enqueueReturns_iff senders carries, lookupReturns_iff]

omit [PubkeyText]

/-- A node in the middle of the first epoch, with the schedules of the first two. -/
def earlyService : SteadyService where
  cluster := usualCluster
  current := 100
  leaderSchedule slot := .ok (if slot < 864000 then some (usualCluster.scheduleOf slot) else none)

/-- The last slot of the first epoch is known, and a packet names the slot after it. -/
theorem next_epoch_stalls :
    ¬ @SteadyService.LookupReturns earlyService base58Text (LeaderScheduleStore.new.push 431999 0) 432000 ∧
      ¬ @SteadyService.EnqueueReturns base58Text wireLayout earlyService [] (LeaderScheduleStore.new.push 431999 0)
        (wireShred ⟨.data, 432000, 0, 1, 0⟩ 0) := by
  have stuck : ¬ earlyService.Answerable (LeaderScheduleStore.new.push 431999 0) 432000 := by
    unfold SteadyService.Answerable
    rintro (cached | old | new | ⟨reached, -⟩)
    · revert cached
      decide
    · revert old
      decide
    · revert new
      decide
    · revert reached
      decide
  refine ⟨fun returns => stuck ((@lookupReturns_iff _ _ _ base58Text).mp returns), fun returns => ?_⟩
  have carries : wireLayout.getSlot (wireShred ⟨.data, 432000, 0, 1, 0⟩ 0) = some 432000 := by decide
  obtain none_there | returns := (@enqueueReturns_iff _ _ _ base58Text wireLayout _ _ carries).mp returns
  · revert none_there
    decide
  · exact stuck ((@lookupReturns_iff _ _ _ base58Text).mp returns)

end Lightbringer.LeaderSchedule
