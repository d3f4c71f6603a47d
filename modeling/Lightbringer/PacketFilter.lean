import Lightbringer.Shred
import Lightbringer.Lib.Machine

/-!
# The packet filter

`packet_filter.rs`: of all packets received, those that the leader of their slot has signed go on to the overlay and to
the slot metadata. `solana_ledger::shred::wire` and the signature check are outside the repository.
-/

namespace Lightbringer
open Machine

class ShredWire where
  getSignature : PacketInfo → Option (List UInt8)
  getMerkleRoot : PacketInfo → Option Hash
  /-- `Signature::verify`. -/
  verify : List UInt8 → Pubkey → Hash → Bool

/-- A Merkle root is only found for a data shred that does not come before its FEC set. -/
def ShredWire.Positioned [ShredLayout] [ShredWire] : Prop :=
  ∀ packet hdr root, ShredLayout.commonHeader packet = some hdr → ShredWire.getMerkleRoot packet = some root →
    hdr.shredVariant = .data → hdr.fecSetIndex ≤ hdr.index

abbrev SigCacheKey := List UInt8 × Pubkey × Hash

structure PacketProcessor where
  sigCache : List SigCacheKey

inductive PacketSent where
  | overlayTx (packet : PacketInfo)
  | metaTx (packet : PacketInfo)
  deriving DecidableEq

namespace PacketProcessor

variable [ShredWire]

/-- A full cache gives up other keys for a new one: `keeps` tells which remain. -/
def validatePacket (processor : PacketProcessor) (keeps : SigCacheKey → Bool) (packet : PacketInfo) (leader : Pubkey) :
    PacketProcessor × Bool :=
  match ShredWire.getSignature packet, ShredWire.getMerkleRoot packet with
  | some sig, some data =>
    if (sig, leader, data) ∈ processor.sigCache then (processor, true)
    else if ShredWire.verify sig leader data then
      ({ sigCache := (sig, leader, data) :: processor.sigCache.filter keeps }, true)
    else (processor, false)
  | _, _ => (processor, false)

/-- `overlay` tells whether there is an overlay. A full or closed channel only loses the packet. -/
def filterPacket (processor : PacketProcessor) (keeps : SigCacheKey → Bool) (overlay : Bool) (packet : PacketInfo)
    (leader : Pubkey) : PacketProcessor × List PacketSent :=
  let (processor, valid) := processor.validatePacket keeps packet leader
  (processor, if valid then (if overlay then [.overlayTx packet] else []) ++ [.metaTx packet] else [])

/-- The leader has signed the Merkle root of the packet. -/
def Signed (packet : PacketInfo) (leader : Pubkey) : Prop :=
  ∃ sig data, ShredWire.getSignature packet = some sig ∧ ShredWire.getMerkleRoot packet = some data ∧
    ShredWire.verify sig leader data = true

/-- What is cached has been verified. -/
def Verified (processor : PacketProcessor) : Prop :=
  ∀ sig leader data, (sig, leader, data) ∈ processor.sigCache → ShredWire.verify sig leader data = true

theorem validatePacket_spec {processor : PacketProcessor} (verified : processor.Verified) (keeps : SigCacheKey → Bool)
    (packet : PacketInfo) (leader : Pubkey) :
    (processor.validatePacket keeps packet leader).1.Verified ∧
      ((processor.validatePacket keeps packet leader).2 = true ↔ Signed packet leader) := by
  unfold validatePacket Signed
  cases signature : ShredWire.getSignature packet with
  | none => exact ⟨verified, by simp⟩
  | some sig =>
    cases root : ShredWire.getMerkleRoot packet with
    | none => exact ⟨verified, by simp⟩
    | some data =>
      have signed : (∃ sig' data', some sig = some sig' ∧ some data = some data' ∧ ShredWire.verify sig' leader data' = true) ↔
          ShredWire.verify sig leader data = true := by simp
      rw [signed]
      dsimp only
      split
      next cached => exact ⟨verified, by simp [verified sig leader data cached]⟩
      split
      next valid =>
        refine ⟨?_, by simp [valid]⟩
        intro sig' leader' data' member
        obtain same | earlier := List.mem_cons.mp member
        · cases same
          exact valid
        · exact verified sig' leader' data' (List.mem_filter.mp earlier).1
      next invalid => exact ⟨verified, by simp [invalid]⟩

theorem mem_filterPacket {processor : PacketProcessor} (verified : processor.Verified) (keeps : SigCacheKey → Bool)
    (overlay : Bool) (packet other : PacketInfo) (leader : Pubkey) :
    .metaTx other ∈ (processor.filterPacket keeps overlay packet leader).2 ↔ other = packet ∧ Signed packet leader := by
  have valid := (validatePacket_spec verified keeps packet leader).2
  unfold filterPacket
  rw [← valid]
  dsimp only
  cases (processor.validatePacket keeps packet leader).2 <;> cases overlay <;> simp

end PacketProcessor

/-! ### The pool -/

/-- A packet with what the leader schedule answers for its slot. -/
structure Queued where
  packet : PacketInfo
  leader : Option Pubkey
  keeps : SigCacheKey → Bool

structure PacketProcessorPool where
  overlay : Bool
  processors : List PacketProcessor

namespace PacketProcessorPool

/-- `PACKET_PROCESSOR_THREADS` processors, none of which has seen a signature. -/
def new (overlay : Bool) : PacketProcessorPool := ⟨overlay, List.replicate 4 ⟨[]⟩⟩

variable [ShredLayout] [ShredWire]

/-- `enqueue`, then the thread the packet is sent to. -/
def enqueue (pool : PacketProcessorPool) (queued : Queued) : PacketProcessorPool × List PacketSent :=
  match ShredLayout.getIndex queued.packet, ShredLayout.getSlot queued.packet, queued.leader with
  | some shredId, some _, some leader =>
    let thread := shredId.toNat % pool.processors.length
    match pool.processors[thread]? with
    | none => (pool, [])
    | some processor =>
      let (processor, out) := processor.filterPacket queued.keeps pool.overlay queued.packet leader
      ({ pool with processors := pool.processors.set thread processor }, out)
  | _, _, _ => (pool, [])

/-- Everything the pool lets through, when it is handed these packets. -/
def letThrough (overlay : Bool) (queue : List Queued) : List PacketSent := (run enqueue (new overlay) queue).2

/-- What is needed to get through. -/
def Admissible (queued : Queued) : Prop :=
  (ShredLayout.getIndex queued.packet).isSome ∧ (ShredLayout.getSlot queued.packet).isSome ∧
    ∃ leader, queued.leader = some leader ∧ PacketProcessor.Signed queued.packet leader

structure Sound (pool : PacketProcessorPool) : Prop where
  threads : pool.processors.length = 4
  verified : ∀ processor ∈ pool.processors, processor.Verified

omit [ShredLayout] in
theorem sound_new (overlay : Bool) : (new overlay).Sound := by
  refine ⟨rfl, ?_⟩
  intro processor member
  rw [List.eq_of_mem_replicate member]
  intro _ _ _ cached
  cases cached

theorem enqueue_spec {pool : PacketProcessorPool} (sound : pool.Sound) (queued : Queued) :
    (pool.enqueue queued).1.Sound ∧ ∀ packet, .metaTx packet ∈ (pool.enqueue queued).2 ↔
      packet = queued.packet ∧ Admissible queued := by
  unfold enqueue Admissible
  cases index : ShredLayout.getIndex queued.packet with
  | none => exact ⟨sound, by simp⟩
  | some shredId =>
    cases slot : ShredLayout.getSlot queued.packet with
    | none => exact ⟨sound, by simp⟩
    | some _ =>
      cases schedule : queued.leader with
      | none => exact ⟨sound, by simp⟩
      | some leader =>
        dsimp only
        have chosen : shredId.toNat % pool.processors.length < pool.processors.length :=
          Nat.mod_lt _ (by rw [sound.threads]; exact Nat.succ_pos 3)
        rw [List.getElem?_eq_getElem chosen]
        have verified := sound.verified _ (List.getElem_mem chosen)
        refine ⟨⟨?_, ?_⟩, ?_⟩
        · simp [sound.threads]
        · intro processor member
          obtain earlier | rfl := List.mem_or_eq_of_mem_set member
          · exact sound.verified processor earlier
          · exact (PacketProcessor.validatePacket_spec verified queued.keeps queued.packet leader).1
        · intro packet
          rw [PacketProcessor.mem_filterPacket verified]
          simp

/-- A packet reaches the slot metadata iff the leader of its slot has signed it. -/
theorem mem_letThrough (overlay : Bool) (queue : List Queued) (packet : PacketInfo) :
    .metaTx packet ∈ letThrough overlay queue ↔ ∃ queued ∈ queue, queued.packet = packet ∧ Admissible queued := by
  have spec : (run enqueue (new overlay) queue).1.Sound ∧ ∀ packet,
      .metaTx packet ∈ (run enqueue (new overlay) queue).2 ↔
        ∃ queued ∈ queue, queued.packet = packet ∧ Admissible queued := by
    refine run_history (P := fun queue (pool : PacketProcessorPool) out => pool.Sound ∧ ∀ packet, PacketSent.metaTx packet ∈ out ↔
      ∃ queued ∈ queue, queued.packet = packet ∧ Admissible queued) ?_ ?_ queue (meets_true queue)
    · exact ⟨sound_new overlay, by simp⟩
    · intro before pool out queued held _
      obtain ⟨sound, emitted⟩ := enqueue_spec held.1 queued
      refine ⟨sound, fun packet => ?_⟩
      rw [List.mem_append, held.2, emitted]
      simp only [List.mem_append, List.mem_singleton, or_and_right, exists_or, exists_eq_left]
      exact or_congr_right (and_congr_left' eq_comm)
  exact spec.2 packet

end PacketProcessorPool

end Lightbringer
