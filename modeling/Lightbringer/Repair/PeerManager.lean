import Lightbringer.Lib.Lru
import Lightbringer.Lib.Machine
import Lightbringer.Repair.Messages

/-!
# Peers to ask for a repair

`SolanaRepairPeers` of `repair/peer_manager.rs` and `PeerSample::select_weighted` of `overlay/repair.rs`. The cluster's
list of a slot is cached when the slot is first asked about. A list that was empty then stays empty for the slot until
200 others have been asked about. The scores are floating point; what they are when a peer is selected is an input.
-/

namespace Lightbringer.Repair
open Machine

/-- The slice methods of `rand`. Weights that cannot be used choose nothing. -/
class SliceChoice (Rng Score : Type) where
  chooseWeighted : List RepairTarget → (RepairTarget → Score) → Rng → Option RepairTarget × Rng
  choose : List RepairTarget → Rng → Option RepairTarget × Rng
  chooseWeighted_mem : ∀ {targets weight rng target}, (chooseWeighted targets weight rng).1 = some target → target ∈ targets
  choose_mem : ∀ {targets rng target}, (choose targets rng).1 = some target → target ∈ targets
  choose_isSome : ∀ {targets rng}, targets ≠ [] → (choose targets rng).1.isSome = true

section
variable {Rng Score : Type} [SliceChoice Rng Score]

def RepairTarget.pubkey : RepairTarget → Pubkey
  | .udp _ pubkey => pubkey
  | .overlay pubkey => pubkey

/-- A weighted choice, or a uniform one where the weights cannot be used. -/
def selectWeighted (score : Pubkey → Score) (targets : List RepairTarget) (rng : Rng) : Option RepairTarget × Rng :=
  let (chosen, rng) := SliceChoice.chooseWeighted targets (fun target => score target.pubkey) rng
  match chosen with
  | some target => (some target, rng)
  | none => @SliceChoice.choose Rng Score _ targets rng

end

/-- What the source reads of a contact info. -/
structure ContactInfo where
  pubkey : Pubkey
  serveRepairUdp : Option SocketAddr
  deriving DecidableEq

structure SolanaRepairPeers (Rng : Type) where
  cache : Lru UInt64 (List (SocketAddr × Pubkey))
  rng : Rng

/-- A call of `sample_peer`, with what `ClusterInfo::repair_peers` gives for the slot at that time. -/
structure PeerCall (Score : Type) where
  slot : UInt64
  repairPeers : List ContactInfo
  score : Pubkey → Score

/-- The peers that can be asked over UDP. -/
def PeerCall.peers {Score : Type} (call : PeerCall Score) : List (SocketAddr × Pubkey) :=
  call.repairPeers.filterMap (fun ci => ci.serveRepairUdp.map (fun socket => (socket, ci.pubkey)))

def asTargets (peers : List (SocketAddr × Pubkey)) : List RepairTarget := peers.map (fun peer => .udp peer.1 peer.2)

namespace SolanaRepairPeers

variable {Rng Score : Type} [SliceChoice Rng Score]

def cacheSlots : Nat := 200

/-- What `clone` gives as well: the cache is not taken over. -/
def new (rng : Rng) : SolanaRepairPeers Rng := ⟨.new cacheSlots, rng⟩

/-- The targets of a slot, from the cache or from the cluster. -/
def targets (source : SolanaRepairPeers Rng) (call : PeerCall Score) :
    Lru UInt64 (List (SocketAddr × Pubkey)) × List RepairTarget :=
  match source.cache.get call.slot with
  | (cache, some cached) => (cache, asTargets cached)
  | (cache, none) => (cache.push call.slot call.peers, asTargets call.peers)

def samplePeer (source : SolanaRepairPeers Rng) (call : PeerCall Score) : SolanaRepairPeers Rng × Option RepairTarget :=
  let (cache, targets) := source.targets call
  let (target, rng) := selectWeighted call.score targets source.rng
  (⟨cache, rng⟩, target)

def step (source : SolanaRepairPeers Rng) (call : PeerCall Score) : SolanaRepairPeers Rng × List (Option RepairTarget) :=
  ((source.samplePeer call).1, [(source.samplePeer call).2])

end SolanaRepairPeers

/-! ### What is selected -/

section
variable {Rng Score : Type} [SliceChoice Rng Score] {score : Pubkey → Score} {targets : List RepairTarget} {rng : Rng}

theorem mem_of_selectWeighted {target : RepairTarget} (selected : (selectWeighted score targets rng).1 = some target) :
    target ∈ targets := by
  unfold selectWeighted at selected
  dsimp only at selected
  split at selected
  next chosen => exact SliceChoice.chooseWeighted_mem (chosen.trans selected)
  next => exact SliceChoice.choose_mem selected

theorem selectWeighted_isSome_iff : (selectWeighted score targets rng).1.isSome = true ↔ targets ≠ [] := by
  constructor
  · rintro some rfl
    obtain ⟨target, selected⟩ := Option.isSome_iff_exists.mp some
    exact List.not_mem_nil (mem_of_selectWeighted selected)
  · intro nonempty
    unfold selectWeighted
    dsimp only
    split
    · rfl
    · exact SliceChoice.choose_isSome nonempty

end

namespace SolanaRepairPeers

variable {Rng Score : Type} [SliceChoice Rng Score] {source : SolanaRepairPeers Rng} {call : PeerCall Score}
  {seen : List (PeerCall Score)}

omit [SliceChoice Rng Score] in
theorem targets_eq (source : SolanaRepairPeers Rng) (call : PeerCall Score) :
    (source.targets call).2 = asTargets ((source.cache.peek call.slot).getD call.peers) := by
  unfold targets
  rw [← Lru.get_value]
  split
  next found => rw [found]; rfl
  next missing => rw [missing]; rfl

/-- Every cached list is what some call found listed for its slot. -/
def Listed (source : SolanaRepairPeers Rng) (seen : List (PeerCall Score)) : Prop :=
  ∀ slot peers, (slot, peers) ∈ source.cache.entries → ∃ call ∈ seen, call.slot = slot ∧ call.peers = peers

omit [SliceChoice Rng Score] in
theorem listed_new (rng : Rng) : (new rng).Listed ([] : List (PeerCall Score)) := nofun

theorem listed_samplePeer (held : source.Listed seen) (call : PeerCall Score) :
    (source.samplePeer call).1.Listed (seen ++ [call]) := by
  have kept : ∀ slot peers, (slot, peers) ∈ (source.cache.get call.slot).1.entries →
      ∃ call' ∈ seen ++ [call], call'.slot = slot ∧ call'.peers = peers := by
    intro slot peers member
    obtain ⟨earlier, there, same⟩ := held slot peers (Lru.mem_of_mem_get member)
    exact ⟨earlier, List.mem_append_left _ there, same⟩
  intro slot peers member
  unfold samplePeer targets at member
  dsimp only at member
  split at member
  next cache cached found =>
    refine kept slot peers ?_
    rw [found]
    exact member
  next cache missing =>
    rcases Lru.mem_of_mem_push member with fresh | old
    · cases fresh
      exact ⟨call, by simp, rfl, rfl⟩
    · refine kept slot peers ?_
      rw [missing]
      exact old

theorem target_listed (held : source.Listed seen) {target : RepairTarget}
    (sampled : (source.samplePeer call).2 = some target) :
    ∃ earlier ∈ seen ++ [call], earlier.slot = call.slot ∧ target ∈ asTargets earlier.peers := by
  have member : target ∈ (source.targets call).2 := mem_of_selectWeighted sampled
  rw [targets_eq] at member
  cases found : source.cache.peek call.slot with
  | none =>
    rw [found] at member
    exact ⟨call, by simp, rfl, member⟩
  | some cached =>
    rw [found] at member
    obtain ⟨earlier, there, same, peers⟩ := held call.slot cached (Lru.mem_of_peek found)
    exact ⟨earlier, List.mem_append_left _ there, same, peers ▸ member⟩

/-- An empty list is not kept for a slot that has peers by now. -/
def Refreshed (source : SolanaRepairPeers Rng) (call : PeerCall Score) : Prop :=
  call.peers ≠ [] → source.cache.peek call.slot ≠ some []

theorem samplePeer_isSome_iff (source : SolanaRepairPeers Rng) (call : PeerCall Score) :
    (call.peers ≠ [] → (source.samplePeer call).2.isSome = true) ↔ source.Refreshed call := by
  refine forall_congr' (fun listed => ?_)
  have selected : (source.samplePeer call).2.isSome = true ↔ (source.targets call).2 ≠ [] := selectWeighted_isSome_iff
  rw [selected, targets_eq]
  cases source.cache.peek call.slot with
  | none => simp [asTargets, listed]
  | some cached => simp [asTargets]

/-- Every call that finds a peer listed selects one, and whatever is selected was listed for the slot. -/
structure NeverStuck (source : SolanaRepairPeers Rng) (calls : List (PeerCall Score)) : Prop where
  selects : ∀ earlier call later, calls = earlier ++ call :: later → call.peers ≠ [] →
    ((run step source earlier).1.samplePeer call).2.isSome = true
  listed : ∀ earlier call later, calls = earlier ++ call :: later → ∀ target,
    ((run step source earlier).1.samplePeer call).2 = some target →
      ∃ seen ∈ earlier ++ [call], seen.slot = call.slot ∧ target ∈ asTargets seen.peers

theorem listed_run (rng : Rng) (calls : List (PeerCall Score)) : (run step (new rng) calls).1.Listed calls :=
  run_history (P := fun seen (source : SolanaRepairPeers Rng) _ => source.Listed seen) (listed_new rng)
    (fun _ _ _ call held _ => listed_samplePeer held call) calls (meets_true calls)

/-- Sampling gets stuck exactly on a list that was empty when it was cached. -/
theorem never_stuck_iff (rng : Rng) (calls : List (PeerCall Score)) :
    NeverStuck (new rng) calls ↔ Meets step Refreshed (new rng) calls := by
  rw [meets_iff_prefixes]
  constructor
  · intro sampled earlier call later split
    exact (samplePeer_isSome_iff _ call).mp (sampled.selects earlier call later split)
  · intro refreshed
    refine ⟨fun earlier call later split => ?_, fun earlier call later split target sampled => ?_⟩
    · exact (samplePeer_isSome_iff _ call).mpr (refreshed earlier call later split)
    · exact target_listed (listed_run rng earlier) sampled

/-! ### A slot that was asked about early -/

/-- The weights are of no use, and the first target is as good as any. -/
abbrev firstTarget : SliceChoice Unit Unit where
  chooseWeighted _ _ rng := (none, rng)
  choose targets rng := (targets.head?, rng)
  chooseWeighted_mem := nofun
  choose_mem chosen := List.mem_of_head? chosen
  choose_isSome nonempty := by simpa using nonempty

/-- Gossip has nothing yet, and then it has a peer. -/
def earlyCalls : List (PeerCall Unit) :=
  [⟨5, [], fun _ => ()⟩, ⟨5, [⟨3, some ⟨.v4 0xC6336401, 8008⟩⟩], fun _ => ()⟩]

theorem early_slot_has_no_peers :
    (@run _ _ _ (@step Unit Unit firstTarget) (new ()) earlyCalls).2 = [none, none] ∧
      ¬ ∀ (choice : SliceChoice Unit Unit) calls, @NeverStuck Unit Unit choice (new ()) calls := by
  refine ⟨by decide +kernel, fun all => ?_⟩
  have selected : (@samplePeer Unit Unit firstTarget (@run _ _ _ (@step Unit Unit firstTarget) (new ())
      (earlyCalls.take 1)).1 ⟨5, [⟨3, some ⟨.v4 0xC6336401, 8008⟩⟩], fun _ => ()⟩).2.isSome = true :=
    @NeverStuck.selects Unit Unit firstTarget _ _ (all firstTarget earlyCalls) (earlyCalls.take 1) _ [] rfl (by decide)
  exact absurd selected (by decide +kernel)

end SolanaRepairPeers

end Lightbringer.Repair
