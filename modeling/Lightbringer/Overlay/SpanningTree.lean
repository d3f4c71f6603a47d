import Lightbringer.Overlay.Dissemination

/-!
# The tree of one shred

What the fan-outs of all nodes add up to when every node knows all the others: one tree over the shuffle.
-/

namespace Lightbringer.Overlay
open Relation

/-- Senders and receivers form a tree that grows along an order, rooted at its first element. -/
structure SpanningTree {α : Type*} [DecidableEq α] (order : List α) (sends : α → List α) (fanout : Nat) : Prop where
  inside : ∀ n ∈ order, ∀ v ∈ sends n, v ∈ order
  root : ∀ n ∈ order, ∀ v ∈ sends n, order.head? ≠ some v
  parent : ∀ v ∈ order, order.head? ≠ some v → ∃! n, n ∈ order ∧ v ∈ sends n
  forward : ∀ n ∈ order, ∀ v ∈ sends n, order.idxOf n < order.idxOf v
  once : ∀ n ∈ order, (sends n).Nodup
  narrow : ∀ n ∈ order, (sends n).length ≤ fanout

/-- Going from a node to its sender again and again ends at the root. -/
theorem SpanningTree.reaches {α : Type*} [DecidableEq α] {order : List α} {sends : α → List α} {fanout : Nat}
    (tree : SpanningTree order sends fanout) {root : α} (first : order.head? = some root) :
    ∀ v ∈ order, ReflTransGen (fun n w => n ∈ order ∧ w ∈ sends n) root v := by
  intro v member
  induction place : order.idxOf v using Nat.strongRecOn generalizing v with
  | ind i ih =>
    by_cases here : order.head? = some v
    · obtain rfl : root = v := Option.some.inj (first.symm.trans here)
      exact .refl
    · obtain ⟨n, ⟨known, sent⟩, _⟩ := tree.parent v member here
      have before := tree.forward n known v sent
      have above := ih (order.idxOf n) (by omega) n known rfl
      exact above.tail ⟨known, sent⟩

theorem retransmitIndices_nodup {fanout : Nat} (positive : 0 < fanout) (i n : Nat) :
    (retransmitIndices i fanout n).Nodup := by
  have step : 0 < if i = 0 then 1 else fanout := by split <;> omega
  exact (List.nodup_range' _ step).sublist (List.take_sublist _ _)

namespace TurbineTree

variable [TurbineHash] (payload : List UInt8) {tree : TurbineTree} {nodes peers : List Pubkey}

/-- In the places of the shuffle a node sends to its children in the tree of indices. -/
theorem retransmitPeers_full (member : tree.localPubkey ∈ nodes)
    (full : ∀ w, w ∈ peers ↔ w ∈ nodes ∧ w ≠ tree.localPubkey) :
    tree.retransmitPeers payload peers =
      (retransmitIndices ((shuffled payload nodes).idxOf tree.localPubkey) tree.fanout
        (shuffled payload nodes).length).filterMap (fun index => (shuffled payload nodes)[index]?) := by
  simp only [retransmitPeers, indexedTree_full payload member full]

theorem mem_retransmitPeers_full (member : tree.localPubkey ∈ nodes)
    (full : ∀ w, w ∈ peers ↔ w ∈ nodes ∧ w ≠ tree.localPubkey) (v : Pubkey) :
    v ∈ tree.retransmitPeers payload peers ↔
      v ∈ nodes ∧ 0 < (shuffled payload nodes).idxOf v ∧
        treeParent tree.fanout ((shuffled payload nodes).idxOf v) =
          (shuffled payload nodes).idxOf tree.localPubkey := by
  simp only [retransmitPeers_full payload member full, List.mem_filterMap, mem_retransmitIndices tree.positive,
    getElem?_shuffled_iff]
  constructor
  · rintro ⟨c, ⟨above, _, parent⟩, known, rfl⟩
    exact ⟨known, above, parent⟩
  · rintro ⟨known, above, parent⟩
    have bound := List.idxOf_lt_length_iff.mpr ((mem_shuffled payload).mpr known)
    exact ⟨_, ⟨above, bound, parent⟩, known, rfl⟩

theorem retransmitPeers_nodup (member : tree.localPubkey ∈ nodes)
    (full : ∀ w, w ∈ peers ↔ w ∈ nodes ∧ w ≠ tree.localPubkey) :
    (tree.retransmitPeers payload peers).Nodup := by
  rw [retransmitPeers_full payload member full]
  refine List.Nodup.filterMap ?_ (retransmitIndices_nodup tree.positive _ _)
  intro i j v left right
  obtain ⟨_, first⟩ := (getElem?_shuffled_iff payload).mp left
  obtain ⟨_, second⟩ := (getElem?_shuffled_iff payload).mp right
  exact first.symm.trans second

theorem length_retransmitPeers_le (tree : TurbineTree) (peers : List Pubkey) :
    (tree.retransmitPeers payload peers).length ≤ tree.fanout := by
  unfold retransmitPeers
  split
  · exact Nat.zero_le _
  · refine (List.length_filterMap_le _ _).trans ?_
    exact List.length_take_le _ _

/-- The fan-out depends on which identities the peer list names, not on how it lists them. -/
theorem retransmitPeers_congr (tree : TurbineTree) {peers others : List Pubkey} (same : ∀ w, w ∈ peers ↔ w ∈ others) :
    tree.retransmitPeers payload peers = tree.retransmitPeers payload others := by
  have trees : tree.indexedTree payload peers = tree.indexedTree payload others := by
    unfold indexedTree
    have alike : ∀ w, w ∈ tree.localPubkey :: peers.filter (· ≠ tree.localPubkey) ↔
        w ∈ tree.localPubkey :: others.filter (· ≠ tree.localPubkey) := by
      intro w
      simp only [List.mem_cons, List.mem_filter, same]
    rw [shuffled_congr payload alike]
  rw [retransmitPeers, trees, retransmitPeers]

end TurbineTree

section

variable [TurbineHash] (payload : List UInt8) {nodes : List Pubkey}

theorem head_shuffled_iff (v : Pubkey) :
    (shuffled payload nodes).head? = some v ↔ v ∈ nodes ∧ (shuffled payload nodes).idxOf v = 0 := by
  rw [List.head?_eq_getElem?, getElem?_shuffled_iff]

/-- The one node that sends to `v` stands at the parent of its place. -/
theorem exists_parent (fanout : Nat) (positive : 0 < fanout) {v : Pubkey} (member : v ∈ nodes)
    (below : 0 < (shuffled payload nodes).idxOf v) :
    ∃ n ∈ nodes, (shuffled payload nodes).idxOf n = treeParent fanout ((shuffled payload nodes).idxOf v) := by
  have bound := List.idxOf_lt_length_iff.mpr ((mem_shuffled payload).mpr member)
  have inside := (treeParent_lt positive below).trans bound
  have found := (getElem?_shuffled_iff payload).mp (List.getElem?_eq_getElem inside)
  exact ⟨_, found⟩

/-- Over any set of nodes that all see each other the fan-outs for a shred form one tree over the shuffle, which
reaches every node from the first, and no node's part depends on how its peer list is written down. -/
theorem turbine_spanning_tree (nodes : List Pubkey) {fanout : Nat} (positive : 1 ≤ fanout) (view : Pubkey → List Pubkey)
    (full : ∀ n ∈ nodes, ∀ w, w ∈ view n ↔ w ∈ nodes ∧ w ≠ n) :
    let sends := fun n => (TurbineTree.new n fanout).retransmitPeers payload (view n)
    SpanningTree (shuffled payload nodes) sends fanout ∧
      (∀ root, (shuffled payload nodes).head? = some root → ∀ v ∈ nodes,
        ReflTransGen (fun n w => n ∈ nodes ∧ w ∈ sends n) root v) ∧
      ∀ n peers, (∀ w, w ∈ peers ↔ w ∈ view n) →
        (TurbineTree.new n fanout).retransmitPeers payload peers = sends n := by
  intro sends
  have width : ∀ n, (TurbineTree.new n fanout).fanout = fanout := fun n => Nat.max_eq_left positive
  have targets : ∀ n ∈ nodes, ∀ v, v ∈ sends n ↔
      v ∈ nodes ∧ 0 < (shuffled payload nodes).idxOf v ∧
        treeParent fanout ((shuffled payload nodes).idxOf v) = (shuffled payload nodes).idxOf n := by
    intro n known v
    have own : (TurbineTree.new n fanout).localPubkey ∈ nodes := known
    have iff := TurbineTree.mem_retransmitPeers_full payload own (full n known) v
    rwa [width n] at iff
  have tree : SpanningTree (shuffled payload nodes) sends fanout := by
    constructor
    case inside =>
      intro n known v sent
      rw [mem_shuffled] at known ⊢
      exact ((targets n known v).mp sent).1
    case root =>
      intro n known v sent first
      obtain ⟨_, place⟩ := (head_shuffled_iff payload v).mp first
      obtain ⟨_, below, _⟩ := (targets n ((mem_shuffled payload).mp known) v).mp sent
      omega
    case parent =>
      intro v member other
      rw [mem_shuffled] at member
      have below : 0 < (shuffled payload nodes).idxOf v :=
        Nat.pos_of_ne_zero (fun place => other ((head_shuffled_iff payload v).mpr ⟨member, place⟩))
      obtain ⟨n, known, place⟩ := exists_parent payload fanout positive member below
      refine ⟨n, ⟨(mem_shuffled payload).mpr known, (targets n known v).mpr ⟨member, below, place.symm⟩⟩, ?_⟩
      rintro m ⟨listed, sent⟩
      rw [mem_shuffled] at listed
      obtain ⟨_, _, also⟩ := (targets m listed v).mp sent
      have here := (getElem?_shuffled_iff payload).mpr ⟨known, place⟩
      rw [(getElem?_shuffled_iff payload).mpr ⟨listed, also.symm⟩] at here
      exact Option.some.inj here
    case forward =>
      intro n known v sent
      obtain ⟨_, below, place⟩ := (targets n ((mem_shuffled payload).mp known) v).mp sent
      rw [← place]
      exact treeParent_lt positive below
    case once =>
      intro n known
      rw [mem_shuffled] at known
      have own : (TurbineTree.new n fanout).localPubkey ∈ nodes := known
      exact TurbineTree.retransmitPeers_nodup payload own (full n known)
    case narrow =>
      intro n _
      have short := TurbineTree.length_retransmitPeers_le payload (.new n fanout) (view n)
      rwa [width n] at short
  refine ⟨tree, ?_, fun n peers same => TurbineTree.retransmitPeers_congr payload _ same⟩
  intro root first v member
  have path := tree.reaches first v ((mem_shuffled payload).mpr member)
  simpa only [mem_shuffled] using path

end

/-- Four nodes in key order under a fanout of two; every node's list of the others is out of order and repeats one. -/
theorem turbine_spanning_tree_four :
    SpanningTree (@shuffled constantHash [7] [1, 2, 3, 4])
      (fun n => @TurbineTree.retransmitPeers constantHash (TurbineTree.new n 2) [7] ([4, 2, 3, 1, 2].filter (· ≠ n)))
      2 :=
  (@turbine_spanning_tree constantHash [7] [1, 2, 3, 4] 2 (by decide) (fun n => [4, 2, 3, 1, 2].filter (· ≠ n))
    (by
      intro n _ w
      simp only [List.mem_filter, List.mem_cons, List.not_mem_nil, or_false, decide_eq_true_eq]
      tauto)).1

end Lightbringer.Overlay
