import Lightbringer.Types
import Lightbringer.Lib.Shuffle

/-!
# The turbine tree

`overlay/turbine.rs`: whom a node passes a shred on to. Every node shuffles the identities it can reach by a hash
of the shred and the identity, and fans out from its own place in that order.
-/

namespace Lightbringer.Overlay

/-- The hashes the overlay takes with `DefaultHasher`, and the shred id `Shred::new_from_serialized_shred` reads. -/
class TurbineHash where
  shredId : List UInt8 → Option (UInt64 × UInt32)
  hashId : UInt64 → UInt32 → UInt64
  hashPayload : List UInt8 → UInt64
  hashNode : UInt64 → Pubkey → UInt64

/-- Every node hashes alike, so that the shuffle is the key order. -/
abbrev constantHash : TurbineHash where
  shredId _ := none
  hashId _ _ := 0
  hashPayload _ := 0
  hashNode _ _ := 0

structure TurbineTree where
  localPubkey : Pubkey
  fanout : Nat
  positive : 0 < fanout

def TurbineTree.new (localPubkey : Pubkey) (fanout : Nat) : TurbineTree where
  localPubkey := localPubkey
  fanout := max fanout 1
  positive := by omega

/-- `(start..len).step_by(step)`. -/
def stepBy (start len step : Nat) : List Nat := List.range' start ((len - start + step - 1) / step) step

def retransmitIndices (localIndex fanout nodeLen : Nat) : List Nat :=
  let offset := (localIndex - 1) % fanout
  let anchor := localIndex - offset
  let step := if localIndex = 0 then 1 else fanout
  (stepBy (anchor * fanout + offset + 1) nodeLen step).take fanout

section

variable [TurbineHash]

def shredSeed (payload : List UInt8) : UInt64 :=
  match TurbineHash.shredId payload with
  | some (slot, index) => TurbineHash.hashId slot index
  | none => TurbineHash.hashPayload payload

/-- The order of a set of identities for one shred. -/
def shuffled (payload : List UInt8) (nodes : List Pubkey) : List Pubkey :=
  Shuffle.shuffle BitVec.toNat (fun node => (TurbineHash.hashNode (shredSeed payload) node).toNat) nodes

namespace TurbineTree

variable (tree : TurbineTree)

def indexedTree (payload : List UInt8) (peers : List Pubkey) : Option (Nat × List Pubkey) :=
  let nodes := shuffled payload (tree.localPubkey :: peers.filter (· ≠ tree.localPubkey))
  (nodes.findIdx? (· = tree.localPubkey)).map (fun localIndex => (localIndex, nodes))

def retransmitPeers (payload : List UInt8) (peers : List Pubkey) : List Pubkey :=
  match tree.indexedTree payload peers with
  | none => []
  | some (localIndex, nodes) =>
    (retransmitIndices localIndex tree.fanout nodes.length).filterMap (fun index => nodes[index]?)

def originPeers (payload : List UInt8) (peers : List Pubkey) : List Pubkey :=
  match tree.indexedTree payload peers with
  | none => []
  | some (localIndex, nodes) =>
    if localIndex = 0 then
      (retransmitIndices 0 tree.fanout nodes.length).filterMap (fun index => nodes[index]?)
    else nodes.head?.toList

end TurbineTree

end

/-! ### The common order -/

theorem pubkey_key_injective : Function.Injective (BitVec.toNat : Pubkey → Nat) :=
  fun _ _ same => BitVec.eq_of_toNat_eq same

section

variable [TurbineHash] (payload : List UInt8)

theorem shuffled_nodup (nodes : List Pubkey) : (shuffled payload nodes).Nodup :=
  Shuffle.shuffle_nodup _ _ pubkey_key_injective _

@[simp] theorem mem_shuffled {nodes : List Pubkey} {v : Pubkey} : v ∈ shuffled payload nodes ↔ v ∈ nodes :=
  Shuffle.mem_shuffle _ _

/-- Two lists of the same identities are shuffled alike. -/
theorem shuffled_congr {nodes others : List Pubkey} (same : ∀ v, v ∈ nodes ↔ v ∈ others) :
    shuffled payload nodes = shuffled payload others :=
  Shuffle.shuffle_eq_of_before _ _ pubkey_key_injective
    (Shuffle.shuffle_pairwise _ _ pubkey_key_injective _) (fun v => (same v).trans (mem_shuffled payload).symm)

theorem getElem?_shuffled_iff {nodes : List Pubkey} {i : Nat} {v : Pubkey} :
    (shuffled payload nodes)[i]? = some v ↔ v ∈ nodes ∧ (shuffled payload nodes).idxOf v = i := by
  constructor
  · intro found
    refine ⟨(mem_shuffled payload).mp (List.mem_of_getElem? found), ?_⟩
    obtain ⟨bound, rfl⟩ := List.getElem?_eq_some_iff.mp found
    exact (shuffled_nodup payload nodes).idxOf_getElem i bound
  · rintro ⟨member, rfl⟩
    have inside : v ∈ shuffled payload nodes := (mem_shuffled payload).mpr member
    rw [List.getElem?_eq_getElem (List.idxOf_lt_length_iff.mpr inside)]
    exact congrArg some (List.getElem_idxOf _)

theorem indexedTree_eq {tree : TurbineTree} {peers nodes : List Pubkey} {i : Nat}
    (h : shuffled payload (tree.localPubkey :: peers.filter (· ≠ tree.localPubkey)) = nodes)
    (here : nodes[i]? = some tree.localPubkey) : tree.indexedTree payload peers = some (i, nodes) := by
  have unique : nodes.Nodup := h ▸ shuffled_nodup payload _
  obtain ⟨bound, at_i⟩ := List.getElem?_eq_some_iff.mp here
  have index : nodes.findIdx? (· = tree.localPubkey) = some i := by
    rw [List.findIdx?_eq_some_iff_getElem]
    refine ⟨bound, by simpa using at_i, ?_⟩
    intro j before
    have other : nodes[j] ≠ tree.localPubkey := by
      rw [← at_i]
      exact fun same => Nat.ne_of_lt before ((List.Nodup.getElem_inj_iff unique).mp same)
    simpa using other
  simp only [TurbineTree.indexedTree, h, index, Option.map_some]

/-- A view of all the other nodes is shuffled into the order of them all. -/
theorem indexedTree_full {tree : TurbineTree} {peers nodes : List Pubkey} (member : tree.localPubkey ∈ nodes)
    (full : ∀ w, w ∈ peers ↔ w ∈ nodes ∧ w ≠ tree.localPubkey) :
    tree.indexedTree payload peers =
      some ((shuffled payload nodes).idxOf tree.localPubkey, shuffled payload nodes) := by
  refine indexedTree_eq payload (shuffled_congr payload ?_) ((getElem?_shuffled_iff payload).mpr ⟨member, rfl⟩)
  intro w
  by_cases self : w = tree.localPubkey
  · simp [self, member]
  · simp [self, full]

end

/-! ### The tree of indices -/

theorem mem_take_stepBy {start len step count c : Nat} (positive : 0 < step) :
    c ∈ (stepBy start len step).take count ↔ ∃ k < count, c = start + step * k ∧ c < len := by
  have within : ∀ k, k < (len - start + step - 1) / step ↔ start + step * k < len := by
    intro k
    rw [Nat.lt_iff_add_one_le, Nat.le_div_iff_mul_le positive, Nat.add_mul, Nat.one_mul, Nat.mul_comm k step]
    omega
  rw [stepBy, List.mem_take_iff_getElem]
  simp only [List.length_range', List.getElem_range']
  constructor
  · rintro ⟨k, below, rfl⟩
    exact ⟨k, by omega, rfl, (within k).mp (by omega)⟩
  · rintro ⟨k, below, rfl, bound⟩
    have inside := (within k).mpr bound
    exact ⟨k, by omega, rfl⟩

/-- The index that passes a shred on to index `c`, for every `c` but the root. -/
def treeParent (fanout c : Nat) : Nat :=
  if c ≤ fanout then 0 else ((c - 1) / fanout - 1) / fanout * fanout + (c - 1) % fanout + 1

/-- Index `q * fanout + r + 1` passes on to `fanout` indices, `fanout` apart. -/
theorem treeParent_child {fanout q r k : Nat} (column : r < fanout) (below : k < fanout) :
    treeParent fanout ((q * fanout + 1) * fanout + r + 1 + fanout * k) = q * fanout + r + 1 := by
  have positive : 0 < fanout := by omega
  have large : ¬ (q * fanout + 1) * fanout + r + 1 + fanout * k ≤ fanout := by
    rw [Nat.add_mul]
    omega
  have split : (q * fanout + 1) * fanout + r + 1 + fanout * k - 1 = r + fanout * (q * fanout + k + 1) := by
    rw [Nat.mul_add, Nat.mul_add, Nat.mul_comm (q * fanout + 1) fanout, Nat.mul_add]
    omega
  rw [treeParent, if_neg large, split, Nat.add_mul_div_left _ _ positive, Nat.add_mul_mod_self_left,
    Nat.div_eq_of_lt column, Nat.mod_eq_of_lt column]
  have row : 0 + (q * fanout + k + 1) - 1 = k + fanout * q := by
    rw [Nat.mul_comm q fanout]
    omega
  rw [row, Nat.add_mul_div_left _ _ positive, Nat.div_eq_of_lt below, Nat.zero_add]

/-- Every index past the first layer has such a form. -/
theorem exists_child_form {fanout c : Nat} (positive : 0 < fanout) (large : fanout < c) :
    ∃ q r k, r < fanout ∧ k < fanout ∧ c = (q * fanout + 1) * fanout + r + 1 + fanout * k := by
  have first := Nat.div_add_mod (c - 1) fanout
  have second := Nat.div_add_mod ((c - 1) / fanout - 1) fanout
  have layer : 0 < (c - 1) / fanout := Nat.div_pos (by omega) positive
  refine ⟨((c - 1) / fanout - 1) / fanout, (c - 1) % fanout, ((c - 1) / fanout - 1) % fanout,
    Nat.mod_lt _ positive, Nat.mod_lt _ positive, ?_⟩
  generalize (c - 1) / fanout = row at *
  generalize (row - 1) / fanout = q at *
  generalize (row - 1) % fanout = k at *
  have expanded : fanout * row = (q * fanout + 1) * fanout + fanout * k := by
    rw [show row = fanout * q + k + 1 by omega, Nat.mul_add, Nat.mul_add, Nat.add_mul, Nat.mul_comm fanout q,
      Nat.mul_comm fanout (q * fanout)]
    omega
  omega

theorem treeParent_lt {fanout c : Nat} (positive : 0 < fanout) (root : 0 < c) : treeParent fanout c < c := by
  by_cases large : fanout < c
  · obtain ⟨q, r, k, column, below, rfl⟩ := exists_child_form positive large
    rw [treeParent_child column below]
    have grows : q * fanout ≤ (q * fanout) * fanout := Nat.le_mul_of_pos_right _ positive
    rw [Nat.add_mul]
    omega
  · rw [treeParent, if_pos (by omega)]
    exact root

/-- An index is passed on to by the index of its row and column alone. -/
theorem child_form_of_parent {fanout q r c : Nat} (column : r < fanout)
    (parent : treeParent fanout c = q * fanout + r + 1) :
    ∃ k < fanout, c = (q * fanout + 1) * fanout + r + 1 + fanout * k := by
  have positive : 0 < fanout := by omega
  have large : fanout < c := by
    by_contra small
    rw [treeParent, if_pos (by omega)] at parent
    omega
  obtain ⟨q', r', k, column', below, rfl⟩ := exists_child_form positive large
  rw [treeParent_child column' below] at parent
  have sum : r' + fanout * q' = r + fanout * q := by
    rw [Nat.mul_comm fanout q', Nat.mul_comm fanout q]
    omega
  have sameColumn : r' = r := by
    have mods := congrArg (· % fanout) sum
    simpa [Nat.mod_eq_of_lt column, Nat.mod_eq_of_lt column'] using mods
  have sameRow : q' = q := by
    subst sameColumn
    exact Nat.eq_of_mul_eq_mul_left positive (Nat.add_left_cancel sum)
  subst sameColumn sameRow
  exact ⟨k, below, rfl⟩

theorem treeParent_eq_zero {fanout c : Nat} : treeParent fanout c = 0 ↔ c ≤ fanout := by
  unfold treeParent
  split <;> omega

/-- A positive index in row and column form. -/
theorem row_column (fanout : Nat) {i : Nat} (root : 0 < i) :
    i = (i - 1) / fanout * fanout + (i - 1) % fanout + 1 := by
  have whole := Nat.div_add_mod (i - 1) fanout
  rw [Nat.mul_comm] at whole
  omega

theorem mem_retransmitIndices {i fanout n c : Nat} (positive : 0 < fanout) :
    c ∈ retransmitIndices i fanout n ↔ 0 < c ∧ c < n ∧ treeParent fanout c = i := by
  by_cases root : i = 0
  · subst root
    rw [retransmitIndices, if_pos rfl, mem_take_stepBy Nat.one_pos, treeParent_eq_zero]
    simp only [Nat.zero_sub, Nat.zero_mod, Nat.zero_mul, Nat.one_mul]
    constructor
    · rintro ⟨k, below, rfl, bound⟩
      omega
    · rintro ⟨above, bound, within⟩
      exact ⟨c - 1, by omega, by omega, bound⟩
  · obtain ⟨q, r, column, rfl⟩ : ∃ q r, r < fanout ∧ i = q * fanout + r + 1 :=
      ⟨_, _, Nat.mod_lt _ positive, row_column fanout (by omega)⟩
    have offset : (q * fanout + r + 1 - 1) % fanout = r := by
      rw [Nat.add_sub_cancel, Nat.mul_comm, Nat.mul_add_mod, Nat.mod_eq_of_lt column]
    have anchor : q * fanout + r + 1 - r = q * fanout + 1 := by omega
    rw [retransmitIndices, if_neg root, mem_take_stepBy positive]
    simp only [offset, anchor]
    constructor
    · rintro ⟨k, below, rfl, bound⟩
      exact ⟨by omega, bound, treeParent_child column below⟩
    · rintro ⟨above, bound, parent⟩
      obtain ⟨k, below, form⟩ := child_form_of_parent column parent
      exact ⟨k, below, form, bound⟩

/-- An index has children among the first `n` exactly if its first one is there. -/
theorem exists_child_iff {i fanout n : Nat} (positive : 0 < fanout) (root : 0 < i) :
    (∃ c, 0 < c ∧ c < n ∧ treeParent fanout c = i) ↔
      ((i - 1) / fanout * fanout + 1) * fanout + (i - 1) % fanout + 1 < n := by
  have column := Nat.mod_lt (i - 1) positive
  have form := row_column fanout root
  constructor
  · rintro ⟨c, _, bound, parent⟩
    rw [form] at parent
    obtain ⟨k, _, rfl⟩ := child_form_of_parent column parent
    omega
  · intro inside
    refine ⟨_, by omega, inside, ?_⟩
    have first := treeParent_child (q := (i - 1) / fanout) column positive
    rw [Nat.mul_zero, Nat.add_zero, ← form] at first
    exact first

end Lightbringer.Overlay
