import Lightbringer.Overlay.Relay
import Lightbringer.Lib.Flood
import Lightbringer.Lib.Machine

/-!
# How far a shred gets

A mesh of connected relays that share one set of usable peers, and one shred injected at one of them. The origin's
hand-off and the relays' fan-out, taken together, are a flood along a relation between places in the shuffle.
-/

namespace Lightbringer.Overlay
open Machine Flood Relation

/-- Pairwise connected nodes that all see each other, and nobody else, as usable. -/
structure Mesh where
  nodes : List Pubkey
  fanout : Nat
  view : Pubkey → PeerView
  connected : ∀ v ∈ nodes, ∀ w ∈ nodes, w ≠ v →
    ∃ addr, (view v).connectionAddr w = some addr ∧ (view v).quarantined addr = false
  shared : ∀ v ∈ nodes, ∀ w, w ∈ (view v).usablePeers v none ↔ w ∈ nodes ∧ w ≠ v

structure ShredFrame where
  src : Pubkey
  dst : Pubkey
  payload : List UInt8

structure Net where
  relay : Pubkey → ShredRelay
  inFlight : List ShredFrame

/-- A packet handed to the shred filter of a node. -/
structure Filtered where
  node : Pubkey
  packet : PacketInfo
  deriving DecidableEq

namespace Mesh

variable [TurbineHash] (mesh : Mesh)

/-- The frames that leave a node over established connections. -/
def sends (src : Pubkey) (payload : List UInt8) (targets : List Pubkey) : List ShredFrame :=
  targets.filterMap (fun dst =>
    match (mesh.view src).route dst with
    | .connection _ => some ⟨src, dst, payload⟩
    | _ => none)

def inject (relay : Pubkey → ShredRelay) (origin : Pubkey) (packet : PacketInfo) : Net :=
  let relayed := (relay origin).onSourcePacket (mesh.view origin) packet
  { relay := Function.update relay origin relayed.relay
    inFlight := mesh.sends origin packet.bytes relayed.targets }

/-- Deliver the `i`-th frame in flight. -/
def deliver (net : Net) (i : Nat) : Net × List Filtered :=
  match net.inFlight[i]? with
  | none => (net, [])
  | some frame =>
    let relayed := (net.relay frame.dst).handleShred (mesh.view frame.dst) (some frame.src) frame.payload
    ({ relay := Function.update net.relay frame.dst relayed.relay
       inFlight := net.inFlight.eraseIdx i ++ mesh.sends frame.dst frame.payload relayed.targets },
      relayed.shredForFilter.toList.map (Filtered.mk frame.dst))

/-- One shred injected at `origin` and the frames delivered in the order of `schedule`. -/
def disseminate (relay : Pubkey → ShredRelay) (origin : Pubkey) (packet : PacketInfo) (schedule : List Nat) :
    Net × List Filtered :=
  run mesh.deliver (mesh.inject relay origin packet) schedule

/-- Relays that belong to the nodes of the mesh. -/
structure Wired (relay : Pubkey → ShredRelay) : Prop where
  identity : ∀ v ∈ mesh.nodes, (relay v).tree.localPubkey = v
  fanout : ∀ v ∈ mesh.nodes, (relay v).tree.fanout = mesh.fanout
  capacity : ∀ v ∈ mesh.nodes, (relay v).seenShreds.capacity = seenShredsCapacity

/-- They have not seen the payload yet. -/
structure Ready (relay : Pubkey → ShredRelay) (payload : List UInt8) : Prop extends mesh.Wired relay where
  unseen : ∀ v ∈ mesh.nodes, (relay v).seenShreds.peek (ShredRelay.shredDedupKey payload) = none

/-- The order all nodes agree on. -/
def order (payload : List UInt8) : List Pubkey := shuffled payload mesh.nodes

def place (payload : List UInt8) (v : Pubkey) : Nat := (mesh.order payload).idxOf v

end Mesh

/-! ### Places in the shuffle -/

section

variable [TurbineHash] (mesh : Mesh) (payload : List UInt8)

@[simp] theorem mem_order (v : Pubkey) : v ∈ mesh.order payload ↔ v ∈ mesh.nodes := mem_shuffled payload

theorem getElem?_order_iff (c : Nat) (w : Pubkey) :
    (mesh.order payload)[c]? = some w ↔ w ∈ mesh.nodes ∧ mesh.place payload w = c :=
  getElem?_shuffled_iff payload

theorem getElem_place {v : Pubkey} (member : v ∈ mesh.nodes) :
    (mesh.order payload)[mesh.place payload v]? = some v :=
  (getElem?_order_iff mesh payload _ v).mpr ⟨member, rfl⟩

theorem place_lt {v : Pubkey} (member : v ∈ mesh.nodes) :
    mesh.place payload v < (mesh.order payload).length :=
  List.idxOf_lt_length_iff.mpr ((mem_order mesh payload v).mpr member)

theorem place_injective {v w : Pubkey} (first : v ∈ mesh.nodes) (second : w ∈ mesh.nodes)
    (same : mesh.place payload v = mesh.place payload w) : v = w := by
  have left := getElem_place mesh payload first
  rw [same, getElem_place mesh payload second] at left
  exact (Option.some.inj left).symm

/-- A view of the whole mesh is shuffled into the common order. -/
theorem indexedTree_all {tree : TurbineTree} (member : tree.localPubkey ∈ mesh.nodes) {peers : List Pubkey}
    (all : ∀ w, w ∈ peers ↔ w ∈ mesh.nodes ∧ w ≠ tree.localPubkey) :
    tree.indexedTree payload peers = some (mesh.place payload tree.localPubkey, mesh.order payload) :=
  indexedTree_full payload member all

/-- A view without the sender is the common order without it; whoever stands after the sender moves up. -/
theorem indexedTree_without {tree : TurbineTree} {sender : Pubkey} (member : tree.localPubkey ∈ mesh.nodes)
    (known : sender ∈ mesh.nodes) (apart : sender ≠ tree.localPubkey) {peers : List Pubkey}
    (rest : ∀ w, w ∈ peers ↔ (w ∈ mesh.nodes ∧ w ≠ tree.localPubkey) ∧ w ≠ sender) :
    tree.indexedTree payload peers =
      some (if mesh.place payload tree.localPubkey < mesh.place payload sender
          then mesh.place payload tree.localPubkey else mesh.place payload tree.localPubkey - 1,
        (mesh.order payload).eraseIdx (mesh.place payload sender)) := by
  have erased : (mesh.order payload).eraseIdx (mesh.place payload sender) = (mesh.order payload).erase sender :=
    (List.erase_eq_eraseIdx_of_idxOf rfl).symm
  have distinct : mesh.place payload tree.localPubkey ≠ mesh.place payload sender :=
    fun same => apart (place_injective mesh payload member known same).symm
  have here := getElem_place mesh payload member
  refine indexedTree_eq payload ?_ ?_
  · rw [erased]
    apply Shuffle.shuffle_erase _ _ pubkey_key_injective
    intro w
    by_cases self : w = tree.localPubkey
    · simp [self, member, Ne.symm apart]
    · simp [self, rest]
  · split
    next before => rw [List.getElem?_eraseIdx, if_pos before, here]
    next after =>
      rw [List.getElem?_eraseIdx, if_neg (by omega), Nat.sub_add_cancel (by omega), here]

end

/-! ### Whom a node passes the shred on to -/

/-- Who sends to whom, by place: `n` nodes, the origin at place `p`. The origin hands over to place 0, or fans out
if it stands there itself; place 0 fans out over the nodes without the origin; everybody else heard it from a node
placed earlier and so counts its own place, and those of its children, one less. -/
def Passes (fanout n p s d : Nat) : Prop :=
  d < n ∧
    if s = p then (if p = 0 then 0 < d ∧ d ≤ fanout else d = 0)
    else if s = 0 then ∃ c, 0 < c ∧ c ≤ fanout ∧ d = if c < p then c else c + 1
    else 1 < d ∧ treeParent fanout (d - 1) = s - 1

/-- The shred moves up the shuffle, except for the hand-over to place 0. -/
theorem passes_upward {fanout n p s d : Nat} (positive : 0 < fanout) (passes : Passes fanout n p s d) :
    s < d ∨ s = p ∧ 0 < p ∧ d = 0 := by
  obtain ⟨_, rule⟩ := passes
  split at rule
  next same =>
    split at rule
    · exact .inl (by omega)
    · exact .inr ⟨same, by omega, rule⟩
  next =>
    split at rule
    · obtain ⟨c, above, _, place⟩ := rule
      split at place <;> exact .inl (by omega)
    · have below := treeParent_lt positive (c := d - 1) (by omega)
      exact .inl (by omega)

section

variable [TurbineHash] (mesh : Mesh) (payload : List UInt8) {tree : TurbineTree}

omit [TurbineHash] in
theorem mem_usablePeers_without {v sender : Pubkey} (member : v ∈ mesh.nodes) (w : Pubkey) :
    w ∈ (mesh.view v).usablePeers v (some sender) ↔ (w ∈ mesh.nodes ∧ w ≠ v) ∧ w ≠ sender := by
  rw [← mesh.shared v member w]
  simp only [PeerView.usablePeers, List.mem_filter]
  simp
  tauto

theorem mem_originPeers {v : Pubkey} (own : tree.localPubkey = v) (width : tree.fanout = mesh.fanout)
    (member : v ∈ mesh.nodes) (w : Pubkey) :
    w ∈ tree.originPeers payload ((mesh.view v).usablePeers v none) ↔ w ∈ mesh.nodes ∧
      Passes mesh.fanout (mesh.order payload).length (mesh.place payload v) (mesh.place payload v)
        (mesh.place payload w) := by
  subst own
  rw [← width]
  simp only [TurbineTree.originPeers, indexedTree_all mesh payload member (mesh.shared _ member), Passes, if_true]
  by_cases root : mesh.place payload tree.localPubkey = 0
  · simp only [if_pos root, List.mem_filterMap, mem_retransmitIndices tree.positive, treeParent_eq_zero,
      getElem?_order_iff]
    constructor
    · rintro ⟨c, ⟨above, bound, within⟩, known, rfl⟩
      exact ⟨known, bound, above, within⟩
    · rintro ⟨known, bound, above, within⟩
      exact ⟨_, ⟨above, bound, within⟩, known, rfl⟩
  · simp only [if_neg root, Option.mem_toList, List.head?_eq_getElem?, getElem?_order_iff]
    constructor
    · rintro ⟨known, first⟩
      exact ⟨known, place_lt mesh payload known, first⟩
    · rintro ⟨known, _, first⟩
      exact ⟨known, first⟩

/-- The fan-out of a node that heard the shred from `sender`, in the places of the common order. -/
theorem mem_retransmitPeers_iff {sender : Pubkey} (member : tree.localPubkey ∈ mesh.nodes)
    (known : sender ∈ mesh.nodes) (apart : sender ≠ tree.localPubkey) {peers : List Pubkey}
    (rest : ∀ w, w ∈ peers ↔ (w ∈ mesh.nodes ∧ w ≠ tree.localPubkey) ∧ w ≠ sender) (w : Pubkey) :
    w ∈ tree.retransmitPeers payload peers ↔ w ∈ mesh.nodes ∧
      ∃ c, 0 < c ∧ c < (mesh.order payload).length - 1 ∧
        treeParent tree.fanout c =
          (if mesh.place payload tree.localPubkey < mesh.place payload sender
            then mesh.place payload tree.localPubkey else mesh.place payload tree.localPubkey - 1) ∧
        mesh.place payload w = if c < mesh.place payload sender then c else c + 1 := by
  have bound := place_lt mesh payload known
  have size : ((mesh.order payload).eraseIdx (mesh.place payload sender)).length =
      (mesh.order payload).length - 1 := List.length_eraseIdx_of_lt bound
  have found : ∀ c, ((mesh.order payload).eraseIdx (mesh.place payload sender))[c]? = some w ↔
      w ∈ mesh.nodes ∧ mesh.place payload w = if c < mesh.place payload sender then c else c + 1 := by
    intro c
    rw [List.getElem?_eraseIdx]
    split <;> exact getElem?_order_iff mesh payload _ w
  simp only [TurbineTree.retransmitPeers, indexedTree_without mesh payload member known apart rest,
    List.mem_filterMap, mem_retransmitIndices tree.positive, size, found]
  constructor
  · rintro ⟨c, ⟨above, below, parent⟩, inside, place⟩
    exact ⟨inside, c, above, below, parent, place⟩
  · rintro ⟨inside, c, above, below, parent, place⟩
    exact ⟨c, ⟨above, below, parent⟩, inside, place⟩

theorem mem_retransmitPeers {v sender : Pubkey} {p : Nat} (own : tree.localPubkey = v)
    (width : tree.fanout = mesh.fanout) (member : v ∈ mesh.nodes) (known : sender ∈ mesh.nodes)
    (heard : Passes mesh.fanout (mesh.order payload).length p (mesh.place payload sender) (mesh.place payload v))
    (elsewhere : mesh.place payload v ≠ p) (w : Pubkey) :
    w ∈ tree.retransmitPeers payload ((mesh.view v).usablePeers v (some sender)) ↔ w ∈ mesh.nodes ∧
      Passes mesh.fanout (mesh.order payload).length p (mesh.place payload v) (mesh.place payload w) := by
  subst own
  rw [← width] at heard ⊢
  have apart : sender ≠ tree.localPubkey := by
    rintro same
    rw [same] at heard
    rcases passes_upward tree.positive heard with later | ⟨_, offRoot, root⟩ <;> omega
  rw [mem_retransmitPeers_iff mesh payload member known apart (mem_usablePeers_without mesh member)]
  refine and_congr_right fun inside => ?_
  have bound := place_lt mesh payload known
  have here := place_lt mesh payload inside
  generalize mesh.place payload w = e at here ⊢
  generalize (mesh.order payload).length = n at bound here heard ⊢
  rw [Passes, if_neg elsewhere]
  rcases passes_upward tree.positive heard with later | ⟨rfl, offRoot, root⟩
  · -- Heard from an earlier place: the sender's absence shifts this node and all its children alike.
    rw [if_neg (by omega), if_neg (by omega)]
    constructor
    · rintro ⟨c, above, below, parent, place⟩
      have rise := treeParent_lt tree.positive above
      rw [if_neg (by omega)] at place
      subst place
      exact ⟨here, by omega, by simpa using parent⟩
    · rintro ⟨_, above, parent⟩
      have rise := treeParent_lt tree.positive (c := e - 1) (by omega)
      exact ⟨e - 1, by omega, by omega, parent, by rw [if_neg (by omega)]; omega⟩
  · -- Place 0 heard it from the origin.
    rw [root, if_pos offRoot, if_pos rfl]
    simp only [treeParent_eq_zero]
    constructor
    · rintro ⟨c, above, below, parent, place⟩
      exact ⟨here, c, above, parent, place⟩
    · rintro ⟨_, c, above, within, place⟩
      refine ⟨c, above, ?_, within, place⟩
      split at place <;> omega

end

/-! ### Which places the shred reaches -/

/-- The origin strands nobody: it stands first or second in the shuffle, or the place it would have in the view of
the others has no children. -/
def StrandsNobody (fanout n p : Nat) : Prop :=
  p ≤ 1 ∨ n ≤ ((p - 2) / fanout * fanout + 1) * fanout + (p - 2) % fanout + 2

instance (fanout n p : Nat) : Decidable (StrandsNobody fanout n p) := inferInstanceAs (Decidable (_ ∨ _))

theorem strandsNobody_iff {fanout n p : Nat} (positive : 0 < fanout) :
    StrandsNobody fanout n p ↔ p ≤ 1 ∨ ¬ ∃ c, 0 < c ∧ c < n - 1 ∧ treeParent fanout c = p - 1 := by
  unfold StrandsNobody
  by_cases early : p ≤ 1
  · simp [early]
  · rw [exists_child_iff positive (by omega), show p - 1 - 1 = p - 2 by omega]
    omega

theorem reaches_all {fanout n p : Nat} (positive : 0 < fanout) (inside : p < n)
    (nobody : p ≤ 1 ∨ ¬ ∃ c, 0 < c ∧ c < n - 1 ∧ treeParent fanout c = p - 1) :
    ∀ d < n, ReflTransGen (Passes fanout n p) p d := by
  intro d
  induction d using Nat.strongRecOn with
  | ind d ih =>
    intro bound
    by_cases origin : d = p
    · exact origin ▸ .refl
    have root : 0 < p → ReflTransGen (Passes fanout n p) p 0 := fun offRoot =>
      .single ⟨by omega, by rw [if_pos rfl, if_neg (by omega)]⟩
    by_cases zero : d = 0
    · subst zero
      exact root (by omega)
    by_cases one : d = 1
    · subst one
      by_cases first : p = 0
      · exact .single ⟨bound, by rw [if_pos rfl, if_pos first]; omega⟩
      · refine (root (by omega)).tail ⟨bound, ?_⟩
        rw [if_neg (by omega), if_pos rfl]
        exact ⟨1, Nat.one_pos, positive, by rw [if_pos (by omega)]⟩
    -- Everybody else has a parent in the tree that is rooted at place 1.
    have rise := treeParent_lt positive (c := d - 1) (by omega)
    by_cases stranded : treeParent fanout (d - 1) + 1 = p
    · have second : p = 1 := by
        rcases nobody with early | none
        · omega
        · exact absurd ⟨d - 1, by omega, by omega, by omega⟩ none
      have near : d - 1 ≤ fanout := treeParent_eq_zero.mp (by omega)
      refine (root (by omega)).tail ⟨bound, ?_⟩
      rw [if_neg (by omega), if_pos rfl]
      exact ⟨d - 1, by omega, near, by rw [if_neg (by omega)]; omega⟩
    · refine (ih (treeParent fanout (d - 1) + 1) (by omega) (by omega)).tail ⟨bound, ?_⟩
      rw [if_neg stranded, if_neg (by omega)]
      exact ⟨by omega, by omega⟩

/-- A child of the origin in the others' view hears the shred from nobody. -/
theorem stranded_unreachable {fanout n p c : Nat} (late : 1 < p) (above : 0 < c)
    (parent : treeParent fanout c = p - 1) (apart : c + 1 ≠ p) :
    ¬ ReflTransGen (Passes fanout n p) p (c + 1) := by
  have deep : fanout < c := by
    by_contra near
    have := treeParent_eq_zero.mpr (Nat.le_of_not_lt near)
    omega
  intro path
  rcases path.cases_tail with same | ⟨s, _, _, rule⟩
  · exact apart same
  split at rule
  next =>
    rw [if_neg (by omega)] at rule
    omega
  next other =>
    split at rule
    · obtain ⟨k, _, within, place⟩ := rule
      split at place <;> omega
    · rw [Nat.add_sub_cancel, parent] at rule
      omega

theorem reaches_all_iff {fanout n p : Nat} (positive : 0 < fanout) (inside : p < n) :
    (∀ d < n, ReflTransGen (Passes fanout n p) p d) ↔ StrandsNobody fanout n p := by
  rw [strandsNobody_iff positive]
  refine ⟨?_, reaches_all positive inside⟩
  intro all
  by_contra both
  obtain ⟨late, some⟩ := not_or.mp both
  obtain ⟨c, above, below, parent⟩ := not_not.mp some
  have rise := treeParent_lt positive above
  exact stranded_unreachable (by omega) above parent (by omega) (all (c + 1) (by omega))

end Lightbringer.Overlay
