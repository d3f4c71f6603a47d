import Lightbringer.Overlay.Dissemination
import Mathlib.Data.List.Perm.Basic

/-!
# Who gets the shred

The mesh floods along `Passes`, the flood dies out, and it reaches everybody exactly if the origin strands nobody.
-/

namespace Lightbringer.Overlay
open Machine Flood Relation

/-! ### The mesh floods -/

section

variable [TurbineHash] (mesh : Mesh) (payload : List UInt8)

omit [TurbineHash] in
theorem route_connection {v w : Pubkey} (first : v ∈ mesh.nodes) (second : w ∈ mesh.nodes) (apart : w ≠ v) :
    ∃ addr, (mesh.view v).route w = .connection addr := by
  obtain ⟨addr, found, clear⟩ := mesh.connected v first w second apart
  exact ⟨addr, by simp [PeerView.route, found, clear]⟩

omit [TurbineHash] in
theorem mem_sends {src : Pubkey} (member : src ∈ mesh.nodes) {targets : List Pubkey}
    (inside : ∀ w ∈ targets, w ∈ mesh.nodes ∧ w ≠ src) (frame : ShredFrame) :
    frame ∈ mesh.sends src payload targets ↔
      frame.src = src ∧ frame.payload = payload ∧ frame.dst ∈ targets := by
  unfold Mesh.sends
  rw [List.mem_filterMap]
  constructor
  · rintro ⟨w, target, sent⟩
    obtain ⟨addr, route⟩ := route_connection mesh member (inside w target).1 (inside w target).2
    simp only [route, Option.some.injEq] at sent
    subst sent
    exact ⟨rfl, rfl, target⟩
  · rintro ⟨rfl, rfl, target⟩
    obtain ⟨addr, route⟩ := route_connection mesh member (inside _ target).1 (inside _ target).2
    exact ⟨frame.dst, target, by simp [route]⟩

/-- The way of a frame, by place. -/
def Mesh.hop (frame : ShredFrame) : Nat × Nat := (mesh.place payload frame.src, mesh.place payload frame.dst)

theorem sends_of_passes {v : Pubkey} {p : Nat} {targets : List Pubkey} (positive : 0 < mesh.fanout)
    (member : v ∈ mesh.nodes)
    (passes : ∀ w, w ∈ targets ↔ w ∈ mesh.nodes ∧
      Passes mesh.fanout (mesh.order payload).length p (mesh.place payload v) (mesh.place payload w)) :
    (∀ frame ∈ mesh.sends v payload targets,
      frame.payload = payload ∧ frame.src ∈ mesh.nodes ∧ frame.dst ∈ mesh.nodes) ∧
    ∀ s d, (s, d) ∈ (mesh.sends v payload targets).map (mesh.hop payload) ↔
      s = mesh.place payload v ∧ Passes mesh.fanout (mesh.order payload).length p (mesh.place payload v) d := by
  have frames := mem_sends mesh payload member (fun w target => by
    obtain ⟨inside, passes⟩ := (passes w).mp target
    refine ⟨inside, ?_⟩
    rintro rfl
    rcases passes_upward positive passes with later | ⟨_, offRoot, root⟩ <;> omega)
  refine ⟨?_, ?_⟩
  · intro frame sent
    obtain ⟨rfl, carried, target⟩ := (frames frame).mp sent
    exact ⟨carried, member, ((passes _).mp target).1⟩
  · intro s d
    rw [List.mem_map]
    constructor
    · rintro ⟨frame, sent, place⟩
      obtain ⟨rfl, _, target⟩ := (frames frame).mp sent
      cases place
      exact ⟨rfl, ((passes _).mp target).2⟩
    · rintro ⟨rfl, edge⟩
      obtain ⟨w, found⟩ : ∃ w, (mesh.order payload)[d]? = some w := ⟨_, List.getElem?_eq_getElem edge.1⟩
      obtain ⟨inside, rfl⟩ := (getElem?_order_iff mesh payload d w).mp found
      exact ⟨⟨v, w, payload⟩, (frames _).mpr ⟨rfl, rfl, (passes w).mpr ⟨inside, edge⟩⟩, rfl⟩

/-- The shred at hand: where it started and what is known of the relays on the way. -/
structure Spread (origin : Pubkey) (packet : PacketInfo) (net : Net) (out : List Filtered) : Prop where
  wired : mesh.Wired net.relay
  carried : ∀ frame ∈ net.inFlight, frame.payload = packet.bytes ∧ frame.src ∈ mesh.nodes ∧ frame.dst ∈ mesh.nodes
  filtered : ∀ v ∈ mesh.nodes, v ≠ origin →
    ((net.relay v).seenShreds.peek (ShredRelay.shredDedupKey packet.bytes) = some () ↔ ⟨v, packet⟩ ∈ out)
  flooded : Flooded
    (Passes mesh.fanout (mesh.order packet.bytes).length (mesh.place packet.bytes origin))
    (mesh.place packet.bytes origin)
    (fun i => ∃ v ∈ mesh.nodes, mesh.place packet.bytes v = i ∧
      (net.relay v).seenShreds.peek (ShredRelay.shredDedupKey packet.bytes) = some ())
    (net.inFlight.map (mesh.hop packet.bytes))

variable {relay : Pubkey → ShredRelay} {origin : Pubkey} {packet : PacketInfo}

omit [TurbineHash] in
theorem wired_positive {relay : Pubkey → ShredRelay} (wired : mesh.Wired relay) {v : Pubkey}
    (member : v ∈ mesh.nodes) : 0 < mesh.fanout :=
  wired.fanout v member ▸ (relay v).tree.positive

/-- Marking a payload as seen at one relay leaves everything else about the relays as it was. -/
theorem update_mark (relay : Pubkey → ShredRelay) (v : Pubkey)
    (room : (relay v).seenShreds.capacity = seenShredsCapacity) (u : Pubkey) :
    (Function.update relay v ((relay v).mark payload) u).tree = (relay u).tree ∧
    (Function.update relay v ((relay v).mark payload) u).seenShreds.capacity = (relay u).seenShreds.capacity ∧
    (Function.update relay v ((relay v).mark payload) u).seenShreds.peek (ShredRelay.shredDedupKey payload) =
      if u = v then some () else (relay u).seenShreds.peek (ShredRelay.shredDedupKey payload) := by
  by_cases same : u = v
  · subst same
    have space : 0 < (relay u).seenShreds.capacity := by
      rw [room]
      decide
    simp [ShredRelay.mark, Lru.peek_push_self space]
  · simp [same]

theorem wired_mark {relay : Pubkey → ShredRelay} (wired : mesh.Wired relay) (v : Pubkey) (member : v ∈ mesh.nodes) :
    mesh.Wired (Function.update relay v ((relay v).mark payload)) := by
  have marked := update_mark payload relay v (wired.capacity v member)
  refine ⟨?_, ?_, ?_⟩
  · intro u inside
    rw [(marked u).1]
    exact wired.identity u inside
  · intro u inside
    rw [(marked u).1]
    exact wired.fanout u inside
  · intro u inside
    rw [(marked u).2.1]
    exact wired.capacity u inside

theorem spread_inject (ready : mesh.Ready relay packet.bytes) (member : origin ∈ mesh.nodes)
    (source : (relay origin).mode = .source) :
    Spread mesh origin packet (mesh.inject relay origin packet) [] := by
  have own := ready.identity origin member
  have marked := fun v => (update_mark packet.bytes relay origin (ready.capacity origin member) v).2.2
  obtain ⟨carried, hops⟩ := sends_of_passes mesh packet.bytes (wired_positive mesh ready.toWired member) member
    (mem_originPeers mesh packet.bytes own (ready.fanout origin member) member)
  rw [Mesh.inject, ShredRelay.onSourcePacket_source _ _ source, own]
  refine ⟨wired_mark mesh packet.bytes ready.toWired origin member, carried, ?_, ?_⟩
  · intro v inside other
    rw [marked, if_neg other, ready.unseen v inside]
    simp
  · refine flooded_congr (flooded_start hops) ?_
    intro i
    constructor
    · rintro rfl
      exact ⟨origin, member, rfl, by rw [marked, if_pos rfl]⟩
    · rintro ⟨v, inside, rfl, seen⟩
      by_cases same : v = origin
      · rw [same]
      · rw [marked, if_neg same, ready.unseen v inside] at seen
        cases seen

theorem spread_deliver {net : Net} {out : List Filtered} (held : Spread mesh origin packet net out) (i : Nat) :
    Spread mesh origin packet (mesh.deliver net i).1 (out ++ (mesh.deliver net i).2) := by
  unfold Mesh.deliver
  cases taken : net.inFlight[i]? with
  | none => simpa using held
  | some frame =>
    obtain ⟨bound, at_i⟩ := List.getElem?_eq_some_iff.mp taken
    obtain ⟨carried, sender, receiver⟩ := held.carried frame (List.mem_of_getElem? taken)
    have marked := fun v => (update_mark packet.bytes net.relay frame.dst (held.wired.capacity _ receiver) v).2.2
    have wired := wired_mark mesh packet.bytes held.wired frame.dst receiver
    have split : ∀ hop ∈ net.inFlight.map (mesh.hop packet.bytes), hop = mesh.hop packet.bytes frame ∨
        hop ∈ (net.inFlight.eraseIdx i).map (mesh.hop packet.bytes) := by
      have perm := (List.getElem_cons_eraseIdx_perm bound).map (mesh.hop packet.bytes)
      intro hop inside
      rw [← perm.mem_iff, at_i, List.map_cons, List.mem_cons] at inside
      exact inside
    have left : (net.inFlight.eraseIdx i).map (mesh.hop packet.bytes) ⊆
        net.inFlight.map (mesh.hop packet.bytes) := List.map_subset _ List.eraseIdx_subset
    have copy : mesh.hop packet.bytes frame ∈ net.inFlight.map (mesh.hop packet.bytes) :=
      List.mem_map_of_mem (List.mem_of_getElem? taken)
    have others : ∀ rest ∈ net.inFlight.eraseIdx i,
        rest.payload = packet.bytes ∧ rest.src ∈ mesh.nodes ∧ rest.dst ∈ mesh.nodes :=
      fun rest inside => held.carried rest (List.mem_of_mem_eraseIdx inside)
    simp only [carried]
    cases seen : (net.relay frame.dst).seenShreds.peek (ShredRelay.shredDedupKey packet.bytes) with
    | some known =>
      -- A later copy only refreshes the cache entry.
      rw [ShredRelay.handleShred_seen _ _ seen]
      have same : ∀ v, (Function.update net.relay frame.dst ((net.relay frame.dst).mark packet.bytes) v).seenShreds.peek
          (ShredRelay.shredDedupKey packet.bytes) =
            (net.relay v).seenShreds.peek (ShredRelay.shredDedupKey packet.bytes) := by
        intro v
        rw [marked]
        split
        next here => rw [here, seen]
        next => rfl
      refine ⟨wired, ?_, ?_, ?_⟩
      · simpa [Mesh.sends] using others
      · intro v inside other
        rw [same v]
        simpa using held.filtered v inside other
      · simp only [same, Mesh.sends, List.filterMap_nil, List.append_nil]
        exact flooded_drop held.flooded ⟨frame.dst, receiver, rfl, seen⟩ split left
    | none =>
      rw [ShredRelay.handleShred_unseen _ _ seen, held.wired.identity _ receiver]
      have heard := held.flooded.edges _ _ copy
      have elsewhere : mesh.place packet.bytes frame.dst ≠ mesh.place packet.bytes origin := by
        intro same
        obtain ⟨v, inside, place, known⟩ := held.flooded.source
        rw [← same] at place
        rw [place_injective mesh packet.bytes inside receiver place, seen] at known
        cases known
      obtain ⟨onward, hops⟩ := sends_of_passes mesh packet.bytes (wired_positive mesh held.wired receiver) receiver
        (mem_retransmitPeers mesh packet.bytes (held.wired.identity _ receiver) (held.wired.fanout _ receiver)
          receiver sender heard.1 elsewhere)
      have view : packetView packet.bytes = some packet := by simp [packetView, packet.fits]
      refine ⟨wired, ?_, ?_, ?_⟩
      · intro rest inside
        rcases List.mem_append.mp inside with old | fresh
        · exact others rest old
        · exact onward rest fresh
      · intro v inside other
        rw [marked, view]
        by_cases here : v = frame.dst
        · simp [here]
        · simp only [Option.toList_some, List.map_cons, List.map_nil, List.mem_append, List.mem_singleton,
            Filtered.mk.injEq, here, false_and, or_false]
          exact held.filtered v inside other
      · rw [List.map_append]
        refine flooded_congr (flooded_spread held.flooded copy split left hops) ?_
        intro j
        constructor
        · rintro (⟨v, inside, place, old⟩ | rfl)
          · refine ⟨v, inside, place, ?_⟩
            rw [marked]
            split
            · rfl
            · exact old
          · exact ⟨frame.dst, receiver, rfl, by rw [marked, if_pos rfl]⟩
        · rintro ⟨v, inside, place, now⟩
          by_cases here : v = frame.dst
          · exact .inr (here ▸ place.symm)
          · rw [marked, if_neg here] at now
            exact .inl ⟨v, inside, place, now⟩

theorem spread_run (ready : mesh.Ready relay packet.bytes) (member : origin ∈ mesh.nodes)
    (source : (relay origin).mode = .source) (schedule : List Nat) :
    Spread mesh origin packet (mesh.disseminate relay origin packet schedule).1
      (mesh.disseminate relay origin packet schedule).2 :=
  run_history (P := fun _ net out => Spread mesh origin packet net out) (spread_inject mesh ready member source)
    (fun _ _ _ i held _ => spread_deliver mesh held i) schedule (meets_true schedule)

/-! ### The flood dies out -/

/-- Copies that are or may still be sent: those in flight, and a fan-out for every node that has not seen the shred. -/
def Mesh.copiesLeft (net : Net) : Nat :=
  net.inFlight.length + mesh.fanout * (mesh.order payload).countP
    (fun v => ((net.relay v).seenShreds.peek (ShredRelay.shredDedupKey payload)).isNone)

omit [TurbineHash] in
theorem countP_lt_countP {p q : Pubkey → Bool} {nodes : List Pubkey} (weaker : ∀ v ∈ nodes, p v → q v) {w : Pubkey}
    (member : w ∈ nodes) (lost : p w = false) (had : q w = true) : nodes.countP p < nodes.countP q := by
  obtain ⟨before, after, rfl⟩ := List.append_of_mem member
  have first := List.countP_mono_left (fun v inside => weaker v (List.mem_append_left _ inside))
  have last := List.countP_mono_left (fun v inside =>
    weaker v (List.mem_append_right before (List.mem_cons_of_mem w inside)))
  simp only [List.countP_append, List.countP_cons_of_pos had, List.countP_cons_of_neg (Bool.eq_false_iff.mp lost)]
  omega

omit [TurbineHash] in
theorem length_sends_le (src : Pubkey) (targets : List Pubkey) :
    (mesh.sends src payload targets).length ≤ targets.length :=
  List.length_filterMap_le _ _

theorem length_retransmitPeers_le (tree : TurbineTree) (peers : List Pubkey) :
    (tree.retransmitPeers payload peers).length ≤ tree.fanout := by
  unfold TurbineTree.retransmitPeers
  split
  · exact Nat.zero_le _
  · refine (List.length_filterMap_le _ _).trans ?_
    unfold retransmitIndices
    exact List.length_take_le _ _

theorem copiesLeft_deliver {net : Net} {out : List Filtered} (held : Spread mesh origin packet net out) {i : Nat}
    (bound : i < net.inFlight.length) :
    mesh.copiesLeft packet.bytes (mesh.deliver net i).1 < mesh.copiesLeft packet.bytes net := by
  have shorter := List.length_eraseIdx_of_lt bound
  obtain ⟨carried, sender, receiver⟩ := held.carried net.inFlight[i] (List.getElem_mem bound)
  have marked := fun v =>
    (update_mark packet.bytes net.relay net.inFlight[i].dst (held.wired.capacity _ receiver) v).2.2
  simp only [Mesh.deliver, List.getElem?_eq_getElem bound, carried]
  cases seen : (net.relay net.inFlight[i].dst).seenShreds.peek (ShredRelay.shredDedupKey packet.bytes) with
  | some known =>
    rw [ShredRelay.handleShred_seen _ _ seen]
    have same : ∀ v, (if v = net.inFlight[i].dst then some () else
        (net.relay v).seenShreds.peek (ShredRelay.shredDedupKey packet.bytes)) =
          (net.relay v).seenShreds.peek (ShredRelay.shredDedupKey packet.bytes) := by
      intro v
      split
      next here => rw [here, seen]
      next => rfl
    simp only [Mesh.copiesLeft, Mesh.sends, List.filterMap_nil, List.append_nil, marked, same, shorter]
    omega
  | none =>
    rw [ShredRelay.handleShred_unseen _ _ seen]
    have fewer : (mesh.order packet.bytes).countP (fun v => ((if v = net.inFlight[i].dst then some () else
        (net.relay v).seenShreds.peek (ShredRelay.shredDedupKey packet.bytes))).isNone) <
          (mesh.order packet.bytes).countP
            (fun v => ((net.relay v).seenShreds.peek (ShredRelay.shredDedupKey packet.bytes)).isNone) := by
      refine countP_lt_countP ?_ ((mem_order mesh packet.bytes _).mpr receiver) (by simp) (by simp [seen])
      intro v _ unseen
      split at unseen
      · cases unseen
      · exact unseen
    have sent := (length_sends_le mesh packet.bytes net.inFlight[i].dst _).trans
      (length_retransmitPeers_le packet.bytes (net.relay net.inFlight[i].dst).tree
        ((mesh.view net.inFlight[i].dst).usablePeers (net.relay net.inFlight[i].dst).tree.localPubkey
          (some net.inFlight[i].src)))
    rw [held.wired.fanout _ receiver] at sent
    have scaled := Nat.mul_le_mul_left mesh.fanout (Nat.succ_le_of_lt fewer)
    rw [Nat.mul_succ] at scaled
    simp only [Mesh.copiesLeft, List.length_append, marked, shorter]
    omega

/-- Whatever is in flight can be delivered until nothing is. -/
theorem exists_drained {net : Net} {out : List Filtered} (held : Spread mesh origin packet net out) :
    ∃ schedule, (run mesh.deliver net schedule).1.inFlight = [] := by
  induction left : mesh.copiesLeft packet.bytes net using Nat.strongRecOn generalizing net out with
  | ind n ih =>
    cases waiting : net.inFlight with
    | nil => exact ⟨[], waiting⟩
    | cons frame rest =>
      have bound : 0 < net.inFlight.length := by
        rw [waiting]
        exact Nat.succ_pos _
      obtain ⟨schedule, drained⟩ := ih _ (left ▸ copiesLeft_deliver mesh held bound) (spread_deliver mesh held 0) rfl
      exact ⟨0 :: schedule, drained⟩

/-! ### Coverage -/

/-- Once nothing is in flight, a node other than the origin got the shred exactly if its place is reachable. -/
theorem filtered_iff_reaches (ready : mesh.Ready relay packet.bytes) (member : origin ∈ mesh.nodes)
    (source : (relay origin).mode = .source) {schedule : List Nat}
    (drained : (mesh.disseminate relay origin packet schedule).1.inFlight = []) {v : Pubkey}
    (inside : v ∈ mesh.nodes) (other : v ≠ origin) :
    ⟨v, packet⟩ ∈ (mesh.disseminate relay origin packet schedule).2 ↔
      ReflTransGen (Passes mesh.fanout (mesh.order packet.bytes).length (mesh.place packet.bytes origin))
        (mesh.place packet.bytes origin) (mesh.place packet.bytes v) := by
  have held := spread_run mesh ready member source schedule
  have flooded := held.flooded
  rw [drained] at flooded
  rw [← held.filtered v inside other, ← reached_iff_reachable flooded]
  constructor
  · intro seen
    exact ⟨v, inside, rfl, seen⟩
  · rintro ⟨w, known, place, seen⟩
    rwa [← place_injective mesh packet.bytes known inside place]

theorem covered_iff_reaches (ready : mesh.Ready relay packet.bytes) (member : origin ∈ mesh.nodes)
    (source : (relay origin).mode = .source) {schedule : List Nat}
    (drained : (mesh.disseminate relay origin packet schedule).1.inFlight = []) :
    (∀ v ∈ mesh.nodes, v ≠ origin → ⟨v, packet⟩ ∈ (mesh.disseminate relay origin packet schedule).2) ↔
      ∀ d < (mesh.order packet.bytes).length,
        ReflTransGen (Passes mesh.fanout (mesh.order packet.bytes).length (mesh.place packet.bytes origin))
          (mesh.place packet.bytes origin) d := by
  constructor
  · intro covered d bound
    obtain ⟨v, found⟩ : ∃ v, (mesh.order packet.bytes)[d]? = some v := ⟨_, List.getElem?_eq_getElem bound⟩
    obtain ⟨inside, rfl⟩ := (getElem?_order_iff mesh packet.bytes d v).mp found
    by_cases same : v = origin
    · rw [same]
    · exact (filtered_iff_reaches mesh ready member source drained inside same).mp (covered _ inside same)
  · intro reaches v inside other
    exact (filtered_iff_reaches mesh ready member source drained inside other).mpr
      (reaches _ (place_lt mesh packet.bytes inside))

/-- In whatever order the frames arrive, a shred injected at a source reaches every other node of the mesh exactly if
the origin strands nobody. The views of the relays leave out whoever they heard the shred from; the origin, which
drops the shred when it comes back, is missed where it had nodes to pass it on to. -/
theorem shred_covers_mesh_iff (ready : mesh.Ready relay packet.bytes) (member : origin ∈ mesh.nodes)
    (source : (relay origin).mode = .source) (schedule : List Nat)
    (drained : (mesh.disseminate relay origin packet schedule).1.inFlight = []) :
    (∀ v ∈ mesh.nodes, v ≠ origin → ⟨v, packet⟩ ∈ (mesh.disseminate relay origin packet schedule).2) ↔
      StrandsNobody mesh.fanout (mesh.order packet.bytes).length (mesh.place packet.bytes origin) := by
  rw [covered_iff_reaches mesh ready member source drained]
  exact reaches_all_iff (wired_positive mesh ready.toWired member) (place_lt mesh packet.bytes member)

end

/-- A mesh of the nodes `0 .. n - 1`, each connected to all others and to nobody else. -/
def fullMesh (n fanout : Nat) : Mesh where
  nodes := (List.range n).map (BitVec.ofNat 256)
  fanout := fanout
  view _ :=
    { connectedPeers := (List.range n).map (BitVec.ofNat 256)
      connectionAddr := fun peer => some ⟨.v4 (BitVec.ofNat 32 peer.toNat), 8000⟩
      quarantined := fun _ => false
      directPeers := []
      directAddrs := fun _ => []
      hasV6 := false }
  connected v _ w _ _ := ⟨_, rfl, rfl⟩
  shared v _ w := by
    simp [PeerView.usablePeers, Shuffle.mem_canonical]

def freshRelay (fanout : Nat) (v : Pubkey) : ShredRelay where
  mode := .source
  tree := TurbineTree.new v fanout
  seenShreds := Lru.new seenShredsCapacity

theorem freshRelay_ready [TurbineHash] (n : Nat) {fanout : Nat} (positive : 0 < fanout) (payload : List UInt8) :
    (fullMesh n fanout).Ready (freshRelay fanout) payload where
  identity _ _ := rfl
  fanout _ _ := Nat.max_eq_left positive
  capacity _ _ := rfl
  unseen _ _ := rfl

def onePacket : PacketInfo := ⟨[7], by decide⟩

/-- Four nodes and a fanout of two: the origin is the last in the shuffle, and the shred gets to the others. -/
theorem shred_covers_four :
    @Mesh.place constantHash (fullMesh 4 2) onePacket.bytes 3 = 3 ∧ ∀ v ∈ (fullMesh 4 2).nodes, v ≠ 3 →
      ⟨v, onePacket⟩ ∈ (@Mesh.disseminate constantHash (fullMesh 4 2) (freshRelay 2) 3 onePacket [0, 0, 0, 0, 0]).2 :=
  ⟨by decide +kernel, (@shred_covers_mesh_iff constantHash (fullMesh 4 2) (freshRelay 2) 3 onePacket
    (@freshRelay_ready constantHash 4 2 Nat.two_pos _) (by decide) rfl [0, 0, 0, 0, 0] (by decide +kernel)).mpr
    (by decide +kernel)⟩

/-- Four nodes and a fanout of one: whatever the hash, some origin leaves a node without the shred. -/
theorem third_of_four_strands :
    ¬ ∃ _ : TurbineHash, ∀ origin ∈ (fullMesh 4 1).nodes, ∀ schedule,
      ((fullMesh 4 1).disseminate (freshRelay 1) origin onePacket schedule).1.inFlight = [] →
      ∀ v ∈ (fullMesh 4 1).nodes, v ≠ origin →
        ⟨v, onePacket⟩ ∈ ((fullMesh 4 1).disseminate (freshRelay 1) origin onePacket schedule).2 := by
  rintro ⟨_, covers⟩
  have size : ((fullMesh 4 1).order onePacket.bytes).length = 4 := by
    have perm : ((fullMesh 4 1).order onePacket.bytes).Perm (fullMesh 4 1).nodes :=
      (List.perm_ext_iff_of_nodup (shuffled_nodup _ _) (by decide)).mpr (mem_order _ _)
    rw [perm.length_eq]
    rfl
  -- The origin is the third in the shuffle.
  obtain ⟨origin, found⟩ : ∃ origin, ((fullMesh 4 1).order onePacket.bytes)[2]? = some origin :=
    ⟨_, List.getElem?_eq_getElem (by omega)⟩
  obtain ⟨member, place⟩ := (getElem?_order_iff _ _ _ _).mp found
  have ready := freshRelay_ready 4 Nat.one_pos onePacket.bytes
  obtain ⟨schedule, drained⟩ := exists_drained _ (spread_inject _ ready member rfl)
  have reaches := (covered_iff_reaches _ ready member rfl drained).mp (covers origin member schedule drained)
  rw [size, place] at reaches
  exact absurd ((reaches_all_iff Nat.one_pos (by omega)).mp reaches) (by decide)

end Lightbringer.Overlay
