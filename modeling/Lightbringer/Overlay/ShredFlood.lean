import Lightbringer.Overlay.Coverage
import Lightbringer.Overlay.Dissemination
import Lightbringer.Overlay.SpanningTree
import Mathlib.Algebra.BigOperators.Group.List.Basic
import Mathlib.Algebra.GroupWithZero.Nat

/-!
# A shred dies out

A shred in a network of relays whose links and peer views are arbitrary: every injection and every delivery comes with
whatever the node believes of its peers then, and frames are delivered in any order or lost. Only the seen-cache of each
node keeps a payload from going round for ever.
-/

namespace Lightbringer.Overlay.ShredFlood
open Machine ShredRelay

inductive Input where
  | inject (node : Pubkey) (view : PeerView) (packet : PacketInfo)
  /-- The sender is whatever the transport says of the source address. -/
  | deliver (i : Nat) (view : PeerView) (sender : Option Pubkey)
  | lose (i : Nat)

inductive Event where
  /-- A node comes by a payload, from its source or from the mesh. -/
  | saw (node : Pubkey) (payload : List UInt8)
  | filtered (node : Pubkey) (packet : PacketInfo)
  | originated (node : Pubkey) (payload : List UInt8) (targets : List Pubkey)
  | retransmitted (node : Pubkey) (payload : List UInt8) (targets : List Pubkey)
  deriving DecidableEq

/-- The nodes at the start. -/
def start (mode : Pubkey → OverlayMode) (fanout : Nat) : Net where
  relay v := ⟨mode v, .new v fanout, .new seenShredsCapacity⟩
  inFlight := []

section

local instance : LawfulBEq Pubkey := inferInstance

variable [TurbineHash] (nodes : List Pubkey)

def inject (net : Net) (node : Pubkey) (view : PeerView) (packet : PacketInfo) : Net × List Event :=
  if node ∉ nodes ∨ (net.relay node).mode ≠ .source then (net, [])
  else
    let relayed := (net.relay node).onSourcePacket view packet
    ({ relay := Function.update net.relay node relayed.relay
       inFlight := net.inFlight ++ relayed.targets.map (fun dst => ⟨node, dst, packet.bytes⟩) },
      [.saw node packet.bytes, .originated node packet.bytes relayed.targets])

/-- What a relay does with a payload, past marking it. -/
def passOn (node : Pubkey) (payload : List UInt8) (relayed : Relayed) : List Event :=
  relayed.shredForFilter.toList.map (Event.filtered node) ++
    if relayed.targets = [] then [] else [.retransmitted node payload relayed.targets]

def receive (net : Net) (frame : ShredFrame) (view : PeerView) (sender : Option Pubkey) : Net × List Event :=
  let relayed := (net.relay frame.dst).handleShred view sender frame.payload
  ({ relay := Function.update net.relay frame.dst relayed.relay
     inFlight := net.inFlight ++ relayed.targets.map (fun dst => ⟨frame.dst, dst, frame.payload⟩) },
    .saw frame.dst frame.payload :: passOn frame.dst frame.payload relayed)

def step (net : Net) : Input → Net × List Event
  | .inject node view packet => inject nodes net node view packet
  | .deliver i view sender =>
    match net.inFlight[i]? with
    | none => (net, [])
    | some frame =>
      let net := { net with inFlight := net.inFlight.eraseIdx i }
      if frame.dst ∉ nodes then (net, []) else receive net frame view sender
  | .lose i => ({ net with inFlight := net.inFlight.eraseIdx i }, [])

end

/-! ### Counting -/

section

variable (node : Pubkey) (payload : List UInt8)

/-- How often a node handed the payload to its shred filter. -/
def filterings (log : List Event) : Nat :=
  log.countP (fun event => match event with
    | .filtered v packet => v = node && packet.bytes = payload
    | _ => false)

/-- The nodes that retransmitted the payload, one after another. -/
def retransmitters (log : List Event) : List Pubkey :=
  log.filterMap (fun event => match event with
    | .retransmitted v seen _ => if seen = payload then some v else none
    | _ => none)

/-- The frames of the payload that an event sends out. -/
def framesOf (event : Event) : Nat :=
  match event with
  | .originated _ seen targets => if seen = payload then targets.length else 0
  | .retransmitted _ seen targets => if seen = payload then targets.length else 0
  | _ => 0

def frames (log : List Event) : Nat := (log.map (framesOf payload)).sum

def Event.targets : Event → List Pubkey
  | .originated _ _ targets => targets
  | .retransmitted _ _ targets => targets
  | _ => []

def originations (log : List Event) : Nat :=
  log.countP (fun event => match event with
    | .originated _ seen _ => seen = payload
    | _ => false)

def injections (inputs : List Input) : Nat :=
  inputs.countP (fun input => match input with
    | .inject _ _ packet => packet.bytes = payload
    | _ => false)

/-- The other payloads that a node came by. -/
def othersSeen (log : List Event) : Finset (List UInt8) :=
  (log.filterMap (fun event => match event with
    | .saw v seen => if v = node ∧ seen ≠ payload then some seen else none
    | _ => none)).toFinset

/-- Between two times that the node comes by the payload it sees fewer other payloads than its cache holds. -/
def SeesFewBetween (log : List Event) : Prop :=
  ∀ before between after, log = before ++ .saw node payload :: between ++ .saw node payload :: after →
    .saw node payload ∉ between → (othersSeen node payload between).card < seenShredsCapacity

variable {node payload}

theorem filterings_append (log more : List Event) :
    filterings node payload (log ++ more) = filterings node payload log + filterings node payload more :=
  List.countP_append

theorem retransmitters_append (log more : List Event) :
    retransmitters payload (log ++ more) = retransmitters payload log ++ retransmitters payload more :=
  List.filterMap_append

theorem othersSeen_append (log more : List Event) :
    othersSeen node payload (log ++ more) = othersSeen node payload log ∪ othersSeen node payload more := by
  simp [othersSeen]

theorem seesFewBetween_of_append {log more : List Event} (few : SeesFewBetween node payload (log ++ more)) :
    SeesFewBetween node payload log := by
  intro before between after split once
  refine few before between (after ++ more) ?_ once
  rw [split]
  simp

end

/-! ### What a relay sends -/

theorem length_originPeers_le [TurbineHash] (tree : TurbineTree) (payload : List UInt8) (peers : List Pubkey) :
    (tree.originPeers payload peers).length ≤ tree.fanout := by
  unfold TurbineTree.originPeers
  split
  · exact Nat.zero_le _
  · split
    · exact Nat.le_trans (List.length_filterMap_le _ _) (List.length_take_le _ _)
    · exact Nat.le_trans (Option.length_toList_le) tree.positive

/-- What a relay passes on of one payload: to its filter once, and to its peers once. -/
theorem passOn_counts (node v : Pubkey) (payload seen : List UInt8) (relayed : Relayed)
    (own : ∀ packet, relayed.shredForFilter = some packet → packet.bytes = seen) :
    filterings node payload (passOn v seen relayed) ≤ (if v = node ∧ seen = payload then 1 else 0) ∧
      (retransmitters payload (passOn v seen relayed)).count node ≤ (if v = node ∧ seen = payload then 1 else 0) := by
  unfold passOn
  rw [filterings_append, retransmitters_append]
  constructor
  · have silent : filterings node payload
        (if relayed.targets = [] then [] else [.retransmitted v seen relayed.targets]) = 0 := by
      split <;> rfl
    rw [silent, Nat.add_zero]
    cases handed : relayed.shredForFilter with
    | none => exact Nat.zero_le _
    | some packet =>
      have bytes := own packet handed
      by_cases here : v = node ∧ seen = payload
      · simp [filterings, bytes, here]
      · simp [filterings, bytes, here]
  · have silent : retransmitters payload (relayed.shredForFilter.toList.map (Event.filtered v)) = [] := by
      cases relayed.shredForFilter <;> rfl
    rw [silent, List.nil_append]
    split
    · exact Nat.zero_le _
    · by_cases same : seen = payload
      · by_cases here : v = node <;> simp [retransmitters, same, here]
      · simp [retransmitters, same]

theorem mem_passOn {v : Pubkey} {seen : List UInt8} {relayed : Relayed} {event : Event}
    (member : event ∈ passOn v seen relayed) :
    (∃ packet, event = .filtered v packet) ∨ event = .retransmitted v seen relayed.targets := by
  obtain filtered | sent := List.mem_append.mp member
  · obtain ⟨packet, _, rfl⟩ := List.mem_map.mp filtered
    exact .inl ⟨packet, rfl⟩
  · split at sent
    · cases sent
    · exact .inr (List.mem_singleton.mp sent)

theorem not_saw_passOn (node v : Pubkey) (payload seen : List UInt8) (relayed : Relayed) :
    .saw node payload ∉ passOn v seen relayed := by
  intro member
  obtain ⟨packet, same⟩ | same := mem_passOn member
  · cases same
  · cases same

theorem othersSeen_passOn (node v : Pubkey) (payload seen : List UInt8) (relayed : Relayed) :
    othersSeen node payload (passOn v seen relayed) = ∅ := by
  rw [othersSeen, List.toFinset_eq_empty_iff, List.filterMap_eq_nil_iff]
  intro event member
  cases event with
  | saw w other => exact absurd member (not_saw_passOn w v other seen relayed)
  | filtered w packet => rfl
  | originated w other targets => rfl
  | retransmitted w other targets => rfl

/-! ### What a node remembers -/

variable [TurbineHash] {nodes : List Pubkey} {fanout : Nat} {net : Net}

/-- Every relay has the capacity and the fanout it was made with. -/
def Built (fanout : Nat) (net : Net) : Prop :=
  ∀ v, (net.relay v).seenShreds.capacity = seenShredsCapacity ∧ (net.relay v).tree.fanout = max fanout 1

theorem built_mark (built : Built fanout net) (w : Pubkey) (payload : List UInt8) (inFlight : List ShredFrame) :
    Built fanout ⟨Function.update net.relay w ((net.relay w).mark payload), inFlight⟩ := by
  intro v
  by_cases same : v = w
  · subst same
    simp only [Function.update_self, mark, Lru.push_capacity]
    exact built v
  · simp only [Function.update_of_ne same]
    exact built v

/-- One payload at one node: nothing is passed on before it is seen, and once it is, the cache holds it behind no more
than what was seen since. -/
structure Once (node : Pubkey) (payload : List UInt8) (log : List Event) (net : Net) : Prop where
  unseen : .saw node payload ∉ log →
    filterings node payload log = 0 ∧ (retransmitters payload log).count node = 0
  once : filterings node payload log ≤ 1 ∧ (retransmitters payload log).count node ≤ 1
  behind : .saw node payload ∈ log → ∃ before between, log = before ++ .saw node payload :: between ∧
    .saw node payload ∉ between ∧ ((othersSeen node payload between).card < seenShredsCapacity →
      (net.relay node).seenShreds.Behind (shredDedupKey payload)
        ((othersSeen node payload between).toList.map shredDedupKey))

variable {node w : Pubkey} {payload seen : List UInt8} {log rest : List Event} {inFlight : List ShredFrame}

theorem once_start (mode : Pubkey → OverlayMode) : Once node payload [] (start mode fanout) :=
  ⟨fun _ => ⟨rfl, rfl⟩, ⟨Nat.zero_le _, Nat.zero_le _⟩, fun member => (List.not_mem_nil member).elim⟩

/-- A payload known to the node is in its cache when it comes again. -/
theorem peek_of_saw (held : Once node payload log net) (saw : .saw node payload ∈ log) {after : List Event}
    (few : SeesFewBetween node payload (log ++ .saw node payload :: after)) :
    (net.relay node).seenShreds.peek (shredDedupKey payload) = some () := by
  obtain ⟨before, between, split, once, behind⟩ := held.behind saw
  have short := few before between after (by rw [split]) once
  obtain ⟨_, found⟩ := Option.isSome_iff_exists.mp (Lru.behind_isSome (behind short))
  exact found

/-- A node marks a payload it came by. -/
theorem once_mark (built : Built fanout net) (held : Once node payload log net)
    (quiet : ∀ node payload, .saw node payload ∉ rest) (none_seen : othersSeen node payload rest = ∅)
    (few : filterings node payload rest ≤ (if w = node ∧ seen = payload then 1 else 0) ∧
      (retransmitters payload rest).count node ≤ (if w = node ∧ seen = payload then 1 else 0))
    (dropped : w = node → seen = payload → .saw node payload ∈ log →
      filterings node payload rest = 0 ∧ (retransmitters payload rest).count node = 0) :
    Once node payload (log ++ .saw w seen :: rest)
      ⟨Function.update net.relay w ((net.relay w).mark seen), inFlight⟩ := by
  have filters : filterings node payload (log ++ .saw w seen :: rest) =
      filterings node payload log + filterings node payload rest := by
    rw [filterings_append]
    simp [filterings]
  have sends : (retransmitters payload (log ++ .saw w seen :: rest)).count node =
      (retransmitters payload log).count node + (retransmitters payload rest).count node := by
    rw [retransmitters_append, List.count_append]
    simp [retransmitters]
  by_cases here : w = node ∧ seen = payload
  · obtain ⟨rfl, rfl⟩ := here
    simp only [and_self, if_true] at few
    refine ⟨fun absent => (absent (by simp)).elim, ?_, fun _ => ⟨log, rest, rfl, quiet w seen, fun _ => ?_⟩⟩
    · rw [filters, sends]
      by_cases known : .saw w seen ∈ log
      · obtain ⟨noFilter, noSend⟩ := dropped rfl rfl known
        rw [noFilter, noSend]
        exact held.once
      · obtain ⟨noFilter, noSend⟩ := held.unseen known
        rw [noFilter, noSend, Nat.zero_add, Nat.zero_add]
        exact few
    · have room : 0 < (net.relay w).seenShreds.capacity := by
        rw [(built w).1]
        decide
      simp only [Function.update_self, mark]
      exact Lru.behind_mono (Lru.behind_push_self room _ _) (fun j member => (List.not_mem_nil member).elim)
  rw [if_neg here] at few
  have same_filters : filterings node payload (log ++ .saw w seen :: rest) = filterings node payload log := by omega
  have same_sends : (retransmitters payload (log ++ .saw w seen :: rest)).count node =
      (retransmitters payload log).count node := by omega
  have saw_iff : .saw node payload ∈ log ++ .saw w seen :: rest ↔ .saw node payload ∈ log := by
    simp only [List.mem_append, List.mem_cons, quiet, or_false, Event.saw.injEq]
    exact or_iff_left (fun same => here ⟨same.1.symm, same.2.symm⟩)
  refine ⟨?_, ?_, ?_⟩
  · rw [saw_iff, same_filters, same_sends]
    exact held.unseen
  · rw [same_filters, same_sends]
    exact held.once
  · rw [saw_iff]
    intro saw
    obtain ⟨before, between, split, once, behind⟩ := held.behind saw
    refine ⟨before, between ++ .saw w seen :: rest, by rw [split]; simp, ?_, ?_⟩
    · simp only [List.mem_append, List.mem_cons, quiet, once, or_false, false_or, Event.saw.injEq]
      exact fun same => here ⟨same.1.symm, same.2.symm⟩
    have more : othersSeen node payload (between ++ .saw w seen :: rest) =
        othersSeen node payload between ∪ othersSeen node payload [.saw w seen] := by
      rw [othersSeen_append, ← List.singleton_append, othersSeen_append, none_seen, Finset.union_empty]
    rw [more]
    by_cases same : w = node
    · subst same
      have other : seen ≠ payload := fun equal => here ⟨rfl, equal⟩
      have single : othersSeen w payload [.saw w seen] = {seen} := by simp [othersSeen, other]
      rw [single]
      intro short
      simp only [Function.update_self, mark]
      have before_short : (othersSeen w payload between).card < seenShredsCapacity :=
        Nat.lt_of_le_of_lt (Finset.card_le_card Finset.subset_union_left) short
      have kept : (net.relay w).seenShreds.Behind (shredDedupKey payload)
          ((othersSeen w payload between ∪ {seen}).toList.map shredDedupKey) := by
        refine Lru.behind_mono (behind before_short) (fun j member => ?_)
        obtain ⟨other, listed, rfl⟩ := List.mem_map.mp member
        exact List.mem_map_of_mem (Finset.mem_toList.mpr (Finset.mem_union_left _ (Finset.mem_toList.mp listed)))
      by_cases collide : shredDedupKey seen = shredDedupKey payload
      · have room : 0 < (net.relay w).seenShreds.capacity := by
          rw [(built w).1]
          decide
        rw [collide]
        exact Lru.behind_mono (Lru.behind_push_self room _ _) (fun j member => (List.not_mem_nil member).elim)
      · refine Lru.behind_push _ kept collide ?_ ?_
        · exact List.mem_map_of_mem (by simp)
        · rw [(built w).1]
          refine Nat.lt_of_le_of_lt ?_ short
          have size := List.toFinset_card_le
            ((othersSeen w payload between ∪ {seen}).toList.map shredDedupKey)
          rw [List.length_map, Finset.length_toList] at size
          exact size
    · have none_here : othersSeen node payload [.saw w seen] = ∅ := by simp [othersSeen, same]
      rw [none_here, Finset.union_empty]
      simp only [Function.update_of_ne (Ne.symm same)]
      exact behind

/-! ### Steps -/

/-- A delivery of no frame or to no node changes no relay; any other is one frame received. -/
theorem step_deliver_cases (nodes : List Pubkey) (net : Net) (i : Nat) (view : PeerView) (sender : Option Pubkey) :
    (∃ inFlight, step nodes net (.deliver i view sender) = (⟨net.relay, inFlight⟩, [])) ∨
      ∃ frame inFlight, frame.dst ∈ nodes ∧
        step nodes net (.deliver i view sender) = receive ⟨net.relay, inFlight⟩ frame view sender := by
  cases found : net.inFlight[i]? with
  | none => exact .inl ⟨net.inFlight, by simp [step, found]⟩
  | some frame =>
    by_cases member : frame.dst ∈ nodes
    · exact .inr ⟨frame, net.inFlight.eraseIdx i, member, by simp [step, found, member]⟩
    · exact .inl ⟨net.inFlight.eraseIdx i, by simp [step, found, member]⟩

/-- A delivery is of a payload in the cache, and passed over, or of one that is not, and passed on. -/
theorem once_receive (built : Built fanout net) (held : Once node payload log net) (frame : ShredFrame)
    (view : PeerView) (sender : Option Pubkey)
    (few : SeesFewBetween node payload (log ++ (receive net frame view sender).2)) :
    Once node payload (log ++ (receive net frame view sender).2) (receive net frame view sender).1 := by
  unfold receive at few ⊢
  cases cached : (net.relay frame.dst).seenShreds.peek (shredDedupKey frame.payload) with
  | some _ =>
    rw [handleShred_seen view sender cached]
    exact once_mark built held (fun _ _ => List.not_mem_nil) rfl ⟨Nat.zero_le _, Nat.zero_le _⟩ (fun _ _ _ => ⟨rfl, rfl⟩)
  | none =>
    rw [handleShred_unseen view sender cached] at few ⊢
    refine once_mark built held (fun v other => not_saw_passOn v _ other _ _) (othersSeen_passOn ..) ?_ ?_
    · refine passOn_counts node frame.dst payload frame.payload _ (fun packet handed => ?_)
      unfold packetView at handed
      split at handed
      · cases handed
        rfl
      · cases handed
    · rintro rfl rfl saw
      rw [peek_of_saw held saw few] at cached
      cases cached

theorem once_inject (built : Built fanout net) (held : Once node payload log net) (w : Pubkey) (view : PeerView)
    (packet : PacketInfo) :
    Once node payload (log ++ (inject nodes net w view packet).2) (inject nodes net w view packet).1 := by
  unfold inject
  split
  · rw [List.append_nil]
    exact held
  next active =>
    obtain ⟨_, source⟩ := not_or.mp active
    rw [onSourcePacket_source view packet (not_not.mp source)]
    refine once_mark built held ?_ rfl ⟨Nat.zero_le _, Nat.zero_le _⟩ (fun _ _ _ => ⟨rfl, rfl⟩)
    intro v other member
    cases List.mem_singleton.mp member

theorem once_step (built : Built fanout net) (held : Once node payload log net) (input : Input)
    (few : SeesFewBetween node payload (log ++ (step nodes net input).2)) :
    Once node payload (log ++ (step nodes net input).2) (step nodes net input).1 := by
  have elsewhere : ∀ inFlight, Once node payload log ⟨net.relay, inFlight⟩ :=
    fun _ => ⟨held.unseen, held.once, held.behind⟩
  cases input with
  | inject w view packet => exact once_inject built held w view packet
  | deliver i view sender =>
    obtain ⟨inFlight, same⟩ | ⟨frame, inFlight, _, received⟩ := step_deliver_cases nodes net i view sender
    · rw [same, List.append_nil]
      exact elsewhere inFlight
    · rw [received] at few ⊢
      have same : Built fanout ⟨net.relay, inFlight⟩ := built
      exact once_receive same (elsewhere inFlight) frame view sender few
  | lose i =>
    simp only [step, List.append_nil]
    exact elsewhere _

theorem built_step (built : Built fanout net) (input : Input) : Built fanout (step nodes net input).1 := by
  cases input with
  | inject w view packet =>
    simp only [step, inject]
    split
    · exact built
    next active =>
      rw [onSourcePacket_source view packet (not_not.mp (not_or.mp active).2)]
      exact built_mark built w packet.bytes _
  | deliver i view sender =>
    obtain ⟨inFlight, same⟩ | ⟨frame, inFlight, _, received⟩ := step_deliver_cases nodes net i view sender
    · rw [same]
      exact built
    · rw [received]
      unfold receive
      dsimp only
      cases cached : (net.relay frame.dst).seenShreds.peek (shredDedupKey frame.payload) with
      | some _ =>
        rw [handleShred_seen view sender cached]
        exact built_mark built frame.dst frame.payload _
      | none =>
        rw [handleShred_unseen view sender cached]
        exact built_mark built frame.dst frame.payload _
  | lose i => exact built

/-- What a step sends: to no more peers than the fanout, from a node of the network, and as an origin only for an
injection. -/
structure Accounted (nodes : List Pubkey) (fanout : Nat) (payload : List UInt8) (inputs : List Input)
    (log : List Event) : Prop where
  bounded : ∀ event ∈ log, event.targets.length ≤ max fanout 1
  inside : ∀ v ∈ retransmitters payload log, v ∈ nodes
  injected : originations payload log ≤ injections payload inputs

omit [TurbineHash] in
theorem accounted_nil (inputs : List Input) : Accounted nodes fanout payload inputs [] :=
  ⟨fun _ member => (List.not_mem_nil member).elim, fun _ member => (List.not_mem_nil member).elim, Nat.zero_le _⟩

omit [TurbineHash] in
theorem accounted_append {inputs more : List Input} {out : List Event}
    (held : Accounted nodes fanout payload inputs log) (next : Accounted nodes fanout payload more out) :
    Accounted nodes fanout payload (inputs ++ more) (log ++ out) := by
  refine ⟨?_, ?_, ?_⟩
  · intro event member
    cases List.mem_append.mp member with
    | inl before => exact held.bounded event before
    | inr after => exact next.bounded event after
  · intro v member
    rw [retransmitters_append] at member
    cases List.mem_append.mp member with
    | inl before => exact held.inside v before
    | inr after => exact next.inside v after
  · have origins : originations payload (log ++ out) = originations payload log + originations payload out :=
      List.countP_append
    have inputs_eq : injections payload (inputs ++ more) = injections payload inputs + injections payload more :=
      List.countP_append
    have before := held.injected
    have after := next.injected
    omega

omit [TurbineHash] in
theorem accounted_saw {inputs : List Input} {relayed : Relayed} (short : relayed.targets.length ≤ max fanout 1)
    (inside : w ∈ nodes) : Accounted nodes fanout payload inputs (.saw w seen :: passOn w seen relayed) := by
  refine ⟨?_, ?_, ?_⟩
  · intro event member
    obtain rfl | member := List.mem_cons.mp member
    · exact Nat.zero_le _
    obtain ⟨packet, rfl⟩ | rfl := mem_passOn member
    · exact Nat.zero_le _
    · exact short
  · intro v member
    obtain ⟨event, listed, sender⟩ := List.mem_filterMap.mp member
    obtain rfl | listed := List.mem_cons.mp listed
    · cases sender
    obtain ⟨packet, rfl⟩ | rfl := mem_passOn listed
    · cases sender
    · obtain ⟨_, rfl⟩ : seen = payload ∧ w = v := by simpa using sender
      exact inside
  · have none_sent : originations payload (.saw w seen :: passOn w seen relayed) = 0 := by
      refine List.countP_eq_zero.mpr (fun event member => ?_)
      obtain rfl | member := List.mem_cons.mp member
      · simp
      obtain ⟨packet, rfl⟩ | rfl := mem_passOn member
      · simp
      · simp
    rw [none_sent]
    exact Nat.zero_le _

theorem accounted_step (built : Built fanout net) (input : Input) :
    Accounted nodes fanout payload [input] (step nodes net input).2 := by
  cases input with
  | inject w view packet =>
    simp only [step, inject]
    split
    · exact accounted_nil _
    next active =>
      rw [onSourcePacket_source view packet (not_not.mp (not_or.mp active).2)]
      refine ⟨?_, ?_, ?_⟩
      · intro event member
        simp only [List.mem_cons, List.not_mem_nil, or_false] at member
        obtain rfl | rfl := member
        · exact Nat.zero_le _
        · have short := length_originPeers_le (net.relay w).tree packet.bytes
            (view.usablePeers (net.relay w).tree.localPubkey none)
          rw [(built w).2] at short
          exact short
      · intro v member
        simp [retransmitters] at member
      · simp [originations, injections, List.countP_cons]
  | deliver i view sender =>
    obtain ⟨inFlight, same⟩ | ⟨frame, inFlight, member, received⟩ := step_deliver_cases nodes net i view sender
    · rw [same]
      exact accounted_nil _
    rw [received]
    unfold receive
    dsimp only
    refine accounted_saw ?_ ?_
    · cases cached : (net.relay frame.dst).seenShreds.peek (shredDedupKey frame.payload) with
      | some _ =>
        rw [handleShred_seen view sender cached]
        exact Nat.zero_le _
      | none =>
        rw [handleShred_unseen view sender cached, ← (built frame.dst).2]
        exact TurbineTree.length_retransmitPeers_le ..
    · exact member
  | lose i => exact accounted_nil _

/-! ### Runs -/

omit [TurbineHash] in
/-- Frames are sent out by retransmitters and origins, each time to a bounded number of peers. -/
theorem frames_le {bound : Nat} (bounded : ∀ event ∈ log, event.targets.length ≤ bound) :
    frames payload log ≤ bound * ((retransmitters payload log).length + originations payload log) := by
  induction log with
  | nil => exact Nat.zero_le _
  | cons event rest ih =>
    have later := ih (fun other member => bounded other (List.mem_cons_of_mem _ member))
    have here := bounded event (List.mem_cons_self ..)
    have sum : frames payload (event :: rest) = framesOf payload event + frames payload rest := by simp [frames]
    rw [sum]
    cases event with
    | saw v other => simpa [framesOf, retransmitters, originations] using later
    | filtered v packet => simpa [framesOf, retransmitters, originations] using later
    | originated v other targets =>
      have origins : originations payload (.originated v other targets :: rest) =
          originations payload rest + if other = payload then 1 else 0 := by
        simp [originations, List.countP_cons]
      have senders : retransmitters payload (.originated v other targets :: rest) = retransmitters payload rest := rfl
      rw [origins, senders]
      by_cases same : other = payload
      · simp only [framesOf, same, if_true, Event.targets] at here ⊢
        rw [← Nat.add_assoc, Nat.mul_succ]
        omega
      · simp only [framesOf, same, if_false, Nat.zero_add, Nat.add_zero]
        exact later
    | retransmitted v other targets =>
      have origins : originations payload (.retransmitted v other targets :: rest) = originations payload rest := by
        simp [originations]
      rw [origins]
      by_cases same : other = payload
      · have senders : retransmitters payload (.retransmitted v other targets :: rest) =
            v :: retransmitters payload rest := by
          simp [retransmitters, same]
        rw [senders, List.length_cons, Nat.add_right_comm, Nat.mul_succ]
        simp only [framesOf, same, if_true, Event.targets] at here ⊢
        omega
      · have senders : retransmitters payload (.retransmitted v other targets :: rest) =
            retransmitters payload rest := by
          simp [retransmitters, same]
        rw [senders]
        simp only [framesOf, same, if_false, Nat.zero_add]
        exact later

omit [TurbineHash] in
theorem built_start (mode : Pubkey → OverlayMode) : Built fanout (start mode fanout) := fun _ => ⟨rfl, rfl⟩

theorem accounted_run (mode : Pubkey → OverlayMode) (inputs : List Input) :
    Built fanout (run (step nodes) (start mode fanout) inputs).1 ∧
      Accounted nodes fanout payload inputs (run (step nodes) (start mode fanout) inputs).2 :=
  run_history (P := fun inputs net log => Built fanout net ∧ Accounted nodes fanout payload inputs log)
    ⟨built_start mode, accounted_nil []⟩
    (fun _ _ _ input held _ => ⟨built_step held.1 input, accounted_append held.2 (accounted_step held.1 input)⟩)
    inputs (meets_true inputs)

theorem once_run (mode : Pubkey → OverlayMode) (inputs : List Input)
    (few : SeesFewBetween node payload (run (step nodes) (start mode fanout) inputs).2) :
    Once node payload (run (step nodes) (start mode fanout) inputs).2 (run (step nodes) (start mode fanout) inputs).1 := by
  have held : Built fanout (run (step nodes) (start mode fanout) inputs).1 ∧
      (SeesFewBetween node payload (run (step nodes) (start mode fanout) inputs).2 →
        Once node payload (run (step nodes) (start mode fanout) inputs).2
          (run (step nodes) (start mode fanout) inputs).1) := run_history
    (P := fun _ net log => Built fanout net ∧ (SeesFewBetween node payload log → Once node payload log net))
    ⟨built_start mode, fun _ => once_start mode⟩
    (fun _ _ _ input held _ => ⟨built_step held.1 input, fun few =>
      once_step held.1 (held.2 (seesFewBetween_of_append few)) input few⟩)
    inputs (meets_true inputs)
  exact held.2 few

/-- A node that sees few other payloads in between filters and retransmits a payload at most once, to as many peers as
the fanout says; and where all nodes do, a payload injected once is sent out in a bounded number of frames. -/
theorem shred_flood_dies_out (nodes : List Pubkey) (mode : Pubkey → OverlayMode) (fanout : Nat) (payload : List UInt8)
    (inputs : List Input) :
    (∀ node, SeesFewBetween node payload (run (step nodes) (start mode fanout) inputs).2 →
      filterings node payload (run (step nodes) (start mode fanout) inputs).2 ≤ 1 ∧
        (retransmitters payload (run (step nodes) (start mode fanout) inputs).2).count node ≤ 1) ∧
    (∀ event ∈ (run (step nodes) (start mode fanout) inputs).2, event.targets.length ≤ max fanout 1) ∧
    ((∀ node ∈ nodes, SeesFewBetween node payload (run (step nodes) (start mode fanout) inputs).2) →
      injections payload inputs ≤ 1 →
      frames payload (run (step nodes) (start mode fanout) inputs).2 ≤ nodes.length * max fanout 1 + max fanout 1) := by
  have accounted : Accounted nodes fanout payload inputs (run (step nodes) (start mode fanout) inputs).2 :=
    (accounted_run mode inputs).2
  refine ⟨fun node few => (once_run mode inputs few).once, accounted.bounded, fun few single => ?_⟩
  have distinct : (retransmitters payload (run (step nodes) (start mode fanout) inputs).2).Nodup := by
    rw [List.nodup_iff_count_le_one]
    intro v
    by_cases member : v ∈ nodes
    · exact (once_run mode inputs (few v member)).once.2
    · rw [List.count_eq_zero_of_not_mem (fun sender => member (accounted.inside v sender))]
      exact Nat.zero_le _
  have rounds := (List.subperm_of_subset distinct accounted.inside).length_le
  have origins := accounted.injected
  calc frames payload (run (step nodes) (start mode fanout) inputs).2
    _ ≤ max fanout 1 * ((retransmitters payload (run (step nodes) (start mode fanout) inputs).2).length +
        originations payload (run (step nodes) (start mode fanout) inputs).2) := frames_le accounted.bounded
    _ ≤ max fanout 1 * (nodes.length + 1) := Nat.mul_le_mul_left _ (by omega)
    _ = nodes.length * max fanout 1 + max fanout 1 := by rw [Nat.mul_succ, Nat.mul_comm]

omit [TurbineHash]

theorem seesFewBetween_of_length {node : Pubkey} {payload : List UInt8} {log : List Event}
    (short : log.length < seenShredsCapacity) : SeesFewBetween node payload log := by
  intro before between after split _
  have among : (othersSeen node payload between).card ≤ between.length :=
    Nat.le_trans (List.toFinset_card_le _) (List.length_filterMap_le _ _)
  rw [split, List.length_append, List.length_append, List.length_cons] at short
  omega

/-- Both peers of a node are connected to it. -/
def connectedTo (connectedPeers : List Pubkey) : PeerView where
  connectedPeers
  connectionAddr _ := none
  quarantined _ := false
  directPeers := []
  directAddrs _ := []
  hasV6 := false

/-- A shred injected at the first of three nodes, passed on and come back. -/
def aroundThree : List Input :=
  [.inject 1 (connectedTo [2, 3]) onePacket, .deliver 0 (connectedTo [1, 3]) (some 1),
    .deliver 0 (connectedTo [1, 2]) (some 1), .deliver 0 (connectedTo [2, 3]) (some 2)]

theorem shred_flood_dies_out_three :
    0 < frames [7] (run (@step constantHash [1, 2, 3]) (start (fun _ => .source) 2) aroundThree).2 ∧
    frames [7] (run (@step constantHash [1, 2, 3]) (start (fun _ => .source) 2) aroundThree).2 ≤ 3 * 2 + 2 :=
  ⟨by decide +kernel, (@shred_flood_dies_out constantHash [1, 2, 3] (fun _ => .source) 2 [7] aroundThree).2.2
    (fun _ _ => seesFewBetween_of_length (by decide +kernel)) (by decide)⟩

end Lightbringer.Overlay.ShredFlood
