import Lightbringer.Overlay.Gossip
import Mathlib.Data.List.Dedup
import Mathlib.Data.List.Perm.Subperm
import Mathlib.Logic.Function.Basic

/-!
# Flooding an advert

`handle_frame` on a peer advertisement (`overlay/service.rs`) and a network of nodes that handle them. A delivery comes
with what the transport answers then: who is at the other end and who is connected, so that links may come, go and
delay as they like. In between, a core looks peers up in its table, which counts as a use of them. A node passes an advert on when its table accepts it, and the table accepts an advert again once
its entry is over.
-/

namespace Lightbringer.Overlay
open Machine

/-- The 64 bytes of an Ed25519 signature. -/
abbrev Signature := List UInt8

structure SignedPeerAdvert where
  advert : PeerAdvert
  signature : Signature
  deriving DecidableEq

/-- Ed25519 over the encoded advert, under the identity in it. -/
class AdvertSignature where
  verify : SignedPeerAdvert → Bool

/-- What a node keeps of the adverts it hears. -/
structure GossipNode where
  localPubkey : Pubkey
  gossip : LightbringerGossip
  invalidAdverts : Nat

section

variable [AdvertSignature]

/-- The peers the advert is passed on to, when it is. -/
def GossipNode.handlePeerAdvertisement (node : GossipNode) (signed : SignedPeerAdvert) (now : Instant)
    (sender : Option Pubkey) (connected : List Pubkey) : GossipNode × Option (List Pubkey) :=
  if signed.advert.pubkey = node.localPubkey then (node, none)
  else if !AdvertSignature.verify signed then ({ node with invalidAdverts := node.invalidAdverts + 1 }, none)
  else
    match node.gossip.upsert signed.advert now with
    | (gossip, .accepted) =>
      ({ node with gossip := gossip }, some (connected.filter (fun pubkey =>
        pubkey ≠ node.localPubkey ∧ pubkey ≠ signed.advert.pubkey ∧ some pubkey ≠ sender)))
    | (gossip, _) => ({ node with gossip := gossip }, none)

end

structure Envelope where
  dst : Pubkey
  signed : SignedPeerAdvert
  deriving DecidableEq

structure GossipMesh where
  nodes : Pubkey → GossipNode
  inFlight : List Envelope

namespace GossipMesh

inductive Input where
  | deliver (i : Nat) (now : Instant) (sender : Option Pubkey) (connected : List Pubkey)
  | lose (i : Nat)
  /-- A node, or anybody, puts an advert of its own into the network. -/
  | send (envelope : Envelope)
  /-- `gossip.get` of a core, wherever it looks up the advert of a peer. -/
  | lookup (node pubkey : Pubkey) (now : Instant)
  deriving DecidableEq

inductive Event where
  | delivered (dst : Pubkey) (signed : SignedPeerAdvert)
  | forwarded (node : Pubkey) (signed : SignedPeerAdvert) (targets : List Pubkey)
  deriving DecidableEq

/-! ### One advert in the network -/

variable (watched : SignedPeerAdvert) (members : List Pubkey)

/-- The nodes that passed the advert on, one after another. -/
def forwarders (log : List Event) : List Pubkey :=
  log.filterMap (fun event => match event with
    | .forwarded node signed _ => if signed = watched then some node else none
    | .delivered .. => none)

def deliveries (log : List Event) : Nat :=
  log.countP (fun event => match event with
    | .delivered _ signed => signed = watched
    | .forwarded .. => false)

def copies (inFlight : List Envelope) : Nat := inFlight.countP (fun envelope => envelope.signed = watched)

def sends (inputs : List Input) : Nat :=
  inputs.countP (fun input => match input with
    | .send envelope => envelope.signed = watched
    | _ => false)

/-- Among members only, and no other advert of the identity. -/
def admits (envelope : Envelope) : Bool :=
  envelope.dst ∈ members && (envelope.signed.advert.pubkey ≠ watched.advert.pubkey || envelope.signed = watched)

/-- Links connect members, and nobody sends another advert of the identity. -/
def alone : Input → Bool
  | .deliver _ _ _ connected => decide connected.Nodup && connected.all (fun pubkey => pubkey ∈ members)
  | .lose _ => true
  | .send envelope => admits watched members envelope
  | .lookup .. => true

variable {watched members}

theorem forwarders_append (log more : List Event) :
    forwarders watched (log ++ more) = forwarders watched log ++ forwarders watched more := List.filterMap_append

theorem deliveries_append (log more : List Event) :
    deliveries watched (log ++ more) = deliveries watched log + deliveries watched more := List.countP_append

theorem copies_append (watched : SignedPeerAdvert) (inFlight more : List Envelope) :
    copies watched (inFlight ++ more) = copies watched inFlight + copies watched more := List.countP_append

theorem copies_eraseIdx (watched : SignedPeerAdvert) {inFlight : List Envelope} {i : Nat} {envelope : Envelope}
    (found : inFlight[i]? = some envelope) :
    copies watched inFlight = copies watched (inFlight.eraseIdx i) + (if envelope.signed = watched then 1 else 0) := by
  obtain ⟨small, rfl⟩ := List.getElem?_eq_some_iff.mp found
  have whole := (List.getElem_cons_eraseIdx_perm small).countP_eq (fun envelope : Envelope => envelope.signed = watched)
  rw [copies, ← whole, List.countP_cons]
  simp [copies]

theorem copies_eraseIdx_le (watched : SignedPeerAdvert) (inFlight : List Envelope) (i : Nat) :
    copies watched (inFlight.eraseIdx i) ≤ copies watched inFlight := (List.eraseIdx_sublist inFlight i).countP_le

theorem copies_forwarded (signed : SignedPeerAdvert) (targets : List Pubkey) :
    copies watched (targets.map (fun target => ⟨target, signed⟩)) = if signed = watched then targets.length else 0 := by
  unfold copies
  rw [List.countP_map]
  split
  next same => simp [Function.comp_def, same]
  next other => simp [Function.comp_def, other]


/-! ### Steps -/

section

variable [AdvertSignature]

def receive (mesh : GossipMesh) (envelope : Envelope) (now : Instant) (sender : Option Pubkey)
    (connected : List Pubkey) : GossipMesh × List Event :=
  match (mesh.nodes envelope.dst).handlePeerAdvertisement envelope.signed now sender connected with
  | (node, none) => ({ mesh with nodes := Function.update mesh.nodes envelope.dst node }, [])
  | (node, some targets) =>
    ({ nodes := Function.update mesh.nodes envelope.dst node
       inFlight := mesh.inFlight ++ targets.map (fun target => ⟨target, envelope.signed⟩) },
      [.forwarded envelope.dst envelope.signed targets])

def step (mesh : GossipMesh) (input : Input) : GossipMesh × List Event :=
  match input with
  | .deliver i now sender connected =>
    match mesh.inFlight[i]? with
    | none => (mesh, [])
    | some envelope =>
      let (mesh, events) :=
        { mesh with inFlight := mesh.inFlight.eraseIdx i }.receive envelope now sender connected
      (mesh, .delivered envelope.dst envelope.signed :: events)
  | .lose i => ({ mesh with inFlight := mesh.inFlight.eraseIdx i }, [])
  | .send envelope => ({ mesh with inFlight := mesh.inFlight ++ [envelope] }, [])
  | .lookup v pubkey now =>
    let node := mesh.nodes v
    ({ mesh with nodes := Function.update mesh.nodes v { node with gossip := (node.gossip.get pubkey now).1 } }, [])

/-- A node that has the advert still knows it when it comes again, and does not forget it over another one. -/
def remembers (watched : SignedPeerAdvert) (mesh : GossipMesh) (envelope : Envelope) (now : Instant) : Bool :=
  let node := mesh.nodes envelope.dst
  (node.gossip.peers.peek watched.advert.pubkey).all (fun entry => entry.advert ≠ watched.advert ||
    (if envelope.signed = watched then !node.gossip.expired entry now
    else !AdvertSignature.verify envelope.signed || envelope.signed.advert.pubkey = node.localPubkey ||
      node.gossip.peers.victim envelope.signed.advert.pubkey ≠ some watched.advert.pubkey))

def remembered (watched : SignedPeerAdvert) (mesh : GossipMesh) : Input → Bool
  | .deliver i now _ _ => (mesh.inFlight[i]?).all (fun envelope => remembers watched mesh envelope now)
  | _ => true

/-- What a node makes of an advert. -/
theorem handle_cases (node : GossipNode) (signed : SignedPeerAdvert) (now : Instant) (sender : Option Pubkey)
    (connected : List Pubkey) :
    (∃ invalid, node.handlePeerAdvertisement signed now sender connected =
      ({ node with invalidAdverts := invalid }, none)) ∨
    (signed.advert.pubkey ≠ node.localPubkey ∧ AdvertSignature.verify signed = true ∧
      (((node.gossip.upsert signed.advert now).2 ≠ .accepted ∧
        node.handlePeerAdvertisement signed now sender connected =
          ({ node with gossip := (node.gossip.upsert signed.advert now).1 }, none)) ∨
      ((node.gossip.upsert signed.advert now).2 = .accepted ∧ ∃ targets, List.Sublist targets connected ∧
        node.handlePeerAdvertisement signed now sender connected =
          ({ node with gossip := (node.gossip.upsert signed.advert now).1 }, some targets)))) := by
  unfold GossipNode.handlePeerAdvertisement
  split
  · exact .inl ⟨node.invalidAdverts, rfl⟩
  next foreign =>
    split
    · exact .inl ⟨_, rfl⟩
    next valid =>
      refine .inr ⟨foreign, by simpa using valid, ?_⟩
      cases result : node.gossip.upsert signed.advert now with
      | mk gossip outcome =>
        cases outcome with
        | accepted => exact .inr ⟨rfl, _, List.filter_sublist, rfl⟩
        | refreshed => exact .inl ⟨by simp, rfl⟩
        | stale => exact .inl ⟨by simp, rfl⟩

/-! ### Runs -/

variable (watched members) in
/-- The advert after a run: whoever passed it on did so once and knows it, and every copy is accounted for by the copies
there were, those sent since, and one round of them for each node that passed it on. -/
structure Flooding (start : Nat) (inputs : List Input) (mesh : GossipMesh) (log : List Event) : Prop where
  room : ∀ v, (mesh.nodes v).gossip.peers.capacity = maxGossipPeers
  only : ∀ envelope ∈ mesh.inFlight, admits watched members envelope = true
  once : (forwarders watched log).Nodup
  inside : ∀ v ∈ forwarders watched log, v ∈ members
  known : ∀ v ∈ forwarders watched log, (mesh.nodes v).gossip.stored watched.advert.pubkey = some watched.advert
  spent : deliveries watched log + copies watched mesh.inFlight ≤
    start + sends watched inputs + members.length * (forwarders watched log).length

variable {start : Nat} {inputs : List Input} {mesh : GossipMesh} {log : List Event} {envelope : Envelope} {now : Instant}

omit [AdvertSignature] in
theorem room_pos (held : Flooding watched members start inputs mesh log) (v : Pubkey) :
    0 < (mesh.nodes v).gossip.peers.capacity := by
  rw [held.room]
  decide

/-- A node that passed the advert on and remembers it keeps it, and does not accept it again. -/
theorem known_upsert (held : Flooding watched members start inputs mesh log)
    (admitted : admits watched members envelope = true) (mindful : remembers watched mesh envelope now = true)
    (valid : AdvertSignature.verify envelope.signed = true)
    (foreign : envelope.signed.advert.pubkey ≠ (mesh.nodes envelope.dst).localPubkey)
    (before : envelope.dst ∈ forwarders watched log) :
    ((mesh.nodes envelope.dst).gossip.upsert envelope.signed.advert now).1.stored watched.advert.pubkey =
        some watched.advert ∧
    (envelope.signed = watched →
      ((mesh.nodes envelope.dst).gossip.upsert envelope.signed.advert now).2 ≠ .accepted) := by
  have stored := held.known _ before
  obtain ⟨entry, found, same⟩ := Option.map_eq_some_iff.mp stored
  rw [remembers, found, Option.all_some, same] at mindful
  by_cases again : envelope.signed = watched
  · have live : (mesh.nodes envelope.dst).gossip.expired entry now = false := by simpa [again] using mindful
    rw [again]
    obtain ⟨refused, kept⟩ := LightbringerGossip.upsert_known (room_pos held envelope.dst) found same live
    exact ⟨kept, fun _ => refused⟩
  · have apart : watched.advert.pubkey ≠ envelope.signed.advert.pubkey := by
      have only : envelope.signed.advert.pubkey ≠ watched.advert.pubkey := by
        have admission := (Bool.and_eq_true_iff.mp admitted).2
        simpa [again] using admission
      exact only.symm
    have spared : (mesh.nodes envelope.dst).gossip.peers.victim envelope.signed.advert.pubkey ≠
        some watched.advert.pubkey := by
      simpa [again, valid, foreign] using mindful
    exact ⟨LightbringerGossip.stored_upsert_other stored apart spared, fun same => (again same).elim⟩

omit [AdvertSignature] in
theorem flooding_node (held : Flooding watched members start inputs mesh log) {v : Pubkey} {node : GossipNode}
    (room : node.gossip.peers.capacity = maxGossipPeers)
    (keeps : v ∈ forwarders watched log → node.gossip.stored watched.advert.pubkey = some watched.advert) :
    Flooding watched members start inputs { mesh with nodes := Function.update mesh.nodes v node } log := by
  refine ⟨fun w => ?_, held.only, held.once, held.inside, fun w member => ?_, held.spent⟩
  · dsimp only
    by_cases same : w = v
    · subst same
      rw [Function.update_self, room]
    · rw [Function.update_of_ne same, held.room]
  · dsimp only
    by_cases same : w = v
    · subst same
      rw [Function.update_self]
      exact keeps member
    · rw [Function.update_of_ne same]
      exact held.known w member

omit [AdvertSignature] in
/-- Nobody passes the advert on. -/
theorem flooding_quiet (held : Flooding watched members start inputs mesh log) {later : List Input}
    {inFlight : List Envelope} {more : List Event} (only : ∀ envelope ∈ inFlight, admits watched members envelope = true)
    (silent : forwarders watched more = [])
    (spent : deliveries watched log + deliveries watched more + copies watched inFlight ≤
      start + sends watched later + members.length * (forwarders watched log).length) :
    Flooding watched members start later { mesh with inFlight := inFlight } (log ++ more) := by
  have same : forwarders watched (log ++ more) = forwarders watched log := by
    rw [forwarders_append, silent, List.append_nil]
  refine ⟨held.room, only, ?_, ?_, ?_, ?_⟩
  · rw [same]
    exact held.once
  · rw [same]
    exact held.inside
  · rw [same]
    exact held.known
  · rw [same, deliveries_append]
    exact spent

omit [AdvertSignature] in
/-- Copies go out: of another advert they do not count, of this one they are the node's only round. -/
theorem flooding_forwarded (held : Flooding watched members start inputs mesh log) {targets : List Pubkey}
    (admitted : admits watched members envelope = true) (inside : ∀ v ∈ targets, v ∈ members)
    (few : targets.length ≤ members.length)
    (first : envelope.signed = watched → envelope.dst ∉ forwarders watched log ∧
      (mesh.nodes envelope.dst).gossip.stored watched.advert.pubkey = some watched.advert) :
    Flooding watched members start inputs
      { mesh with inFlight := mesh.inFlight ++ targets.map (fun target => ⟨target, envelope.signed⟩) }
      (log ++ [.forwarded envelope.dst envelope.signed targets]) := by
  obtain ⟨member, only⟩ := Bool.and_eq_true_iff.mp admitted
  have admits_all : ∀ other ∈ mesh.inFlight ++ targets.map (fun target => (⟨target, envelope.signed⟩ : Envelope)),
      admits watched members other = true := by
    intro other present
    rcases List.mem_append.mp present with old | new
    · exact held.only other old
    · obtain ⟨target, listed, rfl⟩ := List.mem_map.mp new
      exact Bool.and_eq_true_iff.mpr ⟨decide_eq_true (inside target listed), only⟩
  have silent : deliveries watched (log ++ [.forwarded envelope.dst envelope.signed targets]) = deliveries watched log := by
    rw [deliveries_append]
    rfl
  have counted := copies_append watched mesh.inFlight (targets.map (fun target => ⟨target, envelope.signed⟩))
  rw [copies_forwarded] at counted
  have spent := held.spent
  by_cases same : envelope.signed = watched
  · obtain ⟨fresh, stored⟩ := first same
    have grown : forwarders watched (log ++ [.forwarded envelope.dst envelope.signed targets]) =
        forwarders watched log ++ [envelope.dst] := by
      rw [forwarders_append]
      simp [forwarders, same]
    rw [if_pos same] at counted
    refine ⟨held.room, admits_all, ?_, fun v listed => ?_, fun v listed => ?_, ?_⟩
    · rw [grown]
      exact List.nodup_append.mpr ⟨held.once, List.nodup_singleton _, fun v listed w last equal => by
        rw [List.mem_singleton.mp last] at equal
        exact fresh (equal ▸ listed)⟩
    · rw [grown] at listed
      rcases List.mem_append.mp listed with old | last
      · exact held.inside v old
      · rw [List.mem_singleton.mp last]
        exact of_decide_eq_true member
    · rw [grown] at listed
      rcases List.mem_append.mp listed with old | last
      · exact held.known v old
      · rw [List.mem_singleton.mp last]
        exact stored
    · rw [silent, counted, grown, List.length_append, List.length_singleton, Nat.mul_succ]
      omega
  · rw [if_neg same, Nat.add_zero] at counted
    refine flooding_quiet held admits_all (by simp [forwarders, same]) ?_
    rw [counted]
    exact spent

theorem flooding_receive (held : Flooding watched members start inputs mesh log)
    (admitted : admits watched members envelope = true) (mindful : remembers watched mesh envelope now = true)
    (sender : Option Pubkey) {connected : List Pubkey} (distinct : connected.Nodup)
    (inside : ∀ v ∈ connected, v ∈ members) :
    Flooding watched members start inputs (mesh.receive envelope now sender connected).1
      (log ++ (mesh.receive envelope now sender connected).2) := by
  have room := (LightbringerGossip.upsert_capacity (mesh.nodes envelope.dst).gossip envelope.signed.advert now).trans
    (held.room envelope.dst)
  unfold receive
  rcases handle_cases (mesh.nodes envelope.dst) envelope.signed now sender connected with
    ⟨invalid, ignored⟩ | ⟨foreign, valid, ⟨_, refused⟩ | ⟨accepted, targets, sublist, forwards⟩⟩
  · rw [ignored, List.append_nil]
    exact flooding_node held (held.room envelope.dst) (fun before => held.known _ before)
  · rw [refused, List.append_nil]
    exact flooding_node held room (fun before => (known_upsert held admitted mindful valid foreign before).1)
  · rw [forwards]
    have updated : Flooding watched members start inputs
        { mesh with nodes := Function.update mesh.nodes envelope.dst { mesh.nodes envelope.dst with
          gossip := ((mesh.nodes envelope.dst).gossip.upsert envelope.signed.advert now).1 } } log :=
      flooding_node held room (fun before => (known_upsert held admitted mindful valid foreign before).1)
    have few : targets.length ≤ members.length :=
      Nat.le_trans sublist.length_le (List.subperm_of_subset distinct inside).length_le
    refine flooding_forwarded updated admitted (fun v listed => inside v (sublist.subset listed)) few (fun same => ?_)
    refine ⟨fun before => (known_upsert held admitted mindful valid foreign before).2 same accepted, ?_⟩
    show ((Function.update mesh.nodes envelope.dst _) envelope.dst).gossip.stored _ = _
    rw [Function.update_self]
    rcases LightbringerGossip.upsert_cases (mesh.nodes envelope.dst).gossip envelope.signed.advert now with
      ⟨_, _, _, _, result⟩ | ⟨_, _, _, _, result⟩ | ⟨_, result⟩
    · rw [result] at accepted
      cases accepted
    · rw [result] at accepted
      cases accepted
    · rw [result, same]
      exact LightbringerGossip.stored_observe (room_pos held envelope.dst)

theorem step_deliver {i : Nat} (found : mesh.inFlight[i]? = some envelope) (sender : Option Pubkey)
    (connected : List Pubkey) :
    mesh.step (.deliver i now sender connected) =
      (({ mesh with inFlight := mesh.inFlight.eraseIdx i }.receive envelope now sender connected).1,
        .delivered envelope.dst envelope.signed ::
          ({ mesh with inFlight := mesh.inFlight.eraseIdx i }.receive envelope now sender connected).2) := by
  simp [step, found]

theorem flooding_step (held : Flooding watched members start inputs mesh log) {input : Input}
    (lone : alone watched members input = true) (mindful : remembered watched mesh input = true) :
    Flooding watched members start (inputs ++ [input]) (mesh.step input).1 (log ++ (mesh.step input).2) := by
  have sending : sends watched (inputs ++ [input]) = sends watched inputs + sends watched [input] := List.countP_append
  have spent := held.spent
  cases input with
  | deliver i now sender connected =>
    have idle : sends watched (inputs ++ [.deliver i now sender connected]) = sends watched inputs := sending
    cases found : mesh.inFlight[i]? with
    | none =>
      have same : mesh.step (.deliver i now sender connected) = (mesh, []) := by simp [step, found]
      rw [same]
      refine flooding_quiet held held.only rfl ?_
      rw [idle]
      exact spent
    | some envelope =>
      have admitted := held.only envelope (List.mem_of_getElem? found)
      rw [remembered, found, Option.all_some] at mindful
      obtain ⟨distinct, inside⟩ := Bool.and_eq_true_iff.mp lone
      have taken : Flooding watched members start (inputs ++ [.deliver i now sender connected])
          { mesh with inFlight := mesh.inFlight.eraseIdx i } (log ++ [.delivered envelope.dst envelope.signed]) := by
        refine flooding_quiet held (fun other present => held.only other (List.mem_of_mem_eraseIdx present)) rfl ?_
        have fewer := copies_eraseIdx watched found
        have delivery : deliveries watched [.delivered envelope.dst envelope.signed] =
            if envelope.signed = watched then 1 else 0 := by
          simp [deliveries, List.countP_cons]
        rw [delivery, idle]
        omega
      have received := flooding_receive taken admitted mindful sender (of_decide_eq_true distinct)
        (fun v listed => of_decide_eq_true (List.all_eq_true.mp inside v listed))
      rw [List.append_assoc] at received
      rw [step_deliver found]
      exact received
  | lose i =>
    have idle : sends watched (inputs ++ [.lose i]) = sends watched inputs := sending
    have fewer := copies_eraseIdx_le watched mesh.inFlight i
    refine flooding_quiet held (fun other present => held.only other (List.mem_of_mem_eraseIdx present)) rfl ?_
    have none : deliveries watched (mesh.step (.lose i)).2 = 0 := rfl
    rw [idle]
    omega
  | send envelope =>
    have counted := copies_append watched mesh.inFlight [envelope]
    have sent : sends watched [.send envelope] = copies watched [envelope] := by
      simp [sends, copies, List.countP_cons]
    refine flooding_quiet held (fun other present => ?_) rfl ?_
    · rcases List.mem_append.mp present with old | new
      · exact held.only other old
      · rw [List.mem_singleton.mp new]
        exact lone
    · have none : deliveries watched (mesh.step (.send envelope)).2 = 0 := rfl
      rw [sending, sent, counted]
      omega
  | lookup v pubkey now =>
    have idle : sends watched (inputs ++ [.lookup v pubkey now]) = sends watched inputs := sending
    have quiet : Flooding watched members start (inputs ++ [.lookup v pubkey now]) mesh (log ++ []) := by
      refine flooding_quiet held held.only rfl ?_
      rw [idle]
      exact spent
    refine flooding_node quiet ?_ (fun before => ?_)
    · exact (LightbringerGossip.get_capacity _ pubkey now).trans (held.room v)
    · exact (LightbringerGossip.stored_get _ pubkey now _).trans (quiet.known v before)

/-- Each node passes the advert on at most once, and the network carries a bounded number of its copies: those in flight
at the start, those sent since and one round for each member. -/
theorem advert_flood_dies_out (watched : SignedPeerAdvert) (members : List Pubkey) (mesh : GossipMesh)
    (built : ∀ v, (mesh.nodes v).gossip.peers.capacity = maxGossipPeers)
    (only : ∀ envelope ∈ mesh.inFlight, admits watched members envelope = true) (inputs : List Input)
    (met : Meets step (fun mesh input => alone watched members input = true ∧ remembered watched mesh input = true)
      mesh inputs) :
    (forwarders watched (run step mesh inputs).2).Nodup ∧
    deliveries watched (run step mesh inputs).2 ≤
      copies watched mesh.inFlight + sends watched inputs + members.length * members.length := by
  have begun : Flooding watched members (copies watched mesh.inFlight) [] mesh [] := by
    refine ⟨built, only, List.nodup_nil, ?_, ?_, ?_⟩
    · exact fun v listed => (List.not_mem_nil listed).elim
    · exact fun v listed => (List.not_mem_nil listed).elim
    · simp [deliveries, sends, forwarders]
  have held := run_history (P := fun inputs mesh' log =>
      Flooding watched members (copies watched mesh.inFlight) inputs mesh' log) begun
    (fun _ _ _ _ held here => flooding_step held here.1 here.2) inputs met
  refine ⟨held.once, ?_⟩
  have rounds : (forwarders watched (run step mesh inputs).2).length ≤ members.length :=
    (List.subperm_of_subset held.once held.inside).length_le
  have bound := Nat.mul_le_mul_left members.length rounds
  have spent := held.spent
  omega

end

/-- Every signature at hand is valid. -/
abbrev allValid : AdvertSignature := ⟨fun _ => true⟩

def advertLiving (ttlMs : UInt32) : SignedPeerAdvert := ⟨⟨9, 1, ttlMs, .direct [], .inConnection⟩, List.replicate 64 0⟩

/-- Three connected nodes, one of which the signer reaches. -/
def triangle (ttlMs : UInt32) : GossipMesh where
  nodes v := ⟨v, LightbringerGossip.new (fromSecs 60), 0⟩
  inFlight := [⟨1, advertLiving ttlMs⟩]

/-- Each hop takes ten milliseconds; the second node looks the signer up. -/
def aroundTheTriangle : List Input :=
  [.deliver 0 (fromMillis 10) (some 9) [2, 3], .deliver 0 (fromMillis 20) (some 1) [1, 3],
    .lookup 2 9 (fromMillis 20), .deliver 0 (fromMillis 20) (some 1) [1, 2], .deliver 0 (fromMillis 30) (some 2) [1, 2]]

theorem advert_flood_dies_out_triangle :
    Meets (@step allValid) (fun mesh input => alone (advertLiving 30000) [1, 2, 3] input = true ∧
      @remembered allValid (advertLiving 30000) mesh input = true) (triangle 30000) aroundTheTriangle ∧
    deliveries (advertLiving 30000) (run (@step allValid) (triangle 30000) aroundTheTriangle).2 = 4 ∧
    (forwarders (advertLiving 30000) (run (@step allValid) (triangle 30000) aroundTheTriangle).2).Nodup ∧
    deliveries (advertLiving 30000) (run (@step allValid) (triangle 30000) aroundTheTriangle).2 ≤
      copies (advertLiving 30000) (triangle 30000).inFlight + sends (advertLiving 30000) aroundTheTriangle + 3 * 3 :=
  ⟨by decide +kernel, by decide +kernel,
    @advert_flood_dies_out allValid (advertLiving 30000) [1, 2, 3] (triangle 30000) (fun _ => rfl) (by decide +kernel)
      aroundTheTriangle (by decide +kernel)⟩

/-- With a lifetime shorter than the way around, the third node passes the same advert on twice. -/
theorem short_lived_advert_returns :
    (∀ envelope ∈ (triangle 5).inFlight, admits (advertLiving 5) [1, 2, 3] envelope = true) ∧
    (∀ input ∈ aroundTheTriangle, alone (advertLiving 5) [1, 2, 3] input = true) ∧
    forwarders (advertLiving 5) (run (@step allValid) (triangle 5) aroundTheTriangle).2 = [1, 2, 3, 3] ∧
    ¬ (forwarders (advertLiving 5) (run (@step allValid) (triangle 5) aroundTheTriangle).2).Nodup :=
  ⟨by decide +kernel, by decide +kernel, by decide +kernel, by decide +kernel⟩

end GossipMesh

end Lightbringer.Overlay
