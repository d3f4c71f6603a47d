import Lightbringer.Lib.ReverseIndex
import Lightbringer.Overlay.Sim.NatBox

/-!
# The tables of the NAT agree

`by_port` is the reverse index of `mappings`, and every external port belongs to one internal socket, over its mappings
and its lease, whether or not these have expired. Every call keeps that, at whatever times the calls are made.
-/

namespace Lightbringer.Overlay.Sim.NatBox
open Std ReverseIndex

variable {R : Type} {config : NatConfig} {box box' : NatBox R} {now : UInt64} {port : UInt16}
variable {owner internal : SocketAddr} {slot : Slot}

/-! ### The invariant -/

/-- The mappings and the lease of a port are of one internal socket. -/
structure OwnedBy (box : NatBox R) (port : UInt16) (owner : SocketAddr) : Prop where
  mappings : ∀ (slot : Slot) (mapping : Mapping),
    box.mappings[slot]? = some mapping → mapping.externalPort = port → mapping.internal = owner
  leases : ∀ map : StaticMap, box.staticMaps[port]? = some map → map.internal = owner

/-- The pool goes from `lo` up to `hi`, past zero where `hi` is below. -/
def InPool (box : NatBox R) : Prop :=
  box.nextPort - box.config.portRange.1 ≤ box.config.portRange.2 - box.config.portRange.1

structure Consistent (box : NatBox R) (config : NatConfig) : Prop where
  configured : box.config = config
  lists : Lists Mapping.externalPort box.mappings box.byPort
  keyed : ∀ (slot : Slot) (mapping : Mapping), box.mappings[slot]? = some mapping → mapping.internal = slot.internal
  owned : ∀ port : UInt16, ∃ owner, box.OwnedBy port owner
  inPool : box.InPool

theorem consistent_new [PortRng R] (config : NatConfig) (externalIp : IpAddr) (rngSeed : UInt64) :
    (new config externalIp rngSeed : NatBox R).Consistent config where
  configured := rfl
  lists := lists_empty _
  keyed := by simp [new]
  owned port := ⟨⟨externalIp, port⟩, by simp [new], by simp [new]⟩
  inPool := by simp [InPool, new]

theorem OwnedBy.of_swept (swept : Swept now box box') (owned : box.OwnedBy port owner) : box'.OwnedBy port owner where
  mappings slot mapping found := owned.mappings slot mapping (swept.mappings slot mapping found)
  leases map found := owned.leases map (swept.leases port map found)

theorem Consistent.of_swept (h : box.Consistent config) (swept : Swept now box box')
    (lists : Lists Mapping.externalPort box'.mappings box'.byPort) (inPool : box'.InPool) : box'.Consistent config where
  configured := swept.config.trans h.configured
  lists := lists
  keyed slot mapping found := h.keyed slot mapping (swept.mappings slot mapping found)
  owned port := (h.owned port).imp (fun _ owned => owned.of_swept swept)
  inPool := inPool

/-! ### What the invariant says -/

/-- At `now` a live mapping or a live lease holds the port for the socket. -/
def HeldBy (box : NatBox R) (now : UInt64) (port : UInt16) (internal : SocketAddr) : Prop :=
  (∃ slot mapping, box.live now slot = true ∧ box.mappings[slot]? = some mapping ∧ mapping.externalPort = port ∧
    mapping.internal = internal) ∨
  ∃ map, box.staticMaps[port]? = some map ∧ now ≤ map.expiresAt ∧ map.internal = internal

theorem OwnedBy.heldBy (owned : box.OwnedBy port owner) (held : box.HeldBy now port internal) : internal = owner := by
  rcases held with ⟨slot, mapping, _, found, place, same⟩ | ⟨map, found, _, same⟩
  · exact same.symm.trans (owned.mappings slot mapping found place)
  · exact same.symm.trans (owned.leases map found)

theorem Consistent.nextPort_between (h : box.Consistent config) (ordered : config.portRange.1 ≤ config.portRange.2) :
    config.portRange.1 ≤ box.nextPort ∧ box.nextPort ≤ config.portRange.2 := by
  have inPool := h.inPool
  unfold InPool at inPool
  rw [h.configured] at inPool
  generalize config.portRange.1 = lo at ordered inPool ⊢
  generalize config.portRange.2 = hi at ordered inPool ⊢
  have lo_lt := lo.toNat_lt
  have hi_lt := hi.toNat_lt
  have next_lt := box.nextPort.toNat_lt
  rw [UInt16.le_iff_toNat_le] at ordered
  rw [UInt16.le_iff_toNat_le, UInt16.toNat_sub, UInt16.toNat_sub] at inPool
  rw [UInt16.le_iff_toNat_le, UInt16.le_iff_toNat_le]
  omega

/-! ### Eviction -/

theorem lists_evict (lists : Lists Mapping.externalPort box.mappings box.byPort) (slot : Slot) :
    Lists Mapping.externalPort (box.evict slot).mappings (box.evict slot).byPort := by
  unfold evict
  split
  · exact lists
  next mapping found =>
    have erased := lists.erase found
    unfold unlist at erased
    cases slots : box.byPort[mapping.externalPort]? with
    | none => simpa [slots] using erased
    | some rest => simpa [slots] using erased

theorem evict_nextPort (box : NatBox R) (slot : Slot) : (box.evict slot).nextPort = box.nextPort := by
  unfold evict
  split <;> rfl

theorem consistent_evict (h : box.Consistent config) (dead : box.live now slot = false) :
    (box.evict slot).Consistent config := by
  have swept := swept_evict dead
  refine h.of_swept swept (lists_evict h.lists slot) ?_
  unfold InPool
  rw [swept.config, evict_nextPort]
  exact h.inPool

theorem consistent_evictAll {slots : List Slot} (h : box.Consistent config)
    (dead : ∀ slot ∈ slots, box.live now slot = false) :
    (slots.foldl evict box).Consistent config := by
  induction slots generalizing box with
  | nil => exact h
  | cons slot rest ih =>
    have gone := dead slot (List.mem_cons_self ..)
    have first := swept_evict gone
    exact ih (consistent_evict h gone) (fun other member => first.dead (dead other (List.mem_cons_of_mem _ member)))

theorem getElem?_evict (box : NatBox R) (slot other : Slot) :
    (box.evict slot).mappings[other]? = if slot = other then none else box.mappings[other]? := by
  unfold evict
  split
  next absent =>
    split
    next here => rw [← here, absent]
    next => rfl
  · exact Entries.getElem?_erase ..

theorem not_mem_of_evictAll {slots : List Slot} {mapping : Mapping}
    (found : (slots.foldl evict box).mappings[slot]? = some mapping) : slot ∉ slots := by
  induction slots generalizing box with
  | nil => exact List.not_mem_nil
  | cons first rest ih =>
    refine List.not_mem_cons_of_ne_of_not_mem ?_ (ih found)
    rintro rfl
    -- Nothing brings an evicted slot back.
    have gone : ∀ (slots : List Slot) (box : NatBox R), box.mappings[slot]? = none →
        (slots.foldl evict box).mappings[slot]? = none := by
      intro slots
      induction slots with
      | nil => exact fun _ => id
      | cons next rest ih =>
        intro box absent
        refine ih (box.evict next) ?_
        rw [getElem?_evict, absent]
        split <;> rfl
    rw [List.foldl_cons, gone rest _ (by rw [getElem?_evict, if_pos rfl])] at found
    cases found

/-! ### The search for a port -/

theorem consistent_portShared (h : box.Consistent config) (now : UInt64) (port : UInt16) (shareWith : Option SocketAddr) :
    (box.portShared now port shareWith).1.Consistent config := by
  unfold portShared
  split
  · exact h
  next slots _ =>
    have dead : ∀ slot ∈ slots.filter (fun slot => ! box.live now slot), box.live now slot = false :=
      fun slot member => by simpa using (List.mem_filter.mp member).2
    exact consistent_evictAll h dead

theorem consistent_release (h : box.Consistent config) (port : UInt16) :
    { box with staticMaps := box.staticMaps.erase port }.Consistent config :=
  h.of_swept (swept_release 0 box port) h.lists h.inPool

theorem consistent_portAvailable (h : box.Consistent config) (now : UInt64) (port : UInt16) (shareWith : Option SocketAddr) :
    (box.portAvailable now port shareWith).1.Consistent config := by
  unfold portAvailable
  split
  · exact consistent_portShared h now port shareWith
  · split
    · split
      · exact h
      · exact consistent_portShared h now port shareWith
    · exact consistent_portShared (consistent_release h port) now port shareWith

/-- A port found free for a socket has nothing of other sockets left. -/
theorem ownedBy_portShared {shareWith : Option SocketAddr} (h : box.Consistent config)
    (leases : ∀ map : StaticMap, box.staticMaps[port]? = some map → map.internal = owner)
    (share : ∀ internal ∈ shareWith, internal = owner) (free : (box.portShared now port shareWith).2 = true) :
    (box.portShared now port shareWith).1.OwnedBy port owner := by
  have swept := swept_portShared box now port shareWith
  refine ⟨fun slot mapping found here => ?_, fun map found => leases map (swept.leases port map found)⟩
  have before := swept.mappings slot mapping found
  have listed := (h.lists.mem_iff port slot).mpr ⟨mapping, before, here⟩
  unfold portShared at found free
  cases slots : box.byPort[port]? with
  | none =>
    rw [listed_of_none slots] at listed
    cases listed
  | some occupants =>
    rw [slots] at found free
    rw [listed_of_getElem? slots] at listed
    -- Whatever is left was live.
    have live : box.live now slot = true := by
      have kept := not_mem_of_evictAll found
      rw [List.mem_filter] at kept
      simpa [listed] using kept
    have shares : shareWith = some slot.internal := by
      simpa using List.all_eq_true.mp free slot (List.mem_filter.mpr ⟨listed, live⟩)
    rw [h.keyed slot mapping before]
    exact share slot.internal shares

theorem ownedBy_portAvailable {shareWith : Option SocketAddr} (h : box.Consistent config)
    (share : ∀ internal ∈ shareWith, internal = owner) (free : (box.portAvailable now port shareWith).2 = true) :
    (box.portAvailable now port shareWith).1.OwnedBy port owner := by
  unfold portAvailable at free ⊢
  split at free
  next none =>
    exact ownedBy_portShared h (fun map found => nomatch none.symm.trans found) share free
  next map found =>
    split at free
    next unexpired =>
      rw [if_pos unexpired]
      split at free
      · cases free
      next same =>
        rw [if_neg same]
        refine ownedBy_portShared h (fun other present => ?_) share free
        cases found.symm.trans present
        exact share map.internal (not_not.mp same)
    next past =>
      rw [if_neg past]
      refine ownedBy_portShared (consistent_release h port) (fun other present => ?_) share free
      rw [Entries.getElem?_erase, if_pos rfl] at present
      cases present

/-! ### Writes -/

/-- A mapping may be written where its port is of its own socket and the index is kept. -/
theorem Consistent.put {mapping : Mapping} {byPort : TreeMap UInt16 (List Slot)} {stats : NatStats} (h : box.Consistent config)
    (lists : Lists Mapping.externalPort (box.mappings.insert slot mapping) byPort) (keyed : mapping.internal = slot.internal)
    (owned : box.OwnedBy mapping.externalPort mapping.internal) :
    { box with mappings := box.mappings.insert slot mapping, byPort := byPort, stats := stats }.Consistent config where
  configured := h.configured
  lists := lists
  keyed other mapping' found := by
    rw [Entries.getElem?_insert] at found
    split at found
    next here =>
      cases found
      rw [← here, keyed]
    next => exact h.keyed other mapping' found
  owned port := by
    by_cases here : mapping.externalPort = port
    · subst here
      refine ⟨mapping.internal, fun other mapping' found place => ?_, owned.leases⟩
      rw [Entries.getElem?_insert] at found
      split at found
      · cases found
        rfl
      · exact owned.mappings other mapping' found place
    · obtain ⟨owner, ownedBy⟩ := h.owned port
      refine ⟨owner, fun other mapping' found place => ?_, ownedBy.leases⟩
      rw [Entries.getElem?_insert] at found
      split at found
      · cases found
        exact (here place).elim
      · exact ownedBy.mappings other mapping' found place
  inPool := h.inPool

/-- The mapping of a slot may be refreshed. -/
theorem Consistent.update {mapping mapping' : Mapping} (h : box.Consistent config)
    (found : box.mappings[slot]? = some mapping) (internal : mapping'.internal = mapping.internal)
    (port : mapping'.externalPort = mapping.externalPort) :
    { box with mappings := box.mappings.insert slot mapping' }.Consistent config := by
  obtain ⟨owner, owned⟩ := h.owned mapping'.externalPort
  have same : mapping'.internal = owner := internal.trans (owned.mappings slot mapping found port.symm)
  exact h.put (h.lists.update found port) (internal.trans (h.keyed slot mapping found)) (by rwa [same])

theorem Consistent.counted (h : box.Consistent config) (stats : NatStats) :
    { box with stats := stats }.Consistent config :=
  have owned : ∀ port : UInt16, ∃ owner, OwnedBy { box with stats := stats } port owner :=
    fun port => (h.owned port).imp (fun _ owned => ⟨owned.mappings, owned.leases⟩)
  ⟨h.configured, h.lists, h.keyed, owned, h.inPool⟩

/-! ### Inbound -/

/-- The scan of a port passes all its slots, and finds only expired ones to evict. -/
theorem look_all {seen : Seen} {slots : List Slot} (src : SocketAddr)
    (present : ∀ slot ∈ slots, ∃ mapping, box.mappings[slot]? = some mapping)
    (dead : ∀ slot ∈ seen.expired, box.live now slot = false) :
    ∃ final, slots.foldlM (box.look now src) seen = some final ∧
      ∀ slot ∈ final.expired, box.live now slot = false := by
  induction slots generalizing seen with
  | nil => exact ⟨seen, rfl, dead⟩
  | cons slot rest ih =>
    obtain ⟨mapping, found⟩ := present slot (List.mem_cons_self ..)
    have later : ∀ other ∈ rest, ∃ mapping, box.mappings[other]? = some mapping :=
      fun other member => present other (List.mem_cons_of_mem _ member)
    rw [List.foldlM_cons, look, found, Option.map_some, Option.bind_eq_bind, Option.bind_some]
    refine ih later ?_
    split
    next past =>
      intro other member
      rcases List.mem_append.mp member with before | here
      · exact dead other before
      · rw [List.mem_singleton.mp here]
        simp [live, found, past]
    next => exact dead

theorem consistent_settle {seen : Seen} (h : box.Consistent config)
    (dead : ∀ slot ∈ seen.expired, box.live now slot = false) :
    (box.settle seen).1.Consistent config := by
  have evicted := consistent_evictAll h dead
  unfold settle
  dsimp only
  split
  · exact evicted
  · split
    · exact evicted.counted _
    · exact evicted.counted _

theorem consistent_inboundMapped (h : box.Consistent config) (now : UInt64) (src dst : SocketAddr) :
    ∃ result, box.inboundMapped now src dst = some result ∧ result.1.Consistent config := by
  unfold inboundMapped
  split
  · exact ⟨_, rfl, h.counted _⟩
  next slots found =>
    have present : ∀ slot ∈ slots, ∃ mapping, box.mappings[slot]? = some mapping := by
      intro slot member
      obtain ⟨mapping, here, _⟩ := (h.lists.mem_iff dst.port slot).mp (by rw [listed_of_getElem? found]; exact member)
      exact ⟨mapping, here⟩
    have start : ∀ slot ∈ (⟨[], false, none⟩ : Seen).expired, box.live now slot = false :=
      fun _ member => nomatch member
    obtain ⟨final, scanned, dead⟩ := look_all src present start
    exact ⟨box.settle final, by rw [scanned, Option.map_some], consistent_settle h dead⟩

theorem consistent_inbound (h : box.Consistent config) (now : UInt64) (src dst : SocketAddr) :
    ∃ result, box.inbound now src dst = some result ∧ result.1.Consistent config := by
  unfold inbound
  split
  · exact consistent_inboundMapped h now src dst
  · split
    · exact ⟨_, rfl, h⟩
    · exact consistent_inboundMapped (consistent_release h dst.port) now src dst

/-! ### Leases -/

theorem consistent_lease {map : StaticMap} {stats : NatStats} (h : box.Consistent config)
    (owned : box.OwnedBy port map.internal) :
    { box with staticMaps := box.staticMaps.insert port map, stats := stats }.Consistent config where
  configured := h.configured
  lists := h.lists
  keyed := h.keyed
  owned other := by
    by_cases here : port = other
    · subst here
      refine ⟨map.internal, owned.mappings, fun map' found => ?_⟩
      rw [Entries.getElem?_insert, if_pos rfl] at found
      cases found
      rfl
    · obtain ⟨owner, ownedBy⟩ := h.owned other
      refine ⟨owner, ownedBy.mappings, fun map' found => ownedBy.leases map' ?_⟩
      rwa [Entries.getElem?_insert, if_neg here] at found
  inPool := h.inPool

theorem consistent_staticFree (h : box.Consistent config) (now : UInt64) (port : UInt16) :
    (box.staticFree now port).1.Consistent config := by
  unfold staticFree
  split
  · exact h
  · split
    · exact h
    · exact consistent_release h port

theorem consistent_leasePort (h : box.Consistent config) (now : UInt64) (port : UInt16) (internal : SocketAddr) :
    (box.leasePort now port internal).1.Consistent config := by
  have freed := consistent_staticFree h now port
  unfold leasePort
  dsimp only
  split
  · exact consistent_portAvailable freed now port (some internal)
  · exact freed

theorem ownedBy_leasePort (h : box.Consistent config) (free : (box.leasePort now port internal).2 = true) :
    (box.leasePort now port internal).1.OwnedBy port internal := by
  have freed := consistent_staticFree h now port
  unfold leasePort at free ⊢
  dsimp only at free ⊢
  split at free
  next unleased =>
    rw [if_pos unleased]
    exact ownedBy_portAvailable freed (fun _ member => (Option.mem_some.mp member).symm) free
  next => cases free

theorem consistent_leaseFrom (h : box.Consistent config) (now : UInt64) (map : StaticMap) (ports : List UInt16) :
    (leaseFrom now map box ports).1.Consistent config := by
  induction ports generalizing box with
  | nil => exact h
  | cons port rest ih =>
    have looked := consistent_leasePort h now port map.internal
    unfold leaseFrom
    dsimp only
    split
    next free => exact consistent_lease looked (ownedBy_leasePort h free)
    · exact ih looked

theorem consistent_installStatic (h : box.Consistent config) (now : UInt64) (internal : SocketAddr) (requested : UInt16)
    (lifetime : Nat) : (box.installStatic now internal requested lifetime).1.Consistent config := by
  unfold installStatic
  dsimp only
  split
  · exact consistent_leaseFrom h now _ _
  next existing found =>
    split
    · -- A renewed lease need not be live: its port still is of its own socket.
      obtain ⟨owner, owned⟩ := h.owned requested
      have same : existing.internal = owner := owned.leases existing found
      exact consistent_lease h (by rw [same]; exact owned)
    · exact consistent_leaseFrom h now _ _

theorem consistent_removeStatic (h : box.Consistent config) (internal : SocketAddr) (externalPort : UInt16) :
    (box.removeStatic internal externalPort).Consistent config := by
  unfold removeStatic
  split
  · exact h
  · split
    · exact consistent_release h externalPort
    · exact h

/-! ### Allocation -/

/-- What a search for a port of `owner` comes to. -/
structure Searched (config : NatConfig) (owner : SocketAddr) (result : NatBox R × Option UInt16) : Prop where
  consistent : result.1.Consistent config
  owned : ∀ port : UInt16, result.2 = some port → result.1.OwnedBy port owner

theorem searched_found {shareWith : Option SocketAddr} (h : box.Consistent config)
    (share : ∀ internal ∈ shareWith, internal = owner) (free : (box.portAvailable now port shareWith).2 = true) :
    Searched config owner ((box.portAvailable now port shareWith).1, some port) := by
  refine ⟨consistent_portAvailable h now port shareWith, fun found same => ?_⟩
  cases same
  exact ownedBy_portAvailable h share free

theorem advance_inPool (box : NatBox R) (stride : UInt16) :
    box.advance stride - box.config.portRange.1 ≤ box.config.portRange.2 - box.config.portRange.1 := by
  unfold advance
  obtain ⟨lo, hi⟩ := box.config.portRange
  dsimp only
  have small := (hi - lo).toNat_lt
  have below := Nat.mod_lt ((box.nextPort - lo).toNat + stride.toNat) (Nat.succ_pos (hi - lo).toNat)
  generalize ((box.nextPort - lo).toNat + stride.toNat) % ((hi - lo).toNat + 1) = offset at below
  have back : lo + UInt16.ofNat offset - lo = UInt16.ofNat offset := by
    rw [UInt16.add_comm, UInt16.add_sub_cancel]
  have short : offset < 2 ^ 16 := by omega
  rw [back, UInt16.le_iff_toNat_le, UInt16.toNat_ofNat_of_lt' short]
  omega

theorem consistent_moved (h : box.Consistent config) {nextPort : UInt16} (rng : R)
    (inPool : nextPort - box.config.portRange.1 ≤ box.config.portRange.2 - box.config.portRange.1) :
    { box with nextPort := nextPort, rng := rng }.Consistent config :=
  h.of_swept (swept_moved 0 box nextPort rng) h.lists inPool

theorem searched_walk (h : box.Consistent config) (now : UInt64) (stride : UInt16) (tries : Nat) (owner : SocketAddr) :
    Searched config owner (walk now stride box tries) := by
  induction tries generalizing box with
  | zero => exact ⟨h, fun _ found => by cases found⟩
  | succ tries ih =>
    have moved := consistent_moved h box.rng (advance_inPool box stride)
    have looked := consistent_portAvailable moved now box.nextPort none
    unfold walk
    dsimp only
    split
    next free => exact searched_found moved (fun internal member => absurd member (Option.not_mem_none internal)) free
    · exact ih looked

variable [PortRng R]

theorem searched_draw (h : box.Consistent config) (now : UInt64) (tries : Nat) (owner : SocketAddr) :
    Searched config owner (draw now box tries) := by
  induction tries generalizing box with
  | zero => exact ⟨h, fun _ found => by cases found⟩
  | succ tries ih =>
    unfold draw
    dsimp only
    generalize PortRng.randomRange box.rng box.config.portRange.1 box.config.portRange.2 = drawn
    have moved := consistent_moved h drawn.2 h.inPool
    have looked := consistent_portAvailable moved now drawn.1 none
    split
    next free => exact searched_found moved (fun internal member => absurd member (Option.not_mem_none internal)) free
    · exact ih looked

theorem searched_allocateAny (h : box.Consistent config) (now : UInt64) (owner : SocketAddr) :
    Searched config owner (box.allocateAny now) := by
  unfold allocateAny
  dsimp only
  split
  · exact searched_walk h now _ _ owner
  · exact searched_walk h now _ _ owner
  · exact searched_draw h now _ owner

theorem searched_allocatePort (h : box.Consistent config) (now : UInt64) (internal : SocketAddr) :
    Searched config internal (box.allocatePort now internal) := by
  unfold allocatePort
  dsimp only
  split
  · have looked := consistent_portAvailable h now internal.port (some internal)
    split
    next free => exact searched_found h (fun _ member => (Option.mem_some.mp member).symm) free
    · exact searched_allocateAny looked now internal
  · exact searched_allocateAny h now internal

/-! ### Outbound -/

theorem consistent_createMapping (h : box.Consistent config) (now : UInt64) {slot : Slot} (dst : SocketAddr)
    (absent : box.mappings[slot]? = none) : (box.createMapping now slot dst).1.Consistent config := by
  have searched := searched_allocatePort h now slot.internal
  have swept := swept_allocatePort box now slot.internal
  unfold createMapping
  generalize box.allocatePort now slot.internal = result at searched swept
  obtain ⟨after, port⟩ := result
  cases port with
  | none => exact searched.consistent.counted _
  | some port =>
    have still : after.mappings[slot]? = none := by
      rw [Option.eq_none_iff_forall_ne_some]
      intro mapping found
      cases absent.symm.trans (swept.mappings slot mapping found)
    exact searched.consistent.put (searched.consistent.lists.insert still _) rfl (searched.owned port rfl)

theorem consistent_outboundMapped (h : box.Consistent config) (now : UInt64) (slot : Slot) (dst : SocketAddr) :
    (box.outboundMapped now slot dst).1.Consistent config := by
  have fresh : (if (box.mappings[slot]?).any (fun mapping => box.expired mapping now) then box.evict slot
      else box).Consistent config := by
    split
    next past =>
      have dead : box.live now slot = false := by
        cases found : box.mappings[slot]? with
        | none => simp [live, found]
        | some mapping =>
          rw [found] at past
          simpa [live, found] using past
      exact consistent_evict h dead
    · exact h
  unfold outboundMapped
  dsimp only
  split
  next mapping found => exact fresh.update found rfl rfl
  next absent => exact consistent_createMapping fresh now dst absent

theorem consistent_outbound (h : box.Consistent config) (now : UInt64) (src dst : SocketAddr) :
    (box.outbound now src dst).1.Consistent config := by
  unfold outbound
  split
  · exact h
  · exact consistent_outboundMapped h now _ dst

/-! ### Runs -/

inductive Call where
  | outbound (now : UInt64) (src dst : SocketAddr)
  | inbound (now : UInt64) (src dst : SocketAddr)
  | installStatic (now : UInt64) (internal : SocketAddr) (requested : UInt16) (lifetime : Nat)
  | removeStatic (internal : SocketAddr) (externalPort : UInt16)

/-- The box after a call, unless it panics. -/
def call (box : NatBox R) : Call → Option (NatBox R)
  | .outbound now src dst => some (box.outbound now src dst).1
  | .inbound now src dst => (box.inbound now src dst).map Prod.fst
  | .installStatic now internal requested lifetime => some (box.installStatic now internal requested lifetime).1
  | .removeStatic internal externalPort => some (box.removeStatic internal externalPort)

theorem consistent_call (h : box.Consistent config) (c : Call) :
    ∃ after, box.call c = some after ∧ after.Consistent config := by
  cases c with
  | outbound now src dst => exact ⟨_, rfl, consistent_outbound h now src dst⟩
  | inbound now src dst =>
    obtain ⟨result, passed, after⟩ := consistent_inbound h now src dst
    exact ⟨result.1, by rw [call, passed, Option.map_some], after⟩
  | installStatic now internal requested lifetime =>
    exact ⟨_, rfl, consistent_installStatic h now internal requested lifetime⟩
  | removeStatic internal externalPort => exact ⟨_, rfl, consistent_removeStatic h internal externalPort⟩

theorem consistent_calls (h : box.Consistent config) (calls : List Call) :
    ∃ after, calls.foldlM call box = some after ∧ after.Consistent config := by
  induction calls generalizing box with
  | nil => exact ⟨box, rfl, h⟩
  | cons c rest ih =>
    obtain ⟨next, called, consistent⟩ := consistent_call h c
    obtain ⟨after, others, last⟩ := ih consistent
    exact ⟨after, by rw [List.foldlM_cons, called]; exact others, last⟩

/-- No run of calls panics, `by_port` stays the reverse index of `mappings`, the next port stays in the pool, and no two
sockets hold a port. -/
theorem tables_agree (config : NatConfig) (externalIp : IpAddr) (rngSeed : UInt64) (calls : List Call) :
    ∃ box : NatBox R, calls.foldlM call (new config externalIp rngSeed) = some box ∧
      Lists Mapping.externalPort box.mappings box.byPort ∧
      (config.portRange.1 ≤ config.portRange.2 →
        config.portRange.1 ≤ box.nextPort ∧ box.nextPort ≤ config.portRange.2) ∧
      ∀ now port internal internal',
        box.HeldBy now port internal → box.HeldBy now port internal' → internal = internal' := by
  obtain ⟨box, reached, h⟩ := consistent_calls (consistent_new (R := R) config externalIp rngSeed) calls
  refine ⟨box, reached, h.lists, h.nextPort_between, fun now port internal internal' held held' => ?_⟩
  obtain ⟨owner, owned⟩ := h.owned port
  exact (owned.heldBy held).trans (owned.heldBy held').symm

end Lightbringer.Overlay.Sim.NatBox
