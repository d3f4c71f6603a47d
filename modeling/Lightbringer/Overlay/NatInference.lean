import Lightbringer.Overlay.ConsistentMapping
import Lightbringer.Overlay.Sim.NatBox

/-!
# What the observations say of the NAT

A fresh box, one internal socket behind it, and the addresses its destinations report. While no mapping expires a
mapping key has one external address; a sequential allocator hands out the ports of a progression.
-/

namespace Lightbringer.Overlay.Sim
open Std Machine

structure Send where
  now : UInt64
  dst : SocketAddr
  deriving DecidableEq

namespace NatBox

section
variable {R : Type} [PortRng R]

/-- One send from the socket; its destination reports where it came from. -/
def send (src : SocketAddr) (box : NatBox R) (send : Send) : NatBox R × List Observation :=
  match box.outbound send.now src send.dst with
  | (box, .ok pass) => (box, [⟨send.dst, pass.external⟩])
  | (box, .error _) => (box, [])

/-- What is observed of a fresh box. -/
def observe (R : Type) [PortRng R] (config : NatConfig) (externalIp : IpAddr) (rngSeed : UInt64) (src : SocketAddr)
    (sends : List Send) : List Observation :=
  (run (send src) (new config externalIp rngSeed : NatBox R) sends).2

end

/-- No two sends are further apart than a mapping may idle. -/
def WithinIdle (config : NatConfig) (sends : List Send) : Prop :=
  ∀ a ∈ sends, ∀ b ∈ sends, saturatingSub b.now a.now ≤ asNanos config.idleTimeout

variable {R : Type} {config : NatConfig} {externalIp : IpAddr} {src : SocketAddr} {all : List Send} {box : NatBox R}
  {out : List Observation}

def slotOf (config : NatConfig) (src dst : SocketAddr) : Slot := ⟨src, mapKey config.mapping dst⟩

/-- Every mapping was refreshed by one of the sends, and what was observed still holds. -/
structure Tracks (config : NatConfig) (externalIp : IpAddr) (src : SocketAddr) (all : List Send) (box : NatBox R)
    (out : List Observation) : Prop where
  configured : box.config = config
  external : box.externalIp = externalIp
  unleased : ∀ port : UInt16, box.staticMaps[port]? = none
  refreshed : ∀ (slot : Slot) (mapping : Mapping), box.mappings[slot]? = some mapping →
    ∃ send ∈ all, mapping.lastRefresh = send.now
  seen : ∀ observation ∈ out, ∃ mapping : Mapping, box.mappings[slotOf config src observation.observer]? = some mapping ∧
    observation.mapping = ⟨externalIp, mapping.externalPort⟩

theorem tracks_new [PortRng R] (config : NatConfig) (externalIp : IpAddr) (rngSeed : UInt64) (src : SocketAddr) (all : List Send) :
    Tracks config externalIp src all (new config externalIp rngSeed : NatBox R) [] :=
  ⟨rfl, rfl, fun _ => TreeMap.getElem?_emptyc, fun _ _ found => by simp [new] at found, nofun⟩

/-- Nothing expires while the sends last. -/
theorem Tracks.live (tracks : Tracks config externalIp src all box out) (within : WithinIdle config all) {send : Send}
    (member : send ∈ all) {slot : Slot} {mapping : Mapping} (found : box.mappings[slot]? = some mapping) :
    box.live send.now slot = true := by
  obtain ⟨earlier, known, refreshed⟩ := tracks.refreshed slot mapping found
  have close := within earlier known send member
  simpa [NatBox.live, found, expired, tracks.configured, refreshed] using close

theorem Tracks.swept (tracks : Tracks config externalIp src all box out) (within : WithinIdle config all) {send : Send}
    (member : send ∈ all) {box' : NatBox R} (swept : Swept send.now box box') :
    ∀ slot : Slot, box'.mappings[slot]? = box.mappings[slot]? := by
  intro slot
  cases found : box.mappings[slot]? with
  | some mapping => rw [swept.kept slot (tracks.live within member found), found]
  | none =>
    cases after : box'.mappings[slot]? with
    | none => rfl
    | some mapping =>
      rw [swept.mappings slot mapping after] at found
      cases found

/-- The mapping that a send finds or makes. -/
def refresh (send : Send) (mapping : Mapping) : Mapping :=
  { mapping with lastRefresh := send.now, allowed := mapping.allowed.insert send.dst }

/-- What a send does to a box whose mappings are all alive. -/
theorem send_cases [PortRng R] (tracks : Tracks config externalIp src all box out) (within : WithinIdle config all) {send : Send}
    (member : send ∈ all) :
    (∃ mapping : Mapping, box.mappings[slotOf config src send.dst]? = some mapping ∧
      box.send src send = ({ box with mappings := box.mappings.insert (slotOf config src send.dst) (refresh send mapping) },
        [⟨send.dst, ⟨externalIp, mapping.externalPort⟩⟩])) ∨
    box.mappings[slotOf config src send.dst]? = none ∧
      box.send src send = match box.createMapping send.now (slotOf config src send.dst) send.dst with
        | (box, .ok pass) => (box, [⟨send.dst, pass.external⟩])
        | (box, .error _) => (box, []) := by
  have unpinned : box.staticPort send.now src = none := by
    unfold staticPort
    rw [Option.map_eq_none_iff, List.find?_eq_none]
    intro entry listed
    have found := TreeMap.mem_toList_iff_getElem?_eq_some.mp listed
    rw [tracks.unleased] at found
    cases found
  have slot : (⟨src, mapKey box.config.mapping send.dst⟩ : Slot) = slotOf config src send.dst := by
    rw [tracks.configured, slotOf]
  unfold NatBox.send outbound
  rw [unpinned]
  dsimp only
  rw [slot]
  unfold outboundMapped
  cases found : box.mappings[slotOf config src send.dst]? with
  | none =>
    refine .inr ⟨rfl, ?_⟩
    dsimp only [Option.any_none]
    rw [if_neg Bool.false_ne_true, found]
  | some mapping =>
    have alive : ¬ box.expired mapping send.now = true := by
      simpa [NatBox.live, found] using tracks.live within member found
    refine .inl ⟨mapping, rfl, ?_⟩
    dsimp only [Option.any_some]
    rw [if_neg alive, found, ← tracks.external]
    rfl

/-- A mapping is put down by a send, under its old port if there was one. -/
theorem Tracks.put (tracks : Tracks config externalIp src all box out) {send : Send} (member : send ∈ all)
    {box' : NatBox R} (mapping : Mapping) (configured : box'.config = box.config)
    (external : box'.externalIp = box.externalIp) (unleased : ∀ port : UInt16, box'.staticMaps[port]? = none)
    (put : ∀ slot : Slot, box'.mappings[slot]? =
      if slotOf config src send.dst = slot then some mapping else box.mappings[slot]?)
    (refreshed : mapping.lastRefresh = send.now)
    (same : ∀ old : Mapping, box.mappings[slotOf config src send.dst]? = some old →
      old.externalPort = mapping.externalPort) :
    Tracks config externalIp src all box' (out ++ [⟨send.dst, ⟨externalIp, mapping.externalPort⟩⟩]) where
  configured := configured.trans tracks.configured
  external := external.trans tracks.external
  unleased := unleased
  refreshed slot other found := by
    rw [put] at found
    split at found
    · obtain rfl := Option.some.inj found
      exact ⟨send, member, refreshed⟩
    · exact tracks.refreshed slot other found
  seen observation observed := by
    rw [put]
    rcases List.mem_append.mp observed with before | last
    · obtain ⟨old, found, reported⟩ := tracks.seen observation before
      split
      next here =>
        rw [← here] at found
        exact ⟨mapping, rfl, by rw [reported, same old found]⟩
      · exact ⟨old, found, reported⟩
    · rw [List.mem_singleton.mp last]
      exact ⟨mapping, if_pos rfl, rfl⟩

theorem Tracks.unleased_of_swept (tracks : Tracks config externalIp src all box out) {now : UInt64} {box' : NatBox R}
    (swept : Swept now box box') (port : UInt16) : box'.staticMaps[port]? = none := by
  cases found : box'.staticMaps[port]? with
  | none => rfl
  | some map =>
    have leased := swept.leases port map found
    rw [tracks.unleased] at leased
    cases leased

theorem tracks_send [PortRng R] (tracks : Tracks config externalIp src all box out) (within : WithinIdle config all)
    {send : Send} (member : send ∈ all) :
    Tracks config externalIp src all (box.send src send).1 (out ++ (box.send src send).2) := by
  rcases send_cases tracks within member with ⟨mapping, found, sent⟩ | ⟨fresh, sent⟩
  · rw [sent]
    refine tracks.put member (refresh send mapping) rfl rfl tracks.unleased
      (fun slot => Entries.getElem?_insert ..) rfl (fun old known => ?_)
    rw [found] at known
    rw [← Option.some.inj known, refresh]
  · have swept := swept_allocatePort box send.now (slotOf config src send.dst).internal
    have unleased := tracks.unleased_of_swept swept
    have kept := tracks.swept within member swept
    rw [sent, createMapping]
    generalize box.allocatePort send.now (slotOf config src send.dst).internal = allocated at swept unleased kept
    obtain ⟨box', port⟩ := allocated
    cases port with
    | none =>
      refine ⟨swept.config.trans tracks.configured, swept.externalIp.trans tracks.external, unleased, ?_, ?_⟩
      · intro slot mapping found
        exact tracks.refreshed slot mapping ((kept slot).symm.trans found)
      · intro observation observed
        rw [List.append_nil] at observed
        obtain ⟨mapping, found, reported⟩ := tracks.seen observation observed
        exact ⟨mapping, (kept _).trans found, reported⟩
    | some port =>
      dsimp only at swept unleased kept ⊢
      rw [swept.externalIp.trans tracks.external]
      refine tracks.put member ⟨src, port, send.now, [send.dst]⟩ swept.config tracks.external.symm unleased
        (fun slot => ?_) rfl (fun old known => ?_)
      · exact (Entries.getElem?_insert ..).trans (by rw [kept]; rfl)
      · rw [fresh] at known
        cases known

theorem meets_sends [PortRng R] (src : SocketAddr) (box : NatBox R) (sends : List Send) :
    Meets (NatBox.send src) (fun _ send => send ∈ sends) box sends := meets_of_forall (fun _ member => member)

theorem tracks_run (R : Type) [PortRng R] {sends : List Send} (within : WithinIdle config sends) (externalIp : IpAddr)
    (rngSeed : UInt64) (src : SocketAddr) :
    Tracks config externalIp src sends (run (NatBox.send src) (new config externalIp rngSeed : NatBox R) sends).1
      (observe R config externalIp rngSeed src sends) :=
  run_history (P := fun _ box out => Tracks config externalIp src sends box out)
    (tracks_new config externalIp rngSeed src sends)
    (fun _ _ _ _ tracks member => tracks_send tracks within member) sends (meets_sends src _ sends)

/-- While nothing expires, a mapping key has one external address. -/
theorem observe_congr (R : Type) [PortRng R] {sends : List Send} (within : WithinIdle config sends) (externalIp : IpAddr)
    (rngSeed : UInt64) (src : SocketAddr) :
    ∀ a ∈ observe R config externalIp rngSeed src sends, ∀ b ∈ observe R config externalIp rngSeed src sends,
      mapKey config.mapping a.observer = mapKey config.mapping b.observer → a.mapping = b.mapping := by
  intro a first b second same
  have tracks := tracks_run R within externalIp rngSeed src
  obtain ⟨mapping, found, reported⟩ := tracks.seen a first
  obtain ⟨mapping', found', reported'⟩ := tracks.seen b second
  rw [slotOf, same, ← slotOf, found'] at found
  rw [reported, reported', Option.some.inj found]

/-! ### The walk of a sequential allocator -/

def destinations (sends : List Send) : Nat := (sends.map (·.dst)).dedup.length

theorem destinations_known {sends : List Send} {send : Send} (known : send.dst ∈ sends.map (·.dst)) :
    destinations (sends ++ [send]) = destinations sends := by
  have last := length_dedup_perm (List.perm_append_singleton send.dst (sends.map (·.dst)))
  rw [List.dedup_cons_of_mem known] at last
  unfold destinations
  rw [List.map_append, List.map_singleton, last]

theorem destinations_fresh {sends : List Send} {send : Send} (fresh : send.dst ∉ sends.map (·.dst)) :
    destinations (sends ++ [send]) = destinations sends + 1 := by
  have last := length_dedup_perm (List.perm_append_singleton send.dst (sends.map (·.dst)))
  rw [List.dedup_cons_of_notMem fresh, List.length_cons] at last
  unfold destinations
  rw [List.map_append, List.map_singleton, last]

/-- As many ports as this, a stride apart, fit into the pool. -/
def NoWrap (config : NatConfig) (stride : UInt16) (count : Nat) : Prop :=
  config.portRange.1.toNat + (count - 1) * stride.toNat ≤ config.portRange.2.toNat

/-- The port is one of the first ones of the walk. -/
def OnWalk (config : NatConfig) (stride : UInt16) (count : Nat) (port : UInt16) : Prop :=
  ∃ i < count, port.toNat = config.portRange.1.toNat + i * stride.toNat

theorem OnWalk.mono {stride port : UInt16} {count : Nat} (on : OnWalk config stride count port) :
    OnWalk config stride (count + 1) port := by
  obtain ⟨i, less, same⟩ := on
  exact ⟨i, Nat.lt_succ_of_lt less, same⟩

theorem onWalk_succ_iff {stride port next : UInt16} {count : Nat}
    (place : next.toNat = config.portRange.1.toNat + count * stride.toNat) :
    OnWalk config stride (count + 1) port ↔ OnWalk config stride count port ∨ port = next := by
  constructor
  · rintro ⟨i, less, same⟩
    rcases Nat.lt_succ_iff_lt_or_eq.mp less with before | rfl
    · exact .inl ⟨i, before, same⟩
    · exact .inr (UInt16.toNat_inj.mp (same.trans place.symm))
  · rintro (on | rfl)
    · exact on.mono
    · exact ⟨count, Nat.lt_succ_self count, place⟩

/-- Where the walk stands, which ports it has given away and to whom. -/
structure Walked (config : NatConfig) (src : SocketAddr) (stride : UInt16) (sends : List Send) (box : NatBox R)
    (out : List Observation) : Prop where
  next : NoWrap config stride (destinations sends + 1) →
    box.nextPort.toNat = config.portRange.1.toNat + destinations sends * stride.toNat
  used : ∀ (port : UInt16) (slots : List Slot), box.byPort[port]? = some slots →
    OnWalk config stride (destinations sends) port
  known : ∀ dst, dst ∈ sends.map (·.dst) ↔ (box.mappings[slotOf config src dst]?).isSome
  held : ∀ dst (mapping : Mapping), box.mappings[slotOf config src dst]? = some mapping →
    OnWalk config stride (destinations sends) mapping.externalPort
  ports : ∀ port, port ∈ out.map (·.mapping.port) ↔ OnWalk config stride (destinations sends) port

theorem walked_new [PortRng R] (config : NatConfig) (externalIp : IpAddr) (rngSeed : UInt64) (src : SocketAddr)
    (stride : UInt16) : Walked config src stride [] (new config externalIp rngSeed : NatBox R) [] := by
  have none : ∀ port, ¬ OnWalk config stride (destinations []) port := fun _ on => Nat.not_lt_zero _ on.choose_spec.1
  refine ⟨fun _ => ?_, fun _ _ found => by simp [new] at found, fun _ => by simp [new], fun _ _ found => ?_,
    fun port => ⟨nofun, fun on => (none port on).elim⟩⟩
  · show config.portRange.1.toNat = config.portRange.1.toNat + 0 * stride.toNat
    rw [Nat.zero_mul, Nat.add_zero]
  · simp [new] at found

theorem walk_free (box : NatBox R) (now : UInt64) (stride : UInt16) (tries : Nat)
    (unleased : box.staticMaps[box.nextPort]? = none) (unused : box.byPort[box.nextPort]? = none) :
    walk now stride box (tries + 1) = ({ box with nextPort := box.advance stride }, some box.nextPort) := by
  unfold walk portAvailable portShared
  dsimp only
  rw [unleased]
  dsimp only
  rw [unused]
  rfl

theorem allocatePort_sequential [PortRng R] {stride : UInt16} (sequential : box.config.allocator = .sequential stride)
    (moves : 1 ≤ stride) (now : UInt64) (internal : SocketAddr) (unleased : box.staticMaps[box.nextPort]? = none)
    (unused : box.byPort[box.nextPort]? = none) :
    box.allocatePort now internal = ({ box with nextPort := box.advance stride }, some box.nextPort) := by
  have stands : max stride 1 = stride := by
    show (if stride ≤ 1 then 1 else stride) = stride
    split
    next small => exact UInt16.le_antisymm moves small
    · rfl
  have walks : ¬ (box.config.allocator = .preserving ∧ box.config.portRange.1 ≤ internal.port ∧
      internal.port ≤ box.config.portRange.2) := by
    rw [sequential]
    exact fun preserving => nomatch preserving.1
  unfold allocatePort allocateAny
  dsimp only
  rw [if_neg walks, sequential]
  dsimp only
  rw [stands]
  exact walk_free box now stride _ unleased unused

theorem toNat_advance {stride : UInt16} {count : Nat} (configured : box.config = config)
    (place : box.nextPort.toNat = config.portRange.1.toNat + count * stride.toNat)
    (fits : NoWrap config stride (count + 2)) :
    (box.advance stride).toNat = config.portRange.1.toNat + (count + 1) * stride.toNat := by
  obtain ⟨_, _, _, _, lo, hi⟩ := config
  have small := hi.toNat_lt
  have grows : count * stride.toNat + stride.toNat = (count + 1) * stride.toNat := (Nat.succ_mul ..).symm
  have within : lo.toNat + (count + 1) * stride.toNat ≤ hi.toNat := fits
  unfold advance
  rw [configured]
  dsimp only at place ⊢
  have gone : (box.nextPort - lo).toNat = count * stride.toNat := by
    rw [UInt16.toNat_sub_of_le _ _ (UInt16.le_iff_toNat_le.mpr (by omega)), place, Nat.add_sub_cancel_left]
  have span : (hi - lo).toNat = hi.toNat - lo.toNat :=
    UInt16.toNat_sub_of_le _ _ (UInt16.le_iff_toNat_le.mpr (by omega))
  have offset : ((box.nextPort - lo).toNat + stride.toNat) % ((hi - lo).toNat + 1) = (count + 1) * stride.toNat := by
    rw [gone, span, grows]
    exact Nat.mod_eq_of_lt (by omega)
  have short : (count + 1) * stride.toNat < 2 ^ 16 := by omega
  rw [offset, UInt16.toNat_add, UInt16.toNat_ofNat_of_lt' short]
  exact Nat.mod_eq_of_lt (by omega)

theorem slotOf_injective (pairs : config.mapping = .dstAddrPort) {dst dst' : SocketAddr}
    (same : slotOf config src dst = slotOf config src dst') : dst = dst' := by
  simp only [slotOf, pairs, mapKey, Slot.mk.injEq, true_and, MapKey.addrPort.injEq] at same
  obtain ⟨ip, port⟩ := dst
  obtain ⟨ip', port'⟩ := dst'
  rw [show ip = ip' from same.1, show port = port' from same.2]

theorem mem_destinations_concat {sends : List Send} {send : Send} {dst : SocketAddr} :
    dst ∈ (sends ++ [send]).map (·.dst) ↔ dst ∈ sends.map (·.dst) ∨ dst = send.dst := by simp

section
variable {stride : UInt16} {sends : List Send} {send : Send}

theorem Walked.known_insert (pairs : config.mapping = .dstAddrPort) (walked : Walked config src stride sends box out)
    (mapping : Mapping) (dst : SocketAddr) : dst ∈ (sends ++ [send]).map (·.dst) ↔
      ((box.mappings.insert (slotOf config src send.dst) mapping)[slotOf config src dst]?).isSome := by
  rw [mem_destinations_concat, walked.known, Entries.getElem?_insert]
  split
  next here => simp [slotOf_injective pairs here]
  next apart =>
    have other : dst ≠ send.dst := fun same => apart (by rw [same])
    simp [other]

theorem walked_again (pairs : config.mapping = .dstAddrPort) (walked : Walked config src stride sends box out)
    {mapping : Mapping} (found : box.mappings[slotOf config src send.dst]? = some mapping) :
    Walked config src stride (sends ++ [send])
      { box with mappings := box.mappings.insert (slotOf config src send.dst) (refresh send mapping) }
      (out ++ [⟨send.dst, ⟨externalIp, mapping.externalPort⟩⟩]) := by
  have known := (walked.known send.dst).mpr (by rw [found]; rfl)
  have on := walked.held send.dst mapping found
  refine ⟨?_, ?_, walked.known_insert pairs _, fun dst other there => ?_, fun port => ?_⟩
  · rw [destinations_known known]
    exact walked.next
  · rw [destinations_known known]
    exact walked.used
  · rw [destinations_known known]
    rw [Entries.getElem?_insert] at there
    split at there
    · rw [← Option.some.inj there]
      exact on
    · exact walked.held dst other there
  · rw [destinations_known known, List.map_append, List.mem_append, walked.ports]
    refine ⟨fun either => either.elim id (fun last => ?_), .inl⟩
    rw [List.mem_singleton.mp last]
    exact on

/-- A send to a new destination takes the next port of the walk. -/
theorem walked_fresh (pairs : config.mapping = .dstAddrPort) (configured : box.config = config)
    (walked : Walked config src stride sends box out) (fresh : box.mappings[slotOf config src send.dst]? = none)
    (fits : NoWrap config stride (destinations sends + 1)) {box' : NatBox R}
    (nextPort : box'.nextPort = box.advance stride)
    (mappings : box'.mappings = box.mappings.insert (slotOf config src send.dst) ⟨src, box.nextPort, send.now, [send.dst]⟩)
    (byPort : box'.byPort = box.byPort.insert box.nextPort
      (box.byPort.getD box.nextPort [] ++ [slotOf config src send.dst])) :
    Walked config src stride (sends ++ [send]) box' (out ++ [⟨send.dst, ⟨externalIp, box.nextPort⟩⟩]) := by
  have unknown : send.dst ∉ sends.map (·.dst) := by
    rw [walked.known, fresh]
    simp
  have place := walked.next fits
  have last : OnWalk config stride (destinations sends + 1) box.nextPort := (onWalk_succ_iff place).mpr (.inr rfl)
  refine ⟨fun further => ?_, fun port slots there => ?_, fun dst => ?_, fun dst other there => ?_, fun port => ?_⟩
  · rw [destinations_fresh unknown] at further ⊢
    rw [nextPort]
    exact toNat_advance configured place further
  · rw [destinations_fresh unknown]
    rw [byPort, Entries.getElem?_insert] at there
    split at there
    next here => exact here ▸ last
    · exact (walked.used port slots there).mono
  · rw [mappings]
    exact walked.known_insert pairs _ dst
  · rw [destinations_fresh unknown]
    rw [mappings, Entries.getElem?_insert] at there
    split at there
    · rw [← Option.some.inj there]
      exact last
    · exact (walked.held dst other there).mono
  · rw [destinations_fresh unknown, onWalk_succ_iff place, List.map_append, List.mem_append, walked.ports]
    exact or_congr_right List.mem_singleton

theorem walked_send [PortRng R] (tracks : Tracks config externalIp src all box out) (within : WithinIdle config all)
    (pairs : config.mapping = .dstAddrPort) (sequential : config.allocator = .sequential stride) (moves : 1 ≤ stride)
    (member : send ∈ all) (walked : Walked config src stride sends box out)
    (fits : NoWrap config stride (destinations (sends ++ [send]))) :
    Walked config src stride (sends ++ [send]) (box.send src send).1 (out ++ (box.send src send).2) := by
  rcases send_cases tracks within member with ⟨mapping, found, sent⟩ | ⟨fresh, sent⟩
  · rw [sent]
    exact walked_again pairs walked found
  · have unknown : send.dst ∉ sends.map (·.dst) := by
      rw [walked.known, fresh]
      simp
    rw [destinations_fresh unknown] at fits
    have place := walked.next fits
    have positive : 1 ≤ stride.toNat := UInt16.le_iff_toNat_le.mp moves
    have unused : box.byPort[box.nextPort]? = none := by
      cases there : box.byPort[box.nextPort]? with
      | none => rfl
      | some slots =>
        obtain ⟨i, less, same⟩ := walked.used _ slots there
        have below := Nat.mul_lt_mul_of_pos_right less positive
        omega
    have allocated := allocatePort_sequential (tracks.configured ▸ sequential) moves send.now
      (slotOf config src send.dst).internal (tracks.unleased _) unused
    rw [sent, createMapping, allocated]
    dsimp only
    rw [tracks.external]
    exact walked_fresh pairs tracks.configured walked fresh fits rfl rfl rfl

end

theorem NoWrap.earlier {stride : UInt16} {sends : List Send} {send : Send}
    (fits : NoWrap config stride (destinations (sends ++ [send]))) : NoWrap config stride (destinations sends) := by
  have fewer : destinations sends ≤ destinations (sends ++ [send]) := by
    by_cases known : send.dst ∈ sends.map (·.dst)
    · rw [destinations_known known]
    · rw [destinations_fresh known]
      exact Nat.le_succ _
  have below := Nat.mul_le_mul_right stride.toNat (Nat.sub_le_sub_right fewer 1)
  exact Nat.le_trans (Nat.add_le_add_left below _) fits

theorem walked_run (R : Type) [PortRng R] {sends : List Send} (within : WithinIdle config sends) (externalIp : IpAddr)
    (rngSeed : UInt64) (src : SocketAddr) {stride : UInt16} (pairs : config.mapping = .dstAddrPort)
    (sequential : config.allocator = .sequential stride) (moves : 1 ≤ stride)
    (fits : NoWrap config stride (destinations sends)) (port : UInt16) :
    port ∈ (observe R config externalIp rngSeed src sends).map (·.mapping.port) ↔
      OnWalk config stride (destinations sends) port := by
  have walked := run_history (P := fun before box out => Tracks config externalIp src sends box out ∧
      (NoWrap config stride (destinations before) → Walked config src stride before box out))
    ⟨tracks_new (R := R) config externalIp rngSeed src sends, fun _ => walked_new config externalIp rngSeed src stride⟩
    (fun before box out send held member => ⟨tracks_send held.1 within member, fun fits =>
      walked_send held.1 within pairs sequential moves member (held.2 fits.earlier) fits⟩) sends (meets_sends src _ sends)
  exact (walked.2 fits).ports port

/-- The classes name what selects a mapping, and a sequential walk over three destinations or more shows its stride. -/
theorem inference_recovers (R : Type) [PortRng R] (config : NatConfig) (externalIp : IpAddr) (rngSeed : UInt64)
    (src bindAddr : SocketAddr) (sends : List Send) (within : WithinIdle config sends) :
    let observations := observe R config externalIp rngSeed src sends
    let natClass := classifyObservations bindAddr observations
    (config.mapping = .endpointIndependent ∨ config.mapping = .dstPort → natClass ≠ some .symmetric) ∧
      (config.mapping = .endpointIndependent → ∀ found, natClass = some found →
        found = .publicHost ∨ found = .endpointIndependent) ∧
      (natClass = some .symmetric → config.mapping = .dstAddr ∨ config.mapping = .dstAddrPort) ∧
      ∀ stride, config.mapping = .dstAddrPort → config.allocator = .sequential stride → 1 ≤ stride →
        minCalibrationSamples ≤ destinations sends → NoWrap config stride (destinations sends) →
        ∀ internalPort ports, ports.Perm (observations.map (·.mapping.port)) →
          calibrateAllocator internalPort ports = some (.sequential stride) := by
  intro observations natClass
  have congr := observe_congr R within externalIp rngSeed src
  have never : config.mapping = .endpointIndependent ∨ config.mapping = .dstPort → natClass ≠ some .symmetric := by
    intro coarse symmetric
    obtain ⟨a, first, b, second, port, apart⟩ := classifyObservations_symmetric symmetric
    refine apart (congr a first b second ?_)
    rcases coarse with any | dstPort
    · rw [any]
      rfl
    · rw [dstPort, mapKey, mapKey, port]
  refine ⟨never, fun any found classified => ?_, fun symmetric => ?_, ?_⟩
  · refine classifyObservations_of_same (fun a first b second => congr a first b second ?_) classified
    rw [any]
    rfl
  · cases mapping : config.mapping with
    | endpointIndependent => exact (never (.inl mapping) symmetric).elim
    | dstPort => exact (never (.inr mapping) symmetric).elim
    | dstAddr => exact .inl rfl
    | dstAddrPort => exact .inr rfl
  · intro stride pairs sequential moves many fits internalPort ports perm
    have small : config.portRange.1.toNat + (destinations sends - 1) * stride.toNat < 2 ^ 16 :=
      Nat.lt_of_le_of_lt fits config.portRange.2.toNat_lt
    refine calibrateAllocator_progression small moves many internalPort (fun port => ?_)
    rw [perm.mem_iff, walked_run R within externalIp rngSeed src pairs sequential moves fits, mem_progression small]
    rfl

end NatBox

/-- A generator that always draws the lowest port. -/
instance : PortRng Unit := ⟨fun _ => (), fun _ lo _ => (lo, ())⟩

/-- A symmetric NAT that gives away every second port. -/
def everySecond : NatConfig := ⟨.dstAddrPort, .sequential 2, .portRestricted, 30000000000, (40000, 59999)⟩

/-- Three helpers, one of them twice. -/
def helpers : List Send :=
  [⟨0, ⟨.v4 0x01010101, 3478⟩⟩, ⟨1, ⟨.v4 0x02020202, 3478⟩⟩, ⟨2, ⟨.v4 0x01010101, 3478⟩⟩, ⟨3, ⟨.v4 0x03030303, 3478⟩⟩]

theorem inference_recovers_helpers :
    calibrateAllocator 51000
      ((NatBox.observe Unit everySecond (.v4 0xc6336401) 1 ⟨.v4 0x0a000002, 51000⟩ helpers).map (·.mapping.port)) =
        some (.sequential 2) := by
  have within : NatBox.WithinIdle everySecond helpers := by
    unfold NatBox.WithinIdle
    decide
  have fits : NatBox.NoWrap everySecond 2 (NatBox.destinations helpers) := by
    unfold NatBox.NoWrap
    decide
  obtain ⟨_, _, _, calibrated⟩ := NatBox.inference_recovers Unit everySecond (.v4 0xc6336401) 1 ⟨.v4 0x0a000002, 51000⟩
    ⟨.v4 0x0a000002, 51000⟩ helpers within
  exact calibrated 2 rfl rfl (by decide) (by decide) fits 51000 _ (List.Perm.refl _)

end Lightbringer.Overlay.Sim
