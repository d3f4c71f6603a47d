import Lightbringer.Types
import Lightbringer.Lib.Entries
import Std.Data.TreeMap.Lemmas

/-!
# The NAT of the simulator

`overlay/sim/nat.rs`: a machine that rewrites the addresses of datagrams, by what selects a mapping, how ports are
allocated and which sources are let in. Arithmetic on ports and times wraps, as in a release build.
-/

namespace Lightbringer.Overlay.Sim
open Std

/-- Which parts of the destination select the mapping. -/
inductive MappingKey where
  | endpointIndependent
  | dstPort
  | dstAddr
  | dstAddrPort
  deriving DecidableEq

inductive Allocator where
  | preserving
  | sequential (stride : UInt16)
  | random
  deriving DecidableEq

inductive Filtering where
  | endpointIndependent
  | addressRestricted
  | portRestricted
  deriving DecidableEq

/-- Durations are in nanoseconds. -/
structure NatConfig where
  mapping : MappingKey
  allocator : Allocator
  filtering : Filtering
  idleTimeout : Nat
  portRange : UInt16 × UInt16

/-- `as_nanos() as u64`. -/
def asNanos (duration : Nat) : UInt64 := UInt64.ofNat duration

inductive MapKey where
  | any
  | port (port : UInt16)
  | addr (ip : IpAddr)
  | addrPort (ip : IpAddr) (port : UInt16)
  deriving DecidableEq

def mapKey (mapping : MappingKey) (dst : SocketAddr) : MapKey :=
  match mapping with
  | .endpointIndependent => .any
  | .dstPort => .port dst.port
  | .dstAddr => .addr dst.ip
  | .dstAddrPort => .addrPort dst.ip dst.port

/-- The key of a mapping: the internal socket, and what of the destination selects it. -/
structure Slot where
  internal : SocketAddr
  key : MapKey
  deriving DecidableEq

/-- `allowed` holds the remote endpoints the mapping has emitted a packet toward. -/
structure Mapping where
  internal : SocketAddr
  externalPort : UInt16
  lastRefresh : UInt64
  allowed : List SocketAddr

inductive NatDropReason where
  | noMapping
  | mappingExpired
  | filtered
  | portPoolExhausted
  deriving DecidableEq

structure NatStats where
  mappingsCreated : Nat
  expiredDrops : Nat
  filteredDrops : Nat
  noMappingDrops : Nat
  poolExhaustedDrops : Nat
  staticInstalls : Nat

/-- A port mapping installed through the gateway. -/
structure StaticMap where
  internal : SocketAddr
  expiresAt : UInt64

structure OutboundPass where
  external : SocketAddr
  created : Bool
  deriving DecidableEq

/-! ### Slots as map keys

Slots are ordered as the tuples of the source are. -/

/-- The variants in order, and the addresses and ports within them. -/
def MapKey.place : MapKey → Nat
  | .any => 0
  | .port p => 1 + p.toNat
  | .addr ip => 2 ^ 17 + ip.key
  | .addrPort ip p => 2 ^ 130 + ip.key * 2 ^ 16 + p.toNat

theorem MapKey.place_injective {a b : MapKey} (same : a.place = b.place) : a = b := by
  cases a with
  | any => cases b <;> simp only [place] at same <;> first | rfl | omega
  | port p =>
    have small := p.toNat_lt
    cases b with
    | port q => rw [UInt16.toNat_inj.mp (show p.toNat = q.toNat by simp only [place] at same; omega)]
    | _ => simp only [place] at same; omega
  | addr ip =>
    have small := ip.key_lt
    cases b with
    | any => simp only [place] at same; omega
    | port q =>
      have low := q.toNat_lt
      simp only [place] at same
      omega
    | addr ip' => rw [IpAddr.key_injective (show ip.key = ip'.key by simp only [place] at same; omega)]
    | addrPort ip' q => simp only [place] at same; omega
  | addrPort ip p =>
    have small := ip.key_lt
    have low := p.toNat_lt
    cases b with
    | any => simp only [place] at same; omega
    | port q =>
      have low' := q.toNat_lt
      simp only [place] at same
      omega
    | addr ip' =>
      have small' := ip'.key_lt
      simp only [place] at same
      omega
    | addrPort ip' q =>
      have low' := q.toNat_lt
      simp only [place] at same
      have sameIp : ip = ip' := IpAddr.key_injective (by omega)
      have samePort : p = q := UInt16.toNat_inj.mp (by omega)
      rw [sameIp, samePort]

instance : Ord MapKey := ⟨compareOn MapKey.place⟩

instance : TransOrd MapKey := inferInstanceAs (TransCmp (compareOn MapKey.place))

instance : LawfulEqOrd MapKey where
  compare_self := ReflOrd.compare_self
  eq_of_compare h := MapKey.place_injective (LawfulEqOrd.compare_eq_iff_eq.mp h)

instance : Ord Slot := ⟨compareLex (compareOn Slot.internal) (compareOn Slot.key)⟩

instance : TransOrd Slot := inferInstanceAs (TransCmp (compareLex (compareOn Slot.internal) (compareOn Slot.key)))

instance : LawfulEqOrd Slot where
  compare_self := ReflOrd.compare_self
  eq_of_compare := by
    rintro ⟨internal, key⟩ ⟨internal', key'⟩ h
    obtain ⟨sameInternal, sameKey⟩ := compareLex_eq_eq.mp h
    have sameInternal : internal = internal' := LawfulEqOrd.compare_eq_iff_eq.mp sameInternal
    have sameKey : key = key' := LawfulEqOrd.compare_eq_iff_eq.mp sameKey
    rw [sameInternal, sameKey]

/-! ### The box -/

/-- `StdRng`, of which the box only draws ports. -/
class PortRng (R : Type) where
  seedFromU64 : UInt64 → R
  randomRange : R → UInt16 → UInt16 → UInt16 × R

/-- One external port may carry several mappings of one internal socket. -/
structure NatBox (R : Type) where
  config : NatConfig
  externalIp : IpAddr
  mappings : TreeMap Slot Mapping
  byPort : TreeMap UInt16 (List Slot)
  staticMaps : TreeMap UInt16 StaticMap
  nextPort : UInt16
  rng : R
  stats : NatStats

namespace NatBox

variable {R : Type}

def new [PortRng R] (config : NatConfig) (externalIp : IpAddr) (rngSeed : UInt64) : NatBox R where
  config := config
  externalIp := externalIp
  mappings := ∅
  byPort := ∅
  staticMaps := ∅
  nextPort := config.portRange.1
  rng := PortRng.seedFromU64 rngSeed
  stats := ⟨0, 0, 0, 0, 0, 0⟩

variable (box : NatBox R)

def expired (mapping : Mapping) (now : UInt64) : Bool :=
  asNanos box.config.idleTimeout < saturatingSub now mapping.lastRefresh

/-- The mapping of a slot has not expired. -/
def live (now : UInt64) (slot : Slot) : Bool := (box.mappings[slot]?).any (fun mapping => ! box.expired mapping now)

def evict (slot : Slot) : NatBox R :=
  match box.mappings[slot]? with
  | none => box
  | some mapping =>
    { box with
      mappings := box.mappings.erase slot
      byPort := match box.byPort[mapping.externalPort]? with
        | none => box.byPort
        | some slots =>
          let rest := slots.filter (fun occupant => occupant ≠ slot)
          if rest = [] then box.byPort.erase mapping.externalPort else box.byPort.insert mapping.externalPort rest }

/-- `port_available` past the leases: expired mappings of the port are evicted, live ones of others block it. -/
def portShared (now : UInt64) (port : UInt16) (shareWith : Option SocketAddr) : NatBox R × Bool :=
  match box.byPort[port]? with
  | none => (box, true)
  | some slots =>
    ((slots.filter (fun slot => ! box.live now slot)).foldl evict box,
      (slots.filter (box.live now)).all (fun slot => shareWith = some slot.internal))

/-- A lease that has run out is dropped. -/
def portAvailable (now : UInt64) (port : UInt16) (shareWith : Option SocketAddr) : NatBox R × Bool :=
  match box.staticMaps[port]? with
  | none => box.portShared now port shareWith
  | some map =>
    if now ≤ map.expiresAt then
      if shareWith ≠ some map.internal then (box, false) else box.portShared now port shareWith
    else { box with staticMaps := box.staticMaps.erase port }.portShared now port shareWith

/-- The port after this one in the walk through the pool. -/
def advance (stride : UInt16) : UInt16 :=
  let (lo, hi) := box.config.portRange
  let span := (hi - lo).toNat + 1
  lo + UInt16.ofNat (((box.nextPort - lo).toNat + stride.toNat) % span)

/-- The walk of `allocate_port`. -/
def walk (now : UInt64) (stride : UInt16) (box : NatBox R) : Nat → NatBox R × Option UInt16
  | 0 => (box, none)
  | tries + 1 =>
    let candidate := box.nextPort
    let (box, available) := { box with nextPort := box.advance stride }.portAvailable now candidate none
    if available then (box, some candidate) else walk now stride box tries

/-- The draws of `allocate_port`. -/
def draw [PortRng R] (now : UInt64) (box : NatBox R) : Nat → NatBox R × Option UInt16
  | 0 => (box, none)
  | tries + 1 =>
    let (candidate, rng) := PortRng.randomRange box.rng box.config.portRange.1 box.config.portRange.2
    let (box, available) := { box with rng := rng }.portAvailable now candidate none
    if available then (box, some candidate) else draw now box tries

section
variable [PortRng R]

/-- The ports of `allocate_port` that are not that of the internal socket. -/
def allocateAny (now : UInt64) : NatBox R × Option UInt16 :=
  let (lo, hi) := box.config.portRange
  let poolSize := (hi - lo).toNat + 1
  match box.config.allocator with
  | .preserving => walk now 1 box poolSize
  | .sequential stride => walk now (max stride 1) box poolSize
  | .random => draw now box (max (poolSize * 2) 64)

def allocatePort (now : UInt64) (internal : SocketAddr) : NatBox R × Option UInt16 :=
  let (lo, hi) := box.config.portRange
  if box.config.allocator = .preserving ∧ lo ≤ internal.port ∧ internal.port ≤ hi then
    let (box, available) := box.portAvailable now internal.port (some internal)
    if available then (box, some internal.port) else box.allocateAny now
  else box.allocateAny now

/-- `outbound` where the slot has no mapping. -/
def createMapping (now : UInt64) (slot : Slot) (dst : SocketAddr) : NatBox R × Except NatDropReason OutboundPass :=
  match box.allocatePort now slot.internal with
  | (box, none) =>
    ({ box with stats := { box.stats with poolExhaustedDrops := box.stats.poolExhaustedDrops + 1 } },
      .error .portPoolExhausted)
  | (box, some port) =>
    ({ box with
        mappings := box.mappings.insert slot ⟨slot.internal, port, now, [dst]⟩
        byPort := box.byPort.insert port (box.byPort.getD port [] ++ [slot])
        stats := { box.stats with mappingsCreated := box.stats.mappingsCreated + 1 } },
      .ok ⟨⟨box.externalIp, port⟩, true⟩)

end

/-- A live lease pins its internal socket to its port. -/
def staticPort (now : UInt64) (src : SocketAddr) : Option UInt16 :=
  (box.staticMaps.toList.find? (fun entry => entry.2.internal = src ∧ now ≤ entry.2.expiresAt)).map Prod.fst

/-- `outbound` where no lease pins the source. -/
def outboundMapped [PortRng R] (now : UInt64) (slot : Slot) (dst : SocketAddr) : NatBox R × Except NatDropReason OutboundPass :=
  let box := if (box.mappings[slot]?).any (fun mapping => box.expired mapping now) then box.evict slot else box
  match box.mappings[slot]? with
  | some mapping =>
    ({ box with
        mappings := box.mappings.insert slot { mapping with lastRefresh := now, allowed := mapping.allowed.insert dst } },
      .ok ⟨⟨box.externalIp, mapping.externalPort⟩, false⟩)
  | none => box.createMapping now slot dst

def outbound [PortRng R] (now : UInt64) (src dst : SocketAddr) : NatBox R × Except NatDropReason OutboundPass :=
  match box.staticPort now src with
  | some port => (box, .ok ⟨⟨box.externalIp, port⟩, false⟩)
  | none => box.outboundMapped now ⟨src, mapKey box.config.mapping dst⟩ dst

/-! ### Inbound -/

/-- The filtering policy. -/
def passes (mapping : Mapping) (src : SocketAddr) : Bool :=
  match box.config.filtering with
  | .endpointIndependent => true
  | .addressRestricted => mapping.allowed.any (fun remote => remote.ip = src.ip)
  | .portRestricted => mapping.allowed.contains src

/-- What `inbound` has seen of the slots of a port. -/
structure Seen where
  expired : List Slot
  sawLive : Bool
  admitted : Option SocketAddr

/-- The next slot of the port. There is no result where `expect` panics. -/
def look (now : UInt64) (src : SocketAddr) (seen : Seen) (slot : Slot) : Option Seen :=
  (box.mappings[slot]?).map (fun mapping =>
    if box.expired mapping now then { seen with expired := seen.expired ++ [slot] }
    else
      { seen with
        sawLive := true
        admitted := if box.passes mapping src ∧ seen.admitted = none then some mapping.internal else seen.admitted })

/-- `inbound` past the slots of the port: the expired ones are evicted. -/
def settle (seen : Seen) : NatBox R × Except NatDropReason SocketAddr :=
  let box := seen.expired.foldl evict box
  match seen.admitted with
  | some internal => (box, .ok internal)
  | none =>
    if seen.sawLive then ({ box with stats.filteredDrops := box.stats.filteredDrops + 1 }, .error .filtered)
    else ({ box with stats.expiredDrops := box.stats.expiredDrops + 1 }, .error .mappingExpired)

/-- `inbound` where no live lease takes the datagram. -/
def inboundMapped (now : UInt64) (src dst : SocketAddr) : Option (NatBox R × Except NatDropReason SocketAddr) :=
  match box.byPort[dst.port]? with
  | none => some ({ box with stats.noMappingDrops := box.stats.noMappingDrops + 1 }, .error .noMapping)
  | some slots => (slots.foldlM (box.look now src) ⟨[], false, none⟩).map box.settle

/-- There is no result where `expect` panics. -/
def inbound (now : UInt64) (src dst : SocketAddr) : Option (NatBox R × Except NatDropReason SocketAddr) :=
  match box.staticMaps[dst.port]? with
  | none => box.inboundMapped now src dst
  | some map =>
    if now ≤ map.expiresAt then some (box, .ok map.internal)
    else { box with staticMaps := box.staticMaps.erase dst.port }.inboundMapped now src dst

/-! ### Leases -/

/-- The requested port, and then the pool from there on, or from its start where the requested port is not in it. -/
def candidates (requested : UInt16) : List UInt16 :=
  let (lo, hi) := box.config.portRange
  let span := (hi - lo).toNat + 1
  requested :: (List.range span).map (fun offset =>
    let base := if lo ≤ requested ∧ requested ≤ hi then requested else lo
    lo + UInt16.ofNat (((base - lo).toNat + offset) % span))

/-- No live lease holds the port. One that has run out is dropped. -/
def staticFree (now : UInt64) (port : UInt16) : NatBox R × Bool :=
  match box.staticMaps[port]? with
  | none => (box, true)
  | some map => if now ≤ map.expiresAt then (box, false) else ({ box with staticMaps := box.staticMaps.erase port }, true)

def leasePort (now : UInt64) (port : UInt16) (internal : SocketAddr) : NatBox R × Bool :=
  let (box, free) := box.staticFree now port
  if free then box.portAvailable now port (some internal) else (box, false)

/-- The loop of `install_static`. -/
def leaseFrom (now : UInt64) (map : StaticMap) (box : NatBox R) : List UInt16 → NatBox R × Option UInt16
  | [] => (box, none)
  | port :: rest =>
    let (box, available) := box.leasePort now port map.internal
    if available then
      ({ box with
          staticMaps := box.staticMaps.insert port map
          stats.staticInstalls := box.stats.staticInstalls + 1 },
        some port)
    else leaseFrom now map box rest

def installStatic (now : UInt64) (internal : SocketAddr) (requested : UInt16) (lifetime : Nat) : NatBox R × Option UInt16 :=
  let expiresAt := now + asNanos lifetime
  match box.staticMaps[requested]? with
  | none => leaseFrom now ⟨internal, expiresAt⟩ box (box.candidates requested)
  | some existing =>
    if existing.internal = internal then
      ({ box with
          staticMaps := box.staticMaps.insert requested { existing with expiresAt := expiresAt }
          stats.staticInstalls := box.stats.staticInstalls + 1 },
        some requested)
    else leaseFrom now ⟨internal, expiresAt⟩ box (box.candidates requested)

def removeStatic (internal : SocketAddr) (externalPort : UInt16) : NatBox R :=
  match box.staticMaps[externalPort]? with
  | none => box
  | some map =>
    if map.internal = internal then { box with staticMaps := box.staticMaps.erase externalPort } else box

/-! ### What the search for a port leaves alone -/

variable {box : NatBox R} {now : UInt64}

/-- Expired mappings and leases may go, and the walk and the draws go on. -/
structure Swept (now : UInt64) (box box' : NatBox R) : Prop where
  config : box'.config = box.config
  externalIp : box'.externalIp = box.externalIp
  leases : ∀ (port : UInt16) (map : StaticMap), box'.staticMaps[port]? = some map → box.staticMaps[port]? = some map
  mappings : ∀ (slot : Slot) (mapping : Mapping), box'.mappings[slot]? = some mapping → box.mappings[slot]? = some mapping
  kept : ∀ slot : Slot, box.live now slot = true → box'.mappings[slot]? = box.mappings[slot]?

theorem Swept.refl (now : UInt64) (box : NatBox R) : Swept now box box :=
  ⟨rfl, rfl, fun _ _ => id, fun _ _ => id, fun _ _ => rfl⟩

theorem live_congr {box' : NatBox R} {slot : Slot} (config : box'.config = box.config)
    (same : box'.mappings[slot]? = box.mappings[slot]?) : box'.live now slot = box.live now slot := by
  unfold live expired
  rw [config, same]

theorem Swept.live_eq {box' : NatBox R} (swept : Swept now box box') {slot : Slot} (live : box.live now slot = true) :
    box'.live now slot = true := (live_congr swept.config (swept.kept slot live)).trans live

theorem Swept.trans {box₁ box₂ : NatBox R} (first : Swept now box box₁) (second : Swept now box₁ box₂) :
    Swept now box box₂ where
  config := second.config.trans first.config
  externalIp := second.externalIp.trans first.externalIp
  leases port map found := first.leases port map (second.leases port map found)
  mappings slot mapping found := first.mappings slot mapping (second.mappings slot mapping found)
  kept slot live := (second.kept slot (first.live_eq live)).trans (first.kept slot live)

theorem swept_moved (now : UInt64) (box : NatBox R) (nextPort : UInt16) (rng : R) :
    Swept now box { box with nextPort := nextPort, rng := rng } :=
  ⟨rfl, rfl, fun _ _ => id, fun _ _ => id, fun _ _ => rfl⟩

theorem swept_release (now : UInt64) (box : NatBox R) (port : UInt16) :
    Swept now box { box with staticMaps := box.staticMaps.erase port } := by
  refine ⟨rfl, rfl, fun other map found => ?_, fun _ _ => id, fun _ _ => rfl⟩
  rw [Entries.getElem?_erase] at found
  split at found
  · cases found
  · exact found

theorem Swept.dead {box' : NatBox R} (swept : Swept now box box') {slot : Slot} (dead : box.live now slot = false) :
    box'.live now slot = false := by
  cases found : box'.mappings[slot]? with
  | none => simp [live, found]
  | some mapping => rw [live_congr swept.config (found.trans (swept.mappings slot mapping found).symm), dead]

theorem swept_evict {slot : Slot} (dead : box.live now slot = false) : Swept now box (box.evict slot) := by
  unfold evict
  split
  · exact Swept.refl now box
  · refine ⟨rfl, rfl, fun _ _ => id, fun other mapping found => ?_, fun other live => ?_⟩
    · rw [Entries.getElem?_erase] at found
      split at found
      · cases found
      · exact found
    · have apart : slot ≠ other := by
        rintro rfl
        rw [dead] at live
        cases live
      rw [Entries.getElem?_erase, if_neg apart]

theorem swept_evictAll {slots : List Slot} (dead : ∀ slot ∈ slots, box.live now slot = false) :
    Swept now box (slots.foldl evict box) := by
  induction slots generalizing box with
  | nil => exact Swept.refl now box
  | cons slot rest ih =>
    have first := swept_evict (dead slot (List.mem_cons_self ..))
    exact first.trans (ih (fun other member => first.dead (dead other (List.mem_cons_of_mem _ member))))

theorem swept_portShared (box : NatBox R) (now : UInt64) (port : UInt16) (shareWith : Option SocketAddr) :
    Swept now box (box.portShared now port shareWith).1 := by
  unfold portShared
  split
  · exact Swept.refl now box
  · refine swept_evictAll (fun slot member => ?_)
    simpa using (List.mem_filter.mp member).2

theorem swept_portAvailable (box : NatBox R) (now : UInt64) (port : UInt16) (shareWith : Option SocketAddr) :
    Swept now box (box.portAvailable now port shareWith).1 := by
  unfold portAvailable
  split
  · exact swept_portShared box now port shareWith
  · split
    · split
      · exact Swept.refl now box
      · exact swept_portShared box now port shareWith
    · exact (swept_release now box port).trans (swept_portShared _ now port shareWith)

theorem swept_walk (box : NatBox R) (now : UInt64) (stride : UInt16) (tries : Nat) :
    Swept now box (walk now stride box tries).1 := by
  induction tries generalizing box with
  | zero => exact Swept.refl now box
  | succ tries ih =>
    have here := (swept_moved now box (box.advance stride) box.rng).trans (swept_portAvailable _ now box.nextPort none)
    unfold walk
    dsimp only
    split
    · exact here
    · exact here.trans (ih _)

theorem swept_draw [PortRng R] (box : NatBox R) (now : UInt64) (tries : Nat) : Swept now box (draw now box tries).1 := by
  induction tries generalizing box with
  | zero => exact Swept.refl now box
  | succ tries ih =>
    unfold draw
    dsimp only
    generalize PortRng.randomRange box.rng box.config.portRange.1 box.config.portRange.2 = drawn
    have here := (swept_moved now box box.nextPort drawn.2).trans (swept_portAvailable _ now drawn.1 none)
    split
    · exact here
    · exact here.trans (ih _)

theorem swept_allocateAny [PortRng R] (box : NatBox R) (now : UInt64) : Swept now box (box.allocateAny now).1 := by
  unfold allocateAny
  dsimp only
  split
  · exact swept_walk box now _ _
  · exact swept_walk box now _ _
  · exact swept_draw box now _

theorem swept_allocatePort [PortRng R] (box : NatBox R) (now : UInt64) (internal : SocketAddr) :
    Swept now box (box.allocatePort now internal).1 := by
  unfold allocatePort
  dsimp only
  split
  · have looked := swept_portAvailable box now internal.port (some internal)
    split
    · exact looked
    · exact looked.trans (swept_allocateAny _ now)
  · exact swept_allocateAny box now

end NatBox

end Lightbringer.Overlay.Sim
