import Lightbringer.Overlay.Sim.NatTraffic

/-!
# Leases of the NAT

A lease lets everyone in, and holds its socket to its port, until it runs out.
-/

namespace Lightbringer.Overlay.Sim.NatBox
open Std

variable {R : Type} {box : NatBox R} {now : UInt64}

/-- No lease goes before it runs out. -/
def LeasesLast (now : UInt64) (box box' : NatBox R) : Prop :=
  ∀ (port : UInt16) (map : StaticMap), box.staticMaps[port]? = some map → now ≤ map.expiresAt →
    box'.staticMaps[port]? = some map

theorem leasesLast_of_eq {box' : NatBox R} (same : box'.staticMaps = box.staticMaps) : LeasesLast now box box' := by
  intro port map found _
  rwa [same]

theorem LeasesLast.trans {box₁ box₂ : NatBox R} (first : LeasesLast now box box₁) (second : LeasesLast now box₁ box₂) :
    LeasesLast now box box₂ :=
  fun port map found unexpired => second port map (first port map found unexpired) unexpired

theorem leasesLast_release {port : UInt16} {map : StaticMap} (found : box.staticMaps[port]? = some map)
    (past : ¬ now ≤ map.expiresAt) : LeasesLast now box { box with staticMaps := box.staticMaps.erase port } := by
  intro other map' found' unexpired
  rw [Entries.getElem?_erase, if_neg]
  · exact found'
  · rintro rfl
    obtain rfl := Option.some.inj (found.symm.trans found')
    exact past unexpired

theorem evictAll_staticMaps (box : NatBox R) (slots : List Slot) :
    (slots.foldl evict box).staticMaps = box.staticMaps := by
  induction slots generalizing box with
  | nil => rfl
  | cons slot rest ih =>
    refine (ih (box.evict slot)).trans ?_
    unfold evict
    split <;> rfl

theorem portShared_staticMaps (box : NatBox R) (now : UInt64) (port : UInt16) (shareWith : Option SocketAddr) :
    (box.portShared now port shareWith).1.staticMaps = box.staticMaps := by
  unfold portShared
  split
  · rfl
  · exact evictAll_staticMaps box _

theorem leasesLast_portAvailable (box : NatBox R) (now : UInt64) (port : UInt16) (shareWith : Option SocketAddr) :
    LeasesLast now box (box.portAvailable now port shareWith).1 := by
  unfold portAvailable
  split
  · exact leasesLast_of_eq (portShared_staticMaps box now port shareWith)
  next map found =>
    split
    · split
      · exact leasesLast_of_eq rfl
      · exact leasesLast_of_eq (portShared_staticMaps box now port shareWith)
    next past =>
      exact (leasesLast_release found past).trans (leasesLast_of_eq (portShared_staticMaps _ now port shareWith))

theorem leasesLast_walk (box : NatBox R) (now : UInt64) (stride : UInt16) (tries : Nat) :
    LeasesLast now box (walk now stride box tries).1 := by
  induction tries generalizing box with
  | zero => exact leasesLast_of_eq rfl
  | succ tries ih =>
    have here : LeasesLast now box
        ({ box with nextPort := box.advance stride }.portAvailable now box.nextPort none).1 :=
      leasesLast_portAvailable { box with nextPort := box.advance stride } now box.nextPort none
    unfold walk
    dsimp only
    split
    · exact here
    · exact here.trans (ih _)

section
variable [PortRng R]

theorem leasesLast_draw (box : NatBox R) (now : UInt64) (tries : Nat) : LeasesLast now box (draw now box tries).1 := by
  induction tries generalizing box with
  | zero => exact leasesLast_of_eq rfl
  | succ tries ih =>
    unfold draw
    dsimp only
    generalize PortRng.randomRange box.rng box.config.portRange.1 box.config.portRange.2 = drawn
    have here : LeasesLast now box ({ box with rng := drawn.2 }.portAvailable now drawn.1 none).1 :=
      leasesLast_portAvailable { box with rng := drawn.2 } now drawn.1 none
    split
    · exact here
    · exact here.trans (ih _)

theorem leasesLast_allocateAny (box : NatBox R) (now : UInt64) : LeasesLast now box (box.allocateAny now).1 := by
  unfold allocateAny
  dsimp only
  split
  · exact leasesLast_walk box now _ _
  · exact leasesLast_walk box now _ _
  · exact leasesLast_draw box now _

theorem leasesLast_allocatePort (box : NatBox R) (now : UInt64) (internal : SocketAddr) :
    LeasesLast now box (box.allocatePort now internal).1 := by
  unfold allocatePort
  dsimp only
  split
  · have looked := leasesLast_portAvailable box now internal.port (some internal)
    split
    · exact looked
    · exact looked.trans (leasesLast_allocateAny _ now)
  · exact leasesLast_allocateAny box now

theorem leasesLast_createMapping (box : NatBox R) (now : UInt64) (slot : Slot) (dst : SocketAddr) :
    LeasesLast now box (box.createMapping now slot dst).1 := by
  have allocated := leasesLast_allocatePort box now slot.internal
  unfold createMapping
  generalize box.allocatePort now slot.internal = result at allocated
  obtain ⟨after, port⟩ := result
  cases port with
  | none => exact allocated
  | some port => exact allocated

theorem leasesLast_outbound (box : NatBox R) (now : UInt64) (src dst : SocketAddr) :
    LeasesLast now box (box.outbound now src dst).1 := by
  cases pinned : box.staticPort now src with
  | some port => rw [outbound_of_leased pinned]; exact leasesLast_of_eq rfl
  | none =>
    rw [outbound_of_unleased pinned]
    generalize (⟨src, mapKey box.config.mapping dst⟩ : Slot) = slot
    have swept : LeasesLast now box
        (if (box.mappings[slot]?).any (fun mapping => box.expired mapping now) then box.evict slot else box) := by
      split
      · exact leasesLast_of_eq (evictAll_staticMaps box [slot])
      · exact leasesLast_of_eq rfl
    unfold outboundMapped
    dsimp only
    split
    · exact swept
    · exact swept.trans (leasesLast_createMapping _ now slot dst)

end

theorem leasesLast_inboundMapped {result : NatBox R × Except NatDropReason SocketAddr} {src dst : SocketAddr}
    (passed : box.inboundMapped now src dst = some result) : result.1.staticMaps = box.staticMaps := by
  unfold inboundMapped at passed
  split at passed
  · obtain rfl := Option.some.inj passed
    rfl
  · obtain ⟨seen, _, rfl⟩ := Option.map_eq_some_iff.mp passed
    have evicted := evictAll_staticMaps box seen.expired
    unfold settle
    dsimp only
    split
    · exact evicted
    · split <;> exact evicted

theorem leasesLast_inbound {result : NatBox R × Except NatDropReason SocketAddr} {src dst : SocketAddr}
    (passed : box.inbound now src dst = some result) : LeasesLast now box result.1 := by
  unfold inbound at passed
  split at passed
  · exact leasesLast_of_eq (leasesLast_inboundMapped passed)
  next map found =>
    split at passed
    · obtain rfl := Option.some.inj passed
      exact leasesLast_of_eq rfl
    next past => exact (leasesLast_release found past).trans (leasesLast_of_eq (leasesLast_inboundMapped passed))

theorem leasesLast_leasePort (box : NatBox R) (now : UInt64) (port : UInt16) (internal : SocketAddr) :
    LeasesLast now box (box.leasePort now port internal).1 := by
  have freed : LeasesLast now box (box.staticFree now port).1 := by
    unfold staticFree
    split
    · exact leasesLast_of_eq rfl
    next map found =>
      split
      · exact leasesLast_of_eq rfl
      next past => exact leasesLast_release found past
  unfold leasePort
  dsimp only
  split
  · exact freed.trans (leasesLast_portAvailable _ now port (some internal))
  · exact freed

theorem leasesLast_leaseFrom (box : NatBox R) (now : UInt64) (map : StaticMap) (ports : List UInt16) :
    LeasesLast now box (leaseFrom now map box ports).1 := by
  induction ports generalizing box with
  | nil => exact leasesLast_of_eq rfl
  | cons port rest ih =>
    have looked := leasesLast_leasePort box now port map.internal
    unfold leaseFrom
    dsimp only
    split
    next free =>
      intro other map' found unexpired
      dsimp only
      rw [Entries.getElem?_insert, if_neg]
      · exact looked other map' found unexpired
      · rintro rfl
        exact leasePort_free free map' found unexpired
    next => exact looked.trans (ih _)

/-- The lease of a port lasts until `expiry`, and is of the socket. -/
def Pinned (box : NatBox R) (port : UInt16) (internal : SocketAddr) (expiry : UInt64) : Prop :=
  ∃ map, box.staticMaps[port]? = some map ∧ map.internal = internal ∧ expiry ≤ map.expiresAt

/-- The call comes before the expiry, and neither removes the lease nor renews it for less. -/
def Call.Spares (port : UInt16) (internal : SocketAddr) (expiry : UInt64) : Call → Prop
  | .outbound now _ _ | .inbound now _ _ => now ≤ expiry
  | .installStatic now socket requested lifetime =>
    now ≤ expiry ∧ (socket = internal → requested = port → expiry ≤ now + asNanos lifetime)
  | .removeStatic socket externalPort => ¬ (socket = internal ∧ externalPort = port)

section
variable {port : UInt16} {internal : SocketAddr} {expiry : UInt64}

theorem Pinned.of_leasesLast {box' : NatBox R} (pinned : box.Pinned port internal expiry)
    (last : LeasesLast now box box') (before : now ≤ expiry) : box'.Pinned port internal expiry := by
  obtain ⟨map, found, socket, lasts⟩ := pinned
  exact ⟨map, last port map found (UInt64.le_trans before lasts), socket, lasts⟩

theorem pinned_installStatic (pinned : box.Pinned port internal expiry) (socket : SocketAddr) (requested : UInt16)
    (lifetime : Nat) (spares : (Call.installStatic now socket requested lifetime).Spares port internal expiry) :
    (box.installStatic now socket requested lifetime).1.Pinned port internal expiry := by
  obtain ⟨before, renewal⟩ := spares
  unfold installStatic
  dsimp only
  split
  · exact pinned.of_leasesLast (leasesLast_leaseFrom box now _ _) before
  next existing found =>
    split
    next same =>
      by_cases here : requested = port
      · subst here
        obtain ⟨map, found', mine, _⟩ := pinned
        obtain rfl := Option.some.inj (found.symm.trans found')
        have renewed :
            (box.staticMaps.insert requested { existing with expiresAt := now + asNanos lifetime })[requested]? =
            some { existing with expiresAt := now + asNanos lifetime } := by
          rw [Entries.getElem?_insert, if_pos rfl]
        exact ⟨_, renewed, mine, renewal (same.symm.trans mine) rfl⟩
      · obtain ⟨map, found', rest⟩ := pinned
        exact ⟨map, by rw [Entries.getElem?_insert, if_neg here]; exact found', rest⟩
    next => exact pinned.of_leasesLast (leasesLast_leaseFrom box now _ _) before

theorem pinned_call [PortRng R] {c : Call} {after : NatBox R} (pinned : box.Pinned port internal expiry)
    (spares : c.Spares port internal expiry) (called : box.call c = some after) : after.Pinned port internal expiry := by
  cases c with
  | outbound now src dst =>
    obtain rfl := Option.some.inj called
    exact pinned.of_leasesLast (leasesLast_outbound box now src dst) spares
  | inbound now src dst =>
    obtain ⟨result, passed, rfl⟩ := Option.map_eq_some_iff.mp called
    exact pinned.of_leasesLast (leasesLast_inbound passed) spares
  | installStatic now socket requested lifetime =>
    obtain rfl := Option.some.inj called
    exact pinned_installStatic pinned socket requested lifetime spares
  | removeStatic socket externalPort =>
    obtain rfl := Option.some.inj called
    obtain ⟨map, found, mine, lasts⟩ := pinned
    unfold removeStatic
    split
    · exact ⟨map, found, mine, lasts⟩
    next existing here =>
      split
      next same =>
        refine ⟨map, ?_, mine, lasts⟩
        rw [Entries.getElem?_erase, if_neg]
        · exact found
        · rintro rfl
          obtain rfl := Option.some.inj (here.symm.trans found)
          exact spares ⟨same.symm.trans mine, rfl⟩
      next => exact ⟨map, found, mine, lasts⟩

theorem Pinned.inbound (pinned : box.Pinned port internal expiry) (before : now ≤ expiry) (src : SocketAddr)
    {dst : SocketAddr} (here : dst.port = port) : box.inbound now src dst = some (box, .ok internal) := by
  obtain ⟨map, found, mine, lasts⟩ := pinned
  unfold NatBox.inbound
  rw [here, found]
  dsimp only
  rw [if_pos (UInt64.le_trans before lasts), mine]

/-- A leased socket leaves from a port that leads back to it. -/
theorem Pinned.outbound [PortRng R] (pinned : box.Pinned port internal expiry) (before : now ≤ expiry)
    (dst : SocketAddr) :
    ∃ external, box.outbound now internal dst = (box, .ok ⟨external, false⟩) ∧
      ∀ src, box.inbound now src external = some (box, .ok internal) := by
  obtain ⟨map, found, mine, lasts⟩ := pinned
  have unexpired := UInt64.le_trans before lasts
  have listed : (port, map) ∈ box.staticMaps.toList := TreeMap.mem_toList_iff_getElem?_eq_some.mpr found
  have some_pinned : (box.staticPort now internal).isSome = true := by
    rw [staticPort, Option.isSome_map, List.find?_isSome]
    exact ⟨(port, map), listed, by simp [mine, unexpired]⟩
  obtain ⟨leaves, pinnedTo⟩ := Option.isSome_iff_exists.mp some_pinned
  refine ⟨⟨box.externalIp, leaves⟩, outbound_of_leased pinnedTo dst, fun src => ?_⟩
  obtain ⟨entry, first, rfl⟩ := Option.map_eq_some_iff.mp pinnedTo
  have present := TreeMap.mem_toList_iff_getElem?_eq_some.mp (List.mem_of_find?_eq_some first)
  have fits : entry.2.internal = internal ∧ now ≤ entry.2.expiresAt := by simpa using List.find?_some first
  exact Pinned.inbound ⟨entry.2, present, fits.1, UInt64.le_refl _⟩ fits.2 src rfl

end

theorem pinned_of_granted {port requested : UInt16} {internal : SocketAddr} {lifetime : Nat} {leased : NatBox R}
    (granted : box.installStatic now internal requested lifetime = (leased, some port)) :
    leased.Pinned port internal (now + asNanos lifetime) := by
  rcases installStatic_cases box now internal requested lifetime with ⟨assigned, after, installed, put⟩ |
    ⟨after, refused, _⟩
  · cases installed.symm.trans granted
    obtain ⟨_, _, before, _, _, leases⟩ := put
    exact ⟨_, by rw [leases, Entries.getElem?_insert, if_pos rfl], rfl, UInt64.le_refl _⟩
  · cases refused.symm.trans granted

/-- A lease that was granted holds until it runs out, whatever calls come before that and spare it: anyone reaches its
socket at its port, and what the socket sends leaves from a port that leads back to it. -/
theorem lease_holds [PortRng R] {port requested : UInt16} {internal : SocketAddr} {lifetime : Nat} {since : UInt64}
    {leased after : NatBox R} {later : List Call}
    (granted : box.installStatic since internal requested lifetime = (leased, some port))
    (spared : ∀ c ∈ later, c.Spares port internal (since + asNanos lifetime))
    (ran : later.foldlM call leased = some after) (before : now ≤ since + asNanos lifetime) :
    (∀ src dst : SocketAddr, dst.port = port → after.inbound now src dst = some (after, .ok internal)) ∧
      ∀ dst, ∃ external, after.outbound now internal dst = (after, .ok ⟨external, false⟩) ∧
        ∀ src, after.inbound now src external = some (after, .ok internal) := by
  have start := pinned_of_granted granted
  have held : after.Pinned port internal (since + asNanos lifetime) :=
    Fallible.foldlM_invariant (Q := fun c : Call => c.Spares port internal (since + asNanos lifetime))
      (P := fun current : NatBox R => current.Pinned port internal (since + asNanos lifetime)) start
      (fun _ _ _ pinned spares called => pinned_call pinned spares called) spared ran
  exact ⟨fun src dst here => held.inbound before src here, held.outbound before⟩

/-- A stranger comes by, and another socket asks for the port and gives it back. -/
def besieged : List Call :=
  [.inbound 6 ⟨.v4 0x01010101, 53⟩ ⟨.v4 0xcb007109, 40000⟩, .installStatic 7 ⟨.v4 0x0a000003, 51000⟩ 40000 60000000000,
    .removeStatic ⟨.v4 0x0a000003, 51000⟩ 40000]

theorem lease_holds_besieged : ∃ after,
    besieged.foldlM call (quietBox.installStatic 5 lanHost 40000 60000000000).1 = some after ∧
    after.inbound 9 ⟨.v4 0x02020202, 53⟩ ⟨.v4 0xcb007109, 40000⟩ = some (after, .ok lanHost) := by
  have fresh := consistent_new (R := Unit) everySecond (.v4 0xcb007109) 1
  obtain ⟨after, ran, _⟩ := consistent_calls (consistent_installStatic fresh 5 lanHost 40000 60000000000) besieged
  have granted : quietBox.installStatic 5 lanHost 40000 60000000000 =
      ((quietBox.installStatic 5 lanHost 40000 60000000000).1, some 40000) := rfl
  have spared : ∀ c ∈ besieged, c.Spares 40000 lanHost (5 + asNanos 60000000000) := by
    intro c member
    simp only [besieged, List.mem_cons, List.not_mem_nil, or_false] at member
    rcases member with rfl | rfl | rfl
    · exact (by decide : (6 : UInt64) ≤ 5 + asNanos 60000000000)
    · exact ⟨by decide, fun same => absurd same (by decide)⟩
    · exact fun both => absurd both.1 (by decide)
  have before : (9 : UInt64) ≤ 5 + asNanos 60000000000 := by decide
  exact ⟨after, ran, (lease_holds granted spared ran before).1 _ _ rfl⟩

end Lightbringer.Overlay.Sim.NatBox
