import Lightbringer.Lib.Fallible
import Lightbringer.Overlay.NatInference
import Lightbringer.Overlay.Sim.NatInvariant

/-!
# What the NAT lets in

A run of calls is logged with what each returned. A reply to a datagram that went out is let in while its mapping has
not idled, and whatever is let in was asked for, by a lease or by a datagram that went out.
-/

namespace Lightbringer.Overlay.Sim.NatBox
open Std ReverseIndex

variable {R : Type} {config : NatConfig} {box : NatBox R} {now : UInt64}

/-! ### What a call does -/

/-- The mappings and the leases of a box are those of another one. -/
structure SameTables (box box' : NatBox R) : Prop where
  config : box'.config = box.config
  externalIp : box'.externalIp = box.externalIp
  mappings : box'.mappings = box.mappings
  leases : box'.staticMaps = box.staticMaps

theorem SameTables.swept {box' : NatBox R} (same : SameTables box box') : Swept now box box' where
  config := same.config
  externalIp := same.externalIp
  leases port map found := by rwa [same.leases] at found
  mappings slot mapping found := by rwa [same.mappings] at found
  kept slot _ := by rw [same.mappings]

/-- A mapping is written into a box from which expired ones have gone. -/
structure Wrote (now : UInt64) (box : NatBox R) (slot : Slot) (mapping : Mapping) (box' : NatBox R) : Prop where
  config : box'.config = box.config
  externalIp : box'.externalIp = box.externalIp
  mappings : ∃ before : NatBox R, Swept now box before ∧ box'.mappings = before.mappings.insert slot mapping ∧
    box'.staticMaps = before.staticMaps

theorem Wrote.lookup {slot other : Slot} {mapping mapping' : Mapping} {box' : NatBox R}
    (wrote : Wrote now box slot mapping box') (found : box'.mappings[other]? = some mapping') :
    (other = slot ∧ mapping' = mapping) ∨ box.mappings[other]? = some mapping' := by
  obtain ⟨before, swept, written, _⟩ := wrote.mappings
  rw [written, Entries.getElem?_insert] at found
  split at found
  next here => exact .inl ⟨here.symm, (Option.some.inj found).symm⟩
  next => exact .inr (swept.mappings other mapping' found)

theorem Wrote.found {slot : Slot} {mapping : Mapping} {box' : NatBox R} (wrote : Wrote now box slot mapping box') :
    box'.mappings[slot]? = some mapping := by
  obtain ⟨before, _, written, _⟩ := wrote.mappings
  rw [written, Entries.getElem?_insert, if_pos rfl]

theorem Wrote.lease {slot : Slot} {mapping : Mapping} {box' : NatBox R} {port : UInt16} {map : StaticMap}
    (wrote : Wrote now box slot mapping box') (found : box'.staticMaps[port]? = some map) :
    box.staticMaps[port]? = some map := by
  obtain ⟨before, swept, _, leases⟩ := wrote.mappings
  rw [leases] at found
  exact swept.leases port map found

theorem Wrote.kept {slot other : Slot} {mapping : Mapping} {box' : NatBox R} (wrote : Wrote now box slot mapping box')
    (apart : slot ≠ other) (live : box.live now other = true) : box'.mappings[other]? = box.mappings[other]? := by
  obtain ⟨before, swept, written, _⟩ := wrote.mappings
  rw [written, Entries.getElem?_insert, if_neg apart, swept.kept other live]

theorem createMapping_cases [PortRng R] {before : NatBox R} (slot : Slot) (swept : Swept now box before)
    (dst : SocketAddr) :
    (∃ port after, Wrote now box slot ⟨slot.internal, port, now, [dst]⟩ after ∧
      before.createMapping now slot dst = (after, .ok ⟨⟨box.externalIp, port⟩, true⟩)) ∨
    ∃ after, Swept now box after ∧ before.createMapping now slot dst = (after, .error .portPoolExhausted) := by
  have allocated := swept.trans (swept_allocatePort before now slot.internal)
  unfold createMapping
  generalize before.allocatePort now slot.internal = result at allocated
  obtain ⟨after, port⟩ := result
  cases port with
  | none =>
    have counted : SameTables after
        { after with stats := { after.stats with poolExhaustedDrops := after.stats.poolExhaustedDrops + 1 } } :=
      ⟨rfl, rfl, rfl, rfl⟩
    exact .inr ⟨_, allocated.trans counted.swept, rfl⟩
  | some port =>
    have written : Wrote now box slot ⟨slot.internal, port, now, [dst]⟩
        { after with
          mappings := after.mappings.insert slot ⟨slot.internal, port, now, [dst]⟩
          byPort := after.byPort.insert port (after.byPort.getD port [] ++ [slot])
          stats := { after.stats with mappingsCreated := after.stats.mappingsCreated + 1 } } :=
      ⟨allocated.config, allocated.externalIp, after, allocated, rfl, rfl⟩
    refine .inl ⟨port, _, written, ?_⟩
    dsimp only
    rw [allocated.externalIp]

theorem dead_of_expired {slot : Slot}
    (past : (box.mappings[slot]?).any (fun mapping => box.expired mapping now) = true) : box.live now slot = false := by
  cases found : box.mappings[slot]? with
  | none => simp [live, found]
  | some mapping =>
    rw [found] at past
    simpa [live, found] using past

/-- A mapping that has not expired is refreshed; else the slot gets a new one, if a port is left. -/
theorem outboundMapped_cases [PortRng R] (box : NatBox R) (now : UInt64) (slot : Slot) (dst : SocketAddr) :
    (∃ mapping after, box.mappings[slot]? = some mapping ∧ box.expired mapping now = false ∧
      Wrote now box slot { mapping with lastRefresh := now, allowed := mapping.allowed.insert dst } after ∧
      box.outboundMapped now slot dst = (after, .ok ⟨⟨box.externalIp, mapping.externalPort⟩, false⟩)) ∨
    (∃ port after, box.live now slot = false ∧ Wrote now box slot ⟨slot.internal, port, now, [dst]⟩ after ∧
      box.outboundMapped now slot dst = (after, .ok ⟨⟨box.externalIp, port⟩, true⟩)) ∨
    ∃ after, Swept now box after ∧ box.outboundMapped now slot dst = (after, .error .portPoolExhausted) := by
  unfold outboundMapped
  dsimp only
  by_cases past : (box.mappings[slot]?).any (fun mapping => box.expired mapping now) = true
  · have dead := dead_of_expired past
    have gone : (box.evict slot).mappings[slot]? = none := by rw [getElem?_evict, if_pos rfl]
    rw [if_pos past, gone]
    rcases createMapping_cases slot (swept_evict dead) dst with ⟨port, after, created⟩ | exhausted
    · exact .inr (.inl ⟨port, after, dead, created⟩)
    · exact .inr (.inr exhausted)
  · rw [if_neg past]
    cases found : box.mappings[slot]? with
    | some mapping =>
      have fresh : box.expired mapping now = false := by simpa [found] using past
      have written (mapping : Mapping) : Wrote now box slot mapping
          { box with mappings := box.mappings.insert slot mapping } :=
        ⟨rfl, rfl, box, Swept.refl now box, rfl, rfl⟩
      exact .inl ⟨mapping, _, rfl, fresh, written _, rfl⟩
    | none =>
      have dead : box.live now slot = false := by simp [live, found]
      rcases createMapping_cases slot (Swept.refl now box) dst with ⟨port, after, created⟩ | exhausted
      · exact .inr (.inl ⟨port, after, dead, created⟩)
      · exact .inr (.inr exhausted)

/-- A live lease sends a datagram out from its port; else the mapping of its slot does. -/
theorem outbound_of_leased [PortRng R] {src : SocketAddr} {port : UInt16} (pinned : box.staticPort now src = some port)
    (dst : SocketAddr) : box.outbound now src dst = (box, .ok ⟨⟨box.externalIp, port⟩, false⟩) := by
  rw [outbound, pinned]

theorem outbound_of_unleased [PortRng R] {src : SocketAddr} (unpinned : box.staticPort now src = none)
    (dst : SocketAddr) :
    box.outbound now src dst = box.outboundMapped now ⟨src, mapKey box.config.mapping dst⟩ dst := by
  rw [outbound, unpinned]

/-- What the scan of a port admits is the socket of a live mapping there that lets the source pass, if there is one. -/
theorem look_admits {seen final : Seen} {slots : List Slot} {src : SocketAddr}
    (scanned : slots.foldlM (box.look now src) seen = some final) :
    (∀ internal, final.admitted = some internal → seen.admitted = some internal ∨
      ∃ slot ∈ slots, ∃ mapping, box.mappings[slot]? = some mapping ∧ box.expired mapping now = false ∧
        box.passes mapping src = true ∧ mapping.internal = internal) ∧
    (final.admitted = none → seen.admitted = none ∧
      ∀ slot ∈ slots, ∀ mapping, box.mappings[slot]? = some mapping → box.expired mapping now = false →
        box.passes mapping src = false) := by
  induction slots generalizing seen with
  | nil =>
    cases scanned
    exact ⟨fun _ => .inl, fun none => ⟨none, fun _ member => absurd member List.not_mem_nil⟩⟩
  | cons slot rest ih =>
    rw [List.foldlM_cons] at scanned
    cases found : box.mappings[slot]? with
    | none =>
      rw [look, found] at scanned
      cases scanned
    | some mapping =>
      rw [look, found, Option.map_some, Option.bind_eq_bind, Option.bind_some] at scanned
      obtain ⟨admitted, refused⟩ := ih scanned
      constructor
      · intro internal same
        rcases admitted internal same with before | ⟨other, member, later⟩
        · split at before
          · exact .inl before
          next fresh =>
            dsimp only at before
            split at before
            next passes =>
              exact .inr ⟨slot, List.mem_cons_self .., mapping, found, by simpa using fresh, passes.1,
                Option.some.inj before⟩
            next => exact .inl before
        · exact .inr ⟨other, List.mem_cons_of_mem _ member, later⟩
      · intro none
        obtain ⟨before, others⟩ := refused none
        split at before
        next past =>
          refine ⟨before, fun other member mapping' found' fresh => ?_⟩
          rcases List.mem_cons.mp member with rfl | later
          · rw [found] at found'
            rw [← Option.some.inj found', past] at fresh
            cases fresh
          · exact others other later mapping' found' fresh
        next =>
          dsimp only at before
          split at before
          · cases before
          next blocked =>
            refine ⟨before, fun other member mapping' found' fresh => ?_⟩
            rcases List.mem_cons.mp member with rfl | later
            · rw [found] at found'
              rw [← Option.some.inj found']
              simpa [before] using blocked
            · exact others other later mapping' found' fresh

theorem swept_settle {seen : Seen} (dead : ∀ slot ∈ seen.expired, box.live now slot = false) :
    Swept now box (box.settle seen).1 := by
  have evicted := swept_evictAll dead
  have counted (after : NatBox R) (stats : NatStats) : SameTables after { after with stats := stats } :=
    ⟨rfl, rfl, rfl, rfl⟩
  unfold settle
  dsimp only
  split
  · exact evicted
  · split
    · exact evicted.trans (counted _ _).swept
    · exact evicted.trans (counted _ _).swept

theorem settle_ok {seen : Seen} {internal : SocketAddr} :
    (box.settle seen).2 = .ok internal ↔ seen.admitted = some internal := by
  unfold settle
  dsimp only
  split
  next admitted same => simp [same]
  next none => split <;> simp [none]

/-- What `inbound` past the leases does with the datagram. -/
structure Scanned (now : UInt64) (src dst : SocketAddr) (box : NatBox R)
    (result : NatBox R × Except NatDropReason SocketAddr) : Prop where
  swept : Swept now box result.1
  admitted : ∀ internal, result.2 = .ok internal → ∃ (slot : Slot) (mapping : Mapping),
    box.mappings[slot]? = some mapping ∧ mapping.externalPort = dst.port ∧ box.expired mapping now = false ∧
    box.passes mapping src = true ∧ mapping.internal = internal
  refused : ∀ reason, result.2 = .error reason → ∀ (slot : Slot) (mapping : Mapping),
    box.mappings[slot]? = some mapping → mapping.externalPort = dst.port → box.expired mapping now = false →
    box.passes mapping src = false

theorem scanned_inboundMapped (h : box.Consistent config) (now : UInt64) (src dst : SocketAddr) :
    ∃ result, box.inboundMapped now src dst = some result ∧ Scanned now src dst box result := by
  have listed := h.lists.mem_iff dst.port
  unfold inboundMapped
  cases found : box.byPort[dst.port]? with
  | none =>
    have counted : SameTables box
        { box with stats := { box.stats with noMappingDrops := box.stats.noMappingDrops + 1 } } :=
      ⟨rfl, rfl, rfl, rfl⟩
    refine ⟨_, rfl, counted.swept, fun internal same => (by cases same), fun _ _ slot mapping present here => ?_⟩
    have member := (listed slot).mpr ⟨mapping, present, here⟩
    rw [listed_of_none found] at member
    cases member
  | some slots =>
    rw [listed_of_getElem? found] at listed
    have present : ∀ slot ∈ slots, ∃ mapping, box.mappings[slot]? = some mapping := by
      intro slot member
      obtain ⟨mapping, here, _⟩ := (listed slot).mp member
      exact ⟨mapping, here⟩
    have start : ∀ slot ∈ (⟨[], false, none⟩ : Seen).expired, box.live now slot = false :=
      fun _ member => absurd member List.not_mem_nil
    obtain ⟨final, scanned, dead⟩ := look_all src present start
    obtain ⟨admitted, refused⟩ := look_admits scanned
    refine ⟨box.settle final, by dsimp only; rw [scanned, Option.map_some], swept_settle dead, ?_, ?_⟩
    · intro internal same
      rcases admitted internal (settle_ok.mp same) with before | ⟨slot, member, mapping, here, fresh, passes, socket⟩
      · cases before
      · obtain ⟨mapping', here', place⟩ := (listed slot).mp member
        cases here.symm.trans here'
        exact ⟨slot, mapping, here, place, fresh, passes, socket⟩
    · intro reason same slot mapping here place fresh
      have nobody : final.admitted = none := by
        cases one : final.admitted with
        | none => rfl
        | some internal => cases same.symm.trans (settle_ok.mpr one)
      exact (refused nobody).2 slot ((listed slot).mpr ⟨mapping, here, place⟩) mapping here fresh

/-- A live lease takes the datagram; else its port's mappings are scanned. -/
theorem inbound_cases (h : box.Consistent config) (now : UInt64) (src dst : SocketAddr) :
    (∃ map, box.staticMaps[dst.port]? = some map ∧ now ≤ map.expiresAt ∧
      box.inbound now src dst = some (box, .ok map.internal)) ∨
    (∀ map, box.staticMaps[dst.port]? = some map → ¬ now ≤ map.expiresAt) ∧
      ∃ result, box.inbound now src dst = some result ∧ Scanned now src dst box result := by
  unfold inbound
  cases leased : box.staticMaps[dst.port]? with
  | none => exact .inr ⟨fun _ found => (by cases found), scanned_inboundMapped h now src dst⟩
  | some map =>
    by_cases unexpired : now ≤ map.expiresAt
    · exact .inl ⟨map, rfl, unexpired, by dsimp only; rw [if_pos unexpired]⟩
    · refine .inr ⟨fun other same => (by cases same; exact unexpired), ?_⟩
      dsimp only
      rw [if_neg unexpired]
      obtain ⟨result, passed, scanned⟩ := scanned_inboundMapped (consistent_release h dst.port) now src dst
      exact ⟨result, passed, (swept_release now box dst.port).trans scanned.swept, scanned.admitted, scanned.refused⟩

/-- A lease is written into a box from which expired mappings and leases have gone. -/
structure Leased (now : UInt64) (box : NatBox R) (port : UInt16) (map : StaticMap) (box' : NatBox R) : Prop where
  config : box'.config = box.config
  externalIp : box'.externalIp = box.externalIp
  leases : ∃ before : NatBox R, Swept now box before ∧ box'.mappings = before.mappings ∧
    box'.staticMaps = before.staticMaps.insert port map

theorem swept_staticFree (box : NatBox R) (now : UInt64) (port : UInt16) :
    Swept now box (box.staticFree now port).1 := by
  unfold staticFree
  split
  · exact Swept.refl now box
  · split
    · exact Swept.refl now box
    · exact swept_release now box port

theorem swept_leasePort (box : NatBox R) (now : UInt64) (port : UInt16) (internal : SocketAddr) :
    Swept now box (box.leasePort now port internal).1 := by
  have freed := swept_staticFree box now port
  unfold leasePort
  dsimp only
  split
  · exact freed.trans (swept_portAvailable _ now port (some internal))
  · exact freed

/-- A lease is put down where no live one was. -/
theorem leasePort_free {port : UInt16} {internal : SocketAddr} (free : (box.leasePort now port internal).2 = true) :
    ∀ map, box.staticMaps[port]? = some map → ¬ now ≤ map.expiresAt := by
  intro map found unexpired
  unfold leasePort staticFree at free
  rw [found] at free
  dsimp only at free
  rw [if_pos unexpired] at free
  cases free

theorem leaseFrom_cases (box : NatBox R) (now : UInt64) (map : StaticMap) (ports : List UInt16) :
    (∃ port after, leaseFrom now map box ports = (after, some port) ∧ Leased now box port map after) ∨
    ∃ after, leaseFrom now map box ports = (after, none) ∧ Swept now box after := by
  induction ports generalizing box with
  | nil => exact .inr ⟨box, rfl, Swept.refl now box⟩
  | cons port rest ih =>
    have looked := swept_leasePort box now port map.internal
    unfold leaseFrom
    generalize box.leasePort now port map.internal = result at looked
    obtain ⟨before, available⟩ := result
    cases available with
    | true => exact .inl ⟨port, _, rfl, ⟨looked.config, looked.externalIp, before, looked, rfl, rfl⟩⟩
    | false =>
      rcases ih before with ⟨found, after, same, leased⟩ | ⟨after, same, swept⟩
      · obtain ⟨config, externalIp, mid, swept, rest⟩ := leased
        refine .inl ⟨found, after, same, ?_⟩
        exact ⟨config.trans looked.config, externalIp.trans looked.externalIp, mid, looked.trans swept, rest⟩
      · exact .inr ⟨after, same, looked.trans swept⟩

/-- A lease is renewed in place, put down on a port, or refused. -/
theorem installStatic_cases (box : NatBox R) (now : UInt64) (internal : SocketAddr) (requested : UInt16)
    (lifetime : Nat) :
    (∃ port after, box.installStatic now internal requested lifetime = (after, some port) ∧
      Leased now box port ⟨internal, now + asNanos lifetime⟩ after) ∨
    ∃ after, box.installStatic now internal requested lifetime = (after, none) ∧ Swept now box after := by
  unfold installStatic
  dsimp only
  split
  · exact leaseFrom_cases box now _ _
  next existing found =>
    split
    next same =>
      subst same
      exact .inl ⟨requested, _, rfl, ⟨rfl, rfl, box, Swept.refl now box, rfl, rfl⟩⟩
    next => exact leaseFrom_cases box now _ _

/-! ### The log -/

inductive Answer where
  | outbound (result : Except NatDropReason OutboundPass)
  | inbound (result : Except NatDropReason SocketAddr)
  | installStatic (port : Option UInt16)
  | removeStatic

section
variable [PortRng R]

/-- A call with what it returns. -/
def answer (box : NatBox R) : Call → Option (NatBox R × Answer)
  | .outbound now src dst => some ((box.outbound now src dst).1, .outbound (box.outbound now src dst).2)
  | .inbound now src dst => (box.inbound now src dst).map (fun result => (result.1, .inbound result.2))
  | .installStatic now internal requested lifetime =>
    some ((box.installStatic now internal requested lifetime).1,
      .installStatic (box.installStatic now internal requested lifetime).2)
  | .removeStatic internal externalPort => some (box.removeStatic internal externalPort, .removeStatic)

theorem answer_call (box : NatBox R) (c : Call) : (box.answer c).map Prod.fst = box.call c := by
  cases c with
  | inbound now src dst => simp only [answer, call, Option.map_map, Function.comp_def]
  | _ => rfl

abbrev Log := List (Call × Answer)

def logged (state : NatBox R × Log) (c : Call) : Option (NatBox R × Log) :=
  (state.1.answer c).map (fun next => (next.1, state.2 ++ [(c, next.2)]))

/-- A fresh box and a run of calls. -/
def runLogged (config : NatConfig) (externalIp : IpAddr) (rngSeed : UInt64) (calls : List Call) :
    Option (NatBox R × Log) :=
  calls.foldlM logged (new config externalIp rngSeed, [])

end

/-- A datagram went out from the external address. -/
def WentOut (log : Log) (now : UInt64) (src dst external : SocketAddr) : Prop :=
  ∃ created, (.outbound now src dst, .outbound (.ok ⟨external, created⟩)) ∈ log

/-- A lease was granted on the port. -/
def Granted (log : Log) (port : UInt16) (map : StaticMap) : Prop :=
  ∃ now requested lifetime, (.installStatic now map.internal requested lifetime, .installStatic (some port)) ∈ log ∧
    map.expiresAt = now + asNanos lifetime

/-- Everything in the tables is there because of a call in the log. -/
structure Vouched (config : NatConfig) (externalIp : IpAddr) (box : NatBox R) (log : Log) : Prop where
  consistent : box.Consistent config
  external : box.externalIp = externalIp
  refreshed : ∀ (slot : Slot) (mapping : Mapping), box.mappings[slot]? = some mapping →
    ∃ dst, mapKey config.mapping dst = slot.key ∧
      WentOut log mapping.lastRefresh slot.internal dst ⟨externalIp, mapping.externalPort⟩
  allowed : ∀ (slot : Slot) (mapping : Mapping), box.mappings[slot]? = some mapping → ∀ remote ∈ mapping.allowed,
    ∃ now, mapKey config.mapping remote = slot.key ∧
      WentOut log now slot.internal remote ⟨externalIp, mapping.externalPort⟩
  granted : ∀ (port : UInt16) (map : StaticMap), box.staticMaps[port]? = some map → Granted log port map

theorem Vouched.of_swept {externalIp : IpAddr} {box' : NatBox R} {log more : Log} (h : Vouched config externalIp box log)
    (consistent : box'.Consistent config) (swept : Swept now box box') :
    Vouched config externalIp box' (log ++ more) where
  consistent := consistent
  external := swept.externalIp.trans h.external
  refreshed slot mapping found := by
    obtain ⟨dst, key, created, sent⟩ := h.refreshed slot mapping (swept.mappings slot mapping found)
    exact ⟨dst, key, created, List.mem_append_left _ sent⟩
  allowed slot mapping found remote member := by
    obtain ⟨now, key, created, sent⟩ := h.allowed slot mapping (swept.mappings slot mapping found) remote member
    exact ⟨now, key, created, List.mem_append_left _ sent⟩
  granted port map found := by
    obtain ⟨now, requested, lifetime, granted, expiry⟩ := h.granted port map (swept.leases port map found)
    exact ⟨now, requested, lifetime, List.mem_append_left _ granted, expiry⟩

/-- A mapping is written for a datagram that goes out through it. -/
theorem Vouched.of_wrote {externalIp : IpAddr} {box' : NatBox R} {log : Log} {src dst : SocketAddr} {created : Bool}
    (h : Vouched config externalIp box log) (mapping : Mapping) (consistent : box'.Consistent config)
    (wrote : Wrote now box ⟨src, mapKey config.mapping dst⟩ mapping box') (fresh : mapping.lastRefresh = now)
    (kept : ∀ remote ∈ mapping.allowed, remote = dst ∨ ∃ old : Mapping,
      box.mappings[(⟨src, mapKey config.mapping dst⟩ : Slot)]? = some old ∧ old.externalPort = mapping.externalPort ∧
        remote ∈ old.allowed) :
    Vouched config externalIp box'
      (log ++ [(.outbound now src dst, .outbound (.ok ⟨⟨externalIp, mapping.externalPort⟩, created⟩))]) where
  consistent := consistent
  external := wrote.externalIp.trans h.external
  refreshed slot other found := by
    rcases wrote.lookup found with ⟨rfl, rfl⟩ | before
    · exact ⟨dst, rfl, created, by rw [fresh]; exact List.mem_append_right _ (List.mem_singleton.mpr rfl)⟩
    · obtain ⟨dst', key, created', sent⟩ := h.refreshed slot other before
      exact ⟨dst', key, created', List.mem_append_left _ sent⟩
  allowed slot other found remote member := by
    rcases wrote.lookup found with ⟨rfl, rfl⟩ | before
    · rcases kept remote member with rfl | ⟨old, present, place, earlier⟩
      · exact ⟨now, rfl, created, List.mem_append_right _ (List.mem_singleton.mpr rfl)⟩
      · obtain ⟨sentAt, key, created', sent⟩ := h.allowed _ old present remote earlier
        exact ⟨sentAt, key, created', List.mem_append_left _ (place ▸ sent)⟩
    · obtain ⟨sentAt, key, created', sent⟩ := h.allowed slot other before remote member
      exact ⟨sentAt, key, created', List.mem_append_left _ sent⟩
  granted port map found := by
    obtain ⟨grantedAt, requested, lifetime, granted, expiry⟩ := h.granted port map (wrote.lease found)
    exact ⟨grantedAt, requested, lifetime, List.mem_append_left _ granted, expiry⟩

/-- A lease is put down for a call that asks for it. -/
theorem Vouched.of_leased {externalIp : IpAddr} {box' : NatBox R} {log : Log} {internal : SocketAddr}
    {port requested : UInt16} {lifetime : Nat} (h : Vouched config externalIp box log)
    (consistent : box'.Consistent config) (leased : Leased now box port ⟨internal, now + asNanos lifetime⟩ box') :
    Vouched config externalIp box'
      (log ++ [(.installStatic now internal requested lifetime, .installStatic (some port))]) := by
  obtain ⟨_, external, before, swept, mappings, leases⟩ := leased
  refine ⟨consistent, external.trans h.external, fun slot mapping found => ?_,
    fun slot mapping found remote member => ?_, fun other map found => ?_⟩
  · rw [mappings] at found
    obtain ⟨dst, key, created, sent⟩ := h.refreshed slot mapping (swept.mappings slot mapping found)
    exact ⟨dst, key, created, List.mem_append_left _ sent⟩
  · rw [mappings] at found
    obtain ⟨sentAt, key, created, sent⟩ := h.allowed slot mapping (swept.mappings slot mapping found) remote member
    exact ⟨sentAt, key, created, List.mem_append_left _ sent⟩
  · rw [leases, Entries.getElem?_insert] at found
    split at found
    next here =>
      subst here
      obtain rfl := Option.some.inj found
      exact ⟨now, requested, lifetime, List.mem_append_right _ (List.mem_singleton.mpr rfl), rfl⟩
    next =>
      obtain ⟨grantedAt, asked, lasts, granted, expiry⟩ := h.granted other map (swept.leases other map found)
      exact ⟨grantedAt, asked, lasts, List.mem_append_left _ granted, expiry⟩

section
variable {externalIp : IpAddr} {log : Log}

theorem vouched_outbound [PortRng R] (h : Vouched config externalIp box log) (now : UInt64) (src dst : SocketAddr) :
    Vouched config externalIp (box.outbound now src dst).1
      (log ++ [(.outbound now src dst, .outbound (box.outbound now src dst).2)]) := by
  have consistent := consistent_outbound h.consistent now src dst
  cases pinned : box.staticPort now src with
  | some port =>
    rw [outbound_of_leased pinned] at consistent ⊢
    exact h.of_swept consistent (Swept.refl 0 box)
  | none =>
    rw [outbound_of_unleased pinned, h.consistent.configured] at consistent ⊢
    rcases outboundMapped_cases box now ⟨src, mapKey config.mapping dst⟩ dst with
      ⟨mapping, after, found, _, wrote, sent⟩ | ⟨port, after, _, wrote, sent⟩ | ⟨after, swept, sent⟩
    · rw [sent] at consistent ⊢
      rw [h.external]
      refine h.of_wrote { mapping with lastRefresh := now, allowed := mapping.allowed.insert dst } consistent wrote rfl
        (fun remote member => ?_)
      rcases List.mem_insert_iff.mp member with same | earlier
      · exact .inl same
      · exact .inr ⟨mapping, found, rfl, earlier⟩
    · rw [sent] at consistent ⊢
      rw [h.external]
      exact h.of_wrote ⟨src, port, now, [dst]⟩ consistent wrote rfl
        (fun remote member => .inl (List.mem_singleton.mp member))
    · rw [sent] at consistent ⊢
      exact h.of_swept consistent swept

theorem vouched_inbound {result : NatBox R × Except NatDropReason SocketAddr} {src dst : SocketAddr}
    (h : Vouched config externalIp box log) (passed : box.inbound now src dst = some result) (c : Call × Answer) :
    Vouched config externalIp result.1 (log ++ [c]) := by
  obtain ⟨same, called, consistent⟩ := consistent_inbound h.consistent now src dst
  obtain rfl := Option.some.inj (called.symm.trans passed)
  rcases inbound_cases h.consistent now src dst with ⟨map, _, _, leased⟩ | ⟨_, other, scan, scanned⟩
  · obtain rfl := Option.some.inj (passed.symm.trans leased)
    exact h.of_swept consistent (Swept.refl 0 box)
  · obtain rfl := Option.some.inj (passed.symm.trans scan)
    exact h.of_swept consistent scanned.swept

theorem vouched_installStatic (h : Vouched config externalIp box log) (now : UInt64) (internal : SocketAddr)
    (requested : UInt16) (lifetime : Nat) :
    Vouched config externalIp (box.installStatic now internal requested lifetime).1
      (log ++ [(.installStatic now internal requested lifetime,
        .installStatic (box.installStatic now internal requested lifetime).2)]) := by
  have consistent := consistent_installStatic h.consistent now internal requested lifetime
  rcases installStatic_cases box now internal requested lifetime with ⟨port, after, installed, leased⟩ |
    ⟨after, refused, swept⟩
  · rw [installed] at consistent ⊢
    exact h.of_leased consistent leased
  · rw [refused] at consistent ⊢
    exact h.of_swept consistent swept

theorem vouched_removeStatic (h : Vouched config externalIp box log) (internal : SocketAddr) (externalPort : UInt16)
    (more : Log) : Vouched config externalIp (box.removeStatic internal externalPort) (log ++ more) := by
  have consistent := consistent_removeStatic h.consistent internal externalPort
  unfold removeStatic at consistent ⊢
  split at consistent
  · exact h.of_swept consistent (Swept.refl 0 box)
  · split at consistent
    next mine =>
      rw [if_pos mine]
      exact h.of_swept consistent (swept_release 0 box externalPort)
    next other =>
      rw [if_neg other]
      exact h.of_swept consistent (Swept.refl 0 box)

theorem vouched_logged [PortRng R] {c : Call} {after : NatBox R × Log} (h : Vouched config externalIp box log)
    (called : logged (box, log) c = some after) : Vouched config externalIp after.1 after.2 := by
  obtain ⟨next, answered, rfl⟩ := Option.map_eq_some_iff.mp called
  cases c with
  | outbound now src dst =>
    obtain rfl := Option.some.inj answered
    exact vouched_outbound h now src dst
  | inbound now src dst =>
    obtain ⟨result, passed, rfl⟩ := Option.map_eq_some_iff.mp answered
    exact vouched_inbound h passed _
  | installStatic now internal requested lifetime =>
    obtain rfl := Option.some.inj answered
    exact vouched_installStatic h now internal requested lifetime
  | removeStatic internal externalPort =>
    obtain rfl := Option.some.inj answered
    exact vouched_removeStatic h internal externalPort _

theorem vouched_run [PortRng R] {rngSeed : UInt64} {calls : List Call} {box : NatBox R}
    (ran : runLogged config externalIp rngSeed calls = some (box, log)) : Vouched config externalIp box log :=
  Fallible.foldlM_invariant (Q := fun _ => True)
    (P := fun state : NatBox R × Log => Vouched config externalIp state.1 state.2)
    ⟨consistent_new config externalIp rngSeed, rfl, by simp [new], by simp [new], by simp [new]⟩
    (fun _ _ _ held _ called => vouched_logged held called) (fun _ _ => trivial) ran

end

/-! ### Nothing unsolicited -/

/-- A datagram toward `remote` lets `src` answer. -/
def Admits (filtering : Filtering) (remote src : SocketAddr) : Prop :=
  match filtering with
  | .endpointIndependent => True
  | .addressRestricted => remote.ip = src.ip
  | .portRestricted => remote = src

theorem admits_of_passes {mapping : Mapping} {src : SocketAddr} (passes : box.passes mapping src = true) :
    box.config.filtering = .endpointIndependent ∨
      ∃ remote ∈ mapping.allowed, Admits box.config.filtering remote src := by
  unfold NatBox.passes at passes
  cases policy : box.config.filtering with
  | endpointIndependent => exact .inl rfl
  | addressRestricted =>
    rw [policy] at passes
    obtain ⟨remote, member, same⟩ := List.any_eq_true.mp passes
    exact .inr ⟨remote, member, by simpa [Admits] using same⟩
  | portRestricted =>
    rw [policy] at passes
    exact .inr ⟨src, List.contains_iff_mem.mp passes, rfl⟩

/-- What a box lets in was asked for: its socket holds a lease on the port that has not run out, or it sent from that
port to a remote whose answers the filter admits, and again, with the same key, less than the idle timeout ago. -/
theorem delivery_solicited [PortRng R] {externalIp : IpAddr} {rngSeed : UInt64} {calls : List Call}
    {box after : NatBox R} {log : Log} {src dst internal : SocketAddr}
    (ran : runLogged config externalIp rngSeed calls = some (box, log))
    (delivered : box.inbound now src dst = some (after, .ok internal)) :
    (∃ expiresAt, Granted log dst.port ⟨internal, expiresAt⟩ ∧ now ≤ expiresAt) ∨
    ∃ sentAt remote refreshedAt other, WentOut log sentAt internal remote ⟨externalIp, dst.port⟩ ∧
      Admits config.filtering remote src ∧ WentOut log refreshedAt internal other ⟨externalIp, dst.port⟩ ∧
      mapKey config.mapping other = mapKey config.mapping remote ∧
      saturatingSub now refreshedAt ≤ asNanos config.idleTimeout := by
  have h := vouched_run ran
  rcases inbound_cases h.consistent now src dst with ⟨map, found, unexpired, leased⟩ | ⟨_, result, scan, scanned⟩
  · cases leased.symm.trans delivered
    exact .inl ⟨map.expiresAt, h.granted dst.port map found, unexpired⟩
  · cases scan.symm.trans delivered
    obtain ⟨slot, mapping, found, place, fresh, passes, socket⟩ := scanned.admitted internal rfl
    have keyed : slot.internal = internal := (h.consistent.keyed slot mapping found).symm.trans socket
    obtain ⟨other, otherKey, refreshed⟩ := h.refreshed slot mapping found
    rw [keyed, place] at refreshed
    have recent : saturatingSub now mapping.lastRefresh ≤ asNanos config.idleTimeout := by
      simpa [expired, h.consistent.configured] using fresh
    rcases admits_of_passes passes with anyone | ⟨remote, member, admits⟩
    · refine .inr ⟨mapping.lastRefresh, other, mapping.lastRefresh, other, refreshed, ?_, refreshed, rfl, recent⟩
      rw [h.consistent.configured] at anyone
      rw [anyone]
      trivial
    · obtain ⟨sentAt, remoteKey, sent⟩ := h.allowed slot mapping found remote member
      rw [keyed, place] at sent
      rw [h.consistent.configured] at admits
      have sameKey := otherKey.trans remoteKey.symm
      exact .inr ⟨sentAt, remote, mapping.lastRefresh, other, sent, admits, refreshed, sameKey, recent⟩

def lanHost : SocketAddr := ⟨.v4 0x0a000002, 51000⟩

def server : SocketAddr := ⟨.v4 0xc6336401, 8001⟩

/-- A box that a first datagram leaves. -/
def quietBox : NatBox Unit := new everySecond (.v4 0xcb007109) 1

theorem delivery_solicited_reply :
    (∃ expiresAt, Granted [(.outbound 5 lanHost server, .outbound (.ok ⟨⟨.v4 0xcb007109, 40000⟩, true⟩))] 40000
        ⟨lanHost, expiresAt⟩ ∧ 7 ≤ expiresAt) ∨
      ∃ sentAt remote refreshedAt other,
        WentOut [(.outbound 5 lanHost server, .outbound (.ok ⟨⟨.v4 0xcb007109, 40000⟩, true⟩))] sentAt lanHost remote
          ⟨.v4 0xcb007109, 40000⟩ ∧ Admits .portRestricted remote server ∧
        WentOut [(.outbound 5 lanHost server, .outbound (.ok ⟨⟨.v4 0xcb007109, 40000⟩, true⟩))] refreshedAt lanHost other
          ⟨.v4 0xcb007109, 40000⟩ ∧
        mapKey .dstAddrPort other = mapKey .dstAddrPort remote ∧ saturatingSub 7 refreshedAt ≤ asNanos 30000000000 := by
  have ran : runLogged everySecond (.v4 0xcb007109) 1 [.outbound 5 lanHost server] =
      some ((quietBox.outbound 5 lanHost server).1,
        [(.outbound 5 lanHost server, .outbound (.ok ⟨⟨.v4 0xcb007109, 40000⟩, true⟩))]) := rfl
  have delivered : (quietBox.outbound 5 lanHost server).1.inbound 7 server ⟨.v4 0xcb007109, 40000⟩ =
      some ((quietBox.outbound 5 lanHost server).1, .ok lanHost) := rfl
  exact delivery_solicited ran delivered

/-! ### Replies -/

/-- The time of a call, where it has one. -/
def Call.time : Call → Option UInt64
  | .outbound now _ _ | .inbound now _ _ | .installStatic now _ _ _ => some now
  | .removeStatic _ _ => none

/-- No later than a mapping idles. -/
def WithinIdleOf (config : NatConfig) (since now : UInt64) : Prop :=
  since ≤ now ∧ now - since ≤ asNanos config.idleTimeout

theorem sub_le_of_earlier {since before limit : UInt64} (order : since ≤ before) (early : before ≤ now)
    (close : now - since ≤ limit) : before - since ≤ limit := by
  rw [UInt64.le_iff_toNat_le] at order early close ⊢
  rw [UInt64.toNat_sub_of_le _ _ (UInt64.le_iff_toNat_le.mpr order)]
  rw [UInt64.toNat_sub_of_le _ _ (UInt64.le_iff_toNat_le.mpr (order.trans early))] at close
  omega

theorem WithinIdleOf.earlier {since before : UInt64} (within : WithinIdleOf config since now) (order : since ≤ before)
    (early : before ≤ now) : WithinIdleOf config since before :=
  ⟨order, sub_le_of_earlier order early within.2⟩

/-- The slot has a mapping on the port, refreshed since, that has sent to the remote. -/
def Awaits (box : NatBox R) (slot : Slot) (port : UInt16) (remote : SocketAddr) (since : UInt64) : Prop :=
  ∃ mapping, box.mappings[slot]? = some mapping ∧ mapping.externalPort = port ∧ since ≤ mapping.lastRefresh ∧
    remote ∈ mapping.allowed

theorem unexpired_of_within {mapping : Mapping} {since : UInt64} (configured : box.config = config)
    (refreshed : since ≤ mapping.lastRefresh) (within : WithinIdleOf config since now) :
    box.expired mapping now = false := by
  obtain ⟨order, close⟩ := within
  rw [expired, configured, decide_eq_false_iff_not, UInt64.not_lt]
  rw [UInt64.le_iff_toNat_le] at order refreshed close ⊢
  rw [UInt64.toNat_sub_of_le _ _ (UInt64.le_iff_toNat_le.mpr order)] at close
  unfold saturatingSub
  split
  next fits =>
    rw [UInt64.toNat_sub_of_le _ _ fits]
    omega
  next => exact Nat.zero_le _

theorem Awaits.live {slot : Slot} {port : UInt16} {remote : SocketAddr} {since : UInt64}
    (configured : box.config = config) (awaits : box.Awaits slot port remote since)
    (within : WithinIdleOf config since now) : box.live now slot = true := by
  obtain ⟨mapping, found, _, refreshed, _⟩ := awaits
  simp [NatBox.live, found, unexpired_of_within configured refreshed within]

theorem Awaits.of_same {box' : NatBox R} {slot : Slot} {port : UInt16} {remote : SocketAddr} {since : UInt64}
    (awaits : box.Awaits slot port remote since) (same : box'.mappings[slot]? = box.mappings[slot]?) :
    box'.Awaits slot port remote since := by
  obtain ⟨mapping, found, rest⟩ := awaits
  exact ⟨mapping, same.trans found, rest⟩

section
variable {slot : Slot} {port : UInt16} {remote : SocketAddr} {since : UInt64}

theorem awaits_outbound [PortRng R] (h : box.Consistent config) (awaits : box.Awaits slot port remote since)
    (within : WithinIdleOf config since now) (src dst : SocketAddr) :
    (box.outbound now src dst).1.Awaits slot port remote since := by
  have alive := awaits.live h.configured within
  cases pinned : box.staticPort now src with
  | some pinnedTo => rwa [outbound_of_leased pinned]
  | none =>
    rw [outbound_of_unleased pinned]
    rcases outboundMapped_cases box now ⟨src, mapKey box.config.mapping dst⟩ dst with
      ⟨mapping, after, found, _, wrote, sent⟩ | ⟨assigned, after, dead, wrote, sent⟩ | ⟨after, swept, sent⟩
    · rw [sent]
      by_cases here : (⟨src, mapKey box.config.mapping dst⟩ : Slot) = slot
      · subst here
        obtain ⟨old, present, place, _, member⟩ := awaits
        obtain rfl := Option.some.inj (found.symm.trans present)
        exact ⟨_, wrote.found, place, within.1, List.mem_insert_of_mem member⟩
      · exact awaits.of_same (wrote.kept here alive)
    · rw [sent]
      -- A live slot is not given a new mapping.
      have apart : (⟨src, mapKey box.config.mapping dst⟩ : Slot) ≠ slot := by
        rintro rfl
        rw [dead] at alive
        cases alive
      exact awaits.of_same (wrote.kept apart alive)
    · rw [sent]
      exact awaits.of_same (swept.kept slot alive)

theorem awaits_inbound {result : NatBox R × Except NatDropReason SocketAddr} (h : box.Consistent config)
    (awaits : box.Awaits slot port remote since) (within : WithinIdleOf config since now) {src dst : SocketAddr}
    (passed : box.inbound now src dst = some result) : result.1.Awaits slot port remote since := by
  rcases inbound_cases h now src dst with ⟨map, _, _, leased⟩ | ⟨_, other, scan, scanned⟩
  · obtain rfl := Option.some.inj (passed.symm.trans leased)
    exact awaits
  · obtain rfl := Option.some.inj (passed.symm.trans scan)
    exact awaits.of_same (scanned.swept.kept slot (awaits.live h.configured within))

theorem awaits_installStatic (h : box.Consistent config) (awaits : box.Awaits slot port remote since)
    (within : WithinIdleOf config since now) (internal : SocketAddr) (requested : UInt16) (lifetime : Nat) :
    (box.installStatic now internal requested lifetime).1.Awaits slot port remote since := by
  have alive := awaits.live h.configured within
  rcases installStatic_cases box now internal requested lifetime with ⟨assigned, after, installed, leased⟩ |
    ⟨after, refused, swept⟩
  · rw [installed]
    obtain ⟨_, _, before, swept, mappings, _⟩ := leased
    exact awaits.of_same (by rw [mappings, swept.kept slot alive])
  · rw [refused]
    exact awaits.of_same (swept.kept slot alive)

theorem awaits_call [PortRng R] {c : Call} {after : NatBox R} (h : box.Consistent config)
    (awaits : box.Awaits slot port remote since) (within : ∀ now ∈ c.time, WithinIdleOf config since now)
    (called : box.call c = some after) : after.Awaits slot port remote since := by
  cases c with
  | outbound now src dst =>
    obtain rfl := Option.some.inj called
    exact awaits_outbound h awaits (within now rfl) src dst
  | inbound now src dst =>
    obtain ⟨result, passed, rfl⟩ := Option.map_eq_some_iff.mp called
    exact awaits_inbound h awaits (within now rfl) passed
  | installStatic now internal requested lifetime =>
    obtain rfl := Option.some.inj called
    exact awaits_installStatic h awaits (within now rfl) internal requested lifetime
  | removeStatic internal externalPort =>
    obtain rfl := Option.some.inj called
    refine awaits.of_same ?_
    unfold removeStatic
    split
    · rfl
    · split <;> rfl

end

theorem contains_passes {mapping : Mapping} {src : SocketAddr} (sent : src ∈ mapping.allowed) :
    box.passes mapping src = true := by
  unfold NatBox.passes
  split
  · rfl
  · exact List.any_eq_true.mpr ⟨src, sent, decide_eq_true rfl⟩
  · exact List.contains_iff_mem.mpr sent

/-- A datagram that went out by a mapping awaits its answer. -/
theorem awaits_sent [PortRng R] {passed : NatBox R} {src dst : SocketAddr} {pass : OutboundPass}
    (unleased : box.staticPort now src = none) (sent : box.outbound now src dst = (passed, .ok pass)) :
    passed.Awaits ⟨src, mapKey box.config.mapping dst⟩ pass.external.port dst now ∧
      pass.external.ip = box.externalIp := by
  rw [outbound_of_unleased unleased] at sent
  rcases outboundMapped_cases box now ⟨src, mapKey box.config.mapping dst⟩ dst with
    ⟨mapping, mid, _, _, wrote, result⟩ | ⟨assigned, mid, _, wrote, result⟩ | ⟨mid, _, result⟩
  · cases result.symm.trans sent
    exact ⟨⟨_, wrote.found, rfl, UInt64.le_refl _, List.mem_insert_self⟩, rfl⟩
  · cases result.symm.trans sent
    exact ⟨⟨_, wrote.found, rfl, UInt64.le_refl _, List.mem_singleton.mpr rfl⟩, rfl⟩
  · cases result.symm.trans sent

/-- An awaited answer is let in, to the socket of the mapping. -/
theorem inbound_awaited {slot : Slot} {remote dst : SocketAddr} {since : UInt64} (h : box.Consistent config)
    (awaits : box.Awaits slot dst.port remote since) (within : WithinIdleOf config since now) :
    ∃ result, box.inbound now remote dst = some (result, .ok slot.internal) := by
  obtain ⟨mapping, found, place, refreshed, member⟩ := awaits
  have mine := h.keyed _ mapping found
  have fresh := unexpired_of_within h.configured refreshed within
  obtain ⟨owner, owned⟩ := h.owned dst.port
  have socket : slot.internal = owner := mine.symm.trans (owned.mappings _ mapping found place)
  rcases inbound_cases h now remote dst with ⟨map, leased, _, taken⟩ | ⟨_, result, scan, scanned⟩
  · exact ⟨box, by rw [taken, owned.leases map leased, socket]⟩
  · obtain ⟨box', answer⟩ := result
    cases answer with
    | ok internal =>
      obtain ⟨other, mapping', present, here, _, _, same⟩ := scanned.admitted internal rfl
      exact ⟨box', by rw [scan, ← same, owned.mappings other mapping' present here, socket]⟩
    | error reason =>
      have blocked := scanned.refused reason rfl _ mapping found place fresh
      rw [contains_passes member] at blocked
      cases blocked

section
variable [PortRng R] {externalIp : IpAddr} {rngSeed since : UInt64} {calls later : List Call} {passed after : NatBox R}
  {src dst : SocketAddr} {pass : OutboundPass}

theorem consistent_reached (reached : calls.foldlM call (new config externalIp rngSeed) = some box) :
    box.Consistent config := by
  obtain ⟨final, run, consistent⟩ := consistent_calls (consistent_new (R := R) config externalIp rngSeed) calls
  rwa [Option.some.inj (reached.symm.trans run)]

theorem consistent_passed (reached : calls.foldlM call (new config externalIp rngSeed) = some box)
    (sent : box.outbound since src dst = (passed, .ok pass)) : passed.Consistent config := by
  have kept := consistent_outbound (consistent_reached reached) since src dst
  rwa [sent] at kept

theorem calls_after (reached : calls.foldlM call (new config externalIp rngSeed) = some box)
    (sent : box.outbound since src dst = (passed, .ok pass)) (later : List Call) :
    ∃ after, later.foldlM call passed = some after := by
  obtain ⟨after, ran, -⟩ := consistent_calls (consistent_passed reached sent) later
  exact ⟨after, ran⟩

/-- What awaits an answer goes on doing so. -/
theorem awaits_later (reached : calls.foldlM call (new config externalIp rngSeed) = some box)
    (unleased : box.staticPort since src = none) (sent : box.outbound since src dst = (passed, .ok pass))
    (timely : ∀ c ∈ later, ∀ now ∈ c.time, WithinIdleOf config since now) (ran : later.foldlM call passed = some after) :
    after.Consistent config ∧
      after.Awaits ⟨src, mapKey config.mapping dst⟩ pass.external.port dst since := by
  have consistent := consistent_passed reached sent
  obtain ⟨awaits, -⟩ := awaits_sent unleased sent
  rw [(consistent_reached reached).configured] at awaits
  refine Fallible.foldlM_invariant (Q := fun c : Call => ∀ now ∈ c.time, WithinIdleOf config since now)
    (P := fun current : NatBox R => current.Consistent config ∧
      current.Awaits ⟨src, mapKey config.mapping dst⟩ pass.external.port dst since)
    ⟨consistent, awaits⟩ ?_ timely ran
  rintro current c next ⟨ok, waits⟩ timely called
  obtain ⟨same, done, good⟩ := consistent_call ok c
  obtain rfl := Option.some.inj (done.symm.trans called)
  exact ⟨good, awaits_call ok waits timely called⟩

end

/-- After a datagram has gone out by a mapping, whatever calls follow within the idle timeout, none of them panics, and an
answer of its destination that comes within the timeout is let in, to the socket that sent. -/
theorem reply_delivered [PortRng R] {externalIp : IpAddr} {rngSeed since : UInt64} {calls later : List Call}
    {box passed : NatBox R} {src dst : SocketAddr} {pass : OutboundPass}
    (reached : calls.foldlM call (new config externalIp rngSeed) = some box) (unleased : box.staticPort since src = none)
    (sent : box.outbound since src dst = (passed, .ok pass))
    (timely : ∀ c ∈ later, ∀ now ∈ c.time, WithinIdleOf config since now) (within : WithinIdleOf config since now) :
    ∃ after result, later.foldlM call passed = some after ∧
      after.inbound now dst pass.external = some (result, .ok src) := by
  obtain ⟨after, ran⟩ := calls_after reached sent later
  obtain ⟨held, awaits⟩ := awaits_later reached unleased sent timely ran
  obtain ⟨result, delivered⟩ := inbound_awaited held awaits within
  exact ⟨after, result, ran, delivered⟩

/-- Another socket sends and takes a lease, and a stranger tries its luck. -/
def meanwhile : List Call :=
  [.outbound 6 ⟨.v4 0x0a000003, 51000⟩ server, .installStatic 7 ⟨.v4 0x0a000003, 51000⟩ 40000 60000000000,
    .inbound 8 ⟨.v4 0x01010101, 53⟩ ⟨.v4 0xcb007109, 40000⟩]

theorem reply_delivered_meanwhile : ∃ after result,
    meanwhile.foldlM call (quietBox.outbound 5 lanHost server).1 = some after ∧
    after.inbound 9 server ⟨.v4 0xcb007109, 40000⟩ = some (result, .ok lanHost) := by
  have reached : ([] : List Call).foldlM call quietBox = some quietBox := rfl
  have sent : quietBox.outbound 5 lanHost server =
      ((quietBox.outbound 5 lanHost server).1, .ok ⟨⟨.v4 0xcb007109, 40000⟩, true⟩) := rfl
  have timely : ∀ c ∈ meanwhile, ∀ now ∈ c.time, WithinIdleOf everySecond 5 now := by
    intro c member now at_
    simp only [meanwhile, List.mem_cons, List.not_mem_nil, or_false] at member
    rcases member with rfl | rfl | rfl <;> cases at_ <;> exact ⟨by decide, by decide⟩
  have soon : WithinIdleOf everySecond 5 9 := ⟨by decide, by decide⟩
  exact reply_delivered reached (by decide) sent timely soon

/-! ### Mappings -/

theorem externalIp_call [PortRng R] {c : Call} {after : NatBox R} (h : box.Consistent config)
    (called : box.call c = some after) : after.externalIp = box.externalIp := by
  cases c with
  | outbound now src dst =>
    obtain rfl := Option.some.inj called
    cases pinned : box.staticPort now src with
    | some port => rw [outbound_of_leased pinned]
    | none =>
      rw [outbound_of_unleased pinned]
      rcases outboundMapped_cases box now ⟨src, mapKey box.config.mapping dst⟩ dst with
        ⟨mapping, after, _, _, wrote, sent⟩ | ⟨port, after, _, wrote, sent⟩ | ⟨after, swept, sent⟩
      · rw [sent, wrote.externalIp]
      · rw [sent, wrote.externalIp]
      · rw [sent, swept.externalIp]
  | inbound now src dst =>
    obtain ⟨result, passed, rfl⟩ := Option.map_eq_some_iff.mp called
    rcases inbound_cases h now src dst with ⟨map, _, _, leased⟩ | ⟨_, other, scan, scanned⟩
    · have same := Option.some.inj (passed.symm.trans leased)
      rw [same]
    · rw [Option.some.inj (passed.symm.trans scan), scanned.swept.externalIp]
  | installStatic now internal requested lifetime =>
    obtain rfl := Option.some.inj called
    rcases installStatic_cases box now internal requested lifetime with ⟨port, after, installed, leased⟩ |
      ⟨after, refused, swept⟩
    · rw [installed, leased.externalIp]
    · rw [refused, swept.externalIp]
  | removeStatic internal externalPort =>
    obtain rfl := Option.some.inj called
    unfold removeStatic
    split
    · rfl
    · split <;> rfl

theorem externalIp_calls [PortRng R] {later : List Call} {after : NatBox R} (h : box.Consistent config)
    (ran : later.foldlM call box = some after) : after.externalIp = box.externalIp := by
  refine (Fallible.foldlM_invariant (Q := fun _ : Call => True)
    (P := fun current : NatBox R => current.Consistent config ∧ current.externalIp = box.externalIp)
    ⟨h, rfl⟩ ?_ (fun _ _ => trivial) ran).2
  rintro current c next ⟨ok, same⟩ _ called
  obtain ⟨_, done, good⟩ := consistent_call ok c
  obtain rfl := Option.some.inj (done.symm.trans called)
  exact ⟨good, (externalIp_call ok called).trans same⟩

/-- A live mapping is used again. -/
theorem outboundMapped_live [PortRng R] {slot : Slot} {mapping : Mapping} (found : box.mappings[slot]? = some mapping)
    (fresh : box.expired mapping now = false) (dst : SocketAddr) :
    (box.outboundMapped now slot dst).2 = .ok ⟨⟨box.externalIp, mapping.externalPort⟩, false⟩ := by
  unfold outboundMapped
  rw [found, Option.any_some, fresh, if_neg Bool.false_ne_true]
  dsimp only
  rw [found]

/-- Where a datagram of the socket leaves from: the port of a lease, while one pins it, and else the given address. -/
def leavesFrom (box : NatBox R) (now : UInt64) (src mapped : SocketAddr) : SocketAddr :=
  match box.staticPort now src with
  | some port => ⟨mapped.ip, port⟩
  | none => mapped

/-- The address others have seen of a socket stays its address: while its mapping does not idle, whatever calls come
between, a datagram to any destination that shares the mapping leaves from the same external address, or from the port
of a lease that has come to pin the socket. -/
theorem mapping_stable [PortRng R] {externalIp : IpAddr} {rngSeed since : UInt64} {calls later : List Call}
    {box passed : NatBox R} {src dst other : SocketAddr} {pass : OutboundPass}
    (reached : calls.foldlM call (new config externalIp rngSeed) = some box) (unleased : box.staticPort since src = none)
    (sent : box.outbound since src dst = (passed, .ok pass))
    (timely : ∀ c ∈ later, ∀ now ∈ c.time, WithinIdleOf config since now) (within : WithinIdleOf config since now)
    (shared : mapKey config.mapping other = mapKey config.mapping dst) :
    ∃ after, later.foldlM call passed = some after ∧
      (after.outbound now src other).2 = .ok ⟨after.leavesFrom now src pass.external, false⟩ := by
  obtain ⟨after, ran⟩ := calls_after reached sent later
  obtain ⟨held, mapping, found, place, refreshed, -⟩ := awaits_later reached unleased sent timely ran
  have first : box.call (.outbound since src dst) = some passed := by rw [call, sent]
  have ip : after.externalIp = pass.external.ip :=
    calc after.externalIp = passed.externalIp := externalIp_calls (consistent_passed reached sent) ran
      _ = box.externalIp := externalIp_call (consistent_reached reached) first
      _ = pass.external.ip := (awaits_sent unleased sent).2.symm
  refine ⟨after, ran, ?_⟩
  unfold leavesFrom
  cases pinned : after.staticPort now src with
  | some port => rw [outbound_of_leased pinned, ip]
  | none =>
    rw [← shared] at found
    rw [outbound_of_unleased pinned, held.configured,
      outboundMapped_live found (unexpired_of_within held.configured refreshed within), place, ip]

/-- A neighbour sends, and then the socket gets a lease. -/
def pinnedLater : List Call :=
  [.outbound 6 ⟨.v4 0x0a000003, 51000⟩ server, .installStatic 7 lanHost 41000 60000000000]

theorem mapping_stable_pinnedLater :
    (∃ after, (pinnedLater.take 1).foldlM call (quietBox.outbound 5 lanHost server).1 = some after ∧
      (after.outbound 9 lanHost server).2 = .ok ⟨⟨.v4 0xcb007109, 40000⟩, false⟩) ∧
    ∃ after, pinnedLater.foldlM call (quietBox.outbound 5 lanHost server).1 = some after ∧
      (after.outbound 9 lanHost server).2 = .ok ⟨⟨.v4 0xcb007109, 41000⟩, false⟩ := by
  have reached : ([] : List Call).foldlM call quietBox = some quietBox := rfl
  have sent : quietBox.outbound 5 lanHost server =
      ((quietBox.outbound 5 lanHost server).1, .ok ⟨⟨.v4 0xcb007109, 40000⟩, true⟩) := rfl
  have timely : ∀ c ∈ pinnedLater, ∀ now ∈ c.time, WithinIdleOf everySecond 5 now := by
    intro c member now at_
    simp only [pinnedLater, List.mem_cons, List.not_mem_nil, or_false] at member
    rcases member with rfl | rfl <;> cases at_ <;> exact ⟨by decide, by decide⟩
  have soon : WithinIdleOf everySecond 5 9 := ⟨by decide, by decide⟩
  constructor
  · obtain ⟨final, runs, still⟩ : ∃ final,
        (pinnedLater.take 1).foldlM call (quietBox.outbound 5 lanHost server).1 = some final ∧
          final.leavesFrom 9 lanHost ⟨.v4 0xcb007109, 40000⟩ = ⟨.v4 0xcb007109, 40000⟩ := ⟨_, rfl, rfl⟩
    have early : ∀ c ∈ pinnedLater.take 1, ∀ now ∈ c.time, WithinIdleOf everySecond 5 now :=
      fun c member => timely c (List.mem_of_mem_take member)
    obtain ⟨after, ran, sends⟩ := mapping_stable reached (by decide) sent early soon rfl
    obtain rfl := Option.some.inj (runs.symm.trans ran)
    exact ⟨final, runs, by rw [sends, still]⟩
  · obtain ⟨final, runs, leased⟩ : ∃ final,
        pinnedLater.foldlM call (quietBox.outbound 5 lanHost server).1 = some final ∧
          final.leavesFrom 9 lanHost ⟨.v4 0xcb007109, 40000⟩ = ⟨.v4 0xcb007109, 41000⟩ := ⟨_, rfl, rfl⟩
    obtain ⟨after, ran, sends⟩ := mapping_stable reached (by decide) sent timely soon rfl
    obtain rfl := Option.some.inj (runs.symm.trans ran)
    exact ⟨final, runs, by rw [sends, leased]⟩

end Lightbringer.Overlay.Sim.NatBox
