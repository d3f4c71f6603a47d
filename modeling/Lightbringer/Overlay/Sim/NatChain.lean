import Lightbringer.Overlay.Sim.NatTraffic
import Lightbringer.Overlay.Sim.World

/-!
# The way back through a chain of NATs

A host may sit behind several NATs. What left through all of them is waited for by a mapping of each, whatever else
passes them meanwhile, and an answer finds its way back through all of them. Over IPv6 it is the firewall that waits.
-/

namespace Lightbringer.Overlay.Sim
open Std

variable {R : Type}

namespace NatBox

/-- A box that no gateway has programmed. -/
structure Plain (box : NatBox R) : Prop where
  consistent : box.Consistent box.config
  unleased : ∀ port : UInt16, box.staticMaps[port]? = none

/-- What a datagram at `now` makes of a box. -/
structure Onward (now : UInt64) (box box' : NatBox R) : Prop where
  config : box'.config = box.config
  externalIp : box'.externalIp = box.externalIp
  plain : box'.Plain
  awaits : ∀ {slot port remote since}, WithinIdleOf box.config since now → box.Awaits slot port remote since →
    box'.Awaits slot port remote since

section
variable {box box' : NatBox R} {now : UInt64}

theorem plain_new [PortRng R] (config : NatConfig) (externalIp : IpAddr) (rngSeed : UInt64) :
    (new config externalIp rngSeed : NatBox R).Plain :=
  ⟨consistent_new config externalIp rngSeed, fun _ => TreeMap.getElem?_emptyc⟩

theorem Onward.refl (plain : box.Plain) (now : UInt64) : Onward now box box :=
  ⟨rfl, rfl, plain, fun _ awaits => awaits⟩

theorem Onward.trans {box'' : NatBox R} (one : Onward now box box') (two : Onward now box' box'') :
    Onward now box box'' := by
  refine ⟨two.config.trans one.config, two.externalIp.trans one.externalIp, two.plain, fun within awaits => ?_⟩
  exact two.awaits (one.config ▸ within) (one.awaits within awaits)

theorem Plain.later (plain : box.Plain) (config : box'.config = box.config) (consistent : box'.Consistent box.config)
    (leases : ∀ (port : UInt16) map, box'.staticMaps[port]? = some map → box.staticMaps[port]? = some map) :
    box'.Plain := by
  refine ⟨by rwa [config], fun port => ?_⟩
  cases found : box'.staticMaps[port]? with
  | none => rfl
  | some map => exact absurd (leases port map found) (by simp [plain.unleased port])

theorem Plain.unpinned (plain : box.Plain) (now : UInt64) (src : SocketAddr) : box.staticPort now src = none := by
  rw [staticPort, Option.map_eq_none_iff, List.find?_eq_none]
  intro entry member
  have found := TreeMap.mem_toList_iff_getElem?_eq_some.mp member
  rw [plain.unleased] at found
  cases found

theorem onward_outbound [PortRng R] (plain : box.Plain) (now : UInt64) (src dst : SocketAddr) :
    Onward now box (box.outbound now src dst).1 := by
  have consistent := consistent_outbound plain.consistent now src dst
  have awaits {slot port remote since} (within : WithinIdleOf box.config since now)
      (waits : box.Awaits slot port remote since) := awaits_outbound plain.consistent waits within src dst
  rw [outbound_of_unleased (plain.unpinned now src)] at consistent awaits ⊢
  rcases outboundMapped_cases box now ⟨src, mapKey box.config.mapping dst⟩ dst with
    ⟨mapping, after, _, _, wrote, sent⟩ | ⟨port, after, _, wrote, sent⟩ | ⟨after, swept, sent⟩
  · rw [sent] at consistent awaits ⊢
    exact ⟨wrote.config, wrote.externalIp, plain.later wrote.config consistent (fun _ _ => wrote.lease), awaits⟩
  · rw [sent] at consistent awaits ⊢
    exact ⟨wrote.config, wrote.externalIp, plain.later wrote.config consistent (fun _ _ => wrote.lease), awaits⟩
  · rw [sent] at consistent awaits ⊢
    exact ⟨swept.config, swept.externalIp, plain.later swept.config consistent swept.leases, awaits⟩

theorem onward_inbound (plain : box.Plain) {src dst : SocketAddr} {result : NatBox R × Except NatDropReason SocketAddr}
    (passed : box.inbound now src dst = some result) : Onward now box result.1 := by
  obtain ⟨_, done, consistent⟩ := consistent_inbound plain.consistent now src dst
  obtain rfl := Option.some.inj (done.symm.trans passed)
  rcases inbound_cases plain.consistent now src dst with ⟨map, leased, _, _⟩ | ⟨_, other, scan, scanned⟩
  · rw [plain.unleased] at leased
    cases leased
  · obtain rfl := Option.some.inj (passed.symm.trans scan)
    have swept := scanned.swept
    exact ⟨swept.config, swept.externalIp, plain.later swept.config consistent swept.leases,
      fun within waits => awaits_inbound plain.consistent waits within passed⟩

end

end NatBox

open NatBox

/-- A mapping of each box waits for what `remote` answers to a datagram that left from `src` as `external`. -/
def WayBack (since : UInt64) (remote : SocketAddr) : SocketAddr → List (NatBox R) → SocketAddr → Prop
  | src, [], external => external = src
  | src, box :: rest, external =>
    ∃ port, box.Awaits ⟨src, mapKey box.config.mapping remote⟩ port remote since ∧
      WayBack since remote ⟨box.externalIp, port⟩ rest external

/-- No later than a mapping of any of the boxes idles. -/
def WithinIdleOfAll (chain : List (NatBox R)) (since now : UInt64) : Prop :=
  ∀ box ∈ chain, WithinIdleOf box.config since now

section
variable {since now : UInt64} {remote src external : SocketAddr} {chain chain' : List (NatBox R)}

theorem onward_chain_refl (plain : ∀ box ∈ chain, box.Plain) (now : UInt64) : List.Forall₂ (Onward now) chain chain :=
  List.forall₂_same.mpr (fun box member => Onward.refl (plain box member) now)

theorem plain_onward (onward : List.Forall₂ (Onward now) chain chain') : ∀ box ∈ chain', box.Plain := by
  induction onward with
  | nil => exact fun _ member => absurd member List.not_mem_nil
  | cons here _ ih => exact List.forall_mem_cons.mpr ⟨here.plain, ih⟩

theorem withinIdleOfAll_onward (onward : List.Forall₂ (Onward now) chain chain') {since later : UInt64} :
    WithinIdleOfAll chain' since later ↔ WithinIdleOfAll chain since later := by
  unfold WithinIdleOfAll
  induction onward with
  | nil => exact Iff.rfl
  | cons here _ ih => rw [List.forall_mem_cons, List.forall_mem_cons, here.config, ih]

theorem WayBack.onward (back : WayBack since remote src chain external)
    (onward : List.Forall₂ (Onward now) chain chain') (within : WithinIdleOfAll chain since now) :
    WayBack since remote src chain' external := by
  induction onward generalizing src with
  | nil => exact back
  | cons here _ ih =>
    obtain ⟨port, waits, rest⟩ := back
    obtain ⟨first, others⟩ := List.forall_mem_cons.mp within
    refine ⟨port, ?_, ?_⟩
    · rw [here.config]
      exact here.awaits first waits
    · rw [here.externalIp]
      exact ih rest others

/-- What comes in moves the boxes onward. -/
theorem onward_enter (toHost : HostId) (remote : SocketAddr) (plain : ∀ box ∈ chain, box.Plain) (level : Nat)
    (dst : SocketAddr) : List.Forall₂ (Onward now) chain (SimWorld.enter now toHost remote level chain dst).1 := by
  induction chain generalizing level with
  | nil => exact .nil
  | cons box rest ih =>
    obtain ⟨first, others⟩ := List.forall_mem_cons.mp plain
    have outer := ih others (level + 1)
    unfold SimWorld.enter
    generalize SimWorld.enter now toHost remote (level + 1) rest dst = entered at outer
    obtain ⟨rest', events, admitted⟩ := entered
    cases admitted with
    | none => exact .cons (.refl first now) outer
    | some inner =>
      dsimp only
      split
      · exact .cons (.refl first now) outer
      · split
        next passed => exact .cons (onward_inbound first passed) outer
        next passed => exact .cons (onward_inbound first passed) outer
        next => exact .cons (.refl first now) outer

/-- An answer that comes while no mapping idles is let in by every box, from the outermost to the innermost. -/
theorem enter_of_wayBack (toHost : HostId) (plain : ∀ box ∈ chain, box.Plain)
    (back : WayBack since remote src chain external) (within : WithinIdleOfAll chain since now) (level : Nat) :
    ∃ final, SimWorld.enter now toHost remote level chain external = (final, [], some src) := by
  induction chain generalizing src level with
  | nil =>
    obtain rfl := back
    exact ⟨[], rfl⟩
  | cons box rest ih =>
    obtain ⟨port, waits, back⟩ := back
    obtain ⟨first, others⟩ := List.forall_mem_cons.mp plain
    obtain ⟨soon, soonOthers⟩ := List.forall_mem_cons.mp within
    obtain ⟨final, through⟩ := ih others back soonOthers (level + 1)
    have here : box.Awaits ⟨src, mapKey box.config.mapping remote⟩ (⟨box.externalIp, port⟩ : SocketAddr).port remote
      since := waits
    obtain ⟨result, passed⟩ := inbound_awaited first.consistent here soon
    refine ⟨result :: final, ?_⟩
    rw [SimWorld.enter, through]
    dsimp only
    rw [if_neg (not_not_intro rfl), passed]

variable [SimRng R]

/-- What goes out moves the boxes onward, and what gets out through all of them has its way back. -/
theorem traverse_spec (now : UInt64) (sender : HostId) (dest : SocketAddr) (plain : ∀ box ∈ chain, box.Plain)
    (level : Nat) (src : SocketAddr) :
    List.Forall₂ (Onward now) chain (SimWorld.traverse now sender dest level src chain).1 ∧
      ∀ external, (SimWorld.traverse now sender dest level src chain).2.2 = .ok external →
        WayBack now dest src (SimWorld.traverse now sender dest level src chain).1 external := by
  induction chain generalizing src level with
  | nil => exact ⟨.nil, fun external sent => (Except.ok.inj sent).symm⟩
  | cons box rest ih =>
    obtain ⟨first, others⟩ := List.forall_mem_cons.mp plain
    have onward := onward_outbound first now src dest
    unfold SimWorld.traverse
    cases passed : box.outbound now src dest with
    | mk after outcome =>
      rw [passed] at onward
      cases outcome with
      | error reason => exact ⟨.cons onward (onward_chain_refl others now), fun external sent => (by cases sent)⟩
      | ok pass =>
        obtain ⟨chainOnward, sentBack⟩ := ih others (level + 1) pass.external
        obtain ⟨waits, from_⟩ := awaits_sent (first.unpinned now src) passed
        refine ⟨.cons onward chainOnward, fun external sent => ⟨pass.external.port, ?_, ?_⟩⟩
        · rw [onward.config]
          exact waits
        · rw [onward.externalIp, ← from_]
          exact sentBack external sent

end

/-! ### Over IPv6 -/

/-- No NAT hands out an IPv6 address. -/
def AllV4 (chain : List (NatBox R)) : Prop := ∀ box ∈ chain, SocketAddr.isIpv6 ⟨box.externalIp, 0⟩ = false

section
variable {since now : UInt64} {remote src external : SocketAddr} {chain chain' : List (NatBox R)}

theorem allV4_onward (onward : List.Forall₂ (Onward now) chain chain') : AllV4 chain' ↔ AllV4 chain := by
  unfold AllV4
  induction onward with
  | nil => exact Iff.rfl
  | cons here _ ih => rw [List.forall_mem_cons, List.forall_mem_cons, here.externalIp, ih]

theorem WayBack.v4 (back : WayBack since remote src chain external) (v4 : src.isIpv6 = false) (nats : AllV4 chain) :
    external.isIpv6 = false := by
  induction chain generalizing src with
  | nil =>
    obtain rfl := back
    exact v4
  | cons box rest ih =>
    obtain ⟨port, -, later⟩ := back
    obtain ⟨first, others⟩ := List.forall_mem_cons.mp nats
    exact ih later first others

end

namespace FirewallBox

def Recent (config : FirewallConfig) (since now : UInt64) : Prop :=
  since ≤ now ∧ now - since ≤ asNanos config.idleTimeout

/-- The flow was sent on at `since` or later. -/
def Open (box : FirewallBox) (flow : Flow) (since : UInt64) : Prop :=
  ∃ refreshed, box.flows[flow]? = some refreshed ∧ since ≤ refreshed

/-- What a datagram at `now` makes of the firewall. -/
structure Lasts (now : UInt64) (box box' : FirewallBox) : Prop where
  config : box'.config = box.config
  opens : ∀ {flow since}, Recent box.config since now → box.Open flow since → box'.Open flow since

section
variable {box : FirewallBox} {config : FirewallConfig} {since now : UInt64} {src dst : SocketAddr}

theorem Recent.earlier {before : UInt64} (recent : Recent config since now) (order : since ≤ before)
    (early : before ≤ now) : Recent config since before :=
  ⟨order, NatBox.sub_le_of_earlier order early recent.2⟩

/-- A flow that was sent on since has not idled. -/
theorem Recent.fresh {refreshed : UInt64} (recent : Recent config since now) (order : since ≤ refreshed) :
    saturatingSub now refreshed ≤ asNanos config.idleTimeout := by
  obtain ⟨early, close⟩ := recent
  refine UInt64.le_trans ?_ close
  unfold saturatingSub
  split
  next later =>
    rw [UInt64.le_iff_toNat_le, UInt64.toNat_sub_of_le _ _ later, UInt64.toNat_sub_of_le _ _ early]
    have := UInt64.le_iff_toNat_le.mp order
    omega
  · exact UInt64.le_iff_toNat_le.mpr (Nat.zero_le _)

theorem Lasts.refl (now : UInt64) (box : FirewallBox) : Lasts now box box := ⟨rfl, fun _ opens => opens⟩

theorem open_outbound : (box.outbound now src dst).Open ⟨src, dst⟩ now := by
  refine ⟨now, ?_, UInt64.le_refl _⟩
  rw [outbound, Entries.getElem?_insert, if_pos rfl]

theorem lasts_outbound : Lasts now box (box.outbound now src dst) := by
  refine ⟨rfl, fun {flow since} recent opens => ?_⟩
  by_cases same : (⟨src, dst⟩ : Flow) = flow
  · have here : (box.outbound now src dst).Open ⟨src, dst⟩ now := open_outbound
    obtain ⟨refreshed, found, order⟩ := here
    exact ⟨refreshed, same ▸ found, recent.1.trans order⟩
  · obtain ⟨refreshed, found, order⟩ := opens
    refine ⟨refreshed, ?_, order⟩
    rw [outbound, Entries.getElem?_insert, if_neg same, found]

theorem lasts_inboundFlow : Lasts now box (box.inboundFlow now src dst).1 := by
  unfold inboundFlow
  dsimp only
  split
  · exact .refl now box
  next idle =>
    refine ⟨rfl, fun {flow since} recent opens => ?_⟩
    obtain ⟨refreshed, found, order⟩ := opens
    refine ⟨refreshed, ?_, order⟩
    rw [Entries.getElem?_erase, if_neg (fun same => ?_), found]
    rw [same, found, Option.any_some] at idle
    exact idle (decide_eq_true (recent.fresh order))

theorem lasts_inbound : Lasts now box (box.inbound now src dst).1 := by
  unfold inbound
  split
  · exact lasts_inboundFlow
  · split
    · exact .refl now box
    · have later : Lasts now { box with pinholes := box.pinholes.erase dst.port }
          ({ box with pinholes := box.pinholes.erase dst.port }.inboundFlow now src dst).1 := lasts_inboundFlow
      exact ⟨later.config, later.opens⟩

/-- The answer to a flow that has not idled is let in. -/
theorem inbound_of_open (opens : box.Open ⟨dst, src⟩ since) (recent : Recent box.config since now) :
    (box.inbound now src dst).2 = .ok () := by
  obtain ⟨refreshed, found, order⟩ := opens
  unfold inbound
  split
  · exact inboundFlow_ok.mpr ⟨refreshed, found, recent.fresh order⟩
  · split
    · rfl
    · exact inboundFlow_ok.mpr ⟨refreshed, found, recent.fresh order⟩

end

end FirewallBox

end Lightbringer.Overlay.Sim
