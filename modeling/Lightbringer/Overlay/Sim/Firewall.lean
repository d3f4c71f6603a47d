import Lightbringer.Overlay.Sim.NatBox
import Mathlib.Data.List.Induction

/-!
# The v6 firewall of the simulator

`FirewallBox` of `overlay/sim/nat.rs`: no address is rewritten. A flow is open to the exact remote it was sent to while
it has not idled, a pinhole opens a port to everyone for a lease. What has run out is dropped only when a datagram finds
it so; what the firewall lets in depends on the calls alone.
-/

namespace Lightbringer.Overlay.Sim
open Std

structure FirewallConfig where
  idleTimeout : Nat

/-- `FirewallConfig::default`. -/
def FirewallConfig.standard : FirewallConfig := ⟨fromSecs 30⟩

structure FirewallStats where
  filteredDrops : Nat
  pinholesInstalled : Nat

/-- A local socket and the remote it talks to. -/
structure Flow where
  localSocket : SocketAddr
  remote : SocketAddr
  deriving DecidableEq

instance : Ord Flow := ⟨compareLex (compareOn Flow.localSocket) (compareOn Flow.remote)⟩

instance : TransOrd Flow := inferInstanceAs (TransCmp (compareLex (compareOn Flow.localSocket) (compareOn Flow.remote)))

instance : LawfulEqOrd Flow where
  compare_self := ReflOrd.compare_self
  eq_of_compare := by
    rintro ⟨localSocket, remote⟩ ⟨localSocket', remote'⟩ h
    obtain ⟨sameLocal, sameRemote⟩ := compareLex_eq_eq.mp h
    have sameLocal : localSocket = localSocket' := LawfulEqOrd.compare_eq_iff_eq.mp sameLocal
    have sameRemote : remote = remote' := LawfulEqOrd.compare_eq_iff_eq.mp sameRemote
    rw [sameLocal, sameRemote]

/-- `flows` holds the last send of each flow, `pinholes` the expiry of each lease. -/
structure FirewallBox where
  config : FirewallConfig
  flows : TreeMap Flow UInt64
  pinholes : TreeMap UInt16 UInt64
  stats : FirewallStats

namespace FirewallBox

def new (config : FirewallConfig) : FirewallBox := ⟨config, ∅, ∅, ⟨0, 0⟩⟩

variable (box : FirewallBox)

def outbound (now : UInt64) (src dst : SocketAddr) : FirewallBox :=
  { box with flows := box.flows.insert ⟨src, dst⟩ now }

/-- `inbound` past the pinholes. -/
def inboundFlow (now : UInt64) (src dst : SocketAddr) : FirewallBox × Except NatDropReason Unit :=
  let idle := asNanos box.config.idleTimeout
  if (box.flows[(⟨dst, src⟩ : Flow)]?).any (fun refreshed => saturatingSub now refreshed ≤ idle) then
    (box, .ok ())
  else
    ({ box with
        flows := box.flows.erase ⟨dst, src⟩
        stats := { box.stats with filteredDrops := box.stats.filteredDrops + 1 } },
      .error .filtered)

def inbound (now : UInt64) (src dst : SocketAddr) : FirewallBox × Except NatDropReason Unit :=
  match box.pinholes[dst.port]? with
  | none => box.inboundFlow now src dst
  | some expires =>
    if now ≤ expires then (box, .ok ())
    else { box with pinholes := box.pinholes.erase dst.port }.inboundFlow now src dst

def installPinhole (now : UInt64) (port : UInt16) (lifetime : Nat) : FirewallBox :=
  { box with
    stats := { box.stats with pinholesInstalled := box.stats.pinholesInstalled + 1 }
    pinholes := box.pinholes.insert port (now + asNanos lifetime) }

def pinholeLive (now : UInt64) (port : UInt16) : Bool := (box.pinholes[port]?).any (fun expires => now ≤ expires)

/-! ### What the calls say -/

inductive Call where
  | outbound (now : UInt64) (src dst : SocketAddr)
  | inbound (now : UInt64) (src dst : SocketAddr)
  | installPinhole (now : UInt64) (port : UInt16) (lifetime : Nat)

def Call.time : Call → UInt64
  | .outbound now _ _ | .inbound now _ _ | .installPinhole now _ _ => now

def call (box : FirewallBox) : Call → FirewallBox
  | .outbound now src dst => box.outbound now src dst
  | .inbound now src dst => (box.inbound now src dst).1
  | .installPinhole now port lifetime => box.installPinhole now port lifetime

/-- When a flow was last sent on. -/
def lastSent (flow : Flow) (calls : List Call) : Option UInt64 :=
  calls.foldl (fun last c => match c with
    | .outbound now src dst => if (⟨src, dst⟩ : Flow) = flow then some now else last
    | _ => last) none

/-- When the last lease of a pinhole runs out. -/
def lastLease (port : UInt16) (calls : List Call) : Option UInt64 :=
  calls.foldl (fun last c => match c with
    | .installPinhole now port' lifetime => if port' = port then some (now + asNanos lifetime) else last
    | _ => last) none

/-- The clock does not go back. -/
def InTime (calls : List Call) (now : UInt64) : Prop :=
  (calls.map Call.time).Pairwise (· ≤ ·) ∧ ∀ c ∈ calls, c.time ≤ now

/-- What the tables have forgotten ran out before `now`. -/
structure Remembers (config : FirewallConfig) (calls : List Call) (now : UInt64) (box : FirewallBox) : Prop where
  configured : box.config = config
  flows : ∀ flow : Flow, box.flows[flow]? = lastSent flow calls ∨ box.flows[flow]? = none ∧
    ∀ sent ∈ lastSent flow calls, asNanos config.idleTimeout < saturatingSub now sent
  pinholes : ∀ port : UInt16, box.pinholes[port]? = lastLease port calls ∨ box.pinholes[port]? = none ∧
    ∀ expires ∈ lastLease port calls, expires < now

variable {box : FirewallBox} {config : FirewallConfig} {calls : List Call} {clock now : UInt64}

theorem saturatingSub_mono {a b c : UInt64} (order : a ≤ b) : saturatingSub a c ≤ saturatingSub b c := by
  unfold saturatingSub
  rw [UInt64.le_iff_toNat_le] at order
  split
  next low =>
    have high : c ≤ b := UInt64.le_iff_toNat_le.mpr (Nat.le_trans (UInt64.le_iff_toNat_le.mp low) order)
    rw [if_pos high, UInt64.le_iff_toNat_le, UInt64.toNat_sub_of_le _ _ low, UInt64.toNat_sub_of_le _ _ high]
    omega
  next =>
    rw [UInt64.le_iff_toNat_le]
    exact Nat.zero_le _

/-- Time goes on. -/
theorem Remembers.later (h : Remembers config calls clock box) (order : clock ≤ now) :
    Remembers config calls now box where
  configured := h.configured
  flows flow := (h.flows flow).imp id (fun ⟨gone, idle⟩ =>
    ⟨gone, fun sent last => UInt64.lt_of_lt_of_le (idle sent last) (saturatingSub_mono order)⟩)
  pinholes port := (h.pinholes port).imp id (fun ⟨gone, past⟩ =>
    ⟨gone, fun expires last => UInt64.lt_of_lt_of_le (past expires last) order⟩)

theorem remembers_outbound (h : Remembers config calls now box) (src dst : SocketAddr) :
    Remembers config (calls ++ [.outbound now src dst]) now (box.outbound now src dst) where
  configured := h.configured
  flows flow := by
    have sent : lastSent flow (calls ++ [.outbound now src dst]) =
        if (⟨src, dst⟩ : Flow) = flow then some now else lastSent flow calls := by
      rw [lastSent, List.foldl_append]
      rfl
    rw [sent, outbound, Entries.getElem?_insert]
    split
    · exact .inl rfl
    · exact h.flows flow
  pinholes port := by
    have same : lastLease port (calls ++ [.outbound now src dst]) = lastLease port calls := by
      rw [lastLease, List.foldl_append]
      rfl
    rw [same]
    exact h.pinholes port

theorem remembers_installPinhole (h : Remembers config calls now box) (port : UInt16) (lifetime : Nat) :
    Remembers config (calls ++ [.installPinhole now port lifetime]) now (box.installPinhole now port lifetime) where
  configured := h.configured
  flows flow := by
    have same : lastSent flow (calls ++ [.installPinhole now port lifetime]) = lastSent flow calls := by
      rw [lastSent, List.foldl_append]
      rfl
    rw [same]
    exact h.flows flow
  pinholes other := by
    have leased : lastLease other (calls ++ [.installPinhole now port lifetime]) =
        if port = other then some (now + asNanos lifetime) else lastLease other calls := by
      rw [lastLease, List.foldl_append]
      rfl
    rw [leased, installPinhole, Entries.getElem?_insert]
    split
    · exact .inl rfl
    · exact h.pinholes other

theorem Remembers.quiet (h : Remembers config calls now box) (src dst : SocketAddr) :
    Remembers config (calls ++ [.inbound now src dst]) now box where
  configured := h.configured
  flows flow := by
    have same : lastSent flow (calls ++ [.inbound now src dst]) = lastSent flow calls := by
      rw [lastSent, List.foldl_append]
      rfl
    rw [same]
    exact h.flows flow
  pinholes port := by
    have same : lastLease port (calls ++ [.inbound now src dst]) = lastLease port calls := by
      rw [lastLease, List.foldl_append]
      rfl
    rw [same]
    exact h.pinholes port

theorem remembers_inboundFlow (h : Remembers config calls now box) (src dst : SocketAddr) :
    Remembers config calls now (box.inboundFlow now src dst).1 := by
  unfold inboundFlow
  dsimp only
  split
  · exact h
  next idle =>
    refine ⟨h.configured, fun flow => ?_, h.pinholes⟩
    dsimp only
    rw [Entries.getElem?_erase]
    split
    next here =>
      subst here
      refine .inr ⟨rfl, fun sent last => ?_⟩
      rcases h.flows ⟨dst, src⟩ with kept | ⟨_, past⟩
      · rw [kept, last, h.configured] at idle
        simpa using idle
      · exact past sent last
    next => exact h.flows flow

theorem remembers_inbound (h : Remembers config calls now box) (src dst : SocketAddr) :
    Remembers config (calls ++ [.inbound now src dst]) now (box.inbound now src dst).1 := by
  refine Remembers.quiet ?_ src dst
  unfold inbound
  split
  · exact remembers_inboundFlow h src dst
  next expires found =>
    split
    · exact h
    next past =>
      have released : Remembers config calls now { box with pinholes := box.pinholes.erase dst.port } := by
        refine ⟨h.configured, h.flows, fun port => ?_⟩
        dsimp only
        rw [Entries.getElem?_erase]
        split
        next here =>
          subst here
          refine .inr ⟨rfl, fun expires' last => ?_⟩
          rcases h.pinholes dst.port with kept | ⟨gone, _⟩
          · rw [kept, last] at found
            rw [Option.some.inj found]
            exact UInt64.not_le.mp past
          · cases gone.symm.trans found
        next => exact h.pinholes port
      exact remembers_inboundFlow released src dst

theorem remembers_call (h : Remembers config calls clock box) (c : Call) (order : clock ≤ c.time) :
    Remembers config (calls ++ [c]) c.time (box.call c) := by
  have here := h.later order
  cases c with
  | outbound now src dst => exact remembers_outbound here src dst
  | inbound now src dst => exact remembers_inbound here src dst
  | installPinhole now port lifetime => exact remembers_installPinhole here port lifetime

theorem remembers_run (config : FirewallConfig) (calls : List Call) (inTime : InTime calls now) :
    Remembers config calls now (calls.foldl call (new config)) := by
  induction calls using List.reverseRecOn generalizing now with
  | nil => exact ⟨rfl, fun _ => .inl rfl, fun _ => .inl rfl⟩
  | append_singleton calls c ih =>
    obtain ⟨ordered, before⟩ := inTime
    rw [List.map_append, List.pairwise_append] at ordered
    have upto : InTime calls c.time :=
      ⟨ordered.1, fun earlier member => ordered.2.2 _ (List.mem_map_of_mem member) _ (List.mem_singleton.mpr rfl)⟩
    rw [List.foldl_concat]
    have last := before c (List.mem_append_right _ (List.mem_singleton.mpr rfl))
    exact (remembers_call (ih upto) c (UInt64.le_refl _)).later last

theorem inboundFlow_ok {src dst : SocketAddr} : (box.inboundFlow now src dst).2 = .ok () ↔
    ∃ sent, box.flows[(⟨dst, src⟩ : Flow)]? = some sent ∧ saturatingSub now sent ≤ asNanos box.config.idleTimeout := by
  unfold inboundFlow
  dsimp only
  split
  next open_ => simpa [Option.any_eq_true] using open_
  next shut => simpa [Option.any_eq_true] using shut

/-- While the clock does not go back, the firewall lets in exactly what comes to a port whose last lease has not run out,
or answers the last datagram of its flow within the idle timeout. -/
theorem inbound_iff (config : FirewallConfig) (calls : List Call) (now : UInt64) (inTime : InTime calls now)
    (src dst : SocketAddr) :
    ((calls.foldl call (new config)).inbound now src dst).2 = .ok () ↔
      (∃ expires ∈ lastLease dst.port calls, now ≤ expires) ∨
        ∃ sent ∈ lastSent ⟨dst, src⟩ calls, saturatingSub now sent ≤ asNanos config.idleTimeout := by
  have h := remembers_run config calls inTime
  generalize calls.foldl call (new config) = box at h
  have flow :
      (∃ sent, box.flows[(⟨dst, src⟩ : Flow)]? = some sent ∧ saturatingSub now sent ≤ asNanos config.idleTimeout) ↔
      ∃ sent ∈ lastSent ⟨dst, src⟩ calls, saturatingSub now sent ≤ asNanos config.idleTimeout := by
    rcases h.flows ⟨dst, src⟩ with kept | ⟨gone, idle⟩
    · rw [kept]
      rfl
    · rw [gone]
      constructor
      · rintro ⟨_, found, _⟩
        cases found
      · rintro ⟨sent, last, recent⟩
        exact absurd recent (UInt64.not_le.mpr (idle sent last))
  rcases h.pinholes dst.port with kept | ⟨gone, past⟩
  · unfold inbound
    rw [kept]
    cases last : lastLease dst.port calls with
    | none =>
      dsimp only
      rw [inboundFlow_ok, h.configured, flow]
      simp
    | some expires =>
      dsimp only
      split
      next live => simp [live]
      next shut =>
        rw [inboundFlow_ok]
        dsimp only
        rw [h.configured, flow]
        simp [shut]
  · have shut : ¬ ∃ expires ∈ lastLease dst.port calls, now ≤ expires := by
      rintro ⟨expires, last, live⟩
      exact absurd live (UInt64.not_le.mpr (past expires last))
    unfold inbound
    rw [gone]
    dsimp only
    rw [inboundFlow_ok, h.configured, flow]
    exact (or_iff_right shut).symm

/-- A pinhole has run out; the answer to a datagram and a stranger come after it. -/
def pinholeGone : List Call :=
  [.installPinhole 5 443 10, .outbound 20 ⟨.v6 2, 443⟩ ⟨.v6 9, 8001⟩, .inbound 30 ⟨.v6 7, 53⟩ ⟨.v6 2, 443⟩]

theorem inbound_iff_pinholeGone :
    ((pinholeGone.foldl call (new .standard)).inbound 40 ⟨.v6 9, 8001⟩ ⟨.v6 2, 443⟩).2 = .ok () ∧
      ((pinholeGone.foldl call (new .standard)).inbound 40 ⟨.v6 7, 53⟩ ⟨.v6 2, 443⟩).2 ≠ .ok () := by
  have inTime : InTime pinholeGone 40 := ⟨by decide, by decide⟩
  constructor
  · refine (inbound_iff .standard pinholeGone 40 inTime _ _).mpr (.inr ⟨20, rfl, by decide⟩)
  · intro passed
    rcases (inbound_iff .standard pinholeGone 40 inTime _ _).mp passed with ⟨expires, last, live⟩ | ⟨sent, last, _⟩
    · obtain rfl := Option.some.inj last
      exact absurd live (by decide)
    · cases last

end FirewallBox

end Lightbringer.Overlay.Sim
