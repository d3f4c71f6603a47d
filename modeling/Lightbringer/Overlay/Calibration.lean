import Lightbringer.Lib.Best
import Lightbringer.Lib.Machine
import Lightbringer.Overlay.PunchMessages
import Mathlib.Data.List.Sort

/-!
# How a NAT allocates ports

The allocator calibration of `overlay/nat.rs` and the cache that `overlay/discovery.rs` keeps of it. A calibration is
kept for as long as every report names the address that it was made for, whatever ports come in.
-/

namespace Lightbringer.Overlay
open Machine

def minCalibrationSamples : Nat := 3

/-- A `BTreeSet` of ports, in its order. -/
def distinctPorts (ports : List UInt16) : List UInt16 := ports.dedup.insertionSort (fun a b => a ≤ b)

def calibrateAllocator (internalPort : UInt16) (externalPorts : List UInt16) : Option AllocatorProfile :=
  if externalPorts ≠ [] ∧ externalPorts.all (fun port => port = internalPort) then some .preserving
  else
    let sorted := distinctPorts externalPorts
    if sorted.length < minCalibrationSamples then none
    else
      let stride := sorted.getD 1 0 - sorted.getD 0 0
      if stride ≠ 0 ∧ (sorted.zip sorted.tail).all (fun pair => pair.2 - pair.1 = stride) then some (.sequential stride)
      else some .random

/-! ### Walks by a stride -/

/-- The ports of an ascending list without repetitions are the sorted set of any list with these ports. -/
theorem distinctPorts_eq {ports sorted : List UInt16} (ascending : sorted.Pairwise (· < ·))
    (same : ∀ port, port ∈ ports ↔ port ∈ sorted) : distinctPorts ports = sorted := by
  unfold distinctPorts
  have distinct : sorted.Nodup := ascending.imp UInt16.ne_of_lt
  have listed : ports.dedup.Perm sorted := (List.perm_ext_iff_of_nodup (List.nodup_dedup ports) distinct).mpr
    (fun port => List.mem_dedup.trans (same port))
  exact List.Perm.eq_of_pairwise' (List.pairwise_insertionSort _ _) (ascending.imp UInt16.le_of_lt)
    ((List.perm_insertionSort _ _).trans listed)

/-- The first ports of a walk by `stride` from `lo`. -/
def progression (lo stride : UInt16) (count : Nat) : List UInt16 :=
  (List.range count).map (fun i => UInt16.ofNat (lo.toNat + i * stride.toNat))

section
variable {lo stride : UInt16} {count : Nat}

theorem toNat_progression (fits : lo.toNat + (count - 1) * stride.toNat < 2 ^ 16) {i : Nat} (less : i < count) :
    (UInt16.ofNat (lo.toNat + i * stride.toNat)).toNat = lo.toNat + i * stride.toNat := by
  have below : i * stride.toNat ≤ (count - 1) * stride.toNat := Nat.mul_le_mul_right _ (by omega)
  exact UInt16.toNat_ofNat_of_lt' (Nat.lt_of_le_of_lt (Nat.add_le_add_left below _) fits)

theorem mem_progression (fits : lo.toNat + (count - 1) * stride.toNat < 2 ^ 16) {port : UInt16} :
    port ∈ progression lo stride count ↔ ∃ i < count, port.toNat = lo.toNat + i * stride.toNat := by
  unfold progression
  rw [List.mem_map]
  constructor
  · rintro ⟨i, member, rfl⟩
    exact ⟨i, List.mem_range.mp member, toNat_progression fits (List.mem_range.mp member)⟩
  · rintro ⟨i, less, same⟩
    exact ⟨i, List.mem_range.mpr less, UInt16.toNat_inj.mp ((toNat_progression fits less).trans same.symm)⟩

theorem ascending_progression (fits : lo.toNat + (count - 1) * stride.toNat < 2 ^ 16) (moves : 1 ≤ stride) :
    (progression lo stride count).Pairwise (· < ·) := by
  have positive : 1 ≤ stride.toNat := UInt16.le_iff_toNat_le.mp moves
  unfold progression
  rw [List.pairwise_map]
  refine List.pairwise_lt_range.imp_of_mem (fun {i j} first second less => ?_)
  rw [UInt16.lt_iff_toNat_lt, toNat_progression fits (List.mem_range.mp first),
    toNat_progression fits (List.mem_range.mp second)]
  exact Nat.add_lt_add_left (Nat.mul_lt_mul_of_pos_right less positive) _

theorem sub_progression (fits : lo.toNat + (count - 1) * stride.toNat < 2 ^ 16) {i : Nat} (less : i + 1 < count) :
    UInt16.ofNat (lo.toNat + (i + 1) * stride.toNat) - UInt16.ofNat (lo.toNat + i * stride.toNat) = stride := by
  have here := toNat_progression fits (Nat.lt_of_succ_lt less)
  have next := toNat_progression fits less
  have grows : i * stride.toNat + stride.toNat = (i + 1) * stride.toNat := (Nat.succ_mul ..).symm
  refine UInt16.toNat_inj.mp ?_
  rw [UInt16.toNat_sub_of_le _ _ (UInt16.le_iff_toNat_le.mpr (by omega)), here, next]
  omega

/-- A progression of three ports or more is recognised, in whatever order and however often its ports come. -/
theorem calibrateAllocator_progression (fits : lo.toNat + (count - 1) * stride.toNat < 2 ^ 16) (moves : 1 ≤ stride)
    (many : minCalibrationSamples ≤ count) (internalPort : UInt16) {ports : List UInt16}
    (same : ∀ port, port ∈ ports ↔ port ∈ progression lo stride count) :
    calibrateAllocator internalPort ports = some (.sequential stride) := by
  have positive : 1 ≤ stride.toNat := UInt16.le_iff_toNat_le.mp moves
  have three : 3 ≤ count := many
  have length : (progression lo stride count).length = count := by simp [progression]
  have place : ∀ i, (less : i < count) → (progression lo stride count).getD i 0 =
      UInt16.ofNat (lo.toNat + i * stride.toNat) := by
    intro i less
    simp [progression, less]
  have spread : ¬ (ports ≠ [] ∧ ports.all (fun port => port = internalPort) = true) := by
    rintro ⟨_, all⟩
    have constant : ∀ port ∈ ports, port = internalPort := by simpa using all
    have zeroth := toNat_progression fits (show 0 < count by omega)
    have first := toNat_progression fits (show 1 < count by omega)
    have low := constant _ ((same _).mpr ((mem_progression fits).mpr ⟨0, by omega, zeroth⟩))
    have next := constant _ ((same _).mpr ((mem_progression fits).mpr ⟨1, by omega, first⟩))
    rw [low] at zeroth
    rw [next] at first
    omega
  unfold calibrateAllocator
  rw [if_neg spread, distinctPorts_eq (ascending_progression fits moves) same]
  dsimp only
  rw [length, if_neg (Nat.not_lt.mpr many), place 0 (by omega), place 1 (by omega), sub_progression fits (by omega)]
  refine if_pos ⟨fun still => ?_, List.all_eq_true.mpr (fun pair member => decide_eq_true ?_)⟩
  · rw [still] at positive
    exact Nat.not_succ_le_zero _ positive
  · obtain ⟨i, less, rfl⟩ := List.mem_iff_getElem.mp member
    have next : i + 1 < count := by
      rw [List.length_zip, List.length_tail, length] at less
      omega
    simp only [List.getElem_zip, List.getElem_tail, progression, List.getElem_map, List.getElem_range]
    exact sub_progression fits next

end

/-! ### The calibration of a store -/

namespace AddressDiscovery

variable (d : AddressDiscovery)

def externalPorts (generation : IpAddr) : List UInt16 :=
  (d.tagged.filter (fun observation => observation.mapping.ip = generation)).map (·.mapping.port)

/-- The order in which addresses come before one another as the address of a generation. -/
def moreReported (ips : List IpAddr) (ip best : IpAddr) : Bool :=
  ips.count best < ips.count ip || ips.count best = ips.count ip && ip.key < best.key

theorem moreReported_trans (ips : List IpAddr) (a b c : IpAddr) (first : moreReported ips a b = true)
    (second : moreReported ips b c = true) : moreReported ips a c = true := by
  unfold moreReported at *
  grind

theorem moreReported_total (ips : List IpAddr) (a b : IpAddr) (apart : a ≠ b) :
    moreReported ips a b = true ∨ moreReported ips b a = true := by
  have keys : a.key ≠ b.key := fun same => apart (IpAddr.key_injective same)
  unfold moreReported
  grind

theorem moreReported_irrefl (ips : List IpAddr) (a : IpAddr) : moreReported ips a a = false := by
  unfold moreReported
  grind

theorem generationIp_eq_scan :
    d.generationIp = Best.scan (moreReported (d.tagged.map (·.mapping.ip))) (d.tagged.map (·.mapping.ip)) := rfl

/-- What a calibration would be made from the current reports. -/
def profile (generation : IpAddr) : Option AllocatorProfile :=
  calibrateAllocator d.bindAddr.port (d.externalPorts generation)

variable {d}

/-- A report of the generation's address never ends the generation: it makes up for a report of it that is dropped. -/
theorem generationIp_record (room : 0 < d.observations.capacity) (observer : Pubkey) (observerAddr : SocketAddr)
    {observed : SocketAddr} (current : d.generationIp = some observed.ip) :
    (d.record observer observerAddr observed).generationIp = some observed.ip := by
  obtain ⟨rest, pushed, older, long⟩ := Lru.push_eq_cons room observer (⟨observerAddr, observed⟩ : Observation)
  let ips := d.tagged.map (·.mapping.ip)
  let ips' := observed.ip :: rest.map (fun entry => entry.2.mapping.ip)
  have after : (d.record observer observerAddr observed).tagged.map (·.mapping.ip) = ips' := by
    rw [tagged, record, pushed, List.map_map]
    rfl
  have kept : (rest.map (fun entry => entry.2.mapping.ip)).Sublist ips := by
    have listed : ips = d.observations.entries.map (fun entry => entry.2.mapping.ip) := List.map_map ..
    rw [listed]
    exact older.map _
  have own : ips.count observed.ip ≤ ips'.count observed.ip := by
    have lost := kept.le_count observed.ip
    have size : d.tagged.length = d.observations.entries.length := List.length_map ..
    rw [List.length_map, List.length_map, size] at lost
    rw [List.count_cons_self]
    omega
  have others : ∀ ip, ip ≠ observed.ip → ips'.count ip ≤ ips.count ip := by
    intro ip apart
    rw [List.count_cons_of_ne (Ne.symm apart)]
    exact kept.count_le ip
  rw [generationIp_eq_scan] at current ⊢
  rw [after]
  cases best : Best.scan (moreReported ips') ips' with
  | none => exact absurd (Best.scan_eq_none_iff.mp best) (List.cons_ne_nil _ _)
  | some ip =>
    by_contra apart
    have apart : ip ≠ observed.ip := fun same => apart (congrArg some same)
    have fewer := others ip apart
    have inside : ip ∈ ips := List.count_pos_iff.mp (Nat.lt_of_lt_of_le (List.count_pos_iff.mpr (Best.mem_of_scan best)) fewer)
    have before := Best.best_of_scan (moreReported_trans ips) (moreReported_total ips) current inside apart
    have now := Best.best_of_scan (moreReported_trans ips') (moreReported_total ips') best (List.mem_cons_self ..)
      (Ne.symm apart)
    unfold moreReported at before now
    grind

end AddressDiscovery

/-- `AddressDiscovery` with the calibration it caches. -/
structure CalibratedDiscovery where
  discovery : AddressDiscovery
  calibration : Option (IpAddr × Option AllocatorProfile)

namespace CalibratedDiscovery

def new (bindAddr : SocketAddr) : CalibratedDiscovery := ⟨.new bindAddr, none⟩

/-- A report of another address drops the calibration. -/
def record (d : CalibratedDiscovery) (observer : Pubkey) (observerAddr observed : SocketAddr) : CalibratedDiscovery where
  discovery := d.discovery.record observer observerAddr observed
  calibration := if d.calibration.any (fun cached => observed.ip ≠ cached.1) then none else d.calibration

def calibrate (d : CalibratedDiscovery) : CalibratedDiscovery × Option AllocatorProfile :=
  match d.discovery.generationIp with
  | none => (d, none)
  | some generation =>
    match d.calibration.filter (fun cached => cached.1 = generation) with
    | some (_, profile) => (d, profile)
    | none =>
      let profile := d.discovery.profile generation
      ({ d with calibration := some (generation, profile) }, profile)

inductive Call where
  | record (observer : Pubkey) (observerAddr observed : SocketAddr)
  | calibrate
  deriving DecidableEq

/-- The address that a call reports. -/
def Call.reported : Call → Option IpAddr
  | record _ _ observed => some observed.ip
  | calibrate => none

def step (d : CalibratedDiscovery) : Call → CalibratedDiscovery × List (Option AllocatorProfile)
  | .record observer observerAddr observed => (d.record observer observerAddr observed, [])
  | .calibrate => (d.calibrate.1, [d.calibrate.2])

def after (bindAddr : SocketAddr) (calls : List Call) : CalibratedDiscovery := (run step (new bindAddr) calls).1

/-! ### Where a calibration comes from -/

/-- `calibrate` was called when the generation was this one, and every report since named its address. -/
structure CalibratedAt (bindAddr : SocketAddr) (calls before since : List Call) (generation : IpAddr) : Prop where
  split : calls = before ++ .calibrate :: since
  current : (after bindAddr before).discovery.generationIp = some generation
  same : ∀ call ∈ since, ∀ ip, call.reported = some ip → ip = generation

/-- The first such call. -/
structure DecidedAt (bindAddr : SocketAddr) (calls before since : List Call) (generation : IpAddr) : Prop
    extends CalibratedAt bindAddr calls before since generation where
  first : ∀ earlier later, CalibratedAt bindAddr calls earlier later generation → before.length ≤ earlier.length

/-- The calibration that is cached was made at the first call of its generation. -/
def Cached (bindAddr : SocketAddr) (calls : List Call) (d : CalibratedDiscovery) : Prop :=
  ∀ generation profile, d.calibration = some (generation, profile) →
    ∃ before since, DecidedAt bindAddr calls before since generation ∧
      profile = (after bindAddr before).discovery.profile generation

variable {bindAddr : SocketAddr} {calls before since : List Call} {generation : IpAddr}

theorem after_concat (bindAddr : SocketAddr) (calls : List Call) (call : Call) :
    after bindAddr (calls ++ [call]) = ((after bindAddr calls).step call).1 := by
  rw [after, run_concat]
  rfl

theorem CalibratedAt.later (made : CalibratedAt bindAddr calls before since generation) {call : Call}
    (agrees : ∀ ip, call.reported = some ip → ip = generation) :
    CalibratedAt bindAddr (calls ++ [call]) before (since ++ [call]) generation where
  split := by rw [made.split, List.append_assoc, List.cons_append]
  current := made.current
  same other member ip reports := by
    rcases List.mem_append.mp member with old | new
    · exact made.same other old ip reports
    · rw [List.mem_singleton.mp new] at reports
      exact agrees ip reports

/-- Before the last call there is the same call already, unless it is the last one. -/
theorem CalibratedAt.sooner {call : Call} (made : CalibratedAt bindAddr (calls ++ [call]) before since generation) :
    (before = calls ∧ call = .calibrate ∧ since = []) ∨
      ∃ rest, CalibratedAt bindAddr calls before rest generation ∧ ∀ ip, call.reported = some ip → ip = generation := by
  obtain ⟨split, current, same⟩ := made
  rcases List.eq_nil_or_concat since with rfl | ⟨rest, last, rfl⟩
  · obtain ⟨rfl, ends⟩ := List.append_inj' split rfl
    cases ends
    exact .inl ⟨rfl, rfl, rfl⟩
  · rw [List.concat_eq_append] at split same
    rw [← List.cons_append, ← List.append_assoc] at split
    obtain ⟨rfl, ends⟩ := List.append_inj' split rfl
    cases ends
    refine .inr ⟨rest, ⟨rfl, current, fun other member => same other (List.mem_append_left _ member)⟩, ?_⟩
    exact same call (List.mem_append_right _ (List.mem_singleton.mpr rfl))

theorem DecidedAt.later (decided : DecidedAt bindAddr calls before since generation) {call : Call}
    (agrees : ∀ ip, call.reported = some ip → ip = generation) :
    DecidedAt bindAddr (calls ++ [call]) before (since ++ [call]) generation where
  toCalibratedAt := decided.toCalibratedAt.later agrees
  first earlier later made := by
    rcases made.sooner with ⟨rfl, _, _⟩ | ⟨rest, made, _⟩
    · rw [decided.split, List.length_append]
      exact Nat.le_add_right _ _
    · exact decided.first earlier rest made

theorem capacity_after (bindAddr : SocketAddr) (calls : List Call) :
    (after bindAddr calls).discovery.observations.capacity = maxObservers := by
  induction calls using List.reverseRecOn with
  | nil => rfl
  | append_singleton calls call ih =>
    rw [after_concat]
    cases call with
    | record observer observerAddr observed => exact ih
    | calibrate =>
      dsimp only [step, calibrate]
      split
      · exact ih
      · split
        · exact ih
        · exact ih

/-- While the reports name its address, the generation stays and its calibration is cached. -/
theorem CalibratedAt.held (made : CalibratedAt bindAddr calls before since generation) :
    (after bindAddr calls).discovery.generationIp = some generation ∧
      ∃ profile, (after bindAddr calls).calibration = some (generation, profile) := by
  have calibrated : ∀ d : CalibratedDiscovery, d.discovery.generationIp = some generation →
      d.calibrate.1.discovery.generationIp = some generation ∧
        ∃ profile, d.calibrate.1.calibration = some (generation, profile) := by
    intro d current
    unfold calibrate
    rw [current]
    dsimp only
    split
    next ip profile found =>
      obtain ⟨cached, matching⟩ := Option.filter_eq_some_iff.mp found
      obtain rfl : ip = generation := of_decide_eq_true matching
      exact ⟨current, profile, cached⟩
    next => exact ⟨current, _, rfl⟩
  induction calls using List.reverseRecOn generalizing since with
  | nil =>
    have never := made.split
    simp at never
  | append_singleton calls call ih =>
    rw [after_concat]
    rcases made.sooner with ⟨rfl, rfl, _⟩ | ⟨rest, made, agrees⟩
    · exact calibrated _ made.current
    · obtain ⟨current, profile, cached⟩ := ih made
      cases call with
      | record observer observerAddr observed =>
        obtain rfl := agrees observed.ip rfl
        refine ⟨?_, profile, ?_⟩
        · refine AddressDiscovery.generationIp_record ?_ observer observerAddr current
          rw [capacity_after]
          decide
        · dsimp only [step, record]
          rw [cached]
          simp
      | calibrate => exact calibrated _ current

theorem cached_step (held : Cached bindAddr calls (after bindAddr calls)) (call : Call) :
    Cached bindAddr (calls ++ [call]) ((after bindAddr calls).step call).1 := by
  intro generation profile cached
  have kept : (after bindAddr calls).calibration = some (generation, profile) →
      (∀ ip, call.reported = some ip → ip = generation) →
      ∃ before since, DecidedAt bindAddr (calls ++ [call]) before since generation ∧
        profile = (after bindAddr before).discovery.profile generation := by
    intro cached agrees
    obtain ⟨before, since, decided, same⟩ := held generation profile cached
    exact ⟨before, since ++ [call], decided.later agrees, same⟩
  cases call with
  | record observer observerAddr observed =>
    dsimp only [step, record] at cached
    split at cached
    · cases cached
    next stays =>
      refine kept cached (fun ip reports => ?_)
      rw [cached] at stays
      cases reports
      simpa using stays
  | calibrate =>
    have silent : ∀ ip, Call.calibrate.reported = some ip → ip = generation := fun ip reports => by cases reports
    dsimp only [step, calibrate] at cached
    split at cached
    · exact kept cached silent
    next now current =>
      split at cached
      · exact kept cached silent
      next missing =>
        cases cached
        refine ⟨calls, [], ⟨⟨rfl, current, fun call member => (List.not_mem_nil member).elim⟩, fun earlier later made => ?_⟩,
          rfl⟩
        -- An earlier call would have left a calibration of this generation behind.
        rcases made.sooner with ⟨rfl, _, _⟩ | ⟨rest, made, _⟩
        · exact Nat.le_refl _
        · obtain ⟨_, profile, cached⟩ := made.held
          rw [cached] at missing
          simp at missing

theorem cached_after (bindAddr : SocketAddr) (calls : List Call) : Cached bindAddr calls (after bindAddr calls) := by
  induction calls using List.reverseRecOn with
  | nil => exact fun _ _ => nofun
  | append_singleton calls call ih =>
    rw [after_concat]
    exact cached_step ih call

/-- What is returned is what is cached then. -/
theorem calibrate_source (bindAddr : SocketAddr) (calls : List Call) {generation : IpAddr}
    (current : (after bindAddr calls).discovery.generationIp = some generation) :
    ∃ before since, DecidedAt bindAddr (calls ++ [.calibrate]) before since generation ∧
      (after bindAddr calls).calibrate.2 = (after bindAddr before).discovery.profile generation := by
  have cached : (after bindAddr (calls ++ [.calibrate])).calibration =
      some (generation, (after bindAddr calls).calibrate.2) := by
    rw [after_concat]
    dsimp only [step, calibrate]
    rw [current]
    dsimp only
    split
    next ip profile found =>
      obtain ⟨cached, matching⟩ := Option.filter_eq_some_iff.mp found
      obtain rfl : ip = generation := of_decide_eq_true matching
      exact cached
    next => rfl
  exact cached_after bindAddr (calls ++ [.calibrate]) generation _ cached

/-- The first call of `calibrate` in a generation decides, if it has a profile. -/
structure Coherent (bindAddr : SocketAddr) (calls : List Call) (result : Option AllocatorProfile) : Prop where
  unobserved : (after bindAddr calls).discovery.generationIp = none → result = none
  /-- The call that decides is this one, or an earlier one whose profile is kept. -/
  kept : ∀ generation, (after bindAddr calls).discovery.generationIp = some generation →
    ∃ before since, DecidedAt bindAddr (calls ++ [.calibrate]) before since generation ∧
      (since = [] → result = (after bindAddr calls).discovery.profile generation) ∧
      ∀ profile, (after bindAddr before).discovery.profile generation = some profile → result = some profile
  /-- No profile comes from anywhere else. -/
  made : ∀ profile, result = some profile → ∃ generation before since,
    (after bindAddr calls).discovery.generationIp = some generation ∧
      DecidedAt bindAddr (calls ++ [.calibrate]) before since generation ∧
      (after bindAddr before).discovery.profile generation = some profile

theorem calibrate_coherent (bindAddr : SocketAddr) (calls : List Call) :
    Coherent bindAddr calls (after bindAddr calls).calibrate.2 := by
  have unobserved : (after bindAddr calls).discovery.generationIp = none → (after bindAddr calls).calibrate.2 = none := by
    intro none
    rw [calibrate, none]
  refine ⟨unobserved, fun generation current => ?_, fun profile returned => ?_⟩
  · obtain ⟨before, since, decided, same⟩ := calibrate_source bindAddr calls current
    refine ⟨before, since, decided, fun empty => ?_, fun profile found => same.trans found⟩
    have split := decided.split
    rw [empty] at split
    rw [same, (List.append_inj' split rfl).1]
  · cases current : (after bindAddr calls).discovery.generationIp with
    | none =>
      rw [unobserved current] at returned
      cases returned
    | some generation =>
      obtain ⟨before, since, decided, same⟩ := calibrate_source bindAddr calls current
      exact ⟨generation, before, since, rfl, decided, same.symm.trans returned⟩

/-- Three reports of a NAT that counts up by seven, a calibration, and a report out of line. -/
def laterReport : List Call :=
  let report (observer : Pubkey) (port : UInt16) : Call :=
    .record observer ⟨.v4 0xCB007109, 3478⟩ ⟨.v4 0xC6336407, port⟩
  [report 1 40000, report 2 40007, report 3 40014, .calibrate, report 4 40100]

def bindAt : SocketAddr := ⟨.v4 0x0A000002, 51000⟩

theorem calibration_kept_after_later_report :
    (after bindAt laterReport).calibrate.2 = some (.sequential 7) ∧
      (after bindAt laterReport).discovery.profile (.v4 0xC6336407) = some .random ∧
      ¬ ∀ bindAddr calls, (after bindAddr calls).calibrate.2 =
        (after bindAddr calls).discovery.generationIp.bind (after bindAddr calls).discovery.profile := by
  have returned : (after bindAt laterReport).calibrate.2 = some (.sequential 7) := by decide +kernel
  have current : (after bindAt laterReport).discovery.generationIp = some (.v4 0xC6336407) := by decide +kernel
  have found : (after bindAt laterReport).discovery.profile (.v4 0xC6336407) = some .random := by decide +kernel
  refine ⟨returned, found, fun always => ?_⟩
  have same := always bindAt laterReport
  rw [returned, current, Option.bind_some, found] at same
  cases same

end CalibratedDiscovery

end Lightbringer.Overlay
