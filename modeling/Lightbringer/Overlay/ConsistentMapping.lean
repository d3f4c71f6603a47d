import Lightbringer.Lib.Best
import Lightbringer.Overlay.Calibration

/-!
# What the observers agree on

Up to the capacity of the store only the last report of each observer counts, and not the order in which these came.
There is a consistent mapping exactly if at least two addresses report, and all report the same.
-/

namespace Lightbringer.Overlay
open Machine

/-! ### Order -/

section
variable {observations others : List Observation}

theorem length_dedup_perm {α : Type} [DecidableEq α] {xs ys : List α} (perm : xs.Perm ys) :
    xs.dedup.length = ys.dedup.length := perm.dedup.length_eq

theorem classifyObservations_perm (bindAddr : SocketAddr) (perm : observations.Perm others) :
    classifyObservations bindAddr observations = classifyObservations bindAddr others := by
  have groups : ∀ port : UInt16, (((observations.filter (·.observer.port = port)).map (·.mapping)).dedup).length =
      (((others.filter (·.observer.port = port)).map (·.mapping)).dedup).length :=
    fun port => length_dedup_perm ((perm.filter _).map _)
  have across := (perm.map (·.mapping)).dedup
  unfold classifyObservations
  simp only [groups, across.length_eq, length_dedup_perm (perm.map (·.observer.ip))]
  rw [(perm.map (·.observer.port)).any_eq]
  split
  · rfl
  · split
    · rfl
    · split
      · rfl
      next single =>
        -- A list of at most one element has no order.
        rw [← across.length_eq] at single
        cases shape : (observations.map (·.mapping)).dedup with
        | nil =>
          rw [shape] at across
          rw [List.nil_perm.mp across]
        | cons mapping rest =>
          rw [shape] at across single
          have alone : rest = [] := List.eq_nil_of_length_eq_zero (by simpa using single)
          rw [alone] at across ⊢
          rw [List.singleton_perm.mp across]

theorem generationIp_perm {d d' : AddressDiscovery} (perm : d.tagged.Perm d'.tagged) :
    d.generationIp = d'.generationIp := by
  have ips := perm.map (·.mapping.ip)
  have counts : AddressDiscovery.moreReported (d.tagged.map (·.mapping.ip)) =
      AddressDiscovery.moreReported (d'.tagged.map (·.mapping.ip)) := by
    funext a b
    rw [AddressDiscovery.moreReported, ips.count_eq, ips.count_eq]
    rfl
  rw [AddressDiscovery.generationIp_eq_scan, AddressDiscovery.generationIp_eq_scan, counts]
  exact Best.scan_perm (AddressDiscovery.moreReported_trans _) (AddressDiscovery.moreReported_total _)
    (AddressDiscovery.moreReported_irrefl _) ips

theorem distinctPorts_perm {ports ports' : List UInt16} (perm : ports.Perm ports') :
    distinctPorts ports = distinctPorts ports' := by
  unfold distinctPorts
  have same := ((List.perm_insertionSort (fun a b : UInt16 => a ≤ b) ports.dedup).trans perm.dedup).trans
    (List.perm_insertionSort (fun a b : UInt16 => a ≤ b) ports'.dedup).symm
  exact List.Perm.eq_of_pairwise' (List.pairwise_insertionSort _ _) (List.pairwise_insertionSort _ _) same

theorem calibrateAllocator_perm (internalPort : UInt16) {ports ports' : List UInt16} (perm : ports.Perm ports') :
    calibrateAllocator internalPort ports = calibrateAllocator internalPort ports' := by
  have empty : ports ≠ [] ↔ ports' ≠ [] := by
    rw [← List.length_pos_iff, ← List.length_pos_iff, perm.length_eq]
  have each : ports.all (fun port => port = internalPort) = ports'.all (fun port => port = internalPort) := perm.all_eq
  unfold calibrateAllocator
  simp only [empty, each, distinctPorts_perm perm]

end

/-! ### Agreement -/

theorem length_dedup_le_one_iff {α : Type} [DecidableEq α] {xs : List α} :
    xs.dedup.length ≤ 1 ↔ ∀ a ∈ xs, ∀ b ∈ xs, a = b := by
  have distinct := List.nodup_dedup xs
  have known : ∀ a, a ∈ xs.dedup ↔ a ∈ xs := fun a => List.mem_dedup
  generalize xs.dedup = set at distinct known
  constructor
  · intro few a first b second
    rw [← known] at first second
    match set with
    | [] => cases first
    | [only] => rw [List.mem_singleton.mp first, List.mem_singleton.mp second]
    | _ :: _ :: rest => simp at few
  · intro same
    match set with
    | [] => exact Nat.zero_le _
    | [_] => exact Nat.le_refl _
    | a :: b :: rest =>
      have apart := (List.nodup_cons.mp distinct).1
      rw [same a ((known a).mp (by simp)) b ((known b).mp (by simp))] at apart
      exact (apart (List.mem_cons_self ..)).elim

/-- Two addresses report. -/
def TwoObserverIps (observations : List Observation) : Prop :=
  ∃ a ∈ observations, ∃ b ∈ observations, a.observer.ip ≠ b.observer.ip

theorem lt_two_iff (observations : List Observation) :
    (observations.map (·.observer.ip)).dedup.length < 2 ↔ ¬ TwoObserverIps observations := by
  rw [Nat.lt_succ_iff, length_dedup_le_one_iff, TwoObserverIps]
  simp only [List.forall_mem_map]
  push Not
  rfl

/-- With one mapping everywhere the groups say nothing. -/
theorem classifyObservations_of_agree (bindAddr : SocketAddr) {observations : List Observation} {mapping : SocketAddr}
    (two : TwoObserverIps observations) (agree : ∀ observation ∈ observations, observation.mapping = mapping) :
    classifyObservations bindAddr observations =
      some (if mapping = bindAddr then .publicHost else .endpointIndependent) := by
  have one : ∀ part : List Observation, (∀ observation ∈ part, observation ∈ observations) →
      ((part.map (·.mapping)).dedup).length ≤ 1 := by
    intro part within
    rw [length_dedup_le_one_iff]
    simp only [List.forall_mem_map]
    intro a first b second
    rw [agree a (within a first), agree b (within b second)]
  have across := one observations (fun _ member => member)
  have many : ¬ (observations.map (·.observer.ip)).dedup.length < 2 := fun few => (lt_two_iff observations).mp few two
  obtain ⟨first, member, _⟩ := two
  have shown : mapping ∈ (observations.map (·.mapping)).dedup :=
    List.mem_dedup.mpr (List.mem_map.mpr ⟨first, member, agree first member⟩)
  unfold classifyObservations
  rw [if_neg many]
  dsimp only
  rw [if_neg, if_neg (Nat.not_lt.mpr across)]
  · cases shape : (observations.map (·.mapping)).dedup with
    | nil =>
      rw [shape] at shown
      cases shown
    | cons only rest =>
      rw [shape] at across shown
      have alone : rest = [] := List.eq_nil_of_length_eq_zero (by simpa using across)
      rw [alone, List.mem_singleton] at shown
      rw [shown]
      rfl
  · rw [List.any_eq_true]
    rintro ⟨port, _, split⟩
    exact Nat.not_lt.mpr (one _ (fun _ member => List.mem_of_mem_filter member)) (of_decide_eq_true split)

section
variable {bindAddr : SocketAddr} {observations : List Observation}

theorem classifyObservations_symmetric (symmetric : classifyObservations bindAddr observations = some .symmetric) :
    ∃ a ∈ observations, ∃ b ∈ observations, a.observer.port = b.observer.port ∧ a.mapping ≠ b.mapping := by
  unfold classifyObservations at symmetric
  split at symmetric
  · cases symmetric
  · dsimp only at symmetric
    split at symmetric
    next differ =>
      obtain ⟨port, _, several⟩ := List.any_eq_true.mp differ
      have apart := mt length_dedup_le_one_iff.mpr (Nat.not_le.mpr (of_decide_eq_true several))
      push Not at apart
      obtain ⟨_, first, _, second, apart⟩ := apart
      obtain ⟨a, there, rfl⟩ := List.mem_map.mp first
      obtain ⟨b, there', rfl⟩ := List.mem_map.mp second
      obtain ⟨member, here⟩ := List.mem_filter.mp there
      obtain ⟨member', here'⟩ := List.mem_filter.mp there'
      exact ⟨a, member, b, member', (of_decide_eq_true here).trans (of_decide_eq_true here').symm, apart⟩
    · split at symmetric
      · cases symmetric
      · obtain ⟨_, _, chosen⟩ := Option.map_eq_some_iff.mp symmetric
        split at chosen <;> cases chosen

theorem classifyObservations_of_same (same : ∀ a ∈ observations, ∀ b ∈ observations, a.mapping = b.mapping)
    {natClass : NatClass} (classified : classifyObservations bindAddr observations = some natClass) :
    natClass = .publicHost ∨ natClass = .endpointIndependent := by
  by_cases two : TwoObserverIps observations
  · obtain ⟨first, member, rest⟩ := two
    rw [classifyObservations_of_agree bindAddr ⟨first, member, rest⟩ (fun other known => same other known first member)]
      at classified
    rw [← Option.some.inj classified]
    split
    · exact .inl rfl
    · exact .inr rfl
  · unfold classifyObservations at classified
    rw [if_pos ((lt_two_iff observations).mpr two)] at classified
    cases classified

end

theorem consistentMapping_eq_some_iff (d : AddressDiscovery) (mapping : SocketAddr) :
    d.consistentMapping = some mapping ↔
      TwoObserverIps d.tagged ∧ ∀ observation ∈ d.tagged, observation.mapping = mapping := by
  constructor
  · intro found
    refine ⟨?_, AddressDiscovery.consistentMapping_agrees found⟩
    by_contra alone
    have unclassified : d.classify = none := if_pos ((lt_two_iff d.tagged).mpr alone)
    rw [AddressDiscovery.consistentMapping, unclassified] at found
    cases found
  · rintro ⟨two, agree⟩
    have classified : d.classify = some (if mapping = d.bindAddr then .publicHost else .endpointIndependent) :=
      classifyObservations_of_agree d.bindAddr two agree
    obtain ⟨first, member, _⟩ := two
    rw [AddressDiscovery.consistentMapping, classified]
    dsimp only
    rw [if_pos (by split <;> rfl)]
    cases front : d.tagged with
    | nil =>
      rw [front] at member
      cases member
    | cons head rest => rw [List.head?_cons, Option.map_some, agree head (by rw [front]; exact List.mem_cons_self ..)]

/-! ### The last report of each observer -/

structure Report where
  observer : Pubkey
  observation : Observation
  deriving DecidableEq

def Report.call (report : Report) : CalibratedDiscovery.Call :=
  .record report.observer report.observation.observer report.observation.mapping

/-- A store to which nothing but these reports came. -/
def reported (bindAddr : SocketAddr) (reports : List Report) : CalibratedDiscovery :=
  CalibratedDiscovery.after bindAddr (reports.map Report.call)

def latest (reports : List Report) (observer : Pubkey) : Option Observation :=
  (reports.reverse.find? (fun report => report.observer = observer)).map (·.observation)

/-- There are no more observers than the store has room for. -/
def Fits (reports : List Report) : Prop := (reports.map (·.observer)).dedup.length ≤ maxObservers

section
variable {bindAddr : SocketAddr} {reports reports' : List Report}

theorem reported_eq (bindAddr : SocketAddr) (reports : List Report) :
    reported bindAddr reports =
      ⟨⟨bindAddr, (Lru.new maxObservers).pushAll (reports.map (fun report => (report.observer, report.observation)))⟩,
        none⟩ := by
  induction reports using List.reverseRecOn with
  | nil => rfl
  | append_singleton reports report ih =>
    have step : reported bindAddr (reports ++ [report]) = ((reported bindAddr reports).step report.call).1 := by
      rw [reported, CalibratedDiscovery.after, List.map_append, List.map_singleton, run_concat]
      rfl
    rw [step, ih, List.map_append, Lru.pushAll_append]
    rfl

theorem peek_reported (bindAddr : SocketAddr) (fits : Fits reports) (observer : Pubkey) :
    (reported bindAddr reports).discovery.observations.peek observer = latest reports observer := by
  rw [reported_eq]
  dsimp only
  rw [Lru.peek_pushAll_within (m := Lru.new maxObservers) fits (fun k member => by cases member) (fun item member => ?_)]
  · have none : (Lru.new maxObservers : Lru Pubkey Observation).peek observer = none := rfl
    rw [none, Option.or_none, latest, ← List.map_reverse, List.find?_map, Option.map_map]
    rfl
  · obtain ⟨report, there, rfl⟩ := List.mem_map.mp member
    exact List.mem_dedup.mpr (List.mem_map_of_mem there)

theorem mem_tagged_reported (fits : Fits reports) {observation : Observation} :
    observation ∈ (reported bindAddr reports).discovery.tagged ↔ ∃ observer, latest reports observer = some observation := by
  simp only [← peek_reported bindAddr fits, Lru.peek_eq_some_iff]
  simp [AddressDiscovery.tagged]

/-- The last reports come from two addresses or more and agree on a mapping. -/
structure Agreed (reports : List Report) (mapping : SocketAddr) : Prop where
  two : ∃ a b observationA observationB, latest reports a = some observationA ∧ latest reports b = some observationB ∧
    observationA.observer.ip ≠ observationB.observer.ip
  equal : ∀ observer observation, latest reports observer = some observation → observation.mapping = mapping

/-- Two stores that nobody can tell apart by what they say about the address. -/
structure SameAnswers (d d' : CalibratedDiscovery) : Prop where
  classify : d.discovery.classify = d'.discovery.classify
  consistentMapping : d.discovery.consistentMapping = d'.discovery.consistentMapping
  externalIp : d.discovery.externalIp = d'.discovery.externalIp
  calibrate : d.calibrate.2 = d'.calibrate.2

theorem agreed_iff (fits : Fits reports) (mapping : SocketAddr) :
    (reported bindAddr reports).discovery.consistentMapping = some mapping ↔ Agreed reports mapping := by
  rw [consistentMapping_eq_some_iff]
  simp only [TwoObserverIps, mem_tagged_reported fits]
  constructor
  · rintro ⟨⟨a, ⟨observerA, foundA⟩, b, ⟨observerB, foundB⟩, apart⟩, agree⟩
    exact ⟨⟨observerA, observerB, a, b, foundA, foundB, apart⟩, fun observer observation found =>
      agree observation ⟨observer, found⟩⟩
  · rintro ⟨⟨observerA, observerB, a, b, foundA, foundB, apart⟩, equal⟩
    exact ⟨⟨a, ⟨observerA, foundA⟩, b, ⟨observerB, foundB⟩, apart⟩, fun observation ⟨observer, found⟩ =>
      equal observer observation found⟩

theorem tagged_perm (fits : Fits reports) (fits' : Fits reports')
    (same : ∀ observer, latest reports observer = latest reports' observer) :
    (reported bindAddr reports).discovery.tagged.Perm (reported bindAddr reports').discovery.tagged := by
  have held : ∀ observer, (reported bindAddr reports).discovery.observations.peek observer =
      (reported bindAddr reports').discovery.observations.peek observer := fun observer => by
    rw [peek_reported bindAddr fits, peek_reported bindAddr fits', same]
  exact (Lru.entries_perm held).map (·.2)

theorem sameAnswers (fits : Fits reports) (fits' : Fits reports')
    (same : ∀ observer, latest reports observer = latest reports' observer) :
    SameAnswers (reported bindAddr reports) (reported bindAddr reports') := by
  have perm : (reported bindAddr reports).discovery.tagged.Perm (reported bindAddr reports').discovery.tagged :=
    tagged_perm fits fits' same
  have bound : (reported bindAddr reports).discovery.bindAddr = (reported bindAddr reports').discovery.bindAddr := by
    rw [reported_eq, reported_eq]
  have ip := generationIp_perm perm
  refine ⟨?_, ?_, ip, ?_⟩
  · rw [AddressDiscovery.classify, bound]
    exact classifyObservations_perm _ perm
  · refine Option.ext (fun mapping => ?_)
    rw [agreed_iff fits, agreed_iff fits']
    constructor
    · rintro ⟨two, equal⟩
      simp only [same] at two equal
      exact ⟨two, equal⟩
    · rintro ⟨two, equal⟩
      simp only [← same] at two equal
      exact ⟨two, equal⟩
  · have fresh : (reported bindAddr reports).calibration = none ∧ (reported bindAddr reports').calibration = none := by
      rw [reported_eq, reported_eq]
      exact ⟨rfl, rfl⟩
    have profiles : ∀ generation, (reported bindAddr reports).discovery.profile generation =
        (reported bindAddr reports').discovery.profile generation := by
      intro generation
      rw [AddressDiscovery.profile, bound]
      exact calibrateAllocator_perm _ ((perm.filter _).map _)
    unfold CalibratedDiscovery.calibrate
    rw [ip, fresh.1, fresh.2]
    cases (reported bindAddr reports').discovery.generationIp with
    | none => rfl
    | some generation => exact profiles generation

end

/-- There is a consistent mapping exactly if the last reports agree on it, and no answer depends on their order. -/
theorem answers_of_latest_reports (bindAddr : SocketAddr) (reports : List Report) (fits : Fits reports) :
    (∀ mapping, (reported bindAddr reports).discovery.consistentMapping = some mapping ↔ Agreed reports mapping) ∧
      ∀ reports', Fits reports' → (∀ observer, latest reports observer = latest reports' observer) →
        SameAnswers (reported bindAddr reports) (reported bindAddr reports') :=
  ⟨agreed_iff fits, fun _ fits' same => sameAnswers fits fits' same⟩

/-- Two observers report, one of them twice. -/
def movedHouse : List Report :=
  let report (observer : Pubkey) (ip : BitVec 32) (port : UInt16) : Report :=
    ⟨observer, ⟨⟨.v4 ip, 3478⟩, ⟨.v4 0xC6336407, port⟩⟩⟩
  [report 1 0xCB007109 40000, report 2 0xCB007108 40007, report 1 0xCB007109 40007]

theorem answers_of_latest_reports_movedHouse :
    Fits movedHouse ∧ Agreed movedHouse ⟨.v4 0xC6336407, 40007⟩ := by
  have fits : Fits movedHouse := by unfold Fits; decide +kernel
  have consistent : (reported ⟨.v4 0x0A000002, 51000⟩ movedHouse).discovery.consistentMapping =
      some ⟨.v4 0xC6336407, 40007⟩ := by decide +kernel
  exact ⟨fits, ((answers_of_latest_reports _ movedHouse fits).1 _).mp consistent⟩

end Lightbringer.Overlay
