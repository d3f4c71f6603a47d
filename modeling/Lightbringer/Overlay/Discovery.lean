import Lightbringer.Types
import Lightbringer.Lib.Lru
import Mathlib.Data.List.Dedup

/-!
# What peers say about our address

`overlay/discovery.rs` and the classifier of `overlay/nat.rs`. Every connected peer reports the address it sees us
at; the reports of distinct observers decide the NAT class, and with it whether there is one address to advertise.
The allocator calibration, which only hole punching reads, is in a module of its own.
-/

namespace Lightbringer.Overlay

inductive NatClass where
  | publicHost
  | endpointIndependent
  | portDependent
  | symmetric
  deriving DecidableEq

def NatClass.isEndpointIndependent : NatClass → Bool
  | .publicHost | .endpointIndependent => true
  | .portDependent | .symmetric => false

/-- `TaggedObservation`, and the `Observation` the store keeps. -/
structure Observation where
  observer : SocketAddr
  mapping : SocketAddr
  deriving DecidableEq

/-- Sets are lists without duplicates. -/
def classifyObservations (bindAddr : SocketAddr) (observations : List Observation) : Option NatClass :=
  if (observations.map (·.observer.ip)).dedup.length < 2 then none
  else
    let group (port : UInt16) := ((observations.filter (·.observer.port = port)).map (·.mapping)).dedup
    if (observations.map (·.observer.port)).any (fun port => 1 < (group port).length) then some .symmetric
    else
      let distinctAcross := (observations.map (·.mapping)).dedup
      if 1 < distinctAcross.length then some .portDependent
      else distinctAcross.head?.map (fun mapping => if mapping = bindAddr then .publicHost else .endpointIndependent)

def maxObservers : Nat := 512

structure AddressDiscovery where
  bindAddr : SocketAddr
  observations : Lru Pubkey Observation

namespace AddressDiscovery

def new (bindAddr : SocketAddr) : AddressDiscovery := ⟨bindAddr, Lru.new maxObservers⟩

variable (d : AddressDiscovery)

def record (observer : Pubkey) (observerAddr observed : SocketAddr) : AddressDiscovery :=
  { d with observations := d.observations.push observer ⟨observerAddr, observed⟩ }

def tagged : List Observation := d.observations.entries.map (·.2)

def classify : Option NatClass := classifyObservations d.bindAddr d.tagged

/-- The most reported address, the smaller one of two reported equally often. -/
def generationIp : Option IpAddr :=
  let ips := d.tagged.map (·.mapping.ip)
  let better (ip best : IpAddr) : Bool :=
    ips.count best < ips.count ip || ips.count best = ips.count ip && ip.key < best.key
  ips.foldl (fun best ip => some (best.elim ip (fun best => if better ip best then ip else best))) none

def externalIp : Option IpAddr := d.generationIp

def consistentMapping : Option SocketAddr :=
  match d.classify with
  | some natClass => if natClass.isEndpointIndependent then d.tagged.head?.map (·.mapping) else none
  | none => none

variable {d}

/-- The candidate is what every observer reports, whichever comes first. -/
theorem consistentMapping_agrees {mapping : SocketAddr} (h : d.consistentMapping = some mapping) :
    ∀ observation ∈ d.tagged, observation.mapping = mapping := by
  unfold consistentMapping classify classifyObservations at h
  split at h
  next natClass classified =>
    split at h
    next independent =>
      obtain ⟨first, front, rfl⟩ := Option.map_eq_some_iff.mp h
      have single : (d.tagged.map (·.mapping)).dedup.length ≤ 1 := by
        split at classified
        · cases classified
        dsimp only at classified
        split at classified
        · cases classified
          cases independent
        split at classified
        · cases classified
          cases independent
        · omega
      intro observation member
      have here : observation.mapping ∈ (d.tagged.map (·.mapping)).dedup :=
        List.mem_dedup.mpr (List.mem_map_of_mem member)
      have there : first.mapping ∈ (d.tagged.map (·.mapping)).dedup :=
        List.mem_dedup.mpr (List.mem_map_of_mem (List.mem_of_mem_head? front))
      cases shape : (d.tagged.map (·.mapping)).dedup with
      | nil =>
        rw [shape] at here
        cases here
      | cons only rest =>
        rw [shape] at here there single
        have alone : rest = [] := List.eq_nil_of_length_eq_zero (by simpa using single)
        rw [alone] at here there
        rw [List.mem_singleton.mp here, List.mem_singleton.mp there]
    next => cases h
  next => cases h

end AddressDiscovery

end Lightbringer.Overlay
