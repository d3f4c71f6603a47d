import Lightbringer.Types
import Lightbringer.Lib.Lru
import Lightbringer.Lib.Machine

/-!
# The gossip table

`overlay/gossip.rs`: signed adverts of where a peer can be reached, one entry for each identity. A newer sequence
number supersedes an older one until the entry expires; how long that takes is the smaller of the table's time to live
and the one the signer put into the advert.
-/

namespace Lightbringer.Overlay
open Machine

def maxAdvertAddrs : Nat := 4

def maxAdvertVia : Nat := 4

def maxGossipPeers : Nat := 4096

inductive Reachability where
  | direct (addrs : List SocketAddr)
  | coordinated (observed : List (UInt16 × SocketAddr)) (via : List Pubkey)
  deriving DecidableEq

inductive RepairEndpoint where
  | udp (addr : SocketAddr)
  | inConnection
  deriving DecidableEq

structure PeerAdvert where
  pubkey : Pubkey
  advertSeq : UInt64
  ttlMs : UInt32
  reachability : Reachability
  repair : RepairEndpoint
  deriving DecidableEq

def PeerAdvert.directAddrs (advert : PeerAdvert) : List SocketAddr :=
  match advert.reachability with
  | .direct addrs => addrs
  | .coordinated .. => []

inductive AdvertOutcome where
  | accepted
  | refreshed
  | stale
  deriving DecidableEq

structure PeerEntry where
  advert : PeerAdvert
  observedAt : Instant
  deriving DecidableEq

structure LightbringerGossip where
  peers : Lru Pubkey PeerEntry
  ttl : Nat

namespace LightbringerGossip

def new (ttl : Nat) : LightbringerGossip := ⟨Lru.new maxGossipPeers, ttl⟩

variable (g : LightbringerGossip)

/-- The table's own limit and the signer's, whichever is shorter. -/
def lifetime (ttl : Nat) (advert : PeerAdvert) : Nat := min ttl (fromMillis advert.ttlMs.toNat)

def expired (entry : PeerEntry) (now : Instant) : Bool := lifetime g.ttl entry.advert < now - entry.observedAt

/-- The push at the end of `upsert`. -/
def observe (advert : PeerAdvert) (now : Instant) : LightbringerGossip :=
  { g with peers := g.peers.push advert.pubkey ⟨advert, now⟩ }

def upsert (advert : PeerAdvert) (now : Instant) : LightbringerGossip × AdvertOutcome :=
  match g.peers.peek advert.pubkey with
  | some entry =>
    if g.expired entry now then (g.observe advert now, .accepted)
    else if advert.advertSeq < entry.advert.advertSeq then (g, .stale)
    else if advert.advertSeq = entry.advert.advertSeq then (g.observe advert now, .refreshed)
    else (g.observe advert now, .accepted)
  | none => (g.observe advert now, .accepted)

/-- A lookup counts as a use of a live entry. -/
def get (pubkey : Pubkey) (now : Instant) : LightbringerGossip × Option PeerAdvert :=
  match g.peers.peek pubkey with
  | some entry =>
    if g.expired entry now then (g, none)
    else ({ g with peers := (g.peers.get pubkey).1 }, some entry.advert)
  | none => (g, none)

/-- Peers that may be dialed, with the address to dial first. -/
def directPeers (now : Instant) : List (Pubkey × SocketAddr) :=
  (g.peers.entries.filter (fun entry => !g.expired entry.2 now)).filterMap (fun entry =>
    (entry.2.advert.directAddrs.head?).map (fun addr => (entry.1, addr)))

def stored (pubkey : Pubkey) : Option PeerAdvert := (g.peers.peek pubkey).map PeerEntry.advert

def step (g : LightbringerGossip) (arrival : PeerAdvert × Instant) : LightbringerGossip × List AdvertOutcome :=
  let (g, outcome) := g.upsert arrival.1 arrival.2
  (g, [outcome])

/-- An advert finds a live entry that it is older than, one that it repeats, or none that it does not supersede. -/
theorem upsert_cases (g : LightbringerGossip) (advert : PeerAdvert) (now : Instant) :
    (∃ entry, g.peers.peek advert.pubkey = some entry ∧ g.expired entry now = false ∧
      advert.advertSeq < entry.advert.advertSeq ∧ g.upsert advert now = (g, .stale)) ∨
    (∃ entry, g.peers.peek advert.pubkey = some entry ∧ g.expired entry now = false ∧
      advert.advertSeq = entry.advert.advertSeq ∧ g.upsert advert now = (g.observe advert now, .refreshed)) ∨
    ((∀ entry, g.peers.peek advert.pubkey = some entry → g.expired entry now = true ∨
      entry.advert.advertSeq < advert.advertSeq) ∧ g.upsert advert now = (g.observe advert now, .accepted)) := by
  unfold upsert
  cases found : g.peers.peek advert.pubkey with
  | none =>
    refine .inr (.inr ⟨?_, rfl⟩)
    intro entry there
    cases there
  | some entry =>
    dsimp only
    by_cases lapsed : g.expired entry now = true
    · rw [if_pos lapsed]
      refine .inr (.inr ⟨fun other there => ?_, rfl⟩)
      cases there
      exact .inl lapsed
    · rw [if_neg lapsed]
      have live : g.expired entry now = false := by simpa using lapsed
      by_cases older : advert.advertSeq < entry.advert.advertSeq
      · rw [if_pos older]
        exact .inl ⟨entry, rfl, live, older, rfl⟩
      · rw [if_neg older]
        by_cases same : advert.advertSeq = entry.advert.advertSeq
        · rw [if_pos same]
          exact .inr (.inl ⟨entry, rfl, live, same, rfl⟩)
        · rw [if_neg same]
          refine .inr (.inr ⟨fun other there => ?_, rfl⟩)
          cases there
          have apart : entry.advert.advertSeq.toNat ≠ advert.advertSeq.toNat :=
            fun equal => same (UInt64.toNat_inj.mp equal.symm)
          have least : ¬ advert.advertSeq.toNat < entry.advert.advertSeq.toNat := older
          exact .inr (show entry.advert.advertSeq.toNat < advert.advertSeq.toNat by omega)

variable {g : LightbringerGossip} {advert : PeerAdvert} {now : Instant}

theorem upsert_capacity (g : LightbringerGossip) (advert : PeerAdvert) (now : Instant) :
    (g.upsert advert now).1.peers.capacity = g.peers.capacity := by
  rcases upsert_cases g advert now with ⟨_, _, _, _, result⟩ | ⟨_, _, _, _, result⟩ | ⟨_, result⟩
  · rw [result]
  · rw [result]
    rfl
  · rw [result]
    rfl

theorem get_capacity (g : LightbringerGossip) (pubkey : Pubkey) (now : Instant) :
    (g.get pubkey now).1.peers.capacity = g.peers.capacity := by
  unfold get
  split
  · split
    · rfl
    · exact Lru.get_capacity g.peers pubkey
  · rfl

/-- A lookup changes what is pushed out next, and nothing of what is stored. -/
theorem stored_get (g : LightbringerGossip) (pubkey : Pubkey) (now : Instant) (other : Pubkey) :
    (g.get pubkey now).1.stored other = g.stored other := by
  unfold get
  split
  · split
    · rfl
    · exact congrArg (Option.map PeerEntry.advert) (Lru.peek_get g.peers pubkey other)
  · rfl

theorem stored_observe (room : 0 < g.peers.capacity) : (g.observe advert now).stored advert.pubkey = some advert := by
  rw [stored, observe, Lru.peek_push_self room]
  rfl

/-- An advert that the table still knows is not accepted again, and stays. -/
theorem upsert_known {entry : PeerEntry} (room : 0 < g.peers.capacity)
    (found : g.peers.peek advert.pubkey = some entry) (same : entry.advert = advert)
    (live : g.expired entry now = false) :
    (g.upsert advert now).2 ≠ .accepted ∧ (g.upsert advert now).1.stored advert.pubkey = some advert := by
  rcases upsert_cases g advert now with ⟨_, _, _, _, result⟩ | ⟨_, _, _, _, result⟩ | ⟨none, result⟩
  · rw [result, stored, found, ← same]
    exact ⟨by simp, rfl⟩
  · rw [result]
    exact ⟨by simp, stored_observe room⟩
  · rcases none entry found with lapsed | newer
    · rw [live] at lapsed
      cases lapsed
    · rw [same] at newer
      exact (UInt64.lt_irrefl _ newer).elim

theorem stored_upsert_other {pubkey : Pubkey} {known : PeerAdvert} (stored : g.stored pubkey = some known)
    (apart : pubkey ≠ advert.pubkey) (spared : g.peers.victim advert.pubkey ≠ some pubkey) :
    (g.upsert advert now).1.stored pubkey = some known := by
  obtain ⟨entry, found, rfl⟩ := Option.map_eq_some_iff.mp stored
  have kept : (g.observe advert now).stored pubkey = some entry.advert := by
    rw [LightbringerGossip.stored, observe, Lru.peek_push_kept _ found apart spared]
    rfl
  rcases upsert_cases g advert now with ⟨_, _, _, _, result⟩ | ⟨_, _, _, _, result⟩ | ⟨_, result⟩
  · rw [result]
    exact stored
  · rw [result]
    exact kept
  · rw [result]
    exact kept

end LightbringerGossip

end Lightbringer.Overlay
