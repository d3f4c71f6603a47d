import Lightbringer.Overlay.Gossip
import Mathlib.Data.List.Dedup
import Mathlib.Data.List.Perm.Subperm

/-!
# Adverts supersede one another in any order

While nothing expires and the table has room for everybody, an entry is the highest advert seen of its identity. The
table then depends on which adverts were seen, and neither on their order nor on how often.
-/

namespace Lightbringer.Overlay.LightbringerGossip
open Machine

/-- Arrivals during which no entry expires and none is pushed out: any two are closer in time than any of the adverts
lives, whichever comes first. -/
structure Undisturbed (ttl : Nat) (arrivals : List (PeerAdvert × Instant)) : Prop where
  unique : ∀ x ∈ arrivals, ∀ y ∈ arrivals, x.1.pubkey = y.1.pubkey → x.1.advertSeq = y.1.advertSeq → x.1 = y.1
  few : (arrivals.map (fun x => x.1.pubkey)).dedup.length ≤ maxGossipPeers
  brief : ∀ x ∈ arrivals, ∀ y ∈ arrivals, ∀ z ∈ arrivals, y.2 - x.2 < lifetime ttl z.1

/-- `advert` is the highest of its identity among the arrivals. -/
structure Highest (arrivals : List (PeerAdvert × Instant)) (pubkey : Pubkey) (advert : PeerAdvert) : Prop where
  seen : advert ∈ arrivals.map Prod.fst
  own : advert.pubkey = pubkey
  top : ∀ other ∈ arrivals.map Prod.fst, other.pubkey = pubkey → other.advertSeq ≤ advert.advertSeq

/-- What the table holds after the arrivals. -/
structure Reflects (ttl : Nat) (g : LightbringerGossip) (seen : List (PeerAdvert × Instant)) : Prop where
  ttl : g.ttl = ttl
  room : g.peers.capacity = maxGossipPeers
  entered : ∀ pubkey entry, g.peers.peek pubkey = some entry →
    Highest seen pubkey entry.advert ∧ ∃ x ∈ seen, x.2 = entry.observedAt
  complete : ∀ x ∈ seen, g.peers.peek x.1.pubkey ≠ none

variable {ttl : Nat} {g : LightbringerGossip} {seen : List (PeerAdvert × Instant)} {x : PeerAdvert × Instant}

theorem Highest.later {pubkey : Pubkey} {advert : PeerAdvert} (high : Highest seen pubkey advert)
    (lower : x.1.pubkey = pubkey → x.1.advertSeq ≤ advert.advertSeq) : Highest (seen ++ [x]) pubkey advert := by
  refine ⟨?_, high.own, fun other member own => ?_⟩
  · rw [List.map_append]
    exact List.mem_append_left _ high.seen
  · rw [List.map_append] at member
    rcases List.mem_append.mp member with old | new
    · exact high.top other old own
    · cases List.mem_singleton.mp new
      exact lower own

theorem highest_newest (top : ∀ other ∈ seen.map Prod.fst, other.pubkey = x.1.pubkey → other.advertSeq ≤ x.1.advertSeq) :
    Highest (seen ++ [x]) x.1.pubkey x.1 := by
  refine ⟨by simp, rfl, fun other member own => ?_⟩
  rw [List.map_append] at member
  rcases List.mem_append.mp member with old | new
  · exact top other old own
  · cases List.mem_singleton.mp new
    exact UInt64.le_refl _

/-- The identities in the table are among those seen, so there is room for one more of them. -/
theorem Reflects.others_lt (held : Reflects ttl g seen)
    (few : ((seen ++ [x]).map (fun x => x.1.pubkey)).dedup.length ≤ maxGossipPeers) :
    (g.peers.others x.1.pubkey).length < g.peers.capacity := by
  have known : x.1.pubkey :: (g.peers.others x.1.pubkey).map Prod.fst ⊆
      ((seen ++ [x]).map (fun x => x.1.pubkey)).dedup := by
    intro pubkey member
    rw [List.mem_dedup, List.map_append, List.mem_append]
    rcases List.mem_cons.mp member with rfl | other
    · exact .inr (by simp)
    · obtain ⟨⟨key, entry⟩, present, rfl⟩ := List.mem_map.mp other
      have found := Lru.peek_of_mem (List.mem_of_mem_filter present)
      obtain ⟨y, earlier, same⟩ := List.mem_map.mp (held.entered key entry found).1.seen
      refine .inl (List.mem_map.mpr ⟨y, earlier, ?_⟩)
      rw [same]
      exact (held.entered key entry found).1.own
  have distinct : (x.1.pubkey :: (g.peers.others x.1.pubkey).map Prod.fst).Nodup :=
    List.nodup_cons.mpr ⟨g.peers.notMem_others _, g.peers.others_distinct _⟩
  have length := (List.subperm_of_subset distinct known).length_le
  rw [List.length_cons, List.length_map] at length
  rw [held.room]
  omega

/-- An advert that is at least as high as all of its identity takes the entry. -/
theorem reflects_observe (held : Reflects ttl g seen)
    (few : ((seen ++ [x]).map (fun x => x.1.pubkey)).dedup.length ≤ maxGossipPeers)
    (top : ∀ other ∈ seen.map Prod.fst, other.pubkey = x.1.pubkey → other.advertSeq ≤ x.1.advertSeq) :
    Reflects ttl (g.observe x.1 x.2) (seen ++ [x]) := by
  have room := held.others_lt few
  have self : (g.observe x.1 x.2).peers.peek x.1.pubkey = some ⟨x.1, x.2⟩ :=
    Lru.peek_push_self (Nat.zero_lt_of_lt room) _ _
  have others : ∀ pubkey, pubkey ≠ x.1.pubkey → (g.observe x.1 x.2).peers.peek pubkey = g.peers.peek pubkey :=
    fun pubkey apart => Lru.peek_push_other _ room apart
  refine ⟨held.ttl, held.room, fun pubkey entry found => ?_, fun y member => ?_⟩
  · by_cases same : pubkey = x.1.pubkey
    · subst same
      rw [self] at found
      cases found
      exact ⟨highest_newest top, x, List.mem_append_right _ (List.mem_singleton_self x), rfl⟩
    · rw [others pubkey same] at found
      obtain ⟨high, y, earlier, time⟩ := held.entered pubkey entry found
      exact ⟨high.later (fun own => (same own.symm).elim), y, List.mem_append_left _ earlier, time⟩
  · by_cases same : y.1.pubkey = x.1.pubkey
    · rw [same, self]
      exact Option.some_ne_none _
    · rw [others _ same]
      rcases List.mem_append.mp member with old | new
      · exact held.complete y old
      · cases List.mem_singleton.mp new
        exact (same rfl).elim

theorem reflects_stale (held : Reflects ttl g seen) {entry : PeerEntry}
    (found : g.peers.peek x.1.pubkey = some entry) (older : x.1.advertSeq < entry.advert.advertSeq) :
    Reflects ttl g (seen ++ [x]) := by
  refine ⟨held.ttl, held.room, fun pubkey other there => ?_, fun y member => ?_⟩
  · obtain ⟨high, y, earlier, time⟩ := held.entered pubkey other there
    refine ⟨high.later (fun own => ?_), y, List.mem_append_left _ earlier, time⟩
    rw [← own, found] at there
    cases there
    exact UInt64.le_of_lt older
  · rcases List.mem_append.mp member with old | new
    · exact held.complete y old
    · cases List.mem_singleton.mp new
      rw [found]
      exact Option.some_ne_none _

theorem reflects_upsert (held : Reflects ttl g seen) (calm : Undisturbed ttl (seen ++ [x])) :
    Reflects ttl (g.upsert x.1 x.2).1 (seen ++ [x]) := by
  have newest : x ∈ seen ++ [x] := List.mem_append_right _ (List.mem_singleton_self x)
  have unexpired : ∀ entry, g.peers.peek x.1.pubkey = some entry → g.expired entry x.2 = false := by
    intro entry found
    obtain ⟨high, y, earlier, time⟩ := held.entered _ entry found
    obtain ⟨z, source, same⟩ := List.mem_map.mp high.seen
    have short := calm.brief y (List.mem_append_left _ earlier) x newest z (List.mem_append_left _ source)
    rw [expired, held.ttl, ← time, ← same]
    exact decide_eq_false (Nat.not_lt.mpr (Nat.le_of_lt short))
  rcases upsert_cases g x.1 x.2 with ⟨entry, found, _, older, result⟩ | ⟨entry, found, _, same, result⟩ | ⟨none, result⟩
  · rw [result]
    exact reflects_stale held found older
  · rw [result]
    refine reflects_observe held calm.few (fun other member own => ?_)
    rw [same]
    exact (held.entered _ entry found).1.top other member own
  · rw [result]
    refine reflects_observe held calm.few (fun other member own => ?_)
    obtain ⟨y, earlier, rfl⟩ := List.mem_map.mp member
    obtain ⟨entry, found⟩ := Option.ne_none_iff_exists'.mp (held.complete y earlier)
    rw [own] at found
    have below := (held.entered _ entry found).1.top y.1 member own
    rcases none entry found with lapsed | lower
    · rw [unexpired entry found] at lapsed
      cases lapsed
    · exact UInt64.le_trans below (UInt64.le_of_lt lower)

theorem Undisturbed.left {rest : List (PeerAdvert × Instant)} (calm : Undisturbed ttl (seen ++ rest)) :
    Undisturbed ttl seen := by
  have within : ∀ {y}, y ∈ seen → y ∈ seen ++ rest := fun member => List.mem_append_left _ member
  refine ⟨fun y first z second => calm.unique y (within first) z (within second), ?_,
    fun y first z second w third => calm.brief y (within first) z (within second) w (within third)⟩
  have fewer : (seen.map (fun x => x.1.pubkey)).dedup ⊆ ((seen ++ rest).map (fun x => x.1.pubkey)).dedup := by
    intro pubkey member
    rw [List.mem_dedup] at member ⊢
    rw [List.map_append]
    exact List.mem_append_left _ member
  exact Nat.le_trans (List.subperm_of_subset (List.nodup_dedup _) fewer).length_le calm.few

theorem reflects_run (ttl : Nat) (arrivals : List (PeerAdvert × Instant)) (calm : Undisturbed ttl arrivals) :
    Reflects ttl (run step (new ttl) arrivals).1 arrivals := by
  induction arrivals using List.reverseRecOn with
  | nil =>
    refine ⟨rfl, rfl, fun pubkey entry found => ?_, fun x member => ?_⟩
    · simp [new, Lru.new, Lru.peek] at found
    · cases member
  | append_singleton seen x ih =>
    rw [run_concat]
    exact reflects_upsert (ih calm.left) calm

/-! ### The table after all arrivals -/

theorem stored_iff (held : Reflects ttl g seen)
    (unique : ∀ x ∈ seen, ∀ y ∈ seen, x.1.pubkey = y.1.pubkey → x.1.advertSeq = y.1.advertSeq → x.1 = y.1)
    (pubkey : Pubkey) (advert : PeerAdvert) : g.stored pubkey = some advert ↔ Highest seen pubkey advert := by
  constructor
  · intro stored
    obtain ⟨entry, found, rfl⟩ := Option.map_eq_some_iff.mp stored
    exact (held.entered pubkey entry found).1
  · intro high
    obtain ⟨x, member, rfl⟩ := List.mem_map.mp high.seen
    have own := high.own
    subst own
    obtain ⟨entry, found⟩ := Option.ne_none_iff_exists'.mp (held.complete x member)
    have other := (held.entered _ entry found).1
    obtain ⟨y, there, same⟩ := List.mem_map.mp other.seen
    have equal : x.1.advertSeq = y.1.advertSeq := by
      rw [same]
      exact UInt64.le_antisymm (other.top x.1 high.seen rfl) (high.top _ other.seen other.own)
    have one := unique x member y there (by rw [same, other.own]) equal
    rw [stored, found, one, same]
    rfl

theorem Highest.congr {other : List (PeerAdvert × Instant)} {pubkey : Pubkey} {advert : PeerAdvert}
    (same : ∀ advert, advert ∈ other.map Prod.fst ↔ advert ∈ seen.map Prod.fst) :
    Highest other pubkey advert ↔ Highest seen pubkey advert := by
  constructor
  · exact fun high => ⟨(same _).mp high.seen, high.own, fun b member => high.top b ((same b).mpr member)⟩
  · exact fun high => ⟨(same _).mpr high.seen, high.own, fun b member => high.top b ((same b).mp member)⟩

/-- The table holds the highest advert of each identity and nothing else; other arrivals of the same adverts lead to the
same; and on the way no stored sequence number goes down. -/
theorem supersession_converges (ttl : Nat) (arrivals : List (PeerAdvert × Instant)) (calm : Undisturbed ttl arrivals) :
    (∀ pubkey advert, (run step (new ttl) arrivals).1.stored pubkey = some advert ↔ Highest arrivals pubkey advert) ∧
    (∀ others, Undisturbed ttl others →
      (∀ advert, advert ∈ others.map Prod.fst ↔ advert ∈ arrivals.map Prod.fst) →
      ∀ pubkey, (run step (new ttl) others).1.stored pubkey = (run step (new ttl) arrivals).1.stored pubkey) ∧
    (∀ before after, arrivals = before ++ after → ∀ pubkey advert,
      (run step (new ttl) before).1.stored pubkey = some advert →
      ∃ later, (run step (new ttl) arrivals).1.stored pubkey = some later ∧ advert.advertSeq ≤ later.advertSeq) := by
  have final := stored_iff (reflects_run ttl arrivals calm) calm.unique
  refine ⟨final, fun others quiet same pubkey => ?_, fun before after split pubkey advert stored => ?_⟩
  · refine Option.ext (fun advert => ?_)
    rw [final, stored_iff (reflects_run ttl others quiet) quiet.unique]
    exact Highest.congr same
  · subst split
    have early := (stored_iff (reflects_run ttl before calm.left) calm.left.unique pubkey advert).mp stored
    obtain ⟨x, member, rfl⟩ := List.mem_map.mp early.seen
    have own := early.own
    subst own
    have whole := reflects_run ttl (before ++ after) calm
    obtain ⟨entry, found⟩ := Option.ne_none_iff_exists'.mp (whole.complete x (List.mem_append_left _ member))
    refine ⟨entry.advert, by rw [LightbringerGossip.stored, found]; rfl, ?_⟩
    exact (whole.entered _ entry found).1.top x.1 (List.mem_map_of_mem (List.mem_append_left _ member)) rfl

/-- Adverts of two identities, out of order and repeated. -/
def reordered : List (PeerAdvert × Instant) :=
  let advert (pubkey : Pubkey) (seq : UInt64) : PeerAdvert := ⟨pubkey, seq, 30000, .direct [], .inConnection⟩
  [(advert 1 6, fromSecs 100), (advert 2 4, fromSecs 100), (advert 1 5, fromSecs 101), (advert 2 9, fromSecs 110),
    (advert 1 6, fromSecs 110), (advert 2 4, fromSecs 111)]

theorem undisturbed_reordered : Undisturbed (fromSecs 60) reordered := by
  refine ⟨by decide +kernel, by decide +kernel, by decide +kernel⟩

theorem supersession_converges_reordered :
    Undisturbed (fromSecs 60) reordered ∧
    (∀ pubkey advert, (run step (new (fromSecs 60)) reordered).1.stored pubkey = some advert ↔
      Highest reordered pubkey advert) ∧
    (∀ others, Undisturbed (fromSecs 60) others →
      (∀ advert, advert ∈ others.map Prod.fst ↔ advert ∈ reordered.map Prod.fst) →
      ∀ pubkey, (run step (new (fromSecs 60)) others).1.stored pubkey =
        (run step (new (fromSecs 60)) reordered).1.stored pubkey) ∧
    (∀ before after, reordered = before ++ after → ∀ pubkey advert,
      (run step (new (fromSecs 60)) before).1.stored pubkey = some advert →
      ∃ later, (run step (new (fromSecs 60)) reordered).1.stored pubkey = some later ∧
        advert.advertSeq ≤ later.advertSeq) :=
  ⟨undisturbed_reordered, supersession_converges (fromSecs 60) reordered undisturbed_reordered⟩

end Lightbringer.Overlay.LightbringerGossip
