import Mathlib.Data.List.Basic

/-!
# Following a feed

Keys are published in ascending order. A tap queues what is published while it is open. A follower reads the tap and
hands out each key above the last one it handed out.
-/

namespace Feed

variable {κ : Type*} [LE κ] [LT κ]

/-- A follower that has handed out `out`, of which `last` is the last, and that will miss nothing from there on. -/
structure Followed (published : κ → Prop) (tap : Option (List κ)) (last : Option κ) (out : List κ) : Prop where
  ascending : out.Pairwise (· < ·)
  known : ∀ k ∈ out, published k
  newest : ∀ l, last = some l → l ∈ out
  upTo : ∀ k ∈ out, ∃ l, last = some l ∧ k ≤ l
  sorted : ∀ q, tap = some q → q.Pairwise (· < ·)
  /-- The tap is open since before any key it holds was published. -/
  queued : ∀ q, tap = some q → ∀ k ∈ q, published k ∧ ∀ j, published j → k ≤ j → j ∈ q
  ahead : ∀ l, last = some l → ∃ q, tap = some q ∧ ∀ k, published k → l < k → k ∈ q
  gapless : ∀ first ∈ out, ∀ k, published k → first ≤ k → (∃ l, last = some l ∧ k ≤ l) → k ∈ out

variable {published : κ → Prop} {tap : Option (List κ)} {last : Option κ} {out : List κ} {k : κ} {q : List κ}

theorem followed_start : Followed published (some []) none [] where
  ascending := List.Pairwise.nil
  known k member := (List.not_mem_nil member).elim
  newest l set := by cases set
  upTo k member := (List.not_mem_nil member).elim
  sorted q same := by
    cases same
    exact List.Pairwise.nil
  queued q same k member := by
    cases same
    exact (List.not_mem_nil member).elim
  ahead l set := by cases set
  gapless k member := (List.not_mem_nil member).elim

/-- As long as nothing has been handed out the tap may be closed and opened again. -/
theorem Followed.retap (held : Followed published tap none out) {fresh : Option (List κ)}
    (empty : ∀ q, fresh = some q → q = []) : Followed published fresh none out := by
  refine ⟨held.ascending, held.known, held.newest, held.upTo, fun q same => ?_, fun q same k member => ?_,
    fun l set => ?_, held.gapless⟩
  · rw [empty q same]
    exact List.Pairwise.nil
  · rw [empty q same] at member
    exact (List.not_mem_nil member).elim
  · cases set

theorem Followed.sorted_cons (held : Followed published (some (k :: q)) last out) :
    (∀ j ∈ q, k < j) ∧ q.Pairwise (· < ·) := List.pairwise_cons.mp (held.sorted _ rfl)

variable [Std.IsLinearOrder κ] [Std.LawfulOrderLT κ]

/-- Between two keys that were handed out there is no other one. -/
theorem Followed.between (held : Followed published tap last out) {a b : κ} (lower : a ∈ out) (upper : b ∈ out)
    (known : published k) (above : a < k) (below : k < b) : k ∈ out := by
  obtain ⟨l, set, bound⟩ := held.upTo b upper
  exact held.gapless a lower k known (Std.le_of_lt above) ⟨l, set, Std.le_trans (Std.le_of_lt below) bound⟩

/-- The next key is published, above all before it. -/
theorem Followed.publish (held : Followed published tap last out) (above : ∀ j, published j → j < k) :
    Followed (fun j => j = k ∨ published j) (tap.map (fun q => q ++ [k])) last out := by
  have beyond : ∀ l, last = some l → l < k := fun l set => above l (held.known l (held.newest l set))
  refine ⟨held.ascending, fun j member => .inr (held.known j member), held.newest, held.upTo, fun q same => ?_,
    fun q same j member => ?_, fun l set => ?_, fun first member j known low high => ?_⟩
  · obtain ⟨before, opened, rfl⟩ := Option.map_eq_some_iff.mp same
    refine List.pairwise_append.mpr ⟨held.sorted before opened, List.pairwise_singleton .., fun j old i new => ?_⟩
    rw [List.mem_singleton.mp new]
    exact above j (held.queued before opened j old).1
  · obtain ⟨before, opened, rfl⟩ := Option.map_eq_some_iff.mp same
    rcases List.mem_append.mp member with old | new
    · obtain ⟨known, closed⟩ := held.queued before opened j old
      refine ⟨.inr known, fun i there least => ?_⟩
      rcases there with rfl | earlier
      · exact List.mem_append_right _ (List.mem_singleton_self i)
      · exact List.mem_append_left _ (closed i earlier least)
    · cases List.mem_singleton.mp new
      refine ⟨.inl rfl, fun i there least => ?_⟩
      rcases there with rfl | earlier
      · exact List.mem_append_right _ (List.mem_singleton_self i)
      · exact (Std.not_le.mpr (above i earlier) least).elim
  · obtain ⟨before, opened, complete⟩ := held.ahead l set
    refine ⟨before ++ [k], by rw [opened]; rfl, fun j there less => ?_⟩
    rcases there with rfl | earlier
    · exact List.mem_append_right _ (List.mem_singleton_self j)
    · exact List.mem_append_left _ (complete j earlier less)
  · rcases known with rfl | earlier
    · obtain ⟨l, set, bound⟩ := high
      exact (Std.not_le.mpr (beyond l set) bound).elim
    · exact held.gapless first member j earlier low high

/-- What is left of the tap once its first key has been read. -/
theorem Followed.queued_tail (held : Followed published (some (k :: q)) last out) {i : κ} (member : i ∈ q) :
    published i ∧ ∀ j, published j → i ≤ j → j ∈ q := by
  obtain ⟨known, closed⟩ := held.queued _ rfl i (List.mem_cons_of_mem _ member)
  refine ⟨known, fun j there least => ?_⟩
  rcases List.mem_cons.mp (closed j there least) with rfl | later
  · exact (Std.not_le.mpr (held.sorted_cons.1 i member) least).elim
  · exact later

/-- A key that is not above the last one is passed over. -/
theorem Followed.skip (held : Followed published (some (k :: q)) last out) (stale : ∀ l, last = some l → k ≤ l) :
    Followed published (some q) last out := by
  refine ⟨held.ascending, held.known, held.newest, held.upTo, fun p same => ?_, fun p same i member => ?_,
    fun l set => ?_, held.gapless⟩
  · cases same
    exact held.sorted_cons.2
  · cases same
    exact held.queued_tail member
  · obtain ⟨p, same, complete⟩ := held.ahead l set
    cases same
    refine ⟨q, rfl, fun j there less => ?_⟩
    rcases List.mem_cons.mp (complete j there less) with rfl | later
    · exact (Std.not_le.mpr less (stale l set)).elim
    · exact later

theorem Followed.deliver (held : Followed published (some (k :: q)) last out) (fresh : ∀ l, last = some l → l < k) :
    Followed published (some q) (some k) (out ++ [k]) := by
  obtain ⟨known, closed⟩ := held.queued _ rfl k (List.mem_cons_self ..)
  have earlier : ∀ j ∈ out, j < k := by
    intro j old
    obtain ⟨l, set, bound⟩ := held.upTo j old
    exact Std.lt_of_le_of_lt bound (fresh l set)
  refine ⟨?_, fun j member => ?_, fun l set => ?_, fun j member => ⟨k, rfl, ?_⟩, fun p same => ?_,
    fun p same i member => ?_, fun l set => ?_, fun first member j there low high => ?_⟩
  · refine List.pairwise_append.mpr ⟨held.ascending, List.pairwise_singleton .., fun j old i new => ?_⟩
    rw [List.mem_singleton.mp new]
    exact earlier j old
  · rcases List.mem_append.mp member with old | new
    · exact held.known j old
    · rw [List.mem_singleton.mp new]
      exact known
  · cases set
    exact List.mem_append_right _ (List.mem_singleton_self k)
  · rcases List.mem_append.mp member with old | new
    · exact Std.le_of_lt (earlier j old)
    · rw [List.mem_singleton.mp new]
      exact Std.le_refl k
  · cases same
    exact held.sorted_cons.2
  · cases same
    exact held.queued_tail member
  · cases set
    refine ⟨q, rfl, fun j there less => ?_⟩
    rcases List.mem_cons.mp (closed j there (Std.le_of_lt less)) with rfl | later
    · exact (Std.not_le.mpr less (Std.le_refl j)).elim
    · exact later
  · -- A key up to the last one is an old matter; one above it is still queued, so it is `k` itself.
    obtain ⟨l, set, bound⟩ := high
    cases set
    by_cases reached : ∃ l, last = some l ∧ j ≤ l
    · refine List.mem_append_left _ ?_
      rcases List.mem_append.mp member with old | new
      · exact held.gapless first old j there low reached
      · obtain ⟨l, set, small⟩ := reached
        rw [List.mem_singleton.mp new] at low
        exact (Std.not_le.mpr (fresh l set) (Std.le_trans low small)).elim
    · refine List.mem_append_right _ (List.mem_singleton.mpr (Std.le_antisymm bound ?_))
      rcases List.mem_append.mp member with old | new
      · obtain ⟨l, set, _⟩ := held.upTo first old
        have above : l < j := Std.not_le.mp (fun small => reached ⟨l, set, small⟩)
        obtain ⟨p, same, complete⟩ := held.ahead l set
        cases same
        rcases List.mem_cons.mp (complete j there above) with rfl | later
        · exact Std.le_refl j
        · exact Std.le_of_lt (held.sorted_cons.1 j later)
      · rw [← List.mem_singleton.mp new]
        exact low

end Feed
