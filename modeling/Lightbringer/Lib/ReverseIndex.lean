import Lightbringer.Lib.Entries

/-!
# Reverse indexes

A table whose entries each have a place, and an index that lists the keys of the entries of each place.
-/

namespace ReverseIndex
open Std

section
variable {κ π : Type*} [Ord π] [TransOrd π] {index : TreeMap π (List κ)} {p : π}

/-- The keys listed for a place. -/
def listed (index : TreeMap π (List κ)) (p : π) : List κ := index.getD p []

theorem listed_of_getElem? {ks : List κ} (found : index[p]? = some ks) : listed index p = ks := by
  rw [listed, TreeMap.getD_eq_getD_getElem?, found, Option.getD_some]

theorem listed_of_none (absent : index[p]? = none) : listed index p = [] := by
  rw [listed, TreeMap.getD_eq_getD_getElem?, absent, Option.getD_none]

variable [LawfulEqOrd π] [DecidableEq π]

theorem listed_insert (index : TreeMap π (List κ)) (p q : π) (ks : List κ) :
    listed (index.insert p ks) q = if p = q then ks else listed index q := by
  rw [listed, listed, TreeMap.getD_eq_getD_getElem?, TreeMap.getD_eq_getD_getElem?, Entries.getElem?_insert]
  split <;> rfl

theorem listed_erase (index : TreeMap π (List κ)) (p q : π) :
    listed (index.erase p) q = if p = q then [] else listed index q := by
  rw [listed, listed, TreeMap.getD_eq_getD_getElem?, TreeMap.getD_eq_getD_getElem?, Entries.getElem?_erase]
  split <;> rfl

variable [DecidableEq κ]

/-- Takes a key out of its place. -/
def unlist (index : TreeMap π (List κ)) (p : π) (k : κ) : TreeMap π (List κ) :=
  match index[p]? with
  | none => index
  | some ks =>
    let rest := ks.filter (fun other => other ≠ k)
    if rest = [] then index.erase p else index.insert p rest

theorem listed_unlist (index : TreeMap π (List κ)) (p q : π) (k : κ) :
    listed (unlist index p k) q = if p = q then (listed index q).filter (fun other => other ≠ k) else listed index q := by
  unfold unlist
  split
  next absent =>
    split
    next here => rw [← here, listed_of_none absent, List.filter_nil]
    next => rfl
  next ks found =>
    dsimp only
    split
    next none =>
      rw [listed_erase]
      split
      next here => rw [← here, listed_of_getElem? found, none]
      next => rfl
    next =>
      rw [listed_insert]
      split
      next here => rw [← here, listed_of_getElem? found]
      next => rfl

theorem used_unlist (used : ∀ (p : π) (ks : List κ), index[p]? = some ks → ks ≠ []) (p : π) (k : κ) :
    ∀ (q : π) (ks : List κ), (unlist index p k)[q]? = some ks → ks ≠ [] := by
  intro q ks found
  unfold unlist at found
  split at found
  · exact used q ks found
  · dsimp only at found
    split at found
    · rw [Entries.getElem?_erase] at found
      split at found
      · cases found
      · exact used q ks found
    next some =>
      rw [Entries.getElem?_insert] at found
      split at found
      · cases found
        exact some
      · exact used q ks found

end

variable {κ α π : Type*} [Ord κ] [Ord π] [TransOrd κ] {place : α → π} {table : TreeMap κ α}
variable {index : TreeMap π (List κ)} {k : κ} {a b : α} {p : π}

/-- The index lists exactly the keys of the table under their places, each once. Places without keys are left out. -/
structure Lists (place : α → π) (table : TreeMap κ α) (index : TreeMap π (List κ)) : Prop where
  mem_iff : ∀ p k, k ∈ listed index p ↔ ∃ a, table[k]? = some a ∧ place a = p
  nodup : ∀ p, (listed index p).Nodup
  used : ∀ (p : π) (ks : List κ), index[p]? = some ks → ks ≠ []

theorem lists_empty [TransOrd π] (place : α → π) : Lists place (∅ : TreeMap κ α) (∅ : TreeMap π (List κ)) where
  mem_iff := by simp [listed]
  nodup := by simp [listed]
  used := by simp

variable [LawfulEqOrd κ] [DecidableEq κ]

/-- An entry may change within its place. -/
theorem Lists.update (lists : Lists place table index) (found : table[k]? = some a) (same : place b = place a) :
    Lists place (table.insert k b) index where
  mem_iff p other := by
    rw [lists.mem_iff p other, Entries.getElem?_insert]
    split
    next here =>
      rw [← here, found]
      simp [same]
    next => rfl
  nodup := lists.nodup
  used := lists.used

variable [TransOrd π] [LawfulEqOrd π] [DecidableEq π]

theorem Lists.erase (lists : Lists place table index) (found : table[k]? = some a) :
    Lists place (table.erase k) (unlist index (place a) k) where
  mem_iff p other := by
    rw [listed_unlist, Entries.getElem?_erase]
    have before := lists.mem_iff p other
    split
    next here =>
      rw [List.mem_filter, before]
      by_cases same : k = other <;> simp [same, eq_comm]
    next elsewhere =>
      rw [before]
      -- The key itself is listed at its own place only.
      by_cases same : k = other
      · subst same
        rw [found]
        simp [elsewhere]
      · rw [if_neg same]
  nodup p := by
    rw [listed_unlist]
    split
    · exact (lists.nodup p).filter _
    · exact lists.nodup p
  used := used_unlist lists.used (place a) k

theorem Lists.insert (lists : Lists place table index) (absent : table[k]? = none) (a : α) :
    Lists place (table.insert k a) (index.insert (place a) (listed index (place a) ++ [k])) where
  mem_iff p other := by
    rw [listed_insert, Entries.getElem?_insert]
    have before := lists.mem_iff p other
    split
    next here =>
      rw [← here] at before ⊢
      rw [List.mem_append, before, List.mem_singleton]
      by_cases same : k = other
      · simp [same]
      · simp [same, eq_comm]
    next elsewhere =>
      rw [before]
      by_cases same : k = other
      · subst same
        rw [absent]
        simp [elsewhere]
      · rw [if_neg same]
  nodup p := by
    rw [listed_insert]
    split
    next here =>
      have fresh : k ∉ listed index (place a) := by
        intro member
        obtain ⟨_, found, _⟩ := (lists.mem_iff (place a) k).mp member
        rw [absent] at found
        cases found
      rw [List.nodup_append]
      refine ⟨lists.nodup (place a), List.nodup_singleton k, fun other member only last same => ?_⟩
      exact fresh (by rw [← List.mem_singleton.mp last, ← same]; exact member)
    next => exact lists.nodup p
  used p ks found := by
    rw [Entries.getElem?_insert] at found
    split at found
    · cases found
      exact List.append_ne_nil_of_right_ne_nil _ (List.cons_ne_nil k [])
    · exact lists.used p ks found

end ReverseIndex
