import Mathlib.Data.List.Perm.Basic
import Mathlib.Data.List.Nodup
import Mathlib.Data.List.Perm.Subperm

/-!
# The entries of an ordered map

What a map holds after an insertion or an erasure, by equality of keys. Inserting under a new key adds one entry, erasing a present key removes one, whatever the order of the rest.
-/

namespace Entries
open Std

variable {κ α : Type*} [Ord κ] [TransOrd κ] [LawfulEqOrd κ] {m : TreeMap κ α} {k : κ} {v : α}

theorem getElem?_insert [DecidableEq κ] (m : TreeMap κ α) (k l : κ) (v : α) :
    (m.insert k v)[l]? = if k = l then some v else m[l]? := by
  rw [TreeMap.getElem?_insert]
  simp only [LawfulEqOrd.compare_eq_iff_eq]

theorem getElem?_erase [DecidableEq κ] (m : TreeMap κ α) (k l : κ) :
    (m.erase k)[l]? = if k = l then none else m[l]? := by
  rw [TreeMap.getElem?_erase]
  simp only [LawfulEqOrd.compare_eq_iff_eq]

theorem getElem?_modify [DecidableEq κ] (m : TreeMap κ α) (k l : κ) (f : α → α) :
    (m.modify k f)[l]? = if k = l then (m[k]?).map f else m[l]? := by
  rw [TreeMap.getElem?_modify]
  simp only [LawfulEqOrd.compare_eq_iff_eq]

theorem nodup_toList (m : TreeMap κ α) : m.toList.Nodup := by
  refine List.Pairwise.imp ?_ m.distinct_keys_toList
  intro x y apart same
  exact apart (by rw [same]; exact ReflOrd.compare_self)

theorem insert_perm (absent : m[k]? = none) : (m.insert k v).toList.Perm ((k, v) :: m.toList) := by
  have fresh : (k, v) ∉ m.toList := by
    intro member
    rw [TreeMap.mem_toList_iff_getElem?_eq_some.mp member] at absent
    cases absent
  refine (List.perm_ext_iff_of_nodup (nodup_toList _) (List.nodup_cons.mpr ⟨fresh, nodup_toList m⟩)).mpr ?_
  rintro ⟨l, w⟩
  rw [TreeMap.mem_toList_iff_getElem?_eq_some, List.mem_cons, TreeMap.mem_toList_iff_getElem?_eq_some,
    TreeMap.getElem?_insert]
  split
  next here =>
    rw [← LawfulEqOrd.compare_eq_iff_eq.mp here, absent]
    simp [eq_comm]
  next other =>
    have apart : l ≠ k := fun same => other (by rw [same]; exact ReflOrd.compare_self)
    simp [apart]

theorem erase_perm (found : m[k]? = some v) : m.toList.Perm ((k, v) :: (m.erase k).toList) := by
  have gone : (k, v) ∉ (m.erase k).toList := by
    intro member
    have kept := TreeMap.mem_toList_iff_getElem?_eq_some.mp member
    rw [TreeMap.getElem?_erase, if_pos ReflOrd.compare_self] at kept
    cases kept
  refine (List.perm_ext_iff_of_nodup (nodup_toList m) (List.nodup_cons.mpr ⟨gone, nodup_toList _⟩)).mpr ?_
  rintro ⟨l, w⟩
  rw [TreeMap.mem_toList_iff_getElem?_eq_some, List.mem_cons, TreeMap.mem_toList_iff_getElem?_eq_some,
    TreeMap.getElem?_erase]
  split
  next here =>
    rw [← LawfulEqOrd.compare_eq_iff_eq.mp here, found]
    simp [eq_comm]
  next other =>
    have apart : l ≠ k := fun same => other (by rw [same]; exact ReflOrd.compare_self)
    simp [apart]

/-- The keys of a map, each once. -/
theorem nodup_keys (m : TreeMap κ α) : (m.toList.map Prod.fst).Nodup := by
  rw [List.Nodup, List.pairwise_map]
  refine List.Pairwise.imp ?_ m.distinct_keys_toList
  intro x y apart same
  exact apart (by rw [same]; exact ReflOrd.compare_self)

theorem mem_keys {m : TreeMap κ α} {k : κ} : k ∈ m.toList.map Prod.fst ↔ (m[k]?).isSome := by
  rw [List.mem_map, Option.isSome_iff_exists]
  constructor
  · rintro ⟨⟨l, w⟩, member, rfl⟩
    exact ⟨w, TreeMap.mem_toList_iff_getElem?_eq_some.mp member⟩
  · rintro ⟨w, found⟩
    exact ⟨(k, w), TreeMap.mem_toList_iff_getElem?_eq_some.mpr found, rfl⟩

/-- A map with no other keys than these is no larger than their list. -/
theorem size_le_length {keys : List κ} (within : ∀ k, (m[k]?).isSome → k ∈ keys) : m.size ≤ keys.length := by
  rw [← TreeMap.length_toList, ← List.length_map (f := Prod.fst)]
  exact ((nodup_keys m).subperm (fun k member => within k (mem_keys.mp member))).length_le

/-- A map with no other keys is no larger. -/
theorem size_le {β : Type*} {m' : TreeMap κ β} (within : ∀ k : κ, (m'[k]?).isSome → (m[k]?).isSome) : m'.size ≤ m.size := by
  have bound := size_le_length (fun k present => mem_keys (m := m).mpr (within k present))
  rwa [List.length_map, TreeMap.length_toList] at bound

/-- A map with one key more is larger by one at most. -/
theorem size_le_succ [DecidableEq κ] {β : Type*} {m' : TreeMap κ β} (k : κ)
    (within : ∀ l : κ, l ≠ k → (m'[l]?).isSome → (m[l]?).isSome) : m'.size ≤ m.size + 1 := by
  have inside : ∀ l : κ, (m'[l]?).isSome → l ∈ k :: m.toList.map Prod.fst := by
    intro l present
    by_cases here : l = k
    · rw [here]
      exact List.mem_cons_self
    · exact List.mem_cons_of_mem _ (mem_keys.mpr (within l here present))
  have bound := size_le_length inside
  rwa [List.length_cons, List.length_map, TreeMap.length_toList] at bound

theorem filter_key [DecidableEq κ] (m : TreeMap κ α) (k : κ) :
    m.toList.filter (fun entry => entry.1 = k) = (m[k]?).toList.map (Prod.mk k) := by
  have distinct : m.toList.Pairwise (fun x y => x.1 ≠ y.1) := by
    refine List.Pairwise.imp ?_ m.distinct_keys_toList
    intro x y apart same
    exact apart (by rw [same]; exact ReflOrd.compare_self)
  have only : ∀ entries : List (κ × α), entries.Pairwise (fun x y => x.1 ≠ y.1) → ∀ v, (k, v) ∈ entries →
      entries.filter (fun entry => entry.1 = k) = [(k, v)] := by
    intro entries
    induction entries with
    | nil =>
      intro _ v member
      cases member
    | cons entry rest ih =>
      intro distinct v member
      obtain ⟨apart, distinct⟩ := List.pairwise_cons.mp distinct
      rcases List.mem_cons.mp member with rfl | later
      · have none : rest.filter (fun entry => entry.1 = k) = [] := by
          refine List.filter_eq_nil_iff.mpr (fun other there same => ?_)
          exact apart other there (of_decide_eq_true same).symm
        rw [List.filter_cons_of_pos (by simp), none]
      · have other : entry.1 ≠ k := apart (k, v) later
        rw [List.filter_cons_of_neg (by simpa using other), ih distinct v later]
  cases found : m[k]? with
  | none =>
    refine List.filter_eq_nil_iff.mpr (fun entry member same => ?_)
    have there := TreeMap.mem_toList_iff_getElem?_eq_some.mp (show (entry.1, entry.2) ∈ m.toList from member)
    rw [of_decide_eq_true same, found] at there
    cases there
  | some v => exact only m.toList distinct v (TreeMap.mem_toList_iff_getElem?_eq_some.mpr found)

/-- After a list of writes a key holds the last one made to it, or what it held before. -/
theorem getElem?_insertAll [DecidableEq κ] {β : Type*} (key : β → κ) (value : β → α) (xs : List β) (m : TreeMap κ α) (k : κ) :
    (xs.foldl (fun m x => m.insert (key x) (value x)) m)[k]? =
      ((xs.reverse.find? (fun x => key x = k)).map value).or m[k]? := by
  induction xs generalizing m with
  | nil => rfl
  | cons x rest ih =>
    rw [List.foldl_cons, ih, getElem?_insert, List.reverse_cons, List.find?_append]
    cases rest.reverse.find? (fun x => key x = k) with
    | some later => rfl
    | none =>
      by_cases here : key x = k
      · simp [here]
      · simp [here]

/-- A map is listed by any ascending list of its entries. -/
theorem toList_eq_of_sorted {l : List (κ × α)} (ascending : l.Pairwise (fun x y => compare x.1 y.1 = .lt))
    (same : ∀ (k : κ) v, (k, v) ∈ l ↔ m[k]? = some v) : m.toList = l := by
  have distinct : l.Nodup := by
    refine List.Pairwise.imp ?_ ascending
    intro x y less equal
    rw [equal, ReflOrd.compare_self] at less
    cases less
  have perm : m.toList.Perm l := by
    refine (List.perm_ext_iff_of_nodup (nodup_toList m) distinct).mpr ?_
    rintro ⟨k, v⟩
    rw [TreeMap.mem_toList_iff_getElem?_eq_some, same]
  refine List.Perm.eq_of_pairwise ?_ TreeMap.ordered_keys_toList ascending perm
  intro x y _ _ less more
  have impossible := TransCmp.lt_trans less more
  rw [ReflOrd.compare_self] at impossible
  cases impossible

/-! ### Ranges of numbered entries -/

section

variable {α : Type*} {m : TreeMap Nat α} {start stop : Nat} {last : Nat × α}

/-- The last entry with a key of the range, both ends included. -/
def lastBetween (m : TreeMap Nat α) (start stop : Nat) : Option (Nat × α) :=
  (m.toList.filter (fun entry => start ≤ entry.1 && entry.1 ≤ stop)).getLast?

theorem lastBetween_spec (found : lastBetween m start stop = some last) :
    m[last.1]? = some last.2 ∧ start ≤ last.1 ∧ last.1 ≤ stop ∧ ∀ k, last.1 < k → k ≤ stop → m[k]? = none := by
  obtain ⟨before, split⟩ := List.getLast?_eq_some_iff.mp found
  have ascending : (before ++ [last]).Pairwise (fun x y => compare x.1 y.1 = .lt) := by
    rw [← split]
    exact List.Pairwise.filter _ TreeMap.ordered_keys_toList
  have listed : last ∈ m.toList.filter (fun entry => start ≤ entry.1 && entry.1 ≤ stop) := by
    rw [split]
    simp
  obtain ⟨member, within⟩ := List.mem_filter.mp listed
  rw [Bool.and_eq_true, decide_eq_true_eq, decide_eq_true_eq] at within
  refine ⟨TreeMap.mem_toList_iff_getElem?_eq_some.mp member, within.1, within.2, ?_⟩
  intro k above below
  cases held : m[k]? with
  | none => rfl
  | some v =>
    have inRange : (k, v) ∈ before ++ [last] := by
      rw [← split]
      refine List.mem_filter.mpr ⟨TreeMap.mem_toList_iff_getElem?_eq_some.mpr held, ?_⟩
      rw [Bool.and_eq_true, decide_eq_true_eq, decide_eq_true_eq]
      exact ⟨Nat.le_of_lt (Nat.lt_of_le_of_lt within.1 above), below⟩
    rcases List.mem_append.mp inRange with earlier | same
    · have less := Nat.compare_eq_lt.mp ((List.pairwise_append.mp ascending).2.2 (k, v) earlier last (List.mem_singleton_self last))
      exact absurd less (Nat.lt_asymm above)
    · rw [← List.mem_singleton.mp same] at above
      exact absurd above (Nat.lt_irrefl k)

theorem lastBetween_eq_none_iff : lastBetween m start stop = none ↔ ∀ k, start ≤ k → k ≤ stop → m[k]? = none := by
  rw [lastBetween, List.getLast?_eq_none_iff, List.filter_eq_nil_iff]
  constructor
  · intro outside k above below
    cases held : m[k]? with
    | none => rfl
    | some v =>
      refine absurd ?_ (outside (k, v) (TreeMap.mem_toList_iff_getElem?_eq_some.mpr held))
      rw [Bool.and_eq_true, decide_eq_true_eq, decide_eq_true_eq]
      exact ⟨above, below⟩
  · rintro absent ⟨k, v⟩ member within
    rw [Bool.and_eq_true, decide_eq_true_eq, decide_eq_true_eq] at within
    have held := TreeMap.mem_toList_iff_getElem?_eq_some.mp member
    rw [absent k within.1 within.2] at held
    cases held

/-- The last entry of all. -/
theorem getLast_spec (found : m.toList.getLast? = some last) :
    m[last.1]? = some last.2 ∧ ∀ k, (m[k]?).isSome → k ≤ last.1 := by
  obtain ⟨before, split⟩ := List.getLast?_eq_some_iff.mp found
  have ascending : (before ++ [last]).Pairwise (fun x y => compare x.1 y.1 = .lt) := by
    rw [← split]
    exact TreeMap.ordered_keys_toList
  have listed : last ∈ m.toList := by
    rw [split]
    simp
  refine ⟨TreeMap.mem_toList_iff_getElem?_eq_some.mp listed, ?_⟩
  intro k present
  obtain ⟨v, held⟩ := Option.isSome_iff_exists.mp present
  have member := TreeMap.mem_toList_iff_getElem?_eq_some.mpr held
  rw [split] at member
  rcases List.mem_append.mp member with earlier | same
  · have less := Nat.compare_eq_lt.mp ((List.pairwise_append.mp ascending).2.2 (k, v) earlier last (List.mem_singleton_self last))
    exact Nat.le_of_lt less
  · exact Nat.le_of_eq (congrArg Prod.fst (List.mem_singleton.mp same))

end

end Entries
