import Std.Data.TreeMap.Lemmas
import Mathlib.Data.List.Perm.Basic
import Mathlib.Data.List.Induction

/-!
# Elements batched by key

A map from keys to accumulators, filled by putting one element after another into the accumulator of its key. What it
holds for a key is made of the elements of that key alone, in their order; which keys there are does not depend on the
order at all.
-/

namespace Batches
open Std

variable {κ α β : Type*} [Ord κ] [TransOrd κ] [LawfulEqOrd κ]

/-! ### Maps read through their keys -/

theorem toList_eq_keys (m : TreeMap κ β) : m.toList = m.keys.filterMap (fun k => (m[k]?).map (Prod.mk k)) := by
  rw [← TreeMap.map_fst_toList_eq_keys, List.filterMap_map]
  have each : ∀ entry ∈ m.toList, ((fun k => (m[k]?).map (Prod.mk k)) ∘ Prod.fst) entry = some entry := by
    intro entry member
    have found := TreeMap.mem_toList_iff_getElem?_eq_some.mp (show (entry.1, entry.2) ∈ m.toList from member)
    rw [Function.comp_apply, found]
    rfl
  rw [List.filterMap_congr each, List.filterMap_some]

omit [TransOrd κ] [LawfulEqOrd κ] in
theorem values_eq_toList (m : TreeMap κ β) : m.values = m.toList.map Prod.snd := by
  have folded : m.values = m.foldr (fun _ v values => v :: values) [] := rfl
  rw [folded, TreeMap.foldr_eq_foldr_toList, List.map_eq_foldr]

theorem values_eq_keys (m : TreeMap κ β) : m.values = m.keys.filterMap (fun k => m[k]?) := by
  rw [values_eq_toList, toList_eq_keys, List.map_filterMap]
  refine List.filterMap_congr (fun k _ => ?_)
  cases m[k]? with
  | none => rfl
  | some v => rfl

/-- Maps with the same keys list them alike. -/
theorem keys_eq_of_mem_iff {γ : Type*} {m : TreeMap κ β} {m' : TreeMap κ γ} (same : ∀ k : κ, k ∈ m ↔ k ∈ m') :
    m.keys = m'.keys := by
  have units : (m.map (fun _ _ => ())).Equiv (m'.map (fun _ _ => ())) :=
    TreeMap.Equiv.of_forall_mem_unit_iff (fun k => by rw [TreeMap.mem_map, TreeMap.mem_map, same])
  have listed := TreeMap.Equiv.keys_eq units
  rwa [TreeMap.keys_map, TreeMap.keys_map] at listed

theorem mem_keys_iff (m : TreeMap κ β) (k : κ) : k ∈ m.keys ↔ k ∈ m := TreeMap.mem_keys

/-! ### Batches -/

variable [DecidableEq κ] [Inhabited β] (key : α → κ) (put : β → α → β)

def add (batches : TreeMap κ β) (x : α) : TreeMap κ β :=
  batches.insert (key x) (put (batches.getD (key x) default) x)

def gather (xs : List α) : TreeMap κ β := xs.foldl (add key put) ∅

/-- The elements of one key, in their order. -/
def ofKey (k : κ) (xs : List α) : List α := xs.filter (fun x => key x = k)

/-- What becomes of the elements of one key. -/
def batch (k : κ) (xs : List α) : β := (ofKey key k xs).foldl put default

variable {key put}

theorem getElem?_gather (xs : List α) (k : κ) :
    (gather key put xs)[k]? = if ofKey key k xs = [] then none else some (batch key put k xs) := by
  induction xs using List.reverseRecOn with
  | nil =>
    rw [gather, List.foldl_nil, TreeMap.getElem?_emptyc]
    rfl
  | append_singleton xs x ih =>
    have grown : gather key put (xs ++ [x]) = add key put (gather key put xs) x := by
      rw [gather, List.foldl_append]
      rfl
    have before : (gather key put xs).getD k default = batch key put k xs := by
      rw [TreeMap.getD_eq_getD_getElem?, ih]
      split
      next none =>
        rw [batch, none]
        rfl
      next => rfl
    rw [grown, add, TreeMap.getElem?_insert]
    split
    next here =>
      have own : key x = k := LawfulEqOrd.compare_eq_iff_eq.mp here
      have last : ofKey key k (xs ++ [x]) = ofKey key k xs ++ [x] := by
        rw [ofKey, List.filter_append, List.filter_singleton, decide_eq_true own]
        rfl
      rw [batch, last, if_neg (by simp), List.foldl_append, own, before]
      rfl
    next other =>
      have foreign : key x ≠ k := fun same => other (LawfulEqOrd.compare_eq_iff_eq.mpr same)
      have same : ofKey key k (xs ++ [x]) = ofKey key k xs := by
        rw [ofKey, List.filter_append, List.filter_singleton, decide_eq_false foreign]
        exact List.append_nil _
      rw [batch, same, ih]
      rfl

theorem mem_gather {xs : List α} {k : κ} : k ∈ gather key put xs ↔ ∃ x ∈ xs, key x = k := by
  rw [← TreeMap.isSome_getElem?_iff_mem, getElem?_gather]
  have some_iff : ofKey key k xs ≠ [] ↔ ∃ x ∈ xs, key x = k := by
    rw [ofKey, Ne, List.filter_eq_nil_iff]
    simp
  rw [← some_iff]
  split
  next empty => simp [empty]
  next filled => simp [filled]

/-- The batches in the order of their keys. -/
theorem values_gather (xs : List α) :
    (gather key put xs).values = (gather key put xs).keys.map (fun k => batch key put k xs) := by
  rw [values_eq_keys, ← List.filterMap_eq_map]
  refine List.filterMap_congr (fun k member => ?_)
  have present := mem_gather.mp ((mem_keys_iff _ k).mp member)
  have filled : ofKey key k xs ≠ [] := by
    obtain ⟨x, inside, own⟩ := present
    exact List.ne_nil_of_mem (List.mem_filter.mpr ⟨inside, decide_eq_true own⟩)
  rw [getElem?_gather, if_neg filled]
  rfl

/-- Which keys there are depends on the elements alone, not on what is made of them either. -/
theorem keys_gather {γ : Type*} [Inhabited γ] {put' : γ → α → γ} {xs ys : List α} (same : ∀ x, x ∈ xs ↔ x ∈ ys) :
    (gather key put xs).keys = (gather key put' ys).keys := by
  refine keys_eq_of_mem_iff (fun k => ?_)
  rw [mem_gather, mem_gather]
  simp [same]

end Batches
