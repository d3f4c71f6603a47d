import Mathlib.Data.List.Sort
import Mathlib.Data.List.Dedup

/-!
# Shuffling a set by hash

Sorting by key, dropping duplicates and then sorting stably by hash gives an order that depends on the set of
elements alone. Removing an element from the set removes it from the order and changes nothing else.
-/

namespace Shuffle

variable {α : Type*} [DecidableEq α] (key hash : α → Nat)

/-- The elements in key order, each once. -/
def canonical (xs : List α) : List α := (xs.insertionSort (fun a b => key a ≤ key b)).dedup

/-- The elements in hash order, ties in key order. -/
def shuffle (xs : List α) : List α := (canonical key xs).insertionSort (fun a b => hash a ≤ hash b)

def Before (a b : α) : Prop := hash a < hash b ∨ hash a = hash b ∧ key a < key b

omit [DecidableEq α] in
theorem Before.trans {a b c : α} (first : Before key hash a b) (second : Before key hash b c) :
    Before key hash a c := by
  unfold Before at *
  omega

omit [DecidableEq α] in
theorem Before.irrefl (a : α) : ¬ Before key hash a a := by
  unfold Before
  omega

theorem mem_canonical {a : α} {xs : List α} : a ∈ canonical key xs ↔ a ∈ xs := by
  rw [canonical, List.mem_dedup, List.mem_insertionSort]

@[simp] theorem mem_shuffle {a : α} {xs : List α} : a ∈ shuffle key hash xs ↔ a ∈ xs := by
  rw [shuffle, List.mem_insertionSort, mem_canonical]

theorem canonical_pairwise (injective : Function.Injective key) (xs : List α) :
    (canonical key xs).Pairwise (fun a b => key a < key b) := by
  have total : Std.Total (fun a b : α => key a ≤ key b) := ⟨fun a b => Nat.le_total _ _⟩
  have trans : IsTrans α (fun a b : α => key a ≤ key b) := ⟨fun _ _ _ => Nat.le_trans⟩
  have sorted := (List.pairwise_insertionSort (fun a b => key a ≤ key b) xs).sublist
    (List.dedup_sublist _)
  have distinct := List.nodup_dedup (xs.insertionSort (fun a b => key a ≤ key b))
  exact sorted.imp₂ (fun a b le ne => Nat.lt_of_le_of_ne le (fun same => ne (injective same))) distinct

omit [DecidableEq α] in
/-- Inserting an element whose key is below all others puts it before everything of its hash. -/
theorem orderedInsert_pairwise {a : α} {xs : List α} (below : ∀ b ∈ xs, key a < key b)
    (sorted : xs.Pairwise (Before key hash)) :
    (xs.orderedInsert (fun a b => hash a ≤ hash b) a).Pairwise (Before key hash) := by
  induction xs with
  | nil => exact List.pairwise_singleton _ _
  | cons b rest ih =>
    obtain ⟨first, tail⟩ := List.pairwise_cons.mp sorted
    rw [List.orderedInsert_cons]
    split
    next le =>
      have here : Before key hash a b := by
        have lower := below b List.mem_cons_self
        unfold Before
        omega
      refine List.pairwise_cons.mpr ⟨?_, sorted⟩
      intro c member
      rcases List.mem_cons.mp member with rfl | later
      · exact here
      · exact here.trans key hash (first c later)
    next gt =>
      refine List.pairwise_cons.mpr ⟨?_, ih (fun c member => below c (List.mem_cons_of_mem _ member)) tail⟩
      intro c member
      rcases (List.mem_orderedInsert _).mp member with rfl | later
      · exact .inl (Nat.lt_of_not_le gt)
      · exact first c later

omit [DecidableEq α] in
theorem insertionSort_pairwise {xs : List α} (ordered : xs.Pairwise (fun a b => key a < key b)) :
    (xs.insertionSort (fun a b => hash a ≤ hash b)).Pairwise (Before key hash) := by
  induction xs with
  | nil => exact List.Pairwise.nil
  | cons a rest ih =>
    obtain ⟨below, tail⟩ := List.pairwise_cons.mp ordered
    rw [List.insertionSort_cons]
    refine orderedInsert_pairwise key hash ?_ (ih tail)
    intro b member
    exact below b ((List.mem_insertionSort _).mp member)

theorem shuffle_pairwise (injective : Function.Injective key) (xs : List α) :
    (shuffle key hash xs).Pairwise (Before key hash) :=
  insertionSort_pairwise key hash (canonical_pairwise key injective xs)

omit [DecidableEq α] in
theorem nodup_of_before {xs : List α} (sorted : xs.Pairwise (Before key hash)) : xs.Nodup := by
  refine List.Pairwise.imp ?_ sorted
  rintro a b before rfl
  exact Before.irrefl key hash a before

theorem shuffle_nodup (injective : Function.Injective key) (xs : List α) : (shuffle key hash xs).Nodup :=
  nodup_of_before key hash (shuffle_pairwise key hash injective xs)

/-- The shuffle of a set is the only list of its elements in hash and key order. -/
theorem shuffle_eq_of_before (injective : Function.Injective key) {xs order : List α}
    (sorted : order.Pairwise (Before key hash)) (same : ∀ a, a ∈ xs ↔ a ∈ order) :
    shuffle key hash xs = order := by
  have shuffled := shuffle_pairwise key hash injective xs
  have perm : (shuffle key hash xs).Perm order :=
    (List.perm_ext_iff_of_nodup (nodup_of_before key hash shuffled) (nodup_of_before key hash sorted)).mpr
      (fun a => by rw [mem_shuffle, same])
  exact perm.eq_of_pairwise
    (fun a b _ _ first second => absurd (first.trans key hash second) (Before.irrefl key hash a)) shuffled sorted

/-- A smaller set is shuffled as the larger one with the missing element left out. -/
theorem shuffle_erase (injective : Function.Injective key) {xs ys : List α} {x : α}
    (same : ∀ a, a ∈ ys ↔ a ∈ xs ∧ a ≠ x) : shuffle key hash ys = (shuffle key hash xs).erase x := by
  apply shuffle_eq_of_before key hash injective
  · exact (shuffle_pairwise key hash injective xs).sublist List.erase_sublist
  · intro a
    rw [(shuffle_nodup key hash injective xs).mem_erase_iff, mem_shuffle, same, and_comm]

end Shuffle
