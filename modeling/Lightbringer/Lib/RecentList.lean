import Mathlib.Data.Finset.Card
import Mathlib.Data.List.Nodup

/-!
# A bounded list of recent entries

Entries under keys, most recent first: an insertion puts an entry in front and drops what is beyond the capacity, a hit
moves an entry to the front. Nothing keeps a key from being inserted twice.
-/

namespace RecentList

variable {κ ν : Type*} {entries : List (κ × ν)} {capacity : Nat} {entry new : κ × ν}

def insert (capacity : Nat) (entries : List (κ × ν)) (entry : κ × ν) : List (κ × ν) := (entry :: entries).take capacity

section

variable [DecidableEq κ] {k : κ}

/-- The first entry of a key, which moves to the front. -/
def find (entries : List (κ × ν)) (k : κ) : Option ((κ × ν) × List (κ × ν)) :=
  (entries.find? (fun entry => entry.1 = k)).map (fun found => (found, found :: entries.eraseP (fun entry => entry.1 = k)))

end

def Distinct (entries : List (κ × ν)) : Prop := (entries.map Prod.fst).Nodup

/-- The entry is held, and what stands before it has keys of the set. -/
def Behind (entries : List (κ × ν)) (entry : κ × ν) (since : Finset κ) : Prop :=
  ∃ newer older, entries = newer ++ entry :: older ∧ ∀ other ∈ newer, other.1 ∈ since

theorem mem_of_mem_insert (member : entry ∈ insert capacity entries new) : entry = new ∨ entry ∈ entries :=
  List.mem_cons.mp (List.mem_of_mem_take member)

theorem distinct_insert (distinct : Distinct entries) (fresh : ∀ entry ∈ entries, entry.1 ≠ new.1) :
    Distinct (insert capacity entries new) := by
  have whole : ((new :: entries).map Prod.fst).Nodup := by
    refine List.nodup_cons.mpr ⟨?_, distinct⟩
    intro member
    obtain ⟨entry, held, same⟩ := List.mem_map.mp member
    exact fresh entry held same
  rw [Distinct, insert, List.map_take]
  exact whole.sublist (List.take_sublist ..)

theorem Behind.mono {since later : Finset κ} (held : Behind entries entry since) (more : since ⊆ later) :
    Behind entries entry later := by
  obtain ⟨newer, older, split, among⟩ := held
  exact ⟨newer, older, split, fun other member => more (among other member)⟩

theorem behind_self (room : 0 < capacity) : Behind (insert capacity entries new) new ∅ := by
  obtain ⟨n, rfl⟩ := Nat.exists_eq_succ_of_ne_zero (Nat.ne_of_gt room)
  exact ⟨[], entries.take n, rfl, fun other member => absurd member List.not_mem_nil⟩

/-- An insertion drops an entry only when the capacity is used up by what came after it. -/
theorem behind_insert {since : Finset κ} (held : Behind entries entry since)
    (distinct : Distinct (new :: entries)) (among : new.1 ∈ since) (few : since.card < capacity) :
    Behind (insert capacity entries new) entry since := by
  obtain ⟨newer, older, rfl, within⟩ := held
  have front : ∀ other ∈ new :: newer, other.1 ∈ since := by
    intro other member
    rcases List.mem_cons.mp member with rfl | later
    · exact among
    · exact within other later
  have once : ((new :: newer).map Prod.fst).Nodup := by
    have all : ((new :: newer ++ entry :: older).map Prod.fst).Nodup := distinct
    rw [List.map_append] at all
    exact (List.nodup_append.mp all).1
  have short : (new :: newer).length < capacity := by
    classical
    have bound : ((new :: newer).map Prod.fst).toFinset ⊆ since := by
      intro key member
      obtain ⟨other, here, rfl⟩ := List.mem_map.mp (List.mem_toFinset.mp member)
      exact front other here
    have least := Finset.card_le_card bound
    rw [List.toFinset_card_of_nodup once, List.length_map] at least
    omega
  obtain ⟨n, size⟩ : ∃ n, capacity - (new :: newer).length = n + 1 := ⟨capacity - (new :: newer).length - 1, by omega⟩
  refine ⟨new :: newer, older.take n, ?_, front⟩
  rw [insert, ← List.cons_append, List.take_append, List.take_of_length_le (Nat.le_of_lt short), size, List.take_succ_cons]

section

variable [DecidableEq κ] {k : κ} {found : κ × ν} {after : List (κ × ν)}

theorem find_perm (hit : find entries k = some (found, after)) : after.Perm entries ∧ found.1 = k := by
  obtain ⟨first, here, same⟩ := Option.map_eq_some_iff.mp hit
  cases same
  have key : decide (found.1 = k) = true := List.find?_some (p := fun entry : κ × ν => decide (entry.1 = k)) here
  refine ⟨?_, of_decide_eq_true key⟩
  clear hit key
  induction entries with
  | nil => cases here
  | cons entry rest ih =>
    rw [List.find?_cons] at here
    rw [List.eraseP_cons]
    cases matched : decide (entry.1 = k) with
    | true =>
      rw [matched] at here
      cases here
      exact .refl _
    | false =>
      rw [matched] at here
      exact (List.Perm.swap entry found _).trans ((ih here).cons entry)

theorem distinct_find (distinct : Distinct entries) (hit : find entries k = some (found, after)) : Distinct after :=
  ((find_perm hit).1.map Prod.fst).nodup_iff.mpr distinct

theorem find_of_behind {since : Finset κ} (distinct : Distinct entries) (held : Behind entries entry since) :
    ∃ after, find entries entry.1 = some (entry, after) := by
  obtain ⟨newer, older, rfl, _⟩ := held
  have missed : newer.find? (fun other => other.1 = entry.1) = none := by
    refine List.find?_eq_none.mpr (fun other member same => ?_)
    rw [Distinct, List.map_append, List.map_cons] at distinct
    exact (List.nodup_append.mp distinct).2.2 other.1 (List.mem_map_of_mem member) entry.1 List.mem_cons_self
      (of_decide_eq_true same)
  refine ⟨entry :: (newer ++ entry :: older).eraseP (fun other => other.1 = entry.1), ?_⟩
  rw [find, List.find?_append, missed, Option.none_or, List.find?_cons_of_pos (by simp)]
  rfl

/-- A hit on another key puts one entry in front. -/
theorem behind_find {since : Finset κ} (held : Behind entries entry since) (hit : find entries k = some (found, after))
    (apart : k ≠ entry.1) (among : k ∈ since) : Behind after entry since := by
  obtain ⟨newer, older, rfl, within⟩ := held
  obtain ⟨first, here, same⟩ := Option.map_eq_some_iff.mp hit
  cases same
  have key : decide (found.1 = k) = true := List.find?_some (p := fun entry : κ × ν => decide (entry.1 = k)) here
  have split : ∃ newer' older', (newer ++ entry :: older).eraseP (fun other => other.1 = k) = newer' ++ entry :: older' ∧
      ∀ other ∈ newer', other ∈ newer := by
    by_cases ahead : ∃ other ∈ newer, other.1 = k
    · obtain ⟨other, member, same⟩ := ahead
      exact ⟨_, older, List.eraseP_append_left (by simpa using same) _ member, fun _ => List.mem_of_mem_eraseP⟩
    · have none : ∀ other ∈ newer, ¬ (decide (other.1 = k) = true) :=
        fun other member same => ahead ⟨other, member, of_decide_eq_true same⟩
      refine ⟨newer, older.eraseP (fun other => other.1 = k), ?_, fun _ member => member⟩
      rw [List.eraseP_append_right _ none, List.eraseP_cons_of_neg (by simpa using apart.symm)]
  obtain ⟨newer', older', erased, subset⟩ := split
  refine ⟨found :: newer', older', by rw [erased]; rfl, ?_⟩
  intro other member
  rcases List.mem_cons.mp member with rfl | later
  · exact of_decide_eq_true key ▸ among
  · exact within other (subset other later)

end

end RecentList
