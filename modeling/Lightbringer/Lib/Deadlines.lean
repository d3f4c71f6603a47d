import Lightbringer.Lib.Entries
import Lightbringer.Lib.Machine
import Mathlib.Order.MinMax

/-!
# Deadlines kept in maps

The values of a map fall due at some time each. `Later` says that none of them is due yet, which is what it takes for
their minimum to lie ahead. `Renews` relates a map to a later state of it: whatever it holds then falls due no earlier
than it did before, or lies ahead.
-/

namespace Deadlines
open Std Machine

variable {κ α τ : Type*} [Ord κ] [LinearOrder τ]

/-- The minimum of the deadlines in the map and one more. -/
def earliest (deadline : τ) (m : TreeMap κ α) (due : α → τ) : τ :=
  m.toList.foldl (fun deadline entry => min deadline (due entry.2)) deadline

def Later (now : τ) (due : α → τ) (m : TreeMap κ α) : Prop := ∀ (k : κ) (v : α), m[k]? = some v → now < due v

def Renews (now : τ) (due : α → τ) (m m' : TreeMap κ α) : Prop :=
  ∀ (k : κ) (v : α), m'[k]? = some v → (∃ old, m[k]? = some old ∧ due old ≤ due v) ∨ now < due v

variable {now : τ} {due : α → τ} {m m' m'' : TreeMap κ α} {k : κ} {v : α}

omit [Ord κ] in
theorem lt_foldl_min (entries : List (κ × α)) (deadline : τ) :
    now < entries.foldl (fun deadline entry => min deadline (due entry.2)) deadline ↔
      now < deadline ∧ ∀ entry ∈ entries, now < due entry.2 := by
  induction entries generalizing deadline with
  | nil => simp
  | cons entry rest ih =>
    rw [List.foldl_cons, ih, lt_min_iff, and_assoc, List.forall_mem_cons]

theorem renews_refl (m : TreeMap κ α) : Renews now due m m := fun _ v found => .inl ⟨v, found, le_rfl⟩

theorem renews_trans (first : Renews now due m m') (second : Renews now due m' m'') : Renews now due m m'' := by
  intro k v found
  rcases second k v found with ⟨between, there, le⟩ | ahead
  · rcases first k between there with ⟨old, was, le'⟩ | ahead
    · exact .inl ⟨old, was, le'.trans le⟩
    · exact .inr (ahead.trans_le le)
  · exact .inr ahead

theorem Later.renews (later : Later now due m) (renews : Renews now due m m') : Later now due m' := by
  intro k v found
  rcases renews k v found with ⟨old, was, le⟩ | ahead
  · exact (later k old was).trans_le le
  · exact ahead

variable [TransOrd κ]

theorem renews_insert (m : TreeMap κ α) (k : κ) (ahead : now < due v) : Renews now due m (m.insert k v) := by
  intro l w found
  rw [TreeMap.getElem?_insert] at found
  split at found
  · cases found
    exact .inr ahead
  · exact .inl ⟨w, found, le_rfl⟩

theorem renews_insertIfNew (m : TreeMap κ α) (k : κ) (ahead : now < due v) :
    Renews now due m (m.insertIfNew k v) := by
  intro l w found
  rw [TreeMap.getElem?_insertIfNew] at found
  split at found
  · cases found
    exact .inr ahead
  · exact .inl ⟨w, found, le_rfl⟩

theorem renews_erase (m : TreeMap κ α) (k : κ) : Renews now due m (m.erase k) := by
  intro l w found
  rw [TreeMap.getElem?_erase] at found
  split at found
  · cases found
  · exact .inl ⟨w, found, le_rfl⟩

variable [LawfulEqOrd κ]

theorem lt_earliest_iff (deadline : τ) (m : TreeMap κ α) :
    now < earliest deadline m due ↔ now < deadline ∧ Later now due m := by
  rw [earliest, lt_foldl_min]
  constructor
  · rintro ⟨ahead, each⟩
    exact ⟨ahead, fun k v found => each (k, v) (TreeMap.mem_toList_iff_getElem?_eq_some.mpr found)⟩
  · rintro ⟨ahead, later⟩
    exact ⟨ahead, fun entry member => later entry.1 entry.2 (TreeMap.mem_toList_iff_getElem?_eq_some.mp member)⟩

/-- An entry is rewritten. -/
theorem renews_rewrite {old : α} (there : m[k]? = some old) (le : due old ≤ due v) :
    Renews now due m (m.insert k v) := by
  intro l w found
  rw [TreeMap.getElem?_insert] at found
  split at found
  next here =>
    cases found
    rw [← LawfulEqOrd.compare_eq_iff_eq.mp here]
    exact .inl ⟨old, there, le⟩
  next => exact .inl ⟨w, found, le_rfl⟩

theorem later_filter {live : κ → α → Bool} (ahead : ∀ k v, live k v = true → now < due v) (m : TreeMap κ α) :
    Later now due (m.filter live) := by
  intro k v found
  rw [TreeMap.getElem?_filter'] at found
  exact ahead k v (Option.filter_eq_some_iff.mp found).2

section
variable {σ ω : Type*} {act : σ → κ × α → σ × List ω} {f : σ → TreeMap κ α}

theorem getElem?_swept (erases : ∀ s entry, f (act s entry).1 = (f s).erase entry.1)
    (entries : List (κ × α)) (s : σ) (found : (f (run act s entries).1)[k]? = some v) :
    (f s)[k]? = some v ∧ ∀ entry ∈ entries, entry.1 ≠ k := by
  induction entries generalizing s with
  | nil => exact ⟨found, by simp⟩
  | cons entry rest ih =>
    obtain ⟨there, apart⟩ := ih (act s entry).1 found
    rw [erases, TreeMap.getElem?_erase] at there
    split at there
    · cases there
    next other =>
      refine ⟨there, fun entry' member => ?_⟩
      rcases List.mem_cons.mp member with rfl | later
      · exact fun same => other (LawfulEqOrd.compare_eq_iff_eq.mpr same)
      · exact apart entry' later

/-- A sweep that takes out every entry that is due leaves none. -/
theorem later_sweep (erases : ∀ s entry, f (act s entry).1 = (f s).erase entry.1) {expired : κ × α → Bool}
    (ahead : ∀ entry, expired entry = false → now < due entry.2) (s : σ) :
    Later now due (f (run act s ((f s).toList.filter expired)).1) := by
  intro k v found
  obtain ⟨there, apart⟩ := getElem?_swept erases _ s found
  refine ahead (k, v) (Bool.eq_false_iff.mpr (fun overdue => ?_))
  have member : (k, v) ∈ (f s).toList.filter expired :=
    List.mem_filter.mpr ⟨TreeMap.mem_toList_iff_getElem?_eq_some.mpr there, overdue⟩
  exact apart (k, v) member rfl

end

end Deadlines
