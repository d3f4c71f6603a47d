import Mathlib.Data.Finset.Max
import Mathlib.Order.Interval.Finset.Nat

/-!
# Keeping what is newest

A store that is told keys with a rank and keeps those that lie within `width` of the newest one. Whether a key is still
kept is a function of all the keys it was ever told.
-/

namespace NewestWindow

variable {κ : Type*} (rank : κ → ℕ) (width : ℕ)

def Kept (told : List κ) (k : κ) : Prop := k ∈ told ∧ ∀ other ∈ told, rank other < rank k + width

instance [DecidableEq κ] (told : List κ) (k : κ) : Decidable (Kept rank width told k) := by
  unfold Kept
  infer_instance

variable {rank width} {told more : List κ} {k : κ}

theorem not_kept_nil : ¬ Kept rank width [] k := fun kept => List.not_mem_nil kept.1

theorem exists_newest (positive : 0 < width) (member : k ∈ told) :
    ∃ newest, Kept rank width told newest ∧ ∀ other ∈ told, rank other ≤ rank newest := by
  classical
  obtain ⟨newest, here, most⟩ := told.toFinset.exists_max_image rank ⟨k, List.mem_toFinset.mpr member⟩
  have below : ∀ other ∈ told, rank other ≤ rank newest := fun other there => most other (List.mem_toFinset.mpr there)
  refine ⟨newest, ⟨List.mem_toFinset.mp here, fun other there => ?_⟩, below⟩
  have := below other there
  omega

/-- It is enough to cut what was kept and what is new. -/
theorem kept_append (positive : 0 < width) :
    Kept rank width (told ++ more) k ↔
      (Kept rank width told k ∨ k ∈ more) ∧
        ∀ other, Kept rank width told other ∨ other ∈ more → rank other < rank k + width := by
  constructor
  · rintro ⟨member, bound⟩
    refine ⟨?_, fun other there => ?_⟩
    · rcases List.mem_append.mp member with old | new
      · exact .inl ⟨old, fun other there => bound other (List.mem_append_left _ there)⟩
      · exact .inr new
    · rcases there with kept | new
      · exact bound other (List.mem_append_left _ kept.1)
      · exact bound other (List.mem_append_right _ new)
  · rintro ⟨member, bound⟩
    refine ⟨?_, fun other there => ?_⟩
    · rcases member with kept | new
      · exact List.mem_append_left _ kept.1
      · exact List.mem_append_right _ new
    · rcases List.mem_append.mp there with old | new
      · obtain ⟨newest, kept, most⟩ : ∃ newest, Kept rank width told newest ∧ ∀ other ∈ told, rank other ≤ rank newest :=
          exists_newest positive old
        exact Nat.lt_of_le_of_lt (most other old) (bound newest (.inl kept))
      · exact bound other (.inr new)

theorem length_le {keys : List κ} (distinct : (keys.map rank).Nodup) (kept : ∀ key ∈ keys, Kept rank width told key) :
    keys.length ≤ width := by
  classical
  cases keys with
  | nil => exact Nat.zero_le _
  | cons first rest =>
    obtain ⟨oldest, here, least⟩ := (first :: rest).toFinset.exists_min_image rank ⟨first, by simp⟩
    have within : ((first :: rest).map rank).toFinset ⊆ Finset.Ico (rank oldest) (rank oldest + width) := by
      intro n member
      obtain ⟨key, there, rfl⟩ := List.mem_map.mp (List.mem_toFinset.mp member)
      refine Finset.mem_Ico.mpr ⟨least key (List.mem_toFinset.mpr there), ?_⟩
      exact (kept oldest (List.mem_toFinset.mp here)).2 key (kept key there).1
    have bound := Finset.card_le_card within
    rw [List.toFinset_card_of_nodup distinct, List.length_map, Nat.card_Ico] at bound
    omega

end NewestWindow
