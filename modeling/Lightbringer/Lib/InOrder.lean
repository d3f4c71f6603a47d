import Mathlib.Data.List.Basic

/-!
# Handing keys out in order

Keys are kept until their turn. A cursor stands behind the last key handed out, and nothing before the cursor is kept.
-/

namespace InOrder

variable {κ : Type*} [LE κ] [LT κ]

/-- What has been handed out and what is kept, on either side of the cursor. -/
structure Ordered (cursor : Option κ) (kept : κ → Prop) (out : List κ) : Prop where
  ascending : out.Pairwise (· < ·)
  before : ∀ k ∈ out, ∃ next, cursor = some next ∧ k < next
  behind : ∀ next, cursor = some next → ∀ k, kept k → next ≤ k

variable {cursor : Option κ} {kept : κ → Prop} {out : List κ}

theorem ordered_start : Ordered none kept [] := by
  refine ⟨List.Pairwise.nil, fun _ member => (List.not_mem_nil member).elim, fun next set => ?_⟩
  cases set

/-- Keys may come in at the cursor or after it, and may be forgotten. -/
theorem Ordered.keep (held : Ordered cursor kept out) {kept' : κ → Prop}
    (fresh : ∀ k, kept' k → kept k ∨ ∀ next, cursor = some next → next ≤ k) : Ordered cursor kept' out := by
  refine ⟨held.ascending, held.before, fun next set k member => ?_⟩
  rcases fresh k member with old | late
  · exact held.behind next set k old
  · exact late next set

/-- A cursor that was not set starts at the least key. -/
theorem Ordered.start (held : Ordered none kept out) {first : κ} (least : ∀ k, kept k → first ≤ k) :
    Ordered (some first) kept out := by
  have none : out = [] := by
    cases out with
    | nil => rfl
    | cons k rest =>
      obtain ⟨next, set, _⟩ := held.before k (List.mem_cons_self ..)
      cases set
  subst none
  refine ⟨List.Pairwise.nil, fun _ member => (List.not_mem_nil member).elim, fun next set k member => ?_⟩
  cases set
  exact least k member

/-- The least key is handed out and the cursor moves on to the key after it. -/
theorem Ordered.hand [Std.IsLinearOrder κ] [Std.LawfulOrderLT κ] (held : Ordered cursor kept out) (set : cursor ≠ none) {k later : κ} (member : kept k)
    (least : ∀ j, kept j → k ≤ j) (moves : k < later) (tight : ∀ j, k < j → later ≤ j) :
    Ordered (some later) (fun j => kept j ∧ j ≠ k) (out ++ [k]) := by
  obtain ⟨next, cursorEq⟩ := Option.ne_none_iff_exists'.mp set
  have due : next ≤ k := held.behind next cursorEq k member
  have earlier : ∀ j ∈ out, j < k := by
    intro j old
    obtain ⟨bound, boundEq, less⟩ := held.before j old
    rw [cursorEq] at boundEq
    cases boundEq
    exact Std.lt_of_lt_of_le less due
  refine ⟨?_, fun j handed => ⟨later, rfl, ?_⟩, fun bound boundEq j left => ?_⟩
  · refine List.pairwise_append.mpr ⟨held.ascending, List.pairwise_singleton .., fun j old i new => ?_⟩
    rw [List.mem_singleton.mp new]
    exact earlier j old
  · rcases List.mem_append.mp handed with old | new
    · exact Std.lt_trans (earlier j old) moves
    · rw [List.mem_singleton.mp new]
      exact moves
  · cases boundEq
    exact tight j (Std.lt_of_le_of_ne (least j left.1) (fun same => left.2 same.symm))

end InOrder
