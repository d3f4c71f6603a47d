import Mathlib.Data.List.Basic

/-!
# Items that stand in a queue

A queue is served from the front. An item stands if nothing behind it will undo what it does.
-/

namespace Queue

variable {α : Type*} (good undoes : α → Prop)

def Standing : List α → Prop
  | [] => False
  | x :: rest => good x ∧ (∀ y ∈ rest, ¬ undoes y) ∨ Standing rest

variable {good undoes} {xs ys : List α}

theorem standing_append (standing : Standing good undoes xs) (harmless : ∀ y ∈ ys, ¬ undoes y) :
    Standing good undoes (xs ++ ys) := by
  induction xs with
  | nil => exact standing.elim
  | cons x rest ih =>
    rcases standing with ⟨here, quiet⟩ | later
    · refine .inl ⟨here, fun y member => ?_⟩
      rcases List.mem_append.mp member with old | fresh
      · exact quiet y old
      · exact harmless y fresh
    · exact .inr (ih later)

theorem standing_concat {x : α} (here : good x) : Standing good undoes (xs ++ [x]) := by
  induction xs with
  | nil => exact .inl ⟨here, by simp⟩
  | cons y rest ih => exact .inr ih

theorem standing_of_mem {x : α} (member : x ∈ xs) (here : good x) (harmless : ∀ y ∈ xs, ¬ undoes y) :
    Standing good undoes xs := by
  induction xs with
  | nil => cases member
  | cons y rest ih =>
    have quiet : ∀ z ∈ rest, ¬ undoes z := fun z later => harmless z (List.mem_cons_of_mem _ later)
    rcases List.mem_cons.mp member with rfl | later
    · exact .inl ⟨here, quiet⟩
    · exact .inr (ih later quiet)

theorem exists_of_standing (standing : Standing good undoes xs) : ∃ x ∈ xs, good x := by
  induction xs with
  | nil => exact standing.elim
  | cons x rest ih =>
    rcases standing with ⟨here, _⟩ | later
    · exact ⟨x, List.mem_cons_self .., here⟩
    · obtain ⟨y, member, found⟩ := ih later
      exact ⟨y, List.mem_cons_of_mem _ member, found⟩

/-- Serving an item that is not itself good. -/
theorem standing_tail {x : α} (standing : Standing good undoes (x :: xs)) (other : ¬ good x) :
    Standing good undoes xs := by
  rcases standing with ⟨here, _⟩ | later
  · exact absurd here other
  · exact later

end Queue
