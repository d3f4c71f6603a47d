import Mathlib.Data.List.Basic

/-!
# Computations that may fail

Inversion of a successful `Except` computation, and traversals of a list that succeed at every element.
-/

namespace Fallible

universe u

variable {ε α β γ : Type u}

theorem ok_of_bind {x : Except ε α} {f : α → Except ε β} {b : β} (ok : x >>= f = .ok b) :
    ∃ a, x = .ok a ∧ f a = .ok b := by
  cases x with
  | error e => cases ok
  | ok a => exact ⟨a, rfl, ok⟩

theorem mapM_ok {f : α → Except ε β} (xs : List α) (each : ∀ x ∈ xs, ∃ y, f x = .ok y) : ∃ ys, xs.mapM f = .ok ys := by
  induction xs with
  | nil => exact ⟨[], rfl⟩
  | cons x rest ih =>
    obtain ⟨y, first⟩ := each x (List.mem_cons_self ..)
    obtain ⟨ys, others⟩ := ih (fun x' later => each x' (List.mem_cons_of_mem _ later))
    refine ⟨y :: ys, ?_⟩
    rw [List.mapM_cons, first, others]
    rfl

/-- A traversal fails as it does at one of the elements. -/
theorem error_of_mapM {f : α → Except ε β} {xs : List α} {e : ε} (failed : xs.mapM f = .error e) :
    ∃ x ∈ xs, f x = .error e := by
  induction xs with
  | nil => cases failed
  | cons x rest ih =>
    rw [List.mapM_cons] at failed
    cases here : f x with
    | error e' =>
      rw [here] at failed
      cases failed
      exact ⟨x, List.mem_cons_self .., here⟩
    | ok y =>
      rw [here] at failed
      cases others : rest.mapM f with
      | error e' =>
        rw [others] at failed
        cases failed
        obtain ⟨x', member, there⟩ := ih others
        exact ⟨x', List.mem_cons_of_mem _ member, there⟩
      | ok ys =>
        rw [others] at failed
        cases failed

theorem mapM_fails {f : α → Except ε β} {xs : List α} {x : α} {e : ε} (member : x ∈ xs) (here : f x = .error e) :
    ∃ e', xs.mapM f = .error e' := by
  induction xs with
  | nil => cases member
  | cons first rest ih =>
    rw [List.mapM_cons]
    rcases List.mem_cons.mp member with rfl | later
    · exact ⟨e, by rw [here]; rfl⟩
    · obtain ⟨e', others⟩ := ih later
      rw [others]
      cases f first with
      | error e'' => exact ⟨e'', rfl⟩
      | ok y => exact ⟨e', rfl⟩

theorem foldlM_concat {f : β → α → Except ε β} (xs : List α) (x : α) (b : β) :
    (xs ++ [x]).foldlM f b = xs.foldlM f b >>= fun b => f b x := by
  rw [List.foldlM_append]
  simp only [List.foldlM_cons, List.foldlM_nil, bind_pure]

/-- A traversal that succeeds does at each element what a simpler one does. -/
theorem mapM_erase {f : α → Except ε β} {g : α → Option γ} {xs : List α} {ys : List β}
    (erase : β → γ) (each : ∀ x y, f x = .ok y → g x = some (erase y)) (ok : xs.mapM f = .ok ys) :
    xs.mapM g = some (ys.map erase) := by
  induction xs generalizing ys with
  | nil =>
    cases ok
    rfl
  | cons x rest ih =>
    rw [List.mapM_cons] at ok ⊢
    obtain ⟨y, first, ok⟩ := ok_of_bind ok
    obtain ⟨tail, others, ok⟩ := ok_of_bind ok
    cases ok
    rw [each x y first, ih others]
    rfl

/-- What every step keeps holds after a fold that gets through, whose steps all meet a condition on the inputs. -/
theorem foldlM_invariant {step : β → α → Option β} {Q : α → Prop} {P : β → Prop} {xs : List α} {start final : β}
    (initial : P start) (carry : ∀ s x s', P s → Q x → step s x = some s' → P s') (each : ∀ x ∈ xs, Q x)
    (ran : xs.foldlM step start = some final) : P final := by
  induction xs generalizing start with
  | nil =>
    cases ran
    exact initial
  | cons x rest ih =>
    rw [List.foldlM_cons] at ran
    obtain ⟨next, first, ran⟩ := Option.bind_eq_some_iff.mp ran
    have here := carry start x next initial (each x (List.mem_cons_self ..)) first
    exact ih here (fun other later => each other (List.mem_cons_of_mem _ later)) ran

end Fallible
