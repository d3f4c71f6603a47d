import Mathlib.Data.List.Induction
import Mathlib.Data.List.Perm.Basic

/-!
# The best element of a list

A scan that keeps the best element so far. Where `better` orders the elements of the list strictly and totally, the
result depends on what is in the list and not on its order.
-/

namespace Best

variable {α : Type*} {better : α → α → Bool} {xs ys : List α} {best x : α}

/-- The scan: an element takes the place of the best so far if it is better. -/
def scan (better : α → α → Bool) (xs : List α) : Option α :=
  xs.foldl (fun best x => some (best.elim x (fun best => if better x best then x else best))) none

theorem scan_concat (better : α → α → Bool) (xs : List α) (x : α) :
    scan better (xs ++ [x]) = some ((scan better xs).elim x (fun best => if better x best then x else best)) := by
  simp [scan]

theorem scan_eq_none_iff : scan better xs = none ↔ xs = [] := by
  induction xs using List.reverseRecOn with
  | nil => simp [scan]
  | append_singleton xs x _ => simp [scan_concat]

theorem mem_of_scan (found : scan better xs = some best) : best ∈ xs := by
  induction xs using List.reverseRecOn generalizing best with
  | nil => cases found
  | append_singleton xs x ih =>
    rw [scan_concat, Option.some.injEq] at found
    subst found
    cases earlier : scan better xs with
    | none => simp
    | some held =>
      rw [Option.elim_some]
      split
      · simp
      · exact List.mem_append_left _ (ih earlier)

/-- Nothing is better than the result, if being better is passed on and of two elements one is better. -/
theorem best_of_scan (trans : ∀ a b c, better a b = true → better b c = true → better a c = true)
    (total : ∀ a b, a ≠ b → better a b = true ∨ better b a = true) (found : scan better xs = some best) (member : x ∈ xs)
    (apart : x ≠ best) : better best x = true := by
  induction xs using List.reverseRecOn generalizing best x with
  | nil => cases member
  | append_singleton xs last ih =>
    rw [scan_concat, Option.some.injEq] at found
    cases earlier : scan better xs with
    | none =>
      rw [earlier, Option.elim_none] at found
      rw [scan_eq_none_iff.mp earlier, List.nil_append, List.mem_singleton] at member
      exact (apart (member.trans found)).elim
    | some held =>
      rw [earlier, Option.elim_some] at found
      split at found
      next replaces =>
        subst found
        rcases List.mem_append.mp member with old | new
        · by_cases same : x = held
          · exact same ▸ replaces
          · exact trans _ _ _ replaces (ih earlier old same)
        · exact (apart (List.mem_singleton.mp new)).elim
      next stays =>
        subst found
        rcases List.mem_append.mp member with old | new
        · exact ih earlier old apart
        · obtain rfl := List.mem_singleton.mp new
          exact (total held x (Ne.symm apart)).resolve_right stays

theorem scan_perm (trans : ∀ a b c, better a b = true → better b c = true → better a c = true)
    (total : ∀ a b, a ≠ b → better a b = true ∨ better b a = true) (irrefl : ∀ a, better a a = false)
    (perm : xs.Perm ys) : scan better xs = scan better ys := by
  cases here : scan better xs with
  | none =>
    rw [scan_eq_none_iff] at here
    subst here
    rw [List.nil_perm.mp perm]
    rfl
  | some best =>
    cases there : scan better ys with
    | none =>
      rw [scan_eq_none_iff] at there
      subst there
      have member := mem_of_scan here
      rw [List.perm_nil.mp perm] at member
      cases member
    | some other =>
      by_contra apart
      have differ : best ≠ other := fun same => apart (congrArg some same)
      have first := best_of_scan trans total here (perm.mem_iff.mpr (mem_of_scan there)) differ.symm
      have second := best_of_scan trans total there (perm.mem_iff.mp (mem_of_scan here)) differ
      have both := trans _ _ _ first second
      rw [irrefl] at both
      cases both

end Best
