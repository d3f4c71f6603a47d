import Mathlib.Data.List.Perm.Basic

/-!
# Lists grouped by key

A map from keys to lists, filled by appending to one group at a time and drained all at once. Whatever the order
of the keys, a drain returns every element that was pushed, once.
-/

namespace Grouping
open Std

variable {κ α : Type*} [Ord κ] [TransOrd κ] [LawfulEqOrd κ] [DecidableEq κ]

abbrev Groups (κ α : Type*) [Ord κ] := TreeMap κ (List α)

def group (groups : Groups κ α) (k : κ) : List α := (groups[k]?).getD []

def push (groups : Groups κ α) (k : κ) (x : α) : Groups κ α := groups.insert k (group groups k ++ [x])

def drain (groups : Groups κ α) : List α := groups.toList.flatMap (·.2)

theorem group_push (groups : Groups κ α) (k l : κ) (x : α) :
    group (push groups k x) l = if k = l then group groups l ++ [x] else group groups l := by
  by_cases same : k = l
  · subst same
    simp [group, push]
  · simp [group, push, TreeMap.getElem?_insert, same]

/-- The entries of every key but `k`. -/
def others (entries : List (κ × List α)) (k : κ) : List (κ × List α) :=
  entries.filter (fun entry => k ≠ entry.1)

omit [Ord κ] [TransOrd κ] [LawfulEqOrd κ] in
theorem others_eq_self {entries : List (κ × List α)} {k : κ} (absent : ∀ entry ∈ entries, k ≠ entry.1) :
    others entries k = entries :=
  List.filter_eq_self.mpr (by simpa using absent)

omit [Ord κ] [TransOrd κ] [LawfulEqOrd κ] in
/-- Entries with distinct keys are the one for `k` and the others. -/
theorem perm_cons_others {entries : List (κ × List α)} (distinct : entries.Pairwise (fun a b => a.1 ≠ b.1))
    {k : κ} {xs : List α} (member : (k, xs) ∈ entries) : entries.Perm ((k, xs) :: others entries k) := by
  induction entries with
  | nil => simp at member
  | cons entry rest ih =>
    obtain ⟨apart, tail⟩ := List.pairwise_cons.mp distinct
    rcases List.mem_cons.mp member with rfl | later
    · have dropped : others ((k, xs) :: rest) k = rest := by
        rw [others, List.filter_cons_of_neg (by simp)]
        exact others_eq_self apart
      rw [dropped]
    · have other : k ≠ entry.1 := (apart _ later).symm
      have kept : others (entry :: rest) k = entry :: others rest k := by
        rw [others, List.filter_cons_of_pos (by simpa using other), others]
      rw [kept]
      exact ((ih tail later).cons entry).trans (List.Perm.swap _ _ _)

theorem toList_insert_perm_others (groups : Groups κ α) (k : κ) (xs : List α) :
    (groups.insert k xs).toList.Perm ((k, xs) :: others groups.toList k) := by
  refine TreeMap.toList_insert_perm.trans ?_
  simp [others]

theorem drain_push_perm (groups : Groups κ α) (k : κ) (x : α) :
    (drain (push groups k x)).Perm (drain groups ++ [x]) := by
  have pushed : (drain (push groups k x)).Perm
      (group groups k ++ [x] ++ (others groups.toList k).flatMap (·.2)) :=
    (toList_insert_perm_others groups k _).flatMap_right _
  have before : (drain groups).Perm (group groups k ++ (others groups.toList k).flatMap (·.2)) := by
    cases found : groups[k]? with
    | none =>
      have absent : ∀ entry ∈ groups.toList, k ≠ entry.1 := by
        intro entry member same
        have present := TreeMap.mem_toList_iff_getElem?_eq_some.mp member
        rw [← same, found] at present
        cases present
      rw [others_eq_self absent, group, found]
      exact .refl _
    | some xs =>
      have distinct : groups.toList.Pairwise (fun a b => a.1 ≠ b.1) :=
        TreeMap.distinct_keys_toList.imp (fun apart same => apart (LawfulEqOrd.compare_eq_iff_eq.mpr same))
      have split := perm_cons_others distinct (TreeMap.mem_toList_iff_getElem?_eq_some.mpr found)
      rw [group, found]
      exact split.flatMap_right _
  calc drain (push groups k x)
      |>.Perm (group groups k ++ [x] ++ (others groups.toList k).flatMap (·.2)) := pushed
    _ |>.Perm ((group groups k ++ (others groups.toList k).flatMap (·.2)) ++ [x]) := by
      rw [List.append_assoc, List.append_assoc]
      exact List.perm_append_comm.append_left _
    _ |>.Perm (drain groups ++ [x]) := before.symm.append_right _

end Grouping
