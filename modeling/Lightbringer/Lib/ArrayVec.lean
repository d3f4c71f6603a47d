import Mathlib.Data.List.Basic

/-!
# Lists of bounded length
-/

structure ArrayVec (α : Type*) (cap : Nat) where
  items : List α
  fits : items.length ≤ cap
  deriving DecidableEq

namespace ArrayVec

variable {α : Type*} {cap : Nat}

def empty : ArrayVec α cap := ⟨[], Nat.zero_le cap⟩

/-- What is full stays as it is. -/
def tryPush (v : ArrayVec α cap) (x : α) : ArrayVec α cap :=
  if room : v.items.length < cap then ⟨v.items ++ [x], List.length_append ▸ room⟩ else v

/-- Pushes what is not there yet. -/
def pushNew [DecidableEq α] (v : ArrayVec α cap) (x : α) : ArrayVec α cap := if x ∈ v.items then v else v.tryPush x

/-- Takes an element out and puts it first. -/
def moveToFront [DecidableEq α] (v : ArrayVec α cap) (x : α) : ArrayVec α cap :=
  if there : x ∈ v.items then
    ⟨x :: v.items.erase x, by
      have pos := List.length_pos_of_mem there
      have fits := v.fits
      rw [List.length_cons, List.length_erase_of_mem there]
      omega⟩
  else v

end ArrayVec
