import Mathlib.Data.List.Induction
import Mathlib.Tactic.Ring

/-!
# Byte strings as numbers

Byte strings of one length are ordered as the big-endian numbers they spell.
-/

namespace Bytes

def toNat (bytes : List UInt8) : Nat := bytes.foldl (fun n byte => n * 256 + byte.toNat) 0

/-- The lowest bytes of a number, most significant first. -/
def ofNat : Nat → Nat → List UInt8
  | 0, _ => []
  | width + 1, n => ofNat width (n / 256) ++ [UInt8.ofNat n]

@[simp] theorem length_ofNat (width n : Nat) : (ofNat width n).length = width := by
  induction width generalizing n with
  | zero => rfl
  | succ width ih => rw [ofNat, List.length_append, ih, List.length_singleton]

theorem toNat_concat (bytes : List UInt8) (byte : UInt8) :
    toNat (bytes ++ [byte]) = toNat bytes * 256 + byte.toNat := by
  rw [toNat, List.foldl_append]
  rfl

theorem toNat_append (high low : List UInt8) : toNat (high ++ low) = toNat high * 256 ^ low.length + toNat low := by
  induction low using List.reverseRecOn with
  | nil => simp [toNat]
  | append_singleton low byte ih =>
    rw [← List.append_assoc, toNat_concat, toNat_concat, ih, List.length_append, List.length_singleton, Nat.pow_succ]
    ring

theorem toNat_lt (bytes : List UInt8) : toNat bytes < 256 ^ bytes.length := by
  induction bytes using List.reverseRecOn with
  | nil => exact Nat.one_pos
  | append_singleton bytes byte ih =>
    have small := byte.toNat_lt
    rw [toNat_concat, List.length_append, List.length_singleton, Nat.pow_succ]
    omega

theorem toNat_ofNat (width n : Nat) : toNat (ofNat width n) = n % 256 ^ width := by
  induction width generalizing n with
  | zero => rw [Nat.pow_zero, Nat.mod_one]; rfl
  | succ width ih =>
    have low : (UInt8.ofNat n).toNat = n % 256 := UInt8.toNat_ofNat'
    rw [ofNat, toNat_concat, ih, low, Nat.pow_succ, Nat.mul_comm (256 ^ width), Nat.mod_mul]
    omega

theorem toNat_inj {bytes other : List UInt8} (length : bytes.length = other.length) (same : toNat bytes = toNat other) :
    bytes = other := by
  induction bytes using List.reverseRecOn generalizing other with
  | nil => exact (List.eq_nil_of_length_eq_zero length.symm).symm
  | append_singleton bytes byte ih =>
    rcases List.eq_nil_or_concat other with rfl | ⟨other, last, rfl⟩
    · simp at length
    have small := byte.toNat_lt
    have small' := last.toNat_lt
    rw [List.concat_eq_append] at length same ⊢
    rw [toNat_concat, toNat_concat] at same
    rw [ih (by simpa using length) (by omega), UInt8.toNat_inj.mp (show byte.toNat = last.toNat by omega)]

theorem toNat_cons (byte : UInt8) (bytes : List UInt8) :
    toNat (byte :: bytes) = byte.toNat * 256 ^ bytes.length + toNat bytes := by
  have split := toNat_append [byte] bytes
  rwa [List.singleton_append, show toNat [byte] = byte.toNat by simp [toNat]] at split

/-- Byte order is the order of the numbers. -/
theorem lt_iff_toNat_lt {bytes other : List UInt8} (length : bytes.length = other.length) :
    bytes < other ↔ toNat bytes < toNat other := by
  induction bytes generalizing other with
  | nil =>
    rw [List.eq_nil_of_length_eq_zero length.symm]
    exact iff_of_false (List.lt_irrefl _) (Nat.lt_irrefl _)
  | cons byte bytes ih =>
    cases other with
    | nil => cases length
    | cons first rest =>
      have same : bytes.length = rest.length := Nat.succ.inj length
      have low := toNat_lt bytes
      have low' := toNat_lt rest
      rw [List.cons_lt_cons_iff, ih same, toNat_cons, toNat_cons, same]
      rw [same] at low
      constructor
      · rintro (less | ⟨rfl, less⟩)
        · have ahead := Nat.mul_le_mul_right (256 ^ rest.length) (Nat.succ_le_of_lt (UInt8.lt_iff_toNat_lt.mp less))
          rw [Nat.succ_mul] at ahead
          omega
        · omega
      · intro less
        rcases Nat.lt_trichotomy byte.toNat first.toNat with below | equal | above
        · exact .inl (UInt8.lt_iff_toNat_lt.mpr below)
        · refine .inr ⟨UInt8.toNat_inj.mp equal, ?_⟩
          rw [equal] at less
          omega
        · have ahead := Nat.mul_le_mul_right (256 ^ rest.length) (Nat.succ_le_of_lt above)
          rw [Nat.succ_mul] at ahead
          omega

end Bytes
