import Lightbringer.Lib.Bytes

/-!
# Bincode

The layout `bincode` documents for numbers, in its fixed-width and its variable-width form. A decoder consumes a prefix
of the bytes it is given.
-/

namespace Bincode

/-- The lowest bytes of a number, least significant first. -/
def fixed (width n : Nat) : List UInt8 := (Bytes.ofNat width n).reverse

/-- The variable-width form of a 64-bit number. -/
def varint (n : Nat) : List UInt8 :=
  if n ≤ 250 then fixed 1 n
  else if n < 2 ^ 16 then 251 :: fixed 2 n
  else if n < 2 ^ 32 then 252 :: fixed 4 n
  else 253 :: fixed 8 n

/-! ### Codes that say where they end -/

@[simp] theorem length_fixed (width n : Nat) : (fixed width n).length = width := by
  rw [fixed, List.length_reverse, Bytes.length_ofNat]

theorem fixed_inj {width n m : Nat} {rest rest' : List UInt8} (small : n < 256 ^ width) (small' : m < 256 ^ width)
    (same : fixed width n ++ rest = fixed width m ++ rest') : n = m ∧ rest = rest' := by
  obtain ⟨bytes, rests⟩ := List.append_inj same (by rw [length_fixed, length_fixed])
  refine ⟨?_, rests⟩
  have numbers := congrArg Bytes.toNat (List.reverse_inj.mp bytes)
  rwa [Bytes.toNat_ofNat, Bytes.toNat_ofNat, Nat.mod_eq_of_lt small, Nat.mod_eq_of_lt small'] at numbers

theorem ofNat_inj (width : Nat) {n m : Nat} {rest rest' : List UInt8} (small : n < 256 ^ width) (small' : m < 256 ^ width)
    (same : Bytes.ofNat width n ++ rest = Bytes.ofNat width m ++ rest') : n = m ∧ rest = rest' := by
  obtain ⟨bytes, rests⟩ := List.append_inj same (by rw [Bytes.length_ofNat, Bytes.length_ofNat])
  refine ⟨?_, rests⟩
  have numbers := congrArg Bytes.toNat bytes
  rwa [Bytes.toNat_ofNat, Bytes.toNat_ofNat, Nat.mod_eq_of_lt small, Nat.mod_eq_of_lt small'] at numbers

/-- A value can be told from what follows it. -/
def Delimited {α : Type*} (bytes : α → List UInt8) : Prop :=
  ∀ {a b : α} {rest rest' : List UInt8}, bytes a ++ rest = bytes b ++ rest' → a = b ∧ rest = rest'

theorem delimited_flatMap {α : Type*} {bytes : α → List UInt8} (each : Delimited bytes) {xs ys : List α}
    {rest rest' : List UInt8} (length : xs.length = ys.length)
    (same : xs.flatMap bytes ++ rest = ys.flatMap bytes ++ rest') : xs = ys ∧ rest = rest' := by
  induction xs generalizing ys with
  | nil =>
    rw [List.eq_nil_of_length_eq_zero length.symm] at same ⊢
    exact ⟨rfl, same⟩
  | cons x xs ih =>
    cases ys with
    | nil => cases length
    | cons y ys =>
      rw [List.flatMap_cons, List.flatMap_cons, List.append_assoc, List.append_assoc] at same
      obtain ⟨rfl, later⟩ := each same
      obtain ⟨rfl, rests⟩ := ih (Nat.succ.inj length) later
      exact ⟨rfl, rests⟩

/-! ### Decoding -/

abbrev Decoder := StateT (List UInt8) Option

namespace Decoder

def take (width : Nat) : Decoder (List UInt8) := fun bytes =>
  if bytes.length < width then none else some (bytes.take width, bytes.drop width)

def fixed (width : Nat) : Decoder Nat := do return Bytes.toNat (← take width).reverse

def varint : Decoder Nat := do
  let byte ← fixed 1
  if byte ≤ 250 then return byte
  else if byte = 251 then fixed 2
  else if byte = 252 then fixed 4
  else if byte = 253 then fixed 8
  else failure

/-- A number that has to fit the given number of bits. -/
def bounded (bits : Nat) (decoder : Decoder Nat) : Decoder Nat := do
  let n ← decoder
  if n < 2 ^ bits then return n else failure

/-- Everything is consumed, and it is not more than `limit`. -/
def whole {α : Type} (decoder : Decoder α) (limit : Nat) (raw : List UInt8) : Option α :=
  if limit < raw.length then none
  else
    match decoder raw with
    | some (value, []) => some value
    | _ => none

end Decoder

end Bincode
