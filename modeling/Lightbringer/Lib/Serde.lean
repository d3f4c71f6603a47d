import Lightbringer.Lib.ArrayVec
import Lightbringer.Lib.Bincode

/-!
# Types with a binary form

A type that can be written and read back. What reads a value consumes the bytes of that value and no others, whatever
follows them, so that forms can be put one after another. The forms are `bincode`'s default ones: little-endian numbers
of fixed width, one byte for `Option` and `bool`, four for the variant of an enumeration, eight for a length.
-/

namespace Bincode

class Serde (α : Type) where
  bytes : α → List UInt8
  read : Decoder α
  reads : ∀ raw a rest, read raw = some (a, rest) ↔ raw = bytes a ++ rest

/-- `bincode::serialize`. -/
def serialize {α : Type} [Serde α] (a : α) : List UInt8 := Serde.bytes a

/-- `bincode::deserialize` of the start of the bytes. What follows the value is not looked at. -/
def deserialize {α : Type} [Serde α] (raw : List UInt8) : Option α := (Serde.read raw).map Prod.fst

/-- `bincode::serialize_into` a buffer, which grows as needed. -/
def serializeInto {ε α : Type} [Serde α] (out : List UInt8) (a : α) : Except ε (List UInt8) := .ok (out ++ serialize a)

/-- What follows a value at the start of the bytes. -/
def unread (α : Type) [Serde α] (raw : List UInt8) : List UInt8 := ((Serde.read raw : Option (α × List UInt8)).map Prod.snd).getD []

/-! ### Reading step by step -/

namespace Decoder

variable {α β : Type} {raw rest : List UInt8}

theorem pure_iff {a b : α} : (pure a : Decoder α) raw = some (b, rest) ↔ a = b ∧ raw = rest := by
  rw [show (pure a : Decoder α) raw = some (a, raw) from rfl, Option.some.injEq, Prod.mk.injEq]

theorem failure_iff {b : α} : (failure : Decoder α) raw = some (b, rest) ↔ False := by
  rw [show (failure : Decoder α) raw = none from rfl]
  exact ⟨nofun, False.elim⟩

theorem bind_iff {decoder : Decoder α} {next : α → Decoder β} {b : β} :
    (decoder >>= next) raw = some (b, rest) ↔
      ∃ a tail, decoder raw = some (a, tail) ∧ next a tail = some (b, rest) := by
  rw [show (decoder >>= next) raw = (decoder raw).bind (fun read => next read.1 read.2) from rfl,
    Option.bind_eq_some_iff]
  exact ⟨fun ⟨⟨a, tail⟩, here, later⟩ => ⟨a, tail, here, later⟩, fun ⟨a, tail, here, later⟩ => ⟨(a, tail), here, later⟩⟩

theorem map_iff {decoder : Decoder α} {f : α → β} {b : β} :
    (f <$> decoder) raw = some (b, rest) ↔ ∃ a, decoder raw = some (a, rest) ∧ f a = b := by
  rw [map_eq_pure_bind, bind_iff]
  simp only [pure_iff]
  constructor
  · rintro ⟨a, _, here, rfl, rfl⟩
    exact ⟨a, here, rfl⟩
  · rintro ⟨a, here, rfl⟩
    exact ⟨a, _, here, rfl, rfl⟩

theorem take_iff {width : Nat} {bytes : List UInt8} :
    take width raw = some (bytes, rest) ↔ bytes.length = width ∧ raw = bytes ++ rest := by
  unfold take
  split
  next short =>
    constructor
    · nofun
    · rintro ⟨rfl, rfl⟩
      rw [List.length_append] at short
      omega
  next long =>
    rw [Option.some.injEq, Prod.mk.injEq]
    constructor
    · rintro ⟨rfl, rfl⟩
      exact ⟨by rw [List.length_take]; omega, (List.take_append_drop width raw).symm⟩
    · rintro ⟨rfl, rfl⟩
      exact ⟨List.take_left, List.drop_left⟩

theorem fixed_iff {width n : Nat} :
    fixed width raw = some (n, rest) ↔ n < 256 ^ width ∧ raw = Bincode.fixed width n ++ rest := by
  simp only [fixed, bind_iff, pure_iff, take_iff]
  constructor
  · rintro ⟨bytes, _, ⟨rfl, rfl⟩, rfl, rfl⟩
    have small := Bytes.toNat_lt bytes.reverse
    rw [List.length_reverse] at small
    refine ⟨small, ?_⟩
    have same : Bincode.fixed bytes.length (Bytes.toNat bytes.reverse) = bytes := by
      rw [Bincode.fixed, ← List.reverse_inj, List.reverse_reverse]
      apply Bytes.toNat_inj
      · rw [Bytes.length_ofNat, List.length_reverse]
      · rw [Bytes.toNat_ofNat, Nat.mod_eq_of_lt small]
    rw [same]
  · rintro ⟨small, rfl⟩
    refine ⟨_, _, ⟨length_fixed width n, rfl⟩, ?_, rfl⟩
    rw [Bincode.fixed, List.reverse_reverse, Bytes.toNat_ofNat, Nat.mod_eq_of_lt small]

theorem varint_read {n : Nat} (small : n < 2 ^ 64) (rest : List UInt8) :
    varint (Bincode.varint n ++ rest) = some (n, rest) := by
  have first : ∀ tag < 256, ∀ tail, fixed 1 (Bincode.fixed 1 tag ++ tail) = some (tag, tail) :=
    fun tag small tail => fixed_iff.mpr ⟨small, rfl⟩
  unfold varint Bincode.varint
  rw [bind_iff]
  split
  next tiny => exact ⟨n, rest, first n (by omega) rest, by rw [if_pos tiny]; rfl⟩
  next large =>
  split
  next word =>
    exact ⟨251, Bincode.fixed 2 n ++ rest, first 251 (by decide) _, fixed_iff.mpr ⟨by omega, rfl⟩⟩
  split
  next word =>
    exact ⟨252, Bincode.fixed 4 n ++ rest, first 252 (by decide) _, fixed_iff.mpr ⟨by omega, rfl⟩⟩
  next =>
    exact ⟨253, Bincode.fixed 8 n ++ rest, first 253 (by decide) _, fixed_iff.mpr ⟨by omega, rfl⟩⟩

theorem bounded_varint_read {bits n : Nat} (fits : n < 2 ^ bits) (small : n < 2 ^ 64) (rest : List UInt8) :
    Decoder.bounded bits varint (Bincode.varint n ++ rest) = some (n, rest) := by
  unfold bounded
  rw [bind_iff]
  exact ⟨n, rest, varint_read small rest, by rw [if_pos fits]; rfl⟩

theorem length_varint_le (n : Nat) : (Bincode.varint n).length ≤ 9 := by
  unfold Bincode.varint
  split
  · simp
  split
  · simp
  split <;> simp

/-- A decoder that reads the value off whatever follows it accepts its bytes, and nothing that continues them. -/
theorem whole_of_read {decoder : Decoder α} {limit : Nat} {a : α} (fits : raw.length ≤ limit)
    (reads : ∀ rest, decoder (raw ++ rest) = some (a, rest)) :
    whole decoder limit raw = some a ∧ ∀ extra ≠ [], whole decoder limit (raw ++ extra) = none := by
  constructor
  · have read := reads []
    rw [List.append_nil] at read
    unfold whole
    rw [if_neg (Nat.not_lt.mpr fits), read]
  · intro extra more
    unfold whole
    rw [reads extra]
    split
    · rfl
    · cases extra with
      | nil => exact (more rfl).elim
      | cons byte extra => rfl

end Decoder

section

variable {α β : Type} [Serde α] {raw rest : List UInt8}

theorem deserialize_iff {a : α} : deserialize raw = some a ↔ ∃ rest, raw = serialize a ++ rest := by
  rw [deserialize, Option.map_eq_some_iff]
  constructor
  · rintro ⟨⟨_, rest⟩, here, rfl⟩
    exact ⟨rest, (Serde.reads _ _ _).mp here⟩
  · rintro ⟨rest, here⟩
    exact ⟨(a, rest), (Serde.reads _ _ _).mpr here, rfl⟩

theorem unread_append (a : α) (rest : List UInt8) : unread α (serialize a ++ rest) = rest := by
  have taken : Serde.read (serialize a ++ rest) = some (a, rest) := (Serde.reads _ _ _).mpr rfl
  rw [unread, taken]
  rfl

/-- One value after another. -/
theorem read_bind_iff {next : α → Decoder β} {b : β} :
    (Serde.read >>= next) raw = some (b, rest) ↔
      ∃ a tail, raw = Serde.bytes a ++ tail ∧ next a tail = some (b, rest) := by
  simp only [Decoder.bind_iff, Serde.reads]

theorem fixed_bind_iff {width : Nat} {next : Nat → Decoder β} {b : β} :
    (Decoder.fixed width >>= next) raw = some (b, rest) ↔
      ∃ n tail, (n < 256 ^ width ∧ raw = fixed width n ++ tail) ∧ next n tail = some (b, rest) := by
  simp only [Decoder.bind_iff, Decoder.fixed_iff]

end

/-! ### Numbers and byte arrays -/

namespace Serde

/-- A type whose values are the numbers of one width. -/
@[reducible] def number {α : Type} (width : Nat) (toNat : α → Nat) (ofNat : Nat → α) (small : ∀ a, toNat a < 256 ^ width)
    (left : ∀ a, ofNat (toNat a) = a) (right : ∀ n < 256 ^ width, toNat (ofNat n) = n) : Serde α where
  bytes a := fixed width (toNat a)
  read := do return ofNat (← Decoder.fixed width)
  reads raw a rest := by
    rw [fixed_bind_iff]
    simp only [Decoder.pure_iff]
    constructor
    · rintro ⟨n, tail, ⟨bound, rfl⟩, rfl, rfl⟩
      rw [right n bound]
    · rintro rfl
      exact ⟨toNat a, rest, ⟨small a, rfl⟩, left a, rfl⟩

instance : Serde UInt16 :=
  number 2 UInt16.toNat UInt16.ofNat UInt16.toNat_lt (fun _ => UInt16.ofNat_toNat)
    (fun _ small => UInt16.toNat_ofNat_of_lt' small)

instance : Serde UInt32 :=
  number 4 UInt32.toNat UInt32.ofNat UInt32.toNat_lt (fun _ => UInt32.ofNat_toNat)
    (fun _ small => UInt32.toNat_ofNat_of_lt' small)

instance : Serde UInt64 :=
  number 8 UInt64.toNat UInt64.ofNat UInt64.toNat_lt (fun _ => UInt64.ofNat_toNat)
    (fun _ small => UInt64.toNat_ofNat_of_lt' small)

/-- An array of bytes, as the number it spells from the most significant byte on. -/
@[reducible] def octets (width : Nat) : Serde (BitVec (8 * width)) where
  bytes word := Bytes.ofNat width word.toNat
  read := do return BitVec.ofNat (8 * width) (Bytes.toNat (← Decoder.take width))
  reads raw word rest := by
    have range : 2 ^ (8 * width) = 256 ^ width := by rw [Nat.pow_mul]
    simp only [Decoder.bind_iff, Decoder.pure_iff, Decoder.take_iff]
    constructor
    · rintro ⟨bytes, _, ⟨rfl, rfl⟩, rfl, rfl⟩
      have small := Bytes.toNat_lt bytes
      have same : Bytes.ofNat bytes.length (Bytes.toNat bytes) = bytes :=
        Bytes.toNat_inj (Bytes.length_ofNat _ _) (by rw [Bytes.toNat_ofNat, Nat.mod_eq_of_lt small])
      rw [BitVec.toNat_ofNat, range, Nat.mod_eq_of_lt small, same]
    · rintro rfl
      have small := word.isLt
      rw [range] at small
      refine ⟨_, _, ⟨Bytes.length_ofNat _ _, rfl⟩, ?_, rfl⟩
      rw [Bytes.toNat_ofNat, Nat.mod_eq_of_lt small, BitVec.ofNat_toNat, BitVec.setWidth_eq]

/-- An array of bytes as it stands. -/
instance array (width : Nat) : Serde { bytes : List UInt8 // bytes.length = width } where
  bytes array := array.val
  read := fun raw =>
    match take : Decoder.take width raw with
    | none => none
    | some (bytes, rest) => some (⟨bytes, (Decoder.take_iff.mp take).1⟩, rest)
  reads raw array rest := by
    obtain ⟨bytes, length⟩ := array
    split
    next refused =>
      constructor
      · nofun
      · rintro rfl
        rw [Decoder.take_iff.mpr ⟨length, rfl⟩] at refused
        cases refused
    next taken tail took =>
      obtain ⟨_, rfl⟩ := Decoder.take_iff.mp took
      simp only [Option.some.injEq, Prod.mk.injEq, Subtype.mk.injEq]
      constructor
      · rintro ⟨rfl, rfl⟩
        rfl
      · rintro same
        exact List.append_inj same (by rw [length]; assumption)

/-! ### Choices -/

/-- A number that says which variant it is, and what the variant carries. -/
@[reducible] def enumeration {γ : Type} (width : Nat) (tag : γ → Nat) (content : γ → List UInt8) (variant : Nat → Decoder γ)
    (small : ∀ c, tag c < 256 ^ width)
    (reads : ∀ n raw c rest, variant n raw = some (c, rest) ↔ tag c = n ∧ raw = content c ++ rest) : Serde γ where
  bytes c := fixed width (tag c) ++ content c
  read := do variant (← Decoder.fixed width)
  reads raw c rest := by
    simp only [fixed_bind_iff, reads]
    constructor
    · rintro ⟨_, _, ⟨_, rfl⟩, rfl, rfl⟩
      rw [List.append_assoc]
    · rintro rfl
      exact ⟨_, _, ⟨small c, List.append_assoc ..⟩, rfl, rfl⟩

instance : Serde Bool :=
  enumeration 1 Bool.toNat (fun _ => [])
    (fun
      | 0 => return false
      | 1 => return true
      | _ => failure)
    (fun b => b.toNat_lt.trans (by decide))
    (by
      intro n raw b rest
      rcases n with _ | _ | n <;> cases b <;> simp [Decoder.pure_iff, Decoder.failure_iff])

variable {α β γ : Type} [Serde α] [Serde β]

instance : Serde (Option α) :=
  enumeration 1 (fun a => a.isSome.toNat) (fun a => a.elim [] bytes)
    (fun
      | 0 => return none
      | 1 => some <$> read
      | _ => failure)
    (fun a => a.isSome.toNat_lt.trans (by decide))
    (by
      intro n raw a rest
      rcases n with _ | _ | n <;> cases a <;>
        simp [Decoder.pure_iff, Decoder.failure_iff, Decoder.map_iff, reads])

instance : Serde (α × β) where
  bytes pair := bytes pair.1 ++ bytes pair.2
  read := do return (← read, ← read)
  reads raw pair rest := by
    simp only [read_bind_iff, Decoder.pure_iff]
    constructor
    · rintro ⟨a, _, rfl, b, _, rfl, rfl, rfl⟩
      rw [List.append_assoc]
    · rintro rfl
      exact ⟨pair.1, _, List.append_assoc .., pair.2, _, rfl, rfl, rfl⟩

/-- Another type with the same content. -/
@[reducible] def via (pack : α → γ) (unpack : γ → α) (left : ∀ b, pack (unpack b) = b) (right : ∀ a, unpack (pack a) = a) :
    Serde γ where
  bytes b := bytes (unpack b)
  read := do return pack (← read)
  reads raw b rest := by
    simp only [read_bind_iff, Decoder.pure_iff]
    constructor
    · rintro ⟨a, _, rfl, rfl, rfl⟩
      rw [right]
    · rintro rfl
      exact ⟨unpack b, _, rfl, left b, rfl⟩

/-- The unit carries nothing. -/
instance : Serde Unit where
  bytes _ := []
  read := return ()
  reads raw a rest := by simp [Decoder.pure_iff]

/-- An enumeration of two variants. -/
instance : Serde (α ⊕ β) :=
  enumeration 4 (fun c => c.isRight.toNat) (Sum.elim bytes bytes)
    (fun
      | 0 => Sum.inl <$> read
      | 1 => Sum.inr <$> read
      | _ => failure)
    (fun c => c.isRight.toNat_lt.trans (by decide))
    (by
      intro n raw c rest
      rcases n with _ | _ | n <;> cases c <;>
        simp [Decoder.failure_iff, Decoder.map_iff, reads])

/-! ### Sequences -/

/-- So many values. -/
def readMany : Nat → Decoder (List α)
  | 0 => return []
  | n + 1 => do return (← read) :: (← readMany n)

theorem readMany_iff {n : Nat} {raw rest : List UInt8} {xs : List α} :
    readMany n raw = some (xs, rest) ↔ xs.length = n ∧ raw = xs.flatMap bytes ++ rest := by
  induction n generalizing raw rest xs with
  | zero =>
    rw [readMany, Decoder.pure_iff, List.length_eq_zero_iff]
    constructor
    · rintro ⟨rfl, rfl⟩
      exact ⟨rfl, rfl⟩
    · rintro ⟨rfl, rfl⟩
      exact ⟨rfl, rfl⟩
  | succ n ih =>
    simp only [readMany, Decoder.bind_iff, reads, Decoder.pure_iff, ih]
    constructor
    · rintro ⟨x, _, rfl, ys, _, ⟨rfl, rfl⟩, rfl, rfl⟩
      exact ⟨rfl, by rw [List.flatMap_cons, List.append_assoc]⟩
    · rintro ⟨length, rfl⟩
      cases xs with
      | nil => cases length
      | cons x xs =>
        exact ⟨x, _, by rw [List.flatMap_cons, List.append_assoc], xs, _, ⟨Nat.succ.inj length, rfl⟩, rfl, rfl⟩

/-- The length and then the items; a sequence that does not fit the capacity is refused. -/
@[reducible] def arrayVec (cap : Nat) (small : cap < 256 ^ 8) : Serde (ArrayVec α cap) where
  bytes v := fixed 8 v.items.length ++ v.items.flatMap bytes
  read := do
    let length ← Decoder.fixed 8
    let items ← readMany length
    if fits : items.length ≤ cap then return ⟨items, fits⟩ else failure
  reads raw v rest := by
    simp only [Decoder.bind_iff, Decoder.fixed_iff, readMany_iff]
    constructor
    · rintro ⟨_, _, ⟨_, rfl⟩, items, _, ⟨rfl, rfl⟩, last⟩
      split at last
      · obtain ⟨rfl, rfl⟩ := Decoder.pure_iff.mp last
        rw [List.append_assoc]
      · exact (Decoder.failure_iff.mp last).elim
    · rintro rfl
      refine ⟨_, _, ⟨Nat.lt_of_le_of_lt v.fits small, List.append_assoc ..⟩, v.items, rest, ⟨rfl, rfl⟩, ?_⟩
      rw [dif_pos v.fits, Decoder.pure_iff]
      exact ⟨rfl, rfl⟩

end Serde

end Bincode
