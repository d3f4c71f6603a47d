import Mathlib.Algebra.GroupWithZero.Nat
import Mathlib.Data.List.Basic

/-!
# UTF-8

Text as the characters its bytes decode to. Bytes are read one at a time, and the state in between says what may still
follow. What has been decoded stays as it is when more bytes come.
-/

namespace Utf8

/-- Between characters, or within one: the next byte lies in these bounds, and after it this many are left. -/
inductive State where
  | start
  | within (left : Nat) (low high : UInt8) (code : Nat)

/-- The first byte of a character of more than one. -/
def lead (b : UInt8) : Option State :=
  if 0xC2 ≤ b && b ≤ 0xDF then some (.within 0 0x80 0xBF (b.toNat - 0xC0))
  else if b = 0xE0 then some (.within 1 0xA0 0xBF 0)
  else if b = 0xED then some (.within 1 0x80 0x9F 0xD)
  else if 0xE1 ≤ b && b ≤ 0xEF then some (.within 1 0x80 0xBF (b.toNat - 0xE0))
  else if b = 0xF0 then some (.within 2 0x90 0xBF 0)
  else if 0xF1 ≤ b && b ≤ 0xF3 then some (.within 2 0x80 0xBF (b.toNat - 0xF0))
  else if b = 0xF4 then some (.within 2 0x80 0x8F 4)
  else none

/-- One byte: the state after it, with the character it ends. -/
def next : State → UInt8 → Option (State × List Char)
  | .start, b => if b < 0x80 then some (.start, [.ofNat b.toNat]) else (lead b).map (fun state => (state, []))
  | .within left low high code, b =>
    if low ≤ b && b ≤ high then
      let code := code * 64 + (b.toNat - 0x80)
      match left with
      | 0 => some (.start, [.ofNat code])
      | left + 1 => some (.within left 0x80 0xBF code, [])
    else none

def decodeFrom : List UInt8 → State → Option (List Char)
  | [], .start => some []
  | [], .within .. => none
  | b :: rest, state =>
    match next state b with
    | none => none
    | some (state, ended) => (decodeFrom rest state).map (fun chars => ended ++ chars)

/-- The text of the bytes, if they are text. -/
def decode (bytes : List UInt8) : Option (List Char) := decodeFrom bytes .start

theorem decodeFrom_append {bytes : List UInt8} {state : State} {chars : List Char}
    (read : decodeFrom bytes state = some chars) (more : List UInt8) :
    decodeFrom (bytes ++ more) state = (decode more).map (fun later => chars ++ later) := by
  induction bytes generalizing state chars with
  | nil =>
    cases state with
    | start =>
      obtain rfl := Option.some.inj read
      simp [decode]
    | within => cases read
  | cons b rest ih =>
    rw [List.cons_append, decodeFrom]
    rw [decodeFrom] at read
    cases step : next state b with
    | none =>
      rw [step] at read
      cases read
    | some pair =>
      rw [step] at read
      obtain ⟨tail, later, rfl⟩ := Option.map_eq_some_iff.mp read
      dsimp only
      rw [ih later, Option.map_map]
      simp only [Function.comp_def, List.append_assoc]

theorem decode_append {bytes : List UInt8} {chars : List Char} (read : decode bytes = some chars) (more : List UInt8) :
    decode (bytes ++ more) = (decode more).map (fun later => chars ++ later) := decodeFrom_append read more

/-! ### Bytes of text -/

/-- How many bytes the text takes. -/
def byteLength (text : List Char) : Nat := (text.map Char.utf8Size).sum

/-- The text of the first `n` bytes, if a character ends there. -/
def takeBytes : Nat → List Char → Option (List Char)
  | 0, _ => some []
  | _ + 1, [] => none
  | n + 1, c :: rest => if c.utf8Size ≤ n + 1 then (takeBytes (n + 1 - c.utf8Size) rest).map (c :: ·) else none

/-- The text after the first `n` bytes, if a character ends there. -/
def dropBytes : Nat → List Char → Option (List Char)
  | 0, text => some text
  | _ + 1, [] => none
  | n + 1, c :: rest => if c.utf8Size ≤ n + 1 then dropBytes (n + 1 - c.utf8Size) rest else none

@[simp] theorem byteLength_cons (c : Char) (text : List Char) :
    byteLength (c :: text) = c.utf8Size + byteLength text := by
  simp [byteLength]

theorem byteLength_append (text more : List Char) : byteLength (text ++ more) = byteLength text + byteLength more := by
  simp [byteLength]

theorem byteLength_le (text : List Char) : byteLength text ≤ text.length * 4 := by
  induction text with
  | nil => exact Nat.zero_le _
  | cons c rest ih =>
    have size := c.utf8Size_le_four
    rw [byteLength_cons, List.length_cons]
    omega

/-- More text does not move the characters. -/
theorem takeBytes_append {n : Nat} {text : List Char} (enough : n ≤ byteLength text) (more : List Char) :
    takeBytes n (text ++ more) = takeBytes n text := by
  induction text generalizing n with
  | nil =>
    obtain rfl := Nat.le_zero.mp enough
    cases more <;> rfl
  | cons c rest ih =>
    cases n with
    | zero => rfl
    | succ n =>
      have smaller : n + 1 - c.utf8Size ≤ byteLength rest := by
        rw [byteLength_cons] at enough
        omega
      rw [List.cons_append, takeBytes, takeBytes, ih smaller]

theorem takeBytes_byteLength (before after : List Char) :
    takeBytes (byteLength before) (before ++ after) = some before := by
  induction before with
  | nil => cases after <;> rfl
  | cons c rest ih =>
    obtain ⟨n, size⟩ : ∃ n, c.utf8Size + byteLength rest = n + 1 :=
      Nat.exists_eq_succ_of_ne_zero (Nat.ne_of_gt (Nat.add_pos_left c.utf8Size_pos _))
    have left : n + 1 - c.utf8Size = byteLength rest := by omega
    rw [byteLength_cons, size, List.cons_append, takeBytes, if_pos (by omega), left, ih, Option.map_some]

theorem dropBytes_byteLength (before after : List Char) :
    dropBytes (byteLength before) (before ++ after) = some after := by
  induction before with
  | nil => cases after <;> rfl
  | cons c rest ih =>
    obtain ⟨n, size⟩ : ∃ n, c.utf8Size + byteLength rest = n + 1 :=
      Nat.exists_eq_succ_of_ne_zero (Nat.ne_of_gt (Nat.add_pos_left c.utf8Size_pos _))
    have left : n + 1 - c.utf8Size = byteLength rest := by omega
    rw [byteLength_cons, size, List.cons_append, dropBytes, if_pos (by omega), left, ih]

/-- A position is the end of a character, or not. -/
theorem takeBytes_eq_some {n : Nat} {text before : List Char} (taken : takeBytes n text = some before) :
    before <+: text ∧ byteLength before = n := by
  induction text generalizing n before with
  | nil =>
    cases n with
    | zero =>
      cases taken
      exact ⟨List.nil_prefix, rfl⟩
    | succ n => cases taken
  | cons c rest ih =>
    cases n with
    | zero =>
      cases taken
      exact ⟨List.nil_prefix, rfl⟩
    | succ n =>
      rw [takeBytes] at taken
      split at taken
      next fits =>
        obtain ⟨more, later, rfl⟩ := Option.map_eq_some_iff.mp taken
        obtain ⟨prefixed, length⟩ := ih later
        refine ⟨List.cons_prefix_cons.mpr ⟨rfl, prefixed⟩, ?_⟩
        rw [byteLength_cons, length]
        omega
      · cases taken

theorem takeBytes_eq_none_iff (n : Nat) (text : List Char) :
    takeBytes n text = none ↔ ∀ before, before <+: text → byteLength before ≠ n := by
  constructor
  · rintro none before ⟨after, rfl⟩ rfl
    rw [takeBytes_byteLength] at none
    cases none
  · intro within
    cases taken : takeBytes n text with
    | none => rfl
    | some before =>
      obtain ⟨prefixed, length⟩ := takeBytes_eq_some taken
      exact (within before prefixed length).elim

/-! ### Searching -/

/-- The position of the first match of the pattern, in bytes. -/
def find (pattern : List Char) : List Char → Option Nat
  | [] => if pattern = [] then some 0 else none
  | c :: rest =>
    if (c :: rest).take pattern.length = pattern then some 0 else (find pattern rest).map (c.utf8Size + ·)

/-- The text before the first match of the pattern and the text after it. -/
def split (pattern : List Char) : List Char → Option (List Char × List Char)
  | [] => if pattern = [] then some ([], []) else none
  | c :: rest =>
    if (c :: rest).take pattern.length = pattern then some ([], (c :: rest).drop pattern.length)
    else (split pattern rest).map (fun (before, after) => (c :: before, after))

theorem split_eq {pattern text before after : List Char} (found : split pattern text = some (before, after)) :
    text = before ++ pattern ++ after := by
  induction text generalizing before with
  | nil =>
    unfold split at found
    split at found
    next empty =>
      cases found
      simp [empty]
    · cases found
  | cons c rest ih =>
    unfold split at found
    split at found
    next here =>
      cases found
      rw [List.nil_append]
      conv_lhs => rw [← List.take_append_drop pattern.length (c :: rest), here]
    · obtain ⟨⟨before, after⟩, later, same⟩ := Option.map_eq_some_iff.mp found
      cases same
      rw [List.cons_append, List.cons_append, ← ih later]

/-- A match begins between characters. -/
theorem find_eq_split (pattern text : List Char) :
    find pattern text = (split pattern text).map (fun (before, _) => byteLength before) := by
  induction text with
  | nil =>
    unfold find split
    split
    · rfl
    · rfl
  | cons c rest ih =>
    unfold find split
    split
    · rfl
    · rw [ih, Option.map_map, Option.map_map]
      congr 1

theorem split_append {pattern text before after : List Char} (found : split pattern text = some (before, after))
    (more : List Char) : split pattern (text ++ more) = some (before, after ++ more) := by
  induction text generalizing before with
  | nil =>
    unfold split at found
    split at found
    next empty =>
      subst empty
      cases found
      cases more <;> rfl
    · cases found
  | cons c rest ih =>
    rw [List.cons_append]
    unfold split at found ⊢
    split at found
    next here =>
      have long : pattern.length ≤ (c :: rest).length := by
        rw [← here, List.length_take]
        exact Nat.min_le_right _ _
      cases found
      rw [← List.cons_append, List.take_append_of_le_length long, if_pos here, List.drop_append_of_le_length long]
    next away =>
      obtain ⟨⟨before, after⟩, later, same⟩ := Option.map_eq_some_iff.mp found
      cases same
      have long : pattern.length ≤ (c :: rest).length := by
        rw [split_eq later]
        simp only [List.length_cons, List.length_append]
        omega
      rw [← List.cons_append, List.take_append_of_le_length long, if_neg away, ih later]
      rfl

/-! ### Encoding -/

/-- The bytes of the text. -/
def encode (text : List Char) : List UInt8 := text.flatMap String.utf8EncodeChar

theorem length_encode (text : List Char) : (encode text).length = byteLength text := by
  rw [encode, List.length_flatMap, byteLength]
  simp only [String.length_utf8EncodeChar]

/-- A first byte, by its value. -/
theorem lead_eq {b : UInt8} {n : Nat} (value : b.toNat = n) :
    lead b = if 0xC2 ≤ n ∧ n ≤ 0xDF then some (.within 0 0x80 0xBF (n - 0xC0))
      else if n = 0xE0 then some (.within 1 0xA0 0xBF 0)
      else if n = 0xED then some (.within 1 0x80 0x9F 0xD)
      else if 0xE1 ≤ n ∧ n ≤ 0xEF then some (.within 1 0x80 0xBF (n - 0xE0))
      else if n = 0xF0 then some (.within 2 0x90 0xBF 0)
      else if 0xF1 ≤ n ∧ n ≤ 0xF3 then some (.within 2 0x80 0xBF (n - 0xF0))
      else if n = 0xF4 then some (.within 2 0x80 0x8F 4)
      else none := by
  subst value
  unfold lead
  simp only [Bool.and_eq_true, decide_eq_true_eq, UInt8.le_iff_toNat_le, ← UInt8.toNat_inj]
  rfl

theorem next_start_wide {b : UInt8} (wide : 0x80 ≤ b.toNat) : next .start b = (lead b).map (fun state => (state, [])) := by
  have apart : ¬ b < 0x80 := by
    rw [UInt8.lt_iff_toNat_lt]
    exact Nat.not_lt.mpr wide
  rw [next, if_neg apart]

/-- A byte of a character that has been begun. -/
theorem decodeFrom_within {left code : Nat} {low high b : UInt8} (above : low.toNat ≤ b.toNat)
    (below : b.toNat ≤ high.toNat) (rest : List UInt8) :
    decodeFrom (b :: rest) (.within left low high code) = (match left with
      | 0 => (decodeFrom rest .start).map (fun chars => .ofNat (code * 64 + (b.toNat - 0x80)) :: chars)
      | left + 1 => decodeFrom rest (.within left 0x80 0xBF (code * 64 + (b.toNat - 0x80)))) := by
  have inside : (low ≤ b && b ≤ high) = true := by
    simp only [Bool.and_eq_true, decide_eq_true_eq, UInt8.le_iff_toNat_le]
    exact ⟨above, below⟩
  rw [decodeFrom, next, if_pos inside]
  cases left with
  | zero => rfl
  | succ left => simp

/-- The first byte of a character of more than one. -/
theorem decodeFrom_lead {b : UInt8} {state : State} (wide : 0x80 ≤ b.toNat) (leads : lead b = some state)
    (rest : List UInt8) : decodeFrom (b :: rest) .start = decodeFrom rest state := by
  rw [decodeFrom, next_start_wide wide, leads]
  simp

/-- A continuation byte. -/
theorem toNat_continuation (n : Nat) : (UInt8.ofNat (n % 0x40 + 0x80)).toNat = n % 64 + 0x80 := by
  rw [UInt8.toNat_ofNat']
  omega

theorem decodeFrom_continuation {left code : Nat} (n : Nat) (rest : List UInt8) :
    decodeFrom (UInt8.ofNat (n % 0x40 + 0x80) :: rest) (.within left 0x80 0xBF code) = (match left with
      | 0 => (decodeFrom rest .start).map (fun chars => .ofNat (code * 64 + n % 64) :: chars)
      | left + 1 => decodeFrom rest (.within left 0x80 0xBF (code * 64 + n % 64))) := by
  have value := toNat_continuation n
  have above : (0x80 : UInt8).toNat ≤ (UInt8.ofNat (n % 0x40 + 0x80)).toNat := by
    rw [value]
    exact Nat.le_add_left _ _
  have below : (UInt8.ofNat (n % 0x40 + 0x80)).toNat ≤ (0xBF : UInt8).toNat := by
    rw [value]
    show _ ≤ 0xBF
    omega
  rw [decodeFrom_within above below, value, Nat.add_sub_cancel]

section
variable {n : Nat} (rest : List UInt8)

theorem decodeFrom_two (low : 0x80 ≤ n) (high : n ≤ 0x7FF) :
    decodeFrom (UInt8.ofNat (n / 64 % 0x20 + 0xC0) :: UInt8.ofNat (n % 0x40 + 0x80) :: rest) .start =
      (decodeFrom rest .start).map (fun chars => .ofNat n :: chars) := by
  have first : (UInt8.ofNat (n / 64 % 0x20 + 0xC0)).toNat = n / 64 + 0xC0 := by
    rw [UInt8.toNat_ofNat']
    omega
  have leads := lead_eq first
  rw [if_pos (by omega), Nat.add_sub_cancel] at leads
  have code : n / 64 * 64 + n % 64 = n := by omega
  rw [decodeFrom_lead (by omega) leads, decodeFrom_continuation n]
  dsimp only
  rw [code]

/-- The second byte keeps out what takes two bytes, and what no character has. -/
theorem decodeFrom_three (low : 0x800 ≤ n) (high : n ≤ 0xFFFF) (valid : n < 0xD800 ∨ 0xDFFF < n) :
    decodeFrom (UInt8.ofNat (n / 4096 % 0x10 + 0xE0) :: UInt8.ofNat (n / 64 % 0x40 + 0x80) ::
        UInt8.ofNat (n % 0x40 + 0x80) :: rest) .start =
      (decodeFrom rest .start).map (fun chars => .ofNat n :: chars) := by
  have first : (UInt8.ofNat (n / 4096 % 0x10 + 0xE0)).toNat = n / 4096 + 0xE0 := by
    rw [UInt8.toNat_ofNat']
    omega
  have second := toNat_continuation (n / 64)
  obtain ⟨lowest, highest, leads, above, below⟩ : ∃ lowest highest, lead (UInt8.ofNat (n / 4096 % 0x10 + 0xE0)) =
      some (.within 1 lowest highest (n / 4096)) ∧ lowest.toNat ≤ n / 64 % 64 + 0x80 ∧
        n / 64 % 64 + 0x80 ≤ highest.toNat := by
    rw [lead_eq first, if_neg (by omega)]
    by_cases e0 : n / 4096 = 0
    · rw [if_pos (by omega), e0]
      exact ⟨_, _, rfl, by show 0xA0 ≤ _; omega, by show _ ≤ 0xBF; omega⟩
    by_cases ed : n / 4096 = 0xD
    · rw [if_neg (by omega), if_pos (by omega), ed]
      exact ⟨_, _, rfl, by show 0x80 ≤ _; omega, by show _ ≤ 0x9F; omega⟩
    · rw [if_neg (by omega), if_neg (by omega), if_pos (by omega), Nat.add_sub_cancel]
      exact ⟨_, _, rfl, by show 0x80 ≤ _; omega, by show _ ≤ 0xBF; omega⟩
  rw [← second] at above below
  have code : (n / 4096 * 64 + n / 64 % 64) * 64 + n % 64 = n := by omega
  rw [decodeFrom_lead (by omega) leads, decodeFrom_within above below, second, Nat.add_sub_cancel]
  dsimp only
  rw [decodeFrom_continuation n]
  dsimp only
  rw [code]

theorem decodeFrom_four (low : 0x10000 ≤ n) (high : n < 0x110000) :
    decodeFrom (UInt8.ofNat (n / 262144 % 0x08 + 0xF0) :: UInt8.ofNat (n / 4096 % 0x40 + 0x80) ::
        UInt8.ofNat (n / 64 % 0x40 + 0x80) :: UInt8.ofNat (n % 0x40 + 0x80) :: rest) .start =
      (decodeFrom rest .start).map (fun chars => .ofNat n :: chars) := by
  have first : (UInt8.ofNat (n / 262144 % 0x08 + 0xF0)).toNat = n / 262144 + 0xF0 := by
    rw [UInt8.toNat_ofNat']
    omega
  have second := toNat_continuation (n / 4096)
  obtain ⟨lowest, highest, leads, above, below⟩ : ∃ lowest highest, lead (UInt8.ofNat (n / 262144 % 0x08 + 0xF0)) =
      some (.within 2 lowest highest (n / 262144)) ∧ lowest.toNat ≤ n / 4096 % 64 + 0x80 ∧
        n / 4096 % 64 + 0x80 ≤ highest.toNat := by
    rw [lead_eq first, if_neg (by omega), if_neg (by omega), if_neg (by omega), if_neg (by omega)]
    by_cases f0 : n / 262144 = 0
    · rw [if_pos (by omega), f0]
      exact ⟨_, _, rfl, by show 0x90 ≤ _; omega, by show _ ≤ 0xBF; omega⟩
    by_cases f4 : n / 262144 = 4
    · rw [if_neg (by omega), if_neg (by omega), if_pos (by omega), f4]
      exact ⟨_, _, rfl, by show 0x80 ≤ _; omega, by show _ ≤ 0x8F; omega⟩
    · rw [if_neg (by omega), if_pos (by omega), Nat.add_sub_cancel]
      exact ⟨_, _, rfl, by show 0x80 ≤ _; omega, by show _ ≤ 0xBF; omega⟩
  rw [← second] at above below
  have code : ((n / 262144 * 64 + n / 4096 % 64) * 64 + n / 64 % 64) * 64 + n % 64 = n := by omega
  rw [decodeFrom_lead (by omega) leads, decodeFrom_within above below, second, Nat.add_sub_cancel]
  dsimp only
  rw [decodeFrom_continuation (n / 64)]
  dsimp only
  rw [decodeFrom_continuation n]
  dsimp only
  rw [code]

theorem decodeFrom_encodeChar (c : Char) :
    decodeFrom (String.utf8EncodeChar c ++ rest) .start = (decodeFrom rest .start).map (fun chars => c :: chars) := by
  have valid : c.val.toNat < 0xD800 ∨ 0xDFFF < c.val.toNat ∧ c.val.toNat < 0x110000 := c.valid
  have value : Char.ofNat c.val.toNat = c := Char.ofNat_toNat c
  generalize number : c.val.toNat = n at valid value
  subst value
  unfold String.utf8EncodeChar
  rw [number]
  dsimp only
  by_cases one : n ≤ 0x7F
  · have byte : (UInt8.ofNat n).toNat = n := by
      rw [UInt8.toNat_ofNat']
      omega
    have narrow : UInt8.ofNat n < 0x80 := by
      rw [UInt8.lt_iff_toNat_lt, byte]
      exact Nat.lt_succ_of_le one
    rw [if_pos one, List.singleton_append, decodeFrom, next, if_pos narrow, byte]
    rfl
  by_cases two : n ≤ 0x7FF
  · rw [if_neg one, if_pos two]
    exact decodeFrom_two rest (by omega) two
  by_cases three : n ≤ 0xFFFF
  · rw [if_neg one, if_neg two, if_pos three]
    exact decodeFrom_three rest (by omega) three (by omega)
  · rw [if_neg one, if_neg two, if_neg three]
    exact decodeFrom_four rest (by omega) (by omega)

end

/-- What is encoded is read back. -/
theorem decode_encode (text : List Char) : decode (encode text) = some text := by
  induction text with
  | nil => rfl
  | cons c rest ih =>
    rw [encode, List.flatMap_cons, decode, decodeFrom_encodeChar]
    exact congrArg _ ih

/-! ### Skipping -/

/-- The two agree as far as both go. -/
def agree : List Char → List Char → Bool
  | p :: pattern, c :: text => p = c && agree pattern text
  | _, _ => true

/-- No match of the pattern begins in the text, whatever follows it. -/
def clears (pattern : List Char) : List Char → Bool
  | [] => true
  | c :: rest => !agree pattern (c :: rest) && clears pattern rest

theorem agree_of_take {pattern text more : List Char} (here : (text ++ more).take pattern.length = pattern) :
    agree pattern text = true := by
  induction pattern generalizing text with
  | nil => cases text <;> rfl
  | cons p pattern ih =>
    cases text with
    | nil => rfl
    | cons c rest =>
      rw [List.cons_append, List.length_cons, List.take_succ_cons] at here
      obtain ⟨rfl, later⟩ := List.cons.inj here
      rw [agree, ih later]
      simp

theorem split_clears {pattern text : List Char} (clear : clears pattern text = true) (more : List Char) :
    split pattern (text ++ more) = (split pattern more).map (fun (before, after) => (text ++ before, after)) := by
  induction text with
  | nil =>
    rw [List.nil_append]
    exact Option.map_id'.symm
  | cons c rest ih =>
    rw [clears, Bool.and_eq_true, Bool.not_eq_true'] at clear
    have apart : ¬ (c :: (rest ++ more)).take pattern.length = pattern := by
      intro here
      rw [← List.cons_append] at here
      rw [agree_of_take here] at clear
      cases clear.1
    rw [List.cons_append, split, if_neg apart, ih clear.2, Option.map_map]
    rfl

theorem agree_of_append {pattern text : List Char} (more : List Char) (same : agree pattern (text ++ more) = true) :
    agree pattern text = true := by
  induction pattern generalizing text with
  | nil => cases text <;> rfl
  | cons p pattern ih =>
    cases text with
    | nil => rfl
    | cons c rest =>
      rw [List.cons_append, agree, Bool.and_eq_true] at same
      rw [agree, same.1, ih same.2]
      rfl

theorem clears_append {pattern text more : List Char} (clear : clears pattern text = true)
    (later : clears pattern more = true) : clears pattern (text ++ more) = true := by
  induction text with
  | nil => exact later
  | cons c rest ih =>
    rw [clears, Bool.and_eq_true, Bool.not_eq_true'] at clear
    have apart : agree pattern (c :: (rest ++ more)) = false := by
      refine Bool.eq_false_iff.mpr (fun same => ?_)
      rw [← List.cons_append] at same
      rw [agree_of_append more same] at clear
      cases clear.1
    rw [List.cons_append, clears, apart, ih clear.2]
    rfl

/-- A pattern that goes on is found no sooner. -/
theorem agree_of_longer {pattern text : List Char} (more : List Char) (same : agree (pattern ++ more) text = true) :
    agree pattern text = true := by
  induction pattern generalizing text with
  | nil => cases text <;> rfl
  | cons p pattern ih =>
    cases text with
    | nil => rfl
    | cons c rest =>
      rw [List.cons_append, agree, Bool.and_eq_true] at same
      rw [agree, same.1, ih same.2]
      rfl

theorem clears_longer {pattern text : List Char} (clear : clears pattern text = true) (more : List Char) :
    clears (pattern ++ more) text = true := by
  induction text with
  | nil => rfl
  | cons c rest ih =>
    rw [clears, Bool.and_eq_true, Bool.not_eq_true'] at clear
    have apart : agree (pattern ++ more) (c :: rest) = false := by
      refine Bool.eq_false_iff.mpr (fun same => ?_)
      rw [agree_of_longer more same] at clear
      cases clear.1
    rw [clears, apart, ih clear.2]
    rfl

theorem clears_of_notMem {p : Char} {pattern text : List Char} (absent : p ∉ text) :
    clears (p :: pattern) text = true := by
  induction text with
  | nil => rfl
  | cons c rest ih =>
    have other : p ≠ c := fun same => absent (same ▸ List.mem_cons_self)
    rw [clears, agree, ih (fun member => absent (List.mem_cons_of_mem c member))]
    simp [other]

theorem split_eq_none {pattern text : List Char} (some_ : pattern ≠ []) (clear : clears pattern text = true) :
    split pattern text = none := by
  have passed := split_clears clear []
  rw [List.append_nil, split, if_neg some_] at passed
  exact passed

theorem split_here (pattern after : List Char) (some_ : pattern ≠ []) :
    split pattern (pattern ++ after) = some ([], after) := by
  cases pattern with
  | nil => exact absurd rfl some_
  | cons p pattern =>
    rw [List.cons_append, split, if_pos]
    · rw [← List.cons_append, List.drop_left]
    · rw [← List.cons_append, List.take_left]

theorem isSome_split (first pattern rest : List Char) : (split pattern (first ++ (pattern ++ rest))).isSome = true := by
  induction first with
  | nil =>
    by_cases empty : pattern = []
    · subst empty
      cases rest <;> rfl
    · rw [List.nil_append, split_here pattern rest empty]
      rfl
  | cons c first ih =>
    rw [List.cons_append, split]
    split
    · rfl
    · rw [Option.isSome_map, ih]

end Utf8
