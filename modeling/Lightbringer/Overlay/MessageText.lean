import Lightbringer.Overlay.GatewayText

/-!
# Texts that are read back

Numbers, addresses, fields and header lines as the programs on both sides write them, and what the functions of `str`
and `std::net` read in them.
-/

namespace Lightbringer.Overlay.PortMap

/-! ### `Display` -/

/-- `Ipv6Addr::to_ipv4_mapped`. -/
def toIpv4Mapped (octets : BitVec 128) : Option (BitVec 32) :=
  if octets.toNat / 2 ^ 32 = 0xFFFF then some (.ofNat 32 octets.toNat) else none

/-- The parts of a number that end at these bits, each below the bound. -/
def partsOf (shifts : List Nat) (bound n : Nat) : List Nat := shifts.map (fun shift => n / 2 ^ shift % bound)

def joinDigits (separator : Char) (radix : Nat) (parts : List Nat) : Text :=
  [separator].intercalate (parts.map (Nat.toDigits radix))

/-- `Display` of `Ipv4Addr`. -/
def displayIpv4 (octets : BitVec 32) : Text := joinDigits '.' 10 (partsOf [24, 16, 8, 0] 256 octets.toNat)

/-- A run of zeros among the segments. -/
structure Span where
  start : Nat
  len : Nat

/-- One segment: the longest run so far, and the one it continues or ends. -/
def spanStep (spans : Span × Span) (item : Nat × Nat) : Span × Span :=
  let (longest, current) := spans
  let (segment, i) := item
  if segment = 0 then
    let current : Span := ⟨if current.len = 0 then i else current.start, current.len + 1⟩
    (if longest.len < current.len then current else longest, current)
  else (longest, ⟨0, 0⟩)

/-- The first of the longest runs. -/
def zeroSpan (segments : List Nat) : Span := (segments.zipIdx.foldl spanStep (⟨0, 0⟩, ⟨0, 0⟩)).1

/-- `Display` of `Ipv6Addr`. A single zero is written out. -/
def displayIpv6 (octets : BitVec 128) : Text :=
  match toIpv4Mapped octets with
  | some v4 => "::ffff:".toList ++ displayIpv4 v4
  | none =>
    let segments := partsOf [112, 96, 80, 64, 48, 32, 16, 0] (2 ^ 16) octets.toNat
    let zeroes := zeroSpan segments
    if 1 < zeroes.len then
      joinDigits ':' 16 (segments.take zeroes.start) ++ "::".toList ++
        joinDigits ':' 16 (segments.drop (zeroes.start + zeroes.len))
    else joinDigits ':' 16 segments

def displayIp : IpAddr → Text
  | .v4 octets => displayIpv4 octets
  | .v6 octets => displayIpv6 octets

/-- `Display` of `SocketAddr`. -/
def displaySocketAddr (addr : SocketAddr) : Text :=
  match addr.ip with
  | .v4 octets => displayIpv4 octets ++ [':'] ++ Nat.toDigits 10 addr.port.toNat
  | .v6 octets => ['['] ++ displayIpv6 octets ++ [']', ':'] ++ Nat.toDigits 10 addr.port.toNat

example : String.ofList (displayIp (.v6 0x20010db8000000000000000000000002)) = "2001:db8::2" := by decide

/-! ### Numbers -/

theorem toDigit_digitChar {d : Nat} (small : d < 10) : toDigit 10 d.digitChar = some d := by
  have each : ∀ d < 10, toDigit 10 d.digitChar = some d := by decide
  exact each d small

theorem isWhitespace_digitChar {d : Nat} (small : d < 10) : isWhitespace d.digitChar = false := by
  have each : ∀ d < 10, isWhitespace d.digitChar = false := by decide
  exact each d small

/-- The digits of a number. None is there to no purpose. -/
structure DigitsOf (n : Nat) (digits : List Nat) : Prop where
  text : Nat.toDigits 10 n = digits.map Nat.digitChar
  small : ∀ d ∈ digits, d < 10
  value : valueOf 10 digits = n
  nonempty : digits ≠ []
  plain : digits.head? = some 0 → digits.length = 1

theorem exists_digitsOf (n : Nat) : ∃ digits, DigitsOf n digits := by
  induction n using Nat.base_induction 10 (by decide) with
  | single d small =>
    refine ⟨[d], Nat.toDigits_of_lt_base small, fun other member => ?_, by simp [valueOf], by simp, fun _ => rfl⟩
    rwa [List.mem_singleton.mp member]
  | digit n d small some_ ih =>
    obtain ⟨digits, text, all, value, nonempty, plain⟩ := ih
    refine ⟨digits ++ [d], ?_, fun other member => ?_, ?_, by simp, fun zero => ?_⟩
    · rw [← Nat.toDigits_append_toDigits (by decide) some_ small, text, Nat.toDigits_of_lt_base small, List.map_append,
        List.map_singleton]
    · rcases List.mem_append.mp member with old | new
      · exact all other old
      · rwa [List.mem_singleton.mp new]
    · have last : valueOf 10 (digits ++ [d]) = valueOf 10 digits * 10 + d := by simp [valueOf]
      rw [last, value, Nat.mul_comm]
    · rw [List.head?_append_of_ne_nil _ nonempty] at zero
      obtain ⟨first, rfl⟩ := List.length_eq_one_iff.mp (plain zero)
      obtain rfl : first = 0 := Option.some.inj zero
      exact absurd value.symm (Nat.ne_of_gt some_)

theorem mapM_toDigit {digits : List Nat} (small : ∀ d ∈ digits, d < 10) :
    (digits.map Nat.digitChar).mapM (toDigit 10) = some digits := by
  induction digits with
  | nil => rfl
  | cons d rest ih =>
    rw [List.map_cons, List.mapM_cons, toDigit_digitChar (small d List.mem_cons_self),
      ih (fun other member => small other (List.mem_cons_of_mem d member))]
    rfl

/-- What is no digit is not in a number. -/
theorem notMem_toDigits {c : Char} (other : toDigit 10 c = none) (n : Nat) : c ∉ Nat.toDigits 10 n := by
  obtain ⟨digits, text, small, -, -, -⟩ := exists_digitsOf n
  intro member
  rw [text] at member
  obtain ⟨d, inside, rfl⟩ := List.mem_map.mp member
  rw [toDigit_digitChar (small d inside)] at other
  cases other

theorem parseUnsigned_toDigits {bits n : Nat} (fits : n < 2 ^ bits) :
    parseUnsigned bits (Nat.toDigits 10 n) = some n := by
  obtain ⟨digits, text, small, value, nonempty, -⟩ := exists_digitsOf n
  have read := mapM_toDigit small
  rw [← text] at read
  have unsigned : '+' ∉ Nat.toDigits 10 n := notMem_toDigits (by decide) n
  unfold parseUnsigned
  split
  next signed =>
    rw [signed] at unsigned
    exact absurd List.mem_cons_self unsigned
  · dsimp only
    rw [read]
    cases digits with
    | nil => exact absurd rfl nonempty
    | cons d rest =>
      dsimp only
      rw [value]
      exact Option.filter_some_pos (decide_eq_true fits)

/-- What follows a number does not go on with it. -/
def Ends (rest : Text) : Prop := ∀ c ∈ rest.head?, toDigit 10 c = none

theorem takeWhile_digits {digits : List Nat} (small : ∀ d ∈ digits, d < 10) {rest : Text} (ends : Ends rest) :
    (digits.map Nat.digitChar ++ rest).takeWhile (fun c => (toDigit 10 c).isSome) = digits.map Nat.digitChar := by
  induction digits with
  | nil =>
    cases rest with
    | nil => rfl
    | cons c rest => rw [List.map_nil, List.nil_append, List.takeWhile_cons, ends c rfl]; rfl
  | cons d digits ih =>
    rw [List.map_cons, List.cons_append, List.takeWhile_cons, toDigit_digitChar (small d List.mem_cons_self),
      ih (fun other member => small other (List.mem_cons_of_mem d member))]
    rfl

theorem filterMap_toDigit {digits : List Nat} (small : ∀ d ∈ digits, d < 10) :
    (digits.map Nat.digitChar).filterMap (toDigit 10) = digits := by
  induction digits with
  | nil => rfl
  | cons d rest ih =>
    rw [List.map_cons, List.filterMap_cons, toDigit_digitChar (small d List.mem_cons_self),
      ih (fun other member => small other (List.mem_cons_of_mem d member))]

/-- A number is read up to its end, if it is not too long. -/
theorem readNumber_toDigits {n limit : Nat} {maxDigits : Option Nat} (allowZeroPrefix : Bool) {rest : Text}
    (ends : Ends rest) (fits : n < limit) (short : ∀ most ∈ maxDigits, (Nat.toDigits 10 n).length ≤ most) :
    readNumber 10 maxDigits allowZeroPrefix limit (Nat.toDigits 10 n ++ rest) = some (n, rest) := by
  obtain ⟨digits, text, small, value, nonempty, plain⟩ := exists_digitsOf n
  rw [text, List.length_map] at short
  have accepted : (digits = [] || maxDigits.any (· < digits.length) ||
      !allowZeroPrefix && digits.head? = some 0 && 1 < digits.length || limit ≤ n) = false := by
    have brief : maxDigits.any (· < digits.length) = false := by
      cases maxDigits with
      | none => rfl
      | some most => exact decide_eq_false (Nat.not_lt.mpr (short most rfl))
    have lead : (!allowZeroPrefix && digits.head? = some 0 && 1 < digits.length) = false := by
      by_cases zero : digits.head? = some 0
      · rw [plain zero]
        simp
      · simp [zero]
    rw [brief, lead, decide_eq_false nonempty, decide_eq_false (Nat.not_le.mpr fits)]
    rfl
  unfold readNumber
  dsimp only
  rw [text, takeWhile_digits small ends, filterMap_toDigit small, value, accepted]
  rw [if_neg (by decide), List.drop_left' (List.length_map _)]

/-! ### Addresses -/

theorem ends_nil : Ends [] := fun _ never => by cases never

theorem ends_cons {c : Char} (other : toDigit 10 c = none) (rest : Text) : Ends (c :: rest) := by
  intro first same
  rw [← Option.some.inj same]
  exact other

theorem readNumber_octet {n : Nat} (fits : n < 256) {rest : Text} (ends : Ends rest) :
    readNumber 10 (some 3) false 256 (Nat.toDigits 10 n ++ rest) = some (n, rest) := by
  refine readNumber_toDigits false ends fits (fun most same => ?_)
  obtain rfl := Option.some.inj same
  exact (Nat.length_toDigits_le_iff (by decide) (by decide)).mpr (Nat.lt_of_lt_of_le fits (by decide))

/-- An octet that is not the first. -/
theorem readOctets_dot {left n : Nat} (later : left < 3) (value : Nat) (fits : n < 256) {rest : Text}
    (ends : Ends rest) :
    readOctets (left + 1) value ('.' :: (Nat.toDigits 10 n ++ rest)) = readOctets left (value * 256 + n) rest := by
  have follows : ¬ decide (left = 3) = true := by
    rw [decide_eq_true_eq]
    omega
  rw [readOctets, readSeparator, if_neg follows, readGivenChar, if_pos rfl, Option.bind_some,
    readNumber_octet fits ends]

theorem readIpv4Addr_display (octets : BitVec 32) {rest : Text} (ends : Ends rest) :
    readIpv4Addr (displayIpv4 octets ++ rest) = some (octets.toNat, rest) := by
  have bound := octets.isLt
  have dot (more : Text) : Ends ('.' :: more) := ends_cons (by decide) more
  have octet (n : Nat) : n % 256 < 256 := Nat.mod_lt n (by decide)
  have shape : displayIpv4 octets ++ rest = Nat.toDigits 10 (octets.toNat / 2 ^ 24 % 256) ++
      '.' :: (Nat.toDigits 10 (octets.toNat / 2 ^ 16 % 256) ++
        '.' :: (Nat.toDigits 10 (octets.toNat / 2 ^ 8 % 256) ++
          '.' :: (Nat.toDigits 10 (octets.toNat / 2 ^ 0 % 256) ++ rest))) := by
    simp [displayIpv4, joinDigits, partsOf, List.intercalate]
  rw [shape, readIpv4Addr, readOctets, readSeparator, if_pos (by decide), readNumber_octet (octet _) (dot _)]
  dsimp only
  rw [readOctets_dot (by decide) _ (octet _) (dot _), readOctets_dot (by decide) _ (octet _) (dot _),
    readOctets_dot (by decide) _ (octet _) ends, readOctets]
  congr 2
  omega

/-- What an address of the older family is written with. -/
theorem mem_displayIpv4 {octets : BitVec 32} {c : Char} (member : c ∈ displayIpv4 octets) :
    c = '.' ∨ ∃ d < 10, c = d.digitChar := by
  have digit (n : Nat) (inside : c ∈ Nat.toDigits 10 n) : ∃ d < 10, c = d.digitChar := by
    obtain ⟨digits, text, small, -, -, -⟩ := exists_digitsOf n
    rw [text] at inside
    obtain ⟨d, there, rfl⟩ := List.mem_map.mp inside
    exact ⟨d, small d there, rfl⟩
  have shape : displayIpv4 octets = Nat.toDigits 10 (octets.toNat / 2 ^ 24 % 256) ++
      '.' :: (Nat.toDigits 10 (octets.toNat / 2 ^ 16 % 256) ++
        '.' :: (Nat.toDigits 10 (octets.toNat / 2 ^ 8 % 256) ++
          '.' :: Nat.toDigits 10 (octets.toNat / 2 ^ 0 % 256))) := by
    simp [displayIpv4, joinDigits, partsOf, List.intercalate]
  rw [shape] at member
  simp only [List.mem_append, List.mem_cons] at member
  rcases member with inside | dot | inside | dot | inside | dot | inside
  · exact .inr (digit _ inside)
  · exact .inl dot
  · exact .inr (digit _ inside)
  · exact .inl dot
  · exact .inr (digit _ inside)
  · exact .inl dot
  · exact .inr (digit _ inside)

/-- Any fact about the dot, the colon and the digits holds of the text of an address with a port. -/
theorem forall_displaySocketAddr {P : Char → Prop} (dot : P '.') (colon : P ':') (digit : ∀ d < 10, P d.digitChar)
    (octets : BitVec 32) (port : UInt16) : ∀ c ∈ displaySocketAddr ⟨.v4 octets, port⟩, P c := by
  intro c member
  simp only [displaySocketAddr, List.append_assoc, List.mem_append, List.mem_cons, List.not_mem_nil, or_false] at member
  rcases member with inside | rfl | inside
  · rcases mem_displayIpv4 inside with rfl | ⟨d, small, rfl⟩
    · exact dot
    · exact digit d small
  · exact colon
  · obtain ⟨digits, text, small, -, -, -⟩ := exists_digitsOf port.toNat
    rw [text] at inside
    obtain ⟨d, there, rfl⟩ := List.mem_map.mp inside
    exact digit d (small d there)

theorem readIpAddr_display (octets : BitVec 32) :
    parseWith readIpAddr (displayIp (.v4 octets)) = some (.v4 octets) := by
  have read := readIpv4Addr_display octets ends_nil
  rw [List.append_nil] at read
  simp [parseWith, readIpAddr, displayIp, read]

theorem readSocketAddr_display (octets : BitVec 32) (port : UInt16) {rest : Text} (ends : Ends rest) :
    readSocketAddr (displaySocketAddr ⟨.v4 octets, port⟩ ++ rest) = some (⟨.v4 octets, port⟩, rest) := by
  have shape : displaySocketAddr ⟨.v4 octets, port⟩ ++ rest =
      displayIpv4 octets ++ ':' :: (Nat.toDigits 10 port.toNat ++ rest) := by simp [displaySocketAddr]
  have number : readNumber 10 none true (2 ^ 16) (Nat.toDigits 10 port.toNat ++ rest) = some (port.toNat, rest) :=
    readNumber_toDigits true ends port.toNat_lt (fun _ never => by cases never)
  rw [shape, readSocketAddr, readIpv4Addr_display octets (ends_cons (by decide) _)]
  dsimp only
  rw [Option.bind_some, readPort, readGivenChar, if_pos rfl, Option.bind_some, number]
  simp

/-! ### Header lines -/

def crlf : Text := ['\r', '\n']

/-- Lines, an empty line and what follows it. -/
def block (headers : List Text) (body : Text) : Text := headers.flatMap (· ++ crlf) ++ crlf ++ body

def fieldLine (field : Text × Text) : Text := field.1 ++ [':', ' '] ++ field.2

/-- A message: its first line, its fields and its body. -/
def message (start : Text) (fields : List (Text × Text)) (body : Text) : Text :=
  block (start :: fields.map fieldLine) body

/-- A line that stays one. -/
structure IsLine (line : Text) : Prop where
  nonempty : line ≠ []
  unreturned : '\r' ∉ line
  unbroken : '\n' ∉ line

theorem IsLine.of_forall {line : Text} (nonempty : line ≠ []) (each : ∀ c ∈ line, c ≠ '\r' ∧ c ≠ '\n') : IsLine line :=
  ⟨nonempty, fun member => (each _ member).1 rfl, fun member => (each _ member).2 rfl⟩

section
variable {P : Char → Prop} [DecidablePred P] {chars : Text}

theorem forall_of_all (each : chars.all (fun c => decide (P c)) = true) : ∀ c ∈ chars, P c :=
  fun c member => of_decide_eq_true (List.all_eq_true.mp each c member)

/-- The characters of a literal, one by one. -/
theorem forall_literal (each : chars.all (fun c => decide (P c)) = true) : ∀ c ∈ (String.ofList chars).toList, P c := by
  rw [String.toList_ofList]
  exact forall_of_all each

end

theorem block_cons (first : Text) (headers : List Text) (body : Text) :
    block (first :: headers) body = first ++ '\r' :: '\n' :: block headers body := by
  simp [block, crlf]

/-- A line end that another line follows is not the end of the headers. -/
theorem split_between {c : Char} (other : c ≠ '\r') (rest : Text) :
    Utf8.split headerEnd ('\r' :: '\n' :: c :: rest) =
      (Utf8.split headerEnd (c :: rest)).map (fun (before, after) => ('\r' :: '\n' :: before, after)) := by
  have first : ¬ ('\r' :: '\n' :: c :: rest).take headerEnd.length = headerEnd := by
    intro same
    have third := congrArg (fun text : Text => text[2]?) same
    simp [headerEnd, other] at third
  have second : ¬ ('\n' :: c :: rest).take headerEnd.length = headerEnd := by
    intro same
    have start := congrArg List.head? same
    simp [headerEnd] at start
  rw [Utf8.split, if_neg first, Utf8.split, if_neg second, Option.map_map]
  rfl

/-- The body begins after the last header line. -/
theorem split_block (first : Text) (headers : List Text) (inLines : ∀ line ∈ first :: headers, IsLine line)
    (body : Text) :
    ∃ before, Utf8.split headerEnd (block (first :: headers) body) = some (before, body) ∧
      before ++ headerEnd = block (first :: headers) [] := by
  have skip {line : Text} (own : IsLine line) : Utf8.clears headerEnd line = true :=
    Utf8.clears_of_notMem own.unreturned
  induction headers generalizing first with
  | nil =>
    refine ⟨first, ?_, by simp [block, crlf, headerEnd]⟩
    have shape : block [first] body = first ++ (headerEnd ++ body) := by simp [block, crlf, headerEnd]
    rw [shape, Utf8.split_clears (skip (inLines first List.mem_cons_self)), Utf8.split_here headerEnd body (by decide)]
    simp
  | cons second rest ih =>
    obtain ⟨before, found, whole⟩ := ih second (fun line member => inLines line (List.mem_cons_of_mem first member))
    have next := inLines second (List.mem_cons_of_mem first List.mem_cons_self)
    obtain ⟨c, second', rfl⟩ := List.exists_cons_of_ne_nil next.nonempty
    have other : c ≠ '\r' := fun same => next.unreturned (same ▸ List.mem_cons_self)
    refine ⟨first ++ '\r' :: '\n' :: before, ?_, ?_⟩
    · rw [block_cons, Utf8.split_clears (skip (inLines first List.mem_cons_self))]
      have shape : block ((c :: second') :: rest) body = c :: (second' ++ '\r' :: '\n' :: block rest body) := by
        rw [block_cons, List.cons_append]
      have between := split_between other (second' ++ '\r' :: '\n' :: block rest body)
      rw [← shape, found] at between
      rw [between]
      rfl
    · rw [block_cons, ← whole]
      simp

theorem linesFrom_line {line : Text} (unbroken : '\n' ∉ line) (before rest : Text) :
    linesFrom before (line ++ '\n' :: rest) = lineOf (line.reverse ++ before) :: linesFrom [] rest := by
  induction line generalizing before with
  | nil => rw [List.nil_append, linesFrom, if_pos rfl, List.reverse_nil, List.nil_append]
  | cons c line ih =>
    have other : c ≠ '\n' := fun same => unbroken (same ▸ List.mem_cons_self)
    rw [List.cons_append, linesFrom, if_neg other, ih (fun member => unbroken (List.mem_cons_of_mem c member)),
      List.reverse_cons, List.append_assoc, List.singleton_append]

theorem lines_block {headers : List Text} (inLines : ∀ line ∈ headers, IsLine line) :
    lines (block headers []) = headers ++ [[]] := by
  induction headers with
  | nil => rfl
  | cons first rest ih =>
    have own := inLines first List.mem_cons_self
    have shape : first ++ '\r' :: '\n' :: block rest [] = (first ++ ['\r']) ++ '\n' :: block rest [] := by simp
    have unbroken : '\n' ∉ first ++ ['\r'] := by simp [own.unbroken]
    have later := ih (fun line member => inLines line (List.mem_cons_of_mem first member))
    rw [lines] at later
    rw [block_cons, shape, lines, linesFrom_line unbroken, later]
    simp [lineOf]

/-- The name and the value of a field, neither of which breaks its line. -/
structure IsField (field : Text × Text) : Prop where
  name : ∀ c ∈ field.1, c ≠ ':' ∧ c ≠ '\r' ∧ c ≠ '\n'
  value : ∀ c ∈ field.2, c ≠ '\r' ∧ c ≠ '\n'

theorem isLine_fieldLine {field : Text × Text} (own : IsField field) : IsLine (fieldLine field) := by
  have each : ∀ c ∈ fieldLine field, c ≠ '\r' ∧ c ≠ '\n' := by
    intro c member
    simp only [fieldLine, List.append_assoc, List.mem_append, List.mem_cons, List.not_mem_nil, or_false] at member
    rcases member with name | (rfl | rfl) | value
    · exact (own.name c name).2
    · decide
    · decide
    · exact own.value c value
  exact .of_forall (by simp [fieldLine]) each

theorem splitOnce_fieldLine {field : Text × Text} (own : IsField field) :
    splitOnce ':' (fieldLine field) = some (field.1, ' ' :: field.2) := by
  have clear : Utf8.clears [':'] field.1 = true := Utf8.clears_of_notMem (fun member => (own.name _ member).1 rfl)
  have shape : fieldLine field = field.1 ++ ([':'] ++ ' ' :: field.2) := by simp [fieldLine]
  rw [splitOnce, shape, Utf8.split_clears clear, Utf8.split_here _ _ (by decide)]
  simp

/-- What a message is made of. -/
structure IsMessage (start : Text) (fields : List (Text × Text)) : Prop where
  start : IsLine start
  fields : ∀ field ∈ fields, IsField field

theorem IsMessage.lines {start : Text} {fields : List (Text × Text)} (own : IsMessage start fields) :
    ∀ line ∈ start :: fields.map fieldLine, IsLine line := by
  intro line member
  rcases List.mem_cons.mp member with rfl | inside
  · exact own.start
  · obtain ⟨field, there, rfl⟩ := List.mem_map.mp inside
    exact isLine_fieldLine (own.fields field there)

theorem filterMap_fieldLine {fields : List (Text × Text)} (own : ∀ field ∈ fields, IsField field) :
    (fields.map fieldLine).filterMap (splitOnce ':') = fields.map (fun field => (field.1, ' ' :: field.2)) := by
  induction fields with
  | nil => rfl
  | cons field rest ih =>
    rw [List.map_cons, List.filterMap_cons, splitOnce_fieldLine (own field List.mem_cons_self), List.map_cons,
      ih (fun other member => own other (List.mem_cons_of_mem field member))]

/-- The fields of a message, whose first line is none. -/
theorem fields_message {start : Text} {named : List (Text × Text)} (own : IsMessage start named) (plain : ':' ∉ start) :
    fields (message start named []) = named.map (fun field => (field.1, ' ' :: field.2)) := by
  have first : splitOnce ':' start = none := by
    exact Utf8.split_eq_none (by decide) (Utf8.clears_of_notMem plain)
  have last : [([] : Text)].filterMap (splitOnce ':') = [] := rfl
  rw [fields, message, lines_block own.lines, List.filterMap_append, List.filterMap_cons, first, last,
    filterMap_fieldLine own.fields]
  simp

theorem findSome_filterMap {α β γ : Type} (split : α → Option β) (f : β → Option γ) (items : List α) :
    (items.filterMap split).findSome? f = items.findSome? (fun item => (split item).bind f) := by
  induction items with
  | nil => rfl
  | cons item rest ih =>
    rw [List.filterMap_cons, List.findSome?_cons]
    cases split item with
    | none => exact ih
    | some field => rw [List.findSome?_cons, ih, Option.bind_some]

/-- A field is searched for by what it is split into. -/
theorem findSome_message {α : Type} {start : Text} {named : List (Text × Text)} (own : IsMessage start named)
    (plain : ':' ∉ start) (f : Text × Text → Option α) :
    (lines (message start named [])).findSome? (fun line => (splitOnce ':' line).bind f) =
      named.findSome? (fun field => f (field.1, ' ' :: field.2)) := by
  have split : (lines (message start named [])).findSome? (fun line => (splitOnce ':' line).bind f) =
      (fields (message start named [])).findSome? f := by
    rw [fields, findSome_filterMap]
  rw [split, fields_message own plain, List.findSome?_map]
  rfl

/-! ### Spaces -/

theorem trim_solid {text : Text} (solid : ∀ c ∈ text, isWhitespace c = false) : trim text = text := by
  have first : text.dropWhile isWhitespace = text := by
    cases text with
    | nil => rfl
    | cons c rest => rw [List.dropWhile_cons, solid c List.mem_cons_self]; rfl
  have last : text.reverse.dropWhile isWhitespace = text.reverse := by
    cases same : text.reverse with
    | nil => rfl
    | cons c rest =>
      have member : c ∈ text := List.mem_reverse.mp (same ▸ List.mem_cons_self)
      rw [List.dropWhile_cons, solid c member]
      rfl
  rw [trim, first, last, List.reverse_reverse]

theorem stripPrefix_append (first rest : Text) : stripPrefix (first ++ rest) first = some rest := by
  rw [stripPrefix, List.take_left, if_pos rfl, List.drop_left]

theorem trim_space (text : Text) : trim (' ' :: text) = trim text := rfl

theorem isWhitespace_toDigits (n : Nat) : ∀ c ∈ Nat.toDigits 10 n, isWhitespace c = false := by
  obtain ⟨digits, text, small, -, -, -⟩ := exists_digitsOf n
  intro c member
  rw [text] at member
  obtain ⟨d, inside, rfl⟩ := List.mem_map.mp member
  exact isWhitespace_digitChar (small d inside)

/-! ### Messages that are read -/

/-- The location of a response whose last field it is. -/
theorem ssdpLocation_message {start status name value location : Text} {named others : List (Text × Text)}
    (own : IsMessage start named) (plain : ':' ∉ start) (greets : start = "HTTP/1.1 200".toList ++ status)
    (apart : ∀ field ∈ others, eqIgnoreAsciiCase (trim field.1) "location".toList = false)
    (here : eqIgnoreAsciiCase (trim name) "location".toList = true) (solid : ∀ c ∈ value, isWhitespace c = false)
    (scheme : value = "http://".toList ++ location) (last : named = others ++ [(name, value)]) :
    ssdpLocation (Utf8.encode (message start named [])) = some location := by
  have greeted : stripPrefix (message start named []) "HTTP/1.1 200".toList =
      some (status ++ '\r' :: '\n' :: block (named.map fieldLine) []) := by
    rw [message, block_cons, greets, List.append_assoc]
    exact stripPrefix_append _ _
  have located := findSome_message own plain (fun field =>
    if eqIgnoreAsciiCase (trim field.1) "location".toList then some (trim field.2) else none)
  have before : others.findSome? (fun field => if eqIgnoreAsciiCase (trim field.1) "location".toList then
      some (trim (' ' :: field.2)) else none) = none :=
    List.findSome?_eq_none_iff.mpr (fun field member => by rw [apart field member]; rfl)
  have searched : named.findSome? (fun field => if eqIgnoreAsciiCase (trim field.1) "location".toList then
      some (trim (' ' :: field.2)) else none) = some value := by
    rw [last, List.findSome?_append, before, Option.none_or, List.findSome?_singleton, if_pos here, trim_space,
      trim_solid solid]
  rw [searched] at located
  unfold ssdpLocation
  rw [Utf8.decode_encode]
  simp only [bind, Option.bind_some, greeted]
  refine Eq.trans (congrArg (fun found => Option.bind found _) located) ?_
  rw [Option.bind_some, scheme]
  exact stripPrefix_append _ _

/-- The text between the tags of a field. -/
def tagged (tag value : Text) : Text := ['<'] ++ tag ++ ['>'] ++ value ++ (['<', '/'] ++ tag ++ ['>'])

theorem xmlField_tagged {before tag value : Text} (clear : Utf8.clears (['<'] ++ tag ++ ['>']) before = true)
    (inside : '<' ∉ value) (solid : ∀ c ∈ value, isWhitespace c = false) (after : Text) :
    xmlField (before ++ tagged tag value ++ after) tag = some value := by
  have opened : Utf8.split (['<'] ++ tag ++ ['>']) (before ++ tagged tag value ++ after) =
      some (before, value ++ (['<', '/'] ++ tag ++ ['>']) ++ after) := by
    have shape : before ++ tagged tag value ++ after =
        before ++ ((['<'] ++ tag ++ ['>']) ++ (value ++ (['<', '/'] ++ tag ++ ['>']) ++ after)) := by simp [tagged]
    rw [shape, Utf8.split_clears clear, Utf8.split_here _ _ (by simp)]
    simp
  have closed : Utf8.split (['<', '/'] ++ tag ++ ['>']) (value ++ (['<', '/'] ++ tag ++ ['>']) ++ after) =
      some (value, after) := by
    have shape : value ++ (['<', '/'] ++ tag ++ ['>']) ++ after =
        value ++ ((['<', '/'] ++ tag ++ ['>']) ++ after) := by simp
    rw [shape, Utf8.split_clears, Utf8.split_here _ _ (by simp)]
    · simp
    · exact Utf8.clears_of_notMem inside
  unfold xmlField
  simp only [opened, closed, bind, Option.bind_some, pure, trim_solid solid]

/-! ### Elements -/

/-- Elements one after another. -/
def elements (items : List (Text × Text)) : Text := items.flatMap (fun item => tagged item.1 item.2)

def IsTag (tag : Text) : Prop := ∀ c ∈ tag, c ≠ '<' ∧ c ≠ '>' ∧ c ≠ '/'

instance (tag : Text) : Decidable (IsTag tag) := List.decidableBAll _ tag

/-- Two tags agree only if they are the same. -/
theorem agree_tag {tag other : Text} (own : IsTag tag) (own' : IsTag other) (rest : Text)
    (same : Utf8.agree (tag ++ ['>']) (other ++ '>' :: rest) = true) : tag = other := by
  induction tag generalizing other with
  | nil =>
    cases other with
    | nil => rfl
    | cons c other =>
      simp only [List.nil_append, List.cons_append, Utf8.agree, Bool.and_eq_true, decide_eq_true_eq] at same
      exact absurd same.1.symm (own' c List.mem_cons_self).2.1
  | cons t tag ih =>
    cases other with
    | nil =>
      simp only [List.nil_append, List.cons_append, Utf8.agree, Bool.and_eq_true, decide_eq_true_eq] at same
      exact absurd same.1 (own t List.mem_cons_self).2.1
    | cons c other =>
      simp only [List.cons_append, Utf8.agree, Bool.and_eq_true, decide_eq_true_eq] at same
      rw [same.1, ih (fun d member => own d (List.mem_cons_of_mem t member))
        (fun d member => own' d (List.mem_cons_of_mem c member)) same.2]

/-- An element of another tag is passed over. -/
theorem clears_tagged {tag other value : Text} (own : IsTag tag) (own' : IsTag other) (nonempty : tag ≠ [])
    (apart : tag ≠ other) (inside : '<' ∉ value) : Utf8.clears (['<'] ++ tag ++ ['>']) (tagged other value) = true := by
  have rest_ : Utf8.clears (['<'] ++ tag ++ ['>']) (other ++ ['>'] ++ value) = true := by
    refine Utf8.clears_of_notMem (fun member => ?_)
    simp only [List.mem_append, List.mem_singleton] at member
    rcases member with (name | close) | text
    · exact (own' _ name).1 rfl
    · cases close
    · exact inside text
  have opening : Utf8.agree (['<'] ++ tag ++ ['>']) ('<' :: (other ++ ['>'] ++ value)) = false := by
    refine Bool.eq_false_iff.mpr (fun same => apart (agree_tag own own' value ?_))
    simp only [List.cons_append, List.nil_append, Utf8.agree, Bool.and_eq_true, List.append_assoc] at same ⊢
    exact same.2
  have closing : Utf8.agree (['<'] ++ tag ++ ['>']) ('<' :: '/' :: (other ++ ['>'])) = false := by
    refine Bool.eq_false_iff.mpr (fun same => ?_)
    obtain ⟨t, tag', rfl⟩ := List.exists_cons_of_ne_nil nonempty
    simp only [List.cons_append, List.nil_append, Utf8.agree, Bool.and_eq_true, decide_eq_true_eq] at same
    exact (own t List.mem_cons_self).2.2 same.2.1
  have after : Utf8.clears (['<'] ++ tag ++ ['>']) ('/' :: (other ++ ['>'])) = true := by
    refine Utf8.clears_of_notMem (fun member => ?_)
    simp only [List.mem_cons, List.mem_append, List.not_mem_nil, or_false] at member
    rcases member with slash | name | close
    · cases slash
    · exact (own' _ name).1 rfl
    · cases close
  have front : Utf8.clears (['<'] ++ tag ++ ['>']) ('<' :: (other ++ ['>'] ++ value)) = true := by
    rw [Utf8.clears, opening, rest_]
    rfl
  have back : Utf8.clears (['<'] ++ tag ++ ['>']) ('<' :: '/' :: (other ++ ['>'])) = true := by
    rw [Utf8.clears, closing, after]
    rfl
  have shape : tagged other value = '<' :: (other ++ ['>'] ++ value) ++ '<' :: '/' :: (other ++ ['>']) := by
    simp [tagged]
  rw [shape]
  exact Utf8.clears_append front back

/-- An element is read past the ones before it, which have other tags. -/
theorem xmlField_elements {front tag value : Text} {before after : List (Text × Text)} (own : IsTag tag)
    (nonempty : tag ≠ []) (clear : Utf8.clears (['<'] ++ tag ++ ['>']) front = true)
    (others : ∀ item ∈ before, IsTag item.1 ∧ tag ≠ item.1 ∧ '<' ∉ item.2) (inside : '<' ∉ value)
    (solid : ∀ c ∈ value, isWhitespace c = false) (back : Text) :
    xmlField (front ++ elements (before ++ (tag, value) :: after) ++ back) tag = some value := by
  have passed : Utf8.clears (['<'] ++ tag ++ ['>']) (elements before) = true := by
    induction before with
    | nil => rfl
    | cons item rest ih =>
      obtain ⟨own', apart, inside'⟩ := others item List.mem_cons_self
      rw [elements, List.flatMap_cons]
      exact Utf8.clears_append (clears_tagged own own' nonempty apart inside')
        (ih (fun other member => others other (List.mem_cons_of_mem item member)))
  have field := xmlField_tagged (Utf8.clears_append clear passed) inside solid (elements after ++ back)
  have shape : front ++ elements (before ++ (tag, value) :: after) ++ back =
      front ++ elements before ++ tagged tag value ++ (elements after ++ back) := by
    simp [elements]
  rw [shape]
  exact field

end Lightbringer.Overlay.PortMap
