import Lightbringer.Lib.Utf8
import Lightbringer.Types

/-!
# The texts of a gateway

The readers of `overlay/portmap.rs` for SSDP, HTTP and XML, with the functions of `str`, `usize` and `std::net` that
they use. Text is a list of characters: an index that `find` returns lies between two of them. Only a declared length
cuts text at a byte, and that may be within a character.
-/

namespace Lightbringer.Overlay.PortMap

abbrev Text := List Char

/-- What ends the program. -/
inductive Panic where
  /-- An index or a range of a slice is out of bounds. -/
  | outOfBounds
  /-- A range of a `str` begins or ends within a character. -/
  | charBoundary
  | expectFailed
  | overflow
  deriving DecidableEq

/-- What a function that can panic returns. -/
abbrev Checked (α : Type) := Except Panic α

def Checked.panic {α : Type} : Checked α → Option Panic
  | .error panic => some panic
  | .ok _ => none

theorem Checked.panic_eq_some {α : Type} {checked : Checked α} {panic : Panic}
    (panics : checked.panic = some panic) : checked = .error panic := by
  cases checked with
  | error other =>
    cases panics
    rfl
  | ok => cases panics

/-! ### `str` -/

/-- `char::is_whitespace` -/
def isWhitespace (c : Char) : Bool :=
  let n := c.toNat
  9 ≤ n && n ≤ 13 || n = 0x20 || n = 0x85 || n = 0xA0 || n = 0x1680 || 0x2000 ≤ n && n ≤ 0x200A || n = 0x2028 ||
    n = 0x2029 || n = 0x202F || n = 0x205F || n = 0x3000

def trim (text : Text) : Text := ((text.dropWhile isWhitespace).reverse.dropWhile isWhitespace).reverse

def eqIgnoreAsciiCase (text other : Text) : Bool := text.map Char.toLower = other.map Char.toLower

/-- A line without its ending, from its characters in reverse. -/
def lineOf : Text → Text
  | '\r' :: line => line.reverse
  | line => line.reverse

/-- `str::lines`, after the given characters of the current line in reverse. -/
def linesFrom : Text → Text → List Text
  | [], [] => []
  | line, [] => [line.reverse]
  | line, c :: rest => if c = '\n' then lineOf line :: linesFrom [] rest else linesFrom (c :: line) rest

def lines (text : Text) : List Text := linesFrom [] text

/-- `str::split_once` -/
def splitOnce (separator : Char) (text : Text) : Option (Text × Text) := Utf8.split [separator] text

/-- `str::split_whitespace`, after the given characters of the current word in reverse. -/
def wordsFrom : Text → Text → List Text
  | [], [] => []
  | word, [] => [word.reverse]
  | word, c :: rest =>
    if isWhitespace c then
      match word with
      | [] => wordsFrom [] rest
      | word => word.reverse :: wordsFrom [] rest
    else wordsFrom (c :: word) rest

def splitWhitespace (text : Text) : List Text := wordsFrom [] text

/-! ### Numbers and addresses -/

/-- `char::to_digit` -/
def toDigit (radix : Nat) (c : Char) : Option Nat :=
  let value :=
    if '0' ≤ c && c ≤ '9' then some (c.toNat - '0'.toNat)
    else if 'a' ≤ c && c ≤ 'z' then some (c.toNat - 'a'.toNat + 10)
    else if 'A' ≤ c && c ≤ 'Z' then some (c.toNat - 'A'.toNat + 10)
    else none
  value.filter (· < radix)

def valueOf (radix : Nat) (digits : List Nat) : Nat := digits.foldl (fun value digit => value * radix + digit) 0

/-- `from_str` of an unsigned integer of the given bits. -/
def parseUnsigned (bits : Nat) (text : Text) : Option Nat :=
  let digits := match text with
    | '+' :: digits => digits
    | _ => text
  match digits.mapM (toDigit 10) with
  | none | some [] => none
  | some digits => some (valueOf 10 digits) |>.filter (· < 2 ^ bits)

/-- `Parser::read_number`. Digits are read as far as they go. -/
def readNumber (radix : Nat) (maxDigits : Option Nat) (allowZeroPrefix : Bool) (limit : Nat) (text : Text) :
    Option (Nat × Text) :=
  let digits := (text.takeWhile (fun c => (toDigit radix c).isSome)).filterMap (toDigit radix)
  if digits = [] || maxDigits.any (· < digits.length) || !allowZeroPrefix && digits.head? = some 0 && 1 < digits.length ||
      limit ≤ valueOf radix digits then none
  else some (valueOf radix digits, text.drop digits.length)

def readGivenChar (c : Char) : Text → Option Text
  | d :: rest => if d = c then some rest else none
  | [] => none

/-- `Parser::read_separator`: the separator stands before all but the first. -/
def readSeparator {α : Type} (separator : Char) (first : Bool) (inner : Text → Option (α × Text)) (text : Text) :
    Option (α × Text) :=
  if first then inner text else (readGivenChar separator text).bind inner

/-- `Parser::read_ipv4_addr`, with the octets that are left to read and those before them. -/
def readOctets : Nat → Nat → Text → Option (Nat × Text)
  | 0, value, text => some (value, text)
  | left + 1, value, text =>
    match readSeparator '.' (left = 3) (readNumber 10 (some 3) false 256) text with
    | none => none
    | some (octet, rest) => readOctets left (value * 256 + octet) rest

def readIpv4Addr (text : Text) : Option (Nat × Text) := readOctets 4 0 text

/-- `read_groups` of `Parser::read_ipv6_addr`: the groups, and whether they end with an address of the older family. -/
def readGroups (first : Bool) : Nat → Text → List Nat × Bool × Text
  | 0, text => ([], false, text)
  | left + 1, text =>
    match if left = 0 then none else readSeparator ':' first readIpv4Addr text with
    | some (value, rest) => ([value / 2 ^ 16, value % 2 ^ 16], true, rest)
    | none =>
      match readSeparator ':' first (readNumber 16 (some 4) true (2 ^ 16)) text with
      | none => ([], false, text)
      | some (group, rest) =>
        let (groups, v4, rest) := readGroups false left rest
        (group :: groups, v4, rest)

def readIpv6Addr (text : Text) : Option (Nat × Text) :=
  let (head, v4, rest) := readGroups true 8 text
  if head.length = 8 then some (valueOf (2 ^ 16) head, rest)
  else if v4 then none
  else
    match rest with
    | ':' :: ':' :: rest =>
      let (tail, _, rest) := readGroups true (7 - head.length) rest
      some (valueOf (2 ^ 16) (head ++ List.replicate (8 - head.length - tail.length) 0 ++ tail), rest)
    | _ => none

def readIpAddr (text : Text) : Option (IpAddr × Text) :=
  match readIpv4Addr text with
  | some (octets, rest) => some (.v4 (.ofNat 32 octets), rest)
  | none => (readIpv6Addr text).map (fun (octets, rest) => (.v6 (.ofNat 128 octets), rest))

def readPort (text : Text) : Option (UInt16 × Text) :=
  ((readGivenChar ':' text).bind (readNumber 10 none true (2 ^ 16))).map (fun (port, rest) => (.ofNat port, rest))

/-- `Parser::read_scope_id`; the scope itself is not used. -/
def skipScopeId (text : Text) : Text :=
  match (readGivenChar '%' text).bind (readNumber 10 none true (2 ^ 32)) with
  | some (_, rest) => rest
  | none => text

def readSocketAddr (text : Text) : Option (SocketAddr × Text) :=
  let v4 := (readIpv4Addr text).bind (fun (octets, rest) =>
    (readPort rest).map (fun (port, rest) => ((⟨.v4 (.ofNat 32 octets), port⟩ : SocketAddr), rest)))
  match v4 with
  | some read => some read
  | none => do
    let rest ← readGivenChar '[' text
    let (octets, rest) ← readIpv6Addr rest
    let rest ← readGivenChar ']' (skipScopeId rest)
    let (port, rest) ← readPort rest
    return (⟨.v6 (.ofNat 128 octets), port⟩, rest)

/-- `Parser::parse_with`: all of the text is used. -/
def parseWith {α : Type} (read : Text → Option (α × Text)) (text : Text) : Option α :=
  match read text with
  | some (value, []) => some value
  | _ => none

/-! ### SSDP -/

/-- `str::strip_prefix` -/
def stripPrefix (text first : Text) : Option Text :=
  if text.take first.length = first then some (text.drop first.length) else none

/-- The `LOCATION` of a response, after its scheme. -/
def ssdpLocation (payload : List UInt8) : Option Text := do
  let text ← Utf8.decode payload
  let _ ← stripPrefix text "HTTP/1.1 200".toList
  let location ← (lines text).findSome? (fun line => do
    let (name, value) ← splitOnce ':' line
    if eqIgnoreAsciiCase (trim name) "location".toList then some (trim value) else none)
  stripPrefix location "http://".toList

def splitHost (rest : Text) : Text × Text :=
  match Utf8.split ['/'] rest with
  | some (host, after) => (host, '/' :: after)
  | none => (rest, ['/'])

/-- The host of the location is an address. -/
def parseSsdpLocation (payload : List UInt8) : Option (SocketAddr × Text) := do
  let rest ← ssdpLocation payload
  let (host, path) := splitHost rest
  let endpoint ← parseWith readSocketAddr host
  return (endpoint, path)

/-! ### HTTP -/

def headerEnd : Text := ['\r', '\n', '\r', '\n']

/-- The lines that have a name and a value. -/
def fields (headers : Text) : List (Text × Text) := (lines headers).filterMap (splitOnce ':')

def contentLength (headers : Text) : Option Nat :=
  ((fields headers).find? (fun (name, _) => eqIgnoreAsciiCase (trim name) "content-length".toList)).bind
    (fun (_, value) => parseUnsigned 64 (trim value))

/-- What ends the headers is no field of theirs. -/
theorem fields_headerEnd (headers : Text) : fields (headers ++ headerEnd) = fields headers := by
  suffices each : ∀ line, (linesFrom line (headers ++ headerEnd)).filterMap (splitOnce ':') =
      (linesFrom line headers).filterMap (splitOnce ':') from each []
  induction headers with
  | nil =>
    intro line
    cases line with
    | nil => rfl
    | cons c line => rfl
  | cons c rest ih =>
    intro line
    rw [List.cons_append, linesFrom, linesFrom]
    by_cases newline : c = '\n'
    · rw [if_pos newline, if_pos newline, List.filterMap_cons, List.filterMap_cons, ih]
    · rw [if_neg newline, if_neg newline, ih]

theorem contentLength_headerEnd (headers : Text) : contentLength (headers ++ headerEnd) = contentLength headers := by
  unfold contentLength
  rw [fields_headerEnd]

/-- The declared length has arrived, which ends the response without the end of the stream. -/
def httpResponseComplete (buf : List UInt8) : Bool :=
  match Utf8.decode buf with
  | none => false
  | some text =>
    match Utf8.split headerEnd text with
    | none => false
    | some (headers, body) =>
      match contentLength headers with
      | none => false
      | some length => length ≤ Utf8.byteLength body

def parseStatus (headers : Text) : Option UInt16 :=
  ((splitWhitespace headers)[1]?).bind (fun word => (parseUnsigned 16 word).map UInt16.ofNat)

/-- The body up to the declared length. -/
def cutBody (length : Option Nat) (body : Text) : Checked (Option Text) :=
  match length with
  | none => .ok (some body)
  | some length =>
    if Utf8.byteLength body < length then .ok none
    else
      match Utf8.takeBytes length body with
      | none => .error .charBoundary
      | some body => .ok (some body)

/-- `parse_http_response`, with what it panics on. -/
def parseHttpResponseChecked (buf : List UInt8) : Checked (Option (UInt16 × Text)) :=
  match (Utf8.decode buf).bind (Utf8.split headerEnd) with
  | none => .ok none
  | some (before, body) =>
    let headers := before ++ headerEnd
    match parseStatus headers with
    | none => .ok none
    | some status => (cutBody (contentLength headers) body).map (fun body => body.map (fun body => (status, body)))

/-- What it returns where it does. -/
def parseHttpResponse (buf : List UInt8) : Option (UInt16 × Text) :=
  match parseHttpResponseChecked buf with
  | .ok response => response
  | .error _ => none

/-! ### XML -/

def xmlField (body tag : Text) : Option Text := do
  let (_, after) ← Utf8.split (['<'] ++ tag ++ ['>']) body
  let (value, _) ← Utf8.split (['<', '/'] ++ tag ++ ['>']) after
  return trim value

def wanIpConnection : Text := "urn:schemas-upnp-org:service:WANIPConnection:".toList

/-- The first control URL after the service it belongs to. -/
def parseControlUrl (body : Text) : Option Text := do
  let (_, after) ← Utf8.split wanIpConnection body
  let control ← xmlField (wanIpConnection ++ after) "controlURL".toList
  if control = [] then none else some control

def externalIpAddress (body : Text) : Option IpAddr :=
  (xmlField body "NewExternalIPAddress".toList).bind (parseWith readIpAddr)

def addPortMappingResponse (body : Text) : Bool := (Utf8.split "AddPortMappingResponse".toList body).isSome

end Lightbringer.Overlay.PortMap
