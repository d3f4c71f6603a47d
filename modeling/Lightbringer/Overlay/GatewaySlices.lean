import Lightbringer.Overlay.PortMap

/-!
# What the parsers of the port mapper index

The parsers of `overlay/portmap.rs` once more, with every index, every range of a slice and every `expect` checked. But
for the declared length of a body they never fail, and then they parse the same.
-/

namespace Lightbringer.Overlay.PortMap

namespace Checked

variable {payload : List UInt8}

/-- `payload[i]` -/
def index (payload : List UInt8) (i : Nat) : Checked UInt8 :=
  match payload[i]? with
  | some byte => .ok byte
  | none => .error .outOfBounds

/-- `[payload[start], ..]`, as many as `width`. -/
def indexes (payload : List UInt8) (start width : Nat) : Checked (List UInt8) :=
  (List.range' start width).mapM (index payload)

/-- `payload[start..stop]` -/
def range (payload : List UInt8) (start stop : Nat) : Checked (List UInt8) :=
  if start ≤ stop ∧ stop ≤ payload.length then .ok (field start (stop - start) payload) else .error .outOfBounds

def sub (a b : Nat) : Checked Nat := if b ≤ a then .ok (a - b) else .error .overflow

/-- Where a range of a `str` cannot end. -/
def badPosition (text : Text) (n : Nat) : Panic := if Utf8.byteLength text < n then .outOfBounds else .charBoundary

/-- `&text[..n]` -/
def sliceTo (text : Text) (n : Nat) : Checked Text :=
  match Utf8.takeBytes n text with
  | some before => .ok before
  | none => .error (badPosition text n)

/-- `&text[n..]` -/
def sliceFrom (text : Text) (n : Nat) : Checked Text :=
  match Utf8.dropBytes n text with
  | some after => .ok after
  | none => .error (badPosition text n)

/-- `&text[start..stop]` -/
def slice (text : Text) (start stop : Nat) : Checked Text := do
  let before ← sliceTo text stop
  sliceFrom before start

theorem index_of_lt {i : Nat} (within : i < payload.length) : index payload i = .ok (payload.getD i 0) := by
  simp [index, within]

theorem indexes_of_le {start width : Nat} (within : start + width ≤ payload.length) :
    indexes payload start width = .ok (field start width payload) := by
  unfold indexes field
  induction width generalizing start with
  | zero => rfl
  | succ width ih =>
    have here : start < payload.length := by omega
    have first : payload.getD start 0 = payload[start] := by simp [here]
    rw [List.range'_succ, List.mapM_cons, index_of_lt here, ih (by omega), List.drop_eq_getElem_cons here,
      List.take_succ_cons, first]
    rfl

theorem range_of_le {start stop : Nat} (ordered : start ≤ stop) (within : stop ≤ payload.length) :
    range payload start stop = .ok (field start (stop - start) payload) := if_pos ⟨ordered, within⟩

theorem sliceTo_byteLength (before after : Text) : sliceTo (before ++ after) (Utf8.byteLength before) = .ok before := by
  rw [sliceTo, Utf8.takeBytes_byteLength]

theorem sliceFrom_byteLength (before after : Text) :
    sliceFrom (before ++ after) (Utf8.byteLength before) = .ok after := by
  rw [sliceFrom, Utf8.dropBytes_byteLength]

/-! ### PCP -/

def ipFrom16 (bytes : List UInt8) : Checked IpAddr :=
  if bytes.length = 16 then .ok (PortMap.ipFrom16 bytes) else .error .expectFailed

/-- The payload has the length and opens with these two bytes. -/
def opens (payload : List UInt8) (length : Nat) (version op : UInt8) : Checked Bool :=
  if payload.length = length then do
    let first ← index payload 0
    if first = version then return (← index payload 1) = op else return false
  else return false

def parsePcpMapResponse (payload : List UInt8) : Checked (Option PcpMapResponse) := do
  if ← opens payload 60 2 0x81 then
    let result ← index payload 3
    let lifetime ← range payload 4 8
    let nonce ← range payload 24 36
    let externalPort ← range payload 42 44
    let externalIp ← ipFrom16 (← range payload 44 60)
    return some {
      result := result
      lifetime := Bytes.toNat lifetime
      nonce := nonce
      externalPort := .ofNat (Bytes.toNat externalPort)
      externalIp := externalIp }
  else return none

theorem opens_eq (payload : List UInt8) {length : Nat} (long : 2 ≤ length) (version op : UInt8) :
    opens payload length version op = .ok (payload.length = length && startsWith payload [version, op]) := by
  unfold opens startsWith
  by_cases same : payload.length = length
  · match payload, same with
    | first :: second :: rest, same =>
      rw [if_pos same, same]
      by_cases versions : first = version
      · simp [versions, index, pure, Except.pure, bind, Except.bind]
      · simp [versions, index, pure, Except.pure, bind, Except.bind]
    | [_], same | [], same =>
      rw [← same] at long
      simp at long
  · rw [if_neg same, decide_eq_false same]
    rfl

theorem parsePcpMapResponse_eq (payload : List UInt8) :
    parsePcpMapResponse payload = .ok (PortMap.parsePcpMapResponse payload) := by
  unfold parsePcpMapResponse PortMap.parsePcpMapResponse
  rw [opens_eq payload (by decide)]
  by_cases opened : (payload.length = 60 && startsWith payload [2, 0x81]) = true
  · have long : payload.length = 60 := of_decide_eq_true (Bool.and_eq_true_iff.mp opened).1
    have sixteen : (field 44 16 payload).length = 16 := by simp [field, long]
    rw [if_pos opened, opened, index_of_lt (by omega), range_of_le (by decide) (by omega),
      range_of_le (by decide) (by omega), range_of_le (by decide) (by omega), range_of_le (by decide) (by omega)]
    simp only [pure, Except.pure, bind, Except.bind, ipFrom16, sixteen, if_true]
  · rw [if_neg opened, Bool.eq_false_iff.mpr opened]
    rfl

/-! ### SSDP -/

def splitHost (rest : Text) : Checked (Text × Text) :=
  match Utf8.find ['/'] rest with
  | some slash => do return (← sliceTo rest slash, ← sliceFrom rest slash)
  | none => return (rest, ['/'])

def parseSsdpLocation (payload : List UInt8) : Checked (Option (SocketAddr × Text)) :=
  match ssdpLocation payload with
  | none => return none
  | some rest => do
    let (host, path) ← splitHost rest
    return (parseWith readSocketAddr host).map (fun endpoint => (endpoint, path))

theorem splitHost_eq (rest : Text) : splitHost rest = .ok (PortMap.splitHost rest) := by
  unfold splitHost PortMap.splitHost
  rw [Utf8.find_eq_split]
  cases found : Utf8.split ['/'] rest with
  | none => rfl
  | some pair =>
    obtain ⟨host, after⟩ := pair
    have whole : rest = host ++ '/' :: after := by
      rw [Utf8.split_eq found, List.append_assoc]
      rfl
    rw [whole]
    dsimp only [Option.map_some]
    rw [sliceTo_byteLength, sliceFrom_byteLength]
    rfl

theorem parseSsdpLocation_eq (payload : List UInt8) :
    parseSsdpLocation payload = .ok (PortMap.parseSsdpLocation payload) := by
  unfold parseSsdpLocation PortMap.parseSsdpLocation
  cases ssdpLocation payload with
  | none => rfl
  | some rest =>
    dsimp only
    rw [splitHost_eq]
    cases parsed : parseWith readSocketAddr (PortMap.splitHost rest).1 with
    | none => simp [parsed, pure, Except.pure, bind, Except.bind]
    | some endpoint => simp [parsed, pure, Except.pure, bind, Except.bind]

/-! ### HTTP -/

def httpResponseComplete (buf : List UInt8) : Checked Bool :=
  match Utf8.decode buf with
  | none => return false
  | some text =>
    match Utf8.find headerEnd text with
    | none => return false
    | some headerEnd => do
      match contentLength (← sliceTo text headerEnd) with
      | none => return false
      | some length => return length ≤ (← sub (Utf8.byteLength text) (headerEnd + 4))

def parseHttpResponse (buf : List UInt8) : Checked (Option (UInt16 × Text)) :=
  match Utf8.decode buf with
  | none => return none
  | some text =>
    match Utf8.find headerEnd text with
    | none => return none
    | some found => do
      let headers ← sliceTo text (found + 4)
      match parseStatus headers with
      | none => return none
      | some status =>
        let body ← sliceFrom text (found + 4)
        match contentLength headers with
        | none => return some (status, body)
        | some length =>
          if Utf8.byteLength body < length then return none else return some (status, ← sliceTo body length)

theorem headerEnd_length (before : Text) :
    Utf8.byteLength (before ++ headerEnd) = Utf8.byteLength before + 4 := by
  rw [Utf8.byteLength_append]
  rfl

theorem httpResponseComplete_eq (buf : List UInt8) :
    httpResponseComplete buf = .ok (PortMap.httpResponseComplete buf) := by
  unfold httpResponseComplete PortMap.httpResponseComplete
  cases Utf8.decode buf with
  | none => rfl
  | some text =>
    dsimp only
    rw [Utf8.find_eq_split]
    cases found : Utf8.split headerEnd text with
    | none => rfl
    | some pair =>
      obtain ⟨before, body⟩ := pair
      have whole := Utf8.split_eq found
      have left : sub (Utf8.byteLength text) (Utf8.byteLength before + 4) = .ok (Utf8.byteLength body) := by
        rw [whole, Utf8.byteLength_append, headerEnd_length, sub, if_pos (Nat.le_add_right _ _), Nat.add_sub_cancel_left]
      dsimp only [Option.map_some]
      rw [left, whole, List.append_assoc, sliceTo_byteLength]
      dsimp only [bind, Except.bind]
      cases contentLength before with
      | none => rfl
      | some length => rfl

theorem cutBody_eq (status : UInt16) (body : Text) (length : Option Nat) :
    (match length with
      | none => return some (status, body)
      | some length =>
        if Utf8.byteLength body < length then return none else return some (status, ← sliceTo body length)) =
      (cutBody length body).map (fun body => body.map (fun body => (status, body))) := by
  unfold cutBody
  cases length with
  | none => rfl
  | some length =>
    dsimp only
    split
    · rfl
    next enough =>
      unfold sliceTo badPosition
      rw [if_neg enough]
      cases Utf8.takeBytes length body with
      | none => rfl
      | some before => rfl

theorem parseHttpResponse_eq (buf : List UInt8) : parseHttpResponse buf = parseHttpResponseChecked buf := by
  unfold parseHttpResponse parseHttpResponseChecked
  cases Utf8.decode buf with
  | none => rfl
  | some text =>
    dsimp only [Option.bind_some]
    rw [Utf8.find_eq_split]
    cases found : Utf8.split headerEnd text with
    | none => rfl
    | some pair =>
      obtain ⟨before, body⟩ := pair
      dsimp only [Option.map_some]
      rw [Utf8.split_eq found, ← headerEnd_length, sliceTo_byteLength, sliceFrom_byteLength]
      dsimp only [bind, Except.bind]
      cases parseStatus (before ++ headerEnd) with
      | none => rfl
      | some status => exact cutBody_eq status body _

/-! ### XML -/

/-- `start` and `end` are positions in the whole of the text. -/
def xmlField (body tag : Text) : Checked (Option Text) :=
  let opening := ['<'] ++ tag ++ ['>']
  let closing := ['<', '/'] ++ tag ++ ['>']
  match Utf8.find opening body with
  | none => return none
  | some found => do
    let start := found + Utf8.byteLength opening
    match Utf8.find closing (← sliceFrom body start) with
    | none => return none
    | some found => return some (trim (← slice body start (found + start)))

def parseControlUrl (body : Text) : Checked (Option Text) :=
  match Utf8.find wanIpConnection body with
  | none => return none
  | some service => do
    let control ← xmlField (← sliceFrom body service) "controlURL".toList
    return control.bind (fun control => if control = [] then none else some control)

theorem xmlField_eq (body tag : Text) : xmlField body tag = .ok (PortMap.xmlField body tag) := by
  unfold xmlField PortMap.xmlField
  generalize ['<'] ++ tag ++ ['>'] = opening
  generalize ['<', '/'] ++ tag ++ ['>'] = closing
  dsimp only
  rw [Utf8.find_eq_split]
  cases opened : Utf8.split opening body with
  | none => rfl
  | some pair =>
    obtain ⟨before, after⟩ := pair
    dsimp only [Option.map_some]
    rw [← Utf8.byteLength_append]
    have rest : sliceFrom body (Utf8.byteLength (before ++ opening)) = .ok after := by
      rw [Utf8.split_eq opened, sliceFrom_byteLength]
    rw [rest]
    dsimp only [bind, Except.bind]
    rw [Utf8.find_eq_split]
    cases closed : Utf8.split closing after with
    | none => simp [closed, pure, Except.pure]
    | some pair =>
      obtain ⟨value, tail⟩ := pair
      have cut : slice body (Utf8.byteLength (before ++ opening))
          (Utf8.byteLength value + Utf8.byteLength (before ++ opening)) = .ok value := by
        have whole : body = before ++ opening ++ value ++ (closing ++ tail) := by
          rw [Utf8.split_eq opened, Utf8.split_eq closed]
          simp only [List.append_assoc]
        rw [Nat.add_comm, ← Utf8.byteLength_append, slice, whole, sliceTo_byteLength]
        exact sliceFrom_byteLength (before ++ opening) value
      dsimp only [Option.map_some]
      rw [cut]
      simp [closed, pure, Except.pure]

theorem parseControlUrl_eq (body : Text) : parseControlUrl body = .ok (PortMap.parseControlUrl body) := by
  unfold parseControlUrl PortMap.parseControlUrl
  rw [Utf8.find_eq_split]
  cases found : Utf8.split wanIpConnection body with
  | none => rfl
  | some pair =>
    obtain ⟨before, after⟩ := pair
    have rest : sliceFrom body (Utf8.byteLength before) = .ok (wanIpConnection ++ after) := by
      rw [Utf8.split_eq found, List.append_assoc, sliceFrom_byteLength]
    dsimp only [Option.map_some]
    rw [rest]
    dsimp only [bind, Except.bind]
    rw [xmlField_eq]
    rfl

end Checked

end Lightbringer.Overlay.PortMap
