import Lightbringer.Overlay.MessageText

/-!
# The texts of the simulated gateway

What the UPnP tier of `overlay/sim/gateway.rs` reads and writes: HTTP requests, SOAP bodies and addresses in text. It
has parsers of its own. The addresses are those of `std::net`, without a scope.
-/

namespace Lightbringer.Overlay.Sim
open PortMap (Text Checked trim splitOnce splitWhitespace eqIgnoreAsciiCase parseUnsigned headerEnd message
  displayIp displaySocketAddr IsMessage tagged)

/-! ### Requests -/

structure HttpRequest where
  method : Text
  path : Text
  body : Text
  deriving DecidableEq

/-- `str::split` at line ends, after the given characters of the current line in reverse. -/
def crlfLines : Text → Text → List Text
  | line, [] => [line.reverse]
  | line, '\r' :: '\n' :: rest => line.reverse :: crlfLines [] rest
  | line, c :: rest => crlfLines (c :: line) rest

/-- The declared length of the body, none if there is no number. A name is not trimmed. -/
def requestLength (fieldLines : List Text) : Nat :=
  (((fieldLines.filterMap (splitOnce ':')).find? (fun (name, _) => eqIgnoreAsciiCase name "content-length".toList)).bind
    (fun (_, value) => parseUnsigned 64 (trim value))).getD 0

/-- The first request of the buffer, with the bytes it takes, once it is complete. -/
def parseHttpRequest (buf : List UInt8) : Checked (Option (HttpRequest × Nat)) :=
  match (Utf8.decode buf).bind (Utf8.split headerEnd) with
  | none => .ok none
  | some (before, after) =>
    let headers := before ++ headerEnd
    match crlfLines [] headers with
    | [] => .ok none
    | requestLine :: fieldLines =>
      match splitWhitespace requestLine with
      | method :: path :: _ =>
        let length := requestLength fieldLines
        let consumed := Utf8.byteLength headers + length
        if 2 ^ 64 ≤ consumed then .error .overflow
        else if buf.length < consumed then .ok none
        else
          match Utf8.takeBytes length after with
          -- The declared length cuts a character.
          | none => .ok none
          | some body => .ok (some (⟨method, path, body⟩, consumed))
      | _ => .ok none

/-! ### Responses -/

def ssdpResponse (endpoint : SocketAddr) : List UInt8 :=
  Utf8.encode (message "HTTP/1.1 200 OK".toList
    [("CACHE-CONTROL".toList, "max-age=120".toList),
      ("ST".toList, "urn:schemas-upnp-org:device:InternetGatewayDevice:1".toList),
      ("USN".toList, "uuid:sim-gateway::urn:schemas-upnp-org:device:InternetGatewayDevice:1".toList),
      ("LOCATION".toList, "http://".toList ++ displaySocketAddr endpoint ++ "/rootDesc.xml".toList)] [])

def ssdpGarbage : List UInt8 := Utf8.encode "HTTP/1.1 200 OK\r\nLOCATION:".toList ++ [0x00, 0xFF, 0xFE, 0x0D, 0x0A]

def httpGarbage : List UInt8 := Utf8.encode "HTTP".toList ++ [0x00] ++ Utf8.encode "/1.1 garbage\r\n\r\n<not-xml".toList

def httpNotFound : List UInt8 :=
  Utf8.encode (message "HTTP/1.1 404 Not Found".toList [("CONTENT-LENGTH".toList, "0".toList)] [])

/-- A response with its type and its length. -/
def respond (status contentType body : Text) : List UInt8 :=
  Utf8.encode (message ("HTTP/1.1 ".toList ++ status)
    [("CONTENT-TYPE".toList, contentType), ("CONTENT-LENGTH".toList, Nat.toDigits 10 (Utf8.byteLength body))] body)

def httpOk (body : Text) : List UInt8 := respond "200 OK".toList "text/xml; charset=\"utf-8\"".toList body

def envelope : Text :=
  "<?xml version=\"1.0\"?><s:Envelope xmlns:s=\"http://schemas.xmlsoap.org/soap/envelope/\"><s:Body>".toList

def soapOpen (element : Text) : Text :=
  envelope ++ "<u:".toList ++ element ++ " xmlns:u=\"urn:schemas-upnp-org:service:WANIPConnection:1\">".toList

def soapClose (element : Text) : Text := "</u:".toList ++ element ++ "></s:Body></s:Envelope>".toList

def soapBody (actionResponse fields : Text) : Text := soapOpen actionResponse ++ fields ++ soapClose actionResponse

def soapFault (code : Nat) (description : Text) : Text :=
  envelope ++ "<s:Fault><detail><UPnPError><errorCode>".toList ++ Nat.toDigits 10 code ++
    "</errorCode><errorDescription>".toList ++ description ++
    "</errorDescription></UPnPError></detail></s:Fault></s:Body></s:Envelope>".toList

def soapError (code : Nat) (description : Text) : List UInt8 :=
  respond "500 Internal Server Error".toList "text/xml".toList (soapFault code description)

def deviceDescription : Text :=
  "<?xml version=\"1.0\"?><root xmlns=\"urn:schemas-upnp-org:device-1-0\">".toList ++
    "<device><deviceType>urn:schemas-upnp-org:device:InternetGatewayDevice:1</deviceType>".toList ++
    "<deviceList><device><deviceType>urn:schemas-upnp-org:device:WANDevice:1</deviceType>".toList ++
    "<deviceList><device><deviceType>urn:schemas-upnp-org:device:WANConnectionDevice:1</deviceType>".toList ++
    "<serviceList><service>".toList ++
    "<serviceType>urn:schemas-upnp-org:service:WANIPConnection:1</serviceType>".toList ++
    "<controlURL>/ctl/IPConn</controlURL>".toList ++
    "</service></serviceList></device></deviceList></device></deviceList></device></root>".toList

/-- The first field of the tag. -/
def xmlField (body tag : Text) : Option Text := do
  let (_, after) ← Utf8.split (['<'] ++ tag ++ ['>']) body
  let (value, _) ← Utf8.split (['<', '/'] ++ tag ++ ['>']) after
  return trim value

/-! ### What the port mapper reads -/

theorem isField_type {contentType : Text} (kind : ∀ c ∈ contentType, c ≠ '\r' ∧ c ≠ '\n') :
    PortMap.IsField ("CONTENT-TYPE".toList, contentType) where
  name := PortMap.forall_literal (by decide)
  value := kind

theorem isField_length (n : Nat) : PortMap.IsField ("CONTENT-LENGTH".toList, Nat.toDigits 10 n) where
  name := PortMap.forall_literal (by decide)
  value c member := by
    constructor
    · rintro rfl
      exact PortMap.notMem_toDigits (by decide) _ member
    · rintro rfl
      exact PortMap.notMem_toDigits (by decide) _ member

/-- A response is read with its status and its whole body. -/
theorem parse_respond {status contentType body : Text} {code : UInt16}
    (line : ∀ c ∈ status, c ≠ ':' ∧ c ≠ '\r' ∧ c ≠ '\n') (kind : ∀ c ∈ contentType, c ≠ '\r' ∧ c ≠ '\n')
    (tells : ∀ rest, PortMap.parseStatus ("HTTP/1.1 ".toList ++ status ++ '\r' :: '\n' :: rest) = some code)
    (short : Utf8.byteLength body < 2 ^ 64) :
    PortMap.parseHttpResponse (respond status contentType body) = some (code, body) := by
  have version : ∀ c ∈ "HTTP/1.1 ".toList, c ≠ ':' ∧ c ≠ '\r' ∧ c ≠ '\n' := PortMap.forall_literal (by decide)
  have start : ∀ c ∈ "HTTP/1.1 ".toList ++ status, c ≠ ':' ∧ c ≠ '\r' ∧ c ≠ '\n' := by
    intro c member
    rcases List.mem_append.mp member with fixed | own
    · exact version c fixed
    · exact line c own
  have own : IsMessage ("HTTP/1.1 ".toList ++ status)
      [("CONTENT-TYPE".toList, contentType), ("CONTENT-LENGTH".toList, Nat.toDigits 10 (Utf8.byteLength body))] := by
    refine ⟨.of_forall (List.append_ne_nil_of_left_ne_nil (by simp) _) (fun c member => (start c member).2),
      fun field member => ?_⟩
    simp only [List.mem_cons, List.not_mem_nil, or_false] at member
    rcases member with rfl | rfl
    · exact isField_type kind
    · exact isField_length _
  obtain ⟨before, found, whole⟩ := PortMap.split_block _ _ own.lines body
  have length : PortMap.contentLength (before ++ headerEnd) = some (Utf8.byteLength body) := by
    have other : eqIgnoreAsciiCase (trim "CONTENT-TYPE".toList) "content-length".toList = false := by
      repeat rw [String.toList_ofList]
      decide
    have named : eqIgnoreAsciiCase (trim "CONTENT-LENGTH".toList) "content-length".toList = true := by
      repeat rw [String.toList_ofList]
      decide
    have fields := PortMap.fields_message own (fun member => (start _ member).1 rfl)
    rw [message] at fields
    rw [whole, PortMap.contentLength, fields]
    simp only [List.map_cons, List.map_nil, List.find?_cons, other, named]
    rw [Option.bind_some, PortMap.trim_space, PortMap.trim_solid (PortMap.isWhitespace_toDigits _),
      PortMap.parseUnsigned_toDigits short]
  have answer : PortMap.parseStatus (before ++ headerEnd) = some code := by
    rw [whole, PortMap.block_cons]
    exact tells _
  have cut := Utf8.takeBytes_byteLength body []
  rw [List.append_nil] at cut
  unfold PortMap.parseHttpResponse PortMap.parseHttpResponseChecked respond message
  rw [Utf8.decode_encode, Option.bind_some, found]
  dsimp only
  rw [answer, length]
  dsimp only
  rw [PortMap.cutBody, if_neg (Nat.lt_irrefl _), cut]
  rfl

theorem parse_httpOk {body : Text} (short : Utf8.byteLength body < 2 ^ 64) :
    PortMap.parseHttpResponse (httpOk body) = some (200, body) :=
  parse_respond (PortMap.forall_literal (by decide)) (PortMap.forall_literal (by decide)) (fun _ => rfl) short

theorem parse_soapError {code : Nat} {description : Text}
    (short : Utf8.byteLength (soapFault code description) < 2 ^ 64) :
    PortMap.parseHttpResponse (soapError code description) = some (500, soapFault code description) :=
  parse_respond (PortMap.forall_literal (by decide)) (PortMap.forall_literal (by decide)) (fun _ => rfl) short

theorem isField_location {host : Text} (own : ∀ c ∈ host, c ≠ '\r' ∧ c ≠ '\n') :
    PortMap.IsField ("LOCATION".toList, "http://".toList ++ host ++ "/rootDesc.xml".toList) := by
  have name : ∀ c ∈ "LOCATION".toList, c ≠ ':' ∧ c ≠ '\r' ∧ c ≠ '\n' := PortMap.forall_literal (by decide)
  have scheme : ∀ c ∈ "http://".toList, c ≠ '\r' ∧ c ≠ '\n' := PortMap.forall_literal (by decide)
  have path : ∀ c ∈ "/rootDesc.xml".toList, c ≠ '\r' ∧ c ≠ '\n' := PortMap.forall_literal (by decide)
  refine ⟨name, fun c member => ?_⟩
  rcases List.mem_append.mp member with front | last
  · rcases List.mem_append.mp front with first | middle
    · exact scheme c first
    · exact own c middle
  · exact path c last

/-- The mapper finds the endpoint that is advertised. -/
theorem parse_ssdpResponse (octets : BitVec 32) (port : UInt16) :
    PortMap.parseSsdpLocation (ssdpResponse ⟨.v4 octets, port⟩) = some (⟨.v4 octets, port⟩, "/rootDesc.xml".toList) := by
  have read := PortMap.readSocketAddr_display octets port PortMap.ends_nil
  rw [List.append_nil] at read
  have unbroken := PortMap.forall_displaySocketAddr (P := fun c => c ≠ '\r' ∧ c ≠ '\n')
    (by decide) (by decide) (by decide) octets port
  have solid := PortMap.forall_displaySocketAddr (P := fun c => PortMap.isWhitespace c = false)
    (by decide) (by decide) (by decide) octets port
  have whole := PortMap.forall_displaySocketAddr (P := fun c => c ≠ '/') (by decide) (by decide) (by decide) octets port
  generalize shown : displaySocketAddr ⟨.v4 octets, port⟩ = host at read unbroken solid whole
  have own : IsMessage "HTTP/1.1 200 OK".toList
      [("CACHE-CONTROL".toList, "max-age=120".toList),
        ("ST".toList, "urn:schemas-upnp-org:device:InternetGatewayDevice:1".toList),
        ("USN".toList, "uuid:sim-gateway::urn:schemas-upnp-org:device:InternetGatewayDevice:1".toList),
        ("LOCATION".toList, "http://".toList ++ host ++ "/rootDesc.xml".toList)] := by
    refine ⟨.of_forall (by simp) (PortMap.forall_literal (by decide)), fun field member => ?_⟩
    simp only [List.mem_cons, List.not_mem_nil, or_false] at member
    rcases member with rfl | rfl | rfl | rfl
    · exact ⟨PortMap.forall_literal (by decide), PortMap.forall_literal (by decide)⟩
    · exact ⟨PortMap.forall_literal (by decide), PortMap.forall_literal (by decide)⟩
    · exact ⟨PortMap.forall_literal (by decide), PortMap.forall_literal (by decide)⟩
    · exact isField_location unbroken
  have found : PortMap.ssdpLocation (ssdpResponse ⟨.v4 octets, port⟩) = some (host ++ "/rootDesc.xml".toList) := by
    have apart : ∀ field ∈ [("CACHE-CONTROL".toList, "max-age=120".toList),
        ("ST".toList, "urn:schemas-upnp-org:device:InternetGatewayDevice:1".toList),
        ("USN".toList, "uuid:sim-gateway::urn:schemas-upnp-org:device:InternetGatewayDevice:1".toList)],
        eqIgnoreAsciiCase (trim field.1) "location".toList = false := by
      repeat rw [String.toList_ofList]
      decide
    have within : ∀ c ∈ "http://".toList ++ (host ++ "/rootDesc.xml".toList), PortMap.isWhitespace c = false := by
      have scheme : ∀ c ∈ "http://".toList, PortMap.isWhitespace c = false := PortMap.forall_literal (by decide)
      have path : ∀ c ∈ "/rootDesc.xml".toList, PortMap.isWhitespace c = false := PortMap.forall_literal (by decide)
      intro c member
      simp only [List.mem_append] at member
      rcases member with first | middle | last
      · exact scheme c first
      · exact solid c middle
      · exact path c last
    have plain : ':' ∉ "HTTP/1.1 200 OK".toList := by
      rw [String.toList_ofList]
      decide
    have named : eqIgnoreAsciiCase (trim "LOCATION".toList) "location".toList = true := by
      repeat rw [String.toList_ofList]
      decide
    rw [List.append_assoc] at own
    rw [ssdpResponse, shown, List.append_assoc]
    exact PortMap.ssdpLocation_message own plain rfl apart named within rfl rfl
  have cut : PortMap.splitHost (host ++ "/rootDesc.xml".toList) = (host, "/rootDesc.xml".toList) := by
    have clear : Utf8.clears ['/'] host = true := Utf8.clears_of_notMem (fun member => whole _ member rfl)
    have path : "/rootDesc.xml".toList = ['/'] ++ "rootDesc.xml".toList := rfl
    rw [PortMap.splitHost, path, Utf8.split_clears clear, Utf8.split_here _ _ (by decide)]
    simp
  simp only [PortMap.parseSsdpLocation, found, cut, PortMap.parseWith, read, bind, Option.bind, pure]

theorem parseControlUrl_deviceDescription : PortMap.parseControlUrl deviceDescription = some "/ctl/IPConn".toList := by
  unfold deviceDescription
  repeat rw [String.toList_ofList]
  decide +kernel

theorem externalIpAddress_soapBody (octets : BitVec 32) :
    PortMap.externalIpAddress (soapBody "GetExternalIPAddressResponse".toList
      (tagged "NewExternalIPAddress".toList (displayIp (.v4 octets)))) = some (.v4 octets) := by
  have clear : Utf8.clears (['<'] ++ "NewExternalIPAddress".toList ++ ['>'])
      (soapOpen "GetExternalIPAddressResponse".toList) = true := by
    unfold soapOpen envelope
    repeat rw [String.toList_ofList]
    decide
  have each : ∀ c ∈ displayIp (.v4 octets), c ≠ '<' ∧ PortMap.isWhitespace c = false := by
    intro c member
    rcases PortMap.mem_displayIpv4 member with rfl | ⟨d, small, rfl⟩
    · decide
    · have digits : ∀ d < 10, d.digitChar ≠ '<' ∧ PortMap.isWhitespace d.digitChar = false := by decide
      exact digits d small
  have field := PortMap.xmlField_tagged clear (fun member => (each _ member).1 rfl) (fun c member => (each c member).2)
    (soapClose "GetExternalIPAddressResponse".toList)
  rw [PortMap.externalIpAddress, soapBody, field, Option.bind_some]
  exact PortMap.readIpAddr_display octets

theorem addPortMappingResponse_soapBody :
    PortMap.addPortMappingResponse (soapBody "AddPortMappingResponse".toList []) = true := by
  unfold soapBody soapOpen soapClose envelope
  repeat rw [String.toList_ofList]
  decide +kernel

end Lightbringer.Overlay.Sim
